import SaltyRtcServer.Effects

/-!
# What holds in every state of the server

The path of a server runs as `PathSystem` describes, its queues and receive loops
refer to tasks of the loop that do what they should, and a client has been
announced only if it has been authenticated.
-/

namespace SaltyRtcServer

open StepMachine

namespace Server

/-- The tasks that queues and receive loops refer to exist; a task that enqueues a
message is referred to by nobody and never cancelled.  What was submitted to a queue
that was not open is not in it, and its task is cancelled. -/
structure TasksSound (server : Server) : Prop where
  loop : server.loop.WellFormed
  queued : ∀ ref id, (server.jobs ref).Refers id →
    id < server.loop.next ∧ ∃ coroutine, (server.loop.task id).body = .run ref coroutine
  relays : ∀ ref id, (server.tasks ref).receiveLoop.status.task? = some id →
    id < server.loop.next ∧ ∃ destination packet number,
      (server.loop.task id).body = .run destination (.send (.relay packet) number)
  enqueues : ∀ id ref message, id < server.loop.next →
    (server.loop.task id).body = .enqueue ref message →
      (server.loop.task id).cancelRequested = false
  numbered : ∀ ref message, (message, none) ∉ (server.jobs ref).sends
  unnumbered : ∀ id ref message, id < server.loop.next →
    (server.loop.task id).body = .run ref (.send message none) →
      (server.loop.task id).cancelRequested = true

/-- The history and the path agree on who was authenticated. -/
structure StagesSound (server : Server) : Prop where
  system : PathSystem.machine.Reachable server.system
  authenticated : ∀ ref, .authenticated ref ∈ server.history →
    server.system.stage ref = .established ∨ server.system.stage ref = .left
  established : ∀ ref, server.system.stage ref = .established →
    .authenticated ref ∈ server.history
  announced : ∀ ref message initiator, .created ref message initiator ∈ server.history →
    .authenticated ref ∈ server.history

theorem TasksSound.refers {server : Server} (sound : server.TasksSound) {ref : ClientRef}
    {id : TaskId} (refers : server.Refers ref id) :
    id < server.loop.next ∧ ∃ client coroutine, (server.loop.task id).body = .run client coroutine := by
  rcases refers with queued | waits
  · obtain ⟨created, coroutine, body⟩ := sound.queued ref id queued
    exact ⟨created, ref, coroutine, body⟩
  · obtain ⟨created, destination, packet, number, body⟩ := sound.relays ref id waits
    exact ⟨created, destination, _, body⟩

section Tasks

variable {before after : Server}

/-- Tasks are added and cancelled; what is referred to later was referred to before
or is a new task that does what it should. -/
theorem TasksSound.extends {spawned : TaskBody → Prop} {cancelled : TaskId → Prop}
    (sound : before.TasksSound) (extension : before.loop.Extends spawned cancelled after.loop)
    (runs : ∀ id < before.loop.next, cancelled id →
      ∃ ref coroutine, (before.loop.task id).body = .run ref coroutine)
    (spares : ∀ ref message id, spawned (.enqueue ref message) → ¬ cancelled id)
    (queued : ∀ ref id, (after.jobs ref).Refers id → (before.jobs ref).Refers id ∨
      id < after.loop.next ∧ ∃ coroutine, (after.loop.task id).body = .run ref coroutine)
    (relays : ∀ ref id, (after.tasks ref).receiveLoop.status.task? = some id →
      (before.tasks ref).receiveLoop.status.task? = some id ∨
        id < after.loop.next ∧ ∃ destination packet number,
          (after.loop.task id).body = .run destination (.send (.relay packet) number))
    (numbered : ∀ ref message, (message, none) ∉ (after.jobs ref).sends)
    (unnumbered : ∀ id ref message, spawned (.run ref (.send message none)) →
      before.loop.next ≤ id → id < after.loop.next →
        (after.loop.task id).body = .run ref (.send message none) →
          (after.loop.task id).cancelRequested = true) :
    after.TasksSound where
  loop := extension.wellFormed sound.loop
  queued ref id refers := by
    rcases queued ref id refers with older | newer
    · obtain ⟨created, coroutine, body⟩ := sound.queued ref id older
      exact ⟨Nat.lt_of_lt_of_le created extension.next, coroutine,
        (extension.body id created).trans body⟩
    · exact newer
  relays ref id waits := by
    rcases relays ref id waits with older | newer
    · obtain ⟨created, destination, packet, number, body⟩ := sound.relays ref id older
      exact ⟨Nat.lt_of_lt_of_le created extension.next, destination, packet, number,
        (extension.body id created).trans body⟩
    · exact newer
  enqueues id ref message created body := by
    rcases Nat.lt_or_ge id before.loop.next with older | newer
    · rw [extension.body id older] at body
      rw [extension.spared id older]
      · exact sound.enqueues id ref message older body
      · intro isCancelled
        obtain ⟨client, coroutine, isRun⟩ := runs id older isCancelled
        rw [isRun] at body
        contradiction
    · obtain ⟨isSpawned, kept⟩ := extension.fresh id newer created
      rw [body] at isSpawned
      exact kept.resolve_left (spares ref message id isSpawned)
  numbered := numbered
  unnumbered id ref message created body := by
    rcases Nat.lt_or_ge id before.loop.next with older | newer
    · rw [extension.body id older] at body
      exact extension.requested id older (sound.unnumbered id ref message older body)
    · have isSpawned := (extension.fresh id newer created).1
      rw [body] at isSpawned
      exact unnumbered id ref message isSpawned newer created body

theorem TasksSound.calm {moves : ClientRef → Prop} (sound : before.TasksSound)
    (calm : Calm moves before after) : after.TasksSound := by
  refine sound.extends calm.loop ?_ (fun _ _ _ isClose => absurd isClose id)
    (fun ref id refers => .inl ((calm.jobs ref).refers id refers))
    (fun ref id waits => .inl (calm.relays ref id waits))
    (fun ref message mem => sound.numbered ref message ((calm.jobs ref).sends.subset mem))
    fun _ _ _ isClose => absurd isClose id
  rintro id _ ⟨other, refers⟩
  exact (sound.refers refers).2

theorem submit_refers {server : Server} {ref other : ClientRef} {message : OutgoingMessage}
    {id : TaskId} (refers : ((server.submit ref message).jobs other).Refers id) :
    (server.jobs other).Refers id := by
  rw [submit_jobs] at refers
  by_cases same : other = ref
  · subst same
    rw [Function.update_self] at refers
    split at refers
    · simpa [JobQueue.Refers, JobQueue.put] using refers
    · exact refers
  · rwa [Function.update_of_ne same] at refers

theorem TasksSound.submit (sound : before.TasksSound) (ref : ClientRef)
    (message : OutgoingMessage) : (before.submit ref message).TasksSound := by
  refine ⟨?_, ?_, ?_, ?_, fun other unnumbered mem => ?_, ?_⟩
  · rw [submit_loop]
    exact sound.loop
  · rw [submit_loop]
    exact fun other id refers => sound.queued other id (submit_refers refers)
  · rw [submit_loop, submit_tasks]
    exact sound.relays
  · rw [submit_loop]
    exact sound.enqueues
  · rw [submit_jobs] at mem
    by_cases same : other = ref
    · subst same
      rw [Function.update_self] at mem
      split at mem
      · next opened =>
        rw [JobQueue.sends_put] at mem
        rcases List.mem_append.mp mem with old | new
        · exact sound.numbered other unnumbered old
        · simp [JobEntry.message?, nextNumber, opened] at new
      · exact sound.numbered other unnumbered mem
    · rw [Function.update_of_ne same] at mem
      exact sound.numbered other unnumbered mem
  · rw [submit_loop]
    exact sound.unnumbered

theorem TasksSound.gather (sound : before.TasksSound)
    {messages : List (ClientRef × OutgoingMessage)} {ids : List TaskId}
    (gathers : before.gather messages = (after, ids)) : after.TasksSound := by
  obtain ⟨rfl, _⟩ := gather_eq gathers
  have extension : before.loop.Extends (fun body => ∃ ref message, body = .enqueue ref message)
      (fun _ => False)
      (before.loop.spawnAll (messages.map fun message => .enqueue message.1 message.2)).1 := by
    refine .spawnAll fun body mem => ?_
    obtain ⟨message, _, rfl⟩ := List.mem_map.mp mem
    exact ⟨_, _, rfl⟩
  exact sound.extends extension (fun _ _ => False.elim) (fun _ _ _ _ => id)
    (fun _ _ refers => .inl refers) (fun _ _ waits => .inl waits) sound.numbered (by simp)

section SubmitTask

variable (server : Server) (ref : ClientRef) (message : OutgoingMessage)

theorem submitTask_loop : (server.submitTask ref message).loop =
    let loop := server.loop.spawn (.run ref (.send message (server.nextNumber ref)))
    if (server.jobs ref).state = JobQueueState.opened then loop
    else loop.requestCancel server.loop.next := by
  unfold submitTask JobQueue.enqueue cancelAwaitable
  by_cases opened : (server.jobs ref).state = .opened <;>
    simp [opened, setJobs, log, EventLoop.spawn]

theorem submitTask_jobs : (server.submitTask ref message).jobs =
    Function.update server.jobs ref
      (if (server.jobs ref).state = JobQueueState.opened then
        (server.jobs ref).put (.job (.task server.loop.next))
      else server.jobs ref) := by
  unfold submitTask JobQueue.enqueue cancelAwaitable
  by_cases opened : (server.jobs ref).state = .opened <;>
    simp [opened, setJobs, log, EventLoop.spawn]

theorem submitTask_extends : server.loop.Extends
    (· = .run ref (.send message (server.nextNumber ref))) (· = server.loop.next)
    (server.submitTask ref message).loop := by
  rw [submitTask_loop]
  dsimp only
  split
  · exact .spawn rfl
  · refine EventLoop.Extends.trans (.spawn ?_) (.requestCancel ?_)
    · rfl
    · rfl

theorem submitTask_next : server.loop.next < (server.submitTask ref message).loop.next ∧
    ((server.submitTask ref message).loop.task server.loop.next).body =
      .run ref (.send message (server.nextNumber ref)) := by
  rw [submitTask_loop]
  dsimp only
  split <;> simp [EventLoop.spawn]

end SubmitTask

theorem TasksSound.relay (sound : before.TasksSound) (ref destination : ClientRef)
    (packet : List UInt8) :
    ((before.submitTask destination (.relay packet)).setReceiveLoop ref
      (.relaying before.loop.next packet)).TasksSound := by
  obtain ⟨created, body⟩ := submitTask_next before destination (.relay packet)
  refine sound.extends (submitTask_extends before destination (.relay packet)) ?_ ?_ ?_ ?_ ?_ ?_
  · rintro id older rfl
    exact absurd older (Nat.lt_irrefl _)
  · intro _ _ _ isRun
    contradiction
  · intro other id refers
    change ((before.submitTask destination (.relay packet)).jobs other).Refers id at refers
    rw [submitTask_jobs] at refers
    by_cases same : other = destination
    · subst same
      rw [Function.update_self] at refers
      split at refers
      · by_cases new : id = before.loop.next
        · subst new
          exact .inr ⟨created, _, body⟩
        · left
          simpa [JobQueue.Refers, JobQueue.put, new] using refers
      · exact .inl refers
    · rw [Function.update_of_ne same] at refers
      exact .inl refers
  · intro other id waits
    by_cases same : other = ref
    · subst same
      have new : before.loop.next = id := by
        simpa [Server.setReceiveLoop, setTasks, WorkerStatus.task?] using waits
      subst new
      exact .inr ⟨created, _, _, _, body⟩
    · left
      simpa [Server.setReceiveLoop, setTasks, same, submitTask, log, setJobs] using waits
  · intro other message mem
    change (message, none) ∈ ((before.submitTask destination (.relay packet)).jobs other).sends
      at mem
    rw [submitTask_jobs] at mem
    by_cases same : other = destination
    · subst same
      rw [Function.update_self] at mem
      split at mem
      · rw [JobQueue.sends_put] at mem
        simp only [JobEntry.message?, Option.toList_none, List.append_nil] at mem
        exact sound.numbered other message mem
      · exact sound.numbered other message mem
    · rw [Function.update_of_ne same] at mem
      exact sound.numbered other message mem
  · intro id other message isSpawned newer bounded _
    have closed : (before.jobs destination).state ≠ .opened := by
      intro opened
      simp [nextNumber, opened] at isSpawned
    change id < (before.submitTask destination (.relay packet)).loop.next at bounded
    change ((before.submitTask destination (.relay packet)).loop.task id).cancelRequested = true
    rw [submitTask_loop] at bounded ⊢
    simp only [closed, if_false, EventLoop.next_requestCancel] at bounded ⊢
    obtain rfl : id = before.loop.next := Nat.le_antisymm (Nat.le_of_lt_succ bounded) newer
    rw [EventLoop.cancelRequested_requestCancel]
    simp [EventLoop.isDone, EventLoop.spawn]

/-- The status of a task does not matter here. -/
theorem TasksSound.setStatus (sound : before.TasksSound) {id : TaskId}
    {status : TaskStatus PyException} {loop : Loop}
    (wellFormed : (loop.setStatus id status).WellFormed)
    (task : loop.task = before.loop.task) (next : loop.next = before.loop.next) :
    { before with loop := loop.setStatus id status }.TasksSound := by
  have body : ∀ other, ((loop.setStatus id status).task other).body =
      (before.loop.task other).body := by
    intro other
    by_cases same : other = id <;> simp [EventLoop.setStatus, same, task]
  have cancelRequested : ∀ other, ((loop.setStatus id status).task other).cancelRequested =
      (before.loop.task other).cancelRequested := by
    intro other
    by_cases same : other = id <;> simp [EventLoop.setStatus, same, task]
  have sameNext : (loop.setStatus id status).next = before.loop.next := next
  refine ⟨wellFormed, fun ref other refers => ?_, fun ref other waits => ?_, ?_, sound.numbered, ?_⟩
  · rw [body, sameNext]
    exact sound.queued ref other refers
  · rw [body, sameNext]
    exact sound.relays ref other waits
  · intro other ref message created isEnqueue
    rw [cancelRequested]
    exact sound.enqueues other ref message (sameNext ▸ created) ((body other).symm.trans isEnqueue)
  · intro other ref message created isRun
    rw [cancelRequested]
    exact sound.unnumbered other ref message (sameNext ▸ created) ((body other).symm.trans isRun)

theorem TasksSound.startHead (sound : before.TasksSound) {id : TaskId} {rest : List TaskId}
    (ready : before.loop.ready = id :: rest) {status : TaskStatus PyException}
    (started : status ≠ .unstarted) : (before.startHead id status).TasksSound :=
  sound.setStatus (sound.loop.pop ready started) rfl rfl

theorem TasksSound.take (sound : before.TasksSound) {ref : ClientRef} {coroutine : Coroutine}
    {rest : List JobEntry}
    (queue : (before.jobs ref).queue = .job (.coroutine coroutine) :: rest) :
    ({ before with loop := before.loop.spawn (.run ref coroutine) }.setJobs ref
      { before.jobs ref with
        queue := rest
        runner := .awaiting before.loop.next
        active := some before.loop.next }).TasksSound := by
  have extension : before.loop.Extends (· = .run ref coroutine) (fun _ => False)
      (before.loop.spawn (.run ref coroutine)) := .spawn rfl
  have mem : ∀ message, coroutine = .send message none →
      (message, none) ∈ (before.jobs ref).sends := by
    rintro message rfl
    simp [JobQueue.sends, queue, JobEntry.message?]
  refine sound.extends extension (fun _ _ => False.elim) (fun _ _ _ _ => id) ?_
    (fun _ _ waits => .inl waits) ?_ ?_
  rotate_left
  · intro other message isQueued
    by_cases same : other = ref
    · subst same
      apply sound.numbered other message
      simp only [setJobs, Function.update_self] at isQueued
      refine JobQueue.sends_sublist ?_ |>.subset isQueued
      rw [queue]
      exact List.suffix_cons _ _
    · apply sound.numbered other message
      simpa [setJobs, same] using isQueued
  · intro id other message isSpawned
    injection isSpawned with _ same
    exact absurd (mem message same.symm) (sound.numbered ref message)
  intro other id refers
  by_cases same : other = ref
  · subst same
    by_cases new : id = before.loop.next
    · subst new
      right
      simp [setJobs, EventLoop.spawn]
    · left
      simp only [setJobs, Function.update_self] at refers
      unfold JobQueue.Refers at refers ⊢
      grind
  · left
    simpa [setJobs, same] using refers

theorem TasksSound.connect (sound : before.TasksSound) {ref : ClientRef} {csn : Nat}
    (stepped : before.connect ref csn = some after) : after.TasksSound := by
  unfold Server.connect at stepped
  split at stepped
  · rw [Option.map_eq_some_iff] at stepped
    obtain ⟨system, _, rfl⟩ := stepped
    obtain ⟨loop, queued, relays, enqueues, numbered, unnumbered⟩ := sound
    refine ⟨loop, fun other id refers => ?_, fun other id waits => ?_, enqueues,
      fun other message mem => ?_, unnumbered⟩
    · by_cases same : other = ref
      · subst same
        simp [JobQueue.Refers, JobQueue.new] at refers
      · exact queued other id (by simpa [same] using refers)
    · by_cases same : other = ref
      · subst same
        simp [Tasks.new, WorkerStatus.task?] at waits
      · exact relays other id (by simpa [same] using waits)
    · by_cases same : other = ref
      · subst same
        simp [JobQueue.sends, JobQueue.new] at mem
      · exact numbered other message (by simpa [same] using mem)
  · contradiction

theorem TasksSound.of_same (sound : before.TasksSound) (loop : after.loop = before.loop)
    (jobs : after.jobs = before.jobs) (tasks : after.tasks = before.tasks) :
    after.TasksSound := by
  obtain ⟨wellFormed, queued, relays, enqueues, numbered, unnumbered⟩ := sound
  constructor
  · rwa [loop]
  · rwa [loop, jobs]
  · rwa [loop, tasks]
  · rwa [loop]
  · rwa [jobs]
  · rwa [loop]

theorem TasksSound.setHandler (sound : before.TasksSound) (ref : ClientRef) (next : Handler) :
    (before.setHandler ref next).TasksSound :=
  sound.of_same rfl rfl rfl

theorem TasksSound.log (sound : before.TasksSound) (event : Event) :
    (before.log event).TasksSound :=
  sound.of_same rfl rfl rfl

theorem Effect.tasksSound {origin : Server} {action : Action} {moves : ClientRef → Prop}
    (effect : Effect origin action moves before after) (sound : before.TasksSound) :
    after.TasksSound := by
  cases effect with
  | calm calm => exact sound.calm calm
  | path stepped plain _ => exact sound.of_same rfl rfl rfl
  | connect mover stepped => exact sound.connect stepped
  | @initiator ref _ dropped gathered state previous ids _ _ _ _ _ _ calm _ _ gathers =>
      have middle : ({ before with
          system := before.system.afterSetInitiator ref (.returned state previous) }.log
            (.authenticated ref)).TasksSound :=
        sound.of_same rfl rfl rfl
      have gatheredSound := (middle.calm calm).gather gathers
      split
      · exact gatheredSound
      · exact gatheredSound.setHandler _ _
  | @responder ref _ joined state id _ _ _ _ _ same =>
      have middle : joined.TasksSound := by
        rw [same]
        exact sound.of_same rfl rfl rfl
      split
      · exact middle.log _
      · exact (middle.submit _ _).log _
  | created => exact sound.log _
  | greeted => exact (sound.setHandler _ _).log _
  | serverAuth => exact (sound.setHandler _ _).log _
  | sendError => exact sound.submit _ _
  | relay packet => exact sound.relay _ _ packet
  | disconnectedResponder => exact sound.submit _ _
  | disconnectedInitiator _ _ _ _ _ gathers =>
      split
      · exact sound.gather gathers
      · exact (sound.gather gathers).setHandler _ _
  | take _ queue => exact sound.take queue
  | startEnded _ ready => exact sound.startHead ready (by simp)
  | startClosing _ ready => exact sound.startHead ready (by simp)
  | handed _ ready => exact (sound.startHead ready (by simp)).log _
  | enqueued _ ready => exact (sound.startHead ready (by simp)).submit _ _
  | ended _ suspended =>
      exact sound.setStatus (sound.loop.setStatus (by simp [suspended]) (by simp)) rfl rfl

end Tasks

section Stages

variable {before after : Server}

theorem Calm.mem_history {moves : ClientRef → Prop} (calm : Calm moves before after)
    {event : Event} (audible : ¬ event.Silent) :
    event ∈ after.history ↔ event ∈ before.history := by
  obtain ⟨events, history, silent⟩ := calm.history
  rw [history, List.mem_append, or_iff_left]
  exact fun mem => audible (silent event mem)

theorem StagesSound.calm {moves : ClientRef → Prop} (sound : before.StagesSound)
    (calm : Calm moves before after) : after.StagesSound := by
  obtain ⟨system, authenticated, established, announced⟩ := sound
  constructor
  · rwa [calm.system]
  · intro ref mem
    rw [calm.system]
    exact authenticated ref ((calm.mem_history id).mp mem)
  · intro ref stage
    rw [calm.system] at stage
    exact (calm.mem_history id).mpr (established ref stage)
  · intro ref message initiator mem
    exact (calm.mem_history id).mpr
      (announced ref message initiator ((calm.mem_history id).mp mem))

/-- Events other than these two say nothing about stages. -/
theorem StagesSound.log (sound : before.StagesSound) {event : Event}
    (notAuthenticated : ∀ ref, event ≠ .authenticated ref)
    (announcedOnly : ∀ ref message initiator, event = .created ref message initiator →
      .authenticated ref ∈ before.history) : (before.log event).StagesSound := by
  obtain ⟨system, authenticated, established, announced⟩ := sound
  constructor
  · exact system
  · intro ref mem
    rcases List.mem_append.mp mem with old | new
    · exact authenticated ref old
    · exact absurd (List.mem_singleton.mp new).symm (notAuthenticated ref)
  · intro ref stage
    exact List.mem_append_left _ (established ref stage)
  · intro ref message initiator mem
    rcases List.mem_append.mp mem with old | new
    · exact List.mem_append_left _ (announced ref message initiator old)
    · exact List.mem_append_left _
        (announcedOnly ref message initiator (List.mem_singleton.mp new).symm)

/-- A call that authenticates nobody changes a stage only by leaving. -/
theorem stage_of_plain {moves : ClientRef → Prop} {system next : PathSystem}
    {call : PathSystem.Action} (stepped : system.step call = some next)
    (plain : call.Plain moves) (ref : ClientRef) :
    next.stage ref = system.stage ref ∨ moves ref ∧ next.stage ref = .left ∧
      (system.stage ref = .handshaking ∨ system.stage ref = .established) := by
  cases call with
  | connect _ | setInitiator _ | addResponder _ => exact plain.elim
  | setType other type =>
      simp only [PathSystem.step, PathSystem.setType] at stepped
      grind
  | drop other =>
      simp only [PathSystem.step, PathSystem.dropClient, PathSystem.remove] at stepped
      grind
  | leave other =>
      simp only [PathSystem.step, PathSystem.leave, PathSystem.remove] at stepped
      split at stepped
      · next present =>
        injection stepped with same
        subst same
        by_cases same : ref = other
        · subst same
          exact .inr ⟨plain, by simp, present⟩
        · exact .inl (by simp [same])
      · contradiction
  | clean =>
      injection stepped with same
      subst same
      exact .inl rfl

theorem StagesSound.path {moves : ClientRef → Prop} (sound : before.StagesSound)
    {call : PathSystem.Action} {system : PathSystem}
    (stepped : before.system.step call = some system) (plain : call.Plain moves) :
    { before with system := system }.StagesSound := by
  obtain ⟨reachable, authenticated, established, announced⟩ := sound
  have next : PathSystem.machine.Reachable system := .next call reachable trivial stepped
  refine ⟨next, fun ref mem => ?_, fun ref stage => ?_, announced⟩
  · rcases stage_of_plain stepped plain ref with same | ⟨_, left, _⟩
    · exact same ▸ authenticated ref mem
    · exact .inr left
  · rcases stage_of_plain stepped plain ref with same | ⟨_, left, _⟩
    · exact established ref (same ▸ stage)
    · exact absurd (stage.symm.trans left) (by simp)

/-- A client is authenticated in the history and on the path at once. -/
theorem StagesSound.authenticate (sound : before.StagesSound) {ref : ClientRef}
    {system : PathSystem} (reachable : PathSystem.machine.Reachable system)
    (stages : system.stage = Function.update before.system.stage ref .established) :
    ({ before with system := system }.log (.authenticated ref)).StagesSound := by
  obtain ⟨_, authenticated, established, announced⟩ := sound
  refine ⟨reachable, fun other mem => ?_, fun other stage => ?_, ?_⟩
  · change system.stage other = .established ∨ system.stage other = .left
    rw [stages]
    by_cases same : other = ref
    · subst same
      simp
    · rw [Function.update_of_ne same]
      apply authenticated other
      simpa [Server.log, same] using mem
  · change system.stage other = .established at stage
    rw [stages] at stage
    by_cases same : other = ref
    · subst same
      exact List.mem_append_right _ List.mem_cons_self
    · rw [Function.update_of_ne same] at stage
      exact List.mem_append_left _ (established other stage)
  · intro other message initiator mem
    refine List.mem_append_left _ (announced other message initiator ?_)
    simpa [Server.log] using mem

theorem stages_of_connect {system next : PathSystem} {ref : ClientRef}
    (joined : system.step (.connect ref) = some next) :
    system.stage ref = .absent ∧
      next.stage = Function.update system.stage ref .handshaking := by
  simp only [PathSystem.step, Path.addPending] at joined
  grind

theorem StagesSound.connect (sound : before.StagesSound) {ref : ClientRef} {csn : Nat}
    (stepped : before.connect ref csn = some after) : after.StagesSound := by
  unfold Server.connect at stepped
  split at stepped
  · rw [Option.map_eq_some_iff] at stepped
    obtain ⟨system, joined, rfl⟩ := stepped
    obtain ⟨reachable, authenticated, established, announced⟩ := sound
    have next : PathSystem.machine.Reachable system :=
      .next (.connect ref) reachable trivial joined
    have stages := stages_of_connect joined
    refine ⟨next, fun other mem => ?_, fun other stage => ?_, announced⟩
    · change system.stage other = .established ∨ system.stage other = .left
      rw [stages.2]
      by_cases same : other = ref
      · subst same
        have := authenticated other mem
        simp [stages.1] at this
      · rw [Function.update_of_ne same]
        exact authenticated other mem
    · change system.stage other = .established at stage
      rw [stages.2] at stage
      by_cases same : other = ref
      · subst same
        simp at stage
      · rw [Function.update_of_ne same] at stage
        exact established other stage
  · contradiction

theorem StagesSound.submit (sound : before.StagesSound) (ref : ClientRef)
    (message : OutgoingMessage) : (before.submit ref message).StagesSound := by
  have logged : (before.log (.submitted ref message (before.nextNumber ref))).StagesSound :=
    sound.log (by simp) (by simp)
  rw [submit_eq]
  exact ⟨logged.system, logged.authenticated, logged.established, logged.announced⟩

theorem StagesSound.of_same (sound : before.StagesSound) (system : after.system = before.system)
    (history : after.history = before.history) : after.StagesSound := by
  obtain ⟨reachable, authenticated, established, announced⟩ := sound
  exact ⟨system ▸ reachable, by rwa [system, history], by rwa [system, history],
    by rwa [history]⟩

theorem StagesSound.gather (sound : before.StagesSound)
    {messages : List (ClientRef × OutgoingMessage)} {ids : List TaskId}
    (gathers : before.gather messages = (after, ids)) : after.StagesSound := by
  obtain ⟨rfl, _⟩ := gather_eq gathers
  exact sound.of_same rfl rfl

theorem Effect.stagesSound {origin : Server} {action : Action} {moves : ClientRef → Prop}
    (effect : Effect origin action moves before after) (sound : before.StagesSound) :
    after.StagesSound := by
  cases effect with
  | calm calm => exact sound.calm calm
  | path stepped plain _ => exact sound.path stepped plain
  | connect mover stepped => exact sound.connect stepped
  | @initiator ref _ dropped gathered state previous ids _ _ _ _ handshaking called calm _ _ gathers =>
      have stepped : before.system.step (.setInitiator ref) =
          some (before.system.afterSetInitiator ref (.returned state previous)) := by
        rw [← called]
        exact if_pos handshaking
      have reachable : PathSystem.machine.Reachable _ :=
        .next (.setInitiator ref) sound.system trivial stepped
      have middle := sound.authenticate reachable
        (afterSetInitiator_stages before.system ref state previous)
      have gatheredSound := (middle.calm calm).gather gathers
      split
      · exact gatheredSound
      · exact gatheredSound.of_same rfl rfl
  | @responder ref _ joined state id _ _ _ handshaking called same =>
      have stepped : before.system.step (.addResponder ref) =
          some (before.system.afterAddResponder ref (.returned state id)) := by
        rw [← called]
        exact if_pos handshaking
      have middle : joined.StagesSound := by
        rw [same]
        have reachable : PathSystem.machine.Reachable _ :=
          .next (.addResponder ref) sound.system trivial stepped
        exact sound.authenticate reachable rfl
      have isAuthenticated : .authenticated ref ∈ joined.history := by
        rw [same]
        exact List.mem_append_right _ List.mem_cons_self
      split
      · apply middle.log (by simp)
        rintro other message initiator event
        injection event with same
        exact same ▸ isAuthenticated
      · apply (middle.submit _ _).log (by simp)
        rintro other message initiator event
        injection event with same
        rw [submit_history]
        exact List.mem_append_left _ (same ▸ isAuthenticated)
  | created established =>
      apply sound.log (by simp)
      rintro other message initiator event
      injection event with same
      exact same ▸ sound.established _ established
  | greeted => exact (sound.log (by simp) (by simp)).of_same rfl rfl
  | serverAuth => exact (sound.log (by simp) (by simp)).of_same rfl rfl
  | sendError => exact sound.submit _ _
  | relay packet => exact (sound.log (by simp) (by simp)).of_same rfl rfl
  | disconnectedResponder => exact sound.submit _ _
  | disconnectedInitiator _ _ _ _ _ gathers =>
      split
      · exact sound.gather gathers
      · exact (sound.gather gathers).of_same rfl rfl
  | take => exact sound.of_same rfl rfl
  | startEnded => exact sound.of_same rfl rfl
  | startClosing => exact sound.of_same rfl rfl
  | handed => exact (sound.log (by simp) (by simp)).of_same rfl rfl
  | enqueued =>
      refine StagesSound.submit ?_ _ _
      exact sound.of_same rfl rfl
  | ended => exact sound.of_same rfl rfl

end Stages

section Phases

variable {before after : Server} {ref : ClientRef}

/-- What the phase of a client depends on. -/
theorem Phase.of_same (phase : before.Phase ref) (handler : after.handler ref = before.handler ref)
    (stage : after.system.stage ref = before.system.stage ref)
    (protocols : ref ∈ after.protocols → ref ∈ before.protocols)
    (idle : (before.jobs ref).Idle → (after.jobs ref).Idle) : after.Phase ref := by
  unfold Phase at phase ⊢
  rw [handler, stage]
  split at phase <;> tauto

theorem Phase.calm {moves : ClientRef → Prop} (phase : before.Phase ref)
    (calm : Calm moves before after) (still : ¬ moves ref) : after.Phase ref :=
  phase.of_same (calm.handlers ref still) (by rw [calm.system])
    (fun mem => calm.protocols mem) (calm.idle ref still)

theorem Phase.submit (phase : before.Phase ref) (other : ClientRef) (message : OutgoingMessage) :
    (before.submit other message).Phase ref := by
  refine phase.of_same (by rw [submit_handler]) (by rw [submit_system]) ?_
    (submit_idle before other message)
  rw [submit_eq]
  exact id

theorem Phase.gather (phase : before.Phase ref) {messages : List (ClientRef × OutgoingMessage)}
    {ids : List TaskId} (gathers : before.gather messages = (after, ids)) : after.Phase ref := by
  obtain ⟨rfl, _⟩ := gather_eq gathers
  exact phase.of_same rfl rfl id id

theorem Phase.setHandler (phase : before.Phase ref) {mover : ClientRef} (ne : ref ≠ mover)
    (next : Handler) : (before.setHandler mover next).Phase ref :=
  phase.of_same (Function.update_of_ne ne _ _) rfl id id

theorem submitTask_idle {server : Server} {ref other : ClientRef} (message : OutgoingMessage)
    (idle : (server.jobs other).Idle) : ((server.submitTask ref message).jobs other).Idle := by
  rw [submitTask_jobs]
  by_cases same : other = ref
  · subst same
    rw [Function.update_self]
    split
    · exact ⟨idle.notStarted, idle.state⟩
    · exact idle
  · rwa [Function.update_of_ne same]

/-- An effect leaves the phase of a client alone whose handler does not get on. -/
theorem Effect.phase {origin : Server} {action : Action} {moves : ClientRef → Prop}
    (effect : Effect origin action moves before after) (still : ¬ moves ref)
    (phase : before.Phase ref) : after.Phase ref := by
  have other : ∀ {mover : ClientRef}, moves mover → ref ≠ mover := by
    rintro mover isMover rfl
    exact still isMover
  cases effect with
  | calm calm => exact phase.calm calm still
  | path stepped plain _ =>
      refine phase.of_same rfl ?_ id id
      exact (stage_of_plain stepped plain ref).resolve_right fun left => still left.1
  | @connect mover csn _ isMover stepped =>
      have ne := other isMover
      unfold Server.connect at stepped
      split at stepped
      · rw [Option.map_eq_some_iff] at stepped
        obtain ⟨system, joined, rfl⟩ := stepped
        apply phase.of_same (Function.update_of_ne ne _ _)
        · rw [(stages_of_connect joined).2, Function.update_of_ne ne]
        · exact fun mem => (Finset.mem_insert.mp mem).resolve_left ne
        · simp [ne]
      · contradiction
  | @initiator mover _ dropped gathered state previous ids isMover _ _ _ _ _ calm _ _ gathers =>
      have ne := other isMover
      have middle : ({ before with
          system := before.system.afterSetInitiator mover (.returned state previous) }.log
            (.authenticated mover)).Phase ref := by
        refine phase.of_same rfl ?_ id id
        change (before.system.afterSetInitiator mover (.returned state previous)).stage ref = _
        rw [afterSetInitiator_stages, Function.update_of_ne ne]
      have gatheredPhase := (middle.calm calm still).gather gathers
      split
      · exact gatheredPhase
      · exact gatheredPhase.setHandler ne _
  | @responder mover _ joined state id isMover _ _ _ _ same =>
      have ne := other isMover
      have middle : joined.Phase ref := by
        rw [same]
        exact phase.of_same rfl (Function.update_of_ne ne _ _) (fun mem => mem) (fun idle => idle)
      split
      · exact middle.of_same rfl rfl (fun mem => mem) (fun idle => idle)
      · exact (middle.submit _ _).of_same rfl rfl (fun mem => mem) (fun idle => idle)
  | created => exact phase.of_same rfl rfl id id
  | greeted isMover => exact (phase.setHandler (other isMover) _).of_same rfl rfl id id
  | serverAuth isMover => exact (phase.setHandler (other isMover) _).of_same rfl rfl id id
  | sendError => exact phase.submit _ _
  | relay packet => exact phase.of_same rfl rfl id (submitTask_idle _)
  | disconnectedResponder => exact phase.submit _ _
  | disconnectedInitiator isMover _ _ _ _ gathers =>
      split
      · exact phase.gather gathers
      · exact (phase.gather gathers).setHandler (other isMover) _
  | @take mover coroutine rest _ running =>
      refine phase.of_same rfl rfl id fun idle => ?_
      by_cases same : ref = mover
      · subst same
        exact absurd (running.symm.trans idle.notStarted) (by simp)
      · simpa [Server.setJobs, same] using idle
  | startEnded => exact phase.of_same rfl rfl id id
  | startClosing => exact phase.of_same rfl rfl id id
  | handed => exact phase.of_same rfl rfl id id
  | enqueued =>
      refine Phase.submit ?_ _ _
      exact phase.of_same rfl rfl id id
  | ended => exact phase.of_same rfl rfl id id

theorem Effects.phase {origin : Server} {action : Action} {moves : ClientRef → Prop}
    (effects : Effects origin action moves before after) (still : ¬ moves ref)
    (phase : before.Phase ref) : after.Phase ref := by
  induction effects with
  | refl => exact phase
  | tail _ effect ih => exact effect.phase still ih

/-- The client is on its way through the path. -/
def Placed (server : Server) (ref : ClientRef) : Prop :=
  server.system.stage ref = .handshaking ∨ server.system.stage ref = .established

theorem Placed.present {server : Server} (placed : server.Placed ref) :
    server.system.stage ref ≠ .absent := by
  rcases placed with stage | stage <;> simp [stage]

variable {server : Server}

theorem handleException_phase (present : server.system.stage ref ≠ .absent)
    (exception : PyException) : (server.handleException ref exception).Phase ref := by
  unfold Server.handleException
  split
  · simpa [Phase, Server.setHandler] using present
  · simpa [Phase, Server.setHandler] using present

theorem phase_of_awaiting (awaiting : server.handler ref = .awaitingResult)
    (placed : server.Placed ref) : server.Phase ref := by
  unfold Phase
  rwa [awaiting]

theorem start_phase (placed : server.Placed ref) (connected : Bool) :
    (server.start ref connected).Phase ref := by
  unfold Server.start
  split
  · exact phase_of_awaiting (Function.update_self _ _ _) placed
  · exact handleException_phase placed.present _

theorem abort_phase (placed : server.Placed ref) (exception : PyException) :
    (server.abort ref exception).Phase ref := by
  have cancelled : (server.cancelJobs ref exception).1.Placed ref := placed
  unfold Server.abort
  split
  · next after raised called =>
    rw [called] at cancelled
    exact handleException_phase cancelled.present raised
  · next after called =>
    rw [called] at cancelled
    refine start_phase ?_ false
    exact cancelled

theorem completeHandshake_phase (placed : server.Placed ref) :
    (server.completeHandshake ref).Phase ref := by
  unfold Server.completeHandshake
  split
  · exact handleException_phase placed.present _
  · split
    · exact start_phase placed _
    · exact start_phase placed _
    · exact handleException_phase placed.present _
    · exact handleException_phase placed.present _

theorem send_phase {message : OutgoingMessage} {next : Handler} (placed : server.Placed ref)
    (sends : (server.setHandler ref next).Phase ref) :
    (server.send ref message next).Phase ref := by
  unfold Server.send
  split
  · refine abort_phase ?_ _
    exact placed
  · exact sends.of_same rfl rfl id id

theorem sendServerAuth_phase {message : OutgoingMessage}
    (established : server.system.stage ref = .established) (idle : (server.jobs ref).Idle) :
    (server.sendServerAuth ref message).Phase ref := by
  unfold Server.sendServerAuth
  refine send_phase (.inr established) ?_
  simpa [Phase, Server.setHandler] using ⟨established, idle⟩

theorem sendInitiatorAuth_phase (established : server.system.stage ref = .established)
    (idle : (server.jobs ref).Idle) : (server.sendInitiatorAuth ref).Phase ref := by
  unfold Server.sendInitiatorAuth
  split
  · exact abort_phase (.inr established) _
  · exact sendServerAuth_phase established idle

theorem handshakeInitiator_phase (placed : server.Placed ref) (idle : (server.jobs ref).Idle)
    (verdict : Except PacketError Unit) : (server.handshakeInitiator ref verdict).Phase ref := by
  unfold Server.handshakeInitiator
  split
  · exact abort_phase placed _
  · dsimp only
    cases called : server.system.path.setInitiator ref (server.system.client ref) with
    | raised state exception =>
        refine abort_phase ?_ exception
        exact placed
    | returned state previous =>
        let middle : Server := { server with
          system := server.system.afterSetInitiator ref (.returned state previous) }.log
            (.authenticated ref)
        obtain ⟨_, _, system, stillIdle⟩ := dropPrevious_same middle previous ref idle
        have established : (middle.dropPrevious previous).system.stage ref = .established := by
          rw [system]
          simp [middle, Server.log, afterSetInitiator_stages]
        dsimp only
        rcases gathers : (middle.dropPrevious previous).gather
          ((middle.dropPrevious previous).toResponders .newInitiator) with ⟨after, ids⟩
        obtain ⟨rfl, _⟩ := gather_eq gathers
        cases ids with
        | nil => exact sendInitiatorAuth_phase established stillIdle
        | cons id ids => simpa [Phase, Server.setHandler] using ⟨established, stillIdle⟩

theorem handshakeResponder_phase (placed : server.Placed ref) (idle : (server.jobs ref).Idle)
    (verdict : Except PacketError Unit) : (server.handshakeResponder ref verdict).Phase ref := by
  unfold Server.handshakeResponder
  split
  · exact abort_phase placed _
  · dsimp only
    cases called : server.system.path.addResponder ref (server.system.client ref) with
    | raised state exception =>
        refine abort_phase ?_ exception
        exact placed
    | returned state id =>
        let joined : Server := { server with
          system := server.system.afterAddResponder ref (.returned state id) }.log
            (.authenticated ref)
        have established : joined.system.stage ref = .established := by
          simp [joined, Server.log, PathSystem.afterAddResponder]
        change (joined.announceResponder ref id).Phase ref
        unfold Server.announceResponder
        split
        · exact sendServerAuth_phase established idle
        · exact abort_phase (.inr established) _
        · refine sendServerAuth_phase ?_ (submit_idle joined _ _ idle)
          rw [submit_system]
          exact established

/-- A handler that has given up its client only finishes. -/
theorem phase_of_late {next : Handler} (present : server.system.stage ref ≠ .absent)
    (handler : server.handler ref = next)
    (late : next = .finished ∨ (∃ exception, next = .raised exception) ∨
      (∃ closing, next = .joining closing ∨ next = .cancellingJoin closing ∨
        next = .joined closing ∨ next = .closing closing) ∨
      ∃ closing ids, next = .dispatching closing ids) : server.Phase ref := by
  unfold Phase
  rw [handler]
  rcases late with rfl | ⟨_, rfl⟩ | ⟨_, rfl | rfl | rfl | rfl⟩ | ⟨_, _, rfl⟩ <;> exact present

theorem Phase.present (phase : server.Phase ref) (present : server.handler ref ≠ .absent) :
    server.system.stage ref ≠ .absent := by
  unfold Phase at phase
  split at phase
  · contradiction
  all_goals first
    | exact phase
    | exact Placed.present phase
    | rw [phase.1]; simp

theorem connect_phase {csn : Nat} (stepped : server.connect ref csn = some after) :
    after.Phase ref := by
  unfold Server.connect at stepped
  split at stepped
  · rw [Option.map_eq_some_iff] at stepped
    obtain ⟨system, joined, rfl⟩ := stepped
    unfold Phase
    simp only [Function.update_self]
    refine ⟨?_, rfl, .inl rfl⟩
    rw [(stages_of_connect joined).2, Function.update_self]
  · contradiction

theorem receive_phase {input : Received} (phase : server.Phase ref)
    (handshake : server.handler ref ≠ .awaitingResult)
    (stepped : server.receive ref input = some after) : after.Phase ref := by
  unfold Server.receive at stepped
  unfold Phase at phase
  split at stepped
  · next receiving =>
    rw [receiving] at phase
    obtain ⟨stage, idle⟩ := phase
    injection stepped with same
    subst same
    unfold Server.receiveFirst
    split
    · refine handshakeInitiator_phase ?_ ?_ _
      · exact .inl stage
      · exact idle
    · unfold Server.awaitAuth
      split
      · refine abort_phase ?_ _
        exact .inl stage
      · simpa [Phase, Server.setHandler] using ⟨stage, idle⟩
    · exact abort_phase (.inl stage) _
    · exact abort_phase (.inl stage) _
  · next receiving =>
    rw [receiving] at phase
    obtain ⟨stage, idle⟩ := phase
    injection stepped with same
    subst same
    unfold Server.receiveAuth
    split
    · exact handshakeResponder_phase (.inl stage) idle _
    · exact abort_phase (.inl stage) _
    · exact abort_phase (.inl stage) _
  · next awaiting => exact absurd awaiting handshake
  · contradiction

theorem receiveClosed_phase {code : Nat} (phase : server.Phase ref)
    (handshake : server.handler ref ≠ .awaitingResult)
    (stepped : server.receiveClosed ref code = some after) : after.Phase ref := by
  unfold Server.receiveClosed at stepped
  unfold Phase at phase
  split at stepped
  · split at stepped
    · next receiving =>
      rw [receiving] at phase
      injection stepped with same
      subst same
      refine abort_phase ?_ _
      exact .inl phase.1
    · next receiving =>
      rw [receiving] at phase
      injection stepped with same
      subst same
      refine abort_phase ?_ _
      exact .inl phase.1
    · next awaiting => exact absurd awaiting handshake
    · contradiction
  · contradiction

theorem leave_phase (placed : server.Placed ref) (result : PyException) :
    (server.leave ref result).Phase ref := by
  have cancelled : (server.cancelJobs ref result).1.Placed ref := placed
  unfold Server.leave
  split
  · next after raised called =>
    rw [called] at cancelled
    exact handleException_phase cancelled.present raised
  · next after called =>
    refine handleException_phase ?_ result
    dsimp only
    split <;> simp [PathSystem.clean, PathSystem.leave]

theorem dispatch_phase (present : server.system.stage ref ≠ .absent) (closing : Option TaskId) :
    (server.dispatch ref closing).Phase ref := by
  have skipped : (server.setHandler ref (.closing closing)).Phase ref :=
    phase_of_late present (Function.update_self _ _ _) (by simp)
  have raised : ∀ exception, (server.setHandler ref (.raised exception)).Phase ref :=
    fun exception => phase_of_late present (Function.update_self _ _ _) (by simp)
  unfold Server.dispatch
  dsimp only
  split
  · exact skipped
  · split
    · split
      · exact raised _
      · rcases gathers : server.gather (server.toResponders fun id =>
          .disconnected id.toAddress initiatorAddress) with ⟨after, ids⟩
        obtain ⟨rfl, _⟩ := gather_eq gathers
        cases ids with
        | nil => exact phase_of_late present (Function.update_self _ _ _) (by simp)
        | cons id ids => exact phase_of_late present (Function.update_self _ _ _) (by simp)
    · split
      · exact skipped
      · exact raised _
      · refine phase_of_late ?_ (Function.update_self _ _ _) (by simp)
        simpa [Server.setHandler] using present
    · exact skipped

theorem step_phase_moved {action : Action} (phase : server.Phase ref)
    (stepped : server.step action = some after) (moved : server.MovedBy action ref) :
    after.Phase ref := by
  cases action with
  | connect other csn =>
      obtain rfl := moved
      exact connect_phase stepped
  | begin other =>
      obtain rfl := moved
      simp only [step] at stepped
      split at stepped
      · next created =>
        injection stepped with same
        subst same
        unfold Phase at phase
        rw [created] at phase
        apply send_phase (.inl phase.1)
        simpa [Phase, Server.setHandler] using phase
      · contradiction
  | sent other =>
      obtain rfl := moved
      simp only [step] at stepped
      unfold Phase at phase
      split at stepped
      · next greeting =>
        rw [greeting] at phase
        injection stepped with same
        subst same
        simpa [Phase, Server.setHandler] using phase
      · next sending =>
        rw [sending] at phase
        injection stepped with same
        subst same
        exact completeHandshake_phase (.inr phase.1)
      · contradiction
  | sendClosed other code =>
      obtain rfl := moved
      simp only [step] at stepped
      unfold Phase at phase
      split at stepped
      · next closed =>
        injection stepped with same
        subst same
        refine abort_phase ?_ _
        rcases closed.1 with greeting | sending
        · rw [greeting] at phase
          exact .inl phase.1
        · rw [sending] at phase
          exact .inr phase.1
      · contradiction
  | receive other input =>
      obtain ⟨rfl, handshake⟩ := moved
      exact receive_phase phase handshake stepped
  | receiveClosed other code =>
      obtain ⟨rfl, handshake⟩ := moved
      exact receiveClosed_phase phase handshake stepped
  | gathered other =>
      obtain rfl := moved
      simp only [step] at stepped
      unfold Phase at phase
      split at stepped
      · next ids gathering =>
        rw [gathering] at phase
        split at stepped
        · injection stepped with same
          subst same
          exact sendInitiatorAuth_phase phase.1 phase.2
        · contradiction
      · contradiction
  | result other =>
      obtain rfl := moved
      simp only [step] at stepped
      unfold Phase at phase
      split at stepped
      · next awaiting _ =>
        rw [awaiting] at phase
        injection stepped with same
        subst same
        exact leave_phase phase _
      · contradiction
  | join other =>
      obtain rfl := moved
      simp only [step] at stepped
      split at stepped
      · next closing joining =>
        have present := phase.present (by simp [joining])
        unfold Server.join at stepped
        split at stepped
        · injection stepped with same
          subst same
          exact phase_of_late present (Function.update_self _ _ _) (by simp)
        · injection stepped with same
          subst same
          exact phase_of_late present (Function.update_self _ _ _) (by simp)
        · split at stepped
          · injection stepped with same
            subst same
            exact phase_of_late present (Function.update_self _ _ _) (by simp)
          · contradiction
        · contradiction
      · contradiction
  | joinTimeout other =>
      obtain rfl := moved
      simp only [step] at stepped
      split at stepped
      · next closing joining =>
        have present := phase.present (by simp [joining])
        split at stepped
        · contradiction
        · injection stepped with same
          subst same
          unfold Server.joinTimeout
          dsimp only
          split <;> exact phase_of_late present (Function.update_self _ _ _) (by simp)
      · contradiction
  | joinCancelled other =>
      obtain rfl := moved
      simp only [step] at stepped
      split at stepped
      · next closing cancelling =>
        have present := phase.present (by simp [cancelling])
        injection stepped with same
        subst same
        exact phase_of_late present (Function.update_self _ _ _) (by simp)
      · contradiction
  | dispatch other =>
      obtain rfl := moved
      simp only [step] at stepped
      split at stepped
      · next closing joined =>
        injection stepped with same
        subst same
        exact dispatch_phase (phase.present (by simp [joined])) closing
      · contradiction
  | dispatched other =>
      obtain rfl := moved
      simp only [step] at stepped
      split at stepped
      · next closing ids dispatching =>
        have present := phase.present (by simp [dispatching])
        split at stepped
        · injection stepped with same
          subst same
          exact phase_of_late present (Function.update_self _ _ _) (by simp)
        · contradiction
      · contradiction
  | finish other =>
      obtain rfl := moved
      simp only [step] at stepped
      split at stepped
      · next closing isClosing =>
        have present := phase.present (by simp [isClosing])
        unfold Server.finish at stepped
        split at stepped
        · injection stepped with same
          subst same
          exact phase_of_late present (Function.update_self _ _ _) (by simp)
        · split at stepped
          · injection stepped with same
            subst same
            exact phase_of_late present (Function.update_self _ _ _) (by simp)
          · injection stepped with same
            subst same
            exact phase_of_late present (Function.update_self _ _ _) (by simp)
          · injection stepped with same
            subst same
            exact phase_of_late present (Function.update_self _ _ _) (by simp)
          · contradiction
      · contradiction
  | _ => exact moved.elim

end Phases

section Runs

/-- What holds in every reachable state. -/
structure Sound (server : Server) : Prop where
  tasks : server.TasksSound
  stages : server.StagesSound
  phase : ∀ ref, server.Phase ref

variable {server before after : Server} {action : Action}

theorem Sound.consistent (sound : server.Sound) : server.system.Consistent :=
  PathSystem.consistent_of_reachable sound.stages.system

theorem Sound.effects (sound : before.Sound) (stepped : before.step action = some after) :
    Effects before action (before.MovedBy action) before after :=
  step_effects sound.consistent sound.tasks.loop sound.phase stepped

theorem Effects.sound {origin : Server} {moves : ClientRef → Prop}
    (effects : Effects origin action moves before after)
    (sound : before.TasksSound ∧ before.StagesSound) : after.TasksSound ∧ after.StagesSound := by
  induction effects with
  | refl => exact sound
  | tail _ effect ih => exact ⟨effect.tasksSound ih.1, effect.stagesSound ih.2⟩

theorem Sound.step (sound : before.Sound) (stepped : before.step action = some after) :
    after.Sound := by
  have effects := sound.effects stepped
  obtain ⟨tasks, stages⟩ := effects.sound ⟨sound.tasks, sound.stages⟩
  refine ⟨tasks, stages, fun ref => ?_⟩
  by_cases moved : before.MovedBy action ref
  · exact step_phase_moved (sound.phase ref) stepped moved
  · exact effects.phase moved (sound.phase ref)

theorem sound_created (initiatorKey : List UInt8) (number : Nat) :
    (created initiatorKey number).Sound where
  tasks := by
    refine ⟨⟨List.Pairwise.nil, by simp [created], by simp [created]⟩, ?_, ?_, by simp [created],
      ?_, by simp [created]⟩
    · simp [created, JobQueue.new, JobQueue.Refers]
    · simp [created, Tasks.new, WorkerStatus.task?]
    · simp [created, JobQueue.new, JobQueue.sends]
  stages := by
    refine ⟨.start (PathSystem.initial_created initiatorKey number), ?_, ?_, ?_⟩ <;>
      simp [created, PathSystem.created]
  phase ref := by simp [Phase, created, PathSystem.created]

theorem sound_of_reachable (reachable : machine.Reachable server) : server.Sound := by
  refine reachable.invariant _ ?_ fun _ _ _ _ _ sound stepped => sound.step stepped
  rintro server ⟨initiatorKey, number, rfl⟩
  exact sound_created initiatorKey number

/-- The path of a server runs as its protocols drive it. -/
theorem system_reachable (reachable : machine.Reachable server) :
    PathSystem.machine.Reachable server.system :=
  (sound_of_reachable reachable).stages.system

/-- What holds at the start and survives every effect of the allowed steps holds
along every run of allowed steps. -/
theorem invariant_of_effects {allowed : Server → Action → Prop} (holds : Server → Prop)
    (atStart : ∀ initiatorKey number, holds (created initiatorKey number))
    (kept : ∀ origin action before after, origin.Sound → allowed origin action →
      before.TasksSound → before.StagesSound → holds before →
      Effect origin action (origin.MovedBy action) before after → holds after)
    (reach : machine.Reach allowed server) : holds server := by
  apply reach.invariant _
  · rintro server ⟨initiatorKey, number, rfl⟩
    exact atStart initiatorKey number
  · intro origin last action reached permitted initial stepped
    have sound := sound_of_reachable reached.reachable
    have effects := sound.effects stepped
    clear stepped
    induction effects with
    | refl => exact initial
    | tail first effect ih =>
        obtain ⟨tasks, stages⟩ := Effects.sound first ⟨sound.tasks, sound.stages⟩
        exact kept origin action _ _ sound permitted tasks stages ih effect

end Runs

end Server

end SaltyRtcServer
