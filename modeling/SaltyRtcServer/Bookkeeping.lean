import SaltyRtcServer.ServerRun

/-!
# Bookkeeping of one client

Most of what a handler does between two messages concerns nobody else: it moves
on, cancels its own jobs, starts its runner, or schedules the closing of its
connection.  `Calm` describes all of this at once.  Nothing is submitted, handed
over or announced, and the path stays as it is; other clients may at most be
dropped.
-/

namespace SaltyRtcServer

/-- The task that a receive loop waits for. -/
def WorkerStatus.task? : WorkerStatus → Option TaskId
  | .relaying id _ | .expiring id _ => some id
  | _ => none

def TaskBody.IsClose : TaskBody → Prop
  | .run _ (.close _) => True
  | _ => False

def Event.Silent : Event → Prop
  | .dropped _ _ | .closed _ _ => True
  | _ => False

/-- The queue of a client that is in its handshake: its runner has not started,
and nobody has cancelled it. -/
structure JobQueue.Idle (jobs : JobQueue) : Prop where
  notStarted : jobs.runner = .notStarted
  state : jobs.state = .opened ∨ jobs.state = .closed

theorem JobQueue.Idle.close {jobs : JobQueue} (idle : jobs.Idle) (result : PyException)
    (last : List Coroutine) : (jobs.close result last).Idle := by
  rw [close_eq]
  split
  · exact ⟨idle.notStarted, .inr rfl⟩
  · exact idle

namespace Server

/-- A task that the queue of a client or its receive loop refers to. -/
def Refers (server : Server) (ref : ClientRef) (id : TaskId) : Prop :=
  (server.jobs ref).Refers id ∨ (server.tasks ref).receiveLoop.status.task? = some id

/-- The handler of a client does not wait for tasks that have not started. -/
def Gathered (server : Server) (ref : ClientRef) : Prop :=
  ∀ ids, server.handler ref = .gathering ids → ∀ id ∈ ids, id ∉ server.loop.ready

/-- Only the clients that `moves` allows may get on with their handlers. -/
structure Calm (moves : ClientRef → Prop) (before after : Server) : Prop where
  system : after.system = before.system
  history : ∃ events, after.history = before.history ++ events ∧ ∀ event ∈ events, event.Silent
  protocols : after.protocols ⊆ before.protocols
  loop : before.loop.Extends TaskBody.IsClose (fun id => ∃ other, before.Refers other id)
    after.loop
  jobs : ∀ other, (before.jobs other).Shrinks (after.jobs other)
  relays : ∀ other id, (after.tasks other).receiveLoop.status.task? = some id →
    (before.tasks other).receiveLoop.status.task? = some id
  handlers : ∀ other, ¬ moves other → after.handler other = before.handler other
  idle : ∀ other, ¬ moves other → (before.jobs other).Idle → (after.jobs other).Idle
  gathering : ∀ other ids, before.handler other = .gathering ids →
    after.handler other = .gathering ids ∨ ∀ id ∈ ids, id ∉ before.loop.ready
  sending : ∀ other, after.handler other = .sendingAuth → before.handler other = .sendingAuth
  started : ∀ other, (after.jobs other).runner ≠ .notStarted →
    (before.jobs other).runner ≠ .notStarted ∨ before.handler other = .sendingAuth ∨
      (after.jobs other).state ≠ .opened ∧ (after.jobs other).sends = []

namespace Calm

variable {moves : ClientRef → Prop} {ref : ClientRef} {first second third before after : Server}

/-- A change that concerns none of these is calm. -/
theorem of_same (system : after.system = before.system) (history : after.history = before.history)
    (loop : after.loop = before.loop) (jobs : after.jobs = before.jobs)
    (handler : after.handler = before.handler) (protocols : after.protocols ⊆ before.protocols)
    (tasks : ∀ other id, (after.tasks other).receiveLoop.status.task? = some id →
      (before.tasks other).receiveLoop.status.task? = some id) : Calm moves before after where
  system := system
  history := ⟨[], by simpa using history, by simp⟩
  protocols := protocols
  loop := by
    rw [loop]
    exact .refl _
  jobs other := by
    rw [jobs]
    exact .refl _
  relays := tasks
  handlers other _ := by rw [handler]
  idle other _ idle := by rwa [jobs]
  gathering other ids gathering := .inl (by rwa [handler])
  sending other sending := by rwa [handler] at sending
  started other started := .inl (by rwa [jobs] at started)

theorem refl (server : Server) : Calm moves server server :=
  of_same rfl rfl rfl rfl rfl (Finset.Subset.refl _) fun _ _ task => task

theorem refers (calm : Calm moves before after) (other : ClientRef) (id : TaskId) :
    after.Refers other id → before.Refers other id :=
  Or.imp ((calm.jobs other).refers id) (calm.relays other id)

theorem trans (one : Calm moves first second) (two : Calm moves second third) :
    Calm moves first third where
  system := two.system.trans one.system
  history := by
    obtain ⟨early, history, silent⟩ := one.history
    obtain ⟨late, historyLate, silentLate⟩ := two.history
    refine ⟨early ++ late, by rw [historyLate, history, List.append_assoc], ?_⟩
    intro event mem
    exact (List.mem_append.mp mem).elim (silent event) (silentLate event)
  protocols := two.protocols.trans one.protocols
  loop := one.loop.trans (two.loop.mono (fun _ => id) fun id ⟨other, refers⟩ =>
    ⟨other, one.refers other id refers⟩)
  jobs other := (one.jobs other).trans (two.jobs other)
  relays other id waits := one.relays other id (two.relays other id waits)
  handlers other still := (two.handlers other still).trans (one.handlers other still)
  idle other still idle := two.idle other still (one.idle other still idle)
  gathering other ids gathering := by
    rcases one.gathering other ids gathering with waiting | started
    · obtain ⟨fresh, ready, _⟩ := one.loop.ready
      apply (two.gathering other ids waiting).imp_right
      intro started id mem isReady
      exact started id mem (ready ▸ List.mem_append_left _ isReady)
    · exact .inr started
  sending other sending := one.sending other (two.sending other sending)
  started other started := by
    rcases two.started other started with early | sending | closed
    · refine (one.started other early).imp_right (Or.imp_right fun ⟨closed, empty⟩ => ⟨?_, ?_⟩)
      · exact fun opened => closed ((two.jobs other).opened opened)
      · exact List.sublist_nil.mp (empty ▸ (two.jobs other).sends)
    · exact .inr (.inl (one.sending other sending))
    · exact .inr (.inr closed)

variable (server : Server)

theorem setHandler {next : Handler} (mover : moves ref) (notSending : next ≠ .sendingAuth)
    (gathered : server.Gathered ref) : Calm moves server (server.setHandler ref next) where
  system := rfl
  history := ⟨[], by simp [Server.setHandler], by simp⟩
  protocols := Finset.Subset.refl _
  loop := .refl _
  jobs other := .refl _
  relays _ _ waits := waits
  handlers other still := by
    refine Function.update_of_ne ?_ _ _
    rintro rfl
    exact still mover
  idle other _ idle := idle
  gathering other ids gathering := by
    by_cases same : other = ref
    · subst same
      exact .inr (gathered ids gathering)
    · exact .inl (by simpa [Server.setHandler, same] using gathering)
  sending other sending := by
    by_cases same : other = ref
    · subst same
      simp [Server.setHandler, notSending] at sending
    · simpa [Server.setHandler, same] using sending
  started other started := .inl started

theorem setTasks (victim : ClientRef) {tasks : Tasks}
    (task : tasks.receiveLoop.status.task? = none ∨
      tasks.receiveLoop.status.task? = (server.tasks victim).receiveLoop.status.task?) :
    Calm moves server (server.setTasks victim tasks) := by
  refine of_same rfl rfl rfl rfl rfl (Finset.Subset.refl _) fun other id found => ?_
  by_cases same : other = victim
  · subst same
    simp only [Server.setTasks, Function.update_self] at found
    grind
  · simpa only [Server.setTasks, Function.update_of_ne same] using found

/-- A queue may lose jobs, and its runner may be started by a handler that gets on. -/
theorem setJobs (victim : ClientRef) {jobs : JobQueue}
    (shrinks : (server.jobs victim).Shrinks jobs)
    (idle : ¬ moves victim → (server.jobs victim).Idle → jobs.Idle)
    (started : jobs.runner ≠ .notStarted →
      (server.jobs victim).runner ≠ .notStarted ∨ server.handler victim = .sendingAuth ∨
        jobs.state ≠ .opened ∧ jobs.sends = []) :
    Calm moves server (server.setJobs victim jobs) where
  system := rfl
  history := ⟨[], by simp [Server.setJobs], by simp⟩
  protocols := Finset.Subset.refl _
  loop := .refl _
  jobs other := by
    by_cases same : other = victim
    · subst same
      simpa [Server.setJobs] using shrinks
    · simpa [Server.setJobs, same] using .refl _
  relays _ _ waits := waits
  handlers other _ := rfl
  idle other still isIdle := by
    by_cases same : other = victim
    · subst same
      simpa [Server.setJobs] using idle still isIdle
    · simpa [Server.setJobs, same] using isIdle
  gathering other ids gathering := .inl gathering
  sending other sending := sending
  started other isStarted := by
    by_cases same : other = victim
    · subst same
      simp only [Server.setJobs, Function.update_self] at isStarted ⊢
      exact started isStarted
    · left
      simpa [Server.setJobs, same] using isStarted

/-- A queue whose runner has started is not idle. -/
theorem setRunning {jobs : JobQueue} (shrinks : (server.jobs ref).Shrinks jobs)
    (running : (server.jobs ref).runner ≠ .notStarted) :
    Calm moves server (server.setJobs ref jobs) :=
  setJobs server ref shrinks (fun _ idle => absurd idle.notStarted running) fun _ => .inl running

theorem setLoop {loop : Loop}
    (extension : server.loop.Extends TaskBody.IsClose
      (fun id => ∃ other, server.Refers other id) loop) :
    Calm moves server { server with loop := loop } where
  system := rfl
  history := ⟨[], by simp, by simp⟩
  protocols := Finset.Subset.refl _
  loop := extension
  jobs other := .refl _
  relays _ _ waits := waits
  handlers other _ := rfl
  idle other _ idle := idle
  gathering other ids gathering := .inl gathering
  sending other sending := sending
  started other started := .inl started

theorem log {event : Event} (silent : event.Silent) : Calm moves server (server.log event) where
  system := rfl
  history := ⟨[event], rfl, by simpa using silent⟩
  protocols := Finset.Subset.refl _
  loop := .refl _
  jobs other := .refl _
  relays _ _ waits := waits
  handlers other _ := rfl
  idle other _ idle := idle
  gathering other ids gathering := .inl gathering
  sending other sending := sending
  started other started := .inl started

theorem closeJobs (victim : ClientRef) (code : Nat) :
    Calm moves server (server.closeJobs victim code) := by
  have closed := (server.jobs victim).close_eq (.disconnected code) []
  refine setJobs server victim ((server.jobs victim).close_shrinks _ []) ?_ ?_
  · exact fun _ idle => idle.close _ _
  · rw [closed]
    intro started
    left
    split at started <;> exact started

theorem cancelTasks (victim : ClientRef) (result : TasksResult) :
    Calm moves server (server.cancelTasks victim result) := by
  exact setTasks server victim (.inr (by simp))

theorem setReceiveLoop (victim : ClientRef) {status : WorkerStatus}
    (task : status.task? = none ∨
      status.task? = (server.tasks victim).receiveLoop.status.task?) :
    Calm moves server (server.setReceiveLoop victim status) :=
  setTasks server victim task

theorem setKeepAlive (victim : ClientRef) (status : WorkerStatus) :
    Calm moves server (server.setKeepAlive victim status) :=
  setTasks server victim (.inr rfl)

theorem drop (victim : ClientRef) (code : CloseCode) :
    Calm moves server (server.drop victim code) := by
  have closed := (server.jobs victim).close_eq (.disconnected code.value) [.close code]
  unfold Server.drop
  refine .trans (.trans (setJobs server victim
    ((server.jobs victim).close_shrinks _ [code]) ?_ ?_) (cancelTasks _ _ _)) (log _ trivial)
  · exact fun _ idle => idle.close _ _
  · simp only [List.map_cons, List.map_nil, closed]
    intro started
    left
    split at started <;> exact started

theorem cancelJobs (result : PyException)
    (mover : moves ref ∨ (server.jobs ref).runner ≠ .notStarted) :
    Calm moves server (server.cancelJobs ref result).1 := by
  unfold Server.cancelJobs
  refine .trans (setLoop server ?_) (setJobs _ ref ?_ ?_ ?_)
  · exact ((server.jobs ref).cancel_extends server.loop result).mono (fun _ => id)
      fun id refers => ⟨ref, .inl refers⟩
  · exact (server.jobs ref).cancel_shrinks server.loop result
  · exact fun still idle => (mover.elim still fun running => running idle.notStarted).elim
  · intro started
    left
    rwa [JobQueue.cancel_runner] at started

theorem handleException (exception : PyException) (mover : moves ref)
    (gathered : server.Gathered ref) :
    Calm moves server (server.handleException ref exception) := by
  unfold Server.handleException
  split
  · exact setHandler server mover (by simp) gathered
  · next code _ =>
    have moved : Calm moves server (server.setHandler ref (.joining (some server.loop.next))) :=
      setHandler server mover (by simp) gathered
    exact moved.trans (setLoop _ (.spawn (by trivial)))

theorem start (connected : Bool) (mover : moves ref)
    (gathered : server.Gathered ref)
    (started : (server.jobs ref).runner = .notStarted → server.handler ref = .sendingAuth ∨
      (server.jobs ref).state ≠ .opened ∧ (server.jobs ref).sends = []) :
    Calm moves server (server.start ref connected) := by
  unfold Server.start
  split
  · next notStarted =>
    have running : Calm moves server
        (server.setJobs ref { server.jobs ref with runner := .getting }) := by
      refine setJobs server ref ⟨fun opened => opened, List.Sublist.refl _, ?_⟩
        (fun still => absurd mover still) fun _ => .inr (started notStarted)
      intro id refers
      unfold JobQueue.Refers at refers ⊢
      tauto
    refine (running.trans (setTasks _ ref ?_)).trans (setHandler _ mover (by simp) gathered)
    rw [Tasks.start_receiveLoop_status]
    cases connected
    · exact .inr rfl
    · exact .inl rfl
  · exact handleException server _ mover gathered

theorem abort (exception : PyException) (mover : moves ref) (gathered : server.Gathered ref)
    (idle : (server.jobs ref).Idle) : Calm moves server (server.abort ref exception) := by
  have cancelled : Calm moves server (server.cancelJobs ref exception).1 :=
    cancelJobs server exception (.inl mover)
  have extension : server.loop.Extends (fun _ => False) (server.jobs ref).Refers
      (server.cancelJobs ref exception).1.loop :=
    (server.jobs ref).cancel_extends server.loop exception
  have stillGathered : (server.cancelJobs ref exception).1.Gathered ref := by
    intro ids gathering id mem
    rw [extension.ready_eq]
    exact gathered ids gathering id mem
  unfold Server.abort
  split
  · next after raised called =>
    rw [called] at cancelled stillGathered
    exact cancelled.trans (handleException after raised mover stillGathered)
  · next after called =>
    rw [called] at cancelled stillGathered
    refine (cancelled.trans (cancelTasks after ref _)).trans (start _ false mover stillGathered ?_)
    intro _
    right
    have silent : ((server.jobs ref).cancel server.loop exception).exception? = none :=
      congrArg Prod.snd called
    have same : after = (server.cancelJobs ref exception).1 := by rw [called]
    have jobs : after.jobs ref = ((server.jobs ref).cancel server.loop exception).state.1 := by
      rw [same]
      simp [Server.cancelJobs, Server.setJobs]
    have queue := (server.jobs ref).cancel_queue server.loop (by grind [idle.state])
      (by grind [idle.state]) silent
    change (after.jobs ref).state ≠ .opened ∧ (after.jobs ref).sends = []
    rw [jobs]
    refine ⟨JobQueue.cancel_not_opened _ _ _, ?_⟩
    rw [JobQueue.sends, queue]
    rfl

theorem completeHandshake (mover : moves ref) (sending : server.handler ref = .sendingAuth) :
    Calm moves server (server.completeHandshake ref) := by
  have gathered : server.Gathered ref := by simp [Gathered, sending]
  unfold Server.completeHandshake
  split
  · exact handleException server _ mover gathered
  · split
    · exact start server _ mover gathered fun _ => .inl sending
    · exact start server _ mover gathered fun _ => .inl sending
    · exact handleException server _ mover gathered
    · exact handleException server _ mover gathered

end Calm

section Runner

variable {moves : ClientRef → Prop} {ref : ClientRef} {server after : Server}

/-- The runner of a queue gives nothing to others, unless it starts a coroutine. -/
theorem runnerGet_calm (stepped : server.runnerGet ref = some after)
    (noCoroutine : ∀ coroutine rest,
      (server.jobs ref).queue ≠ .job (.coroutine coroutine) :: rest) :
    Calm moves server after := by
  unfold Server.runnerGet at stepped
  split at stepped
  · next result rest running queue =>
    have suffix : rest <:+ (server.jobs ref).queue := by
      rw [queue]
      exact List.suffix_cons _ _
    have running : (server.jobs ref).runner ≠ .notStarted := by simp [running]
    dsimp only at stepped
    split at stepped
    · injection stepped with same
      subst same
      refine .setRunning server ⟨by simp, JobQueue.sends_sublist suffix, ?_⟩ running
      unfold JobQueue.Refers
      grind
    · next jobs done =>
      obtain ⟨_, rfl⟩ := JobQueue.jobDone_ok done
      injection stepped with same
      subst same
      refine .trans (.setRunning server ⟨by simp, JobQueue.sends_sublist suffix, ?_⟩ running)
        (.cancelTasks _ _ _)
      unfold JobQueue.Refers
      grind
  · next coroutine rest _ queue => exact absurd queue (noCoroutine coroutine rest)
  · next id rest running queue =>
    injection stepped with same
    subst same
    refine .setRunning server ⟨fun opened => opened, JobQueue.sends_sublist ?_, ?_⟩ ?_
    · rw [queue]
      exact List.suffix_cons _ _
    · unfold JobQueue.Refers
      grind
    · simp [running]
  · contradiction

theorem runnerWake_calm (stepped : server.runnerWake ref = some after) :
    Calm moves server after := by
  unfold Server.runnerWake at stepped
  split at stepped
  · next id awaiting =>
    have running : (server.jobs ref).runner ≠ .notStarted := by simp [awaiting]
    have idles : (server.jobs ref).Shrinks { server.jobs ref with active := none } := by
      refine ⟨fun opened => opened, List.Sublist.refl _, ?_⟩
      unfold JobQueue.Refers
      tauto
    dsimp only at stepped
    split at stepped
    · split at stepped
      · injection stepped with same
        subst same
        refine .setRunning server (idles.trans ⟨fun opened => opened, .refl _, ?_⟩) running
        unfold JobQueue.Refers
        tauto
      · next jobs done =>
        obtain ⟨_, rfl⟩ := JobQueue.jobDone_ok done
        injection stepped with same
        subst same
        refine .setRunning server (idles.trans ⟨fun opened => opened, .refl _, ?_⟩) running
        unfold JobQueue.Refers
        tauto
    · injection stepped with same
      subst same
      refine .setRunning server ⟨fun opened => opened, .refl _, ?_⟩ running
      unfold JobQueue.Refers
      grind
    · next exception failed =>
      have idled : Calm moves server (server.setJobs ref { server.jobs ref with active := none }) :=
        .setRunning server idles running
      have cancelled : Calm moves server
          ((server.setJobs ref { server.jobs ref with active := none }).cancelJobs ref
            exception).1 :=
        idled.trans (.cancelJobs _ exception (.inr (by simpa [Server.setJobs] using running)))
      have runner : ((((server.setJobs ref { server.jobs ref with active := none }).cancelJobs ref
          exception).1).jobs ref).runner = .awaiting id := by
        simp [Server.cancelJobs, Server.setJobs, JobQueue.cancel_runner, awaiting]
      split at stepped
      · next middle raised called =>
        rw [called] at cancelled runner
        change (middle.jobs ref).runner = .awaiting id at runner
        injection stepped with same
        subst same
        refine cancelled.trans (.setRunning middle ⟨fun opened => opened, .refl _, ?_⟩
          (by simp [runner]))
        unfold JobQueue.Refers
        tauto
      · next middle called =>
        rw [called] at cancelled runner
        change (middle.jobs ref).runner = .awaiting id at runner
        injection stepped with same
        subst same
        refine (cancelled.trans (.cancelTasks _ _ _)).trans
          (.setRunning (middle.cancelTasks ref _) ⟨fun opened => opened, .refl _, ?_⟩ ?_)
        · unfold JobQueue.Refers
          grind [Server.cancelTasks, Server.setTasks]
        · change (middle.jobs ref).runner ≠ .notStarted
          rw [runner]
          simp
    · contradiction
  · contradiction

theorem jobDone_calm {id : TaskId} (stepped : server.jobDone ref id = some after) :
    Calm moves server after := by
  have erased : (server.jobs ref).Shrinks { server.jobs ref with
      callbacks := (server.jobs ref).callbacks.erase id } := by
    refine ⟨fun opened => opened, List.Sublist.refl _, ?_⟩
    unfold JobQueue.Refers
    grind [List.mem_of_mem_erase]
  unfold Server.jobDone at stepped
  split at stepped
  · dsimp only at stepped
    split at stepped
    · injection stepped with same
      subst same
      exact .setJobs server ref erased (fun _ idle => ⟨idle.notStarted, idle.state⟩) .inl
    · next jobs done =>
      obtain ⟨_, rfl⟩ := JobQueue.jobDone_ok done
      injection stepped with same
      subst same
      exact .setJobs server ref
        (erased.trans ⟨fun opened => opened, .refl _, fun _ refers => refers⟩)
        (fun _ idle => ⟨idle.notStarted, idle.state⟩) .inl
  · contradiction

end Runner

end Server

end SaltyRtcServer
