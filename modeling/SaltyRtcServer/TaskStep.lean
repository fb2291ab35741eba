import SaltyRtcServer.ServerInvariant

/-!
# What one step does to one task

A task keeps its body for ever.  Its status changes when it is the first of the
ready tasks, or when it is suspended and the action resumes it.  Its
cancellation is requested only while the queue or the receive loop of some
client refers to it.
-/

namespace SaltyRtcServer

open StepMachine

namespace Server

/-- The actions that run a task of the event loop. -/
def Action.RunsTask (action : Action) : Prop :=
  action = .taskStart ∨ action.resumed ≠ none

/-- Tasks were created, and only those that are new or were referred to are
cancelled or referred to. -/
structure Schedules (before after : Server) : Prop where
  loop : before.loop.Extends (fun _ => True)
    (fun id => (∃ other, before.Refers other id) ∨ before.loop.next ≤ id) after.loop
  refers : ∀ other id, after.Refers other id → before.Refers other id ∨ before.loop.next ≤ id

namespace Schedules

variable {first second third before after : Server}

theorem trans (one : Schedules first second) (two : Schedules second third) :
    Schedules first third where
  loop := by
    refine one.loop.trans (two.loop.mono (fun _ => id) fun id cancelled => ?_)
    rcases cancelled with ⟨other, refers⟩ | newer
    · exact (one.refers other id refers).imp_left fun refers => ⟨other, refers⟩
    · exact .inr (Nat.le_trans one.loop.next newer)
  refers other id refers := by
    rcases two.refers other id refers with older | newer
    · exact one.refers other id older
    · exact .inr (Nat.le_trans one.loop.next newer)

theorem of_same (loop : after.loop = before.loop)
    (refers : ∀ other id, after.Refers other id → before.Refers other id) :
    Schedules before after where
  loop := by
    rw [loop]
    exact .refl _
  refers other id refer := .inl (refers other id refer)

theorem refl (server : Server) : Schedules server server :=
  of_same rfl fun _ _ refers => refers

theorem calm {moves : ClientRef → Prop} (calm : Calm moves before after) :
    Schedules before after where
  loop := calm.loop.mono (fun _ _ => trivial) fun _ refers => .inl refers
  refers other id refers := .inl (calm.refers other id refers)

theorem submit (server : Server) (ref : ClientRef) (message : OutgoingMessage) :
    Schedules server (server.submit ref message) := by
  apply of_same (submit_loop _ _ _)
  intro other id refers
  unfold Refers at refers ⊢
  rw [submit_tasks] at refers
  exact refers.imp_left submit_refers

theorem gather {messages : List (ClientRef × OutgoingMessage)} {ids : List TaskId}
    (gathers : before.gather messages = (after, ids)) : Schedules before after := by
  obtain ⟨rfl, _⟩ := gather_eq gathers
  exact ⟨.spawnAll fun _ _ => trivial, fun _ _ refers => .inl refers⟩

theorem relay (server : Server) (ref destination : ClientRef) (packet : List UInt8) :
    Schedules server ((server.submitTask destination (.relay packet)).setReceiveLoop ref
      (.relaying server.loop.next packet)) where
  loop := (submitTask_extends server destination (.relay packet)).mono (fun _ _ => trivial)
    fun _ fresh => .inr (Nat.le_of_eq fresh.symm)
  refers other id refers := by
    rcases refers with queued | waits
    · change ((server.submitTask destination (.relay packet)).jobs other).Refers id at queued
      rw [submitTask_jobs] at queued
      by_cases same : other = destination
      · subst same
        rw [Function.update_self] at queued
        split at queued
        · by_cases fresh : id = server.loop.next
          · exact .inr (Nat.le_of_eq fresh.symm)
          · left
            left
            simpa [JobQueue.Refers, JobQueue.put, fresh] using queued
        · exact .inl (.inl queued)
      · rw [Function.update_of_ne same] at queued
        exact .inl (.inl queued)
    · by_cases same : other = ref
      · subst same
        right
        have fresh : server.loop.next = id := by
          simpa [Server.setReceiveLoop, setTasks, WorkerStatus.task?] using waits
        exact Nat.le_of_eq fresh
      · left
        right
        simpa [Server.setReceiveLoop, setTasks, same, submitTask, log, setJobs] using waits

theorem take {ref : ClientRef} {coroutine : Coroutine} {rest : List JobEntry}
    (queue : (before.jobs ref).queue = .job (.coroutine coroutine) :: rest) :
    Schedules before
      ({ before with loop := before.loop.spawn (.run ref coroutine) }.setJobs ref
        { before.jobs ref with
          queue := rest
          runner := .awaiting before.loop.next
          active := some before.loop.next }) where
  loop := .spawn trivial
  refers other id refers := by
    rcases refers with queued | waits
    · by_cases same : other = ref
      · subst same
        by_cases fresh : id = before.loop.next
        · exact .inr (Nat.le_of_eq fresh.symm)
        · left
          left
          simp only [setJobs, Function.update_self, JobQueue.Refers] at queued
          rcases queued with queued | active | awaiting | called
          · left
            rw [queue]
            exact List.mem_cons_of_mem _ queued
          · exact absurd (Option.some.inj active).symm fresh
          · injection awaiting with same
            exact absurd same.symm fresh
          · exact .inr (.inr (.inr called))
      · left
        left
        simpa [setJobs, same] using queued
    · exact .inl (.inr waits)

theorem connect {ref : ClientRef} {csn : Nat} (stepped : before.connect ref csn = some after) :
    Schedules before after := by
  unfold Server.connect at stepped
  split at stepped
  · rw [Option.map_eq_some_iff] at stepped
    obtain ⟨system, _, rfl⟩ := stepped
    refine of_same rfl fun other id refers => ?_
    by_cases same : other = ref
    · subst same
      simp [Refers, JobQueue.Refers, JobQueue.new, Tasks.new, WorkerStatus.task?] at refers
    · simpa [Refers, same] using refers
  · contradiction

end Schedules

section Steps

variable {origin before after : Server} {action : Action} {moves : ClientRef → Prop}

/-- An effect of an action that runs no task only creates tasks. -/
theorem Effect.schedules (effect : Effect origin action moves before after)
    (noTask : ¬ action.RunsTask) : Schedules before after := by
  cases effect with
  | calm calm => exact .calm calm
  | path => exact .of_same rfl fun _ _ refers => refers
  | connect _ stepped => exact .connect stepped
  | @initiator ref _ dropped current _ _ ids _ _ _ _ _ _ calm _ _ gathers =>
      obtain ⟨loop, refers⟩ := Schedules.calm calm
      have marked : Schedules before dropped := ⟨loop, refers⟩
      split
      · exact marked.trans (.gather gathers)
      · exact (marked.trans (.gather gathers)).trans (.of_same rfl fun _ _ refers => refers)
  | @responder ref _ joined state id _ _ _ _ _ marked =>
      subst marked
      split
      · exact .of_same rfl fun _ _ refers => refers
      · next initiator _ =>
        obtain ⟨loop, refers⟩ := Schedules.submit ({ before with
          system := before.system.afterAddResponder ref (.returned state id) }.log
            (.authenticated ref)) initiator (.newResponder id)
        exact ⟨loop, refers⟩
  | created => exact .of_same rfl fun _ _ refers => refers
  | greeted => exact .of_same rfl fun _ _ refers => refers
  | serverAuth => exact .of_same rfl fun _ _ refers => refers
  | sendError => exact .submit _ _ _
  | relay packet => exact .relay _ _ _ packet
  | disconnectedResponder => exact .submit _ _ _
  | disconnectedInitiator _ _ _ _ _ gathers =>
      split
      · exact .gather gathers
      · exact (Schedules.gather gathers).trans (.of_same rfl fun _ _ refers => refers)
  | take _ queue => exact .take queue
  | startEnded isStart => exact absurd (.inl isStart) noTask
  | startClosing isStart => exact absurd (.inl isStart) noTask
  | handed isStart => exact absurd (.inl isStart) noTask
  | enqueued isStart => exact absurd (.inl isStart) noTask
  | ended resumed => exact absurd (.inr (by simp [resumed])) noTask

theorem Sound.schedules (sound : before.Sound) (stepped : before.step action = some after)
    (noTask : ¬ action.RunsTask) : Schedules before after := by
  have effects := sound.effects stepped
  clear stepped
  induction effects with
  | refl => exact .refl _
  | tail _ effect ih => exact ih.trans (effect.schedules noTask)

/-- How the status of a task changes. -/
inductive StatusStep (before after : Server) (action : Action) (id : TaskId) : Prop
  | same : (after.loop.task id).status = (before.loop.task id).status →
      StatusStep before after action id
  | endsAtOnce {rest : List TaskId} {outcome : Outcome PyException} :
      action = .taskStart → before.loop.ready = id :: rest →
      EndsAtOnce (before.loop.task id) outcome →
      (after.loop.task id).status = .done outcome → StatusStep before after action id
  | enqueues {rest : List TaskId} {ref : ClientRef} {message : OutgoingMessage} :
      action = .taskStart → before.loop.ready = id :: rest →
      (before.loop.task id).body = .enqueue ref message →
      (after.loop.task id).status = .done .finished → StatusStep before after action id
  | starts {rest : List TaskId} {ref : ClientRef} {coroutine : Coroutine} :
      action = .taskStart → before.loop.ready = id :: rest →
      (before.loop.task id).cancelRequested = false →
      (before.loop.task id).body = .run ref coroutine →
      (after.loop.task id).status = .suspended → StatusStep before after action id
  | ends {outcome : Outcome PyException} : action.resumed = some id →
      (before.loop.task id).status = .suspended → Ends before (before.loop.task id) outcome →
      (after.loop.task id).status = .done outcome → StatusStep before after action id

/-- What a step does to a task that exists. -/
structure TaskStep (before after : Server) (action : Action) (id : TaskId) : Prop where
  created : id < after.loop.next
  body : (after.loop.task id).body = (before.loop.task id).body
  requested : (after.loop.task id).cancelRequested = (before.loop.task id).cancelRequested ∨
    (after.loop.task id).cancelRequested = true ∧ ∃ other, before.Refers other id
  status : StatusStep before after action id

theorem Schedules.taskStep (schedules : Schedules before after) {id : TaskId}
    (created : id < before.loop.next) : TaskStep before after action id where
  created := Nat.lt_of_lt_of_le created schedules.loop.next
  body := schedules.loop.body id created
  requested := by
    by_cases refers : ∃ other, before.Refers other id
    · cases requested : (before.loop.task id).cancelRequested with
      | true => exact .inl (schedules.loop.requested id created requested)
      | false =>
          cases cancelled : (after.loop.task id).cancelRequested with
          | true => exact .inr ⟨rfl, refers⟩
          | false => exact .inl rfl
    · left
      apply schedules.loop.spared id created
      rintro (older | newer)
      · exact refers older
      · exact absurd created (Nat.not_lt.mpr newer)
  status := .same (schedules.loop.status id created)

/-- A task that is not the one whose status is set stays as it is. -/
theorem taskStep_of_setStatus {head id : TaskId} {status : TaskStatus PyException}
    {loop : Loop} (same : after.loop = loop.setStatus head status)
    (task : loop.task = before.loop.task) (next : loop.next = before.loop.next)
    (created : id < before.loop.next)
    (statusStep : id = head → (after.loop.task head).status = status →
      StatusStep before after action head) : TaskStep before after action id := by
  by_cases isHead : id = head
  · subst isHead
    refine ⟨?_, ?_, ?_, statusStep rfl ?_⟩
    · rw [same]
      exact next ▸ created
    · simp [same, EventLoop.setStatus, task]
    · left
      simp [same, EventLoop.setStatus, task]
    · simp [same, EventLoop.setStatus]
  · refine ⟨?_, ?_, ?_, .same ?_⟩
    · rw [same]
      exact next ▸ created
    · simp [same, EventLoop.setStatus, isHead, task]
    · left
      simp [same, EventLoop.setStatus, isHead, task]
    · simp [same, EventLoop.setStatus, isHead, task]

theorem taskStart_taskStep {id : TaskId} (created : id < before.loop.next)
    (stepped : before.taskStart = some after) : TaskStep before after .taskStart id := by
  unfold Server.taskStart at stepped
  split at stepped
  · contradiction
  · next head rest ready =>
    dsimp only at stepped
    split at stepped
    · next cancelled =>
      injection stepped with same
      subst same
      exact taskStep_of_setStatus rfl rfl rfl created fun _ status =>
        .endsAtOnce rfl ready (.cancelled cancelled) status
    · next alive =>
      have kept := Bool.eq_false_of_not_eq_true alive
      split at stepped
      · next ref message number body =>
        split at stepped
        · next csn exception failed =>
          obtain ⟨own, error, rfl⟩ := OutgoingMessage.pack_error failed
          injection stepped with same
          subst same
          exact taskStep_of_setStatus rfl rfl rfl created fun _ status =>
            .endsAtOnce rfl ready (.failed error kept body own) status
        · injection stepped with same
          subst same
          exact taskStep_of_setStatus rfl rfl rfl created fun _ status =>
            .starts rfl ready kept body status
      · next ref code body =>
        injection stepped with same
        subst same
        exact taskStep_of_setStatus rfl rfl rfl created fun _ status =>
          .starts rfl ready kept body status
      · next ref message body =>
        injection stepped with same
        subst same
        refine taskStep_of_setStatus rfl ?_ ?_ created fun _ status =>
          .enqueues rfl ready body status
        · rw [submit_loop]
        · rw [submit_loop]

theorem finishTask_taskStep {server : Server} {id head : TaskId} {outcome : Outcome PyException}
    (loop : server.loop = before.loop) (created : id < before.loop.next)
    (resumed : action.resumed = some head) (suspended : (before.loop.task head).status = .suspended)
    (ends : Ends before (before.loop.task head) outcome) :
    TaskStep before (server.finishTask head outcome) action id :=
  taskStep_of_setStatus rfl (congrArg EventLoop.task loop) (congrArg EventLoop.next loop) created
    fun _ status => .ends resumed suspended ends status

theorem resumed_taskStep {id head : TaskId} (created : id < before.loop.next)
    (resumed : action.resumed = some head) (stepped : before.step action = some after) :
    TaskStep before after action id := by
  cases action with
  | taskSent head =>
      simp only [step, taskSent] at stepped
      split at stepped
      · split at stepped
        · next resumable =>
          injection stepped with same
          subst same
          exact finishTask_taskStep rfl created rfl resumable.1 (.finished resumable.2)
        · contradiction
      · contradiction
  | taskSendClosed head code =>
      simp only [step, taskSendClosed] at stepped
      split at stepped
      · next ref message number body =>
        split at stepped
        · next resumable =>
          injection stepped with same
          subst same
          exact finishTask_taskStep rfl created rfl resumable.1.1 (.failed code body resumable.2)
        · contradiction
      · contradiction
  | taskClosed head =>
      simp only [step, taskClosed] at stepped
      split at stepped
      · split at stepped
        · next resumable =>
          injection stepped with same
          subst same
          exact finishTask_taskStep rfl created rfl resumable.1 (.finished resumable.2)
        · contradiction
      · contradiction
  | taskCancelled head =>
      simp only [step, taskCancelled] at stepped
      split at stepped
      · next cancelled =>
        injection stepped with same
        subst same
        exact finishTask_taskStep rfl created rfl cancelled.1 (.cancelled cancelled.2)
      · contradiction
  | _ => contradiction

/-- Every step does to a task what `TaskStep` describes. -/
theorem Sound.taskStep (sound : before.Sound) (stepped : before.step action = some after)
    {id : TaskId} (created : id < before.loop.next) : TaskStep before after action id := by
  by_cases runs : action.RunsTask
  · rcases runs with rfl | resumes
    · exact taskStart_taskStep created stepped
    · obtain ⟨head, resumed⟩ := Option.ne_none_iff_exists'.mp resumes
      exact resumed_taskStep created resumed stepped
  · exact (sound.schedules stepped runs).taskStep created

end Steps

end Server

end SaltyRtcServer
