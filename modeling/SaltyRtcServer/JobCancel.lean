import SaltyRtcServer.JobOrder

/-!
# Cancelling a job queue

`JobQueue.cancel` empties the queue: coroutines are closed and marked as done at
once, tasks are asked to cancel and marked as done by a callback.  The tasks are
of any kind, also those that have ended before the runner reaches them.
-/

namespace SaltyRtcServer

namespace JobEntry

def task? : JobEntry → Option TaskId
  | .job (.task id) => some id
  | _ => none

/-- `cancel` marks the entry as done at once. -/
def markedAtOnce (entry : JobEntry) : Bool := entry.task?.isNone

@[simp]
theorem task?_eq_some {entry : JobEntry} {id : TaskId} :
    entry.task? = some id ↔ entry = .job (.task id) := by
  rcases entry with ⟨coroutine | other⟩ | result <;> simp [task?]

end JobEntry

namespace JobQueue

variable (jobs : JobQueue) (loop : Loop)

/-- The tasks that `cancel` asks to cancel. -/
def targets : List TaskId := jobs.active.toList ++ jobs.queue.filterMap JobEntry.task?

/-- One of these tasks has ended with an exception. -/
def Obstructed : Prop := ∃ id ∈ jobs.targets, loop.hasFailed id = true

instance : Decidable (jobs.Obstructed loop) :=
  inferInstanceAs (Decidable (∃ id ∈ jobs.targets, loop.hasFailed id = true))

/-- The queue after some entries were taken out to be cancelled. -/
def discard (jobs : JobQueue) (entries : List JobEntry) : JobQueue :=
  { jobs with
    unfinished := jobs.unfinished - entries.countP JobEntry.markedAtOnce
    callbacks := jobs.callbacks ++ entries.filterMap JobEntry.task? }

variable {loop} in
theorem cancelAwaitable_of_calm {id : TaskId} (calm : loop.hasFailed id = false) :
    cancelAwaitable loop (.task id) = .ok (loop.requestCancel id) := by
  rcases status : (loop.task id).status with _ | _ | _ | _ | exception
  case done.failed => simp [EventLoop.hasFailed, status] at calm
  all_goals simp [cancelAwaitable, EventLoop.requestCancel, EventLoop.isDone, status]

variable {loop} in
theorem cancelAwaitable_of_failed {id : TaskId} (failed : loop.hasFailed id = true) :
    ∃ exception, cancelAwaitable loop (.task id) = .error exception := by
  obtain ⟨exception, status⟩ := (loop.hasFailed_iff id).mp failed
  exact ⟨exception, by simp only [cancelAwaitable, status]⟩

theorem discard_append (taken more : List JobEntry) :
    (jobs.discard taken).discard more = jobs.discard (taken ++ more) := by
  simp [discard, List.countP_append, Nat.sub_sub]

theorem drain_cons {entry : JobEntry} (rest : List JobEntry)
    (calm : ∀ id ∈ entry.task?, loop.hasFailed id = false) (counted : jobs.unfinished ≠ 0) :
    jobs.drain loop (entry :: rest) =
        (jobs.discard [entry]).drain (loop.requestCancels entry.task?.toList) rest ∧
      jobs.drainCloses loop (entry :: rest) = entry.coroutine?.toList ++
        (jobs.discard [entry]).drainCloses (loop.requestCancels entry.task?.toList) rest := by
  have done (atOnce : entry.markedAtOnce) : jobs.jobDone = .ok (jobs.discard [entry]) := by
    have task : entry.task? = none := Option.isNone_iff_eq_none.mp atOnce
    simp [jobDone, counted, discard, atOnce, task]
  rcases entry with ⟨coroutine | id⟩ | result
  · simp only [drain, drainCloses, done rfl]
    exact ⟨rfl, rfl⟩
  · have cancelled := cancelAwaitable_of_calm (calm id rfl)
    simp only [drain, drainCloses, cancelled]
    exact ⟨rfl, rfl⟩
  · simp only [drain, drainCloses, done rfl]
    exact ⟨rfl, rfl⟩

/-- Entries without a failed task are taken out one after the other. -/
theorem drain_append {taken : List JobEntry} (rest : List JobEntry)
    (calm : ∀ entry ∈ taken, ∀ id ∈ entry.task?, loop.hasFailed id = false)
    (counted : taken.length ≤ jobs.unfinished) :
    jobs.drain loop (taken ++ rest) =
        (jobs.discard taken).drain (loop.requestCancels (taken.filterMap JobEntry.task?)) rest ∧
      jobs.drainCloses loop (taken ++ rest) = taken.filterMap JobEntry.coroutine? ++
        (jobs.discard taken).drainCloses
          (loop.requestCancels (taken.filterMap JobEntry.task?)) rest := by
  induction taken generalizing jobs loop with
  | nil =>
      have same : jobs.discard [] = jobs := by simp [discard]
      rw [same]
      exact ⟨rfl, rfl⟩
  | cons entry taken ih =>
      obtain ⟨calmHead, calmTail⟩ := List.forall_mem_cons.mp calm
      rw [List.length_cons] at counted
      obtain ⟨head, headCloses⟩ := jobs.drain_cons loop (taken ++ rest) calmHead (by omega)
      have fewer : taken.length ≤ (jobs.discard [entry]).unfinished := by
        have one : [entry].countP JobEntry.markedAtOnce ≤ [entry].length := List.countP_le_length
        simp only [discard, List.length_singleton] at one ⊢
        omega
      obtain ⟨tail, tailCloses⟩ := ih (jobs.discard [entry])
        (loop.requestCancels entry.task?.toList)
        (by rwa [EventLoop.hasFailed_requestCancels]) fewer
      have tasks : (entry :: taken).filterMap JobEntry.task? =
          entry.task?.toList ++ taken.filterMap JobEntry.task? := by
        cases task : entry.task? <;> simp [task]
      have coroutines : (entry :: taken).filterMap JobEntry.coroutine? =
          entry.coroutine?.toList ++ taken.filterMap JobEntry.coroutine? := by
        cases coroutine : entry.coroutine? <;> simp [coroutine]
      rw [List.cons_append, head, tail, headCloses, tailCloses, tasks, coroutines,
        discard_append, EventLoop.requestCancels_append, List.append_assoc]
      exact ⟨rfl, rfl⟩

theorem not_obstructed_iff : ¬ jobs.Obstructed loop ↔
    (∀ id ∈ jobs.active, loop.hasFailed id = false) ∧
      ∀ entry ∈ jobs.queue, ∀ id ∈ entry.task?, loop.hasFailed id = false := by
  simp only [Obstructed, targets, List.mem_append, Option.mem_toList, List.mem_filterMap,
    not_exists, not_and, Bool.not_eq_true, Option.mem_def]
  constructor
  · intro calm
    exact ⟨fun id active => calm id (.inl active),
      fun entry mem id task => calm id (.inr ⟨entry, mem, task⟩)⟩
  · rintro ⟨calmActive, calmQueue⟩ id (active | ⟨entry, mem, task⟩)
    · exact calmActive id active
    · exact calmQueue entry mem id task

/-- `_cancel` first takes care of the active job. -/
theorem cancelAll_eq (calm : ∀ id ∈ jobs.active, loop.hasFailed id = false) :
    jobs.cancelAll loop =
      { jobs.markCancelled with active := none }.drain
        (loop.requestCancels jobs.active.toList) jobs.queue := by
  unfold cancelAll
  cases activity : jobs.active with
  | none => simp [markCancelled, activity, EventLoop.requestCancels]
  | some id =>
      have cancelled := cancelAwaitable_of_calm (calm id activity)
      simp [markCancelled, activity, cancelled, EventLoop.requestCancels]

theorem cancelAll_of_calm (calm : ¬ jobs.Obstructed loop)
    (counted : jobs.queue.length ≤ jobs.unfinished) :
    jobs.cancelAll loop =
      .returned ({ jobs.markCancelled.discard jobs.queue with queue := [], active := none },
        loop.requestCancels jobs.targets) () := by
  obtain ⟨calmActive, calmQueue⟩ := (not_obstructed_iff jobs loop).mp calm
  obtain ⟨drained, _⟩ := drain_append { jobs.markCancelled with active := none }
    (loop.requestCancels jobs.active.toList) []
    (by rwa [EventLoop.hasFailed_requestCancels]) counted
  rw [List.append_nil] at drained
  rw [cancelAll_eq _ _ calmActive, drained, ← EventLoop.requestCancels_append]
  rfl

/-- The first task of the entries that has failed. -/
theorem exists_first_failed {entries : List JobEntry}
    (failed : ¬ ∀ entry ∈ entries, ∀ id ∈ entry.task?, loop.hasFailed id = false) :
    ∃ taken id rest, entries = taken ++ .job (.task id) :: rest ∧ loop.hasFailed id = true ∧
      ∀ entry ∈ taken, ∀ id ∈ entry.task?, loop.hasFailed id = false := by
  induction entries with
  | nil => exact absurd (List.forall_mem_nil _) failed
  | cons entry entries ih =>
      by_cases calm : ∀ id ∈ entry.task?, loop.hasFailed id = false
      · have later : ¬ ∀ entry ∈ entries, ∀ id ∈ entry.task?, loop.hasFailed id = false :=
          fun calmTail => failed (List.forall_mem_cons.mpr ⟨calm, calmTail⟩)
        obtain ⟨taken, id, rest, rfl, failedId, calmTaken⟩ := ih later
        exact ⟨entry :: taken, id, rest, rfl, failedId, List.forall_mem_cons.mpr ⟨calm, calmTaken⟩⟩
      · push Not at calm
        obtain ⟨id, task, failedId⟩ := calm
        rw [Option.mem_def, JobEntry.task?_eq_some] at task
        subst task
        exact ⟨[], id, entries, rfl, Bool.eq_true_of_not_eq_false failedId, List.forall_mem_nil _⟩

/-- A failed task stops `_cancel`: before anything is closed, or when it is taken out
of the queue. -/
theorem cancelAll_of_obstructed (obstructed : jobs.Obstructed loop)
    (counted : jobs.queue.length ≤ jobs.unfinished) :
    ∃ exception, jobs.cancelAll loop = .raised (jobs.markCancelled, loop) exception ∨
      ∃ taken id rest after, jobs.queue = taken ++ .job (.task id) :: rest ∧
        jobs.cancelAll loop =
          .raised ({ jobs.markCancelled.discard taken with queue := rest, active := none },
            after) exception := by
  by_cases calmActive : ∀ id ∈ jobs.active, loop.hasFailed id = false
  · have failed : ¬ ∀ entry ∈ jobs.queue, ∀ id ∈ entry.task?, loop.hasFailed id = false :=
      fun calmQueue => (not_obstructed_iff jobs loop).mpr ⟨calmActive, calmQueue⟩ obstructed
    obtain ⟨taken, id, rest, split, failedId, calm⟩ := exists_first_failed loop failed
    have fewer : taken.length ≤ jobs.unfinished := by
      rw [split, List.length_append] at counted
      omega
    obtain ⟨drained, _⟩ := drain_append { jobs.markCancelled with active := none }
      (loop.requestCancels jobs.active.toList) (.job (.task id) :: rest)
      (by rwa [EventLoop.hasFailed_requestCancels]) fewer
    have failedLater : ((loop.requestCancels jobs.active.toList).requestCancels
        (taken.filterMap JobEntry.task?)).hasFailed id = true := by
      simpa only [EventLoop.hasFailed_requestCancels] using failedId
    obtain ⟨exception, raised⟩ := cancelAwaitable_of_failed failedLater
    refine ⟨exception, .inr ⟨taken, id, rest, (loop.requestCancels jobs.active.toList).requestCancels
      (taken.filterMap JobEntry.task?), split, ?_⟩⟩
    rw [cancelAll_eq _ _ calmActive, split, drained]
    simp only [drain, raised]
    rfl
  · push Not at calmActive
    obtain ⟨id, active, failed⟩ := calmActive
    obtain ⟨exception, raised⟩ := cancelAwaitable_of_failed (Bool.eq_true_of_not_eq_false failed)
    refine ⟨exception, .inl ?_⟩
    have activity : jobs.markCancelled.active = some id := active
    simp only [cancelAll, activity, raised]

/-- What `cancel` is meant to leave of a queue. -/
structure Emptied (jobs : JobQueue) (loop : Loop) (result : PyException) (after : JobQueue)
    (afterLoop : Loop) : Prop where
  state : after.state = .cancelled
  inactive : after.active = none
  stops : after.queue = [.final result]
  /-- every coroutine is closed, every task that is not done is asked to cancel -/
  closed : jobs.cancelCloses loop = jobs.waiting
  asked : ∀ id ∈ jobs.targets, loop.isDone id = false →
    (afterLoop.task id).cancelRequested = true
  /-- coroutines and final entries are marked as done, and the new entry is counted -/
  marked : after.unfinished + jobs.queue.countP JobEntry.markedAtOnce = jobs.unfinished + 1
  /-- each queued task has one more callback, which marks it when the task is done -/
  awaited : ∀ id, after.callbacks.count id =
    jobs.callbacks.count id + jobs.queue.count (.job (.task id))
  marks : ∀ id ∈ after.callbacks, ∀ later : Loop, later.isDone id →
    after.runCallback later id = some { after with
      callbacks := after.callbacks.erase id
      unfinished := after.unfinished - 1 }

variable {jobs loop}

theorem cancelCloses_of_calm (live : ¬ jobs.Late) (calm : ¬ jobs.Obstructed loop)
    (counted : jobs.queue.length ≤ jobs.unfinished) : jobs.cancelCloses loop = jobs.waiting := by
  obtain ⟨calmActive, calmQueue⟩ := (not_obstructed_iff jobs loop).mp calm
  have drains (after : Loop) (same : after.hasFailed = loop.hasFailed) :
      drainCloses { jobs.markCancelled with active := none } after jobs.queue = jobs.waiting := by
    obtain ⟨_, closes⟩ := drain_append { jobs.markCancelled with active := none } after []
      (by rwa [same]) counted
    simpa [drainCloses, waiting] using closes
  have early : ¬ (jobs.state = .cancelled ∨ jobs.state = .completed) := live
  rw [cancelCloses, if_neg early]
  cases activity : jobs.active with
  | none =>
      have none_ : jobs.markCancelled = { jobs.markCancelled with active := none } := by
        rw [markCancelled, activity]
      have activity : jobs.markCancelled.active = none := activity
      simp only [activity]
      rw [none_]
      exact drains loop rfl
  | some id =>
      have cancelled := cancelAwaitable_of_calm (calmActive id activity)
      have activity : jobs.markCancelled.active = some id := activity
      simp only [activity, cancelled]
      exact drains _ (EventLoop.hasFailed_requestCancel ..)

theorem cancel_of_calm (result : PyException) (live : ¬ jobs.Late)
    (calm : ¬ jobs.Obstructed loop) (counted : jobs.queue.length ≤ jobs.unfinished) :
    jobs.cancel loop result =
      .returned ({ jobs with
        state := .cancelled
        queue := [.final result]
        unfinished := jobs.unfinished - jobs.queue.countP JobEntry.markedAtOnce + 1
        active := none
        callbacks := jobs.callbacks ++ jobs.queue.filterMap JobEntry.task? },
        loop.requestCancels jobs.targets) () := by
  have early : ¬ (jobs.state = .cancelled ∨ jobs.state = .completed) := live
  rw [cancel, if_neg early, cancelAll_of_calm jobs loop calm counted]
  simp [stop_eq, discard, markCancelled, not_or.mp early]

theorem emptied_of_calm (result : PyException) (live : ¬ jobs.Late)
    (calm : ¬ jobs.Obstructed loop) (counted : jobs.queue.length ≤ jobs.unfinished) :
    ∃ after afterLoop, jobs.cancel loop result = .returned (after, afterLoop) () ∧
      jobs.Emptied loop result after afterLoop := by
  have atOnce : jobs.queue.countP JobEntry.markedAtOnce ≤ jobs.queue.length :=
    List.countP_le_length
  have tasks (id : TaskId) :
      (jobs.queue.filterMap JobEntry.task?).count id = jobs.queue.count (.job (.task id)) := by
    rw [List.count_filterMap, List.count_eq_countP]
    apply List.countP_congr
    intro entry _
    simp
  refine ⟨_, _, cancel_of_calm result live calm counted, rfl, rfl, rfl,
    cancelCloses_of_calm live calm counted, ?_, ?_, ?_, ?_⟩
  · intro id target alive
    exact EventLoop.cancelRequested_requestCancels loop _ target alive
  · dsimp only
    omega
  · intro id
    simp only [List.count_append, tasks]
  · intro id mem later done
    rw [runCallback, if_pos ⟨mem, done⟩]
    simp [jobDone]

/-- `cancel` does all that it is meant to do, unless a task has failed. -/
theorem cancel_empties_iff (jobs : JobQueue) (loop : Loop) (result : PyException)
    (live : ¬ jobs.Late) (counted : jobs.queue.length ≤ jobs.unfinished) :
    (∃ after afterLoop, jobs.cancel loop result = .returned (after, afterLoop) () ∧
        jobs.Emptied loop result after afterLoop) ↔
      ¬ jobs.Obstructed loop := by
  have early : ¬ (jobs.state = .cancelled ∨ jobs.state = .completed) := live
  constructor
  · rintro ⟨after, afterLoop, returned, _⟩ obstructed
    obtain ⟨exception, raised | ⟨taken, id, rest, state, _, raised⟩⟩ :=
      cancelAll_of_obstructed jobs loop obstructed counted
    all_goals
      rw [cancel, if_neg early, raised] at returned
      contradiction
  · intro calm
    exact emptied_of_calm result live calm counted

/-- A task that was enqueued, followed by a coroutine. -/
def relayed : JobQueue :=
  (new.put (.job (.task 0))).put (.job (.coroutine (.send .serverHello none)))

/-- One task that has come to a status. -/
def loopOf (status : TaskStatus PyException) : Loop :=
  ⟨fun _ => ⟨.enqueue 0 .serverHello, status, false⟩, 1, []⟩

theorem cancel_empties_relayed :
    ∃ after afterLoop,
      relayed.cancel (loopOf .suspended) (.disconnected 1001) = .returned (after, afterLoop) () ∧
        relayed.Emptied (loopOf .suspended) (.disconnected 1001) after afterLoop :=
  (cancel_empties_iff relayed (loopOf .suspended) (.disconnected 1001) (by decide)
    (by decide)).mpr (by decide)

/-- The task has failed before the runner has reached it. -/
theorem cancel_raises : ¬ ∀ (jobs : JobQueue) (loop : Loop) (result : PyException),
    ¬ jobs.Late → jobs.queue.length ≤ jobs.unfinished →
      ∃ after afterLoop, jobs.cancel loop result = .returned (after, afterLoop) () ∧
        jobs.Emptied loop result after afterLoop := by
  intro claimed
  obtain ⟨after, afterLoop, returned, _⟩ := claimed relayed
    (loopOf (.done (.failed (.disconnected 1000)))) (.disconnected 1001) (by decide) (by decide)
  have raised : (relayed.cancel (loopOf (.done (.failed (.disconnected 1000))))
      (.disconnected 1001)).exception? = some (.disconnected 1000) := rfl
  rw [returned] at raised
  contradiction

end JobQueue

end SaltyRtcServer
