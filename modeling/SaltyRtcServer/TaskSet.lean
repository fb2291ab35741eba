import SaltyRtcServer.Common
import SaltyRtcServer.EventLoop
import SaltyRtcServer.StepMachine

/-!
# Sets of tasks with one result

`task.Tasks` for any number of coroutines.  The tasks of a set end in any order and at any
time, and their done callbacks run later, as those of the futures do that `cancel` was given
as a delayed result.

What was determined to be the result is recorded as an observation.
-/

namespace SaltyRtcServer

open StepMachine

abbrev FutureRef := Nat

/-- A future that may be given to `cancel`. -/
inductive FutureStatus
  | pending
  | resolved (result : PyException)
  | failed
  deriving DecidableEq

/-- What `_set_result` is given: a result, or a future of one. -/
inductive GivenResult
  | now (result : PyException)
  | later (future : FutureRef)
  deriving DecidableEq

/-- The result that is published at once. -/
def GivenResult.immediate : GivenResult → Option PyException
  | .now result => some result
  | .later _ => none

/-- A task that was started.  When it is done, its callback is yet to be run. -/
structure StartedTask where
  outcome : Option (Outcome PyException)
  cancelRequested : Bool
  reported : Bool
  deriving DecidableEq

namespace StartedTask

/-- `loop.create_task`. -/
def new : StartedTask := ⟨none, false, false⟩

/-- `task.cancel()`, unless the task is done. -/
def cancel (task : StartedTask) : StartedTask :=
  if task.outcome = none then { task with cancelRequested := true } else task

@[simp]
theorem cancel_outcome (task : StartedTask) : task.cancel.outcome = task.outcome := by
  unfold cancel
  split <;> rfl

@[simp]
theorem cancel_reported (task : StartedTask) : task.cancel.reported = task.reported := by
  unfold cancel
  split <;> rfl

end StartedTask

/-- `task.Tasks`, the futures that exist beside it, and those of them that have a callback
which publishes their result. -/
structure TaskSet where
  cancelled : Bool
  haveResult : Bool
  resultFuture : Option PyException
  tasks : Option (List StartedTask)
  tasksRemaining : Nat
  future : FutureRef → FutureStatus
  callbacks : List FutureRef
  determined : List GivenResult

namespace TaskSet

/-- What the calls raise: `InternalError('Tasks already started')`, the error of a future that
already has a result, and the error of a future whose result is asked for in vain. -/
inductive Error
  | alreadyStarted
  | invalidState
  | noResult
  deriving DecidableEq

/-- `Tasks(log, loop)`. -/
def new (future : FutureRef → FutureStatus) : TaskSet :=
  ⟨false, false, none, none, 0, future, [], []⟩

/-- The tasks that were started. -/
def started (tasks : TaskSet) : List StartedTask := tasks.tasks.getD []

/-- `_result_future.set_result(result)`. -/
def publish (tasks : TaskSet) (result : PyException) : TaskSet × Option Error :=
  match tasks.resultFuture with
  | some _ => (tasks, some .invalidState)
  | none => ({ tasks with resultFuture := some result }, none)

/-- `Tasks._set_result`. -/
def setResult (tasks : TaskSet) (result : GivenResult) : TaskSet × Option Error :=
  if tasks.haveResult then (tasks, none)
  else
    let tasks := { tasks with haveResult := true, determined := tasks.determined ++ [result] }
    match result with
    | .now result => tasks.publish result
    | .later future => ({ tasks with callbacks := tasks.callbacks ++ [future] }, none)

/-- `Tasks._cancel`. -/
def cancelAll (tasks : TaskSet) : TaskSet :=
  { tasks with tasks := tasks.tasks.map (List.map StartedTask.cancel) }

/-- `Tasks.start`. -/
def start (tasks : TaskSet) (count : Nat) : TaskSet × Option Error :=
  if tasks.tasks ≠ none then (tasks, some .alreadyStarted)
  else
    let tasks := { tasks with
      tasks := some (List.replicate count .new)
      tasksRemaining := tasks.tasksRemaining + count }
    (if tasks.cancelled then tasks.cancelAll else tasks, none)

/-- `Tasks.cancel`. -/
def cancel (tasks : TaskSet) (result : GivenResult) : TaskSet × Option Error :=
  if tasks.cancelled then (tasks, none)
  else
    match tasks.setResult result with
    | (tasks, some error) => (tasks, some error)
    | (tasks, none) => ({ tasks.cancelAll with cancelled := true }, none)

/-- The last lines of `_task_done_handler`. -/
def settle (tasks : TaskSet) (result : PyException) : TaskSet × Option Error :=
  match tasks.setResult (.now result) with
  | (tasks, some error) => (tasks, some error)
  | (tasks, none) => (tasks.cancelAll, none)

/-- `Tasks._task_done_handler`, for the outcome of the task; a coroutine that returns, returns
`None`. -/
def taskDoneHandler (tasks : TaskSet) (outcome : Outcome PyException) : TaskSet × Option Error :=
  let tasks := { tasks with tasksRemaining := tasks.tasksRemaining - 1 }
  match outcome with
  | .cancelled =>
      if tasks.tasksRemaining = 0 ∧ tasks.haveResult = false then
        match tasks.setResult (.now (.internalError
            "All tasks have been cancelled prior to an exception")) with
        | (tasks, some error) => (tasks, some error)
        | (tasks, none) => ({ tasks with cancelled := true }, none)
      else (tasks, none)
  | .finished => tasks.settle (.internalError
      "Task returned unexpectedly with <class 'NoneType'>: None")
  | .failed exception => tasks.settle exception

/-- What can happen to a set of tasks. -/
inductive Action
  | start (count : Nat)
  | cancel (result : GivenResult)
  /-- a task ends by itself or because of a cancellation -/
  | finish (index : Nat) (outcome : Outcome PyException)
  /-- the done callback of a task -/
  | taskDone (index : Nat)
  | resolve (future : FutureRef) (status : FutureStatus)
  /-- the done callback of a future -/
  | notify (future : FutureRef)

/-- The task with the index is changed. -/
def setTask (tasks : TaskSet) (index : Nat) (task : StartedTask) : TaskSet :=
  { tasks with tasks := tasks.tasks.map fun started => started.set index task }

/-- What an action leaves, and what it raises. -/
def perform (tasks : TaskSet) : Action → Option (TaskSet × Option Error)
  | .start count => some (tasks.start count)
  | .cancel result => some (tasks.cancel result)
  | .finish index outcome =>
      match tasks.started[index]? with
      | some ⟨none, requested, reported⟩ =>
          some (tasks.setTask index ⟨some outcome, requested, reported⟩, none)
      | _ => none
  | .taskDone index =>
      match tasks.started[index]? with
      | some ⟨some outcome, requested, false⟩ =>
          some ((tasks.setTask index ⟨some outcome, requested, true⟩).taskDoneHandler outcome)
      | _ => none
  | .resolve future status =>
      if tasks.future future = .pending then
        some ({ tasks with future := Function.update tasks.future future status }, none)
      else none
  | .notify future =>
      if future ∈ tasks.callbacks then
        let called := { tasks with callbacks := tasks.callbacks.erase future }
        match tasks.future future with
        | .pending => none
        | .resolved result => some (called.publish result)
        | .failed => some (called, some .noResult)
      else none

def step (tasks : TaskSet) (action : Action) : Option TaskSet := (tasks.perform action).map Prod.fst

/-- All runs, with any futures. -/
def machine : Machine TaskSet Action := ⟨fun tasks => ∃ future, tasks = .new future, step⟩

/-- How far the result has got. -/
inductive Progress (tasks : TaskSet) : Prop
  | undetermined : tasks.haveResult = false → tasks.determined = [] →
      tasks.resultFuture = none → tasks.callbacks = [] → Progress tasks
  | published (result : PyException) : tasks.haveResult = true →
      tasks.determined = [.now result] → tasks.resultFuture = some result →
      tasks.callbacks = [] → Progress tasks
  | awaiting (future : FutureRef) : tasks.haveResult = true →
      tasks.determined = [.later future] → tasks.resultFuture = none →
      tasks.callbacks = [future] → Progress tasks
  | resolved (future : FutureRef) (result : PyException) : tasks.haveResult = true →
      tasks.determined = [.later future] → tasks.future future = .resolved result →
      tasks.resultFuture = some result → tasks.callbacks = [] → Progress tasks
  | broken (future : FutureRef) : tasks.haveResult = true →
      tasks.determined = [.later future] → tasks.future future = .failed →
      tasks.resultFuture = none → tasks.callbacks = [] → Progress tasks

/-- What is determined stays determined. -/
structure Keeps (before after : TaskSet) : Prop where
  determined : before.determined <+: after.determined
  result : ∀ result, before.resultFuture = some result → after.resultFuture = some result

theorem Keeps.refl (tasks : TaskSet) : tasks.Keeps tasks :=
  ⟨List.prefix_refl _, fun _ published => published⟩

theorem Keeps.trans {first second third : TaskSet} (one : first.Keeps second)
    (two : second.Keeps third) : first.Keeps third :=
  ⟨one.determined.trans two.determined,
    fun result published => two.result result (one.result result published)⟩

/-- A call that may have determined the result and asked tasks to cancel. -/
structure Follows (before after : TaskSet) : Prop where
  progress : after.Progress
  keeps : before.Keeps after
  haveResult : before.haveResult = true → after.haveResult = true
  published : after.resultFuture ≠ none → before.resultFuture ≠ none ∨ before.haveResult = false
  tasks : after.tasks = before.tasks ∨ after.tasks = before.cancelAll.tasks
  remaining : after.tasksRemaining = before.tasksRemaining

section Calls

variable {tasks before after middle : TaskSet}

theorem Progress.of_same (progress : before.Progress)
    (haveResult : after.haveResult = before.haveResult)
    (determined : after.determined = before.determined)
    (resultFuture : after.resultFuture = before.resultFuture)
    (callbacks : after.callbacks = before.callbacks) (future : after.future = before.future) :
    after.Progress := by
  cases progress with
  | undetermined one two three four =>
      exact .undetermined (haveResult.trans one) (determined.trans two) (resultFuture.trans three)
        (callbacks.trans four)
  | published result one two three four =>
      exact .published result (haveResult.trans one) (determined.trans two)
        (resultFuture.trans three) (callbacks.trans four)
  | awaiting given one two three four =>
      exact .awaiting given (haveResult.trans one) (determined.trans two)
        (resultFuture.trans three) (callbacks.trans four)
  | resolved given result one two status three four =>
      exact .resolved given result (haveResult.trans one) (determined.trans two)
        (future ▸ status) (resultFuture.trans three) (callbacks.trans four)
  | broken given one two status three four =>
      exact .broken given (haveResult.trans one) (determined.trans two) (future ▸ status)
        (resultFuture.trans three) (callbacks.trans four)

theorem Progress.pending (progress : tasks.Progress) (undetermined : tasks.haveResult = false) :
    tasks.determined = [] ∧ tasks.resultFuture = none ∧ tasks.callbacks = [] := by
  cases progress with
  | undetermined _ one two three => exact ⟨one, two, three⟩
  | published _ known | awaiting _ known | resolved _ _ known | broken _ known =>
      rw [undetermined] at known
      contradiction

theorem Follows.refl (progress : tasks.Progress) : tasks.Follows tasks :=
  ⟨progress, .refl tasks, id, .inl, .inl rfl, rfl⟩

theorem cancelAll_cancelAll (tasks : TaskSet) : tasks.cancelAll.cancelAll = tasks.cancelAll := by
  have twice (task : StartedTask) : task.cancel.cancel = task.cancel := by
    unfold StartedTask.cancel
    split <;> simp_all
  simp [cancelAll, Option.map_map, Function.comp_def, twice]

/-- The result is determined at most once. -/
theorem Progress.setResult (progress : tasks.Progress) (result : GivenResult) :
    ∃ after, tasks.setResult result = (after, none) ∧ tasks.Follows after ∧
      after.haveResult = true ∧
      (tasks.haveResult = false → after.resultFuture = result.immediate) := by
  cases known : tasks.haveResult with
  | true => exact ⟨tasks, by rw [TaskSet.setResult, if_pos known], .refl progress, known, by simp⟩
  | false =>
      obtain ⟨determined, unpublished, silent⟩ := progress.pending known
      have unknown : ¬ tasks.haveResult = true := by simp [known]
      cases result with
      | now result =>
          let after : TaskSet := { tasks with
            haveResult := true
            determined := tasks.determined ++ [.now result]
            resultFuture := some result }
          have published : after.Progress :=
            .published result rfl (by simp [after, determined]) rfl silent
          have called : tasks.setResult (.now result) = (after, none) := by
            simp only [TaskSet.setResult, if_neg unknown, publish, unpublished, after]
          refine ⟨after, called, ⟨published, ⟨List.prefix_append _ _, ?_⟩, fun _ => rfl,
            fun _ => .inr known, .inl rfl, rfl⟩, rfl, fun _ => rfl⟩
          simp [unpublished]
      | later future =>
          let after : TaskSet := { tasks with
            haveResult := true
            determined := tasks.determined ++ [.later future]
            callbacks := tasks.callbacks ++ [future] }
          have awaiting : after.Progress :=
            .awaiting future rfl (by simp [after, determined]) unpublished (by simp [after, silent])
          have called : tasks.setResult (.later future) = (after, none) := by
            simp only [TaskSet.setResult, if_neg unknown, after]
          exact ⟨after, called, ⟨awaiting, ⟨List.prefix_append _ _, fun _ same => same⟩,
            fun _ => rfl, .inl, .inl rfl, rfl⟩, rfl, fun _ => unpublished⟩

theorem Follows.cancelAll (follows : before.Follows after) : before.Follows after.cancelAll where
  progress := follows.progress.of_same rfl rfl rfl rfl rfl
  keeps := ⟨follows.keeps.determined, follows.keeps.result⟩
  haveResult := follows.haveResult
  published := follows.published
  tasks := by
    right
    obtain same | cancelled := follows.tasks
    · simp [TaskSet.cancelAll, same]
    · have twice := congrArg TaskSet.tasks before.cancelAll_cancelAll
      simpa [TaskSet.cancelAll, cancelled] using twice
  remaining := follows.remaining

theorem Follows.setCancelled (follows : before.Follows after) :
    before.Follows { after with cancelled := true } where
  progress := follows.progress.of_same rfl rfl rfl rfl rfl
  keeps := ⟨follows.keeps.determined, follows.keeps.result⟩
  haveResult := follows.haveResult
  published := follows.published
  tasks := follows.tasks
  remaining := follows.remaining

theorem Progress.cancel (progress : tasks.Progress) (result : GivenResult) :
    ∃ after, tasks.cancel result = (after, none) ∧ tasks.Follows after ∧
      (tasks.cancelled = true → after = tasks) ∧
      (tasks.cancelled = false → tasks.haveResult = false →
        after.resultFuture = result.immediate) := by
  cases already : tasks.cancelled with
  | true => exact ⟨tasks, by simp [TaskSet.cancel, already], .refl progress, fun _ => rfl, by simp⟩
  | false =>
      obtain ⟨middle, called, follows, _, published⟩ := progress.setResult result
      refine ⟨{ middle.cancelAll with cancelled := true }, ?_, follows.cancelAll.setCancelled,
        by simp, fun _ => published⟩
      simp [TaskSet.cancel, already, called]

theorem Progress.settle (progress : tasks.Progress) (result : PyException) :
    ∃ after, tasks.settle result = (after, none) ∧ tasks.Follows after ∧
      after.haveResult = true ∧
      (tasks.haveResult = false → after.resultFuture = some result) := by
  obtain ⟨middle, called, follows, known, published⟩ := progress.setResult (.now result)
  rw [TaskSet.settle, called]
  exact ⟨_, rfl, follows.cancelAll, known, published⟩

/-- The done callback of a task, after the counter has been decreased. -/
theorem Progress.taskDoneHandler (progress : tasks.Progress) (outcome : Outcome PyException) :
    ∃ after, tasks.taskDoneHandler outcome = (after, none) ∧
      { tasks with tasksRemaining := tasks.tasksRemaining - 1 }.Follows after ∧
      (after.tasksRemaining = 0 ∨ outcome ≠ .cancelled → after.haveResult = true) ∧
      (tasks.haveResult = false → (after.resultFuture ≠ none ↔
        after.tasksRemaining = 0 ∨ outcome ≠ .cancelled)) := by
  have lower : { tasks with tasksRemaining := tasks.tasksRemaining - 1 }.Progress :=
    progress.of_same rfl rfl rfl rfl rfl
  unfold TaskSet.taskDoneHandler
  cases outcome with
  | finished =>
      obtain ⟨after, called, follows, known, published⟩ := lower.settle
        (.internalError "Task returned unexpectedly with <class 'NoneType'>: None")
      exact ⟨after, called, follows, fun _ => known, fun unknown => by simp [published unknown]⟩
  | failed exception =>
      obtain ⟨after, called, follows, known, published⟩ := lower.settle exception
      exact ⟨after, called, follows, fun _ => known, fun unknown => by simp [published unknown]⟩
  | cancelled =>
      dsimp only
      split
      · next last =>
        obtain ⟨after, called, follows, known, published⟩ := lower.setResult
          (.now (.internalError "All tasks have been cancelled prior to an exception"))
        rw [called]
        refine ⟨_, rfl, follows.setCancelled, fun _ => known, fun unknown => ?_⟩
        have remaining : after.tasksRemaining = 0 := follows.remaining.trans last.1
        simp [published unknown, GivenResult.immediate, remaining]
      · next others =>
        refine ⟨_, rfl, .refl lower, fun last => ?_, fun unknown => ?_⟩
        · have last := last.resolve_right (not_not.mpr rfl)
          by_contra unknown
          exact others ⟨last, by simpa using unknown⟩
        · have unpublished := (progress.pending unknown).2.1
          simpa [unpublished, unknown] using others

end Calls

/-- Tasks that have not been reported are counted, and the last report is followed by a
result. -/
structure Counted (started : List StartedTask) (remaining : Nat) (haveResult : Bool) : Prop where
  counts : remaining = started.countP fun task => !task.reported
  done : ∀ task ∈ started, task.reported = true → task.outcome ≠ none
  settled : started ≠ [] → remaining = 0 → haveResult = true

namespace Counted

variable {started : List StartedTask} {remaining index : Nat} {haveResult known : Bool}
  {task : StartedTask}

theorem cancel (counted : Counted started remaining haveResult) :
    Counted (started.map StartedTask.cancel) remaining haveResult := by
  obtain ⟨counts, done, settled⟩ := counted
  constructor
  · rw [List.countP_map, counts]
    simp [Function.comp_def]
  · simpa using done
  · simpa using settled

theorem determine (counted : Counted started remaining haveResult)
    (kept : haveResult = true → known = true) : Counted started remaining known :=
  ⟨counted.counts, counted.done,
    fun nonempty last => kept (counted.settled nonempty last)⟩

theorem start (count : Nat) : Counted (List.replicate count .new) count haveResult := by
  constructor
  · simp [List.countP_replicate, StartedTask.new]
  · intro task mem isReported
    obtain ⟨_, rfl⟩ := List.mem_replicate.mp mem
    contradiction
  · intro nonempty none
    simp [none] at nonempty

/-- A task ends, and nothing is reported. -/
theorem finish (counted : Counted started remaining haveResult)
    {requested reported : Bool} (outcome : Outcome PyException)
    (running : started[index]? = some ⟨none, requested, reported⟩) :
    Counted (started.set index ⟨some outcome, requested, reported⟩) remaining haveResult := by
  obtain ⟨inside, same⟩ := List.getElem?_eq_some_iff.mp running
  have mem := List.mem_of_getElem? running
  have unreported : reported = false := by
    by_contra isReported
    exact counted.done _ mem (by simpa using isReported) rfl
  have positive : 0 < started.countP fun task => !task.reported := by
    rw [List.countP_pos_iff]
    exact ⟨_, mem, by simp [unreported]⟩
  constructor
  · rw [List.countP_set inside, same, counted.counts]
    simp only [unreported, Bool.not_false, if_true]
    omega
  · intro member memAfter isReported
    obtain old | rfl := List.mem_or_eq_of_mem_set memAfter
    · exact counted.done member old isReported
    · exact Option.some_ne_none _
  · rw [Ne, List.set_eq_nil_iff]
    exact counted.settled

/-- A task that is done is reported. -/
theorem report (counted : Counted started remaining haveResult) {requested : Bool}
    {outcome : Outcome PyException}
    (done : started[index]? = some ⟨some outcome, requested, false⟩)
    (last : remaining - 1 = 0 → known = true) :
    Counted (started.set index ⟨some outcome, requested, true⟩) (remaining - 1) known := by
  obtain ⟨inside, same⟩ := List.getElem?_eq_some_iff.mp done
  constructor
  · rw [List.countP_set inside, same, counted.counts]
    simp
  · intro member mem isReported
    obtain old | rfl := List.mem_or_eq_of_mem_set mem
    · exact counted.done member old isReported
    · exact Option.some_ne_none _
  · exact fun _ none => last none

end Counted

/-- What holds in every state of a run. -/
structure Sound (tasks : TaskSet) : Prop where
  progress : tasks.Progress
  counted : Counted tasks.started tasks.tasksRemaining tasks.haveResult

section Runs

variable {tasks before after : TaskSet} {action : Action} {raised : Option Error}

theorem started_setTask (tasks : TaskSet) (index : Nat) (task : StartedTask) :
    (tasks.setTask index task).started = tasks.started.set index task := by
  unfold started setTask
  cases tasks.tasks <;> rfl

theorem Follows.started (follows : before.Follows after) :
    after.started = before.started ∨ after.started = before.started.map StartedTask.cancel := by
  unfold TaskSet.started
  obtain same | cancelled := follows.tasks
  · exact .inl (by rw [same])
  · rw [cancelled, TaskSet.cancelAll]
    cases before.tasks with
    | none => exact .inl rfl
    | some started => exact .inr rfl

theorem Follows.counted (follows : before.Follows after)
    (counted : Counted before.started before.tasksRemaining after.haveResult) :
    Counted after.started after.tasksRemaining after.haveResult := by
  rw [follows.remaining]
  obtain same | cancelled := follows.started
  · rwa [same]
  · rw [cancelled]
    exact counted.cancel

theorem Follows.sound (follows : before.Follows after) (sound : before.Sound) : after.Sound :=
  ⟨follows.progress, follows.counted (sound.counted.determine follows.haveResult)⟩

/-- The state after `start`, if it was not called before. -/
theorem Sound.start (sound : before.Sound) (fresh : before.tasks = none) (count : Nat) :
    ({ before with
      tasks := some (List.replicate count .new)
      tasksRemaining := before.tasksRemaining + count }).Sound := by
  refine ⟨sound.progress.of_same rfl rfl rfl rfl rfl, ?_⟩
  have none : before.tasksRemaining = 0 := by
    simp [sound.counted.counts, started, fresh]
  change Counted (List.replicate count .new) (before.tasksRemaining + count) before.haveResult
  rw [none, Nat.zero_add]
  exact .start count

/-- The done callback of a task. -/
theorem Sound.taskDone (sound : before.Sound) {index : Nat} {outcome : Outcome PyException}
    {requested : Bool} (done : before.started[index]? = some ⟨some outcome, requested, false⟩) :
    ∃ after, (before.setTask index ⟨some outcome, requested, true⟩).taskDoneHandler outcome =
        (after, none) ∧ after.Sound ∧
      { before.setTask index ⟨some outcome, requested, true⟩ with
        tasksRemaining := before.tasksRemaining - 1 }.Follows after ∧
      (before.haveResult = false → (after.resultFuture ≠ none ↔
        after.tasksRemaining = 0 ∨ outcome ≠ .cancelled)) := by
  have progress : (before.setTask index ⟨some outcome, requested, true⟩).Progress :=
    sound.progress.of_same rfl rfl rfl rfl rfl
  obtain ⟨after, called, follows, last, published⟩ := progress.taskDoneHandler outcome
  refine ⟨after, called, ⟨follows.progress, follows.counted ?_⟩, follows, published⟩
  change Counted (before.setTask index _).started (before.tasksRemaining - 1) _
  rw [started_setTask]
  have remaining : after.tasksRemaining = before.tasksRemaining - 1 := follows.remaining
  exact sound.counted.report done fun none => last (.inl (remaining.trans none))

/-- What one action preserves; it never finds the future of the result done. -/
theorem Sound.perform (sound : before.Sound) (performed : before.perform action = some (after, raised)) :
    after.Sound ∧ before.Keeps after ∧ raised ≠ some .invalidState := by
  cases action with
  | start count =>
      simp only [TaskSet.perform, TaskSet.start, Option.some.injEq] at performed
      split at performed
      · cases performed
        exact ⟨sound, .refl before, by decide⟩
      · next fresh =>
        have begun := sound.start (not_not.mp fresh) count
        have follows := (Follows.refl begun.progress).cancelAll
        cases performed
        split
        · exact ⟨follows.sound begun, ⟨List.prefix_refl _, fun _ same => same⟩, by decide⟩
        · exact ⟨begun, ⟨List.prefix_refl _, fun _ same => same⟩, by decide⟩
  | cancel result =>
      obtain ⟨called, same, follows, _⟩ := sound.progress.cancel result
      simp only [TaskSet.perform, same] at performed
      cases performed
      exact ⟨follows.sound sound, follows.keeps, by decide⟩
  | finish index outcome =>
      simp only [TaskSet.perform] at performed
      split at performed
      · next running =>
        cases performed
        refine ⟨⟨sound.progress.of_same rfl rfl rfl rfl rfl, ?_⟩,
          ⟨List.prefix_refl _, fun _ same => same⟩, by decide⟩
        rw [started_setTask]
        exact sound.counted.finish outcome running
      · contradiction
  | taskDone index =>
      simp only [TaskSet.perform] at performed
      split at performed
      · next done =>
        obtain ⟨called, same, calledSound, follows, _⟩ := sound.taskDone done
        rw [same] at performed
        cases performed
        exact ⟨calledSound, ⟨follows.keeps.determined, follows.keeps.result⟩, by decide⟩
      · contradiction
  | resolve future status =>
      simp only [TaskSet.perform] at performed
      split at performed
      · next pending =>
        cases performed
        have kept {given : FutureRef} (done : before.future given ≠ .pending) :
            Function.update before.future future status given = before.future given := by
          apply Function.update_of_ne
          rintro rfl
          exact done pending
        refine ⟨⟨?_, sound.counted⟩, ⟨List.prefix_refl _, fun _ same => same⟩, by decide⟩
        cases sound.progress with
        | undetermined one two three four => exact .undetermined one two three four
        | published result one two three four => exact .published result one two three four
        | awaiting given one two three four => exact .awaiting given one two three four
        | resolved given result one two same three four =>
            exact .resolved given result one two ((kept (by simp [same])).trans same) three four
        | broken given one two same three four =>
            exact .broken given one two ((kept (by simp [same])).trans same) three four
      · contradiction
  | notify future =>
      simp only [TaskSet.perform] at performed
      split at performed
      · next called =>
        cases sound.progress with
        | undetermined _ _ _ silent | published _ _ _ _ silent | resolved _ _ _ _ _ _ silent
        | broken _ _ _ _ _ silent =>
            rw [silent] at called
            contradiction
        | awaiting given known determined unpublished awaited =>
            rw [awaited, List.mem_singleton] at called
            subst called
            split at performed
            · contradiction
            · next result resolved =>
              simp only [publish, unpublished] at performed
              cases performed
              refine ⟨⟨.resolved future result known determined resolved rfl (by simp [awaited]),
                sound.counted⟩, ⟨List.prefix_refl _, ?_⟩, by decide⟩
              simp [unpublished]
            · next failed =>
              cases performed
              exact ⟨⟨.broken future known determined failed unpublished (by simp [awaited]),
                sound.counted⟩, ⟨List.prefix_refl _, fun _ same => same⟩, by decide⟩
      · contradiction

theorem sound_of_reachable (reachable : machine.Reachable tasks) : tasks.Sound := by
  apply reachable.invariant _
  · rintro tasks ⟨future, rfl⟩
    exact ⟨.undetermined rfl rfl rfl rfl, rfl, by simp [started, new], by simp [started, new]⟩
  · intro before after action _ _ sound stepped
    obtain ⟨⟨_, raised⟩, performed, rfl⟩ := Option.map_eq_some_iff.mp stepped
    exact (sound.perform performed).1

end Runs

end TaskSet

end SaltyRtcServer
