import SaltyRtcServer.TaskSet

/-!
# The result of a set of tasks

A set of tasks settles on one result.  That it is published does not mean that the tasks are
done: most often they have then only been asked to cancel.
-/

namespace SaltyRtcServer

open StepMachine

namespace TaskSet

variable {tasks before after : TaskSet} {action : Action} {raised : Option Error}

/-- All tasks that were started are done. -/
def AllDone (tasks : TaskSet) : Prop := ∀ task ∈ tasks.started, task.outcome ≠ none

instance (tasks : TaskSet) : Decidable tasks.AllDone :=
  inferInstanceAs (Decidable (∀ task ∈ tasks.started, task.outcome ≠ none))

theorem allDone_map_cancel (started : List StartedTask) :
    (∀ task ∈ started.map StartedTask.cancel, task.outcome ≠ none) ↔
      ∀ task ∈ started, task.outcome ≠ none := by
  simp

theorem Follows.allDone_iff (follows : before.Follows after) : after.AllDone ↔ before.AllDone := by
  unfold AllDone
  obtain same | cancelled := follows.started
  · rw [same]
  · rw [cancelled, allDone_map_cancel]

/-- Reporting a task that is done changes nothing for the others. -/
theorem allDone_setTask_iff {index : Nat} {task other : StartedTask}
    (found : tasks.started[index]? = some task) (done : task.outcome ≠ none)
    (otherDone : other.outcome ≠ none) : (tasks.setTask index other).AllDone ↔ tasks.AllDone := by
  obtain ⟨inside, same⟩ := List.getElem?_eq_some_iff.mp found
  unfold AllDone
  rw [started_setTask]
  constructor
  · intro allDone member mem
    obtain ⟨place, bound, at_⟩ := List.getElem_of_mem mem
    by_cases here : place = index
    · subst here
      rw [← at_, same]
      exact done
    · apply allDone
      rw [List.mem_iff_getElem]
      exact ⟨place, by simpa using bound, by rw [List.getElem_set_of_ne (Ne.symm here), at_]⟩
  · intro allDone member mem
    obtain old | rfl := List.mem_or_eq_of_mem_set mem
    · exact allDone member old
    · exact otherDone

/-- One result is determined, the first one, and published once.  It is determined when all
tasks are done and their callbacks have run. -/
structure Settles (tasks : TaskSet) : Prop where
  once : tasks.determined.length ≤ 1
  known : tasks.haveResult = true ↔ tasks.determined ≠ []
  immediate : ∀ result, tasks.determined = [.now result] → tasks.resultFuture = some result
  delayed : ∀ future result, tasks.determined = [.later future] →
    tasks.future future = .resolved result → tasks.resultFuture = some result ∨
      ∃ after, tasks.perform (.notify future) = some (after, none) ∧
        after.resultFuture = some result
  published : ∀ result, tasks.resultFuture = some result → tasks.determined = [.now result] ∨
    ∃ future, tasks.determined = [.later future] ∧ tasks.future future = .resolved result
  first : ∀ action after raised, tasks.perform action = some (after, raised) →
    tasks.determined <+: after.determined ∧
      (∀ result, tasks.resultFuture = some result → after.resultFuture = some result) ∧
      raised ≠ some .invalidState
  reported : tasks.started ≠ [] → (∀ task ∈ tasks.started, task.reported = true) →
    tasks.haveResult = true
  done : tasks.started ≠ [] → tasks.AllDone → ∃ reports last,
    (∀ report ∈ reports, ∃ index, report = .taskDone index) ∧
      machine.run tasks reports = some last ∧ last.haveResult = true

theorem perform_taskDone {index : Nat} {outcome : Outcome PyException} {requested : Bool}
    (done : tasks.started[index]? = some ⟨some outcome, requested, false⟩) :
    tasks.perform (.taskDone index) =
      some ((tasks.setTask index ⟨some outcome, requested, true⟩).taskDoneHandler outcome) := by
  simp only [perform]
  rw [done]

/-- The callbacks of tasks that are done can be run one after the other. -/
theorem Sound.run_reports (sound : tasks.Sound) (nonempty : tasks.started ≠ [])
    (allDone : tasks.AllDone) : ∃ reports last,
      (∀ report ∈ reports, ∃ index, report = .taskDone index) ∧
        machine.run tasks reports = some last ∧ last.haveResult = true := by
  induction count : tasks.tasksRemaining generalizing tasks with
  | zero => exact ⟨[], tasks, by simp, rfl, sound.counted.settled nonempty count⟩
  | succ remaining ih =>
      have positive : 0 < tasks.started.countP fun task => !task.reported := by
        rw [← sound.counted.counts, count]
        exact Nat.succ_pos remaining
      obtain ⟨task, mem, unreported⟩ := List.countP_pos_iff.mp positive
      obtain ⟨index, inside, same⟩ := List.getElem_of_mem mem
      have ended := allDone task mem
      obtain ⟨outcome, requested, isReported⟩ := task
      cases outcome with
      | none => exact absurd rfl ended
      | some outcome =>
          obtain rfl : isReported = false := by simpa using unreported
          have done : tasks.started[index]? = some ⟨some outcome, requested, false⟩ := by
            rw [List.getElem?_eq_getElem inside, same]
          obtain ⟨after, called, afterSound, follows, _⟩ := sound.taskDone done
          have stepped : machine.step tasks (.taskDone index) = some after := by
            change (tasks.perform (.taskDone index)).map Prod.fst = some after
            rw [perform_taskDone done, called]
            rfl
          have afterDone : after.AllDone := by
            rw [follows.allDone_iff]
            exact (allDone_setTask_iff done ended (Option.some_ne_none _)).mpr allDone
          have marked : (tasks.setTask index ⟨some outcome, requested, true⟩).started ≠ [] := by
            rwa [started_setTask, Ne, List.set_eq_nil_iff]
          have afterNonempty : after.started ≠ [] := by
            obtain same | cancelled := follows.started
            · exact same ▸ marked
            · rw [cancelled, Ne, List.map_eq_nil_iff]
              exact marked
          have fewer : after.tasksRemaining = remaining := by
            have := follows.remaining
            change after.tasksRemaining = tasks.tasksRemaining - 1 at this
            omega
          obtain ⟨reports, last, areReports, runs, known⟩ :=
            ih afterSound afterNonempty afterDone fewer
          refine ⟨.taskDone index :: reports, last, ?_, ?_, known⟩
          · intro report member
            obtain rfl | later := List.mem_cons.mp member
            · exact ⟨index, rfl⟩
            · exact areReports report later
          · rw [Machine.run_of_step stepped, runs]

/-- A set of tasks settles on exactly one result. -/
theorem settles (reachable : machine.Reachable tasks) : tasks.Settles := by
  have sound := sound_of_reachable reachable
  have progress := sound.progress
  constructor
  · cases progress <;> simp_all
  · cases progress <;> simp_all
  · cases progress <;> simp_all
  · intro future result determined resolved
    cases progress with
    | undetermined _ empty => simp [empty] at determined
    | published _ _ now => simp [now] at determined
    | awaiting given _ later unpublished awaited =>
        obtain rfl : given = future := by simpa [later] using determined
        right
        simp [perform, awaited, resolved, publish, unpublished]
    | resolved given other _ later found published =>
        obtain rfl : given = future := by simpa [later] using determined
        rw [found] at resolved
        cases resolved
        exact .inl published
    | broken given _ later failed =>
        obtain rfl : given = future := by simpa [later] using determined
        rw [failed] at resolved
        contradiction
  · intro result published
    cases progress with
    | undetermined _ _ unpublished | awaiting _ _ _ unpublished | broken _ _ _ _ unpublished =>
        rw [unpublished] at published
        contradiction
    | published other _ determined same =>
        rw [same] at published
        cases published
        exact .inl determined
    | resolved given other _ determined resolved same =>
        rw [same] at published
        cases published
        exact .inr ⟨given, determined, resolved⟩
  · intro action after raised performed
    obtain ⟨_, keeps, valid⟩ := sound.perform performed
    exact ⟨keeps.determined, keeps.result, valid⟩
  · intro nonempty reported
    apply sound.counted.settled nonempty
    rw [sound.counted.counts, List.countP_eq_zero]
    simpa using reported
  · exact sound.run_reports

/-- The first task fails and the second one is cancelled. -/
def failAndCancel : List Action :=
  [.start 2, .finish 0 (.failed .pingTimeoutError), .taskDone 0, .finish 1 .cancelled, .taskDone 1]

theorem settles_failAndCancel : ∃ tasks : TaskSet,
    tasks.determined = [.now .pingTimeoutError] ∧ tasks.Settles := by
  have first : machine.initial (new fun _ => .pending) := ⟨_, rfl⟩
  exact ⟨_, rfl, settles (Machine.reachable_of_run first failAndCancel rfl)⟩

/-- The action publishes a result only when all tasks are done, and starts tasks only before a
result was published. -/
def PublishesLast (tasks : TaskSet) : Action → Prop
  | .start count => tasks.tasks ≠ none ∨ count = 0 ∨ tasks.resultFuture = none
  | .cancel (.now _) => tasks.cancelled = true ∨ tasks.haveResult = true ∨ tasks.AllDone
  | .taskDone index => tasks.haveResult = true ∨ tasks.AllDone ∨
      ∃ task, tasks.started[index]? = some task ∧ task.outcome = some .cancelled
  | .notify future => (∀ result, tasks.future future ≠ .resolved result) ∨ tasks.AllDone
  | _ => True

/-- A published result means that all tasks are done. -/
def ResultsLast (tasks : TaskSet) : Prop := tasks.resultFuture ≠ none → tasks.AllDone

theorem ResultsLast.follows (last : before.ResultsLast) (follows : before.Follows after)
    (fresh : before.haveResult = false → after.resultFuture ≠ none → before.AllDone) :
    after.ResultsLast := by
  intro published
  rw [follows.allDone_iff]
  obtain already | unknown := follows.published published
  · exact last already
  · exact fresh unknown published

/-- What one action preserves if it does not publish too early. -/
theorem ResultsLast.perform (last : before.ResultsLast) (sound : before.Sound)
    (publishesLast : before.PublishesLast action)
    (performed : before.perform action = some (after, raised)) : after.ResultsLast := by
  cases action with
  | start count =>
      simp only [TaskSet.perform, TaskSet.start, Option.some.injEq] at performed
      split at performed
      · cases performed
        exact last
      · next fresh =>
        obtain notFresh | none | unpublished := publishesLast
        · exact absurd notFresh fresh
        · cases performed
          subst none
          intro _
          split <;> simp [AllDone, started, cancelAll]
        · cases performed
          intro published
          refine absurd ?_ published
          split <;> exact unpublished
  | cancel result =>
      obtain ⟨called, same, follows, already, published⟩ := sound.progress.cancel result
      simp only [TaskSet.perform, same] at performed
      cases performed
      cases cancelled : before.cancelled with
      | true =>
          rw [already cancelled]
          exact last
      | false =>
          apply last.follows follows
          intro unknown isPublished
          cases result with
          | now result =>
              obtain isCancelled | known | allDone := publishesLast
              · simp [cancelled] at isCancelled
              · simp [unknown] at known
              · exact allDone
          | later future => exact absurd (published cancelled unknown) isPublished
  | finish index outcome =>
      simp only [TaskSet.perform] at performed
      split at performed
      · next running =>
        cases performed
        intro published
        have allDone := last published
        exact absurd rfl (allDone _ (List.mem_of_getElem? running))
      · contradiction
  | taskDone index =>
      simp only [TaskSet.perform] at performed
      split at performed
      · next outcome requested done =>
        obtain ⟨called, same, calledSound, follows, published⟩ := sound.taskDone done
        rw [same] at performed
        cases performed
        have marked : (before.setTask index ⟨some outcome, requested, true⟩).AllDone ↔
            before.AllDone :=
          allDone_setTask_iff done (Option.some_ne_none _) (Option.some_ne_none _)
        intro isPublished
        by_cases known : before.haveResult = true
        · obtain already | unknown := follows.published isPublished
          · rw [follows.allDone_iff]
            exact marked.mpr (last already)
          · exact absurd known (by simpa [setTask] using unknown)
        · obtain isKnown | allDone | ⟨task, found, cancelled⟩ := publishesLast
          · exact absurd isKnown known
          · rw [follows.allDone_iff]
            exact marked.mpr allDone
          · rw [done] at found
            cases found
            cases cancelled
            have unknown : before.haveResult = false := by simpa using known
            have none := ((published unknown).mp isPublished).resolve_right (not_not.mpr rfl)
            rw [calledSound.counted.counts, List.countP_eq_zero] at none
            intro task mem
            exact calledSound.counted.done task mem (by simpa using none task mem)
      · contradiction
  | resolve future status =>
      simp only [TaskSet.perform] at performed
      split at performed
      · cases performed
        exact last
      · contradiction
  | notify future =>
      simp only [TaskSet.perform] at performed
      split at performed
      · split at performed
        · contradiction
        · next result resolved =>
          have allDone := publishesLast.resolve_left fun never => never result resolved
          simp only [publish, Option.some.injEq] at performed
          split at performed <;> cases performed <;> exact fun _ => allDone
        · cases performed
          exact last
      · contradiction

/-- Conversely, to publish too early leaves a result beside a task that is not done. -/
theorem ResultsLast.not_of_early (sound : before.Sound)
    (early : ¬ before.PublishesLast action)
    (performed : before.perform action = some (after, raised)) : ¬ after.ResultsLast := by
  cases action with
  | start count =>
      simp only [PublishesLast, not_or] at early
      obtain ⟨fresh, some_, published⟩ := early
      simp only [TaskSet.perform, TaskSet.start, if_neg fresh, Option.some.injEq] at performed
      cases performed
      intro last
      have mem : StartedTask.new ∈ List.replicate count StartedTask.new :=
        List.mem_replicate.mpr ⟨some_, rfl⟩
      split at last
      · exact last published StartedTask.new.cancel (List.mem_map_of_mem mem) rfl
      · exact last published StartedTask.new mem rfl
  | cancel result =>
      cases result with
      | later future => exact absurd trivial early
      | now result =>
          simp only [PublishesLast, not_or, Bool.not_eq_true] at early
          obtain ⟨cancelled, unknown, running⟩ := early
          obtain ⟨called, same, follows, _, published⟩ := sound.progress.cancel (.now result)
          simp only [TaskSet.perform, same] at performed
          cases performed
          intro last
          rw [ResultsLast, published cancelled unknown, follows.allDone_iff] at last
          exact running (last (Option.some_ne_none _))
  | finish | resolve => exact absurd trivial early
  | taskDone index =>
      simp only [PublishesLast, not_or, Bool.not_eq_true] at early
      obtain ⟨unknown, running, failed⟩ := early
      simp only [TaskSet.perform] at performed
      split at performed
      · next outcome requested done =>
        obtain ⟨called, same, _, follows, published⟩ := sound.taskDone done
        rw [same] at performed
        cases performed
        have isPublished : after.resultFuture ≠ none := by
          refine (published unknown).mpr (.inr ?_)
          rintro rfl
          exact failed ⟨_, done, rfl⟩
        intro last
        rw [ResultsLast, follows.allDone_iff] at last
        exact running ((allDone_setTask_iff done (Option.some_ne_none _)
          (Option.some_ne_none _)).mp (last isPublished))
      · contradiction
  | notify future =>
      simp only [PublishesLast, not_or, not_forall, not_not] at early
      obtain ⟨⟨result, resolved⟩, running⟩ := early
      simp only [TaskSet.perform, resolved] at performed
      split at performed
      · simp only [publish, Option.some.injEq] at performed
        intro last
        apply running
        split at performed
        · next published =>
          cases performed
          exact last (by simp [published])
        · cases performed
          exact last (Option.some_ne_none _)
      · contradiction

/-- In a run that never publishes too early, a result means that all tasks are done. -/
theorem all_done_of_result (reach : machine.Reach PublishesLast tasks)
    (published : tasks.resultFuture ≠ none) : tasks.AllDone := by
  have last : tasks.ResultsLast := by
    apply reach.invariant _
    · rintro tasks ⟨future, rfl⟩ published
      exact absurd rfl published
    · intro before after action reached publishesLast last stepped
      obtain ⟨⟨_, raised⟩, performed, rfl⟩ := Option.map_eq_some_iff.mp stepped
      exact last.perform (sound_of_reachable reached.reachable) publishesLast performed
  exact last published

/-- Two tasks end before the callback of the first one runs. -/
theorem all_done_of_result_two : ∃ tasks : TaskSet,
    tasks.resultFuture = some .pingTimeoutError ∧ tasks.started.length = 2 ∧ tasks.AllDone := by
  have fresh : machine.Reach PublishesLast (new fun _ => .pending) := .start ⟨_, rfl⟩
  have started := fresh.next (Action.start 2) (Or.inr (Or.inr rfl)) rfl
  have failed := started.next (Action.finish 0 (.failed .pingTimeoutError)) trivial rfl
  have returned := failed.next (Action.finish 1 .finished) trivial rfl
  have reported := returned.next (Action.taskDone 0) (Or.inr (Or.inl (by decide))) rfl
  exact ⟨_, rfl, rfl, all_done_of_result reported (by decide)⟩

/-- Of two tasks, one fails. -/
theorem result_before_done : ¬ ∀ tasks : TaskSet, machine.Reachable tasks →
    tasks.resultFuture ≠ none → tasks.AllDone := by
  intro claimed
  have first : machine.initial (new fun _ => .pending) := ⟨_, rfl⟩
  have reachable := Machine.reachable_of_run first
    [.start 2, .finish 0 (.failed .pingTimeoutError), .taskDone 0] rfl
  exact absurd (claimed _ reachable (by decide)) (by decide)

end TaskSet

end SaltyRtcServer
