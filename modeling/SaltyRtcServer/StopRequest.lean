import SaltyRtcServer.JobCancel

/-!
# The stop request of a job queue

The runner of a queue stops at the final entry, which `close` and `cancel` put
at the end.  Here the jobs are coroutines and tasks of any kind, and `join` is
called, waits and is cancelled at any time; its cancellation reaches the runner
before `join` itself resumes and calls `_cancel`.
-/

namespace SaltyRtcServer

open StepMachine

/-- The values of `task.JobQueueState`, in their order. -/
def JobQueueState.value : JobQueueState → Nat
  | .opened => 1
  | .closed => 2
  | .cancelled => 3
  | .completed => 4

/-- A job queue with the calls of `join` that wait, and those that were cancelled
and have not resumed.  An interrupted runner was cancelled when the job it awaits
had ended. -/
structure JoinRun where
  run : JobRun
  joining : Nat
  cancelling : Nat
  interrupted : Bool

namespace JoinRun

inductive Action
  /-- what happens to a queue that nobody joins -/
  | job (action : JobRun.Action)
  /-- `loop.create_task`, and `enqueue` of a task -/
  | createTask (body : TaskBody)
  | enqueueTask (id : TaskId)
  | join
  | joined
  /-- `wait_for` cancels `join`; `join` resumes with the cancellation -/
  | joinTimeout
  | joinCancelled
  deriving DecidableEq

/-- `_run` resumes with its own cancellation, which it takes for one of the job. -/
def wakeInterrupted (state : JoinRun) : Option JoinRun :=
  match state.run.jobs.runner with
  | .awaiting id =>
      some { state with
        run.jobs.runner := .getting
        run.jobs.active := none
        run.jobs.callbacks := state.run.jobs.callbacks ++ [id]
        interrupted := false }
  | _ => none

/-- `gather` passes the cancellation on to the runner. -/
def cancelRunner (state : JoinRun) : JoinRun :=
  match state.run.jobs.runner with
  | .getting => { state with run.jobs.runner := .finished }
  | .awaiting id =>
      if state.run.loop.isDone id then { state with interrupted := true }
      else { state with run.loop := state.run.loop.requestCancel id }
  | _ => state

def step (client : ClientRef) (state : JoinRun) : Action → Option JoinRun
  | .job action =>
      if state.interrupted = true ∧ action = .runnerWake then state.wakeInterrupted
      else (state.run.step client action).map fun run => { state with run := run }
  | .createTask body => some { state with run.loop := state.run.loop.spawn body }
  | .enqueueTask id =>
      if id < state.run.loop.next then
        let call := state.run.jobs.enqueue state.run.loop (.task id)
        some { state with run.jobs := call.state.1, run.loop := call.state.2 }
      else none
  | .join =>
      -- Without a runner, `join` raises.
      if state.run.jobs.runner = .notStarted then some state
      else some { state with joining := state.joining + 1 }
  | .joined =>
      match state.joining, state.run.jobs.runner with
      | joining + 1, .finished =>
          if state.run.jobs.unfinished = 0 then some { state with joining := joining } else none
      | joining + 1, .failed _ => some { state with joining := joining }
      | _, _ => none
  | .joinTimeout =>
      match state.joining with
      | joining + 1 =>
          some { state with
            joining := joining
            cancelling := state.cancelling + 1 }.cancelRunner
      | 0 => none
  | .joinCancelled =>
      match state.cancelling with
      | cancelling + 1 =>
          let call := state.run.jobs.cancelAll state.run.loop
          some { state with
            run.jobs := call.state.1
            run.loop := call.state.2
            cancelling := cancelling }
      | 0 => none

def created : JoinRun := ⟨.created, 0, 0, false⟩

/-- The runs of the job queue of a client that is joined. -/
def machine (client : ClientRef) : Machine JoinRun Action :=
  ⟨fun state => state = created, step client⟩

end JoinRun

/-- One final entry, which is the last one. -/
def StopsLast (queue : List JobEntry) : Prop :=
  ∃ (waiting : List Job) (result : PyException), queue = waiting.map .job ++ [.final result]

/-- The queue is to stop and its runner has not taken a final entry: then one waits,
as the last entry. -/
def JoinRun.StopRequested (state : JoinRun) : Prop :=
  state.run.jobs.state = .closed ∨ state.run.jobs.state = .cancelled →
    .stopped ∉ state.run.history → StopsLast state.run.jobs.queue

/-- The job that the runner waits for. -/
def Runner.awaited? : Runner → Option TaskId
  | .awaiting id => some id
  | _ => none

/-- The step stops an open queue without a stop request. -/
def JobRun.Loses (run : JobRun) : JobRun.Action → Prop
  | .cancel _ => run.jobs.state = .opened ∧ run.jobs.Obstructed run.loop
  | .runnerWake =>
      run.jobs.state = .opened ∧ { run.jobs with active := none }.Obstructed run.loop ∧
        run.jobs.runner.awaited?.any run.loop.hasFailed = true
  | _ => False

/-- The step stops the queue without a stop request, or takes it away. -/
def JoinRun.Loses (state : JoinRun) : Action → Prop
  | .job action =>
      ¬ (state.interrupted = true ∧ action = .runnerWake) ∧ state.run.Loses action
  | .joinCancelled =>
      state.run.jobs.state ≠ .completed ∧
        (state.run.jobs.state = .opened ∨ ¬ state.run.jobs.Obstructed state.run.loop)
  | _ => False

instance (run : JobRun) (action : JobRun.Action) : Decidable (run.Loses action) :=
  match action with
  | .cancel _ | .runnerWake => inferInstanceAs (Decidable (_ ∧ _))
  | .enqueue _ | .close _ _ | .start | .runnerGet | .jobDone _ | .taskStart _
  | .taskResume _ _ => .isFalse id

instance (state : JoinRun) (action : JoinRun.Action) : Decidable (state.Loses action) :=
  match action with
  | .job _ | .joinCancelled => inferInstanceAs (Decidable (_ ∧ _))
  | .createTask _ | .enqueueTask _ | .join | .joined | .joinTimeout => .isFalse id

namespace StopsLast

theorem not_nil : ¬ StopsLast [] := by
  rintro ⟨waiting, result, empty⟩
  simp at empty

theorem of_cons {job : Job} {rest : List JobEntry} (last : StopsLast (.job job :: rest)) :
    StopsLast rest := by
  obtain ⟨waiting, result, same⟩ := last
  cases waiting with
  | nil => simp at same
  | cons first waiting =>
      rw [List.map_cons, List.cons_append, List.cons.injEq] at same
      exact ⟨waiting, result, same.2⟩

theorem of_append {taken : List JobEntry} {job : Job} {rest : List JobEntry}
    (last : StopsLast (taken ++ .job job :: rest)) : StopsLast rest := by
  induction taken with
  | nil => exact of_cons last
  | cons entry taken ih =>
      cases entry with
      | job first => exact ih (of_cons last)
      | final result =>
          obtain ⟨waiting, other, same⟩ := last
          cases waiting <;> simp at same

theorem of_jobs {queue : List JobEntry} (waits : ∀ result, .final result ∉ queue)
    (last : List Job) (result : PyException) :
    StopsLast (queue ++ last.map .job ++ [.final result]) := by
  induction queue with
  | nil => exact ⟨last, result, rfl⟩
  | cons entry queue ih =>
      obtain ⟨waiting, other, same⟩ := ih fun result mem => waits result (List.mem_cons_of_mem _ mem)
      cases entry with
      | job job => exact ⟨job :: waiting, other, by simp [← same]⟩
      | final result => exact absurd List.mem_cons_self (waits result)

theorem exists_final {queue : List JobEntry} (last : StopsLast queue) :
    ∃ result, JobEntry.final result ∈ queue := by
  obtain ⟨waiting, result, rfl⟩ := last
  exact ⟨result, by simp⟩

end StopsLast

namespace JobQueue

/-- The entries that wait, and those whose end is awaited, are counted. -/
def Counted (jobs : JobQueue) : Prop :=
  jobs.queue.length + jobs.callbacks.length + JobRun.awaits jobs.runner ≤ jobs.unfinished

/-- A final entry waits when the queue is to stop, and not before. -/
structure Stops (jobs : JobQueue) : Prop where
  opened : jobs.state = .opened → ∀ result, .final result ∉ jobs.queue
  stopping : jobs.state = .closed ∨ jobs.state = .cancelled → StopsLast jobs.queue

/-- What one step may do to a queue, and whether it loses the stop request. -/
inductive QueueStep (jobs : JobQueue) (loop : Loop) : Prop → JobQueue → Prop
  | stays : QueueStep jobs loop False jobs
  | put (opened : jobs.state = .opened) (job : Job) : QueueStep jobs loop False (jobs.put (.job job))
  | close (result : PyException) (last : List Coroutine) :
      QueueStep jobs loop False (jobs.close result last)
  | cancel (result : PyException) :
      QueueStep jobs loop (jobs.state = .opened ∧ jobs.Obstructed loop)
        (jobs.cancel loop result).state.1
  | cancelAll :
      QueueStep jobs loop
        (jobs.state ≠ .completed ∧ (jobs.state = .opened ∨ ¬ jobs.Obstructed loop))
        (jobs.cancelAll loop).state.1
  | runs (runner : Runner) (free : JobRun.awaits runner ≤ JobRun.awaits jobs.runner) :
      QueueStep jobs loop False { jobs with runner := runner }
  | stop {result : PyException} {rest : List JobEntry} (queued : jobs.queue = .final result :: rest)
      (idle : jobs.runner = .getting) :
      QueueStep jobs loop False { jobs with
        state := .completed
        queue := rest
        unfinished := jobs.unfinished - 1
        runner := .finished }
  | take {job : Job} {rest : List JobEntry} (queued : jobs.queue = .job job :: rest) (id : TaskId)
      (idle : jobs.runner = .getting) :
      QueueStep jobs loop False { jobs with
        queue := rest
        runner := .awaiting id
        active := some id }
  | finish {id : TaskId} (awaits : jobs.runner = .awaiting id) :
      QueueStep jobs loop False { jobs with
        unfinished := jobs.unfinished - 1
        runner := .getting
        active := none }
  | defer {id : TaskId} (awaits : jobs.runner = .awaiting id) :
      QueueStep jobs loop False { jobs with
        runner := .getting
        active := none
        callbacks := jobs.callbacks ++ [id] }
  | fail {id : TaskId} (awaits : jobs.runner = .awaiting id) (result : PyException)
      (runner : Runner) (marked : List TaskId)
      (resumes : JobRun.awaits runner + marked.length ≤ 1) :
      QueueStep jobs loop (jobs.state = .opened ∧ { jobs with active := none }.Obstructed loop)
        { ({ jobs with active := none }.cancel loop result).state.1 with
          runner := runner
          callbacks := ({ jobs with active := none }.cancel loop result).state.1.callbacks ++
            marked }
  | call {id : TaskId} (mem : id ∈ jobs.callbacks) :
      QueueStep jobs loop False { jobs with
        unfinished := jobs.unfinished - 1
        callbacks := jobs.callbacks.erase id }

section Preservation

variable {jobs after : JobQueue} {loop : Loop} {lost : Prop}

theorem length_eq_marked (entries : List JobEntry) : entries.length =
    entries.countP JobEntry.markedAtOnce + (entries.filterMap JobEntry.task?).length := by
  induction entries with
  | nil => rfl
  | cons entry rest ih =>
      cases task : entry.task? <;> simp [task, JobEntry.markedAtOnce, ih] <;> omega

theorem Counted.length_le (counted : jobs.Counted) : jobs.queue.length ≤ jobs.unfinished := by
  unfold Counted at counted
  omega

theorem Counted.cancelAll (counted : jobs.Counted) :
    (jobs.cancelAll loop).state.1.Counted := by
  have marked := length_eq_marked jobs.queue
  by_cases obstructed : jobs.Obstructed loop
  · obtain ⟨exception, raised | ⟨taken, id, rest, state, split, raised⟩⟩ :=
      cancelAll_of_obstructed jobs loop obstructed counted.length_le
    · rw [raised]
      exact counted
    · rw [raised]
      have marked := length_eq_marked taken
      simp only [Counted, split, List.length_append, List.length_cons] at counted
      simp only [Counted, Call.state_raised, discard, markCancelled, List.length_append]
      omega
  · rw [cancelAll_of_calm jobs loop obstructed counted.length_le]
    simp only [Counted] at counted
    simp only [Counted, Call.state_returned, discard, markCancelled, List.length_append,
      List.length_nil]
    omega

theorem Counted.cancel (counted : jobs.Counted) (result : PyException) :
    (jobs.cancel loop result).state.1.Counted := by
  rcases jobs.cancel_cases loop result with
    ⟨_, same⟩ | ⟨_, _, ⟨exception, raised⟩ | ⟨returned, _⟩⟩
  · rw [same]
    exact counted
  · rw [raised]
    exact counted.cancelAll
  · rw [returned, Call.state_returned, stop_eq]
    have kept : (jobs.cancelAll loop).state.1.Counted := counted.cancelAll
    simp only [Counted] at kept
    simp only [Counted, List.map_nil, List.append_nil, List.length_append, List.length_nil,
      List.length_singleton]
    omega

theorem QueueStep.counted (step : jobs.QueueStep loop lost after) (counted : jobs.Counted) :
    after.Counted := by
  cases step with
  | stays => exact counted
  | put opened job =>
      simp only [Counted] at counted
      simp only [Counted, JobQueue.put, List.length_append, List.length_singleton]
      omega
  | close result last =>
      simp only [Counted] at counted
      rw [close_eq]
      split
      · simp only [Counted, List.length_append, List.length_map, List.length_singleton]
        omega
      · exact counted
  | cancel result => exact counted.cancel result
  | cancelAll => exact counted.cancelAll
  | runs runner free =>
      simp only [Counted] at counted ⊢
      omega
  | stop queued idle | take queued id idle =>
      simp only [Counted, queued, idle, List.length_cons, JobRun.awaits] at counted ⊢
      omega
  | finish awaits | defer awaits =>
      simp only [Counted, awaits, JobRun.awaits, List.length_append, List.length_singleton]
        at counted ⊢
      omega
  | @fail id awaits result runner marked resumes =>
      have inactive : ({ jobs with active := none } : JobQueue).Counted := counted
      have kept : ({ jobs with active := none }.cancel loop result).state.1.Counted :=
        inactive.cancel result
      have same : ({ jobs with active := none }.cancel loop result).state.1.runner =
          .awaiting id := (cancel_runner ..).trans awaits
      simp only [Counted, same, JobRun.awaits] at kept
      simp only [Counted, List.length_append]
      omega
  | call mem =>
      have positive := List.length_pos_of_mem mem
      simp only [Counted, List.length_erase_of_mem mem] at counted ⊢
      omega

theorem markCancelled_value : jobs.state.value ≤ jobs.markCancelled.state.value := by
  simp only [markCancelled]
  cases jobs.state <;> decide

theorem cancel_value (jobs : JobQueue) (loop : Loop) (result : PyException) :
    jobs.state.value ≤ (jobs.cancel loop result).state.1.state.value := by
  have cancelled : jobs.state.value ≤ (jobs.cancelAll loop).state.1.state.value := by
    rw [cancelAll_state]
    exact markCancelled_value
  rcases jobs.cancel_cases loop result with
    ⟨_, same⟩ | ⟨_, _, ⟨exception, raised⟩ | ⟨returned, _⟩⟩
  · rw [same]
    exact Nat.le_refl _
  · rwa [raised]
  · rwa [returned, Call.state_returned, stop_eq]

theorem QueueStep.value_le (step : jobs.QueueStep loop lost after) :
    jobs.state.value ≤ after.state.value := by
  cases step with
  | stays | put | runs | take | finish | defer | call => exact Nat.le_refl _
  | close result last =>
      rw [close_eq]
      split
      · next opened =>
        simp only [opened]
        decide
      · exact Nat.le_refl _
  | cancel result => exact cancel_value jobs loop result
  | cancelAll =>
      rw [cancelAll_state]
      exact markCancelled_value
  | stop queued idle =>
      dsimp only
      cases jobs.state <;> decide
  | fail awaits result runner marked resumes =>
      exact cancel_value { jobs with active := none } loop result

theorem markCancelled_state (running : jobs.state ≠ .completed) :
    jobs.markCancelled.state = .cancelled :=
  if_neg running

/-- `_cancel` leaves a final entry only if a failed task stops it before it gets there. -/
theorem Stops.cancelAll_iff (stops : jobs.Stops) (counted : jobs.Counted)
    (running : jobs.state ≠ .completed) :
    StopsLast (jobs.cancelAll loop).state.1.queue ↔
      jobs.state ≠ .opened ∧ jobs.Obstructed loop := by
  have stopping (closed : jobs.state ≠ .opened) : StopsLast jobs.queue := by
    apply stops.stopping
    cases state : jobs.state <;> simp_all
  by_cases obstructed : jobs.Obstructed loop
  · obtain ⟨exception, raised | ⟨taken, id, rest, state, split, raised⟩⟩ :=
      cancelAll_of_obstructed jobs loop obstructed counted.length_le
    · rw [raised]
      constructor
      · intro last
        obtain ⟨result, mem⟩ := last.exists_final
        exact ⟨fun opened => stops.opened opened result mem, obstructed⟩
      · exact fun ⟨closed, _⟩ => stopping closed
    · rw [raised]
      constructor
      · intro last
        obtain ⟨result, mem⟩ := last.exists_final
        refine ⟨fun opened => stops.opened opened result ?_, obstructed⟩
        rw [split]
        exact List.mem_append_right _ (List.mem_cons_of_mem _ mem)
      · rintro ⟨closed, _⟩
        have last := stopping closed
        rw [split] at last
        exact last.of_append
  · rw [cancelAll_of_calm jobs loop obstructed counted.length_le]
    constructor
    · exact fun last => absurd last StopsLast.not_nil
    · exact fun ⟨_, blocked⟩ => absurd blocked obstructed

/-- `cancel` leaves a final entry, unless it raises on an open queue. -/
theorem Stops.cancel_iff (stops : jobs.Stops) (counted : jobs.Counted)
    (running : jobs.state ≠ .completed) (result : PyException) :
    StopsLast (jobs.cancel loop result).state.1.queue ↔
      ¬ (jobs.state = .opened ∧ jobs.Obstructed loop) := by
  by_cases late : jobs.Late
  · have cancelled : jobs.state = .cancelled := late.resolve_right running
    have called : jobs.cancel loop result = .returned (jobs, loop) () := if_pos late
    rw [called, cancelled]
    simpa using stops.stopping (.inr cancelled)
  · by_cases obstructed : jobs.Obstructed loop
    · obtain ⟨exception, raised⟩ : ∃ exception, jobs.cancel loop result =
          .raised (jobs.cancelAll loop).state exception := by
        have early : ¬ (jobs.state = .cancelled ∨ jobs.state = .completed) := late
        obtain ⟨exception, raised | ⟨taken, id, rest, state, split, raised⟩⟩ :=
          cancelAll_of_obstructed jobs loop obstructed counted.length_le
        all_goals exact ⟨exception, by rw [cancel, if_neg early, raised, Call.state_raised]⟩
      rw [raised, Call.state_raised, stops.cancelAll_iff counted running]
      simp [obstructed]
    · rw [cancel_of_calm result late obstructed counted.length_le]
      simp only [Call.state_returned, obstructed, and_false, not_false_eq_true, iff_true]
      exact ⟨[], result, rfl⟩

/-- A queue that has not completed is to stop after the step, or it was open and still
is. -/
theorem Stops.of_not_opened (kept : after.state ≠ .opened)
    (last : after.state ≠ .completed → StopsLast after.queue) : after.Stops := by
  refine ⟨fun opened => absurd opened kept, fun stopping => last ?_⟩
  rcases stopping with state | state <;> simp [state]

theorem Stops.cancelled (stops : jobs.Stops) (counted : jobs.Counted) (result : PyException)
    (kept : ¬ (jobs.state = .opened ∧ jobs.Obstructed loop)) :
    (jobs.cancel loop result).state.1.Stops := by
  have shut : (jobs.cancel loop result).state.1.state ≠ .opened := cancel_not_opened jobs loop result
  refine .of_not_opened shut fun running => ?_
  refine (stops.cancel_iff counted (fun completed => running ?_) result).mpr kept
  have called : jobs.cancel loop result = .returned (jobs, loop) () := if_pos (.inr completed)
  rw [called]
  exact completed

/-- A step that does not lose the stop request keeps it. -/
theorem Stops.step (stops : jobs.Stops) (counted : jobs.Counted)
    (step : jobs.QueueStep loop lost after) (kept : ¬ lost) : after.Stops := by
  cases step with
  | stays | runs | finish | defer | call => exact ⟨stops.opened, stops.stopping⟩
  | put opened job =>
      refine ⟨fun _ result mem => ?_, fun stopping => ?_⟩
      · have old : JobEntry.final result ∈ jobs.queue := by simpa [JobQueue.put] using mem
        exact stops.opened opened result old
      · rcases stopping with state | state <;> simp [JobQueue.put, opened] at state
  | close result last =>
      rw [close_eq]
      split
      · next opened =>
        refine .of_not_opened (by simp) fun _ => ?_
        have last := StopsLast.of_jobs (stops.opened opened) (last.map .coroutine) result
        rwa [List.map_map] at last
      · exact stops
  | cancel result => exact stops.cancelled counted result kept
  | cancelAll =>
      have marked := cancelAll_state jobs loop
      by_cases completed : jobs.state = .completed
      · have same : (jobs.cancelAll loop).state.1.state = .completed := by
          rw [marked, markCancelled, if_pos completed]
        exact .of_not_opened (by simp [same]) fun running => absurd same running
      · have shut : (jobs.cancelAll loop).state.1.state = .cancelled :=
          marked.trans (markCancelled_state completed)
        obtain ⟨closed, obstructed⟩ := not_or.mp (not_and.mp kept completed)
        have last := (stops.cancelAll_iff counted completed).mpr ⟨closed, not_not.mp obstructed⟩
        exact .of_not_opened (by simp [shut]) fun _ => last
  | stop queued idle => exact .of_not_opened (by simp) fun running => absurd rfl running
  | take queued id idle =>
      refine ⟨fun opened result mem => stops.opened opened result ?_, fun stopping => ?_⟩
      · rw [queued]
        exact List.mem_cons_of_mem _ mem
      · have last := stops.stopping stopping
        rw [queued] at last
        exact last.of_cons
  | fail awaits result runner marked resumes =>
      have inactive : ({ jobs with active := none } : JobQueue).Stops :=
        ⟨stops.opened, stops.stopping⟩
      have cancelled := inactive.cancelled counted result kept
      exact ⟨cancelled.opened, cancelled.stopping⟩

theorem cancel_state (running : jobs.state ≠ .completed) (result : PyException) :
    (jobs.cancel loop result).state.1.state = .cancelled := by
  have marked := (cancelAll_state jobs loop).trans (markCancelled_state running)
  rcases jobs.cancel_cases loop result with
    ⟨late, same⟩ | ⟨_, _, ⟨exception, raised⟩ | ⟨returned, _⟩⟩
  · rw [same]
    exact late.resolve_right running
  · rw [raised]
    exact marked
  · rw [returned, Call.state_returned, stop_eq]
    exact marked

/-- Conversely, a step that loses the stop request leaves a cancelled queue without one. -/
theorem Stops.lose (stops : jobs.Stops) (counted : jobs.Counted)
    (step : jobs.QueueStep loop lost after) (loses : lost) :
    after.state = .cancelled ∧ ¬ StopsLast after.queue := by
  have cancels {jobs : JobQueue} (stops : jobs.Stops) (counted : jobs.Counted)
      (result : PyException) (loses : jobs.state = .opened ∧ jobs.Obstructed loop) :
      (jobs.cancel loop result).state.1.state = .cancelled ∧
        ¬ StopsLast (jobs.cancel loop result).state.1.queue := by
    have running : jobs.state ≠ .completed := by simp [loses.1]
    refine ⟨cancel_state running result, ?_⟩
    rw [stops.cancel_iff counted running, not_not]
    exact loses
  cases step with
  | stays | put | close | runs | stop | take | finish | defer | call => contradiction
  | cancel result => exact cancels stops counted result loses
  | cancelAll =>
      obtain ⟨running, lost⟩ := loses
      refine ⟨(cancelAll_state jobs loop).trans (markCancelled_state running), ?_⟩
      rw [stops.cancelAll_iff counted running]
      rintro ⟨closed, obstructed⟩
      exact lost.elim closed fun calm => calm obstructed
  | fail awaits result runner marked resumes =>
      have inactive : ({ jobs with active := none } : JobQueue).Stops :=
        ⟨stops.opened, stops.stopping⟩
      exact cancels inactive counted result loses

end Preservation

end JobQueue

section Cases

variable {client : ClientRef}

open JobQueue

theorem JobQueue.QueueStep.of_iff {jobs after : JobQueue} {loop : Loop} {lost other : Prop}
    (step : jobs.QueueStep loop lost after) (same : lost ↔ other) :
    jobs.QueueStep loop other after :=
  propext same ▸ step

theorem JobQueue.jobDone_of_pos {jobs : JobQueue} (positive : 0 < jobs.unfinished) :
    jobs.jobDone = .ok { jobs with unfinished := jobs.unfinished - 1 } :=
  if_neg (Nat.ne_of_gt positive)

/-- An entry that is taken was counted. -/
theorem JobQueue.Counted.pos_of_queued {jobs : JobQueue} {entry : JobEntry}
    {rest : List JobEntry} (counted : jobs.Counted) (queued : jobs.queue = entry :: rest) :
    0 < jobs.unfinished := by
  simp only [Counted, queued, List.length_cons] at counted
  omega

theorem JobRun.queueStep_runnerGet {run : JobRun} {step : RunnerStep}
    (counted : run.jobs.Counted) (taken : run.jobs.runnerGet run.loop client = some step) :
    run.jobs.QueueStep run.loop False step.jobs := by
  have idle := getting_of_runnerGet taken
  cases queued : run.jobs.queue with
  | nil => simp [JobQueue.runnerGet, idle, queued] at taken
  | cons entry rest =>
      have positive := counted.pos_of_queued queued
      rcases entry with ⟨coroutine | id⟩ | result
      · simp only [JobQueue.runnerGet, idle, queued, Option.some.injEq] at taken
        subst taken
        exact .take queued run.loop.next idle
      · simp only [JobQueue.runnerGet, idle, queued, Option.some.injEq] at taken
        subst taken
        exact .take queued id idle
      · simp only [JobQueue.runnerGet, idle, queued, jobDone_of_pos, positive,
          Option.some.injEq] at taken
        subst taken
        exact .stop queued idle

theorem JobRun.queueStep_runnerWake {run : JobRun} {step : RunnerStep}
    (counted : run.jobs.Counted) (resumed : run.jobs.runnerWake run.loop = some step) :
    run.jobs.QueueStep run.loop (run.Loses .runnerWake) step.jobs := by
  rcases awaits : run.jobs.runner with _ | _ | id | _ | exception
  case awaiting =>
    have positive : 0 < run.jobs.unfinished := by
      simp only [Counted, awaits, JobRun.awaits] at counted
      omega
    have failed : run.Loses .runnerWake ↔ run.jobs.state = .opened ∧
        { run.jobs with active := none }.Obstructed run.loop ∧ run.loop.hasFailed id = true := by
      simp [JobRun.Loses, Runner.awaited?, awaits]
    rcases status : (run.loop.task id).status with _ | _ | _ | _ | exception
    case done.finished =>
      simp only [JobQueue.runnerWake, awaits, status, jobDone_of_pos, positive,
        Option.some.injEq] at resumed
      subst resumed
      exact (QueueStep.finish awaits).of_iff (by simp [failed, EventLoop.hasFailed, status])
    case done.cancelled =>
      simp only [JobQueue.runnerWake, awaits, status, Option.some.injEq] at resumed
      subst resumed
      exact (QueueStep.defer awaits).of_iff (by simp [failed, EventLoop.hasFailed, status])
    case done.failed =>
      have same : run.jobs.state = .opened ∧
          { run.jobs with active := none }.Obstructed run.loop ↔ run.Loses .runnerWake := by
        simp [failed, EventLoop.hasFailed, status]
      obtain ⟨⟨state, queue, unfinished, runner, active, callbacks⟩, loop, history⟩ := run
      obtain rfl : runner = .awaiting id := awaits
      simp only at status
      simp only [JobQueue.runnerWake, status] at resumed
      split at resumed
      · next cancelled current raised called =>
        cases resumed
        have fails := (QueueStep.fail rfl exception (.failed raised) [] (Nat.zero_le _)).of_iff same
        simpa only [called, Call.state_raised, List.append_nil] using fails
      · next cancelled current _ called =>
        cases resumed
        have fails := (QueueStep.fail rfl exception .getting [id] (Nat.le_refl _)).of_iff same
        simpa only [called, Call.state_returned] using fails
    all_goals simp [JobQueue.runnerWake, awaits, status] at resumed
  all_goals simp [JobQueue.runnerWake, awaits] at resumed

theorem JobRun.queueStep {run after : JobRun} {action : JobRun.Action}
    (counted : run.jobs.Counted) (stepped : run.step client action = some after) :
    run.jobs.QueueStep run.loop (run.Loses action) after.jobs := by
  cases action with
  | enqueue coroutine =>
      obtain rfl := Option.some.inj stepped
      by_cases opened : run.jobs.state = .opened
      · simp only [JobQueue.enqueue, if_pos opened]
        exact .put opened _
      · simp only [JobQueue.enqueue, if_neg opened]
        exact .stays
  | close result last =>
      obtain rfl := Option.some.inj stepped
      exact .close result last
  | cancel result =>
      obtain rfl := Option.some.inj stepped
      exact .cancel result
  | start =>
      obtain rfl := Option.some.inj stepped
      unfold JobQueue.start
      split
      · exact .runs .getting (Nat.zero_le _)
      · exact .stays
  | runnerGet =>
      obtain ⟨step, taken, rfl⟩ := Option.map_eq_some_iff.mp stepped
      exact queueStep_runnerGet counted taken
  | runnerWake =>
      obtain ⟨step, resumed, rfl⟩ := Option.map_eq_some_iff.mp stepped
      exact queueStep_runnerWake counted resumed
  | jobDone id =>
      obtain ⟨jobs, called, rfl⟩ := Option.map_eq_some_iff.mp stepped
      unfold JobQueue.runCallback at called
      split at called
      · next enabled =>
        have positive : 0 < run.jobs.unfinished := by
          have callbacks := List.length_pos_of_mem enabled.1
          unfold Counted at counted
          omega
        simp only [jobDone_of_pos, positive, Option.some.injEq] at called
        subst called
        exact .call enabled.1
      · contradiction
  | taskStart progress =>
      simp only [JobRun.step] at stepped
      split at stepped
      · contradiction
      · split at stepped <;> cases stepped <;> exact .stays
  | taskResume id progress =>
      simp only [JobRun.step] at stepped
      split at stepped
      · cases stepped
        exact .stays
      · contradiction

theorem JobRun.stopped_notMem_cancelEvents (run : JobRun) (jobs : JobQueue)
    (result : PyException) : .stopped ∉ run.cancelEvents jobs result := by
  unfold JobRun.cancelEvents
  split <;> simp

/-- A step that takes a final entry completes the queue. -/
theorem JobRun.completed_of_stopped {run after : JobRun} {action : JobRun.Action}
    (counted : run.jobs.Counted) (stepped : run.step client action = some after)
    (stopped : .stopped ∈ after.history) :
    .stopped ∈ run.history ∨ after.jobs.state = .completed := by
  cases action with
  | enqueue coroutine =>
      cases stepped
      have silent := List.mem_append.mp stopped
      by_cases opened : run.jobs.state = .opened <;> exact .inl (by simpa [opened] using silent)
  | close result last =>
      cases stepped
      have silent := List.mem_append.mp stopped
      by_cases opened : run.jobs.state = .opened <;> exact .inl (by simpa [opened] using silent)
  | cancel result =>
      cases stepped
      exact .inl ((List.mem_append.mp stopped).resolve_right
        (run.stopped_notMem_cancelEvents run.jobs result))
  | start =>
      cases stepped
      exact .inl stopped
  | runnerGet =>
      obtain ⟨step, taken, rfl⟩ := Option.map_eq_some_iff.mp stepped
      apply (List.mem_append.mp stopped).imp_right
      intro new
      cases queued : run.jobs.queue with
      | nil => simp [queued] at new
      | cons entry rest =>
          rcases entry with ⟨coroutine | id⟩ | result
          · simp [queued] at new
          · simp [queued] at new
          · have idle := getting_of_runnerGet taken
            have positive := counted.pos_of_queued queued
            simp only [JobQueue.runnerGet, idle, queued, jobDone_of_pos, positive,
              Option.some.injEq] at taken
            subst taken
            rfl
  | runnerWake =>
      obtain ⟨step, resumed, rfl⟩ := Option.map_eq_some_iff.mp stepped
      refine .inl ((List.mem_append.mp stopped).resolve_right ?_)
      unfold JobRun.wakeEvents
      split
      · split
        · exact run.stopped_notMem_cancelEvents _ _
        · exact List.not_mem_nil
      · exact List.not_mem_nil
  | jobDone id =>
      obtain ⟨jobs, called, rfl⟩ := Option.map_eq_some_iff.mp stepped
      exact .inl stopped
  | taskStart progress =>
      simp only [JobRun.step] at stepped
      split at stepped
      · contradiction
      · split at stepped <;> cases stepped <;> exact .inl stopped
  | taskResume id progress =>
      simp only [JobRun.step] at stepped
      split at stepped
      · cases stepped
        exact .inl stopped
      · contradiction

namespace JoinRun

variable {before after : JoinRun} {action : Action}

theorem history_eq (stepped : step client before action = some after) :
    after.run.history = before.run.history ∨
      ∃ inner, action = .job inner ∧ before.run.step client inner = some after.run := by
  cases action with
  | job inner =>
      simp only [step] at stepped
      split at stepped
      · unfold wakeInterrupted at stepped
        split at stepped
        · cases stepped
          exact .inl rfl
        · contradiction
      · obtain ⟨run, ran, rfl⟩ := Option.map_eq_some_iff.mp stepped
        exact .inr ⟨inner, rfl, ran⟩
  | createTask | enqueueTask | join | joined | joinTimeout | joinCancelled =>
      left
      simp only [step, cancelRunner] at stepped
      grind

theorem queueStep (counted : before.run.jobs.Counted)
    (stepped : step client before action = some after) :
    before.run.jobs.QueueStep before.run.loop (before.Loses action) after.run.jobs := by
  cases action with
  | job action =>
      simp only [step] at stepped
      split at stepped
      · next interrupted =>
        have safe : False ↔ before.Loses (.job action) := by simp [Loses, interrupted]
        unfold wakeInterrupted at stepped
        split at stepped
        · next id awaits =>
          cases stepped
          exact (QueueStep.defer awaits).of_iff safe
        · contradiction
      · next direct =>
        obtain ⟨run, ran, rfl⟩ := Option.map_eq_some_iff.mp stepped
        exact (JobRun.queueStep counted ran).of_iff (by simp [Loses, direct])
  | createTask body =>
      cases stepped
      exact .stays
  | enqueueTask id =>
      simp only [step] at stepped
      split at stepped
      · cases stepped
        by_cases opened : before.run.jobs.state = .opened
        · simp only [JobQueue.enqueue, if_pos opened]
          exact .put opened _
        · simp only [JobQueue.enqueue, if_neg opened]
          split <;> exact .stays
      · contradiction
  | join =>
      simp only [step] at stepped
      split at stepped <;> cases stepped <;> exact .stays
  | joined =>
      simp only [step] at stepped
      split at stepped
      · split at stepped
        · cases stepped
          exact .stays
        · contradiction
      · cases stepped
        exact .stays
      · contradiction
  | joinTimeout =>
      simp only [step] at stepped
      split at stepped
      · cases stepped
        simp only [cancelRunner]
        split
        · exact .runs .finished (Nat.zero_le _)
        · split <;> exact .stays
        · exact .stays
      · contradiction
  | joinCancelled =>
      simp only [step] at stepped
      split at stepped
      · cases stepped
        exact .cancelAll
      · contradiction

/-- What holds of every run, also when the stop request was lost. -/
theorem counted_of_reachable (reach : (machine client).Reachable before) :
    before.run.jobs.Counted := by
  apply reach.invariant (fun state => state.run.jobs.Counted)
  · rintro state rfl
    exact Nat.le_refl 0
  · intro first second action _ _ counted stepped
    exact (queueStep counted stepped).counted counted

theorem completed_of_value {state : JobQueueState} (last : JobQueueState.completed.value ≤ state.value) :
    state = .completed := by
  cases state <;> simp [JobQueueState.value] at last ⊢

theorem completed_of_reachable (reach : (machine client).Reachable before)
    (stopped : .stopped ∈ before.run.history) : before.run.jobs.state = .completed := by
  induction reach with
  | start first =>
      cases first
      contradiction
  | @next before after action reached _ stepped ih =>
      have counted := counted_of_reachable reached
      have kept (old : .stopped ∈ before.run.history) : after.run.jobs.state = .completed := by
        apply completed_of_value
        rw [← ih old]
        exact (queueStep counted stepped).value_le
      rcases history_eq stepped with same | ⟨inner, _, ran⟩
      · exact kept (same ▸ stopped)
      · exact (JobRun.completed_of_stopped counted ran stopped).elim kept id

theorem value_le_of_continues (reach : (machine client).Reachable before)
    (steps : (machine client).Continues (fun _ _ => True) before after) :
    before.run.jobs.state.value ≤ after.run.jobs.state.value := by
  induction steps with
  | refl => exact Nat.le_refl _
  | tail steps step ih =>
      obtain ⟨action, _, stepped⟩ := step
      have counted := counted_of_reachable (reach.continues steps)
      exact ih.trans (queueStep counted stepped).value_le

theorem stops_of_reach
    (reach : (machine client).Reach (fun state action => ¬ state.Loses action) before) :
    before.run.jobs.Stops := by
  apply reach.invariant (fun state => state.run.jobs.Stops)
  · rintro state rfl
    exact ⟨fun _ result => List.not_mem_nil, fun stopping => by
      simp [created, JobRun.created, JobQueue.new] at stopping⟩
  · intro first second action reached kept stops stepped
    have counted := counted_of_reachable reached.reachable
    exact stops.step counted (queueStep counted stepped) kept

/-- The condition is exact: a step that breaks it leaves a queue that is to stop and
holds nothing to stop for. -/
theorem Loses.not_stopRequested
    (reach : (machine client).Reach (fun state action => ¬ state.Loses action) before)
    (loses : before.Loses action) (stepped : step client before action = some after) :
    ¬ after.StopRequested := by
  have counted := counted_of_reachable reach.reachable
  obtain ⟨cancelled, empty⟩ :=
    (stops_of_reach reach).lose counted (queueStep counted stepped) loses
  intro requested
  have reached : (machine client).Reachable after := .next action reach.reachable trivial stepped
  refine empty (requested (.inr cancelled) fun stopped => ?_)
  rw [completed_of_reachable reached stopped] at cancelled
  contradiction

/-- In every run that does not lose the stop request, a queue that is to stop holds one
final entry, at its end; the state never goes back. -/
theorem stop_request_kept (client : ClientRef) :
    (∀ state, (machine client).Reach (fun state action => ¬ state.Loses action) state →
        state.StopRequested) ∧
      ∀ before after, (machine client).Reachable before →
        (machine client).Continues (fun _ _ => True) before after →
          before.run.jobs.state.value ≤ after.run.jobs.state.value := by
  refine ⟨fun state reach => ?_, fun before after => value_le_of_continues⟩
  exact fun stopping _ => (stops_of_reach reach).stopping stopping

/-- A job is cancelled by the timeout of `join` before the queue is left to stop. -/
def stopAfterTimeout : List Action :=
  [.job .start, .job (.enqueue (.send .serverHello none)), .job .runnerGet,
    .job (.taskStart .suspends), .job (.close (.disconnected 1001) []), .join, .joinTimeout,
    .job (.taskResume 0 (.ends .cancelled)), .job .runnerWake]

theorem stop_request_kept_timeout :
    ∃ state, (machine 0).run created stopAfterTimeout = some state ∧
      state.run.jobs.queue = [.final (.disconnected 1001)] ∧ state.StopRequested :=
  ⟨_, rfl, rfl, (stop_request_kept 0).1 _
    (Machine.reach_run (.start rfl) stopAfterTimeout (by decide) rfl)⟩

/-- The job is suspended once more when it is cancelled, so that `join` resumes before
the runner does. -/
def joinBeforeRunner : List Action :=
  [.job .start, .job (.enqueue (.send .serverHello none)), .job .runnerGet,
    .job (.taskStart .suspends), .job (.close (.disconnected 1001) []), .join, .joinTimeout,
    .job (.taskResume 0 .suspends), .joinCancelled, .job (.taskResume 0 (.ends .cancelled)),
    .job .runnerWake]

/-- The runner waits for an entry of a cancelled queue that nothing is put in any more. -/
theorem stop_request_lost :
    ∃ state, (machine 0).run created joinBeforeRunner = some state ∧
      state.run.jobs.runner = .getting ∧ state.run.jobs.state = .cancelled ∧
      state.run.jobs.queue = [] ∧ ¬ state.StopRequested := by
  refine ⟨_, rfl, rfl, rfl, rfl, fun requested => ?_⟩
  exact StopsLast.not_nil (requested (.inr rfl) (by decide))

end JoinRun

end Cases

end SaltyRtcServer
