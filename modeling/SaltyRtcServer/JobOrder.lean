import SaltyRtcServer.ServerRun
import SaltyRtcServer.StepMachine

/-!
# The order of the jobs of a queue

A job queue on its own: calls of `enqueue`, `close`, `cancel` and `start` from
outside, the runner, and the tasks that the runner makes of coroutine jobs, in
any interleaving.  What a job does is left open: it may be suspended and resumed
any number of times, may ignore a cancellation, and ends in any way.
-/

namespace SaltyRtcServer

open StepMachine

/-- The queue and the loop after a step of `JobQueue._run`, and what its result
handler was called with. -/
structure RunnerStep where
  jobs : JobQueue
  loop : Loop
  handled : Option PyException

namespace JobQueue

/-- `_run` takes the next entry. -/
def runnerGet (jobs : JobQueue) (loop : Loop) (client : ClientRef) : Option RunnerStep :=
  match jobs.runner, jobs.queue with
  | .getting, .final result :: rest =>
      let jobs := { jobs with queue := rest, state := .completed }
      match jobs.jobDone with
      | .error exception => some ⟨{ jobs with runner := .failed exception }, loop, none⟩
      | .ok jobs => some ⟨{ jobs with runner := .finished }, loop, some result⟩
  | .getting, .job (.coroutine coroutine) :: rest =>
      -- `ensure_future` makes it a task.
      some ⟨{ jobs with
        queue := rest
        runner := .awaiting loop.next
        active := some loop.next }, loop.spawn (.run client coroutine), none⟩
  | .getting, .job (.task id) :: rest =>
      some ⟨{ jobs with queue := rest, runner := .awaiting id, active := some id }, loop, none⟩
  | _, _ => none

theorem getting_of_runnerGet {jobs : JobQueue} {loop : Loop} {client : ClientRef}
    {step : RunnerStep} (taken : jobs.runnerGet loop client = some step) :
    jobs.runner = .getting := by
  unfold runnerGet at taken
  split at taken <;> first | assumption | contradiction

/-- `_run` resumes when the job it awaits is done. -/
def runnerWake (jobs : JobQueue) (loop : Loop) : Option RunnerStep :=
  match jobs.runner with
  | .awaiting id =>
      let jobs := { jobs with active := none }
      match (loop.task id).status with
      | .done .finished =>
          match jobs.jobDone with
          | .error exception => some ⟨{ jobs with runner := .failed exception }, loop, none⟩
          | .ok jobs => some ⟨{ jobs with runner := .getting }, loop, none⟩
      | .done .cancelled =>
          some ⟨{ jobs with runner := .getting, callbacks := jobs.callbacks ++ [id] }, loop, none⟩
      | .done (.failed exception) =>
          match jobs.cancel loop exception with
          | .raised (jobs, loop) raised => some ⟨{ jobs with runner := .failed raised }, loop, none⟩
          | .returned (jobs, loop) _ =>
              some ⟨{ jobs with runner := .getting, callbacks := jobs.callbacks ++ [id] }, loop,
                some exception⟩
      | _ => none
  | _ => none

/-- The done callback `_job_done` of a task; what it raises is only logged. -/
def runCallback (jobs : JobQueue) (loop : Loop) (id : TaskId) : Option JobQueue :=
  if id ∈ jobs.callbacks ∧ loop.isDone id then
    let jobs := { jobs with callbacks := jobs.callbacks.erase id }
    match jobs.jobDone with
    | .error _ => some jobs
    | .ok jobs => some jobs
  else none

end JobQueue

section Server

variable (server : Server) (ref : ClientRef)

/-- A step of the runner of a client, whose result handler is `client.tasks.cancel`. -/
def Server.afterRunner (step : RunnerStep) : Server :=
  let server := { server with loop := step.loop }.setJobs ref step.jobs
  match step.handled with
  | none => server
  | some result => server.cancelTasks ref (.now result)

theorem Server.runnerGet_eq :
    server.runnerGet ref =
      ((server.jobs ref).runnerGet server.loop ref).map (server.afterRunner ref) := by
  unfold runnerGet JobQueue.runnerGet
  rcases server.jobs ref with ⟨state, queue, unfinished, runner, active, callbacks⟩
  rcases runner with _ | _ | id | _ | exception <;> try rfl
  rcases queue with _ | ⟨⟨coroutine | id⟩ | result, rest⟩ <;> try rfl
  cases unfinished <;> rfl

theorem Server.runnerWake_eq :
    server.runnerWake ref =
      ((server.jobs ref).runnerWake server.loop).map (server.afterRunner ref) := by
  unfold runnerWake JobQueue.runnerWake
  rcases awaiting : (server.jobs ref).runner with _ | _ | id | _ | exception <;> try rfl
  rcases status : (server.loop.task id).status with _ | _ | _ | _ | exception <;>
    simp only [awaiting, status, Option.map_none, Option.map_some] <;> try rfl
  · cases JobQueue.jobDone _ <;> rfl
  · -- The queue is cancelled and the result is handled before the callback is added.
    simp only [cancelJobs, setJobs, Function.update_self, Function.update_idem]
    rcases JobQueue.cancel _ server.loop exception with ⟨⟨jobs, loop⟩, _⟩ | ⟨⟨jobs, loop⟩, raised⟩
    · simp [afterRunner, setJobs, cancelTasks, setTasks]
    · simp [afterRunner, setJobs]

theorem Server.jobDone_eq (id : TaskId) :
    server.jobDone ref id =
      ((server.jobs ref).runCallback server.loop id).map (server.setJobs ref) := by
  unfold jobDone JobQueue.runCallback
  split
  · dsimp only
    cases JobQueue.jobDone _ <;> rfl
  · rfl

end Server

namespace JobEntry

/-- The coroutine of an entry that waits to be started. -/
def coroutine? : JobEntry → Option Coroutine
  | .job (.coroutine coroutine) => some coroutine
  | _ => none

end JobEntry

namespace JobQueue

/-- The coroutines that wait in the queue. -/
def waiting (jobs : JobQueue) : List Coroutine :=
  jobs.queue.filterMap JobEntry.coroutine?

/-- The coroutines that `drain` closes, each before it is marked as done. -/
def drainCloses (jobs : JobQueue) (loop : Loop) : List JobEntry → List Coroutine
  | [] => []
  | .job (.task id) :: rest =>
      match cancelAwaitable loop (.task id) with
      | .error _ => []
      | .ok loop => drainCloses { jobs with callbacks := jobs.callbacks ++ [id] } loop rest
  | .job (.coroutine coroutine) :: rest =>
      coroutine :: match jobs.jobDone with
        | .error _ => []
        | .ok jobs => drainCloses jobs loop rest
  | .final _ :: rest =>
      match jobs.jobDone with
      | .error _ => []
      | .ok jobs => drainCloses jobs loop rest

/-- The coroutines that `cancel` closes. -/
def cancelCloses (jobs : JobQueue) (loop : Loop) : List Coroutine :=
  if jobs.state = .cancelled ∨ jobs.state = .completed then []
  else
    let jobs := jobs.markCancelled
    match jobs.active with
    | none => jobs.drainCloses loop jobs.queue
    | some id =>
        match cancelAwaitable loop (.task id) with
        | .error _ => []
        | .ok loop => drainCloses { jobs with active := none } loop jobs.queue

/-- `JobQueue.start`; starting twice raises. -/
def start (jobs : JobQueue) : JobQueue :=
  if jobs.runner = .notStarted then { jobs with runner := .getting } else jobs

end JobQueue

/-- What happens to the jobs of a queue. -/
inductive JobEvent
  /-- `enqueue` puts a job, `close` the last-minute jobs -/
  | enqueued (coroutine : Coroutine)
  | closing (last : List Coroutine)
  /-- `enqueue` or `close` closes a job because the queue is not open -/
  | refused (coroutine : Coroutine)
  /-- the runner makes a job a task -/
  | started (coroutine : Coroutine)
  /-- `cancel` closes a job that waits, and returns -/
  | dropped (coroutine : Coroutine)
  | cancelled
  /-- the runner stops at the final entry -/
  | stopped
  deriving DecidableEq

namespace JobEvent

/-- The jobs that the event puts in the queue. -/
def puts : JobEvent → List Coroutine
  | .enqueued coroutine => [coroutine]
  | .closing last => last
  | _ => []

def started? : JobEvent → Option Coroutine
  | .started coroutine => some coroutine
  | _ => none

def dropped? : JobEvent → Option Coroutine
  | .dropped coroutine => some coroutine
  | _ => none

def refused? : JobEvent → Option Coroutine
  | .refused coroutine => some coroutine
  | _ => none

/-- Nothing is put in the queue after the event. -/
def shuts : JobEvent → Bool
  | .closing _ | .refused _ | .cancelled | .stopped => true
  | _ => false

/-- Nothing is started after the event. -/
def halts : JobEvent → Bool
  | .cancelled | .stopped => true
  | _ => false

/-- The order in which events are allowed to happen. -/
def Precedes (earlier later : JobEvent) : Prop :=
  (earlier.shuts → later.puts = []) ∧ (earlier.halts → later.started? = none)

instance (earlier later : JobEvent) : Decidable (earlier.Precedes later) :=
  inferInstanceAs (Decidable (_ ∧ _))

end JobEvent

/-- A job queue with the tasks of its jobs.  The history is an observation. -/
structure JobRun where
  jobs : JobQueue
  loop : Loop
  history : List JobEvent

namespace JobRun

/-- How a task leaves off: it is suspended, or it has ended. -/
inductive Progress
  | suspends
  | ends (outcome : Outcome PyException)
  deriving DecidableEq

def Progress.status : Progress → TaskStatus PyException
  | .suspends => .suspended
  | .ends outcome => .done outcome

inductive Action
  | enqueue (coroutine : Coroutine)
  | close (result : PyException) (last : List Coroutine)
  | cancel (result : PyException)
  | start
  /-- the runner takes an entry, or resumes after a job; a callback runs -/
  | runnerGet
  | runnerWake
  | jobDone (id : TaskId)
  /-- the first ready task starts; a suspended task is resumed -/
  | taskStart (progress : Progress)
  | taskResume (id : TaskId) (progress : Progress)
  deriving DecidableEq

/-- What happens to the jobs in a call of `cancel`. -/
def cancelEvents (run : JobRun) (jobs : JobQueue) (result : PyException) : List JobEvent :=
  (jobs.cancelCloses run.loop).map .dropped ++
    match jobs.cancel run.loop result with
    | .returned _ _ => [.cancelled]
    | .raised _ _ => []

/-- A task has run; if its cancellation was requested, it has been delivered. -/
def progressed (run : JobRun) (id : TaskId) (progress : Progress) : JobRun :=
  let task := ⟨(run.loop.task id).body, progress.status, false⟩
  { run with loop := { run.loop with task := Function.update run.loop.task id task } }

/-- What happens to the jobs when the runner resumes. -/
def wakeEvents (run : JobRun) : List JobEvent :=
  match run.jobs.runner with
  | .awaiting id =>
      match (run.loop.task id).status with
      | .done (.failed exception) =>
          -- `_active_job` was reset, so that `cancel` meets the queued jobs only.
          run.cancelEvents { run.jobs with active := none } exception
      | _ => []
  | _ => []

def step (client : ClientRef) (run : JobRun) : Action → Option JobRun
  | .enqueue coroutine =>
      let call := run.jobs.enqueue run.loop (.coroutine coroutine)
      some ⟨call.state.1, call.state.2, run.history ++
        [if run.jobs.state = .opened then .enqueued coroutine else .refused coroutine]⟩
  | .close result last =>
      some { run with
        jobs := run.jobs.close result last
        history := run.history ++
          if run.jobs.state = .opened then [.closing last] else last.map .refused }
  | .cancel result =>
      let call := run.jobs.cancel run.loop result
      some ⟨call.state.1, call.state.2, run.history ++ run.cancelEvents run.jobs result⟩
  | .start => some { run with jobs := run.jobs.start }
  | .runnerGet =>
      (run.jobs.runnerGet run.loop client).map fun step =>
        ⟨step.jobs, step.loop, run.history ++
          match run.jobs.queue.head? with
          | some (.job (.coroutine coroutine)) => [.started coroutine]
          | some (.final _) => [.stopped]
          | _ => []⟩
  | .runnerWake =>
      (run.jobs.runnerWake run.loop).map fun step =>
        ⟨step.jobs, step.loop, run.history ++ run.wakeEvents⟩
  | .jobDone id => (run.jobs.runCallback run.loop id).map fun jobs => { run with jobs := jobs }
  | .taskStart progress =>
      match run.loop.ready with
      | [] => none
      | id :: rest =>
          let run := { run with loop := { run.loop with ready := rest } }
          if (run.loop.task id).cancelRequested then some (run.progressed id (.ends .cancelled))
          else some (run.progressed id progress)
  | .taskResume id progress =>
      if (run.loop.task id).status = .suspended then some (run.progressed id progress) else none

/-- A new queue on a loop without tasks. -/
def created : JobRun where
  jobs := .new
  loop := ⟨fun _ => ⟨.enqueue 0 .serverHello, .done .finished, false⟩, 0, []⟩
  history := []

/-- The runs of the job queue of a client. -/
def machine (client : ClientRef) : Machine JobRun Action :=
  ⟨fun run => run = created, step client⟩

section Observations

variable (run : JobRun)

/-- The jobs that were put in the queue, in the order of the queue. -/
def put : List Coroutine := run.history.flatMap JobEvent.puts

/-- The jobs that the runner has started, in this order. -/
def started : List Coroutine := run.history.filterMap JobEvent.started?

/-- The jobs that `cancel` has closed. -/
def dropped : List Coroutine := run.history.filterMap JobEvent.dropped?

/-- The jobs that were closed because the queue was not open. -/
def refused : List Coroutine := run.history.filterMap JobEvent.refused?

/-- A job has been started and has not ended. -/
def Running (id : TaskId) : Prop := id < run.loop.next ∧ run.loop.isDone id = false

end Observations

/-- The jobs of the queue are started in order and at most once, one at a time,
and every job is accounted for. -/
structure Orderly (client : ClientRef) (run : JobRun) : Prop where
  inOrder : run.started.Sublist run.put
  tasks : (List.range run.loop.next).map (fun id => (run.loop.task id).body) =
    run.started.map (.run client)
  oneRunning : ∀ id other, run.Running id → run.Running other → id = other
  accounted : run.put.Perm (run.started ++ run.dropped ++ run.jobs.waiting)
  refused : (run.put ++ run.refused).Nodup → ∀ coroutine ∈ run.refused, coroutine ∉ run.started
  ordered : run.history.Pairwise JobEvent.Precedes
  stopped : .stopped ∈ run.history → run.jobs.waiting = []

end JobRun

section Recorded

/-- What the history of a queue says about the jobs that wait in it. -/
structure Recorded (history : List JobEvent) (waiting : List Coroutine) (opened : Prop) :
    Prop where
  arrived : ∃ gone, history.flatMap JobEvent.puts = gone ++ waiting ∧
    (history.filterMap JobEvent.started?).Sublist gone ∧
    gone.Perm (history.filterMap JobEvent.started? ++ history.filterMap JobEvent.dropped?)
  shut : ∀ event ∈ history, event.shuts → ¬ opened
  halted : ∀ event ∈ history, event.halts → waiting = []
  ordered : history.Pairwise JobEvent.Precedes

namespace Recorded

variable {history : List JobEvent} {waiting : List Coroutine} {opened : Prop}
variable {coroutine : Coroutine}

theorem nil : Recorded [] [] opened :=
  ⟨⟨[], rfl, .slnil, .nil⟩, by simp, by simp, .nil⟩

theorem filterMap_started (event : JobEvent) :
    [event].filterMap JobEvent.started? = event.started?.toList := by
  cases same : event.started? <;> simp [same]

theorem filterMap_dropped (event : JobEvent) :
    [event].filterMap JobEvent.dropped? = event.dropped?.toList := by
  cases same : event.dropped? <;> simp [same]

theorem shuts_of_halts {event : JobEvent} (halts : event.halts) : event.shuts := by
  cases event <;> simp_all [JobEvent.halts, JobEvent.shuts]

/-- An event takes its jobs from the front of the queue or puts them at its end. -/
theorem snoc (recorded : Recorded history waiting opened) {event : JobEvent}
    {rest : List Coroutine} {still : Prop}
    (moved : waiting ++ event.puts =
      event.started?.toList ++ event.dropped?.toList ++ rest)
    (puts : event.puts ≠ [] → opened) (shuts : still → opened ∧ ¬ event.shuts)
    (halts : event.halts → rest = []) : Recorded (history ++ [event]) rest still := by
  obtain ⟨⟨gone, arrived, started, perm⟩, shut, halted, ordered⟩ := recorded
  have silent : ∀ earlier ∈ history, earlier.shuts → event.puts = [] := fun earlier mem closes =>
    by_contra fun nonempty => shut earlier mem closes (puts nonempty)
  -- Once the queue is halted, the event can move no job.
  have halt : ∀ earlier ∈ history, earlier.halts →
      event.started?.toList ++ event.dropped?.toList ++ rest = [] := by
    intro earlier mem stops
    rw [← moved, halted earlier mem stops, silent earlier mem (shuts_of_halts stops)]
    rfl
  refine ⟨⟨gone ++ (event.started?.toList ++ event.dropped?.toList), ?_, ?_, ?_⟩, ?_, ?_, ?_⟩
  · rw [List.flatMap_append, arrived, List.flatMap_singleton, List.append_assoc, moved]
    simp only [List.append_assoc]
  · rw [List.filterMap_append, filterMap_started]
    exact started.append (List.sublist_append_left _ _)
  · simp only [List.filterMap_append, filterMap_started, filterMap_dropped]
    rw [List.perm_iff_count] at perm ⊢
    intro coroutine
    simp only [List.count_append, perm coroutine]
    omega
  · intro earlier mem closes open_
    obtain ⟨wasOpen, silent⟩ := shuts open_
    rcases List.mem_append.mp mem with old | new
    · exact shut earlier old closes wasOpen
    · rw [List.mem_singleton.mp new] at closes
      exact silent closes
  · intro earlier mem stops
    rcases List.mem_append.mp mem with old | new
    · exact (List.append_eq_nil_iff.mp (halt earlier old stops)).2
    · rw [List.mem_singleton.mp new] at stops
      exact halts stops
  · rw [List.pairwise_append]
    refine ⟨ordered, List.pairwise_singleton _ _, fun earlier mem later new => ?_⟩
    rw [List.mem_singleton.mp new]
    refine ⟨silent earlier mem, fun stops => ?_⟩
    have nothing := (List.append_eq_nil_iff.mp (halt earlier mem stops)).1
    have started := (List.append_eq_nil_iff.mp nothing).1
    exact Option.toList_eq_nil_iff.mp started

theorem enqueue (recorded : Recorded history waiting opened) (open_ : opened) :
    Recorded (history ++ [.enqueued coroutine]) (waiting ++ [coroutine]) opened :=
  recorded.snoc rfl (fun _ => open_) (fun _ => ⟨open_, Bool.false_ne_true⟩)
    (absurd · Bool.false_ne_true)

theorem refuse (recorded : Recorded history waiting opened) (closed : ¬ opened)
    (refused : List Coroutine) :
    Recorded (history ++ refused.map .refused) waiting opened := by
  induction refused generalizing history with
  | nil => simpa using recorded
  | cons coroutine rest ih =>
      have first : Recorded (history ++ [.refused coroutine]) waiting opened :=
        recorded.snoc (List.append_nil _) (absurd rfl) (absurd · closed)
          (absurd · Bool.false_ne_true)
      simpa using ih first

theorem start (recorded : Recorded history (coroutine :: waiting) opened) :
    Recorded (history ++ [.started coroutine]) waiting opened :=
  recorded.snoc (List.append_nil _) (absurd rfl) (fun open_ => ⟨open_, Bool.false_ne_true⟩)
    (absurd · Bool.false_ne_true)

section Closed

variable {still : Prop} (closed : ¬ still)

include closed

theorem shutting (recorded : Recorded history waiting opened) : Recorded history waiting still :=
  ⟨recorded.arrived, fun _ _ _ => closed, recorded.halted, recorded.ordered⟩

theorem close (recorded : Recorded history waiting opened) (open_ : opened)
    (last : List Coroutine) : Recorded (history ++ [.closing last]) (waiting ++ last) still :=
  recorded.snoc rfl (fun _ => open_) (absurd · closed) (absurd · Bool.false_ne_true)

theorem stop (recorded : Recorded history [] opened) :
    Recorded (history ++ [.stopped]) [] still :=
  recorded.snoc rfl (absurd rfl) (absurd · closed) (fun _ => rfl)

theorem cancel (recorded : Recorded history waiting opened) :
    Recorded (history ++ (waiting.map .dropped ++ [.cancelled])) [] still := by
  induction waiting generalizing history with
  | nil => exact recorded.snoc rfl (absurd rfl) (absurd · closed) (fun _ => rfl)
  | cons coroutine rest ih =>
      have first : Recorded (history ++ [.dropped coroutine]) rest opened :=
        recorded.snoc (List.append_nil _) (absurd rfl)
          (fun open_ => ⟨open_, Bool.false_ne_true⟩) (absurd · Bool.false_ne_true)
      simpa using ih first

end Closed

end Recorded

end Recorded

section Shape

/-- The entry of a coroutine job. -/
def JobEntry.ofCoroutine (coroutine : Coroutine) : JobEntry := .job (.coroutine coroutine)

/-- What a queue of coroutine jobs holds in each state. -/
inductive QueueShape : JobQueueState → List JobEntry → Prop
  | opened (jobs : List Coroutine) : QueueShape .opened (jobs.map .ofCoroutine)
  | closed (jobs : List Coroutine) (result : PyException) :
      QueueShape .closed (jobs.map .ofCoroutine ++ [.final result])
  | emptied : QueueShape .cancelled []
  | cancelled (result : PyException) : QueueShape .cancelled [.final result]
  | completed : QueueShape .completed []

variable {state : JobQueueState} {queue : List JobEntry}

@[simp]
theorem filterMap_ofCoroutine (jobs : List Coroutine) :
    (jobs.map JobEntry.ofCoroutine).filterMap JobEntry.coroutine? = jobs := by
  rw [List.filterMap_map]
  exact List.filterMap_some

namespace QueueShape

theorem notTask (shape : QueueShape state queue) (id : TaskId) : .job (.task id) ∉ queue := by
  cases shape <;> simp [JobEntry.ofCoroutine]

theorem halted (shape : QueueShape state queue)
    (late : state = .cancelled ∨ state = .completed) :
    queue.filterMap JobEntry.coroutine? = [] := by
  cases shape <;> simp_all [JobEntry.coroutine?]

theorem put (shape : QueueShape state queue) (open_ : state = .opened)
    (coroutine : Coroutine) : QueueShape state (queue ++ [.ofCoroutine coroutine]) := by
  cases shape with
  | opened jobs => simpa using QueueShape.opened (jobs ++ [coroutine])
  | closed | emptied | cancelled | completed => contradiction

theorem close (shape : QueueShape state queue) (open_ : state = .opened)
    (last : List Coroutine) (result : PyException) :
    QueueShape .closed (queue ++ last.map .ofCoroutine ++ [.final result]) := by
  cases shape with
  | opened jobs => simpa using QueueShape.closed (jobs ++ last) result
  | closed | emptied | cancelled | completed => contradiction

theorem cancel (shape : QueueShape state queue)
    (early : ¬ (state = .cancelled ∨ state = .completed))
    (empty : queue.filterMap JobEntry.coroutine? = []) : QueueShape .cancelled queue := by
  cases shape with
  | opened jobs =>
      rw [filterMap_ofCoroutine] at empty
      rw [empty]
      exact .emptied
  | closed jobs result =>
      rw [List.filterMap_append, filterMap_ofCoroutine] at empty
      rw [(List.append_eq_nil_iff.mp empty).1]
      exact .cancelled result
  | emptied | cancelled | completed => simp at early

/-- The runner takes a job, and the queue keeps its state. -/
theorem tail {entry : JobEntry} {rest : List JobEntry}
    (shape : QueueShape state (entry :: rest)) :
    (∃ coroutine, entry = .ofCoroutine coroutine) ∧ QueueShape state rest ∨
      (∃ result, entry = .final result) ∧ rest = [] := by
  generalize same : entry :: rest = queue at shape
  cases shape with
  | opened jobs =>
      cases jobs with
      | nil => contradiction
      | cons coroutine jobs =>
          injection same with head tail
          subst head tail
          exact .inl ⟨⟨coroutine, rfl⟩, .opened jobs⟩
  | closed jobs result =>
      cases jobs with
      | nil =>
          injection same with head tail
          exact .inr ⟨⟨result, head⟩, tail⟩
      | cons coroutine jobs =>
          injection same with head tail
          subst head tail
          exact .inl ⟨⟨coroutine, rfl⟩, .closed jobs result⟩
  | cancelled result =>
      injection same with head tail
      exact .inr ⟨⟨result, head⟩, tail⟩
  | emptied | completed => contradiction

end QueueShape

end Shape

namespace JobQueue

variable (jobs : JobQueue) (loop : Loop)

/-- Without tasks in the queue, `_cancel` closes all that wait. -/
theorem drain_eq {entries : List JobEntry} (notTask : ∀ id, .job (.task id) ∉ entries)
    (counted : entries.length ≤ jobs.unfinished) :
    jobs.drain loop entries =
        .returned ({ jobs with
          queue := []
          unfinished := jobs.unfinished - entries.length }, loop) () ∧
      jobs.drainCloses loop entries = entries.filterMap JobEntry.coroutine? := by
  induction entries generalizing jobs with
  | nil => exact ⟨rfl, rfl⟩
  | cons entry rest ih =>
      have tasks : ∀ id, .job (.task id) ∉ rest :=
        fun id mem => notTask id (List.mem_cons_of_mem _ mem)
      rw [List.length_cons] at counted
      have done : jobs.jobDone = .ok { jobs with unfinished := jobs.unfinished - 1 } :=
        if_neg (by omega)
      obtain ⟨drained, closes⟩ :=
        ih { jobs with unfinished := jobs.unfinished - 1 } tasks (by dsimp only; omega)
      have fewer : jobs.unfinished - (rest.length + 1) = jobs.unfinished - 1 - rest.length := by
        omega
      rcases entry with ⟨coroutine | id⟩ | result
      · simp only [drain, drainCloses, done, drained, closes]
        simp [JobEntry.coroutine?, fewer]
      · exact absurd List.mem_cons_self (notTask id)
      · simp only [drain, drainCloses, done, drained, closes, List.length_cons, fewer, true_and]
        exact (List.filterMap_cons_none rfl).symm

/-- The queue is cancelled or has completed, so that `cancel` returns at once. -/
def Late : Prop := jobs.state = .cancelled ∨ jobs.state = .completed

/-- The active job has failed, and the runner has not resumed since. -/
def ActiveFailed (jobs : JobQueue) (loop : Loop) : Prop :=
  ∃ id ∈ jobs.active, ∃ exception, (loop.task id).status = .done (.failed exception)

instance : Decidable jobs.Late := inferInstanceAs (Decidable (_ ∨ _))

instance : Decidable (jobs.ActiveFailed loop) :=
  decidable_of_iff (jobs.active.any fun id =>
    match (loop.task id).status with
    | .done (.failed _) => true
    | _ => false) <| by
    unfold ActiveFailed
    cases jobs.active with
    | none => simp
    | some id =>
        cases status : (loop.task id).status with
        | done outcome => cases outcome <;> simp [status]
        | unstarted | suspended => simp [status]

/-- What a call of `cancel` does: nothing; or it raises what the active job has
raised, before any job is closed; or it closes the jobs that wait. -/
inductive CancelOutcome (jobs : JobQueue) (loop : Loop) (result : PyException) : Prop
  | late (late : jobs.Late) (called : jobs.cancel loop result = .returned (jobs, loop) ())
      (closes : jobs.cancelCloses loop = [])
  | raised (exception : PyException) (early : ¬ jobs.Late) (failed : jobs.ActiveFailed loop)
      (called : jobs.cancel loop result =
        .raised ({ jobs with state := .cancelled }, loop) exception)
      (closes : jobs.cancelCloses loop = [])
  | cancelled (after : Loop) (early : ¬ jobs.Late)
      (called : jobs.cancel loop result =
        .returned ({ jobs with
          state := .cancelled
          queue := [.final result]
          unfinished := jobs.unfinished - jobs.queue.length + 1
          active := none }, after) ())
      (requested : after = loop ∨ ∃ id, after = loop.requestCancel id)
      (closes : jobs.cancelCloses loop = jobs.waiting)

theorem cancelAwaitable_ok {loop after : Loop} {id : TaskId}
    (cancelled : cancelAwaitable loop (.task id) = .ok after) :
    after = loop ∨ after = loop.requestCancel id := by
  unfold cancelAwaitable at cancelled
  dsimp only at cancelled
  split at cancelled
  · contradiction
  · exact .inl (Except.ok.inj cancelled).symm
  · exact .inr (Except.ok.inj cancelled).symm

theorem cancelOutcome (result : PyException) (notTask : ∀ id, .job (.task id) ∉ jobs.queue)
    (counted : jobs.queue.length ≤ jobs.unfinished) : jobs.CancelOutcome loop result := by
  by_cases late : jobs.Late
  · exact .late late (if_pos late) (if_pos late)
  have early : ¬ (jobs.state = .cancelled ∨ jobs.state = .completed) := late
  have marked : jobs.markCancelled = { jobs with state := .cancelled } := by
    unfold markCancelled
    rw [if_neg fun completed => late (.inr completed)]
  cases activity : jobs.active with
  | none =>
      obtain ⟨drained, closes⟩ :=
        drain_eq { jobs with state := .cancelled, active := none } loop notTask counted
      refine .cancelled loop late ?_ (.inl rfl) ?_
      · unfold cancel cancelAll
        rw [if_neg early, marked]
        simp only [activity, drained, stop_eq]
        simp
      · unfold cancelCloses
        rw [if_neg early, marked]
        simp only [activity]
        exact closes
  | some id =>
      cases cancels : cancelAwaitable loop (.task id) with
      | error exception =>
          refine .raised exception late ⟨id, activity, exception, cancelAwaitable_error cancels⟩
            ?_ ?_
          · unfold cancel cancelAll
            rw [if_neg early, marked]
            simp only [activity, cancels]
          · unfold cancelCloses
            rw [if_neg early, marked]
            simp only [activity, cancels]
      | ok after =>
          obtain ⟨drained, closes⟩ :=
            drain_eq { jobs with state := .cancelled, active := none } after notTask counted
          refine .cancelled after late ?_
            ((cancelAwaitable_ok cancels).imp_right fun same => ⟨id, same⟩) ?_
          · unfold cancel cancelAll
            rw [if_neg early, marked]
            simp only [activity, cancels, drained, stop_eq]
            simp
          · unfold cancelCloses
            rw [if_neg early, marked]
            simp only [activity, cancels]
            exact closes

end JobQueue

namespace JobRun

/-- The runner holds one job that is not marked as done. -/
def awaits : Runner → Nat
  | .awaiting _ => 1
  | _ => 0

/-- What holds of the queue, the tasks and the history along every run that does
not cancel the queue while a failed job is active and others wait. -/
structure Sound (client : ClientRef) (run : JobRun) : Prop where
  shape : QueueShape run.jobs.state run.jobs.queue
  counted : run.jobs.unfinished =
    run.jobs.queue.length + run.jobs.callbacks.length + awaits run.jobs.runner
  active : ∀ id, run.jobs.active = some id → run.jobs.runner = .awaiting id
  running : ∀ id, run.loop.isDone id = false →
    id < run.loop.next ∧ run.jobs.runner = .awaiting id
  wellFormed : run.loop.WellFormed
  tasks : (List.range run.loop.next).map (fun id => (run.loop.task id).body) =
    run.started.map (.run client)
  recorded : Recorded run.history run.jobs.waiting (run.jobs.state = .opened)

section Steps

variable {client : ClientRef} {run after : JobRun}

theorem sound_created : (created).Sound client where
  shape := .opened []
  counted := rfl
  active _ active := nomatch active
  running _ running := nomatch running
  wellFormed := ⟨.nil, by simp [created], by simp [created]⟩
  tasks := rfl
  recorded := .nil

/-- A call that starts no job keeps the tasks in the order of the history. -/
theorem started_append {events : List JobEvent}
    (silent : events.filterMap JobEvent.started? = []) (jobs : JobQueue) (loop : Loop) :
    (JobRun.mk jobs loop (run.history ++ events)).started = run.started := by
  simp [started, silent]

theorem Sound.enqueue (sound : run.Sound client) {coroutine : Coroutine}
    (stepped : step client run (.enqueue coroutine) = some after) : after.Sound client := by
  obtain rfl := Option.some.inj stepped
  obtain ⟨shape, counted, active, running, wellFormed, tasks, recorded⟩ := sound
  by_cases open_ : run.jobs.state = .opened
  · simp only [JobQueue.enqueue, open_, if_true]
    refine ⟨?_, ?_, active, running, wellFormed, ?_, ?_⟩
    · change QueueShape run.jobs.state (run.jobs.queue ++ [.ofCoroutine coroutine])
      exact shape.put open_ coroutine
    · simp [JobQueue.put, counted]
      omega
    · rw [started_append rfl]
      exact tasks
    · have waiting : (run.jobs.put (.job (.coroutine coroutine))).waiting =
          run.jobs.waiting ++ [coroutine] := List.filterMap_append
      rw [Call.state_returned, waiting]
      exact recorded.enqueue open_
  · simp only [JobQueue.enqueue, open_, if_false]
    refine ⟨shape, counted, active, running, wellFormed, ?_, ?_⟩
    · rw [started_append rfl]
      exact tasks
    · exact recorded.refuse open_ [coroutine]

theorem Sound.close (sound : run.Sound client) {result : PyException} {last : List Coroutine}
    (stepped : step client run (.close result last) = some after) : after.Sound client := by
  obtain rfl := Option.some.inj stepped
  obtain ⟨shape, counted, active, running, wellFormed, tasks, recorded⟩ := sound
  rw [JobQueue.close_eq]
  by_cases open_ : run.jobs.state = .opened
  · simp only [open_, if_true]
    refine ⟨?_, ?_, active, running, wellFormed, ?_, ?_⟩
    · exact shape.close open_ last result
    · simp [counted]
      omega
    · rw [started_append rfl]
      exact tasks
    · have waiting : (run.jobs.queue ++ last.map JobEntry.ofCoroutine ++
          [JobEntry.final result]).filterMap JobEntry.coroutine? =
            run.jobs.waiting ++ last := by
        rw [List.filterMap_append, List.filterMap_append, filterMap_ofCoroutine]
        exact List.append_nil _
      have closed := recorded.close (by simp : ¬ JobQueueState.closed = .opened) open_ last
      rw [← waiting] at closed
      exact closed
  · simp only [open_, if_false]
    refine ⟨shape, counted, active, running, wellFormed, ?_, ?_⟩
    · rw [started_append (by simp [JobEvent.started?])]
      exact tasks
    · exact recorded.refuse open_ last

theorem Sound.start (sound : run.Sound client)
    (stepped : step client run .start = some after) : after.Sound client := by
  obtain rfl := Option.some.inj stepped
  obtain ⟨shape, counted, active, running, wellFormed, tasks, recorded⟩ := sound
  unfold JobQueue.start
  split
  · next unstarted =>
    rw [unstarted] at counted active running
    refine ⟨shape, counted, ?_, ?_, wellFormed, tasks, recorded⟩
    · exact fun id isActive => nomatch active id isActive
    · exact fun id isRunning => nomatch (running id isRunning).2
  · exact ⟨shape, counted, active, running, wellFormed, tasks, recorded⟩

/-- A call of `cancel` that does not meet a failed job while others wait. -/
theorem Sound.cancel (sound : run.Sound client) (result : PyException)
    (calm : run.jobs.Late ∨ ¬ run.jobs.ActiveFailed run.loop ∨ run.jobs.waiting = []) :
    (JobRun.mk (run.jobs.cancel run.loop result).state.1
      (run.jobs.cancel run.loop result).state.2
      (run.history ++ run.cancelEvents run.jobs result)).Sound client := by
  have outcome := run.jobs.cancelOutcome run.loop result sound.shape.notTask
    (by rw [sound.counted]; omega)
  obtain ⟨shape, counted, active, running, wellFormed, tasks, recorded⟩ := sound
  cases outcome with
  | late late called closes =>
      have halted : run.jobs.waiting = [] := shape.halted late
      have closed : ¬ run.jobs.state = .opened := by
        rcases late with same | same <;> simp [same]
      have events : run.cancelEvents run.jobs result = [].map .dropped ++ [.cancelled] := by
        simp [cancelEvents, called, closes]
      rw [called, events]
      refine ⟨shape, counted, active, running, wellFormed, ?_, ?_⟩
      · rw [started_append rfl]
        exact tasks
      · rw [halted] at recorded
        rw [Call.state_returned, halted]
        exact recorded.cancel closed
  | raised exception early failed called closes =>
      have empty : run.jobs.waiting = [] :=
        (calm.resolve_left early).resolve_left (not_not_intro failed)
      have events : run.cancelEvents run.jobs result = [] := by
        simp [cancelEvents, called, closes]
      rw [called, events, List.append_nil]
      exact ⟨shape.cancel early empty, counted, active, running, wellFormed, tasks,
        recorded.shutting (by simp)⟩
  | cancelled after early called requested closes =>
      have events : run.cancelEvents run.jobs result =
          run.jobs.waiting.map .dropped ++ [.cancelled] := by
        simp [cancelEvents, called, closes]
      have silent : (run.jobs.waiting.map JobEvent.dropped ++ [JobEvent.cancelled]).filterMap
          JobEvent.started? = [] := by
        simp [JobEvent.started?]
      rw [called, events]
      refine ⟨.cancelled result, ?_, ?_, ?_, ?_, ?_, recorded.cancel (by simp)⟩
      · simp [counted]
        omega
      · exact fun id isActive => nomatch isActive
      · rcases requested with rfl | ⟨id, rfl⟩
        · exact running
        · intro other isRunning
          rw [Call.state_returned, EventLoop.isDone_requestCancel] at isRunning
          simpa using running other isRunning
      · rcases requested with rfl | ⟨id, rfl⟩
        · exact wellFormed
        · exact wellFormed.requestCancel id
      · rw [started_append silent]
        rcases requested with rfl | ⟨id, rfl⟩
        · exact tasks
        · simpa using tasks

theorem isDone_spawn (loop : Loop) (body : TaskBody) (id : TaskId) :
    (loop.spawn body).isDone id = if id = loop.next then false else loop.isDone id := by
  by_cases same : id = loop.next <;> simp [EventLoop.isDone, EventLoop.spawn, same]

theorem Sound.runnerGet (sound : run.Sound client)
    (stepped : step client run .runnerGet = some after) : after.Sound client := by
  obtain ⟨step, taken, rfl⟩ := Option.map_eq_some_iff.mp stepped
  obtain ⟨shape, counted, active, running, wellFormed, tasks, recorded⟩ := sound
  have idle := JobQueue.getting_of_runnerGet taken
  cases queued : run.jobs.queue with
  | nil => simp [JobQueue.runnerGet, idle, queued] at taken
  | cons entry rest =>
      rw [queued] at shape counted
      rw [idle] at counted active running
      have waiting : run.jobs.waiting = (entry :: rest).filterMap JobEntry.coroutine? := by
        rw [JobQueue.waiting, queued]
      rw [waiting] at recorded
      rcases shape.tail with ⟨⟨coroutine, rfl⟩, shorter⟩ | ⟨⟨result, rfl⟩, rfl⟩
      · simp only [JobQueue.runnerGet, idle, queued, JobEntry.ofCoroutine, Option.some.injEq]
          at taken
        subst taken
        refine ⟨shorter, ?_, ?_, ?_, wellFormed.spawn _, ?_, recorded.start⟩
        · simp only [counted, awaits, List.length_cons]
          omega
        · intro id isActive
          rw [Option.some.inj isActive]
        · intro id isRunning
          rw [isDone_spawn] at isRunning
          split at isRunning
          · next fresh => exact ⟨by simp [EventLoop.spawn, fresh], by rw [fresh]⟩
          · cases (running id isRunning).2
        · have older : ∀ id ∈ List.range run.loop.next,
              ((run.loop.spawn (.run client coroutine)).task id).body =
                (run.loop.task id).body := fun id mem => by
            rw [EventLoop.task_spawn_of_lt (List.mem_range.mp mem)]
          have newest : (run.loop.spawn (.run client coroutine)).next = run.loop.next + 1 := rfl
          simp only [newest, List.range_succ, List.map_append, List.map_congr_left older, tasks]
          simp [started, JobEntry.ofCoroutine, JobEvent.started?, EventLoop.spawn]
      · have positive : run.jobs.unfinished ≠ 0 := by simp [counted]
        simp only [JobQueue.runnerGet, idle, queued, JobQueue.jobDone, if_neg positive,
          Option.some.injEq] at taken
        subst taken
        refine ⟨.completed, ?_, ?_, ?_, wellFormed, ?_, ?_⟩
        · simp [counted, awaits]
        · intro id isActive
          cases active id isActive
        · intro id isRunning
          cases (running id isRunning).2
        · rw [started_append rfl]
          exact tasks
        · exact recorded.stop (by simp)

/-- The runner resumes after a job that was active. -/
theorem Sound.resumed (sound : run.Sound client) {id : TaskId}
    (awaiting : run.jobs.runner = .awaiting id) (inactive : run.jobs.active = none)
    (done : run.loop.isDone id = true) (unfinished : Nat) (callbacks : List TaskId)
    (counted : run.jobs.unfinished = run.jobs.queue.length + run.jobs.callbacks.length + 1 →
      unfinished = run.jobs.queue.length + callbacks.length) :
    Sound client { run with jobs := { run.jobs with
      unfinished := unfinished
      runner := .getting
      callbacks := callbacks } } := by
  obtain ⟨shape, total, active, running, wellFormed, tasks, recorded⟩ := sound
  rw [awaiting] at total running
  refine ⟨shape, counted total, ?_, ?_, wellFormed, tasks, recorded⟩
  · intro other isActive
    rw [inactive] at isActive
    contradiction
  · intro other isRunning
    obtain rfl := Runner.awaiting.inj (running other isRunning).2
    rw [done] at isRunning
    contradiction

theorem cancel_calm {jobs : JobQueue} {loop : Loop} {result : PyException}
    (outcome : jobs.CancelOutcome loop result) (inactive : jobs.active = none) (id : TaskId) :
    ∃ state, jobs.cancel loop result = .returned state () ∧ state.1.runner = jobs.runner ∧
      state.1.active = none ∧ state.2.isDone id = loop.isDone id := by
  cases outcome with
  | late late called closes => exact ⟨_, called, rfl, inactive, rfl⟩
  | raised exception early failed called closes =>
      obtain ⟨id, isActive, _⟩ := failed
      rw [inactive] at isActive
      contradiction
  | cancelled after early called requested closes =>
      refine ⟨_, called, rfl, rfl, ?_⟩
      rcases requested with rfl | ⟨other, rfl⟩
      · rfl
      · exact EventLoop.isDone_requestCancel ..

theorem runnerWake_failed {jobs : JobQueue} {loop : Loop} {id : TaskId}
    {exception : PyException} {state : JobQueue × Loop}
    (awaiting : jobs.runner = .awaiting id)
    (failed : (loop.task id).status = .done (.failed exception))
    (called : { jobs with active := none }.cancel loop exception = .returned state ()) :
    jobs.runnerWake loop = some ⟨{ state.1 with
      runner := .getting
      callbacks := state.1.callbacks ++ [id] }, state.2, some exception⟩ := by
  obtain ⟨_, _, _, runner, _, _⟩ := jobs
  obtain rfl : runner = .awaiting id := awaiting
  simp only [JobQueue.runnerWake, failed, called]

theorem wakeEvents_failed {id : TaskId} {exception : PyException}
    (awaiting : run.jobs.runner = .awaiting id)
    (failed : (run.loop.task id).status = .done (.failed exception)) :
    run.wakeEvents = run.cancelEvents { run.jobs with active := none } exception := by
  obtain ⟨⟨_, _, _, runner, _, _⟩, loop, history⟩ := run
  obtain rfl : runner = .awaiting id := awaiting
  dsimp only at failed
  simp only [wakeEvents, failed]

theorem Sound.runnerWake (sound : run.Sound client)
    (stepped : step client run .runnerWake = some after) : after.Sound client := by
  obtain ⟨step, taken, rfl⟩ := Option.map_eq_some_iff.mp stepped
  have reset : Sound client { run with jobs := { run.jobs with active := none } } :=
    { sound with active := fun id isActive => nomatch isActive }
  cases awaiting : run.jobs.runner with
  | awaiting id =>
      cases status : (run.loop.task id).status with
      | done outcome =>
          have done : run.loop.isDone id = true := by simp [EventLoop.isDone, status]
          have total : run.jobs.unfinished =
              run.jobs.queue.length + run.jobs.callbacks.length + 1 := by
            rw [sound.counted, awaiting, awaits]
          cases outcome with
          | finished =>
              have positive : run.jobs.unfinished ≠ 0 := by omega
              simp only [JobQueue.runnerWake, awaiting, status, JobQueue.jobDone,
                if_neg positive, Option.some.injEq] at taken
              subst taken
              simp only [wakeEvents, awaiting, status, List.append_nil]
              exact reset.resumed awaiting rfl done _ _ fun _ => by dsimp only; omega
          | cancelled =>
              simp only [JobQueue.runnerWake, awaiting, status, Option.some.injEq] at taken
              subst taken
              simp only [wakeEvents, awaiting, status, List.append_nil]
              exact reset.resumed awaiting rfl done _ (_ ++ [id]) fun _ => by simp; omega
          | failed exception =>
              have cancelled := reset.cancel exception (.inr (.inl fun failed => by
                obtain ⟨_, isActive, _⟩ := failed
                contradiction))
              obtain ⟨state, called, runner, inactive, same⟩ := cancel_calm
                (JobQueue.cancelOutcome _ run.loop exception reset.shape.notTask
                  (by rw [reset.counted]; omega)) rfl id
              rw [called] at cancelled
              rw [runnerWake_failed awaiting status called, Option.some.injEq] at taken
              subst taken
              rw [wakeEvents_failed awaiting status]
              refine cancelled.resumed (runner.trans awaiting) inactive (same.trans done)
                state.1.unfinished (state.1.callbacks ++ [id]) fun count => ?_
              rw [List.length_append]
              exact count
      | unstarted | suspended => simp [JobQueue.runnerWake, awaiting, status] at taken
  | notStarted | getting | finished | failed => simp [JobQueue.runnerWake, awaiting] at taken

theorem Sound.jobDone (sound : run.Sound client) {id : TaskId}
    (stepped : step client run (.jobDone id) = some after) : after.Sound client := by
  obtain ⟨jobs, taken, rfl⟩ := Option.map_eq_some_iff.mp stepped
  obtain ⟨shape, counted, active, running, wellFormed, tasks, recorded⟩ := sound
  unfold JobQueue.runCallback at taken
  split at taken
  · next callback =>
    have length := List.length_erase_of_mem callback.1
    have some_ := List.length_pos_of_mem callback.1
    have positive : run.jobs.unfinished ≠ 0 := by omega
    simp only [JobQueue.jobDone, if_neg positive, Option.some.injEq] at taken
    subst taken
    refine ⟨shape, ?_, active, running, wellFormed, tasks, recorded⟩
    dsimp only
    omega
  · contradiction

/-- A task runs, and the other tasks stay as they are. -/
theorem Sound.progressed (sound : run.Sound client) {id : TaskId} {progress : Progress}
    (alive : run.loop.isDone id = false) {ready : List TaskId}
    (wellFormed : EventLoop.WellFormed
      { (run.progressed id progress).loop with ready := ready }) :
    ({ run with loop := { (run.progressed id progress).loop with ready := ready } }
      : JobRun).Sound client := by
  obtain ⟨shape, counted, active, running, _, tasks, recorded⟩ := sound
  refine ⟨shape, counted, active, ?_, wellFormed, ?_, recorded⟩
  · intro other isRunning
    by_cases same : other = id
    · subst same
      exact running other alive
    · apply running other
      simpa [EventLoop.isDone, JobRun.progressed, same] using isRunning
  · have bodies : ∀ other,
        ((run.progressed id progress).loop.task other).body = (run.loop.task other).body := by
      intro other
      by_cases same : other = id <;> simp [JobRun.progressed, same]
    simp only [bodies]
    exact tasks

theorem progress_status (progress : Progress) : progress.status ≠ .unstarted := by
  cases progress <;> simp [Progress.status]

theorem status_progressed (run : JobRun) (id : TaskId) (progress : Progress) (other : TaskId) :
    ((run.progressed id progress).loop.task other).status =
      ((run.loop.setStatus id progress.status).task other).status := by
  by_cases same : other = id <;> simp [JobRun.progressed, EventLoop.setStatus, same]

theorem Sound.taskStart (sound : run.Sound client) {progress : Progress}
    (stepped : step client run (.taskStart progress) = some after) : after.Sound client := by
  unfold step at stepped
  cases ready : run.loop.ready with
  | nil => simp [ready] at stepped
  | cons id rest =>
      have alive : run.loop.isDone id = false := by
        have unstarted := sound.wellFormed.ready_unstarted (by rw [ready]; exact List.mem_cons_self)
        simp [EventLoop.isDone, unstarted]
      have wellFormed : ∀ progress : Progress, EventLoop.WellFormed
          { (run.progressed id progress).loop with ready := rest } := fun progress =>
        (sound.wellFormed.pop ready (progress_status progress)).of_status
          (by simp [EventLoop.setStatus, EventLoop.pop, ready]) rfl (run.status_progressed id progress)
      simp only [ready] at stepped
      split at stepped
      · obtain rfl := Option.some.inj stepped
        exact sound.progressed alive (wellFormed (.ends .cancelled))
      · obtain rfl := Option.some.inj stepped
        exact sound.progressed alive (wellFormed progress)

theorem Sound.taskResume (sound : run.Sound client) {id : TaskId} {progress : Progress}
    (stepped : step client run (.taskResume id progress) = some after) :
    after.Sound client := by
  unfold step at stepped
  dsimp only at stepped
  split at stepped
  · next suspended =>
    obtain rfl := Option.some.inj stepped
    have alive : run.loop.isDone id = false := by simp [EventLoop.isDone, suspended]
    have wellFormed : (run.progressed id progress).loop.WellFormed :=
      (sound.wellFormed.setStatus (by simp [suspended]) (progress_status progress)).of_status
        rfl rfl (run.status_progressed id progress)
    exact sound.progressed alive wellFormed
  · contradiction

end Steps

/-- The call of `cancel` that stops short: the active job has failed, so that the
call raises what the job has raised, and jobs are left in the queue. -/
def CutsShort (run : JobRun) : Action → Prop
  | .cancel _ => ¬ run.jobs.Late ∧ run.jobs.ActiveFailed run.loop ∧ run.jobs.waiting ≠ []
  | _ => False

instance (run : JobRun) (action : Action) : Decidable (run.CutsShort action) := by
  unfold CutsShort
  split <;> infer_instance

theorem Sound.step {client : ClientRef} {run after : JobRun} (sound : run.Sound client)
    {action : Action} (allowed : ¬ run.CutsShort action)
    (stepped : JobRun.step client run action = some after) : after.Sound client := by
  cases action with
  | enqueue coroutine => exact sound.enqueue stepped
  | close result last => exact sound.close stepped
  | cancel result =>
      obtain rfl := Option.some.inj stepped
      apply sound.cancel result
      by_contra cuts
      simp only [not_or, not_not] at cuts
      exact allowed cuts
  | start => exact sound.start stepped
  | runnerGet => exact sound.runnerGet stepped
  | runnerWake => exact sound.runnerWake stepped
  | jobDone id => exact sound.jobDone stepped
  | taskStart progress => exact sound.taskStart stepped
  | taskResume id progress => exact sound.taskResume stepped

/-- The runs of the queue in which no call of `cancel` stops short. -/
theorem sound_of_reach {client : ClientRef} {run : JobRun}
    (reach : (machine client).Reach (fun run action => ¬ run.CutsShort action) run) :
    run.Sound client := by
  apply reach.invariant (fun run => run.Sound client)
  · rintro run rfl
    exact sound_created
  · exact fun before after action _ allowed sound stepped => sound.step allowed stepped

theorem Sound.orderly {client : ClientRef} {run : JobRun} (sound : run.Sound client) :
    run.Orderly client := by
  obtain ⟨shape, counted, active, running, wellFormed, tasks, recorded⟩ := sound
  obtain ⟨⟨gone, arrived, started, perm⟩, shut, halted, ordered⟩ := recorded
  have sublist : run.started.Sublist run.put := by
    change run.started.Sublist (run.history.flatMap JobEvent.puts)
    rw [arrived]
    exact started.trans (List.sublist_append_left _ _)
  refine ⟨sublist, tasks, ?_, ?_, ?_, ordered, ?_⟩
  · intro id other one two
    have awaits := (running id one.2).2
    rw [(running other two.2).2] at awaits
    exact (Runner.awaiting.inj awaits).symm
  · change (run.history.flatMap JobEvent.puts).Perm _
    rw [arrived]
    exact perm.append_right _
  · intro distinct coroutine refused isStarted
    exact List.disjoint_of_nodup_append distinct (sublist.subset isStarted) refused
  · exact fun stopped => halted .stopped stopped rfl

theorem waiting_head {jobs : JobQueue} (shape : QueueShape jobs.state jobs.queue)
    (waiting : jobs.waiting ≠ []) :
    ∃ coroutine rest, jobs.queue = .ofCoroutine coroutine :: rest := by
  unfold JobQueue.waiting at waiting
  cases queued : jobs.queue with
  | nil => simp [queued] at waiting
  | cons entry rest =>
      rw [queued] at shape waiting
      rcases shape.tail with ⟨⟨coroutine, rfl⟩, _⟩ | ⟨⟨result, rfl⟩, rfl⟩
      · exact ⟨coroutine, rest, rfl⟩
      · simp [JobEntry.coroutine?] at waiting

/-- The condition is exact: after a call of `cancel` that stops short, the runner's own
call returns and the runner goes on with the next job. -/
theorem CutsShort.disorder {client : ClientRef} {run : JobRun} {result : PyException}
    (sound : run.Sound client) (cuts : run.CutsShort (.cancel result)) :
    ∃ after, (machine client).run run [.cancel result, .runnerWake, .runnerGet] = some after ∧
      ¬ after.Orderly client := by
  obtain ⟨early, ⟨id, isActive, exception, failed⟩, waiting⟩ := cuts
  have awaiting := sound.active id isActive
  obtain ⟨coroutine, rest, queued⟩ := waiting_head sound.shape waiting
  obtain ⟨⟨state, queue, unfinished, runner, active, callbacks⟩, loop, history⟩ := run
  obtain rfl : active = some id := isActive
  obtain rfl : runner = .awaiting id := awaiting
  obtain rfl : queue = .ofCoroutine coroutine :: rest := queued
  dsimp only at failed
  have active : state ≠ .cancelled := fun same => early (.inl same)
  have running : state ≠ .completed := fun same => early (.inr same)
  let queue := JobEntry.ofCoroutine coroutine :: rest
  have raised : (machine client).step
      ⟨⟨state, queue, unfinished, .awaiting id, some id, callbacks⟩, loop, history⟩
      (.cancel result) =
      some ⟨⟨.cancelled, queue, unfinished, .awaiting id, some id, callbacks⟩, loop, history⟩ := by
    simp [machine, step, cancelEvents, JobQueue.cancel, JobQueue.cancelCloses, JobQueue.cancelAll,
      JobQueue.markCancelled, cancelAwaitable, active, running, failed]
  have resumes : (machine client).step
      ⟨⟨.cancelled, queue, unfinished, .awaiting id, some id, callbacks⟩, loop, history⟩
      .runnerWake =
      some ⟨⟨.cancelled, queue, unfinished, .getting, none, callbacks ++ [id]⟩, loop,
        history ++ [.cancelled]⟩ := by
    simp [machine, step, cancelEvents, wakeEvents, JobQueue.cancel, JobQueue.cancelCloses,
      JobQueue.runnerWake, failed]
  have starts : (machine client).step
      ⟨⟨.cancelled, queue, unfinished, .getting, none, callbacks ++ [id]⟩, loop,
        history ++ [.cancelled]⟩ .runnerGet =
      some ⟨⟨.cancelled, rest, unfinished, .awaiting loop.next, some loop.next,
        callbacks ++ [id]⟩, loop.spawn (.run client coroutine),
        history ++ [.cancelled] ++ [.started coroutine]⟩ := rfl
  refine ⟨_, (Machine.run_of_step raised _).trans ((Machine.run_of_step resumes _).trans
    (Machine.run_of_step starts _)), fun orderly => ?_⟩
  have ordered : (history ++ [JobEvent.cancelled] ++ [JobEvent.started coroutine]).Pairwise
      JobEvent.Precedes := orderly.ordered
  rw [List.pairwise_append] at ordered
  have precedes := ordered.2.2 .cancelled (List.mem_append_right _ List.mem_cons_self)
    (.started coroutine) List.mem_cons_self
  cases precedes.2 rfl

/-- Along every run in which no call of `cancel` finds the active job failed while
others wait, jobs are started in order, at most once and one at a time, none is
started after a call of `cancel`, and the others are closed or wait. -/
theorem jobs_in_order {client : ClientRef} {run : JobRun}
    (reach : (machine client).Reach (fun run action => ¬ run.CutsShort action) run) :
    run.Orderly client :=
  (sound_of_reach reach).orderly

/-- The first job ignores its cancellation once, and the last-minute jobs are closed. -/
def lastMinuteCancel : List Action :=
  [.start, .enqueue (.send .serverHello none), .runnerGet, .taskStart .suspends,
    .close (.disconnected 1001) [.close .goingAway], .cancel (.disconnected 1000),
    .taskResume 0 .suspends, .taskResume 0 (.ends .cancelled), .runnerWake, .runnerGet,
    .jobDone 0]

theorem jobs_in_order_lastMinute :
    ∃ run, (machine 0).run created lastMinuteCancel = some run ∧
      run.history = [.enqueued (.send .serverHello none), .started (.send .serverHello none),
        .closing [.close .goingAway], .dropped (.close .goingAway), .cancelled, .stopped] ∧
      run.Orderly 0 :=
  ⟨_, rfl, rfl, jobs_in_order (Machine.reach_run (.start rfl) lastMinuteCancel (by decide) rfl)⟩

/-- Two jobs wait, the first ends with an exception, and the queue is cancelled before
the runner has resumed. -/
def overtakingCancel : List Action :=
  [.enqueue (.send .serverHello none), .enqueue (.close .goingAway), .start, .runnerGet,
    .taskStart (.ends (.failed (.disconnected 1000))), .cancel (.disconnected 1001),
    .runnerWake, .runnerGet]

/-- The second job is started although the runner's own call of `cancel` has
returned. -/
theorem job_started_after_cancel :
    ∃ run, (machine 0).run created overtakingCancel = some run ∧
      run.history = [.enqueued (.send .serverHello none), .enqueued (.close .goingAway),
        .started (.send .serverHello none), .cancelled, .started (.close .goingAway)] ∧
      ¬ run.Orderly 0 := by
  refine ⟨_, rfl, rfl, fun orderly => ?_⟩
  have ordered := orderly.ordered
  revert ordered
  decide

end JobRun

end SaltyRtcServer
