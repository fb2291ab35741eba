import SaltyRtcServer.EventLoop
import SaltyRtcServer.Message

/-!
# Job queues

`task.JobQueue` holds jobs of two kinds: coroutines, which run only when the
runner reaches them, and tasks, which the event loop has already scheduled.  A
coroutine carries the number of the message it sends, so that a message can be
followed from the call of `enqueue` to the connection.
-/

namespace SaltyRtcServer

/-- A coroutine of a client that runs as a job: `client.send(message)` or
`client.close(code)`. -/
inductive Coroutine
  | send (message : OutgoingMessage) (number : Option Nat)
  | close (code : CloseCode)
  deriving DecidableEq

/-- What the tasks of the event loop execute: a coroutine of a client, or
`client.jobs.enqueue(client.send(message))`. -/
inductive TaskBody
  | run (client : ClientRef) (coroutine : Coroutine)
  | enqueue (client : ClientRef) (message : OutgoingMessage)
  deriving DecidableEq

abbrev Loop := EventLoop TaskBody PyException

inductive Job
  | coroutine (coroutine : Coroutine)
  | task (id : TaskId)
  deriving DecidableEq

/-- An entry of the queue: a job, or the `FinalJob` that stops the runner. -/
inductive JobEntry
  | job (job : Job)
  | final (result : PyException)
  deriving DecidableEq

/-- The message of a coroutine that is still to be sent. -/
def JobEntry.message? : JobEntry → Option (OutgoingMessage × Option Nat)
  | .job (.coroutine (.send message number)) => some (message, number)
  | _ => none

inductive JobQueueState
  | opened
  | closed
  | cancelled
  | completed
  deriving DecidableEq

/-- Where `JobQueue._run` is suspended, or how it ended. -/
inductive Runner
  | notStarted
  | getting
  | awaiting (job : TaskId)
  | finished
  | failed (exception : PyException)
  deriving DecidableEq

/-- `task.JobQueue`.  `unfinished` is the counter of the queue's own
`task_done`, and `callbacks` are the tasks that have `_job_done` as a done
callback. -/
structure JobQueue where
  state : JobQueueState
  queue : List JobEntry
  unfinished : Nat
  runner : Runner
  active : Option TaskId
  callbacks : List TaskId

/-- `util.cancel_awaitable`.  The exception of a task that has failed is raised
again when its result is logged. -/
def cancelAwaitable (loop : Loop) : Job → Except PyException Loop
  | .coroutine _ => .ok loop
  | .task id =>
      match (loop.task id).status with
      | .done (.failed exception) => .error exception
      | .done _ => .ok loop
      | _ => .ok (loop.requestCancel id)

namespace JobQueue

/-- `JobQueue(log, loop)`. -/
def new : JobQueue := ⟨.opened, [], 0, .notStarted, none, []⟩

/-- `put_nowait` of an unbounded queue, which `await put` amounts to. -/
def put (jobs : JobQueue) (entry : JobEntry) : JobQueue :=
  { jobs with queue := jobs.queue ++ [entry], unfinished := jobs.unfinished + 1 }

/-- `JobQueue._job_done`. -/
def jobDone (jobs : JobQueue) : Except PyException JobQueue :=
  if jobs.unfinished = 0 then
    .error (.internalError "More jobs marked as done as were enqueued")
  else .ok { jobs with unfinished := jobs.unfinished - 1 }

/-- `JobQueue.enqueue`. -/
def enqueue (jobs : JobQueue) (loop : Loop) (job : Job) : Call (JobQueue × Loop) Unit :=
  if jobs.state = .opened then .returned (jobs.put (.job job), loop) ()
  else
    match cancelAwaitable loop job with
    | .error exception => .raised (jobs, loop) exception
    | .ok loop => .returned (jobs, loop) ()

/-- `JobQueue._stop`. -/
def stop (jobs : JobQueue) (result : PyException) (last : List Coroutine) : JobQueue :=
  (last.foldl (fun jobs coroutine => jobs.put (.job (.coroutine coroutine))) jobs).put
    (.final result)

/-- `JobQueue.close`; the last-minute jobs are coroutines, which are closed
without effect when the queue is no longer open. -/
def close (jobs : JobQueue) (result : PyException) (last : List Coroutine) : JobQueue :=
  if jobs.state = .opened then { jobs with state := .closed }.stop result last else jobs

/-- The loop of `JobQueue._cancel` over the entries of the queue. -/
def drain (jobs : JobQueue) (loop : Loop) : List JobEntry → Call (JobQueue × Loop) Unit
  | [] => .returned ({ jobs with queue := [] }, loop) ()
  | .job (.task id) :: rest =>
      match cancelAwaitable loop (.task id) with
      | .error exception => .raised ({ jobs with queue := rest }, loop) exception
      | .ok loop => drain { jobs with callbacks := jobs.callbacks ++ [id] } loop rest
  | _ :: rest =>
      match jobs.jobDone with
      | .error exception => .raised ({ jobs with queue := rest }, loop) exception
      | .ok jobs => drain jobs loop rest

/-- `_cancel` marks a queue as cancelled unless it has completed. -/
def markCancelled (jobs : JobQueue) : JobQueue :=
  { jobs with state := if jobs.state = .completed then .completed else .cancelled }

/-- `JobQueue._cancel`. -/
def cancelAll (jobs : JobQueue) (loop : Loop) : Call (JobQueue × Loop) Unit :=
  let jobs := jobs.markCancelled
  match jobs.active with
  | none => jobs.drain loop jobs.queue
  | some id =>
      match cancelAwaitable loop (.task id) with
      | .error exception => .raised (jobs, loop) exception
      | .ok loop => drain { jobs with active := none } loop jobs.queue

/-- `JobQueue.cancel`. -/
def cancel (jobs : JobQueue) (loop : Loop) (result : PyException) :
    Call (JobQueue × Loop) Unit :=
  if jobs.state = .cancelled ∨ jobs.state = .completed then .returned (jobs, loop) ()
  else
    match jobs.cancelAll loop with
    | .raised state exception => .raised state exception
    | .returned (jobs, loop) _ => .returned (jobs.stop result [], loop) ()

/-- The task is an entry of the queue, or the runner or a callback waits for it. -/
def Refers (jobs : JobQueue) (id : TaskId) : Prop :=
  .job (.task id) ∈ jobs.queue ∨ jobs.active = some id ∨ jobs.runner = .awaiting id ∨
    id ∈ jobs.callbacks

/-- The messages that wait in the queue as coroutines. -/
def sends (jobs : JobQueue) : List (OutgoingMessage × Option Nat) :=
  jobs.queue.filterMap JobEntry.message?

theorem sends_put (jobs : JobQueue) (entry : JobEntry) :
    (jobs.put entry).sends = jobs.sends ++ entry.message?.toList := by
  simp only [put, sends, List.filterMap_append]
  cases message : entry.message? <;> simp [message]

/-- No message and no task was added to the queue, and it was not opened. -/
structure Shrinks (before after : JobQueue) : Prop where
  opened : after.state = .opened → before.state = .opened
  sends : after.sends.Sublist before.sends
  refers : ∀ id, after.Refers id → before.Refers id

theorem Shrinks.refl (jobs : JobQueue) : jobs.Shrinks jobs :=
  ⟨id, List.Sublist.refl _, fun _ => id⟩

theorem Shrinks.trans {first second third : JobQueue} (one : first.Shrinks second)
    (two : second.Shrinks third) : first.Shrinks third :=
  ⟨fun opened => one.opened (two.opened opened), two.sends.trans one.sends,
    fun id refers => one.refers id (two.refers id refers)⟩

theorem cancelAwaitable_extends {loop after : Loop} {id : TaskId}
    (cancelled : cancelAwaitable loop (.task id) = .ok after) {spawned : TaskBody → Prop}
    {may : TaskId → Prop} (mayCancel : may id) : loop.Extends spawned may after := by
  unfold cancelAwaitable at cancelled
  dsimp only at cancelled
  split at cancelled
  · contradiction
  · injection cancelled with same
    subst same
    exact .refl loop
  · injection cancelled with same
    subst same
    exact .requestCancel mayCancel

theorem cancelAwaitable_error {loop : Loop} {id : TaskId} {exception : PyException}
    (raised : cancelAwaitable loop (.task id) = .error exception) :
    (loop.task id).status = .done (.failed exception) := by
  unfold cancelAwaitable at raised
  grind

section Drain

variable (jobs : JobQueue) (loop : Loop) (entries : List JobEntry)

/-- What `_cancel` does to the entries of the queue; the rest of the queue stays
as it is. -/
structure Drained (before : JobQueue) (loop : Loop) (entries : List JobEntry)
    (after : JobQueue × Loop) : Prop where
  state : after.1.state = before.state
  runner : after.1.runner = before.runner
  active : after.1.active = before.active
  queue : after.1.queue <:+ entries
  callbacks : ∀ id ∈ after.1.callbacks, id ∈ before.callbacks ∨ .job (.task id) ∈ entries
  loop : loop.Extends (fun _ => False) (fun id => .job (.task id) ∈ entries) after.2

theorem jobDone_ok {jobs after : JobQueue} (done : jobs.jobDone = .ok after) :
    jobs.unfinished ≠ 0 ∧ after = { jobs with unfinished := jobs.unfinished - 1 } := by
  unfold jobDone at done
  split at done
  · contradiction
  · next positive =>
    injection done with same
    exact ⟨positive, same.symm⟩

theorem drained : jobs.Drained loop entries (jobs.drain loop entries).state := by
  fun_induction drain jobs loop entries with
  | case1 jobs loop =>
      exact ⟨rfl, rfl, rfl, List.suffix_refl _, fun id mem => .inl mem, .refl loop⟩
  | case2 jobs loop id rest exception cancelled =>
      exact ⟨rfl, rfl, rfl, List.suffix_cons _ _, fun id mem => .inl mem, .refl loop⟩
  | case3 jobs loop id rest after cancelled ih =>
      obtain ⟨state, runner, active, queue, callbacks, loops⟩ := ih
      refine ⟨state, runner, active, queue.trans (List.suffix_cons _ _), ?_, ?_⟩
      · grind
      · have requested : loop.Extends (fun _ => False)
            (fun other => .job (.task other) ∈ JobEntry.job (.task id) :: rest) after :=
          cancelAwaitable_extends cancelled List.mem_cons_self
        exact requested.trans
          (loops.mono (fun _ => False.elim) fun other mem => List.mem_cons_of_mem _ mem)
  | case4 jobs loop entry rest notTask exception done =>
      exact ⟨rfl, rfl, rfl, List.suffix_cons _ _, fun id mem => .inl mem, .refl loop⟩
  | case5 jobs loop entry rest notTask after done ih =>
      obtain ⟨_, rfl⟩ := jobDone_ok done
      obtain ⟨state, runner, active, queue, callbacks, loops⟩ := ih
      refine ⟨state, runner, active, queue.trans (List.suffix_cons _ _), ?_, ?_⟩
      · grind
      · exact loops.mono (fun _ => False.elim) fun other mem => List.mem_cons_of_mem _ mem

theorem drain_returned {after : JobQueue × Loop} {value : Unit}
    (returned : jobs.drain loop entries = .returned after value) : after.1.queue = [] := by
  fun_induction drain jobs loop entries with
  | case1 jobs loop =>
      injection returned with same
      rw [← same]
  | case2 | case4 => contradiction
  | case3 _ _ _ _ _ _ ih | case5 _ _ _ _ _ _ _ ih => exact ih returned

end Drain

theorem sends_sublist {before after : JobQueue} (suffix : after.queue <:+ before.queue) :
    after.sends.Sublist before.sends :=
  suffix.sublist.filterMap _

theorem Drained.shrinks {before : JobQueue} {loop : Loop} {entries : List JobEntry}
    {after : JobQueue × Loop} (drained : before.Drained loop entries after)
    (same : entries = before.queue) : before.Shrinks after.1 := by
  obtain ⟨state, runner, active, queue, callbacks, _⟩ := drained
  subst same
  refine ⟨fun opened => state ▸ opened, sends_sublist queue, ?_⟩
  have mem := queue.subset
  unfold Refers
  grind

section Cancel

variable (jobs : JobQueue) (loop : Loop)

/-- Every way out of `_cancel`: an active job that has failed stops it, or the
entries of the queue are cancelled. -/
theorem cancelAll_cases :
    (∃ id exception, jobs.active = some id ∧
        (loop.task id).status = .done (.failed exception) ∧
        jobs.cancelAll loop = .raised (jobs.markCancelled, loop) exception) ∨
      ∃ current : Loop, loop.Extends (fun _ => False) (fun id => jobs.active = some id) current ∧
        jobs.cancelAll loop =
          { jobs.markCancelled with active := none }.drain current jobs.queue := by
  unfold cancelAll
  cases activity : jobs.active with
  | none =>
      right
      refine ⟨loop, .refl loop, ?_⟩
      simp [markCancelled, activity]
  | some id =>
      cases cancelled : cancelAwaitable loop (.task id) with
      | error exception =>
          left
          refine ⟨id, exception, rfl, cancelAwaitable_error cancelled, ?_⟩
          simp [markCancelled, activity, cancelled]
      | ok current =>
          right
          refine ⟨current, cancelAwaitable_extends cancelled rfl, ?_⟩
          simp [markCancelled, activity, cancelled]

theorem cancelAll_shrinks : jobs.Shrinks (jobs.cancelAll loop).state.1 := by
  have marked : jobs.Shrinks jobs.markCancelled := by
    refine ⟨?_, List.Sublist.refl _, fun id refers => refers⟩
    unfold markCancelled
    grind
  rcases jobs.cancelAll_cases loop with ⟨id, exception, _, _, raised⟩ | ⟨current, _, drains⟩
  · rw [raised]
    exact marked
  · rw [drains]
    have inactive : jobs.markCancelled.Shrinks { jobs.markCancelled with active := none } := by
      refine ⟨fun opened => opened, List.Sublist.refl _, ?_⟩
      unfold Refers
      tauto
    exact (marked.trans inactive).trans ((drained _ current jobs.queue).shrinks rfl)

theorem cancelAll_extends {spawned : TaskBody → Prop} :
    loop.Extends spawned jobs.Refers (jobs.cancelAll loop).state.2 := by
  rcases jobs.cancelAll_cases loop with ⟨id, exception, _, _, raised⟩ | ⟨current, extension, drains⟩
  · rw [raised]
    exact .refl loop
  · rw [drains]
    exact (extension.mono (fun _ => False.elim) fun id active => .inr (.inl active)).trans
      ((drained _ current jobs.queue).loop.mono (fun _ => False.elim) fun id mem => .inl mem)

theorem cancelAll_state :
    (jobs.cancelAll loop).state.1.state = jobs.markCancelled.state := by
  rcases jobs.cancelAll_cases loop with ⟨id, exception, _, _, raised⟩ | ⟨current, _, drains⟩
  · rw [raised, Call.state_raised]
  · rw [drains, (drained _ current jobs.queue).state]

theorem cancelAll_runner : (jobs.cancelAll loop).state.1.runner = jobs.runner := by
  rcases jobs.cancelAll_cases loop with ⟨id, exception, _, _, raised⟩ | ⟨current, _, drains⟩
  · rw [raised]
    rfl
  · rw [drains, (drained _ current jobs.queue).runner]
    rfl

theorem cancelAll_returned {after : JobQueue × Loop} {value : Unit}
    (returned : jobs.cancelAll loop = .returned after value) :
    after.1.queue = [] ∧ after.1.active = none := by
  rcases jobs.cancelAll_cases loop with ⟨id, exception, _, _, raised⟩ | ⟨current, _, drains⟩
  · rw [raised] at returned
    contradiction
  · have active := (drained { jobs.markCancelled with active := none } current jobs.queue).active
    rw [drains] at returned
    refine ⟨drain_returned _ _ _ returned, ?_⟩
    rw [returned] at active
    exact active

/-- Calling `cancel` again has no effect; otherwise the queue is cancelled, and
unless a failed job stops that, only the final entry is left. -/
theorem cancel_cases (result : PyException) :
    (jobs.state = .cancelled ∨ jobs.state = .completed) ∧
        jobs.cancel loop result = .returned (jobs, loop) () ∨
      jobs.state ≠ .cancelled ∧ jobs.state ≠ .completed ∧
        ((∃ exception, jobs.cancel loop result =
            .raised (jobs.cancelAll loop).state exception) ∨
          jobs.cancel loop result =
            .returned ((jobs.cancelAll loop).state.1.stop result [],
              (jobs.cancelAll loop).state.2) () ∧
          (jobs.cancelAll loop).state.1.queue = []) := by
  unfold cancel
  split
  · next closed => exact .inl ⟨closed, rfl⟩
  · next active =>
    right
    refine ⟨fun same => active (.inl same), fun same => active (.inr same), ?_⟩
    cases called : jobs.cancelAll loop with
    | raised state exception => exact .inl ⟨exception, rfl⟩
    | returned state value => exact .inr ⟨rfl, (jobs.cancelAll_returned loop called).1⟩

theorem stop_eq (jobs : JobQueue) (result : PyException) (last : List Coroutine) :
    jobs.stop result last =
      { jobs with
        queue := jobs.queue ++ last.map (fun coroutine => .job (.coroutine coroutine)) ++
          [.final result]
        unfinished := jobs.unfinished + last.length + 1 } := by
  unfold stop
  induction last generalizing jobs with
  | nil => simp [put]
  | cons coroutine rest ih =>
      rw [List.foldl_cons, ih]
      simp [put]
      omega

theorem stop_shrinks (result : PyException) : jobs.Shrinks (jobs.stop result []) := by
  refine ⟨fun opened => opened, ?_, ?_⟩
  · simp [stop, put, sends, JobEntry.message?]
  · simp [stop, put, Refers]

theorem cancel_shrinks (result : PyException) :
    jobs.Shrinks (jobs.cancel loop result).state.1 := by
  rcases jobs.cancel_cases loop result with
    ⟨_, same⟩ | ⟨_, _, ⟨exception, raised⟩ | ⟨returned, _⟩⟩
  · rw [same]
    exact .refl jobs
  · rw [raised]
    exact jobs.cancelAll_shrinks loop
  · rw [returned]
    exact (jobs.cancelAll_shrinks loop).trans (stop_shrinks _ result)

theorem cancel_extends (result : PyException) {spawned : TaskBody → Prop} :
    loop.Extends spawned jobs.Refers (jobs.cancel loop result).state.2 := by
  rcases jobs.cancel_cases loop result with
    ⟨_, same⟩ | ⟨_, _, ⟨exception, raised⟩ | ⟨returned, _⟩⟩
  · rw [same]
    exact .refl loop
  · rw [raised]
    exact jobs.cancelAll_extends loop
  · rw [returned]
    exact jobs.cancelAll_extends loop

theorem cancel_runner (result : PyException) :
    (jobs.cancel loop result).state.1.runner = jobs.runner := by
  rcases jobs.cancel_cases loop result with
    ⟨_, same⟩ | ⟨_, _, ⟨exception, raised⟩ | ⟨returned, _⟩⟩
  · rw [same]
    rfl
  · rw [raised, Call.state_raised, cancelAll_runner]
  · rw [returned]
    exact jobs.cancelAll_runner loop

theorem cancel_not_opened (result : PyException) :
    (jobs.cancel loop result).state.1.state ≠ .opened := by
  have state := jobs.cancelAll_state loop
  unfold markCancelled at state
  rcases jobs.cancel_cases loop result with
    ⟨closed, same⟩ | ⟨_, _, ⟨exception, raised⟩ | ⟨returned, _⟩⟩
  · rw [same, Call.state_returned]
    grind
  · rw [raised, Call.state_raised]
    grind
  · rw [returned, Call.state_returned]
    change (jobs.cancelAll loop).state.1.state ≠ .opened
    grind

/-- A queue that was cancelled without an error holds nothing but the final entry. -/
theorem cancel_queue {result : PyException} (open_ : jobs.state ≠ .cancelled)
    (running : jobs.state ≠ .completed) (silent : (jobs.cancel loop result).exception? = none) :
    (jobs.cancel loop result).state.1.queue = [.final result] := by
  rcases jobs.cancel_cases loop result with
    ⟨closed, _⟩ | ⟨_, _, ⟨exception, raised⟩ | ⟨returned, emptied⟩⟩
  · exact absurd closed (not_or.mpr ⟨open_, running⟩)
  · simp [raised] at silent
  · rw [returned, Call.state_returned, stop_eq, emptied]
    rfl

/-- Closing twice has no effect; otherwise the last coroutines and the final entry
are queued. -/
theorem close_eq (result : PyException) (last : List Coroutine) :
    jobs.close result last =
      if jobs.state = .opened then
        { jobs with
          state := .closed
          queue := jobs.queue ++ last.map (fun coroutine => .job (.coroutine coroutine)) ++
            [.final result]
          unfinished := jobs.unfinished + last.length + 1 }
      else jobs := by
  unfold close
  split
  · rw [stop_eq]
  · rfl

theorem close_shrinks (result : PyException) (codes : List CloseCode) :
    jobs.Shrinks (jobs.close result (codes.map .close)) := by
  rw [close_eq]
  split
  · next opened =>
    refine ⟨fun _ => opened, ?_, fun id refers => ?_⟩
    · simp [sends, List.filterMap_append, List.filterMap_map, Function.comp_def,
        JobEntry.message?]
    · simpa [Refers] using refers
  · exact .refl jobs

end Cancel

end JobQueue

end SaltyRtcServer
