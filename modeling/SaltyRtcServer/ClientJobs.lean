import SaltyRtcServer.Authentication
import SaltyRtcServer.StepInversion
import SaltyRtcServer.StopRequest

/-!
# What steps do to the jobs of a client

The counter of a job queue never falls below what the queue has in hand, no queue refers
to a task that it was not given, and a client that is not authenticated has done nothing
with its jobs.
-/

namespace SaltyRtcServer

open StepMachine

namespace JobQueue

/-- The runner of a queue has not started, and no task was put in it. -/
structure Untouched (jobs : JobQueue) : Prop where
  notStarted : jobs.runner = .notStarted
  targets : jobs.targets = []

variable {jobs : JobQueue} {loop : Loop}

theorem targets_close (jobs : JobQueue) (result : PyException) (last : List Coroutine) :
    (jobs.close result last).targets = jobs.targets := by
  rw [close_eq]
  split
  · have coroutines : (last.map fun coroutine => JobEntry.job (.coroutine coroutine)).filterMap
        JobEntry.task? = [] := by
      simp [List.filterMap_map, Function.comp_def, JobEntry.task?]
    simp [targets, coroutines, JobEntry.task?]
  · rfl

theorem close_runner (jobs : JobQueue) (result : PyException) (last : List Coroutine) :
    (jobs.close result last).runner = jobs.runner := by
  rw [close_eq]
  split <;> rfl

theorem Untouched.close (untouched : jobs.Untouched) (result : PyException)
    (last : List Coroutine) : (jobs.close result last).Untouched where
  notStarted := (jobs.close_runner result last).trans untouched.notStarted
  targets := (jobs.targets_close result last).trans untouched.targets

theorem Untouched.supplied {lost established : Prop} {fresh : TaskId} {after : JobQueue}
    (untouched : jobs.Untouched) (supply : jobs.Supplied lost established fresh after)
    (notEstablished : ¬ established) : after.Untouched := by
  cases supply with
  | same => exact untouched
  | send message number opened =>
      refine ⟨untouched.notStarted, ?_⟩
      have targets := untouched.targets
      simp only [JobQueue.targets, put, List.filterMap_append] at targets ⊢
      simpa [JobEntry.task?] using targets
  | task opened established => exact absurd established notEstablished
  | closed code lost => exact untouched.close _ _

theorem refers_close {result : PyException} {last : List Coroutine} {id : TaskId} :
    (jobs.close result last).Refers id ↔ jobs.Refers id := by
  rw [close_eq]
  split
  · simp [Refers]
  · rfl

theorem Supplied.refers {lost established : Prop} {fresh id : TaskId} {after : JobQueue}
    (supply : jobs.Supplied lost established fresh after) (refers : after.Refers id) :
    jobs.Refers id ∨ fresh ≤ id := by
  cases supply with
  | same => exact .inl refers
  | send message number opened =>
      left
      simpa [put, Refers] using refers
  | task opened established =>
      by_cases new : id = fresh
      · exact .inr (Nat.le_of_eq new.symm)
      · left
        simpa [put, Refers, new] using refers
  | closed code lost => exact .inl (refers_close.mp refers)

theorem inactive_shrinks {after : JobQueue} (inactive : after = { jobs with active := none }) :
    jobs.Shrinks after := by
  subst inactive
  refine ⟨id, List.Sublist.refl _, fun id refers => ?_⟩
  obtain queued | active | awaiting | called := refers
  · exact .inl queued
  · contradiction
  · exact .inr (.inr (.inl awaiting))
  · exact .inr (.inr (.inr called))

theorem refers_of_runner {runner : Runner} {id : TaskId} (idle : ∀ id, runner ≠ .awaiting id)
    (refers : { jobs with runner := runner }.Refers id) : jobs.Refers id := by
  obtain queued | active | awaiting | called := refers
  · exact .inl queued
  · exact .inr (.inl active)
  · exact absurd awaiting (idle id)
  · exact .inr (.inr (.inr called))

theorem Supplied.runner {lost established : Prop} {fresh : TaskId} {after : JobQueue}
    (supply : jobs.Supplied lost established fresh after) : after.runner = jobs.runner := by
  cases supply with
  | same | send | task => rfl
  | closed code lost => exact jobs.close_runner _ _

/-- The counter of a queue is not zero while the queue has something in hand. -/
theorem Counted.not_overcounted (counted : jobs.Counted) (zero : jobs.unfinished = 0)
    (hand : jobs.queue ≠ [] ∨ ∃ id, jobs.runner = .awaiting id) : False := by
  simp only [Counted, zero] at counted
  obtain queued | ⟨id, awaiting⟩ := hand
  · have positive := List.length_pos_of_ne_nil queued
    omega
  · simp only [awaiting, JobRun.awaits] at counted
    omega

/-- `cancel` does not raise unless it meets a task that has failed. -/
theorem cancel_returns (counted : jobs.Counted) (free : jobs.Late ∨ ¬ jobs.Obstructed loop)
    (result : PyException) : (jobs.cancel loop result).exception? = none := by
  by_cases late : jobs.Late
  · have early : jobs.state = .cancelled ∨ jobs.state = .completed := late
    rw [cancel, if_pos early]
    rfl
  · rw [cancel_of_calm result late (free.resolve_left late) counted.length_le]
    rfl

theorem Untouched.unobstructed (untouched : jobs.Untouched) : ¬ jobs.Obstructed loop := by
  rintro ⟨id, target, _⟩
  rw [untouched.targets] at target
  contradiction

theorem free_close (free : jobs.Late ∨ ¬ jobs.Obstructed loop) (result : PyException)
    (last : List Coroutine) :
    (jobs.close result last).Late ∨ ¬ (jobs.close result last).Obstructed loop := by
  obtain late | calm := free
  · left
    have closed : jobs.state ≠ .opened := by
      obtain cancelled | completed := late
      · simp [cancelled]
      · simp [completed]
    rwa [close_eq, if_neg closed]
  · right
    rwa [Obstructed, targets_close]

end JobQueue

namespace Server

section Steps

variable {before after : Server} {action : Action} {ref : ClientRef} {next : ClientView}

theorem jobs_of_view (same : after.view ref = next) : after.jobs ref = next.jobs :=
  congrArg ClientView.jobs same

theorem handler_of_view (same : after.view ref = next) : after.handler ref = next.handler :=
  congrArg ClientView.handler same

theorem stage_of_view (same : after.view ref = next) : after.system.stage ref = next.stage :=
  congrArg ClientView.stage same

/-- The queue that a failed handshake leaves is counted as it was. -/
theorem HandshakeFails.counted {exception : PyException} {jobs : JobQueue}
    (fails : before.HandshakeFails action ref exception jobs)
    (counted : (before.jobs ref).Counted) : jobs.Counted := by
  obtain rfl | ⟨_, code, rfl⟩ := fails.jobs
  · exact counted
  · have closed : (before.jobs ref).QueueStep before.loop False
        ((before.jobs ref).close (.disconnected code) []) := .close _ _
    exact closed.counted counted

theorem HandshakeFails.refers {exception : PyException} {jobs : JobQueue} {id : TaskId}
    (fails : before.HandshakeFails action ref exception jobs) (refers : jobs.Refers id) :
    (before.jobs ref).Refers id := by
  obtain rfl | ⟨_, code, rfl⟩ := fails.jobs
  · exact refers
  · exact JobQueue.refers_close.mp refers

theorem counted_of_supplied {lost established : Prop} {fresh : TaskId} {jobs supplied : JobQueue}
    (loop : Loop) (supply : jobs.Supplied lost established fresh supplied)
    (counted : jobs.Counted) : supplied.Counted := by
  have step : jobs.QueueStep loop False supplied := by
    cases supply with
    | same => exact .stays
    | send message number opened => exact .put opened _
    | task opened _ => exact .put opened _
    | closed code _ => exact .close _ _
  exact step.counted counted

/-- No step makes the counter of a queue fall below what the queue has in hand. -/
theorem ClientStep.counted (step : ClientStep before action ref after)
    (counted : (before.jobs ref).Counted) : (after.jobs ref).Counted := by
  have stays {lost : Prop} {jobs : JobQueue}
      (queueStep : (before.jobs ref).QueueStep before.loop lost jobs)
      (same : after.jobs ref = jobs) : (after.jobs ref).Counted := by
    rw [same]
    exact queueStep.counted counted
  have unchanged (same : after.jobs ref = before.jobs ref) : (after.jobs ref).Counted :=
    stays .stays same
  cases step with
  | worked supply _ same =>
      rw [jobs_of_view same]
      exact counted_of_supplied before.loop supply counted
  | dispatched _ _ _ supply same =>
      rw [jobs_of_view same]
      exact counted_of_supplied before.loop supply counted
  | connected _ _ same =>
      rw [jobs_of_view same]
      exact Nat.le_refl 0
  | @aborted exception jobs _ _ fails _ same =>
      rw [jobs_of_view same]
      have kept : (jobs.cancel before.loop exception).state.1.Counted :=
        (fails.counted counted).cancel exception
      have started : (jobs.cancel before.loop exception).state.1.QueueStep before.loop False
          { (jobs.cancel before.loop exception).state.1 with runner := .getting } :=
        .runs .getting (Nat.zero_le _)
      exact started.counted kept
  | abortFailed fails _ _ same =>
      rw [jobs_of_view same]
      exact (fails.counted counted).cancel _
  | completed _ sending _ same =>
      exact stays (.runs .getting (Nat.zero_le _)) (jobs_of_view same)
  | left _ _ _ _ _ _ same => exact stays (.cancel _) (jobs_of_view same)
  | leaveFailed _ _ _ _ _ same => exact stays (.cancel _) (jobs_of_view same)
  | joinGivenUp _ _ stopped same =>
      obtain rfl | ⟨getting, rfl⟩ := stopped
      · exact unchanged (jobs_of_view same)
      · exact stays (.runs .finished (Nat.zero_le _)) (jobs_of_view same)
  | joinCancelled _ _ same => exact stays .cancelAll (jobs_of_view same)
  | tookFinal getting queue same => exact stays (.stop queue getting) (jobs_of_view same)
  | tookCoroutine getting queue _ _ same =>
      exact stays (.take queue before.loop.next getting) (jobs_of_view same)
  | tookTask getting queue same => exact stays (.take queue _ getting) (jobs_of_view same)
  | woke awaiting _ same => exact stays (.finish awaiting) (jobs_of_view same)
  | wokeCancelled awaiting _ same => exact stays (.defer awaiting) (jobs_of_view same)
  | @wokeFailed id exception jobs _ awaiting _ inactive _ same =>
      subst inactive
      exact stays (.fail awaiting exception .getting [id] (Nat.le_refl 1)) (jobs_of_view same)
  | @wakeFailed id exception raised jobs _ awaiting _ inactive _ same =>
      subst inactive
      refine stays (.fail awaiting exception (.failed raised) [] (Nat.zero_le 1)) ?_
      rw [jobs_of_view same, List.append_nil]
  | overcounted zero hand => exact (counted.not_overcounted zero hand).elim
  | jobDone called same => exact stays (.call called) (jobs_of_view same)
  | closing _ same => exact stays (.close _ _) (jobs_of_view same)
  | dropped _ same => exact stays (.close _ _) (jobs_of_view same)
  | reported _ _ same => exact unchanged (jobs_of_view same)
  | advanced _ _ _ _ same => exact unchanged (jobs_of_view same)
  | completeFailed _ _ _ _ _ same => exact unchanged (jobs_of_view same)
  | joined _ _ _ _ same => exact unchanged (jobs_of_view same)
  | joinRaised _ _ _ same => exact unchanged (jobs_of_view same)
  | dispatchRaised _ _ _ _ same => exact unchanged (jobs_of_view same)
  | closes _ _ same => exact unchanged (jobs_of_view same)
  | finished _ _ same => exact unchanged (jobs_of_view same)
  | closeRaised _ _ same => exact unchanged (jobs_of_view same)
  | lost same => exact unchanged (jobs_of_view same)

theorem counted_of_reachable {server : Server} (reachable : machine.Reachable server)
    (ref : ClientRef) : (server.jobs ref).Counted := by
  refine reachable.invariant (fun server => (server.jobs ref).Counted) ?_
    fun before after action reached _ counted stepped => ?_
  · rintro server ⟨initiatorKey, number, rfl⟩
    exact Nat.le_refl 0
  · have sound := sound_of_reachable reached
    exact (sound.clientStep stepped ref).counted counted

/-- Before its client is authenticated, a handler has done nothing with its jobs. -/
theorem ClientStep.untouched (step : ClientStep before action ref after) (sound : before.Sound)
    (counted : (before.jobs ref).Counted) (past : ¬ (before.handler ref).Past)
    (stays : ¬ (after.handler ref).Past) (untouched : (before.jobs ref).Untouched) :
    (after.jobs ref).Untouched := by
  have notEstablished : before.system.stage ref ≠ .established := by
    have phase := sound.phase ref
    unfold Phase at phase
    cases handler : before.handler ref <;> simp only [handler, Handler.Past] at past phase
    all_goals simp_all
  have unchanged (same : after.jobs ref = before.jobs ref) : (after.jobs ref).Untouched := by
    rwa [same]
  have arrives {next : Handler} (same : after.handler ref = next) (isPast : next.Past) : False :=
    stays (same ▸ isPast)
  cases step with
  | worked supply _ same =>
      rw [jobs_of_view same]
      exact untouched.supplied supply notEstablished
  | aborted _ _ same => exact (arrives (handler_of_view same) trivial).elim
  | abortFailed _ _ _ same => exact (arrives (handler_of_view same) trivial).elim
  | connected _ _ same =>
      rw [jobs_of_view same]
      exact ⟨rfl, rfl⟩
  | dispatched _ sending | completed _ sending | left _ sending | leaveFailed _ sending
  | joinGivenUp _ sending | joinCancelled _ sending | completeFailed _ sending
  | joined _ sending | joinRaised _ sending | dispatchRaised _ sending | closes _ sending
  | finished sending | closeRaised sending =>
      rw [sending] at past
      exact absurd trivial past
  | tookFinal getting | tookCoroutine getting | tookTask getting =>
      rw [untouched.notStarted] at getting
      contradiction
  | woke awaiting | wokeCancelled awaiting | wokeFailed _ awaiting | wakeFailed _ awaiting =>
      rw [untouched.notStarted] at awaiting
      contradiction
  | overcounted zero hand same => exact (counted.not_overcounted zero hand).elim
  | jobDone called same =>
      rw [jobs_of_view same]
      exact ⟨untouched.notStarted, untouched.targets⟩
  | closing _ same =>
      rw [jobs_of_view same]
      exact untouched.close _ _
  | dropped _ same =>
      rw [jobs_of_view same]
      exact untouched.close _ _
  | reported _ _ same => exact unchanged (jobs_of_view same)
  | advanced _ _ _ _ same => exact unchanged (jobs_of_view same)
  | lost same => exact unchanged (jobs_of_view same)

/-- A queue refers to no task that exists already and that it did not refer to. -/
theorem ClientStep.refers (step : ClientStep before action ref after)
    (counted : (before.jobs ref).Counted) {id : TaskId} (refers : (after.jobs ref).Refers id) :
    (before.jobs ref).Refers id ∨ before.loop.next ≤ id := by
  have kept {jobs : JobQueue} (shrinks : (before.jobs ref).Shrinks jobs)
      (same : after.jobs ref = jobs) : (before.jobs ref).Refers id ∨ before.loop.next ≤ id :=
    .inl (shrinks.refers id (same ▸ refers))
  have unchanged (same : after.jobs ref = before.jobs ref) :
      (before.jobs ref).Refers id ∨ before.loop.next ≤ id :=
    .inl (same ▸ refers)
  cases step with
  | worked supply _ same | dispatched _ _ _ supply same =>
      rw [jobs_of_view same] at refers
      exact supply.refers refers
  | connected _ _ same =>
      rw [jobs_of_view same] at refers
      simp [JobQueue.new, JobQueue.Refers] at refers
  | aborted fails _ same =>
      rw [jobs_of_view same] at refers
      exact .inl (fails.refers (JobQueue.cancel_shrinks _ _ _ |>.refers id
        (JobQueue.refers_of_runner (by simp) refers)))
  | abortFailed fails _ _ same =>
      rw [jobs_of_view same] at refers
      exact .inl (fails.refers (JobQueue.cancel_shrinks _ _ _ |>.refers id refers))
  | completed _ _ _ same =>
      rw [jobs_of_view same] at refers
      exact .inl (JobQueue.refers_of_runner (by simp) refers)
  | joinGivenUp _ _ stopped same =>
      rw [jobs_of_view same] at refers
      obtain rfl | ⟨getting, rfl⟩ := stopped
      · exact .inl refers
      · exact .inl (JobQueue.refers_of_runner (by simp) refers)
  | tookFinal getting queue same | tookTask getting queue same | woke getting _ same
  | wokeCancelled getting _ same =>
      rw [jobs_of_view same] at refers
      grind [JobQueue.Refers]
  | tookCoroutine getting queue _ _ same =>
      rw [jobs_of_view same] at refers
      grind [JobQueue.Refers]
  | jobDone called same =>
      rw [jobs_of_view same] at refers
      obtain queued | active | awaiting | called := refers
      · exact .inl (.inl queued)
      · exact .inl (.inr (.inl active))
      · exact .inl (.inr (.inr (.inl awaiting)))
      · exact .inl (.inr (.inr (.inr (List.mem_of_mem_erase called))))
  | @wokeFailed active exception jobs _ awaiting _ inactive _ same =>
      rw [jobs_of_view same] at refers
      have earlier : (jobs.cancel before.loop exception).state.1.Refers id →
          (before.jobs ref).Refers id := fun refers =>
        (JobQueue.inactive_shrinks inactive).refers id
          ((JobQueue.cancel_shrinks _ _ _).refers id refers)
      obtain queued | active | awaits | called := refers
      · exact .inl (earlier (.inl queued))
      · exact .inl (earlier (.inr (.inl active)))
      · contradiction
      · obtain called | woken := List.mem_append.mp called
        · exact .inl (earlier (.inr (.inr (.inr called))))
        · rw [List.mem_singleton.mp woken]
          exact .inl (.inr (.inr (.inl awaiting)))
  | wakeFailed _ awaiting _ inactive _ same =>
      rw [jobs_of_view same] at refers
      exact .inl ((JobQueue.inactive_shrinks inactive).refers id
        ((JobQueue.cancel_shrinks _ _ _).refers id
          (JobQueue.refers_of_runner (by simp) refers)))
  | left _ _ _ _ _ _ same | leaveFailed _ _ _ _ _ same =>
      exact kept (JobQueue.cancel_shrinks _ _ _) (jobs_of_view same)
  | joinCancelled _ _ same =>
      exact kept (JobQueue.cancelAll_shrinks _ _) (jobs_of_view same)
  | overcounted zero hand => exact (counted.not_overcounted zero hand).elim
  | closing _ same | dropped _ same =>
      rw [jobs_of_view same] at refers
      exact .inl (JobQueue.refers_close.mp refers)
  | reported _ _ same => exact unchanged (jobs_of_view same)
  | advanced _ _ _ _ same => exact unchanged (jobs_of_view same)
  | completeFailed _ _ _ _ _ same => exact unchanged (jobs_of_view same)
  | joined _ _ _ _ same => exact unchanged (jobs_of_view same)
  | joinRaised _ _ _ same => exact unchanged (jobs_of_view same)
  | dispatchRaised _ _ _ _ same => exact unchanged (jobs_of_view same)
  | closes _ _ same => exact unchanged (jobs_of_view same)
  | finished _ _ same => exact unchanged (jobs_of_view same)
  | closeRaised _ _ same => exact unchanged (jobs_of_view same)
  | lost same => exact unchanged (jobs_of_view same)

end Steps

end Server

end SaltyRtcServer
