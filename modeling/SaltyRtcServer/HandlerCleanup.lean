import SaltyRtcServer.ClientJobs
import SaltyRtcServer.Presence

/-!
# How handlers end

A handler removes its client from the path, cleans the path and unregisters its
protocol.  It does so after several calls that may raise an exception: `has_client`,
`jobs.cancel` and `jobs.join`.  In the runs in which none of these calls raises, no
handler ends without cleaning up.
-/

namespace SaltyRtcServer

open StepMachine

/-- The runner of a job queue has ended with an exception. -/
def Runner.isFailed : Runner → Bool
  | .failed _ => true
  | _ => false

/-- The task of the handler has ended. -/
def Handler.hasEnded : Handler → Bool
  | .finished | .raised _ => true
  | _ => false

theorem Handler.closer_of_starting {handler : Handler} (starting : handler.starting = true) :
    handler.closer = none := by
  cases handler <;> first | rfl | contradiction

/-- The handler has removed its client, and goes on. -/
def Handler.isLeaving (handler : Handler) : Bool :=
  handler.departed && !handler.hasEnded

theorem Handler.isLeaving_iff {handler : Handler} :
    handler.isLeaving = true ↔ handler.departed = true ∧ handler.hasEnded = false := by
  simp [isLeaving]

/-- The handler has started the runner before it waits for a result, and has removed its
client before it joins the queue; it unregisters its protocol when it returns. -/
structure ClientView.OnCourse (view : ClientView) : Prop where
  started : view.handler = .awaitingResult ∨ view.handler.departed = true →
    view.jobs.runner ≠ .notStarted
  left : view.handler.departed = true → view.stage = .left
  returned : ∀ exception, view.handler ≠ .raised exception
  registered : view.registered ↔ view.handler ≠ .absent ∧ view.handler ≠ .finished

namespace Server

/-- `client.jobs.cancel(result)` does not raise. -/
def CancelReturns (server : Server) (ref : ClientRef) : Prop :=
  (server.jobs ref).Late ∨ ¬ (server.jobs ref).Obstructed server.loop

instance (server : Server) (ref : ClientRef) : Decidable (server.CancelReturns ref) :=
  inferInstanceAs (Decidable (_ ∨ ¬ _))

/-- Neither `has_client` nor `jobs.cancel` nor `jobs.join` raises in the handler that
the action resumes.  An initiator whose last message can be created and sent does not
cancel its jobs. -/
def RaisesNothing (server : Server) : Action → Prop
  | .sent ref => server.handler ref = .sendingAuth → server.system.path.attached = true
  | .gathered ref => server.CanAnnounce ref ∨ server.CancelReturns ref
  | .sendClosed ref _ | .result ref => server.CancelReturns ref
  | .join ref => (server.jobs ref).runner.isFailed = false
  | _ => True

instance (server : Server) : (action : Action) → Decidable (server.RaisesNothing action)
  | .sent _ => inferInstanceAs (Decidable (_ → _))
  | .gathered _ => inferInstanceAs (Decidable (_ ∨ _))
  | .sendClosed _ _ | .result _ => inferInstanceAs (Decidable (server.CancelReturns _))
  | .join _ => inferInstanceAs (Decidable (_ = _))
  | .connect .. | .begin .. | .receive .. | .receiveClosed .. | .joinTimeout .. => .isTrue trivial
  | .joinCancelled .. | .dispatch .. | .dispatched .. | .finish .. => .isTrue trivial
  | .runnerGet .. | .runnerWake .. | .jobDone .. | .taskStart | .taskSent .. => .isTrue trivial
  | .taskSendClosed .. | .taskClosed .. | .taskCancelled .. | .relayed .. => .isTrue trivial
  | .relayTimeout .. | .relayExpired .. | .loopCancelled .. | .loopReported .. => .isTrue trivial
  | .pingTimeout .. | .pingClosed .. | .keepAliveCancelled .. => .isTrue trivial
  | .keepAliveReported .. | .connectionLost .. | .closeProtocol .. => .isTrue trivial

/-- The client is not on the path, its protocol is not registered, and the path is
detached if it is empty, unless a handler is still to remove its client and to clean
the path. -/
structure CleanedUp (server : Server) (ref : ClientRef) : Prop where
  removed : ¬ server.system.path.Member ref
  unregistered : ref ∉ server.protocols
  cleaned : server.system.path.empty = true → server.system.path.attached = false ∨
    ∃ other ∈ server.protocols, (server.handler other).departed = false

/-- The task is to close the connection of the client, and nothing cancels it. -/
structure Closes (server : Server) (ref : ClientRef) (id : TaskId) : Prop where
  created : id < server.loop.next
  body : ∃ code, (server.loop.task id).body = .run ref (.close code)
  notRequested : (server.loop.task id).cancelRequested = false
  notReferred : ¬ (server.jobs ref).Refers id
  notFailed : ∀ outcome, (server.loop.task id).status = .done outcome → outcome = .finished

/-- No call of the handler of the client has raised outside of a `try` block. -/
structure OnCourse (server : Server) (ref : ClientRef) : Prop where
  untouched : ¬ (server.handler ref).Past → (server.jobs ref).Untouched
  handler : (server.view ref).OnCourse
  closer : ∀ id, (server.handler ref).closer = some id → server.Closes ref id

/-- A path that is attached but empty still has a client in its handshake, or one whose
tasks have not ended. -/
def Watched (server : Server) : Prop :=
  (∃ ref, server.system.stage ref ≠ .absent) → server.system.path.attached = true →
    server.system.path.empty = true →
    ∃ ref, server.system.stage ref = .handshaking ∨ server.system.stage ref = .established

section Invariants

variable {before after : Server} {action : Action} {ref : ClientRef} {next : ClientView}

/-- In a handshake that fails, the jobs can be cancelled. -/
theorem HandshakeFails.returns {exception : PyException} {jobs : JobQueue}
    (fails : before.HandshakeFails action ref exception jobs)
    (counted : (before.jobs ref).Counted) (permitted : before.RaisesNothing action)
    (untouched : ¬ (before.handler ref).Past → (before.jobs ref).Untouched) :
    (jobs.cancel before.loop exception).exception? = none := by
  have returns : before.CancelReturns ref := by
    cases handler : before.handler ref with
    | created | sendingHello | receivingFirst | receivingAuth =>
        have idle := untouched (by simp [handler, Handler.Past])
        exact .inr idle.unobstructed
    | gathering ids =>
        obtain ⟨rfl, stops⟩ := fails.gathering ids handler
        exact permitted.resolve_left stops
    | sendingAuth =>
        obtain ⟨code, rfl⟩ := fails.sending handler
        exact permitted
    | _ =>
        have starting := fails.starting
        rw [handler] at starting
        contradiction
  refine JobQueue.cancel_returns (fails.counted counted) ?_ exception
  obtain rfl | ⟨_, code, rfl⟩ := fails.jobs
  · exact returns
  · exact JobQueue.free_close returns _ _

/-- The handler has got as far as before. -/
theorem onCourse_of_same (course : (before.view ref).OnCourse)
    (handler : next.handler = before.handler ref) (stage : next.stage = before.system.stage ref)
    (registered : next.registered ↔ ref ∈ before.protocols)
    (started : (before.jobs ref).runner ≠ .notStarted → next.jobs.runner ≠ .notStarted) :
    next.OnCourse where
  started waits := started (course.started (by rwa [handler] at waits))
  left departed := stage.trans (course.left (by rwa [handler] at departed))
  returned exception raised := course.returned exception (handler.symm.trans raised)
  registered := by
    rw [registered, handler]
    exact course.registered

/-- A handler that is in its handshake has not started the runner. -/
theorem onCourse_of_starting (starting : next.handler.starting = true)
    (registered : next.registered) : next.OnCourse := by
  obtain ⟨handler, stage, type, jobs, tasks, connection, protocol⟩ := next
  cases handler with
  | created | sendingHello | receivingFirst | receivingAuth | gathering | sendingAuth =>
    exact ⟨by simp [Handler.departed], by simp [Handler.departed], by simp,
      by simpa using registered⟩
  | _ => contradiction

theorem registered_of_starting (course : (before.view ref).OnCourse)
    (starting : (before.handler ref).starting = true) : ref ∈ before.protocols := by
  refine course.registered.mpr ⟨fun absent => ?_, fun finished => ?_⟩
  · change before.handler ref = _ at absent
    rw [absent] at starting
    contradiction
  · change before.handler ref = _ at finished
    rw [finished] at starting
    contradiction

/-- The handler has gone on, but has not ended. -/
theorem onCourse_of_moved (registered : next.registered) (started : next.jobs.runner ≠ .notStarted)
    (left : next.handler.departed = true → next.stage = .left)
    (moved : next.handler ≠ .absent ∧ next.handler.hasEnded = false) : next.OnCourse where
  started _ := started
  left := left
  returned exception raised := by simp [raised, Handler.hasEnded] at moved
  registered := by
    refine ⟨fun _ => ⟨moved.1, fun finished => ?_⟩, fun _ => registered⟩
    simp [finished, Handler.hasEnded] at moved

theorem ClientStep.onCourse (step : ClientStep before action ref after) (sound : before.Sound)
    (permitted : before.RaisesNothing action) (counted : (before.jobs ref).Counted)
    (role : before.handler ref = .sendingAuth → HasRole (before.system.client ref))
    (closes : ∀ id, (before.handler ref).closer = some id → before.Closes ref id)
    (returns : ∀ exception jobs, before.HandshakeFails action ref exception jobs →
      (jobs.cancel before.loop exception).exception? = none)
    (course : (before.view ref).OnCourse) : (after.view ref).OnCourse := by
  have present : before.handler ref ≠ .absent → before.handler ref ≠ .finished →
      ref ∈ before.protocols := fun present running => course.registered.mpr ⟨present, running⟩
  have kept {next : ClientView} (same : after.view ref = next)
      (handler : next.handler = before.handler ref) (stage : next.stage = before.system.stage ref)
      (registered : next.registered ↔ ref ∈ before.protocols)
      (started : (before.jobs ref).runner ≠ .notStarted → next.jobs.runner ≠ .notStarted) :
      (after.view ref).OnCourse := by
    rw [same]
    exact onCourse_of_same course handler stage registered started
  have leaving {next : ClientView} {handler : Handler} (gone : before.handler ref = handler)
      (leaves : handler.isLeaving = true ∧ next.handler.isLeaving = true)
      (started : (before.jobs ref).runner ≠ .notStarted → next.jobs.runner ≠ .notStarted)
      (stage : next.stage = before.system.stage ref)
      (registered : next.registered = (ref ∈ before.protocols)) : next.OnCourse := by
    obtain ⟨departed, running⟩ := Handler.isLeaving_iff.mp leaves.1
    obtain ⟨_, moved⟩ := Handler.isLeaving_iff.mp leaves.2
    have departed : (before.handler ref).departed = true := gone ▸ departed
    refine onCourse_of_moved ?_ (started (course.started (.inr departed)))
      (fun _ => stage.trans (course.left departed)) ⟨?_, moved⟩
    · rw [registered]
      refine present (fun absent => ?_) (fun finished => ?_)
      · rw [absent] at departed
        contradiction
      · rw [← gone, finished] at running
        contradiction
    · intro absent
      rw [absent] at leaves
      exact absurd leaves.2 (by decide)
  cases step with
  | worked supply _ same => exact kept same rfl rfl Iff.rfl (by rw [supply.runner]; exact id)
  | reported _ _ same => exact kept same rfl rfl Iff.rfl id
  | connected _ _ same =>
      rw [same]
      exact onCourse_of_starting rfl trivial
  | advanced starting _ next _ same =>
      rw [same]
      exact onCourse_of_starting next (registered_of_starting course starting)
  | aborted fails _ same =>
      rw [same]
      exact onCourse_of_moved (registered_of_starting course fails.starting) (by simp)
        (by simp [Handler.departed]) (by simp [Handler.hasEnded])
  | abortFailed fails raised =>
      rw [returns _ _ fails] at raised
      contradiction
  | completed _ sending _ same =>
      rw [same]
      exact onCourse_of_moved (present (by simp [sending]) (by simp [sending])) (by simp)
        (by simp [Handler.departed]) (by simp [Handler.hasEnded])
  | completeFailed sent sending stops =>
      subst sent
      obtain detached | ⟨notInitiator, notResponder⟩ := stops
      · rw [permitted sending] at detached
        contradiction
      · obtain ⟨_, initiator⟩ | ⟨_, responder⟩ := role sending
        · exact absurd initiator notInitiator
        · exact absurd responder notResponder
  | left _ awaiting _ _ _ _ same =>
      rw [same]
      have started := course.started (.inl awaiting)
      refine onCourse_of_moved (present (by simp [awaiting]) (by simp [awaiting])) ?_
        (fun _ => rfl) (by simp [Handler.hasEnded])
      dsimp only
      rwa [JobQueue.cancel_runner]
  | leaveFailed result _ _ raised =>
      subst result
      rw [JobQueue.cancel_returns counted permitted] at raised
      contradiction
  | joined _ joining _ _ same =>
      rw [same]
      exact leaving joining ⟨rfl, rfl⟩ id rfl rfl
  | joinRaised join joining raised =>
      subst join
      have started : (before.jobs ref).runner ≠ .notStarted :=
        course.started (.inr (congrArg Handler.departed joining))
      obtain notStarted | failed := raised
      · exact absurd notStarted started
      · change (before.jobs ref).runner.isFailed = false at permitted
        rw [failed] at permitted
        contradiction
  | joinGivenUp _ joining stopped same =>
      rw [same]
      refine leaving joining ⟨rfl, rfl⟩ ?_ rfl rfl
      obtain rfl | ⟨_, rfl⟩ := stopped
      · exact id
      · simp
  | joinCancelled _ cancelling same =>
      rw [same]
      refine leaving cancelling ⟨rfl, rfl⟩ ?_ rfl rfl
      dsimp only
      rw [JobQueue.cancelAll_runner]
      exact id
  | dispatched _ joined next supply same =>
      rw [same]
      obtain rfl | ⟨ids, rfl⟩ := next
      all_goals
        refine leaving joined ⟨rfl, rfl⟩ ?_ rfl rfl
        dsimp only
        rw [supply.runner]
        exact id
  | dispatchRaised _ _ nonempty detached =>
      have isEmpty := (Path.empty_iff _).mpr (sound.consistent.detached detached)
      rw [isEmpty] at nonempty
      contradiction
  | closes _ dispatching same =>
      rw [same]
      exact leaving dispatching ⟨rfl, rfl⟩ id rfl rfl
  | finished closing _ same =>
      have departed := congrArg Handler.departed closing
      rw [same]
      exact ⟨fun _ => course.started (.inr departed), fun _ => course.left departed, by simp,
        by simp⟩
  | closeRaised closing ended =>
      have closes := closes _ (congrArg Handler.closer closing)
      obtain cancelled | failed := ended
      · exact absurd (closes.notFailed _ cancelled) (by simp)
      · exact absurd (closes.notFailed _ failed) (by simp)
  | tookFinal _ _ same | tookCoroutine _ _ _ _ same | tookTask _ _ same | woke _ _ same
  | wokeCancelled _ _ same | wokeFailed _ _ _ _ _ same | wakeFailed _ _ _ _ _ same =>
      exact kept same rfl rfl Iff.rfl (by simp)
  | overcounted zero hand => exact (counted.not_overcounted zero hand).elim
  | jobDone _ same => exact kept same rfl rfl Iff.rfl id
  | closing _ same | dropped _ same =>
      exact kept same rfl rfl Iff.rfl (by rw [JobQueue.close_runner]; exact id)
  | lost same => exact kept same rfl rfl Iff.rfl id

/-- Nothing cancels the task that closes a connection, and it does not fail. -/
theorem Closes.step {id : TaskId} (closes : before.Closes ref id) (sound : before.Sound)
    (counted : (before.jobs ref).Counted) (stepped : before.step action = some after) :
    after.Closes ref id := by
  have taskStep := sound.taskStep stepped closes.created
  obtain ⟨code, body⟩ := closes.body
  have unreferred (other : ClientRef) : ¬ before.Refers other id := by
    rintro (queued | relays)
    · obtain ⟨_, coroutine, queuedBody⟩ := sound.tasks.queued other id queued
      rw [body] at queuedBody
      injection queuedBody with same
      exact closes.notReferred (same ▸ queued)
    · obtain ⟨_, _, _, _, relayBody⟩ := sound.tasks.relays other id relays
      rw [body] at relayBody
      simp at relayBody
  have notRequested : (after.loop.task id).cancelRequested = false := by
    obtain same | ⟨_, other, refers⟩ := taskStep.requested
    · exact same.trans closes.notRequested
    · exact absurd refers (unreferred other)
  refine ⟨taskStep.created, ⟨code, taskStep.body.trans body⟩, notRequested, fun refers => ?_, ?_⟩
  · obtain earlier | later := (sound.clientStep stepped ref).refers counted refers
    · exact closes.notReferred earlier
    · exact absurd closes.created (Nat.not_lt.mpr later)
  · intro outcome ended
    cases taskStep.status with
    | same status => exact closes.notFailed outcome (status ▸ ended)
    | endsAtOnce _ _ ends status =>
        cases ends with
        | cancelled requested => simp [closes.notRequested] at requested
        | failed _ _ send _ => simp [body] at send
    | enqueues _ _ enqueue _ => simp [body] at enqueue
    | starts _ _ _ _ status => simp [status] at ended
    | ends _ _ ends status =>
        rw [status] at ended
        injection ended with same
        subst same
        cases ends with
        | finished _ => rfl
        | cancelled requested => simp [closes.notRequested] at requested
        | failed _ send _ => simp [body] at send

theorem GaveUp.closer {exception : PyException} {id : TaskId}
    (gaveUp : before.GaveUp after ref exception (some id)) (sound : before.Sound)
    (refers : ∀ other, (after.jobs ref).Refers other → (before.jobs ref).Refers other) :
    after.Closes ref id := by
  cases gaveUp with
  | closes _ more task =>
      refine ⟨more, ⟨_, congrArg LoopTask.body task⟩, congrArg LoopTask.cancelRequested task,
        fun referred => ?_, fun outcome ended => ?_⟩
      · obtain ⟨created, _⟩ := sound.tasks.queued ref _ (refers _ referred)
        exact absurd created (Nat.lt_irrefl _)
      · rw [task] at ended
        contradiction

/-- A closing task is created when the handler gives up, and only then. -/
theorem ClientStep.closer (step : ClientStep before action ref after) (sound : before.Sound)
    {id : TaskId} (closer : (after.handler ref).closer = some id) :
    (before.handler ref).closer = some id ∨ after.Closes ref id := by
  have kept {handler : Handler} (same : (after.view ref).handler = handler)
      (closers : handler.closer = (before.handler ref).closer) :
      (before.handler ref).closer = some id ∨ after.Closes ref id := by
    rw [← closers, ← same]
    exact .inl closer
  have created {exception : PyException} {closing : Option TaskId}
      (gaveUp : before.GaveUp after ref exception closing)
      (joins : (after.view ref).handler = .joining closing)
      (refers : ∀ other, (after.jobs ref).Refers other → (before.jobs ref).Refers other) :
      (before.handler ref).closer = some id ∨ after.Closes ref id := by
    have closing : closing = some id := (congrArg Handler.closer joins).symm.trans closer
    exact .inr ((closing ▸ gaveUp).closer sound refers)
  have none {handler : Handler} (same : (after.view ref).handler = handler)
      (unclosed : handler.closer = none) :
      (before.handler ref).closer = some id ∨ after.Closes ref id := by
    have closed := (congrArg Handler.closer same).symm.trans closer
    rw [unclosed] at closed
    contradiction
  cases step with
  | connected _ _ same => exact none (congrArg ClientView.handler same) rfl
  | advanced _ _ starting _ same =>
      exact none (congrArg ClientView.handler same) (Handler.closer_of_starting starting)
  | aborted _ _ same => exact none (congrArg ClientView.handler same) rfl
  | completed _ _ _ same => exact none (congrArg ClientView.handler same) rfl
  | finished _ _ same => exact none (congrArg ClientView.handler same) rfl
  | joinRaised _ _ _ same => exact none (congrArg ClientView.handler same) rfl
  | dispatchRaised _ _ _ _ same => exact none (congrArg ClientView.handler same) rfl
  | closeRaised _ _ same => exact none (congrArg ClientView.handler same) rfl
  | abortFailed fails _ gaveUp same =>
      refine created gaveUp (congrArg ClientView.handler same) fun other refers => ?_
      rw [jobs_of_view same] at refers
      exact fails.refers (JobQueue.cancel_shrinks _ _ _ |>.refers other refers)
  | completeFailed _ _ _ _ gaveUp same =>
      refine created gaveUp (congrArg ClientView.handler same) fun other refers => ?_
      rwa [jobs_of_view same] at refers
  | left _ _ _ _ gaveUp _ same =>
      refine created gaveUp (congrArg ClientView.handler same) fun other refers => ?_
      rw [jobs_of_view same] at refers
      exact JobQueue.cancel_shrinks _ _ _ |>.refers other refers
  | leaveFailed _ _ _ _ gaveUp same =>
      refine created gaveUp (congrArg ClientView.handler same) fun other refers => ?_
      rw [jobs_of_view same] at refers
      exact JobQueue.cancel_shrinks _ _ _ |>.refers other refers
  | joined _ phase _ _ same | joinGivenUp _ phase _ same | joinCancelled _ phase same
  | closes _ phase same =>
      exact kept (congrArg ClientView.handler same) (by rw [phase]; rfl)
  | dispatched _ joined next _ same =>
      refine kept (congrArg ClientView.handler same) ?_
      obtain rfl | ⟨ids, rfl⟩ := next
      all_goals
        rw [joined]
        rfl
  | worked _ _ same | reported _ _ same | tookFinal _ _ same | tookCoroutine _ _ _ _ same
  | tookTask _ _ same | woke _ _ same | wokeCancelled _ _ same | wokeFailed _ _ _ _ _ same
  | wakeFailed _ _ _ _ _ same | overcounted _ _ same | jobDone _ same | closing _ same
  | dropped _ same | lost same =>
      exact kept (congrArg ClientView.handler same) rfl

theorem connect_absent {csn : Nat} (stepped : before.step (.connect ref csn) = some after) :
    before.handler ref = .absent := by
  change before.connect ref csn = some after at stepped
  unfold Server.connect at stepped
  split at stepped
  · next absent => exact absent.1
  · contradiction

/-- A client that is past its authentication stays so. -/
theorem Sound.past_of_step (sound : before.Sound) (stepped : before.step action = some after)
    (past : (before.handler ref).Past) : (after.handler ref).Past := by
  cases sound.handlerStep stepped ref with
  | kept same _ => rwa [same]
  | connected csn connects _ =>
      subst connects
      have absent := connect_absent stepped
      rw [absent] at past
      exact past.elim
  | greeted greeting _ _ => exact absurd greeting past.not_greeting
  | hello _ receiving _ =>
      rw [receiving] at past
      exact past.elim
  | past isPast => exact isPast

theorem OnCourse.step (course : before.OnCourse ref) (reachable : machine.Reachable before)
    (permitted : before.RaisesNothing action) (stepped : before.step action = some after) :
    after.OnCourse ref := by
  have sound := sound_of_reachable reachable
  have counted := counted_of_reachable reachable ref
  have step := sound.clientStep stepped ref
  constructor
  · intro stays
    by_cases past : (before.handler ref).Past
    · exact (stays (sound.past_of_step stepped past)).elim
    · exact step.untouched sound counted past stays (course.untouched past)
  · refine step.onCourse sound permitted counted (fun sending => ?_) course.closer
      (fun exception jobs fails => fails.returns counted permitted course.untouched) course.handler
    have phase := sound.phase ref
    unfold Phase at phase
    rw [sending] at phase
    exact (roles_of_reachable reachable).known ref (sound.consistent.established ref phase.1)
  · intro id closer
    obtain earlier | closes := step.closer sound closer
    · exact (course.closer id earlier).step sound counted stepped
    · exact closes

theorem onCourse_created (initiatorKey : List UInt8) (number : Nat) (ref : ClientRef) :
    (created initiatorKey number).OnCourse ref where
  untouched _ := ⟨rfl, rfl⟩
  handler := ⟨by simp [created, view, Handler.departed],
    by simp [created, view, Handler.departed], by simp [created, view], by simp [created, view]⟩
  closer id closes := by simp [created, Handler.closer] at closes

theorem onCourse_of_reach {server : Server} (reach : machine.Reach RaisesNothing server)
    (ref : ClientRef) : server.OnCourse ref := by
  refine reach.invariant (fun server => server.OnCourse ref) ?_
    fun before after action reached permitted course stepped =>
      course.step reached.reachable permitted stepped
  rintro server ⟨initiatorKey, number, rfl⟩
  exact onCourse_created initiatorKey number ref

/-- A path that is detached is not attached again. -/
theorem Effects.detached {origin : Server} {moves : ClientRef → Prop}
    (effects : Effects origin action moves before after)
    (detached : before.system.path.attached = false) : after.system.path.attached = false := by
  induction effects with
  | refl => exact detached
  | tail _ effect ih =>
      obtain same | ⟨call, stepped⟩ := effect.system_step
      · rwa [same]
      · exact PathSystem.step_detached stepped ih

theorem Sound.stage_of_starting (sound : before.Sound)
    (starting : (before.handler ref).starting = true) :
    before.system.stage ref = .handshaking ∨ before.system.stage ref = .established := by
  have phase := sound.phase ref
  unfold Phase at phase
  cases handler : before.handler ref <;> simp only [handler, Handler.starting] at starting phase
  all_goals first | contradiction | exact .inl phase.1 | exact .inr phase.1

/-- A client does not leave the path unless its handler does so, which cleans the path. -/
theorem ClientStep.watches (step : ClientStep before action ref after) (sound : after.Sound)
    (returns : ∀ exception jobs, before.HandshakeFails action ref exception jobs →
      (jobs.cancel before.loop exception).exception? = none) :
    after.system.stage ref = before.system.stage ref ∨
      (after.system.stage ref = .handshaking ∨ after.system.stage ref = .established) ∨
      (after.system.path.attached = true → after.system.path.empty = false) := by
  cases step with
  | connected _ _ same => exact .inr (.inl (.inl (stage_of_view same)))
  | advanced _ _ starting _ same =>
      have starting := (congrArg Handler.starting (handler_of_view same)).trans starting
      exact .inr (.inl (sound.stage_of_starting starting))
  | aborted _ _ same =>
      have phase := sound.phase ref
      unfold Phase at phase
      rw [handler_of_view same] at phase
      exact .inr (.inl phase)
  | abortFailed fails raised =>
      rw [returns _ _ fails] at raised
      contradiction
  | left _ _ _ _ _ cleaned => exact .inr (.inr cleaned)
  | completed _ _ _ same | joinRaised _ _ _ same | finished _ _ same
  | dispatchRaised _ _ _ _ same | closeRaised _ _ same
  | completeFailed _ _ _ _ _ same | leaveFailed _ _ _ _ _ same
  | joined _ _ _ _ same | joinGivenUp _ _ _ same | joinCancelled _ _ same
  | closes _ _ same
  | dispatched _ _ _ _ same
  | worked _ _ same | reported _ _ same | tookFinal _ _ same | tookCoroutine _ _ _ _ same
  | tookTask _ _ same | woke _ _ same | wokeCancelled _ _ same | wokeFailed _ _ _ _ _ same
  | wakeFailed _ _ _ _ _ same | overcounted _ _ same | jobDone _ same | closing _ same
  | dropped _ same | lost same =>
      exact .inl (stage_of_view same)

theorem stage_of_member (sound : before.Sound) (member : before.system.path.Member ref) :
    before.system.stage ref = .handshaking ∨ before.system.stage ref = .established := by
  obtain pending | initiator | ⟨id, responder⟩ := member
  · exact .inl (sound.consistent.pending ref pending).1
  · exact .inr (sound.consistent.initiator ref initiator).1
  · exact .inr (sound.consistent.responder id ref responder).1

theorem Watched.step (watched : before.Watched) (reachable : machine.Reachable before)
    (courses : ∀ ref, before.OnCourse ref) (permitted : before.RaisesNothing action)
    (stepped : before.step action = some after) : after.Watched := by
  have sound := sound_of_reachable reachable
  have soundAfter := sound.step stepped
  intro ⟨ref, present⟩ attached empty
  have attachedBefore : before.system.path.attached = true := by
    by_contra detached
    have stays := (sound.effects stepped).detached (by simpa using detached)
    simp [stays] at attached
  have watches (ref : ClientRef) : after.system.stage ref = before.system.stage ref ∨
      (after.system.stage ref = .handshaking ∨ after.system.stage ref = .established) := by
    have returns exception jobs (fails : before.HandshakeFails action ref exception jobs) :=
      fails.returns (counted_of_reachable reachable ref) permitted (courses ref).untouched
    obtain same | stays | cleaned := (sound.clientStep stepped ref).watches soundAfter returns
    · exact .inl same
    · exact .inr stays
    · rw [cleaned attached] at empty
      contradiction
  -- Someone watched the path before the step, or arrives in it.
  have watcher : (∃ other, before.system.stage other = .handshaking ∨
      before.system.stage other = .established) ∨
      ∃ other, after.system.stage other = .handshaking ∨
        after.system.stage other = .established := by
    obtain same | arrives := watches ref
    · rw [same] at present
      by_cases emptyBefore : before.system.path.empty = true
      · exact .inl (watched ⟨ref, present⟩ attachedBefore emptyBefore)
      · rw [Path.empty_iff, not_forall] at emptyBefore
        obtain ⟨other, member⟩ := emptyBefore
        exact .inl ⟨other, stage_of_member sound (not_not.mp member)⟩
    · exact .inr ⟨ref, arrives⟩
  obtain ⟨other, watching⟩ | arrives := watcher
  · refine ⟨other, ?_⟩
    obtain same | stays := watches other
    · rwa [same]
    · exact stays
  · exact arrives

theorem watched_of_reach {server : Server} (reach : machine.Reach RaisesNothing server) :
    server.Watched := by
  refine reach.invariant Watched ?_ fun before after action reached permitted watched stepped =>
    watched.step reached.reachable (onCourse_of_reach reached) permitted stepped
  rintro server ⟨initiatorKey, number, rfl⟩ ⟨ref, present⟩
  exact absurd rfl present

theorem OnCourse.watches {server : Server} (course : server.OnCourse ref) (sound : server.Sound)
    (watching : server.system.stage ref = .handshaking ∨ server.system.stage ref = .established) :
    ref ∈ server.protocols ∧ (server.handler ref).departed = false := by
  have notLeft : server.system.stage ref ≠ .left := by
    obtain handshaking | established := watching <;> simp [*]
  have stays : (server.handler ref).departed = false := by
    by_contra departed
    exact notLeft (course.handler.left (Bool.not_eq_false _ ▸ departed))
  refine ⟨course.handler.registered.mpr ⟨fun absent => ?_, fun finished => ?_⟩, stays⟩
  · change server.handler ref = _ at absent
    have phase := sound.phase ref
    unfold Phase at phase
    rw [absent] at phase
    simp [phase.1] at watching
  · change server.handler ref = _ at finished
    rw [finished] at stays
    contradiction

/-- A handler that ends has cleaned up, in every run in which no call of a handler
raises outside of a `try` block. -/
theorem cleanedUp_of_ended {server : Server} (reach : machine.Reach RaisesNothing server)
    (ref : ClientRef) (ended : (server.handler ref).hasEnded = true) : server.CleanedUp ref := by
  have sound := sound_of_reachable reach.reachable
  have course := onCourse_of_reach reach ref
  have finished : server.handler ref = .finished := by
    cases handler : server.handler ref with
    | finished => rfl
    | raised exception => exact absurd handler (course.handler.returned exception)
    | _ =>
        rw [handler] at ended
        contradiction
  have left : server.system.stage ref = .left :=
    course.handler.left (congrArg Handler.departed finished)
  constructor
  · intro member
    obtain handshaking | established := stage_of_member sound member
    · simp [left] at handshaking
    · simp [left] at established
  · intro registered
    exact (course.handler.registered.mp registered).2 finished
  · intro empty
    by_cases attached : server.system.path.attached = true
    · obtain ⟨other, watching⟩ :=
        watched_of_reach reach ⟨ref, by simp [left]⟩ attached empty
      obtain ⟨registered, stays⟩ := (onCourse_of_reach reach other).watches sound watching
      exact .inr ⟨other, registered, stays⟩
    · exact .inl (by simpa using attached)

/-- The handler of an initiator ends after its connection was lost. -/
theorem cleanedUp_initiator :
    ∃ server : Server, server.handler 0 = .finished ∧ server.CleanedUp 0 := by
  have reach : machine.Reach RaisesNothing _ :=
    Machine.reach_run (.start (initial_created [0x61] 1))
      (joinInitiator 0 ++ leavePath 0 ++ reportDeparture 0 ++ [.finish 0])
      (by decide +kernel) rfl
  exact ⟨_, by decide +kernel, cleanedUp_of_ended reach 0 (by decide +kernel)⟩

/-- An initiator is dropped by a second one in its handshake.  The second one leaves, so
that the path is detached, and `has_client` raises in the handler of the first one. -/
theorem dropped_initiator_stays :
    ¬ ∀ server : Server, machine.Reachable server → ∀ ref,
      (server.handler ref).hasEnded = true → server.CleanedUp ref := by
  intro claimed
  have reachable : machine.Reachable _ := Machine.reachable_of_run (initial_created [0x61] 1)
    ([.connect 0 0, .begin 0, .sent 0, .receive 0 (.clientAuth (.ok ()))] ++ joinInitiator 1 ++
      leavePath 1 ++ [.sent 0, .join 0]) rfl
  have cleaned := claimed _ reachable 0 (by decide +kernel)
  exact cleaned.unregistered (by decide +kernel)

end Invariants

end Server

end SaltyRtcServer
