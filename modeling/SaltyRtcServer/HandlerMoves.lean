import SaltyRtcServer.HandlerCleanup

/-!
# How far a handler has come

A handler goes on until it returns or raises, and it never starts again.  Its
protocol is registered when the connection is opened and unregistered when the
handler returns.
-/

namespace SaltyRtcServer

namespace Server

/-- What one step does to a handler and its registration. -/
inductive HandlerMove (before : Server) (action : Action) (ref : ClientRef) (after : Server) : Prop
  | kept : after.handler ref = before.handler ref →
      (ref ∈ after.protocols ↔ ref ∈ before.protocols) → HandlerMove before action ref after
  | connected {csn : Nat} : action = .connect ref csn → before.handler ref = .absent →
      after.handler ref = .created → HandlerMove before action ref after
  | moved : before.handler ref ≠ .absent → (before.handler ref).hasEnded = false →
      after.handler ref ≠ .absent → after.handler ref ≠ .finished →
      (ref ∈ after.protocols ↔ ref ∈ before.protocols) → HandlerMove before action ref after
  | finished : (before.handler ref).departed = true → (before.handler ref).hasEnded = false →
      after.handler ref = .finished → ref ∉ after.protocols → HandlerMove before action ref after

variable {before after : Server} {action : Action} {ref : ClientRef} {next : ClientView}

theorem registered_of_view (same : after.view ref = next) :
    ref ∈ after.protocols ↔ next.registered :=
  iff_of_eq (congrArg ClientView.registered same)

theorem HandlerMove.of_view {handler : Handler} (same : after.view ref = next)
    (was : before.handler ref = handler)
    (going : handler ≠ .absent ∧ handler.hasEnded = false)
    (goes : next.handler ≠ .absent ∧ next.handler ≠ .finished)
    (registered : next.registered ↔ ref ∈ before.protocols) :
    HandlerMove before action ref after := by
  subst was
  refine .moved going.1 going.2 ?_ ?_ ((registered_of_view same).trans registered)
  · rw [handler_of_view same]
    exact goes.1
  · rw [handler_of_view same]
    exact goes.2

theorem Handler.going_of_starting {handler : Handler} (starting : handler.starting = true) :
    handler ≠ .absent ∧ handler.hasEnded = false := by
  cases handler <;> first | contradiction | simp [Handler.hasEnded]

theorem ClientStep.handlerMove (step : ClientStep before action ref after) :
    HandlerMove before action ref after := by
  have kept {next : ClientView} (same : after.view ref = next)
      (handler : next.handler = before.handler ref)
      (registered : next.registered ↔ ref ∈ before.protocols) :
      HandlerMove before action ref after :=
    .kept ((handler_of_view same).trans handler) ((registered_of_view same).trans registered)
  have going {handler : Handler} (was : before.handler ref = handler)
      (going : handler ≠ .absent ∧ handler.hasEnded = false) {next : ClientView}
      (same : after.view ref = next) (goes : next.handler ≠ .absent ∧ next.handler ≠ .finished)
      (registered : next.registered ↔ ref ∈ before.protocols) :
      HandlerMove before action ref after := .of_view same was going goes registered
  cases step with
  | worked _ _ same | reported _ _ same | tookFinal _ _ same | tookCoroutine _ _ _ _ same
  | tookTask _ _ same | woke _ _ same | wokeCancelled _ _ same | wokeFailed _ _ _ _ _ same
  | wakeFailed _ _ _ _ _ same | overcounted _ _ same | jobDone _ same | closing _ same
  | lost same | dropped _ same => exact kept same rfl Iff.rfl
  | connected connects absent same =>
      exact .connected connects absent (handler_of_view same)
  | @advanced handler stage type starting _ next _ same =>
      refine going rfl (Handler.going_of_starting starting) same
        ⟨(Handler.going_of_starting next).1, fun finished => ?_⟩ Iff.rfl
      have finished : handler = .finished := finished
      rw [finished] at next
      contradiction
  | aborted fails _ same =>
      exact going rfl (Handler.going_of_starting fails.starting) same (by simp) Iff.rfl
  | abortFailed fails _ _ same =>
      exact going rfl (Handler.going_of_starting fails.starting) same (by simp) Iff.rfl
  | completed _ sending _ same | completeFailed _ sending _ _ _ same =>
      exact going sending (by simp [Handler.hasEnded]) same (by simp) Iff.rfl
  | left _ awaiting _ _ _ _ same | leaveFailed _ awaiting _ _ _ same =>
      exact going awaiting (by simp [Handler.hasEnded]) same (by simp) Iff.rfl
  | joined _ joining _ _ same | joinRaised _ joining _ same | joinGivenUp _ joining _ same =>
      exact going joining (by simp [Handler.hasEnded]) same (by simp) Iff.rfl
  | joinCancelled _ cancelling same =>
      exact going cancelling (by simp [Handler.hasEnded]) same (by simp) Iff.rfl
  | dispatched _ joined next _ same =>
      refine going joined (by simp [Handler.hasEnded]) same ?_ Iff.rfl
      obtain rfl | ⟨ids, rfl⟩ := next <;> simp
  | dispatchRaised _ joined _ _ same =>
      exact going joined (by simp [Handler.hasEnded]) same (by simp) Iff.rfl
  | closes _ dispatching same =>
      exact going dispatching (by simp [Handler.hasEnded]) same (by simp) Iff.rfl
  | finished closing _ same =>
      refine .finished (by simp [closing, Handler.departed]) (by simp [closing, Handler.hasEnded])
        (handler_of_view same) ?_
      rw [registered_of_view same]
      exact not_false
  | closeRaised closing _ same =>
      exact going closing (by simp [Handler.hasEnded]) same (by simp) Iff.rfl

end Server

end SaltyRtcServer
