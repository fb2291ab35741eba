import SaltyRtcServer.ServerInvariant

/-!
# Who is authenticated, and by which step

The state and the id of a client change only in a few places.  A client becomes
authenticated in the step in which its own handler receives a client-auth
message that was found to be valid, and its id then tells its role.
-/

namespace SaltyRtcServer

open StepMachine

/-- The client is as before, except that it may have been dropped. -/
structure PathClient.Keeps (before after : PathClient) : Prop where
  known : before.state ≠ .restricted
  id : after.id = before.id
  type : after.type = before.type
  state : after.state = .authenticated → before.state = .authenticated

theorem PathClient.Keeps.refl {client : PathClient} (known : client.state ≠ .restricted) :
    client.Keeps client :=
  ⟨known, rfl, rfl, fun authenticated => authenticated⟩

theorem PathClient.Keeps.markDropped {client : PathClient}
    (known : client.markDropped.state ≠ .restricted) : client.Keeps client.markDropped where
  known restricted := known (client.markDropped_restricted_iff.mpr restricted)
  id := client.markDropped_id
  type := client.markDropped_type
  state authenticated := absurd authenticated client.markDropped_ne_authenticated

namespace PathSystem

theorem dropClient_client (system : PathSystem) (victim ref : ClientRef) :
    (system.dropClient victim).client ref =
      if ref = victim then (system.client ref).markDropped else system.client ref := by
  by_cases same : ref = victim
  · subst same
    simp [dropClient, remove]
  · simp [dropClient, remove, same]

theorem dropClient_keeps {system : PathSystem} {victim ref : ClientRef}
    (known : ((system.dropClient victim).client ref).state ≠ .restricted) :
    (system.client ref).Keeps ((system.dropClient victim).client ref) := by
  rw [dropClient_client] at known ⊢
  split
  · next same =>
    rw [if_pos same] at known
    exact .markDropped known
  · next other =>
    rw [if_neg other] at known
    exact .refl known

/-- A call that authenticates nobody changes a client that has been authenticated only
by dropping it. -/
theorem keeps_of_plain {moves : ClientRef → Prop} {system next : PathSystem}
    {call : PathSystem.Action} (consistent : system.Consistent)
    (stepped : system.step call = some next) (plain : call.Plain moves) {ref : ClientRef}
    (known : (next.client ref).state ≠ .restricted) :
    (system.client ref).Keeps (next.client ref) := by
  cases call with
  | connect _ | setInitiator _ | addResponder _ => exact plain.elim
  | setType other type =>
      simp only [step, setType] at stepped
      split at stepped
      · next handshaking =>
        injection stepped with same
        subst same
        by_cases same : ref = other
        · subst same
          have restricted := (consistent.handshaking ref handshaking).1
          simp [restricted] at known
        · simp only [Function.update_of_ne same] at known ⊢
          exact .refl known
      · contradiction
  | drop victim =>
      simp only [step] at stepped
      split at stepped
      · contradiction
      · injection stepped with same
        subst same
        exact dropClient_keeps known
  | leave other =>
      simp only [step] at stepped
      split at stepped
      · injection stepped with same
        subst same
        exact .refl known
      · contradiction
  | clean =>
      injection stepped with same
      subst same
      exact .refl known

/-- The other clients when one becomes the initiator. -/
theorem afterSetInitiator_keeps {system : PathSystem} {mover ref : ClientRef}
    {state : Path × PathClient} {previous : Option ClientRef} (other : ref ≠ mover)
    (known : ((system.afterSetInitiator mover (.returned state previous)).client ref).state ≠
      .restricted) :
    (system.client ref).Keeps
      ((system.afterSetInitiator mover (.returned state previous)).client ref) := by
  cases previous with
  | none =>
      simp only [afterSetInitiator, Function.update_of_ne other] at known ⊢
      exact .refl known
  | some previous =>
      have dropped : (Function.update system.client mover state.2 ref).Keeps _ :=
        dropClient_keeps known
      rw [Function.update_of_ne other] at dropped
      exact dropped

/-- The new initiator itself, which is not the previous one. -/
theorem afterSetInitiator_self {system : PathSystem} {mover : ClientRef}
    {state : Path × PathClient} {previous : Option ClientRef} (consistent : system.Consistent)
    (returned : system.path.setInitiator mover (system.client mover) = .returned state previous) :
    (system.afterSetInitiator mover (.returned state previous)).client mover =
      { system.client mover with state := .authenticated, id := initiatorAddress } := by
  obtain ⟨_, pending, _, previousIs, _, client⟩ := Path.setInitiator_returned returned
  cases previous with
  | none => simp [afterSetInitiator, client]
  | some previous =>
      have different : mover ≠ previous := by
        intro same
        subst same
        have restricted := (consistent.pending mover pending).2.1
        rw [(consistent.initiator mover previousIs.symm).2.1] at restricted
        contradiction
      rw [afterSetInitiator, dropClient_client, if_neg different]
      simp [client]

end PathSystem

namespace Handler

/-- The handler has not yet received a message of its client. -/
def Greeting : Handler → Prop
  | .created | .sendingHello | .receivingFirst => True
  | _ => False

/-- The handler expects no more messages of the handshake. -/
def Past : Handler → Prop
  | .absent | .created | .sendingHello | .receivingFirst | .receivingAuth => False
  | _ => True

theorem Past.not_greeting {handler : Handler} (past : handler.Past) : ¬ handler.Greeting := by
  cases handler <;> first | exact past.elim | exact not_false

end Handler

namespace Server

variable {origin before after : Server} {action : Action} {moves : ClientRef → Prop}
  {ref : ClientRef}

/-- The client was authenticated by its own handler, in the role it has. -/
structure Admitted (origin : Server) (action : Action) (ref : ClientRef)
    (before after : PathClient) : Prop where
  action : action = .receive ref (.clientAuth (.ok ()))
  type : after.type = before.type
  role : origin.handler ref = .receivingFirst ∧ after.id = initiatorAddress ∧
      after.type = some .initiator ∨
    origin.handler ref = .receivingAuth ∧ ∃ id : ResponderAddress, after.id = id.toAddress

theorem connect_client {csn : Nat} {mover : ClientRef}
    (stepped : before.connect mover csn = some after) (ref : ClientRef) :
    after.system.client ref = if ref = mover then .new else before.system.client ref := by
  unfold Server.connect at stepped
  split at stepped
  · rw [Option.map_eq_some_iff] at stepped
    obtain ⟨system, joined, rfl⟩ := stepped
    simp only [PathSystem.step] at joined
    split at joined
    · split at joined
      · contradiction
      · injection joined with same
        subst same
        exact Function.update_apply ..
    · contradiction
  · contradiction

theorem connect_handler {csn : Nat} (stepped : before.connect ref csn = some after) :
    after.handler ref = .created := by
  unfold Server.connect at stepped
  split at stepped
  · rw [Option.map_eq_some_iff] at stepped
    obtain ⟨system, _, rfl⟩ := stepped
    exact Function.update_self ..
  · contradiction

/-- What an effect does to a client that has been authenticated when it is over. -/
theorem Effect.client (effect : Effect origin action moves before after)
    (stages : before.StagesSound) (known : (after.system.client ref).state ≠ .restricted) :
    (before.system.client ref).Keeps (after.system.client ref) ∨
      Admitted origin action ref (before.system.client ref) (after.system.client ref) := by
  have same (unchanged : after.system = before.system) :
      (before.system.client ref).Keeps (after.system.client ref) := by
    rw [unchanged] at known ⊢
    exact .refl known
  have consistent := PathSystem.consistent_of_reachable stages.system
  cases effect with
  | calm calm => exact .inl (same calm.system)
  | path stepped plain _ => exact .inl (PathSystem.keeps_of_plain consistent stepped plain known)
  | connect _ stepped =>
      rw [connect_client stepped] at known ⊢
      split
      · next isNew =>
        rw [if_pos isNew] at known
        exact absurd rfl known
      · next other =>
        rw [if_neg other] at known
        exact .inl (.refl known)
  | @initiator mover _ dropped gathered state previous ids _ receives first typed _ returned calm
      _ _ gathers =>
      have system : dropped.system =
          before.system.afterSetInitiator mover (.returned state previous) := calm.system
      have result : (if ids = [] then gathered
          else gathered.setHandler mover (.gathering ids)).system =
            before.system.afterSetInitiator mover (.returned state previous) := by
        rw [← system, (gather_eq gathers).1]
        split <;> rfl
      rw [result] at known ⊢
      by_cases other : ref = mover
      · subst other
        rw [PathSystem.afterSetInitiator_self consistent returned]
        exact .inr ⟨receives, rfl, .inl ⟨first, rfl, typed⟩⟩
      · exact .inl (PathSystem.afterSetInitiator_keeps other known)
  | @responder mover _ joined state id _ receives second _ returned isJoined =>
      have system : joined.system =
          before.system.afterAddResponder mover (.returned state id) := by
        rw [isJoined]
        rfl
      obtain ⟨_, _, _, _, _, client⟩ := Path.addResponder_returned returned
      have finish (last : PathSystem)
          (isLast : last = before.system.afterAddResponder mover (.returned state id))
          (known : (last.client ref).state ≠ .restricted) :
          (before.system.client ref).Keeps (last.client ref) ∨
            Admitted origin action ref (before.system.client ref) (last.client ref) := by
        subst isLast
        by_cases other : ref = mover
        · subst other
          simp only [PathSystem.afterAddResponder, Function.update_self, client]
          exact .inr ⟨receives, rfl, .inr ⟨second, id, rfl⟩⟩
        · simp only [PathSystem.afterAddResponder, Function.update_of_ne other] at known ⊢
          exact .inl (.refl known)
      cases stored : before.system.path.initiator with
      | none =>
          simp only [stored] at known ⊢
          exact finish _ system known
      | some stored' =>
          simp only [stored] at known ⊢
          exact finish _ ((submit_system joined stored' (.newResponder id)).trans system) known
  | created | greeted | serverAuth | relay | take | startEnded | startClosing | handed | ended =>
      exact .inl (same rfl)
  | sendError | disconnectedResponder => exact .inl (same (submit_system ..))
  | disconnectedInitiator _ _ _ _ _ gathers =>
      refine .inl (same ?_)
      rw [(gather_eq gathers).1]
      split <;> rfl
  | enqueued =>
      refine .inl (same ?_)
      rw [submit_system]
      rfl

/-- An id and a role that belong together. -/
def HasRole (client : PathClient) : Prop :=
  client.id = initiatorAddress ∧ client.type = some .initiator ∨
    (∃ id : ResponderAddress, client.id = id.toAddress) ∧ client.type = some .responder

/-- The type of a client changes only when it connects or receives its first message. -/
theorem Effect.type_eq (effect : Effect origin action moves before after)
    (present : origin.handler ref ≠ .absent) (notFirst : origin.handler ref ≠ .receivingFirst) :
    (after.system.client ref).type = (before.system.client ref).type := by
  cases effect with
  | calm calm => rw [calm.system]
  | @path _ call system stepped plain types =>
      cases call with
      | connect _ | setInitiator _ | addResponder _ => exact plain.elim
      | setType other type =>
          simp only [PathSystem.step, PathSystem.setType] at stepped
          split at stepped
          · injection stepped with same
            subst same
            have different : ref ≠ other := by
              intro same
              subst same
              exact notFirst (types ref type rfl).1
            simp [different]
          · contradiction
      | drop victim =>
          simp only [PathSystem.step] at stepped
          split at stepped
          · contradiction
          · injection stepped with same
            subst same
            change ((before.system.dropClient victim).client ref).type = _
            rw [PathSystem.dropClient_client]
            split <;> simp
      | leave other =>
          simp only [PathSystem.step] at stepped
          split at stepped
          · injection stepped with same
            subst same
            rfl
          · contradiction
      | clean =>
          injection stepped with same
          subst same
          rfl
  | @connect mover _ _ _ stepped =>
      rw [connect_client stepped, if_neg]
      intro same
      subst same
      unfold Server.connect at stepped
      split at stepped
      · next absent => exact present absent.1
      · contradiction
  | @initiator mover _ dropped gathered state previous ids _ _ first _ _ returned calm _ _ gathers =>
      have system : dropped.system =
          before.system.afterSetInitiator mover (.returned state previous) := calm.system
      have result : (if ids = [] then gathered
          else gathered.setHandler mover (.gathering ids)).system =
            before.system.afterSetInitiator mover (.returned state previous) := by
        rw [← system, (gather_eq gathers).1]
        split <;> rfl
      have other : ref ≠ mover := by
        intro same
        subst same
        exact notFirst first
      rw [result]
      cases previous with
      | none => simp [PathSystem.afterSetInitiator, other]
      | some previous =>
          rw [PathSystem.afterSetInitiator, PathSystem.dropClient_client]
          split <;> simp [other]
  | @responder mover _ joined state id _ _ _ _ returned isJoined =>
      have system : joined.system =
          before.system.afterAddResponder mover (.returned state id) := by
        rw [isJoined]
        rfl
      obtain ⟨_, _, _, _, _, client⟩ := Path.addResponder_returned returned
      have finish (last : PathSystem)
          (isLast : last = before.system.afterAddResponder mover (.returned state id)) :
          (last.client ref).type = (before.system.client ref).type := by
        subst isLast
        by_cases other : ref = mover
        · subst other
          simp [PathSystem.afterAddResponder, client]
        · simp [PathSystem.afterAddResponder, other]
      split
      · exact finish _ system
      · next stored _ =>
        exact finish _ ((submit_system joined stored (.newResponder id)).trans system)
  | created | greeted | serverAuth | relay | take | startEnded | startClosing | handed | ended => rfl
  | sendError | disconnectedResponder => rw [submit_system]
  | disconnectedInitiator _ _ _ _ _ gathers =>
      rw [(gather_eq gathers).1]
      split <;> rfl
  | enqueued =>
      rw [submit_system]
      rfl

/-- The path changes only through the calls of `PathSystem`. -/
theorem Effect.system_step (effect : Effect origin action moves before after) :
    after.system = before.system ∨ ∃ call, before.system.step call = some after.system := by
  cases effect with
  | calm calm => exact .inl calm.system
  | path stepped _ _ => exact .inr ⟨_, stepped⟩
  | connect _ stepped =>
      unfold Server.connect at stepped
      split at stepped
      · rw [Option.map_eq_some_iff] at stepped
        obtain ⟨system, joined, rfl⟩ := stepped
        exact .inr ⟨_, joined⟩
      · contradiction
  | @initiator mover _ dropped gathered state previous ids _ _ _ _ handshaking returned calm _ _
      gathers =>
      have system : gathered.system =
          before.system.afterSetInitiator mover (.returned state previous) := by
        rw [(gather_eq gathers).1]
        exact calm.system
      have stepped : before.system.step (.setInitiator mover) = some gathered.system := by
        rw [PathSystem.step, if_pos handshaking, returned, system]
      split <;> exact .inr ⟨_, stepped⟩
  | @responder mover _ joined state id _ _ _ handshaking returned isJoined =>
      have system : joined.system =
          before.system.afterAddResponder mover (.returned state id) := by
        rw [isJoined]
        rfl
      have stepped : before.system.step (.addResponder mover) = some joined.system := by
        rw [PathSystem.step, if_pos handshaking, returned, system]
      split
      · exact .inr ⟨_, stepped⟩
      · next stored _ =>
        rw [← submit_system joined stored (.newResponder id)] at stepped
        exact .inr ⟨_, stepped⟩
  | created | greeted | serverAuth | relay | take | startEnded | startClosing | handed | ended =>
      exact .inl rfl
  | sendError | disconnectedResponder => exact .inl (submit_system ..)
  | disconnectedInitiator _ _ _ _ _ gathers =>
      rw [(gather_eq gathers).1]
      split <;> exact .inl rfl
  | enqueued => exact .inl (submit_system ..)

theorem Effect.initiatorKey_eq (effect : Effect origin action moves before after) :
    after.system.path.initiatorKey = before.system.path.initiatorKey := by
  obtain same | ⟨call, stepped⟩ := effect.system_step
  · rw [same]
  · exact (PathSystem.step_keeps_path stepped).1

section Handlers

/-- The handler of a client that is not allowed to move stays where it is. -/
theorem Effect.handler_eq (effect : Effect origin action moves before after)
    (still : ¬ moves ref) : after.handler ref = before.handler ref := by
  have other {mover : ClientRef} (isMover : moves mover) : ref ≠ mover := by
    rintro rfl
    exact still isMover
  cases effect with
  | calm calm => exact calm.handlers ref still
  | @connect mover _ _ isMover stepped =>
      unfold Server.connect at stepped
      split at stepped
      · rw [Option.map_eq_some_iff] at stepped
        obtain ⟨system, _, rfl⟩ := stepped
        exact Function.update_of_ne (other isMover) ..
      · contradiction
  | @initiator mover _ dropped gathered _ _ ids isMover _ _ _ _ _ _ handler _ gathers =>
      have same : gathered.handler = before.handler := by
        rw [(gather_eq gathers).1]
        exact handler
      split
      · rw [same]
      · exact (Function.update_of_ne (other isMover) ..).trans (congrFun same ref)
  | @responder mover _ joined _ id _ _ _ _ _ isJoined =>
      have same : joined.handler = before.handler := by
        rw [isJoined]
        rfl
      split
      · exact congrFun same ref
      · next stored _ =>
        exact (congrFun (submit_handler joined stored (.newResponder id)) ref).trans
          (congrFun same ref)
  | greeted isMover => exact Function.update_of_ne (other isMover) ..
  | serverAuth isMover => exact Function.update_of_ne (other isMover) ..
  | sendError | disconnectedResponder => rw [submit_handler]
  | disconnectedInitiator isMover _ _ _ _ gathers =>
      have same := congrArg (fun server : Server => server.handler ref) (gather_eq gathers).1
      split
      · exact same
      · exact (Function.update_of_ne (other isMover) ..).trans same
  | enqueued =>
      rw [submit_handler]
      rfl
  | path | created | relay | take | startEnded | startClosing | handed | ended => rfl

theorem Effects.handler_eq (effects : Effects origin action moves before after)
    (still : ¬ moves ref) : after.handler ref = before.handler ref := by
  induction effects with
  | refl => rfl
  | tail _ effect ih => rw [effect.handler_eq still, ih]

theorem handleException_past (server : Server) (ref : ClientRef) (exception : PyException) :
    ((server.handleException ref exception).handler ref).Past := by
  unfold handleException
  split <;> simp [setHandler, Handler.Past]

theorem start_past (server : Server) (ref : ClientRef) (connected : Bool) :
    ((server.start ref connected).handler ref).Past := by
  unfold Server.start
  split
  · simp [setHandler, Handler.Past]
  · exact handleException_past ..

theorem abort_past (server : Server) (ref : ClientRef) (exception : PyException) :
    ((server.abort ref exception).handler ref).Past := by
  unfold Server.abort
  split
  · exact handleException_past ..
  · exact start_past ..

theorem send_handler (server : Server) (ref : ClientRef) (message : OutgoingMessage)
    (next : Handler) : (server.send ref message next).handler ref = next ∨
      ((server.send ref message next).handler ref).Past := by
  unfold Server.send
  split
  · exact .inr (abort_past ..)
  · exact .inl (by simp [log, setHandler])

theorem sendServerAuth_past (server : Server) (ref : ClientRef) (message : OutgoingMessage) :
    ((server.sendServerAuth ref message).handler ref).Past := by
  obtain sending | past := send_handler
    (server.log (.created ref message server.system.path.initiator)) ref message .sendingAuth
  · rw [sendServerAuth, sending]
    trivial
  · exact past

theorem sendInitiatorAuth_past (server : Server) (ref : ClientRef) :
    ((server.sendInitiatorAuth ref).handler ref).Past := by
  unfold sendInitiatorAuth
  split
  · exact abort_past ..
  · exact sendServerAuth_past ..

theorem handshakeInitiator_past (server : Server) (ref : ClientRef)
    (verdict : Except PacketError Unit) : ((server.handshakeInitiator ref verdict).handler ref).Past := by
  unfold handshakeInitiator
  split
  · exact abort_past ..
  · dsimp only
    split
    · exact abort_past ..
    · split
      · exact sendInitiatorAuth_past ..
      · simp [setHandler, Handler.Past]

theorem announceResponder_past (server : Server) (ref : ClientRef) (id : ResponderAddress) :
    ((server.announceResponder ref id).handler ref).Past := by
  unfold announceResponder
  split
  · exact sendServerAuth_past ..
  · exact abort_past ..
  · exact sendServerAuth_past ..

theorem handshakeResponder_past (server : Server) (ref : ClientRef)
    (verdict : Except PacketError Unit) : ((server.handshakeResponder ref verdict).handler ref).Past := by
  unfold handshakeResponder
  split
  · exact abort_past ..
  · dsimp only
    split
    · exact abort_past ..
    · exact announceResponder_past ..

theorem receiveFirst_handler (server : Server) (ref : ClientRef) (input : Received) :
    ((server.receiveFirst ref input).handler ref).Past ∨
      input = .clientHello (.ok ()) ∧
        (server.receiveFirst ref input).handler ref = .receivingAuth := by
  cases input with
  | clientAuth verdict => exact .inl (handshakeInitiator_past ..)
  | clientHello verdict =>
      cases verdict with
      | error error => exact .inl (abort_past ..)
      | ok _ => exact .inr ⟨rfl, by simp [receiveFirst, awaitAuth, setHandler]⟩
  | relay | dropResponder | invalid => exact .inl (abort_past ..)

theorem receiveAuth_past (server : Server) (ref : ClientRef) (input : Received) :
    ((server.receiveAuth ref input).handler ref).Past := by
  cases input with
  | clientAuth verdict => exact handshakeResponder_past ..
  | clientHello | relay | dropResponder | invalid => exact abort_past ..

theorem completeHandshake_past (server : Server) (ref : ClientRef) :
    ((server.completeHandshake ref).handler ref).Past := by
  unfold completeHandshake
  split
  · exact handleException_past ..
  · split <;> first | exact start_past .. | exact handleException_past ..

theorem leave_past (server : Server) (ref : ClientRef) (result : PyException) :
    ((server.leave ref result).handler ref).Past := by
  unfold Server.leave
  split <;> exact handleException_past ..

theorem dispatch_past (server : Server) (ref : ClientRef) (closing : Option TaskId) :
    ((server.dispatch ref closing).handler ref).Past := by
  unfold Server.dispatch
  dsimp only
  split
  · simp [setHandler, Handler.Past]
  · split
    · split
      · simp [setHandler, Handler.Past]
      · split <;> simp [setHandler, Handler.Past]
    · split <;> simp [setHandler, Handler.Past]
    · simp [setHandler, Handler.Past]

theorem finish_past {closing : Option TaskId} (stepped : before.finish ref closing = some after) :
    (after.handler ref).Past := by
  unfold Server.finish at stepped
  split at stepped
  · cases stepped
    simp [setHandler, Handler.Past]
  · split at stepped
    · cases stepped
      simp [setHandler, Handler.Past]
    · cases stepped
      simp [setHandler, Handler.Past]
    · cases stepped
      simp [setHandler, Handler.Past]
    · contradiction

/-- How the handler of a client gets to the end of its handshake. -/
inductive HandlerStep (before after : Server) (action : Action) (ref : ClientRef) : Prop
  | kept : after.handler ref = before.handler ref →
      (∀ input, action = .receive ref input → before.handler ref = .awaitingResult) →
      HandlerStep before after action ref
  | connected (csn : Nat) : action = .connect ref csn → after.handler ref = .created →
      HandlerStep before after action ref
  | greeted : (before.handler ref).Greeting → (after.handler ref).Greeting →
      (∀ input, action ≠ .receive ref input) → HandlerStep before after action ref
  | hello : action = .receive ref (.clientHello (.ok ())) → before.handler ref = .receivingFirst →
      after.handler ref = .receivingAuth → HandlerStep before after action ref
  | past : (after.handler ref).Past → HandlerStep before after action ref

theorem Sound.handlerStep (sound : before.Sound) (stepped : before.step action = some after)
    (ref : ClientRef) : HandlerStep before after action ref := by
  by_cases moved : before.MovedBy action ref
  · cases action with
    | connect mover csn =>
        cases moved
        exact .connected csn rfl (connect_handler stepped)
    | begin mover =>
        cases moved
        simp only [Server.step] at stepped
        split at stepped
        · next created =>
          cases stepped
          obtain sending | past := send_handler before ref .serverHello .sendingHello
          · exact .greeted (by rw [created]; trivial) (by rw [sending]; trivial) (by simp)
          · exact .past past
        · contradiction
    | sent mover =>
        cases moved
        simp only [Server.step] at stepped
        split at stepped
        · next sending =>
          cases stepped
          exact .greeted (by rw [sending]; trivial)
            (by simp [setHandler, Handler.Greeting]) (by simp)
        · cases stepped
          exact .past (completeHandshake_past ..)
        · contradiction
    | sendClosed mover code =>
        cases moved
        simp only [Server.step] at stepped
        split at stepped
        · cases stepped
          exact .past (abort_past ..)
        · contradiction
    | receive mover input =>
        obtain ⟨rfl, notAwaiting⟩ := moved
        simp only [Server.step, Server.receive] at stepped
        split at stepped
        · next receiving =>
          cases stepped
          obtain past | ⟨rfl, second⟩ := receiveFirst_handler before ref input
          · exact .past past
          · exact .hello rfl receiving second
        · cases stepped
          exact .past (receiveAuth_past ..)
        · contradiction
        · contradiction
    | receiveClosed mover code =>
        obtain ⟨rfl, notAwaiting⟩ := moved
        simp only [Server.step, Server.receiveClosed] at stepped
        split at stepped
        · split at stepped
          · cases stepped
            exact .past (abort_past ..)
          · cases stepped
            exact .past (abort_past ..)
          · contradiction
          · contradiction
        · contradiction
    | gathered mover =>
        cases moved
        simp only [Server.step] at stepped
        split at stepped
        · split at stepped
          · cases stepped
            exact .past (sendInitiatorAuth_past ..)
          · contradiction
        · contradiction
    | result mover =>
        cases moved
        simp only [Server.step] at stepped
        split at stepped
        · cases stepped
          exact .past (leave_past ..)
        · contradiction
    | join mover =>
        cases moved
        simp only [Server.step] at stepped
        split at stepped
        · unfold Server.join at stepped
          split at stepped
          · cases stepped
            exact .past (by simp [setHandler, Handler.Past])
          · cases stepped
            exact .past (by simp [setHandler, Handler.Past])
          · split at stepped
            · cases stepped
              exact .past (by simp [setHandler, Handler.Past])
            · contradiction
          · contradiction
        · contradiction
    | joinTimeout mover =>
        cases moved
        simp only [Server.step] at stepped
        split at stepped
        · split at stepped
          · contradiction
          · cases stepped
            refine .past ?_
            unfold Server.joinTimeout
            dsimp only
            split <;> simp [setHandler, setJobs, Handler.Past]
        · contradiction
    | joinCancelled mover =>
        cases moved
        simp only [Server.step] at stepped
        split at stepped
        · cases stepped
          exact .past (by simp [setHandler, Handler.Past])
        · contradiction
    | dispatch mover =>
        cases moved
        simp only [Server.step] at stepped
        split at stepped
        · cases stepped
          exact .past (dispatch_past ..)
        · contradiction
    | dispatched mover =>
        cases moved
        simp only [Server.step] at stepped
        split at stepped
        · split at stepped
          · cases stepped
            exact .past (by simp [setHandler, Handler.Past])
          · contradiction
        · contradiction
    | finish mover =>
        cases moved
        simp only [Server.step] at stepped
        split at stepped
        · exact .past (finish_past stepped)
        · contradiction
    | _ => exact moved.elim
  · refine .kept ((sound.effects stepped).handler_eq moved) fun input receives => ?_
    subst receives
    by_contra notAwaiting
    exact moved ⟨rfl, notAwaiting⟩

end Handlers

section Runs

/-- The step in which a client becomes authenticated. -/
theorem Sound.admitted (sound : before.Sound) (stepped : before.step action = some after)
    (unknown : (before.system.client ref).state ≠ .authenticated)
    (known : (after.system.client ref).state = .authenticated) :
    action = .receive ref (.clientAuth (.ok ())) ∧
      (before.handler ref = .receivingFirst ∧ (after.system.client ref).id = initiatorAddress ∨
        before.handler ref = .receivingAuth ∧
          ∃ id : ResponderAddress, (after.system.client ref).id = id.toAddress) := by
  have effects := sound.effects stepped
  clear stepped
  induction effects with
  | refl => exact absurd known unknown
  | tail first effect ih =>
      have stages := (Effects.sound first ⟨sound.tasks, sound.stages⟩).2
      obtain keeps | admitted := effect.client stages (by rw [known]; simp)
      · rw [keeps.id]
        exact ih (keeps.state known)
      · refine ⟨admitted.action, ?_⟩
        obtain ⟨receiving, id, _⟩ | ⟨receiving, id⟩ := admitted.role
        · exact .inl ⟨receiving, id⟩
        · exact .inr ⟨receiving, id⟩

/-- The roles of the clients in every reachable state. -/
structure Roles (server : Server) : Prop where
  receivingAuth : ∀ ref, server.handler ref = .receivingAuth →
    (server.system.client ref).type = some .responder
  known : ∀ ref, (server.system.client ref).state ≠ .restricted →
    HasRole (server.system.client ref)

theorem Effects.type_eq (effects : Effects origin action moves before after)
    (present : origin.handler ref ≠ .absent) (notFirst : origin.handler ref ≠ .receivingFirst) :
    (after.system.client ref).type = (before.system.client ref).type := by
  induction effects with
  | refl => rfl
  | tail _ effect ih => rw [effect.type_eq present notFirst, ih]

theorem Roles.step (roles : before.Roles) (sound : before.Sound)
    (stepped : before.step action = some after) : after.Roles := by
  have effects := sound.effects stepped
  constructor
  · intro ref receiving
    cases sound.handlerStep stepped ref with
    | kept same _ =>
        rw [same] at receiving
        rw [effects.type_eq (by simp [receiving]) (by simp [receiving])]
        exact roles.receivingAuth ref receiving
    | connected csn _ created => simp [created] at receiving
    | greeted _ greeting _ =>
        rw [receiving] at greeting
        exact greeting.elim
    | hello receives first _ =>
        subst receives
        simp only [Server.step, receive, first] at stepped
        cases stepped
        simp [receiveFirst, awaitAuth, setHandler, PathSystem.setType]
    | past past =>
        rw [receiving] at past
        exact past.elim
  · intro ref known
    clear stepped
    induction effects with
    | refl => exact roles.known ref known
    | tail first effect ih =>
        have stages := (Effects.sound first ⟨sound.tasks, sound.stages⟩).2
        obtain keeps | admitted := effect.client stages known
        · rw [HasRole, keeps.id, keeps.type]
          exact ih keeps.known
        · obtain ⟨_, id, type⟩ | ⟨receiving, id⟩ := admitted.role
          · exact .inl ⟨id, type⟩
          · refine .inr ⟨id, ?_⟩
            rw [admitted.type, Effects.type_eq first (by simp [receiving]) (by simp [receiving])]
            exact roles.receivingAuth ref receiving

theorem roles_of_reachable {server : Server} (reachable : machine.Reachable server) :
    server.Roles := by
  refine reachable.invariant _ ?_ fun _ _ _ reached _ roles stepped =>
    roles.step (sound_of_reachable reached) stepped
  rintro server ⟨initiatorKey, number, rfl⟩
  constructor
  · intro ref receiving
    simp [created] at receiving
  · intro ref known
    exact absurd rfl known

/-- The key of the path never changes. -/
theorem initiatorKey_eq (sound : before.Sound) (stepped : before.step action = some after) :
    after.system.path.initiatorKey = before.system.path.initiatorKey := by
  have effects := sound.effects stepped
  clear stepped
  induction effects with
  | refl => rfl
  | tail first effect ih =>
      rw [← ih]
      exact effect.initiatorKey_eq

end Runs

end Server

end SaltyRtcServer
