import SaltyRtcServer.AuthenticationGate

/-!
# What a client may send

The state, the role and the id of a client decide which packets are accepted from it.
-/

namespace SaltyRtcServer

open StepMachine

namespace PathSystem

variable {before after system : PathSystem} {action : Action} {ref : ClientRef}

/-- A client whose handler has ended is at most dropped. -/
theorem client_of_left (stepped : before.step action = some after)
    (left : before.stage ref = .left) :
    after.client ref = before.client ref ∨ after.client ref = (before.client ref).markDropped := by
  have other {mover : ClientRef} (stage : before.stage mover ≠ .left) : ref ≠ mover := by
    rintro rfl
    exact stage left
  cases action with
  | connect mover =>
      simp only [step] at stepped
      split at stepped
      · next absent =>
        split at stepped
        · contradiction
        · cases stepped
          exact .inl (Function.update_of_ne (other (by simp [absent])) ..)
      · contradiction
  | setType mover type =>
      simp only [step] at stepped
      split at stepped
      · next handshaking =>
        cases stepped
        exact .inl (Function.update_of_ne (other (by simp [handshaking])) ..)
      · contradiction
  | setInitiator mover =>
      simp only [step] at stepped
      split at stepped
      · next handshaking =>
        have different : ref ≠ mover := other (by simp [handshaking])
        cases stepped
        cases before.path.setInitiator mover (before.client mover) with
        | raised state exception => exact .inl (Function.update_of_ne different ..)
        | returned state previous =>
            cases previous with
            | none => exact .inl (Function.update_of_ne different ..)
            | some previous =>
                simp only [afterSetInitiator, dropClient_client]
                split
                · exact .inr (by rw [Function.update_of_ne different])
                · exact .inl (Function.update_of_ne different ..)
      · contradiction
  | addResponder mover =>
      simp only [step] at stepped
      split at stepped
      · next handshaking =>
        have different : ref ≠ mover := other (by simp [handshaking])
        cases stepped
        cases before.path.addResponder mover (before.client mover) with
        | raised state exception => exact .inl (Function.update_of_ne different ..)
        | returned state id => exact .inl (Function.update_of_ne different ..)
      · contradiction
  | drop victim =>
      simp only [step] at stepped
      split at stepped
      · contradiction
      · cases stepped
        rw [dropClient_client]
        split
        · exact .inr rfl
        · exact .inl rfl
  | leave mover =>
      simp only [step] at stepped
      split at stepped
      · cases stepped
        exact .inl rfl
      · contradiction
  | clean =>
      cases stepped
      exact .inl rfl

/-- A handler ends by leaving the path, which changes no client. -/
theorem left_of_step (stepped : before.step action = some after) (left : after.stage ref = .left) :
    before.stage ref = .left ∨
      before.stage ref ≠ .absent ∧ after.client ref = before.client ref := by
  cases action with
  | connect mover =>
      simp only [step] at stepped
      split at stepped
      · split at stepped
        · contradiction
        · cases stepped
          by_cases same : ref = mover
          · subst same
            simp at left
          · exact .inl (by simpa [same] using left)
      · contradiction
  | setType mover type =>
      simp only [step] at stepped
      split at stepped
      · cases stepped
        exact .inl left
      · contradiction
  | setInitiator mover =>
      simp only [step] at stepped
      split at stepped
      · cases stepped
        cases called : before.path.setInitiator mover (before.client mover) with
        | raised state exception =>
            rw [called] at left
            exact .inl left
        | returned state previous =>
            rw [called] at left
            by_cases same : ref = mover
            · subst same
              cases previous <;> simp [afterSetInitiator, dropClient, remove] at left
            · left
              cases previous <;> simpa [afterSetInitiator, dropClient, remove, same] using left
      · contradiction
  | addResponder mover =>
      simp only [step] at stepped
      split at stepped
      · cases stepped
        cases called : before.path.addResponder mover (before.client mover) with
        | raised state exception =>
            rw [called] at left
            exact .inl left
        | returned state id =>
            rw [called] at left
            by_cases same : ref = mover
            · subst same
              simp [afterAddResponder] at left
            · exact .inl (by simpa [afterAddResponder, same] using left)
      · contradiction
  | drop victim =>
      simp only [step] at stepped
      split at stepped
      · contradiction
      · cases stepped
        exact .inl left
  | leave mover =>
      simp only [step] at stepped
      split at stepped
      · next present =>
        cases stepped
        by_cases same : ref = mover
        · subst same
          refine .inr ⟨fun absent => ?_, rfl⟩
          simp [absent] at present
        · exact .inl (by simpa [PathSystem.leave, same] using left)
      · contradiction
  | clean =>
      cases stepped
      exact .inl left

/-- A client that was never authenticated has no id. -/
def Unassigned (system : PathSystem) (ref : ClientRef) : Prop :=
  (system.client ref).state = .restricted → (system.client ref).id = serverAddress

theorem Consistent.unassigned (consistent : system.Consistent)
    (present : system.stage ref ≠ .absent) (leaves : system.stage ref ≠ .left) :
    system.Unassigned ref := by
  intro restricted
  cases stage : system.stage ref with
  | absent => exact absurd stage present
  | handshaking => exact (consistent.handshaking ref stage).2
  | established => exact absurd restricted (consistent.established ref stage)
  | left => exact absurd stage leaves

theorem unassigned_of_left (reachable : machine.Reachable system) :
    ∀ ref, system.stage ref = .left → system.Unassigned ref := by
  refine reachable.invariant (fun system => ∀ ref, system.stage ref = .left →
    system.Unassigned ref) ?_ ?_
  · rintro system ⟨_, absent, _⟩ ref left
    rw [absent] at left
    contradiction
  · intro before after action reached _ unassigned stepped ref left restricted
    have wasUnassigned (present : before.stage ref ≠ .absent) : before.Unassigned ref := by
      by_cases wasLeft : before.stage ref = .left
      · exact unassigned ref wasLeft
      · exact (consistent_of_reachable reached).unassigned present wasLeft
    obtain wasLeft | ⟨present, same⟩ := left_of_step stepped left
    · have present : before.stage ref ≠ .absent := by simp [wasLeft]
      obtain same | dropped := client_of_left stepped wasLeft
      · rw [same] at restricted ⊢
        exact wasUnassigned present restricted
      · rw [dropped, PathClient.markDropped_restricted_iff] at restricted
        rw [dropped, PathClient.markDropped_id]
        exact wasUnassigned present restricted
    · rw [same] at restricted ⊢
      exact wasUnassigned present restricted

theorem unassigned_of_reachable (reachable : machine.Reachable system)
    (present : system.stage ref ≠ .absent) : system.Unassigned ref := by
  by_cases leaves : system.stage ref = .left
  · exact unassigned_of_left reachable ref leaves
  · exact (consistent_of_reachable reachable).unassigned present leaves

end PathSystem

/-- The converse of `lt_of_leading_zeros`. -/
theorem leading_zeros_of_lt {number : Nat} (small : number < 2 ^ 32) :
    number &&& 0xffff00000000 = 0 := by
  apply Nat.eq_of_testBit_eq
  intro bit
  have mask : (0xffff00000000 : Nat) = (2 ^ 16 - 1) <<< 32 := rfl
  rw [Nat.testBit_and, mask, Nat.testBit_shiftLeft, Nat.zero_testBit]
  by_cases high : 32 ≤ bit
  · rw [Nat.testBit_lt_two_pow (small.trans_le (Nat.pow_le_pow_right (by decide) high)),
      Bool.false_and]
  · simp [high]

namespace Session

variable {session after : Session} {client : PathClient} {nonce : Nonce} {packet : List UInt8}

/-- Nothing that the checks of a nonce learn changes how payloads are decrypted. -/
theorem decrypted_learn (environment : Environment) (session : Session) (nonce : Nonce)
    (packet : List UInt8) : IncomingMessage.decrypted environment (session.learn nonce) packet =
      IncomingMessage.decrypted environment session packet := by
  have box : (session.learn nonce).readBox.2 = session.readBox.2 := by
    cases found : session.box <;> simp [readBox, learn, found]
  rw [IncomingMessage.decrypted, box]
  rfl

/-- The packet is long enough, addressed to the server, and its nonce is the one that is
expected next. -/
structure Expects (session : Session) (client : PathClient) (packet : List UInt8)
    (nonce : Nonce) : Prop where
  long : dataLengthMin ≤ packet.length
  packed : Nonce.unpack (packet.take nonceLength) = .ok nonce
  destination : nonce.destination = serverAddress
  source : nonce.source = client.id
  cookie : session.cookieIn = none ∧ nonce.cookie ≠ session.drawn.cookieOut ∨
    session.cookieIn = some nonce.cookie
  number : session.csnIn = none ∧ nonce.number < 2 ^ 32 ∨
    session.csnIn = some (some nonce.number)

theorem Expects.unpackNonce (expects : session.Expects client packet nonce) :
    session.unpackNonce client packet = .returned (session.learn nonce) nonce := by
  have toServer : nonce.ToServer := by
    rw [Nonce.ToServer, expects.destination]
    rfl
  apply unpackNonce_fits expects.packed toServer expects.source
  apply acceptNonce_fits expects.cookie
  exact expects.number.imp_left fun first => ⟨first.1, leading_zeros_of_lt first.2⟩

theorem expects_of_unpackNonce (long : dataLengthMin ≤ packet.length)
    (unpacked : session.unpackNonce client packet = .returned after nonce)
    (toServer : nonce.ToServer) : session.Expects client packet nonce ∧ after = session.learn nonce := by
  obtain ⟨packed, source, ⟨toClient, _⟩ | ⟨_, accepted⟩⟩ := unpackNonce_returned unpacked
  · exact absurd toServer toClient
  · obtain ⟨learned, cookie, number⟩ := acceptNonce_returned accepted
    exact ⟨⟨long, packed, Address.eq_serverAddress toServer, source, cookie, number⟩, learned⟩

end Session

namespace IncomingMessage

variable {environment : Environment} {session after : Session} {client : PathClient}
  {nonce : Nonce} {packet : List UInt8} {message : IncomingMessage}

/-- Either the packet is long enough and names another source than a client with a constant
address, or it is read, and its payload is indexed beyond its end. -/
def Escapes (environment : Environment) (session : Session) (client : PathClient)
    (packet : List UInt8) : Prop :=
  dataLengthMin ≤ packet.length ∧ client.Misnamed packet ∨
    (∃ nonce, session.Expects client packet nonce) ∧ Misread environment session client packet

/-- Exactly such a packet makes `unpack` raise another error, if the client has an id that
belongs to its state. -/
theorem unpack_raisesProtocolError_iff
    (assigned : client.state = .authenticated → client.id ≠ serverAddress) :
    (unpack environment session client packet).RaisesProtocolError ↔
      ¬ Escapes environment session client packet := by
  have misread (nonce : Nonce) : Misread environment (session.learn nonce) client packet ↔
      Misread environment session client packet := by
    simp only [Misread, Session.decrypted_learn]
  constructor
  · rintro raises (⟨long, misnamed⟩ | ⟨⟨nonce, expects⟩, escapes⟩)
    · obtain ⟨text, failed⟩ := Session.unpackNonce_misnamed session misnamed
      rw [unpack, if_neg (Nat.not_lt.mpr long), failed] at raises
      exact not_isProtocolError_typeError text (raises _ _ rfl)
    have toServer : nonce.ToServer := by
      rw [Nonce.ToServer, expects.destination]
      rfl
    rw [unpack, if_neg (Nat.not_lt.mpr expects.long), expects.unpackNonce] at raises
    dsimp only at raises
    rw [if_pos toServer, unpackToServer_raisesProtocolError_iff, misread] at raises
    exact raises escapes
  · intro inside
    unfold unpack
    split
    · exact .raised _ ⟨_, .inl rfl⟩
    · next long =>
      split
      · next failed =>
        have named : ¬ client.Misnamed packet :=
          fun misnamed => inside (.inl ⟨Nat.not_lt.mp long, misnamed⟩)
        exact .raised _ (Session.unpackNonce_raises _ _ _ named _ _ failed)
      · next unpacked =>
        split
        · next toServer =>
          obtain ⟨expects, rfl⟩ :=
            Session.expects_of_unpackNonce (Nat.not_lt.mp long) unpacked toServer
          rw [unpackToServer_raisesProtocolError_iff, misread]
          exact fun escapes => inside (.inr ⟨⟨_, expects⟩, escapes⟩)
        · next nonce toClient =>
          obtain ⟨_, source, ⟨_, allowed, _⟩ | ⟨toServer, _⟩⟩ :=
            Session.unpackNonce_returned unpacked
          · have fromClient : nonce.source ≠ serverAddress := by
              rw [source]
              exact assigned allowed.1
            have toOther : nonce.destination ≠ serverAddress := by
              intro same
              rw [Nonce.ToServer, same] at toClient
              exact toClient rfl
            rw [createRelay_of_clients fromClient toOther]
            exact .returned _ _
          · exact absurd toServer toClient

end IncomingMessage

/-- The address of a client that has the other role. -/
def PathClient.OtherRole (client : PathClient) (address : Address) : Prop :=
  (client.id = initiatorAddress ∧ ∃ id : ResponderAddress, address = id.toAddress) ∨
    (∃ id : ResponderAddress, client.id = id.toAddress) ∧ address = initiatorAddress

/-- A packet with what it says, by the state of its sender. -/
structure PathClient.MaySend (environment : Environment) (session : Session) (client : PathClient)
    (packet : List UInt8) (message : IncomingMessage) : Prop where
  long : 25 ≤ packet.length
  nonce : ∃ nonce, Nonce.unpack (packet.take nonceLength) = .ok nonce ∧
    (client.state = .restricted →
      nonce.source = serverAddress ∧ nonce.destination = serverAddress ∧
        IncomingMessage.Handshakes environment
          (IncomingMessage.decrypted environment session packet) (packet.drop nonceLength)
          message) ∧
    (client.state = .authenticated → nonce.source = client.id ∧
      (message = .relay client.id nonce.destination packet ∧
          client.OtherRole nonce.destination ∨
        client.id = initiatorAddress ∧ nonce.destination = serverAddress ∧
          IncomingMessage.Requests environment
            (IncomingMessage.decrypted environment session packet) message))

namespace PacketServer

variable {environment : Environment} {state : PacketServer} {ref : ClientRef}
  {packet : List UInt8} {after : Session} {message : IncomingMessage}

theorem hasRole_of_reachable (reachable : (machine environment).Reachable state)
    (known : (state.client ref).state ≠ .restricted) : Server.HasRole (state.client ref) :=
  (Server.roles_of_reachable (server_reachable reachable)).known ref known

theorem otherRole_of_allowed {client : PathClient} {address : Address}
    (role : Server.HasRole client) (allowed : client.P2pAllowed address.type)
    (toClient : address ≠ serverAddress) : client.OtherRole address := by
  have positive : address.1 ≠ 0 := fun zero => toClient (Subtype.ext zero)
  obtain ⟨_, different⟩ := allowed
  unfold Address.type at different
  rw [if_neg positive] at different
  obtain ⟨id, type⟩ | ⟨id, type⟩ := role
  · rw [type] at different
    refine .inl ⟨id, ⟨address.1, ?_, address.2⟩, rfl⟩
    by_contra small
    exact different (by rw [if_pos (by omega)])
  · rw [type] at different
    refine .inr ⟨id, Subtype.ext ?_⟩
    by_contra other
    exact different (by rw [if_neg (show ¬ address.1 = 0x01 from other)])

/-- Nothing but messages that its state and role permit is unpacked for a client. -/
theorem maySend_of_unpack (environment : Environment) {state : PacketServer} {after : Session}
    {message : IncomingMessage} (ref : ClientRef) (packet : List UInt8)
    (reachable : (machine environment).Reachable state)
    (present : state.server.system.stage ref ≠ .absent)
    (unpacked : IncomingMessage.unpack environment (state.session ref) (state.client ref) packet =
      .returned after message) :
    (state.client ref).MaySend environment (state.session ref) packet message := by
  have sound := sound_of_reachable reachable
  have unassigned := PathSystem.unassigned_of_reachable sound.stages.system present
  obtain ⟨long, middle, nonce, passed, later⟩ := IncomingMessage.unpack_returned unpacked
  obtain ⟨packed, source, checked⟩ := Session.unpackNonce_returned passed
  refine ⟨long, nonce, packed, fun restricted => ?_, fun authenticated => ⟨source, ?_⟩⟩
  · have unauthenticated : (state.client ref).state ≠ .authenticated := by simp [restricted]
    obtain ⟨toServer, _, unpacked⟩ | ⟨toClient, _, _⟩ := later
    · obtain ⟨_, rfl⟩ := Session.expects_of_unpackNonce long passed toServer
      have handshakes := IncomingMessage.unpackToServer_handshakes unauthenticated unpacked
      rw [Session.decrypted_learn] at handshakes
      exact ⟨source.trans (unassigned restricted), Address.eq_serverAddress toServer, handshakes⟩
    · obtain ⟨_, allowed, _⟩ | ⟨toServer, _⟩ := checked
      · exact absurd allowed.1 unauthenticated
      · exact absurd toServer toClient
  · have role : Server.HasRole (state.client ref) :=
      hasRole_of_reachable reachable (by simp [authenticated])
    obtain ⟨toServer, _, unpacked⟩ | ⟨toClient, _, created⟩ := later
    · obtain ⟨_, rfl⟩ := Session.expects_of_unpackNonce long passed toServer
      have typed : (state.client ref).type ≠ none := by
        obtain ⟨_, type⟩ | ⟨_, type⟩ := role <;> simp [type]
      obtain ⟨initiator, requests⟩ :=
        IncomingMessage.unpackToServer_requests authenticated typed unpacked
      rw [Session.decrypted_learn] at requests
      exact .inr ⟨source.symm.trans initiator, Address.eq_serverAddress toServer, requests⟩
    · obtain ⟨_, allowed, _⟩ | ⟨toServer, _⟩ := checked
      · obtain ⟨_, toOther, rfl⟩ := IncomingMessage.createRelay_eq_ok created
        rw [source]
        exact .inl ⟨rfl, otherRole_of_allowed role allowed toOther⟩
      · exact absurd toServer toClient

/-- A new client authenticates. -/
theorem maySend_of_unpack_clientAuth : ∃ (state : PacketServer) (message : IncomingMessage),
    (state.client 0).state = .restricted ∧
      (state.client 0).MaySend admittingEnvironment (state.session 0) admittedPacket message := by
  let start : PacketServer := ⟨Server.created (examplePublicKey [0x02]) 1,
    fun _ => Session.new zeroDrawn [], fun _ => .saltyrtcV1, []⟩
  have first : (machine admittingEnvironment).initial start :=
    ⟨Server.initial_created (examplePublicKey [0x02]) 1, rfl⟩
  obtain ⟨state, reachable, present, restricted, after, message, unpacked⟩ : ∃ state,
      (machine admittingEnvironment).Reachable state ∧ state.server.system.stage 0 ≠ .absent ∧
      (state.client 0).state = .restricted ∧ ∃ after message,
        IncomingMessage.unpack admittingEnvironment (state.session 0) (state.client 0)
          admittedPacket = .returned after message :=
    ⟨_, Machine.reachable_of_run first [.connect 0 zeroDrawn ["v1.saltyrtc.org"]] rfl,
      by decide +kernel, by decide +kernel, _, _, rfl⟩
  exact ⟨state, message, restricted, maySend_of_unpack _ 0 admittedPacket reachable present unpacked⟩

/-- For every client of a run, `unpack` raises only the errors that it documents if and only if
the packet does not name another source than a client with a constant address, and the payload
that is read is not indexed beyond its end. -/
theorem unpack_raises_documented_iff (environment : Environment) {state : PacketServer}
    (ref : ClientRef) (packet : List UInt8) (reachable : (machine environment).Reachable state) :
    (IncomingMessage.unpack environment (state.session ref) (state.client ref)
        packet).RaisesProtocolError ↔
      ¬ IncomingMessage.Escapes environment (state.session ref) (state.client ref) packet := by
  apply IncomingMessage.unpack_raisesProtocolError_iff
  intro authenticated
  have role : Server.HasRole (state.client ref) :=
    hasRole_of_reachable reachable (by simp [authenticated])
  obtain ⟨id, _⟩ | ⟨⟨id, same⟩, _⟩ := role
  · rw [id]
    decide
  · rw [same]
    exact id.ne_serverAddress

/-- The list `[5]` and nothing else can be unpacked. -/
def listEnvironment : Environment :=
  .keyless (fun payload => if payload = [0x91, 0x05] then some (.list [.int 5]) else none)
    (fun _ _ _ => none) ["v1.saltyrtc.org"]

/-- The first packet of a client, with a payload that is not encrypted. -/
def firstPacket (data : List UInt8) : List UInt8 :=
  Nonce.pack onesCookie serverAddress serverAddress 0 ++ data

/-- A client has connected. -/
theorem connected_reachable : ∃ state, (machine listEnvironment).Reachable state ∧
    (state.client 0) = .new ∧ state.session 0 = Session.new zeroDrawn [0x61] := by
  let start : PacketServer := ⟨Server.created [0x61] 1, fun _ => Session.new zeroDrawn [],
    fun _ => .saltyrtcV1, []⟩
  have first : (machine listEnvironment).initial start := ⟨Server.initial_created [0x61] 1, rfl⟩
  exact ⟨_, Machine.reachable_of_run first [.connect 0 zeroDrawn ["v1.saltyrtc.org"]] rfl, rfl, rfl⟩

/-- A payload that cannot be unpacked is reported as it should be. -/
theorem unpack_raises_documented_nil : ∃ state : PacketServer,
    (IncomingMessage.unpack listEnvironment (state.session 0) (state.client 0)
      (firstPacket [0xc0])).RaisesProtocolError := by
  obtain ⟨state, reachable, client, session⟩ := connected_reachable
  refine ⟨state, (unpack_raises_documented_iff _ 0 _ reachable).mpr ?_⟩
  rintro (⟨_, nonce, packed, _, other, _⟩ | ⟨_, ⟨_, opened, _⟩ | ⟨_, _, _, unpacked, _⟩⟩)
  · have first : Nonce.unpack ((firstPacket [0xc0]).take nonceLength) =
        .ok ⟨onesCookie, serverAddress, serverAddress, 0, by decide⟩ :=
      Nonce.unpack_pack onesCookie serverAddress serverAddress (by decide)
    rw [first] at packed
    cases packed
    rw [client] at other
    exact other rfl
  · contradiction
  · rw [show listEnvironment.unpackb ((firstPacket [0xc0]).drop nonceLength) = none from by
      decide +kernel] at unpacked
    contradiction

/-- A new client sends the list `[5]`. -/
theorem unpack_raises_indexError :
    ¬ ∀ (environment : Environment) (state : PacketServer) (ref : ClientRef) (packet : List UInt8),
      (machine environment).Reachable state →
      (IncomingMessage.unpack environment (state.session ref) (state.client ref)
        packet).RaisesProtocolError := by
  intro claimed
  obtain ⟨state, reachable, client, session⟩ := connected_reachable
  have raises := claimed listEnvironment state 0 (firstPacket [0x91, 0x05]) reachable
  rw [client, session] at raises
  exact IncomingMessage.not_isProtocolError_indexError _ (raises _ _ rfl)

end PacketServer

end SaltyRtcServer
