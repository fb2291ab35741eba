import SaltyRtcServer.AcceptedMessages
import SaltyRtcServer.PacketServer

/-!
# The authentication gate

A client becomes authenticated only by a client-auth message that was encrypted
for this connection: with the key of the path by an initiator, and with the key
of its own client-hello by a responder.
-/

namespace SaltyRtcServer

open StepMachine

namespace IncomingMessage

variable {environment : Environment} {session after : Session} {client : PathClient}
  {nonce : Nonce} {packet : List UInt8}

/-- A client-auth message of a client that is not authenticated was encrypted. -/
theorem unpackToServer_clientAuth {clientAuth : ClientAuth}
    (unauthenticated : client.state ≠ .authenticated)
    (unpacked : unpackToServer environment session client nonce packet =
      .returned after (.clientAuth clientAuth)) :
    ∃ payload entries,
      environment.decrypt session.readBox.2 (packet.take nonceLength) (packet.drop nonceLength) =
        some payload ∧
      environment.unpackb payload = some (.dict entries) ∧
      MessageType.ofValue (Value.get entries "type") = .ok .clientAuth ∧
      ClientAuth.fromPayload entries = .ok clientAuth := by
  cases unpackToServer_handshakes unauthenticated unpacked with
  | clientAuth opened typed parsed => exact ⟨_, _, opened, typed.unpacked, typed.type, parsed⟩

end IncomingMessage

namespace PacketServer

variable {environment : Environment} {before after state : PacketServer} {action : Action}
  {ref : ClientRef}

/-- The keys with which the handshakes of the clients decrypt. -/
structure KeysSound (state : PacketServer) : Prop where
  greeting : ∀ ref, (state.server.handler ref).Greeting →
    (state.session ref).clientKey = state.initiatorKey ∧
      ∀ box ∈ (state.session ref).box,
        box = ((state.session ref).drawn.serverKey, state.initiatorKey)
  receivingAuth : ∀ ref, state.server.handler ref = .receivingAuth →
    ∃ hello key, ⟨ref, hello, .clientHello key⟩ ∈ state.accepted ∧
      (state.session ref).box = some ((state.session ref).drawn.serverKey, key)

/-- A client-hello message sets the key of its client. -/
theorem interpret_clientHello {frame : Frame} {session : Session} {accepted : List Accepted}
    (receiving : state.server.handler ref = .receivingFirst)
    (interpreted : state.interpret environment ref frame =
      (session, .clientHello (.ok ()), accepted)) :
    ∃ hello key, accepted = [⟨ref, hello, .clientHello key⟩] ∧
      session.box = some (session.drawn.serverKey, key) := by
  unfold interpret at interpreted
  split at interpreted
  · simp at interpreted
  · next middle message received =>
    cases message with
    | clientHello key =>
        cases frame with
        | text => contradiction
        | binary packet =>
            simp only [Session.handleMessage, receiving, if_true, Prod.mk.injEq,
              Received.clientHello.injEq] at interpreted
            obtain ⟨rfl, verdict, rfl⟩ := interpreted
            refine ⟨packet, key, rfl, ?_⟩
            cases set : middle.setClientKey environment.accepts key with
            | mk session result =>
                rw [set] at verdict
                subst verdict
                rw [Session.setClientKey_ok set]
    | clientAuth clientAuth =>
        simp only [Session.handleMessage, receiving, true_or, if_true, Prod.mk.injEq] at interpreted
        simp at interpreted
    | dropResponder | relay => simp [Session.handleMessage] at interpreted

/-- Steps of others keep what is known about the keys of a client. -/
theorem KeysSound.keep (keys : before.KeysSound) (sound : before.server.Sound)
    (stepped : step environment before action = some after) (ref : ClientRef)
    (session : after.session ref = before.session ref)
    (accepted : ∀ entry ∈ before.accepted, entry ∈ after.accepted)
    (notConnect : ∀ csn, before.serverAction environment action ≠ .connect ref csn)
    (notReceive : ∀ input, before.serverAction environment action ≠ .receive ref input) :
    ((after.server.handler ref).Greeting →
      (after.session ref).clientKey = after.initiatorKey ∧
        ∀ box ∈ (after.session ref).box,
          box = ((after.session ref).drawn.serverKey, after.initiatorKey)) ∧
    (after.server.handler ref = .receivingAuth →
      ∃ hello key, ⟨ref, hello, .clientHello key⟩ ∈ after.accepted ∧
        (after.session ref).box = some ((after.session ref).drawn.serverKey, key)) := by
  have steppedServer := step_server stepped
  have key : after.initiatorKey = before.initiatorKey :=
    Server.initiatorKey_eq sound steppedServer
  rw [session, key]
  cases sound.handlerStep steppedServer ref with
  | kept same _ =>
      rw [same]
      refine ⟨keys.greeting ref, fun receiving => ?_⟩
      obtain ⟨hello, key, entry, box⟩ := keys.receivingAuth ref receiving
      exact ⟨hello, key, accepted _ entry, box⟩
  | connected csn connects => exact absurd connects (notConnect csn)
  | greeted greeting stillGreeting _ =>
      refine ⟨fun _ => keys.greeting ref greeting, fun receiving => ?_⟩
      rw [receiving] at stillGreeting
      exact stillGreeting.elim
  | hello receives => exact absurd receives (notReceive _)
  | past past =>
      refine ⟨fun greeting => absurd greeting past.not_greeting, fun receiving => ?_⟩
      rw [receiving] at past
      exact past.elim

theorem KeysSound.step (keys : before.KeysSound) (sound : before.server.Sound)
    (stepped : step environment before action = some after) : after.KeysSound := by
  have each (ref : ClientRef) :
      ((after.server.handler ref).Greeting →
        (after.session ref).clientKey = after.initiatorKey ∧
          ∀ box ∈ (after.session ref).box,
            box = ((after.session ref).drawn.serverKey, after.initiatorKey)) ∧
      (after.server.handler ref = .receivingAuth →
        ∃ hello key, ⟨ref, hello, .clientHello key⟩ ∈ after.accepted ∧
          (after.session ref).box = some ((after.session ref).drawn.serverKey, key)) := by
    have steppedServer := step_server stepped
    have keptKey : after.initiatorKey = before.initiatorKey :=
      Server.initiatorKey_eq sound steppedServer
    have keep := keys.keep sound stepped ref
    cases action with
    | other action =>
        simp only [PacketServer.step] at stepped
        split at stepped
        · contradiction
        · next plain =>
          rw [Option.map_eq_some_iff] at stepped
          obtain ⟨server, stepped, rfl⟩ := stepped
          apply keep rfl (fun entry mem => mem)
          · rintro csn rfl
            exact plain rfl
          · rintro input rfl
            exact plain rfl
    | connect mover drawn offered =>
        simp only [PacketServer.step, connect] at stepped
        split at stepped
        · rw [Option.map_eq_some_iff] at stepped
          obtain ⟨server, connected, rfl⟩ := stepped
          by_cases same : ref = mover
          · subst same
            have created : server.handler ref = .created := Server.connect_handler connected
            refine ⟨fun _ => ?_, fun receiving => ?_⟩
            · rw [keptKey]
              simp [Session.new]
            · rw [created] at receiving
              contradiction
          · have notMover (csn : Nat) : before.serverAction environment
                (.connect mover drawn offered) ≠ .connect ref csn := by
              intro connects
              injection connects with client
              exact same client.symm
            have notReceive (input : Received) : before.serverAction environment
                (.connect mover drawn offered) ≠ .receive ref input := by
              intro receives
              contradiction
            exact keep (Function.update_of_ne same ..) (fun entry mem => mem) notMover notReceive
        · contradiction
    | receive mover frame =>
        simp only [PacketServer.step, receive] at stepped
        rw [Option.map_eq_some_iff] at stepped
        obtain ⟨server, received, rfl⟩ := stepped
        by_cases same : ref = mover
        · subst same
          cases sound.handlerStep steppedServer ref with
          | kept handler receives =>
              have awaiting := receives _ rfl
              rw [awaiting] at handler
              refine ⟨fun greeting => ?_, fun receiving => ?_⟩
              · rw [handler] at greeting
                exact greeting.elim
              · rw [handler] at receiving
                contradiction
          | connected csn connects => contradiction
          | greeted _ _ notReceive => exact absurd rfl (notReceive _)
          | hello receives first second =>
              injection receives with _ hello
              refine ⟨fun greeting => ?_, fun _ => ?_⟩
              · rw [second] at greeting
                exact greeting.elim
              · cases interpreted : before.interpret environment ref frame with
                | mk session rest =>
                    obtain ⟨input, accepted⟩ := rest
                    rw [interpreted] at hello
                    change input = .clientHello (.ok ()) at hello
                    subst hello
                    obtain ⟨packet, key, rfl, box⟩ := interpret_clientHello first interpreted
                    refine ⟨packet, key, ?_, ?_⟩
                    · simp
                    · simpa [interpreted] using box
          | past past =>
              refine ⟨fun greeting => absurd greeting past.not_greeting, fun receiving => ?_⟩
              rw [receiving] at past
              exact past.elim
        · have notMover (input : Received) : before.serverAction environment
              (.receive mover frame) ≠ .receive ref input := by
            intro receives
            injection receives with client
            exact same client.symm
          have notConnect (csn : Nat) : before.serverAction environment
              (.receive mover frame) ≠ .connect ref csn := by
            intro connects
            contradiction
          exact keep (Function.update_of_ne same ..)
            (fun entry mem => List.mem_append_left _ mem) notConnect notMover
  exact ⟨fun ref => (each ref).1, fun ref => (each ref).2⟩

theorem keysSound_of_reachable (reachable : (machine environment).Reachable state) :
    state.KeysSound := by
  refine reachable.invariant _ ?_ fun _ _ _ reached _ keys stepped =>
    keys.step (sound_of_reachable reached) stepped
  rintro state ⟨⟨initiatorKey, number, created⟩, _⟩
  constructor <;> intro ref handler <;> simp [created, Server.created, Handler.Greeting] at handler

/-- The message of an unpacked packet to the server. -/
theorem receive_clientAuth {session after : Session} {client : PathClient} {frame : Frame}
    {clientAuth : ClientAuth} (unauthenticated : client.state ≠ .authenticated)
    (received : session.receive environment client frame =
      .returned after (.clientAuth clientAuth)) :
    ∃ packet nonce payload entries, frame = .binary packet ∧
      Nonce.unpack (packet.take nonceLength) = .ok nonce ∧ nonce.source = client.id ∧
      nonce.destination = serverAddress ∧ after.drawn = session.drawn ∧
      environment.decrypt session.readBox.2 (packet.take nonceLength)
        (packet.drop nonceLength) = some payload ∧
      environment.unpackb payload = some (.dict entries) ∧
      MessageType.ofValue (Value.get entries "type") = .ok .clientAuth ∧
      ClientAuth.fromPayload entries = .ok clientAuth := by
  cases frame with
  | text => contradiction
  | binary packet =>
      obtain ⟨_, middle, nonce, passed, later⟩ := IncomingMessage.unpack_returned received
      obtain ⟨packed, source, checked⟩ := Session.unpackNonce_returned passed
      obtain ⟨toServer, rfl, unpacked⟩ | ⟨toClient, rfl, created⟩ := later
      · obtain ⟨toClient, _⟩ | ⟨_, accepted⟩ := checked
        · exact absurd toServer toClient
        · obtain ⟨rfl, _⟩ := Session.acceptNonce_returned accepted
          obtain ⟨payload, entries, decrypted, unpackb, type, parsed⟩ :=
            IncomingMessage.unpackToServer_clientAuth unauthenticated unpacked
          have drawn : (session.learn nonce).readBox.1.drawn = session.drawn := by
            cases box : session.box <;> simp [Session.readBox, Session.learn, box]
          have box : (session.learn nonce).readBox.2 = session.readBox.2 := by
            cases box : session.box <;> simp [Session.readBox, Session.learn, box]
          rw [box] at decrypted
          exact ⟨packet, nonce, payload, entries, rfl, packed, source,
            Address.eq_serverAddress toServer, drawn, decrypted, unpackb, type, parsed⟩
      · obtain ⟨_, _, relayed⟩ := exceptBind_ok created
        obtain ⟨_, _, impossible⟩ := exceptBind_ok relayed
        cases impossible

/-- What a client-auth message that was found to be valid contains. -/
theorem handleClientAuth_ok {session after : Session} {subprotocol : SubProtocol}
    {clientAuth : ClientAuth} (valid : session.handleClientAuth environment subprotocol clientAuth =
      (after, .ok ())) :
    clientAuth.yourCookie = session.drawn.cookieOut ∧
      selectSubprotocol environment clientAuth.subprotocols environment.subprotocols =
        some subprotocol.value ∧
      ∀ key ∈ clientAuth.yourKey, key ∈ environment.keys.map Prod.fst := by
  unfold Session.handleClientAuth at valid
  split at valid
  · simp at valid
  · next cookie =>
    split at valid
    · simp at valid
    · next chosen =>
      refine ⟨not_not.mp cookie, not_not.mp chosen, fun key requested => ?_⟩
      rw [Option.mem_def] at requested
      dsimp only at valid
      unfold Session.chooseKey at valid
      rw [requested] at valid
      dsimp only at valid
      split at valid
      · simp at valid
      · split at valid
        · simp at valid
        · next serverKey found =>
          obtain ⟨before, after, split, _⟩ := List.lookup_eq_some_iff.mp found
          simp [split]

/-- The packet carries a client-auth message that is encrypted with the key given
and that the server may accept from the client. -/
structure Admits (environment : Environment) (state : PacketServer) (ref : ClientRef)
    (key : PublicKey) (packet : List UInt8) : Prop where
  addressed : ∃ nonce, Nonce.unpack (packet.take nonceLength) = .ok nonce ∧
    nonce.source = serverAddress ∧ nonce.destination = serverAddress
  clientAuth : ∃ payload entries clientAuth,
    environment.decrypt ((state.session ref).drawn.serverKey, key) (packet.take nonceLength)
      (packet.drop nonceLength) = some payload ∧
    environment.unpackb payload = some (.dict entries) ∧
    MessageType.ofValue (Value.get entries "type") = .ok .clientAuth ∧
    ClientAuth.fromPayload entries = .ok clientAuth ∧
    clientAuth.yourCookie = (state.session ref).drawn.cookieOut ∧
    selectSubprotocol environment clientAuth.subprotocols environment.subprotocols =
      some (state.subprotocol ref).value ∧
    ∀ key ∈ clientAuth.yourKey, key ∈ environment.keys.map Prod.fst

/-- A verdict comes from such a packet. -/
theorem interpret_clientAuth {frame : Frame} {session : Session} {accepted : List Accepted}
    {key : PublicKey} (restricted : (state.client ref).state ≠ .authenticated)
    (noId : (state.client ref).id = serverAddress)
    (receiving : state.server.handler ref = .receivingFirst ∨
      state.server.handler ref = .receivingAuth)
    (box : (state.session ref).readBox.2 = ((state.session ref).drawn.serverKey, key))
    (interpreted : state.interpret environment ref frame =
      (session, .clientAuth (.ok ()), accepted)) :
    ∃ packet, frame = .binary packet ∧ Admits environment state ref key packet := by
  unfold interpret at interpreted
  split at interpreted
  · simp at interpreted
  · next middle message received =>
    cases message with
    | clientAuth clientAuth =>
        obtain ⟨packet, nonce, payload, entries, rfl, packed, source, destination, drawn, decrypted,
          unpackb, type, parsed⟩ := receive_clientAuth restricted received
        simp only [Session.handleMessage, receiving, if_true, Prod.mk.injEq,
          Received.clientAuth.injEq] at interpreted
        obtain ⟨_, verdict, _⟩ := interpreted
        obtain ⟨cookie, chosen, requested⟩ :=
          handleClientAuth_ok (Prod.ext rfl verdict :
            middle.handleClientAuth environment (state.subprotocol ref) clientAuth = (_, .ok ()))
        rw [drawn] at cookie
        rw [box] at decrypted
        exact ⟨packet, rfl, ⟨nonce, packed, source.trans noId, destination⟩, payload, entries,
          clientAuth, decrypted, unpackb, type, parsed, cookie, chosen, requested⟩
    | clientHello key =>
        simp only [Session.handleMessage] at interpreted
        split at interpreted <;> simp at interpreted
    | dropResponder | relay => simp [Session.handleMessage] at interpreted

/-- A client becomes authenticated only by such a packet, as the initiator with the key
of the path, and as a responder with the key of an earlier client-hello message. -/
theorem authentication_gate (environment : Environment) {before after : PacketServer}
    {action : Action} (ref : ClientRef) (reachable : (machine environment).Reachable before)
    (stepped : step environment before action = some after)
    (unknown : (before.client ref).state ≠ .authenticated)
    (known : (after.client ref).state = .authenticated) :
    ∃ packet, action = .receive ref (.binary packet) ∧
      ((after.client ref).id = initiatorAddress ∧
          Admits environment before ref before.initiatorKey packet ∨
        ∃ id : ResponderAddress, (after.client ref).id = id.toAddress ∧
          ∃ hello key, ⟨ref, hello, .clientHello key⟩ ∈ before.accepted ∧
            Admits environment before ref key packet) := by
  have sound := sound_of_reachable reachable
  have keys := keysSound_of_reachable reachable
  obtain ⟨acts, role⟩ := sound.admitted (step_server stepped) unknown known
  have noId (receiving : before.server.handler ref = .receivingFirst ∨
      before.server.handler ref = .receivingAuth) : (before.client ref).id = serverAddress := by
    have phase := sound.phase ref
    have handshaking : before.server.system.stage ref = .handshaking := by
      unfold Server.Phase at phase
      obtain receiving | receiving := receiving <;> rw [receiving] at phase <;> exact phase.1
    exact (sound.consistent.handshaking ref handshaking).2
  cases action with
  | connect mover drawn offered => contradiction
  | other action =>
      change action = _ at acts
      subst acts
      simp [step, Server.Action.ofPackets] at stepped
  | receive mover frame =>
      injection acts with same received
      subst same
      cases interpreted : before.interpret environment mover frame with
      | mk session rest =>
          obtain ⟨input, accepted⟩ := rest
          rw [interpreted] at received
          change input = _ at received
          subst received
          obtain ⟨receiving, id⟩ | ⟨receiving, slot, id⟩ := role
          · obtain ⟨clientKey, boxes⟩ := keys.greeting mover (by rw [receiving]; trivial)
            have box : (before.session mover).readBox.2 =
                ((before.session mover).drawn.serverKey, before.initiatorKey) := by
              unfold Session.readBox
              split
              · next box found => exact boxes box found
              · rw [clientKey]
            obtain ⟨packet, rfl, admits⟩ := interpret_clientAuth unknown (noId (.inl receiving))
              (.inl receiving) box interpreted
            exact ⟨packet, rfl, .inl ⟨id, admits⟩⟩
          · obtain ⟨hello, key, entry, found⟩ := keys.receivingAuth mover receiving
            have box : (before.session mover).readBox.2 =
                ((before.session mover).drawn.serverKey, key) := by
              rw [Session.readBox, found]
            obtain ⟨packet, rfl, admits⟩ := interpret_clientAuth unknown (noId (.inr receiving))
              (.inr receiving) box interpreted
            exact ⟨packet, rfl, .inr ⟨slot, id, hello, key, entry, admits⟩⟩

/-- The payload of one byte is a client-auth message for a cookie of zeros. -/
def admittingEnvironment : Environment :=
  .keyless
    (fun payload => if payload = [0x01] then some (.dict [(.str "type", .str "client-auth"),
      (.str "your_cookie", .bytes (List.replicate 16 0)),
      (.str "subprotocols", .list [.str "v1.saltyrtc.org"])]) else none)
    openPayload ["v1.saltyrtc.org"]

/-- It is sealed by the client that the path is named after. -/
def admittedPacket : List UInt8 :=
  let nonce := Nonce.pack onesCookie serverAddress serverAddress 0
  nonce ++ sealPayload ([0x02], examplePublicKey zeroDrawn.serverKey) nonce [0x01]

theorem authentication_gate_initiator : ∃ before after : PacketServer,
    step admittingEnvironment before (.receive 0 (.binary admittedPacket)) = some after ∧
      (after.client 0).id = initiatorAddress ∧
      Admits admittingEnvironment before 0 before.initiatorKey admittedPacket := by
  let start : PacketServer := ⟨Server.created (examplePublicKey [0x02]) 1,
    fun _ => Session.new zeroDrawn [], fun _ => .saltyrtcV1, []⟩
  have first : (machine admittingEnvironment).initial start :=
    ⟨Server.initial_created (examplePublicKey [0x02]) 1, rfl⟩
  obtain ⟨before, reachable, after, stepped, id, unknown, known⟩ : ∃ before,
      (machine admittingEnvironment).Reachable before ∧ ∃ after,
        step admittingEnvironment before (.receive 0 (.binary admittedPacket)) = some after ∧
        (after.client 0).id = initiatorAddress ∧ (before.client 0).state ≠ .authenticated ∧
        (after.client 0).state = .authenticated :=
    ⟨_, Machine.reachable_of_run first [.connect 0 zeroDrawn ["v1.saltyrtc.org"],
      .other (.begin 0), .other (.sent 0)] rfl, _, rfl, by decide +kernel, by decide +kernel,
      by decide +kernel⟩
  obtain ⟨packet, same, ⟨_, admits⟩ | ⟨slot, responder, _⟩⟩ :=
    authentication_gate admittingEnvironment 0 reachable stepped unknown known
  · cases same
    exact ⟨before, after, stepped, id, admits⟩
  · rw [responder] at id
    exact absurd id slot.ne_initiatorAddress

end PacketServer

end SaltyRtcServer
