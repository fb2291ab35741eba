import SaltyRtcServer.HandlerMoves
import SaltyRtcServer.ProtocolClient

/-!
# A client that follows the protocol

One connection of the server is that of a client of the tests.  It sends its
handshake, and once it is authenticated it sends what its role permits; its
packets arrive in the order in which they were sent.  All else is arbitrary:
what the other connections send, and in which order the coroutines run.

The session of the client expects the packet that arrives next.  Hence the
server always understands the client.
-/

namespace SaltyRtcServer

open StepMachine

/-- How far the client has come with its handshake. -/
inductive ClientProgress
  | silent
  | greeted
  | authenticating
  deriving DecidableEq

/-- The server with the state of the client: the number of its next message, and the
packets that have not arrived yet. -/
structure Conversation where
  server : PacketServer
  progress : ClientProgress
  number : Nat
  inFlight : List (ClientRequest × List UInt8)

namespace Server

variable {before after : Server} {action : Action} {ref : ClientRef}

/-- A client that stays authenticated keeps its id and its role. -/
theorem Sound.authenticated_kept (sound : before.Sound) (stepped : before.step action = some after)
    (was : (before.system.client ref).state = .authenticated)
    (still : (after.system.client ref).state = .authenticated) :
    (after.system.client ref).id = (before.system.client ref).id ∧
      (after.system.client ref).type = (before.system.client ref).type := by
  have effects := sound.effects stepped
  clear stepped
  induction effects with
  | refl => exact ⟨rfl, rfl⟩
  | tail first effect ih =>
      have stages := (Effects.sound first ⟨sound.tasks, sound.stages⟩).2
      obtain keeps | admitted := effect.client stages (by rw [still]; simp)
      · obtain ⟨id, type⟩ := ih (keeps.state still)
        exact ⟨keeps.id.trans id, keeps.type.trans type⟩
      · have handshaking : before.system.stage ref = .handshaking := by
          have phase := sound.phase ref
          unfold Phase at phase
          obtain ⟨receiving, _⟩ | ⟨receiving, _⟩ := admitted.role <;> rw [receiving] at phase <;>
            exact phase.1
        rw [(sound.consistent.handshaking ref handshaking).1] at was
        contradiction

end Server

namespace PathClient

theorem eq_of_fields {one other : PathClient} (state : one.state = other.state)
    (id : one.id = other.id) (type : one.type = other.type) : one = other := by
  obtain ⟨_, _, _⟩ := one
  obtain ⟨_, _, _⟩ := other
  cases state
  cases id
  cases type
  rfl

/-- What an authenticated client sends. -/
def Sends (peer : PathClient) : ClientRequest → Prop
  | .clientHello | .clientAuth => False
  | .dropResponder _ _ => peer.id = initiatorAddress
  | .relay destination _ number data =>
      peer.P2pAllowed destination.type ∧ destination ≠ serverAddress ∧ number < 2 ^ 48 ∧ data ≠ []

instance (peer : PathClient) (request : ClientRequest) : Decidable (peer.Sends request) := by
  cases request <;> unfold Sends <;> infer_instance

end PathClient

namespace Conversation

variable {environment : Environment} (packages : environment.ClientPackages)
  (client : ProtocolClient) (ref : ClientRef)

def peer (state : Conversation) : PathClient := state.server.client ref

def session (state : Conversation) : Session := state.server.session ref

def handler (state : Conversation) : Handler := state.server.server.handler ref

/-- The client may send the request now.  Its client-hello message is not taken for an
encrypted one. -/
def MaySend (environment : Environment) (state : Conversation) (packet : List UInt8) :
    ClientRequest → Prop
  | .clientHello =>
      client.isInitiator = false ∧ state.progress = .silent ∧
        environment.decrypt ((state.session ref).drawn.serverKey, state.server.initiatorKey)
          (packet.take nonceLength) (packet.drop nonceLength) = none
  | .clientAuth => state.progress = if client.isInitiator then .silent else .greeted
  | request => (state.peer ref).state = .authenticated ∧ (state.peer ref).Sends request

instance (environment : Environment) (state : Conversation) (packet : List UInt8)
    (request : ClientRequest) :
    Decidable (state.MaySend client ref environment packet request) := by
  cases request <;> unfold MaySend <;> infer_instance

/-- Steps of others, and the connection of the client. -/
def Others : PacketServer.Action → Prop
  | .connect mover drawn offered =>
      mover = ref → offered = client.subprotocols ∧ client.cookie ≠ drawn.cookieOut
  | .receive mover _ => mover ≠ ref
  | .other _ => True

instance (action : PacketServer.Action) : Decidable (Others client ref action) := by
  cases action <;> unfold Others <;> infer_instance

inductive Action
  | others (action : PacketServer.Action)
  | send (request : ClientRequest)
  | deliver

def progressAfter (progress : ClientProgress) : ClientRequest → ClientProgress
  | .clientHello => .greeted
  | .clientAuth => .authenticating
  | _ => progress

/-- The number after a request. -/
def numberAfter (number : Nat) (request : ClientRequest) : Nat :=
  if request.isToServer then number + 1 else number

def send (state : Conversation) (request : ClientRequest) : Option Conversation :=
  match client.packet packages (state.session ref).drawn (state.peer ref).id state.number
      request with
  | none => none
  | some packet =>
      if state.handler ref ≠ .absent ∧ state.MaySend client ref environment packet request ∧
          (request.isToServer = true → state.number < 2 ^ 48) then
        some { state with
          progress := progressAfter state.progress request
          number := numberAfter state.number request
          inFlight := state.inFlight ++ [(request, packet)] }
      else none

def step (state : Conversation) : Action → Option Conversation
  | .others action =>
      if Others client ref action then
        (PacketServer.step environment state.server action).map fun server =>
          { state with server := server }
      else none
  | .send request => state.send packages client ref request
  | .deliver =>
      match state.inFlight with
      | [] => none
      | (_, packet) :: rest =>
          (PacketServer.receive environment state.server ref (.binary packet)).map fun server =>
            { state with server := server, inFlight := rest }

/-- The initiator connects to the path of its key; a permanent key that the client asks
for is one of the server. -/
def machine : Machine Conversation Action where
  initial state :=
    (PacketServer.machine environment).initial state.server ∧ state.progress = .silent ∧
      state.number = client.firstNumber ∧ state.inFlight = [] ∧
      (client.isInitiator = true → state.server.initiatorKey = packages.publicKey client.key) ∧
      ∀ key ∈ client.permanentKey, key.1 ∈ environment.keys.map Prod.fst
  step := step packages client ref

variable {packages client ref} {before after state : Conversation} {action : Action}

theorem server_reachable (reachable : (machine packages client ref).Reachable state) :
    (PacketServer.machine environment).Reachable state.server := by
  apply reachable.project Conversation.server
  · intro state initial
    exact initial.1
  · intro before after action _ _ stepped
    change step packages client ref before action = some after at stepped
    cases action with
    | others action =>
        simp only [step] at stepped
        split at stepped
        · obtain ⟨server, moved, rfl⟩ := Option.map_eq_some_iff.mp stepped
          refine ⟨[action], ?_⟩
          rw [Machine.run_cons]
          change (PacketServer.step environment before.server action).bind _ = _
          rw [moved]
          rfl
        · contradiction
    | send request =>
        simp only [step, send] at stepped
        split at stepped
        · contradiction
        · split at stepped
          · cases stepped
            exact ⟨[], rfl⟩
          · contradiction
    | deliver =>
        simp only [step] at stepped
        split at stepped
        · contradiction
        · next packet rest _ =>
          obtain ⟨server, received, rfl⟩ := Option.map_eq_some_iff.mp stepped
          refine ⟨[.receive ref (.binary packet)], ?_⟩
          rw [Machine.run_cons]
          change (PacketServer.receive environment before.server ref (.binary packet)).bind _ = _
          rw [received]
          rfl

/-- The packets are numbered one after the other. -/
def Numbered (packages : environment.ClientPackages) (client : ProtocolClient) (drawn : Drawn)
    (id : Address) : Nat → List (ClientRequest × List UInt8) → Nat → Prop
  | number, [], next => number = next
  | number, (request, packet) :: rest, next =>
      client.packet packages drawn id number request = some packet ∧
        (request.isToServer = true → number < 2 ^ 48) ∧
        Numbered packages client drawn id (numberAfter number request) rest next

theorem Numbered.append {drawn : Drawn} {id : Address} {number next : Nat}
    {packets : List (ClientRequest × List UInt8)} {request : ClientRequest} {packet : List UInt8}
    (numbered : Numbered packages client drawn id number packets next)
    (packed : client.packet packages drawn id next request = some packet)
    (small : request.isToServer = true → next < 2 ^ 48) :
    Numbered packages client drawn id number (packets ++ [(request, packet)])
      (numberAfter next request) := by
  induction packets generalizing number with
  | nil =>
      cases numbered
      exact ⟨packed, small, rfl⟩
  | cons first rest ih => exact ⟨numbered.1, numbered.2.1, ih numbered.2.2⟩

/-- What the client has sent before the server received anything of it. -/
def Opening (environment : Environment) (client : ProtocolClient) (drawn : Drawn)
    (initiatorKey : PublicKey) (progress : ClientProgress) :
    List (ClientRequest × List UInt8) → Prop
  | [] => progress = .silent
  | (.clientAuth, _) :: rest =>
      client.isInitiator = true ∧ progress = .authenticating ∧ rest = []
  | (.clientHello, packet) :: rest =>
      client.isInitiator = false ∧
        environment.decrypt (drawn.serverKey, initiatorKey) (packet.take nonceLength)
          (packet.drop nonceLength) = none ∧
        (progress = .greeted ∧ rest = [] ∨
          progress = .authenticating ∧ rest.map Prod.fst = [.clientAuth])
  | _ => False

section Opening

variable {drawn : Drawn} {initiatorKey : PublicKey} {progress : ClientProgress}
  {packets : List (ClientRequest × List UInt8)}

theorem Opening.empty (opening : Opening environment client drawn initiatorKey progress packets)
    (silent : progress = .silent) : packets = [] := by
  subst silent
  match packets, opening with
  | [], _ => rfl
  | (.clientAuth, _) :: _, ⟨_, sent, _⟩ => contradiction
  | (.clientHello, _) :: _, ⟨_, _, .inl ⟨sent, _⟩⟩ => contradiction
  | (.clientHello, _) :: _, ⟨_, _, .inr ⟨sent, _⟩⟩ => contradiction

theorem Opening.authenticates
    (opening : Opening environment client drawn initiatorKey progress packets)
    (packet : List UInt8)
    (due : progress = if client.isInitiator then .silent else .greeted) :
    Opening environment client drawn initiatorKey .authenticating
      (packets ++ [(.clientAuth, packet)]) := by
  cases role : client.isInitiator with
  | true =>
      rw [role, if_pos rfl] at due
      rw [opening.empty due]
      exact ⟨role, rfl, rfl⟩
  | false =>
      rw [role, if_neg Bool.false_ne_true] at due
      subst due
      match packets, opening with
      | (.clientHello, _) :: _, ⟨_, closed, .inl ⟨_, empty⟩⟩ =>
          subst empty
          exact ⟨role, closed, .inr ⟨rfl, rfl⟩⟩

end Opening

/-- The server may still receive messages of the client. -/
def Listening (state : Conversation) (ref : ClientRef) : Prop :=
  (state.handler ref).Greeting ∨ state.handler ref = .receivingAuth ∨
    (state.peer ref).state = .authenticated

/-- The session of the client and the packets that have not arrived yet fit. -/
structure Sound (packages : environment.ClientPackages) (client : ProtocolClient)
    (ref : ClientRef) (state : Conversation) : Prop where
  path : client.isInitiator = true → state.server.initiatorKey = packages.publicKey client.key
  permanentKey : ∀ key ∈ client.permanentKey, key.1 ∈ environment.keys.map Prod.fst
  absent : state.handler ref = .absent →
    state.progress = .silent ∧ state.inFlight = [] ∧ state.number = client.firstNumber
  negotiated : state.handler ref ≠ .absent →
    selectSubprotocol environment client.subprotocols environment.subprotocols =
      some SubProtocol.saltyrtcV1.value
  hears : state.Listening ref → ∃ number, (state.session ref).Hears client number ∧
    Numbered packages client (state.session ref).drawn (state.peer ref).id number state.inFlight
      state.number
  greeting : (state.handler ref).Greeting →
    Opening environment client (state.session ref).drawn state.server.initiatorKey
      state.progress state.inFlight
  receivingAuth : state.handler ref = .receivingAuth →
    client.isInitiator = false ∧ (state.progress = .greeted ∧ state.inFlight = [] ∨
      state.progress = .authenticating ∧ state.inFlight.map Prod.fst = [.clientAuth])
  authenticated : (state.peer ref).state = .authenticated →
    state.progress = .authenticating ∧
      ∀ entry ∈ state.inFlight, (state.peer ref).Sends entry.1
  boxed : state.handler ref = .receivingAuth ∨ (state.peer ref).state = .authenticated →
    (state.session ref).Boxed packages client
  acquainted : (state.peer ref).state = .authenticated →
    (state.session ref).Acquainted packages client

section Received

/-- What the handler is to receive for a packet of the client. -/
def meaning (packet : List UInt8) : ClientRequest → Received
  | .clientHello => .clientHello (.ok ())
  | .clientAuth => .clientAuth (.ok ())
  | .dropResponder id reason => .dropResponder id (reason.getD .dropByInitiator)
  | .relay destination _ _ _ => .relay destination packet

/-- The handler waits for a message, or the receive loop of an authenticated client
does. -/
def Receiving (state : Conversation) (ref : ClientRef) : Prop :=
  state.handler ref = .receivingFirst ∨ state.handler ref = .receivingAuth ∨
    (state.peer ref).state = .authenticated

theorem Receiving.listening (receiving : state.Receiving ref) : state.Listening ref := by
  obtain first | second | known := receiving
  · exact .inl (by rw [first]; trivial)
  · exact .inr (.inl second)
  · exact .inr (.inr known)

variable {request : ClientRequest} {packet : List UInt8}
  {rest : List (ClientRequest × List UInt8)}

/-- A client in its handshake. -/
theorem restricted_of_handshake
    (reachable : (PacketServer.machine environment).Reachable state.server)
    (handshaking : (state.handler ref).Greeting ∨ state.handler ref = .receivingAuth) :
    (state.peer ref).state = .restricted ∧ (state.peer ref).id = serverAddress := by
  have sound := PacketServer.sound_of_reachable reachable
  have stage : state.server.server.system.stage ref = .handshaking := by
    have phase := sound.phase ref
    unfold Server.Phase at phase
    unfold handler at handshaking
    cases current : state.server.server.handler ref <;> simp only [current] at phase handshaking <;>
      first
        | exact phase.1
        | exact (handshaking.resolve_right (by simp)).elim
  exact sound.consistent.handshaking ref stage

theorem greeting_of_receivingFirst (first : state.handler ref = .receivingFirst) :
    (state.handler ref).Greeting := by
  rw [first]
  trivial

/-- The keys of a client whose first message is expected. -/
theorem keys_greeting (reachable : (PacketServer.machine environment).Reachable state.server)
    (greeting : (state.handler ref).Greeting) :
    (state.session ref).clientKey = state.server.initiatorKey ∧
      (state.session ref).readBox.2 =
        ((state.session ref).drawn.serverKey, state.server.initiatorKey) := by
  obtain ⟨clientKey, boxes⟩ :=
    (PacketServer.keysSound_of_reachable reachable).greeting ref greeting
  refine ⟨clientKey, ?_⟩
  unfold Session.readBox
  split
  · next box found => exact boxes box found
  · exact congrArg (Prod.mk _) clientKey

/-- They are those of an initiator. -/
theorem Sound.boxed_greeting (sound : state.Sound packages client ref)
    (reachable : (PacketServer.machine environment).Reachable state.server)
    (greeting : (state.handler ref).Greeting) (initiator : client.isInitiator = true) :
    (state.session ref).Boxed packages client := by
  obtain ⟨clientKey, box⟩ := keys_greeting reachable greeting
  rw [sound.path initiator] at clientKey box
  exact ⟨clientKey, box⟩

/-- The packet that arrives next is read as the message that the client means. -/
theorem Sound.unpacked (sound : state.Sound packages client ref)
    (reachable : (PacketServer.machine environment).Reachable state.server)
    (receiving : state.Receiving ref) (next : state.inFlight = (request, packet) :: rest) :
    ∃ after number, (state.session ref).receive environment (state.peer ref) (.binary packet) =
        .returned after
          (client.message packages (state.session ref).drawn (state.peer ref).id packet request) ∧
      after.Hears client (numberAfter number request) ∧ (state.session ref).SameKeys after ∧
      (if request.isToServer then after.cookieIn = some client.cookie
        else after = state.session ref) ∧
      Numbered packages client (state.session ref).drawn (state.peer ref).id
        (numberAfter number request) rest state.number := by
  obtain ⟨number, hears, numbered⟩ := sound.hears receiving.listening
  rw [next] at numbered
  obtain ⟨packed, isSmall, numbered⟩ := numbered
  have learned (small : number < 2 ^ 48) (toServer : request.isToServer = true) :
      ((state.session ref).learn (client.nonce (state.peer ref).id small)).readBox.1.Hears client
          (numberAfter number request) ∧
        (state.session ref).SameKeys
          ((state.session ref).learn (client.nonce (state.peer ref).id small)).readBox.1 ∧
        if request.isToServer then
          ((state.session ref).learn (client.nonce (state.peer ref).id small)).readBox.1.cookieIn =
            some client.cookie
        else ((state.session ref).learn (client.nonce (state.peer ref).id small)).readBox.1 =
          state.session ref := by
    have alike := Session.alike_readBox
      ((state.session ref).learn (client.nonce (state.peer ref).id small))
    refine ⟨?_, (Session.sameKeys_learn _ _).trans alike.toSameKeys, ?_⟩
    · rw [numberAfter, if_pos toServer]
      exact (Session.hears_learn _ client _ small).alike alike
    · rw [if_pos toServer]
      exact alike.cookieIn
  obtain first | second | known := receiving
  · have greeting := greeting_of_receivingFirst first
    have restricted := (restricted_of_handshake reachable (.inl greeting)).1
    have unauthenticated : (state.peer ref).state ≠ .authenticated := by simp [restricted]
    have opening := sound.greeting greeting
    rw [next] at opening
    cases request with
    | clientHello =>
        obtain ⟨_, closed, _⟩ := opening
        refine ⟨_, number, IncomingMessage.unpack_clientHello hears (isSmall rfl) unauthenticated
          packed ?_, ?_⟩
        · rw [IncomingMessage.decrypted, (keys_greeting reachable greeting).2]
          exact closed
        · obtain ⟨hears, same, cookie⟩ := learned (isSmall rfl) rfl
          exact ⟨hears, same, cookie, numbered⟩
    | clientAuth =>
        have boxed := sound.boxed_greeting reachable greeting opening.1
        obtain ⟨hears', same, cookie⟩ := learned (isSmall rfl) rfl
        exact ⟨_, number, IncomingMessage.unpack_clientAuth hears (isSmall rfl) boxed
          unauthenticated packed, hears', same, cookie, numbered⟩
    | dropResponder | relay => exact opening.elim
  · have restricted := (restricted_of_handshake reachable (.inr second)).1
    have unauthenticated : (state.peer ref).state ≠ .authenticated := by simp [restricted]
    obtain ⟨_, ⟨_, empty⟩ | ⟨_, waiting⟩⟩ := sound.receivingAuth second
    · rw [empty] at next
      contradiction
    · rw [next, List.map_cons, List.cons.injEq] at waiting
      obtain ⟨rfl, _⟩ := waiting
      obtain ⟨hears', same, cookie⟩ := learned (isSmall rfl) rfl
      exact ⟨_, number, IncomingMessage.unpack_clientAuth hears (isSmall rfl)
        (sound.boxed (.inl second)) unauthenticated packed, hears', same, cookie, numbered⟩
  · have role := PacketServer.hasRole_of_reachable reachable
      (show (state.server.client ref).state ≠ .restricted by
        rw [show (state.server.client ref).state = .authenticated from known]; simp)
    have boxed := sound.boxed (.inr known)
    have sends : (state.peer ref).Sends request :=
      (sound.authenticated known).2 (request, packet) (by simp [next])
    cases request with
    | clientHello | clientAuth => exact sends.elim
    | dropResponder id reason =>
        have typed : (state.peer ref).type = some .initiator := by
          obtain ⟨_, type⟩ | ⟨⟨id, responder⟩, _⟩ := role
          · exact type
          · rw [show (state.server.client ref).id = _ from sends] at responder
            exact absurd responder.symm id.ne_initiatorAddress
        obtain ⟨hears', same, cookie⟩ := learned (isSmall rfl) rfl
        exact ⟨_, number, IncomingMessage.unpack_dropResponder hears (isSmall rfl) boxed known
          ⟨sends, typed⟩ packed, hears', same, cookie, numbered⟩
    | relay destination cookie own data =>
        obtain ⟨allowed, toClient, small, filled⟩ := sends
        have assigned : (state.peer ref).id ≠ serverAddress := by
          obtain ⟨id, _⟩ | ⟨⟨id, responder⟩, _⟩ := role
          · rw [show (state.peer ref).id = _ from id]
            decide
          · rw [show (state.peer ref).id = _ from responder]
            exact id.ne_serverAddress
        cases packed
        exact ⟨_, number, IncomingMessage.unpack_relayed small filled assigned toClient allowed,
          hears, .refl _, rfl, numbered⟩

/-- Messages of the handshake arrive in the handshake, and others after it. -/
theorem Sound.timely (sound : state.Sound packages client ref) (receiving : state.Receiving ref)
    (next : state.inFlight = (request, packet) :: rest) :
    if request.isHandshake then
      state.handler ref = .receivingFirst ∨ state.handler ref = .receivingAuth
    else (state.peer ref).state = .authenticated := by
  obtain first | second | known := receiving
  · have opening := sound.greeting (greeting_of_receivingFirst first)
    rw [next] at opening
    cases request with
    | clientHello | clientAuth => exact .inl first
    | dropResponder | relay => exact opening.elim
  · obtain ⟨_, ⟨_, empty⟩ | ⟨_, waiting⟩⟩ := sound.receivingAuth second
    · rw [empty] at next
      contradiction
    · rw [next, List.map_cons, List.cons.injEq] at waiting
      obtain ⟨rfl, _⟩ := waiting
      exact .inr second
  · have sends := (sound.authenticated known).2 (request, packet) (by simp [next])
    cases request with
    | clientHello | clientAuth => exact sends.elim
    | dropResponder | relay => exact known

theorem interpret_returned {after : Session} {message : IncomingMessage}
    (received : (state.session ref).receive environment (state.peer ref) (.binary packet) =
      .returned after message) :
    state.server.interpret environment ref (.binary packet) =
      ((after.handleMessage environment (state.server.subprotocol ref) (state.handler ref)
          message).1,
        (after.handleMessage environment (state.server.subprotocol ref) (state.handler ref)
          message).2, [⟨ref, packet, message⟩]) := by
  unfold PacketServer.interpret
  split
  · next found =>
    rw [show (state.server.session ref).receive environment (state.server.client ref) _ = _ from
      received] at found
    contradiction
  · next found =>
    rw [show (state.server.session ref).receive environment (state.server.client ref) _ = _ from
      received] at found
    cases found
    rfl

/-- The packet that arrives next has the effect that the client means, and the session
expects the packet after it. -/
theorem Sound.interpreted (sound : state.Sound packages client ref)
    (reachable : (PacketServer.machine environment).Reachable state.server)
    (receiving : state.Receiving ref) (next : state.inFlight = (request, packet) :: rest) :
    ∃ after number accepted, state.server.interpret environment ref (.binary packet) =
        (after, meaning packet request, accepted) ∧
      after.Hears client (numberAfter number request) ∧ after.drawn = (state.session ref).drawn ∧
      after.Boxed packages client ∧
      (request = .clientAuth ∨ (state.session ref).Acquainted packages client →
        after.Acquainted packages client) ∧
      Numbered packages client (state.session ref).drawn (state.peer ref).id
        (numberAfter number request) rest state.number := by
  obtain ⟨middle, number, received, hears, same, cookie, numbered⟩ :=
    sound.unpacked reachable receiving next
  have interpreted := interpret_returned received
  have key : middle.serverPermanentKey = (state.session ref).serverPermanentKey :=
    IncomingMessage.unpack_permanentKey received
  have connected : state.handler ref ≠ .absent := by
    intro absent
    rw [(sound.absent absent).2.1] at next
    contradiction
  have timely := sound.timely receiving next
  cases request with
  | clientHello =>
      have first : state.handler ref = .receivingFirst := by
        obtain first | second := timely
        · exact first
        · obtain ⟨_, ⟨_, empty⟩ | ⟨_, waiting⟩⟩ := sound.receivingAuth second
          · rw [empty] at next
            contradiction
          · simp [next] at waiting
      have handled : middle.handleMessage environment (state.server.subprotocol ref)
          (state.handler ref) (client.message packages (state.session ref).drawn
            (state.peer ref).id packet .clientHello) =
          ({ middle with
            clientKey := packages.publicKey client.key
            box := some (middle.drawn.serverKey, packages.publicKey client.key) },
            .clientHello (.ok ())) := by
        simp only [ProtocolClient.message, Session.handleMessage, first, if_true,
          Session.setClientKey, packages.accepts_publicKey]
      rw [handled] at interpreted
      refine ⟨_, number, _, interpreted, ⟨hears.cookie, hears.number⟩, same.drawn, ⟨rfl, rfl⟩, ?_,
        numbered⟩
      rintro (auth | acquainted)
      · contradiction
      · exact ⟨cookie, by rw [key]; exact acquainted.permanentKey⟩
  | clientAuth =>
      have expected : state.handler ref = .receivingFirst ∨ state.handler ref = .receivingAuth :=
        timely
      have stays : (state.session ref).Boxed packages client := by
        obtain first | second := expected
        · have greeting := greeting_of_receivingFirst first
          have opening := sound.greeting greeting
          rw [next] at opening
          exact sound.boxed_greeting reachable greeting opening.1
        · exact sound.boxed (.inl second)
      have negotiated : selectSubprotocol environment client.subprotocols
          environment.subprotocols = some (state.server.subprotocol ref).value := by
        cases state.server.subprotocol ref
        exact sound.negotiated connected
      obtain ⟨after, valid, alike, acquainted⟩ := Session.handleClientAuth_client packages middle
        negotiated sound.permanentKey
      have handled : middle.handleMessage environment (state.server.subprotocol ref)
          (state.handler ref) (client.message packages (state.session ref).drawn
            (state.peer ref).id packet .clientAuth) = (after, .clientAuth (.ok ())) := by
        rw [ProtocolClient.message, Session.handleMessage, if_pos expected, ← same.drawn, valid]
      rw [handled] at interpreted
      exact ⟨after, number, _, interpreted, hears.alike alike,
        alike.drawn.trans same.drawn, (stays.same same).same alike.toSameKeys,
        fun _ => acquainted cookie, numbered⟩
  | dropResponder id reason =>
      refine ⟨middle, number, _, interpreted, hears, same.drawn,
        (sound.boxed (.inr timely)).same same, ?_, numbered⟩
      rintro (auth | acquainted)
      · contradiction
      · exact ⟨cookie, by rw [key]; exact acquainted.permanentKey⟩
  | relay =>
      refine ⟨middle, number, _, interpreted, hears, same.drawn,
        (sound.boxed (.inr timely)).same same, ?_, numbered⟩
      rintro (auth | acquainted)
      · contradiction
      · rwa [show middle = state.session ref from cookie]

end Received

end Conversation

end SaltyRtcServer
