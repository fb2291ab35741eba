import SaltyRtcServer.IncomingMessage
import SaltyRtcServer.Authentication
import Mathlib.Data.List.Sort

/-!
# The server on the level of packets

What the handlers receive is computed here from the bytes on the connection:
the packet is unpacked with the session of its client, and a client-auth message
is checked.  Every step of this machine is a step of the machine of the
handlers, whose inputs are thereby shown to come from packets.

The list of accepted messages is an observation.
-/

namespace SaltyRtcServer

open StepMachine

/-- `common.SubProtocol`. -/
inductive SubProtocol
  | saltyrtcV1
  deriving DecidableEq, Repr

def SubProtocol.value : SubProtocol → String
  | .saltyrtcV1 => "v1.saltyrtc.org"

/-- `ServerProtocol.select_subprotocol`. -/
def selectSubprotocol (environment : Environment) (client server : List String) : Option String :=
  let priority (subprotocol : String) := client.idxOf subprotocol + server.idxOf subprotocol
  match environment.common client server with
  | [] => none
  | subprotocols => (subprotocols.insertionSort fun first second =>
      priority first ≤ priority second).head?

/-- A frame of the connection. -/
inductive Frame
  | binary (packet : List UInt8)
  | text

namespace Session

/-- The choice of the permanent key in `_handle_client_auth`. -/
def chooseKey (environment : Environment) (session : Session) :
    Option PublicKey → Session × Except PacketError Unit
  | some key =>
      if environment.keys = [] then
        (session, .error ⟨.serverKeyError "Server does not have a permanent public key", rfl⟩)
      else
        match environment.keys.lookup key with
        | none => (session, .error
            ⟨.serverKeyError "Server does not have the requested permanent public key", rfl⟩)
        | some serverKey => ({ session with serverPermanentKey := some serverKey }, .ok ())
  | none =>
      match environment.keys with
      | [] => (session, .ok ())
      | (_, primary) :: _ => ({ session with serverPermanentKey := some primary }, .ok ())

/-- `ServerProtocol._handle_client_auth`. -/
def handleClientAuth (environment : Environment) (subprotocol : SubProtocol) (session : Session)
    (clientAuth : ClientAuth) : Session × Except PacketError Unit :=
  if clientAuth.yourCookie ≠ session.drawn.cookieOut then
    (session, .error ⟨.messageError "Cookies do not match", rfl⟩)
  else if selectSubprotocol environment clientAuth.subprotocols environment.subprotocols ≠
      some subprotocol.value then
    (session, .error ⟨.downgradeError "Subprotocol downgrade detected", rfl⟩)
  else
    let session := match clientAuth.pingInterval with
      | none => session
      | some interval => session.setKeepAliveInterval interval
    session.chooseKey environment clientAuth.yourKey

/-- `PathClient.receive`, for a frame that arrives. -/
def receive (environment : Environment) (session : Session) (client : PathClient) :
    Frame → Call Session IncomingMessage
  | .text => .raised session (.messageError
      "Data must be 'bytes', not '<class 'saltyrtc.splice.splicetypes.SpliceStr'>'")
  | .binary packet => IncomingMessage.unpack environment session client packet

theorem receive_raises (environment : Environment) (session : Session) (client : PathClient)
    (frame : Frame) : (session.receive environment client frame).RaisesPacketError := by
  cases frame with
  | text => exact .raised _ rfl
  | binary packet => exact IncomingMessage.unpack_raises _ _ _ _

/-- What a handler does with a message before it acts on it. -/
def handleMessage (environment : Environment) (subprotocol : SubProtocol) (session : Session)
    (handler : Handler) : IncomingMessage → Session × Received
  | .clientHello key =>
      if handler = .receivingFirst then
        let (session, verdict) := session.setClientKey environment.accepts key
        (session, .clientHello verdict)
      else (session, .clientHello (.ok ()))
  | .clientAuth message =>
      if handler = .receivingFirst ∨ handler = .receivingAuth then
        let (session, verdict) := session.handleClientAuth environment subprotocol message
        (session, .clientAuth verdict)
      else (session, .clientAuth (.ok ()))
  | .dropResponder id reason => (session, .dropResponder id reason)
  | .relay _ destination packet => (session, .relay destination packet)

end Session

/-- A packet that was unpacked, with the message it was. -/
structure Accepted where
  client : ClientRef
  packet : List UInt8
  message : IncomingMessage

/-- The actions that packets describe. -/
def Server.Action.ofPackets : Server.Action → Bool
  | .connect _ _ | .receive _ _ => true
  | _ => false

structure PacketServer where
  server : Server
  session : ClientRef → Session
  subprotocol : ClientRef → SubProtocol
  accepted : List Accepted

namespace PacketServer

inductive Action
  /-- a new connection, with the sub-protocols that it offers -/
  | connect (ref : ClientRef) (drawn : Drawn) (offered : List String)
  | receive (ref : ClientRef) (frame : Frame)
  | other (action : Server.Action)

def client (state : PacketServer) (ref : ClientRef) : PathClient := state.server.system.client ref

def initiatorKey (state : PacketServer) : PublicKey := state.server.system.path.initiatorKey

/-- What the handler of a client makes of a frame. -/
def interpret (environment : Environment) (state : PacketServer) (ref : ClientRef)
    (frame : Frame) : Session × Received × List Accepted :=
  match received : (state.session ref).receive environment (state.client ref) frame with
  | .raised session exception =>
      (session, .invalid ⟨exception, Session.receive_raises _ _ _ _ _ _ received⟩, [])
  | .returned session message =>
      let (session, input) := session.handleMessage environment (state.subprotocol ref)
        (state.server.handler ref) message
      (session, input,
        match frame with
        | .text => []
        | .binary packet => [⟨ref, packet, message⟩])

/-- A connection is handled only if the sub-protocol could be negotiated. -/
def connect (environment : Environment) (state : PacketServer) (ref : ClientRef) (drawn : Drawn)
    (offered : List String) : Option PacketServer :=
  if selectSubprotocol environment offered environment.subprotocols =
      some SubProtocol.saltyrtcV1.value then
    let session := Session.new drawn state.initiatorKey
    (state.server.step (.connect ref session.initialNumber)).map fun server =>
      { state with
        server := server
        session := Function.update state.session ref session
        subprotocol := Function.update state.subprotocol ref .saltyrtcV1 }
  else none

def receive (environment : Environment) (state : PacketServer) (ref : ClientRef)
    (frame : Frame) : Option PacketServer :=
  let (session, input, accepted) := state.interpret environment ref frame
  (state.server.step (.receive ref input)).map fun server =>
    { state with
      server := server
      session := Function.update state.session ref session
      accepted := state.accepted ++ accepted }

def step (environment : Environment) (state : PacketServer) : Action → Option PacketServer
  | .connect ref drawn offered => state.connect environment ref drawn offered
  | .receive ref frame => state.receive environment ref frame
  | .other action =>
      if action.ofPackets then none
      else (state.server.step action).map fun server => { state with server := server }

def machine (environment : Environment) : Machine PacketServer Action :=
  ⟨fun state => Server.machine.initial state.server ∧ state.accepted = [], step environment⟩

variable {environment : Environment} {before after state : PacketServer} {action : Action}

/-- The step of the handlers behind a step. -/
def serverAction (environment : Environment) (state : PacketServer) : Action → Server.Action
  | .connect ref drawn _ => .connect ref (Session.new drawn state.initiatorKey).initialNumber
  | .receive ref frame => .receive ref (state.interpret environment ref frame).2.1
  | .other action => action

/-- Every step is a step of the handlers. -/
theorem step_server (stepped : step environment before action = some after) :
    before.server.step (before.serverAction environment action) = some after.server := by
  cases action with
  | connect ref drawn offered =>
      simp only [step, connect] at stepped
      split at stepped
      · rw [Option.map_eq_some_iff] at stepped
        obtain ⟨server, stepped, rfl⟩ := stepped
        exact stepped
      · contradiction
  | receive ref frame =>
      simp only [step, receive] at stepped
      rw [Option.map_eq_some_iff] at stepped
      obtain ⟨server, stepped, rfl⟩ := stepped
      exact stepped
  | other action =>
      simp only [step] at stepped
      split at stepped
      · contradiction
      · rw [Option.map_eq_some_iff] at stepped
        obtain ⟨server, stepped, rfl⟩ := stepped
        exact stepped

/-- The handlers run as the machine without packets allows. -/
theorem server_reachable (reachable : (machine environment).Reachable state) :
    Server.machine.Reachable state.server := by
  apply reachable.project PacketServer.server
  · intro state initial
    exact initial.1
  · intro before after action _ _ stepped
    refine ⟨[before.serverAction environment action], ?_⟩
    rw [Machine.run_cons]
    change (before.server.step _).bind _ = _
    rw [step_server stepped]
    rfl

theorem sound_of_reachable (reachable : (machine environment).Reachable state) :
    state.server.Sound :=
  Server.sound_of_reachable (server_reachable reachable)

end PacketServer

end SaltyRtcServer
