import SaltyRtcServer.Hexadecimal
import SaltyRtcServer.PacketServer
import SaltyRtcServer.PathRegistry

/-!
# The whole server

The class `Server` accepts connections, finds the path of each, keeps the set of
the protocols that are served, and closes them all when it is closed itself.
What the protocols on one path do is the machine of `ServerRun`; here these
machines run side by side, one for each path object that `Paths.get` created.

The path and the number that `get` returned, and the events that were raised,
are recorded in the order in which this happened.

Deletion requests are left out: they replace keys of `Paths.paths` by synthesized
strings and cancel the tasks and jobs of a client.  The runs here are those in which
no such request arrives.
-/

namespace SaltyRtcServer

open StepMachine

/-- `exception.PathError`. -/
structure PathError where
  message : String
  deriving DecidableEq

/-- `SubProtocol(value)`; that the value is no member is caught. -/
def SubProtocol.ofValue : Option String → Option SubProtocol
  | some "v1.saltyrtc.org" => some .saltyrtcV1
  | _ => none

/-- `events.Event`. -/
inductive ServerEvent
  | initiatorConnected
  | responderConnected
  | disconnected
  deriving DecidableEq

/-- What the callbacks of an event are called with, and the connection that it is
about.  The reason of a disconnection is missing where the connection was closed
before the server chose a close code. -/
structure Notice where
  ref : ClientRef
  event : ServerEvent
  path : Option String
  data : Option CloseCode
  deriving DecidableEq

/-- A callback of the application. -/
abbrev Callback := Nat

/-- What a connection came with: its sub-protocol, and the path of its URL.  A deletion request
has a dictionary in place of the path. -/
structure Request where
  subprotocol : Option String
  path : String

/-- What became of a connection.  One that is refused is being closed first, and
may then raise an event; one that is served remembers the path of its URL. -/
inductive Admission
  | absent
  | refusing (code : CloseCode) (notifies : Bool)
  | refused (code : CloseCode)
  | failed (exception : PyException)
  | served (number : Nat) (path : String)
  deriving DecidableEq

/-- `Server._close_task`: not created, before its first step, waiting for the
handlers of the protocols it has closed, or ended. -/
inductive CloseTask
  | absent
  | scheduled
  | waiting (protocols : List (Nat × ClientRef))
  | closed
  | failed
  deriving DecidableEq

/-- `Paths` and `Server`. -/
structure SignalingServer where
  paths : PythonDict MapKey Nat
  number : Nat
  onPath : Nat → Server
  gets : List (List UInt8 × Nat)
  admission : ClientRef → Admission
  closeTask : CloseTask
  callbacks : ServerEvent → List Callback
  notices : List Notice
  calls : List (Callback × Notice)

namespace SignalingServer

/-- `ServerProtocol.PATH_LENGTH`. -/
def pathLength : Nat := 2 * 32

/-- The initiator key that `get_path_client` takes from the path of a URL. -/
def pathKey (path : String) : Except PathError (List UInt8) :=
  let digits := path.toList.drop 1
  if digits.length ≠ pathLength then
    .error ⟨"Invalid path length: " ++ toString digits.length⟩
  else
    match Hexadecimal.decode digits with
    | none => .error ⟨"Could not unhexlify path"⟩
    | some key => .ok key

/-- `binascii.hexlify` of a key, as the path of the events. -/
def hexPath (key : List UInt8) : String := String.ofList (Hexadecimal.encode key)

/-- The registry of paths, as far as it does not look into the protocols. -/
def registry (server : SignalingServer) : PathRegistry where
  paths := server.paths
  number := server.number
  system number := (server.onPath number).system
  gets := server.gets

/-- `Paths.get`, with the number of the path. -/
def get (server : SignalingServer) (key : List UInt8) : SignalingServer × Nat :=
  match server.paths.get? (PathRegistry.storeKey key) with
  | some number => ({ server with gets := (key, number) :: server.gets }, number)
  | none =>
      let number := server.number + 1
      ({ server with
          paths := server.paths.set (PathRegistry.storeKey key) number
          number := number
          onPath := Function.update server.onPath number (Server.created key number)
          gets := (key, number) :: server.gets }, number)

def setAdmission (server : SignalingServer) (ref : ClientRef) (admission : Admission) :
    SignalingServer :=
  { server with admission := Function.update server.admission ref admission }

/-- `Server._raise_event`: a task is created for each callback. -/
def raiseEvent (server : SignalingServer) (notice : Notice) : SignalingServer :=
  { server with
    notices := server.notices ++ [notice]
    calls := server.calls ++ (server.callbacks notice.event).map (·, notice) }

/-- `ServerProtocol(...)`. -/
def createProtocol (server : SignalingServer) (ref : ClientRef) (path : String) (csn : Nat) :
    Option SignalingServer :=
  match pathKey path with
  | .error _ => some (server.setAdmission ref (.refusing .protocolError true))
  | .ok key =>
      let (server, number) := server.get key
      match (server.onPath number).system.path.addPending ref with
      | .raised _ exception => some (server.setAdmission ref (.failed exception))
      | .returned _ _ =>
          ((server.onPath number).connect ref csn).map fun after =>
            { server with onPath := Function.update server.onPath number after }.setAdmission ref
              (.served number path)

/-- `Server.handler`, up to its first suspension, for a request that is not for a deletion: the
branch for those, between the first one and the choice of the sub-protocol, is left out. -/
def handler (server : SignalingServer) (ref : ClientRef) (request : Request) (csn : Nat) :
    Option SignalingServer :=
  if server.closeTask ≠ .absent then some (server.setAdmission ref (.refusing .goingAway false))
  else
    match SubProtocol.ofValue request.subprotocol with
    | none => some (server.setAdmission ref (.refusing .subprotocolError true))
    | some .saltyrtcV1 => server.createProtocol ref request.path csn

/-- `Paths.clean`, after a step in which the path may have been detached; that the
dictionary has no such key is only logged. -/
def clean (server : SignalingServer) (number : Nat) (attached : Bool) : SignalingServer :=
  let path := (server.onPath number).system.path
  if attached ∧ ¬ path.attached then
    { server with paths := server.paths.erase (.bytes path.initiatorKey) }
  else server

/-- The event that `handle_client` raises after a handshake that returned. -/
def connectedNotice (onPath : Server) (ref : ClientRef) : List Notice :=
  let path := some (hexPath onPath.system.path.initiatorKey)
  match onPath.system.path.hasClient ref (onPath.system.client ref) with
  | .error _ => []
  | .ok _ =>
      match (onPath.system.client ref).type with
      | some .initiator => [⟨ref, .initiatorConnected, path, none⟩]
      | some .responder => [⟨ref, .responderConnected, path, none⟩]
      | _ => []

/-- The close code of the task that closes the connection, as `handler` chose it. -/
def closingCode (onPath : Server) (closing : Option TaskId) : Option CloseCode :=
  closing.bind fun id =>
    match (onPath.loop.task id).body with
    | .run _ (.close code) => some code
    | _ => none

/-- The event that `handler` raises when `handle_client` has ended. -/
def disconnectedNotice (before after : Server) (ref : ClientRef) : List Notice :=
  match (before.handler ref), (after.handler ref) with
  | .joining _, _ => []
  | _, .joining closing =>
      [⟨ref, .disconnected, some (hexPath after.system.path.initiatorKey),
        closingCode after closing⟩]
  | _, _ => []

/-- The client whose handler an action resumes. -/
def resumes : Server.Action → Option ClientRef
  | .begin ref | .sent ref | .sendClosed ref _ | .receive ref _ | .receiveClosed ref _
  | .gathered ref | .result ref => some ref
  | _ => none

def connectedNotices (before : Server) : Server.Action → List Notice
  | .sent ref => if before.handler ref = .sendingAuth then connectedNotice before ref else []
  | _ => []

def disconnectedNotices (before : Server) (action : Server.Action) (after : Server) :
    List Notice :=
  match resumes action with
  | none => []
  | some ref => disconnectedNotice before after ref

/-- The events that the step of a protocol raises. -/
def noticesOf (before : Server) (action : Server.Action) (after : Server) : List Notice :=
  connectedNotices before action ++ disconnectedNotices before action after

/-- An action of the protocols on one path that is not an action of `Server`. -/
def Inner : Server.Action → Bool
  | .connect _ _ | .closeProtocol _ => false
  | _ => true

/-- A step of a protocol on the path with a given number. -/
def act (server : SignalingServer) (number : Nat) (action : Server.Action) :
    Option SignalingServer :=
  let before := server.onPath number
  (before.step action).map fun after =>
    let server := { server with onPath := Function.update server.onPath number after }
    (noticesOf before action after).foldl raiseEvent
      (server.clean number before.system.path.attached)

/-- Whether `Paths.get` has created a path with this number. -/
def Created (server : SignalingServer) (number : Nat) : Prop :=
  1 ≤ number ∧ number ≤ server.number

instance (server : SignalingServer) (number : Nat) : Decidable (server.Created number) :=
  inferInstanceAs (Decidable (_ ∧ _))

/-- The protocols in `Server.protocols`, each with the number of its path. -/
def Registered (server : SignalingServer) (protocol : Nat × ClientRef) : Prop :=
  server.Created protocol.1 ∧ protocol.2 ∈ (server.onPath protocol.1).protocols

instance (server : SignalingServer) (protocol : Nat × ClientRef) :
    Decidable (server.Registered protocol) :=
  inferInstanceAs (Decidable (_ ∧ _))

/-- `protocol.close(CloseCode.going_away)`. -/
def closeProtocol (server : SignalingServer) (protocol : Nat × ClientRef) : SignalingServer :=
  let onPath := (server.onPath protocol.1).dropClient protocol.2 .goingAway
  { server with onPath := Function.update server.onPath protocol.1 onPath }

/-- The list enumerates `Server.protocols`. -/
def Enumerates (server : SignalingServer) (protocols : List (Nat × ClientRef)) : Prop :=
  protocols.Nodup ∧ (∀ protocol ∈ protocols, server.Registered protocol) ∧
    ∀ number ∈ Finset.Icc 1 server.number, ∀ ref ∈ (server.onPath number).protocols,
      (number, ref) ∈ protocols

instance (server : SignalingServer) (protocols : List (Nat × ClientRef)) :
    Decidable (server.Enumerates protocols) :=
  inferInstanceAs (Decidable (_ ∧ _ ∧ _))

inductive Action
  /-- a new connection, with the initial value of `csn_out` -/
  | connection (ref : ClientRef) (request : Request) (csn : Nat)
  /-- closing a refused connection is done -/
  | refused (ref : ClientRef)
  /-- a step of a protocol on one of the paths -/
  | act (number : Nat) (action : Server.Action)
  | registerEventCallback (event : ServerEvent) (callback : Callback)
  /-- `close`; the first part of the closing task, which goes through the set of
  protocols in some order; its second part -/
  | close
  | closeProtocols (protocols : List (Nat × ClientRef))
  | closeServer
  | closeFails

/-- The handler task of a protocol has ended. -/
def Ended (server : SignalingServer) (protocol : Nat × ClientRef) : Prop :=
  (server.onPath protocol.1).handler protocol.2 = .finished

instance (server : SignalingServer) (protocol : Nat × ClientRef) :
    Decidable (server.Ended protocol) :=
  inferInstanceAs (Decidable (_ = _))

/-- The handler task of a protocol has failed. -/
def Fails (server : SignalingServer) (protocol : Nat × ClientRef) : Bool :=
  match (server.onPath protocol.1).handler protocol.2 with
  | .raised _ => true
  | _ => false

def step (server : SignalingServer) : Action → Option SignalingServer
  | .connection ref request csn =>
      if server.admission ref = .absent ∧ csn < 2 ^ 32 then server.handler ref request csn
      else none
  | .refused ref =>
      match server.admission ref with
      | .refusing code notifies =>
          let server := server.setAdmission ref (.refused code)
          some (if notifies then server.raiseEvent ⟨ref, .disconnected, none, some code⟩
            else server)
      | _ => none
  | .act number action =>
      if server.Created number ∧ Inner action then server.act number action else none
  | .registerEventCallback event callback =>
      some { server with
        callbacks := Function.update server.callbacks event (server.callbacks event ++ [callback]) }
  | .close =>
      some (if server.closeTask = .absent then { server with closeTask := .scheduled } else server)
  | .closeProtocols protocols =>
      if server.closeTask = .scheduled ∧ server.Enumerates protocols then
        some { protocols.foldl closeProtocol server with
          closeTask := if protocols = [] then .closed else .waiting protocols }
      else none
  | .closeServer =>
      match server.closeTask with
      | .waiting protocols =>
          if ∀ protocol ∈ protocols, server.Ended protocol then
            some { server with closeTask := .closed }
          else none
      | _ => none
  | .closeFails =>
      match server.closeTask with
      | .waiting protocols =>
          if protocols.any server.Fails then some { server with closeTask := .failed } else none
      | _ => none

/-- A server with the callbacks that `serve` registers. -/
def created (callbacks : ServerEvent → List Callback) : SignalingServer where
  paths := .empty
  number := 0
  onPath number := Server.created [] number
  gets := []
  admission _ := .absent
  closeTask := .absent
  callbacks := callbacks
  notices := []
  calls := []

def machine : Machine SignalingServer Action :=
  ⟨fun server => ∃ callbacks, server = created callbacks, step⟩

/-- The path of a URL that names the key `0xaa...`, in lower or in upper case. -/
def urlPath (digit : Char) : String := String.ofList ('/' :: List.replicate 64 digit)

/-- A connection for the key, and the steps of its protocol on the path with a number until it
has joined. -/
def openPath (number : Nat) (ref : ClientRef) (digit : Char)
    (joins : ClientRef → List Server.Action) : List Action :=
  .connection ref ⟨some "v1.saltyrtc.org", urlPath digit⟩ 0 :: (joins ref).tail.map (.act number)

theorem initial_created (callbacks : ServerEvent → List Callback) :
    machine.initial (created callbacks) :=
  ⟨callbacks, rfl⟩

end SignalingServer

end SaltyRtcServer
