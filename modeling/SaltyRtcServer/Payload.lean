import SaltyRtcServer.Session

/-!
# Payloads

The values that `umsgpack.unpackb` returns, and the checks of `common.py` and of
the `from_payload` methods.  A message that was built from a payload has only
values that passed these checks.

Error texts that quote a value of the payload are kept up to the quotation.
-/

namespace SaltyRtcServer

/-- `common.KEY_LENGTH`. -/
def keyLength : Nat := 32

/-- A value of a payload.  Numbers with a point are only ever compared with
integers, so they are represented by the integer they are equal to. -/
inductive Value
  | none
  | bool (value : Bool)
  | int (value : Int)
  | float (integer : Option Int)
  | str (value : String)
  | bytes (value : List UInt8)
  | list (elements : List Value)
  | dict (entries : List (Value × Value))
  | extension

namespace Value

/-- `type(value)` of a value inside a payload, where numbers and strings are
tagged. -/
def className : Value → String
  | .none => "<class 'NoneType'>"
  | .bool _ => "<class 'bool'>"
  | .int _ => "<class 'saltyrtc.splice.splicetypes.SpliceInt'>"
  | .float _ => "<class 'saltyrtc.splice.splicetypes.SpliceFloat'>"
  | .str _ => "<class 'saltyrtc.splice.splicetypes.SpliceStr'>"
  | .bytes _ => "<class 'saltyrtc.splice.splicetypes.SpliceBytes'>"
  | .list _ => "<class 'list'>"
  | .dict _ => "<class 'dict'>"
  | .extension => "<class 'umsgpack.Ext'>"

def isStr (name : String) : Value → Bool
  | .str value => value = name
  | _ => false

/-- `entries.get(name)`. -/
def get (entries : List (Value × Value)) (name : String) : Value :=
  match entries.find? fun entry => entry.1.isStr name with
  | .none => .none
  | .some entry => entry.2

/-- The value as an `int`, which a `bool` is too. -/
def toInt? : Value → Option Int
  | .bool value => some value.toNat
  | .int value => some value
  | _ => Option.none

end Value

/-- `common.MessageType`. -/
inductive MessageType
  | serverHello
  | clientHello
  | clientAuth
  | serverAuth
  | newResponder
  | newInitiator
  | dropResponder
  | sendError
  | disconnected
  deriving DecidableEq, Repr

namespace MessageType

def value : MessageType → String
  | .serverHello => "server-hello"
  | .clientHello => "client-hello"
  | .clientAuth => "client-auth"
  | .serverAuth => "server-auth"
  | .newResponder => "new-responder"
  | .newInitiator => "new-initiator"
  | .dropResponder => "drop-responder"
  | .sendError => "send-error"
  | .disconnected => "disconnected"

/-- The name of the member, as the enumeration shows it. -/
def name : MessageType → String
  | .serverHello => "MessageType.server_hello"
  | .clientHello => "MessageType.client_hello"
  | .clientAuth => "MessageType.client_auth"
  | .serverAuth => "MessageType.server_auth"
  | .newResponder => "MessageType.new_responder"
  | .newInitiator => "MessageType.new_initiator"
  | .dropResponder => "MessageType.drop_responder"
  | .sendError => "MessageType.send_error"
  | .disconnected => "MessageType.disconnected"

def all : List MessageType :=
  [.serverHello, .clientHello, .clientAuth, .serverAuth, .newResponder, .newInitiator,
    .dropResponder, .sendError, .disconnected]

/-- `MessageType(value)`, where a `ValueError` becomes a `MessageError`. -/
def ofValue (type : Value) : Except PyException MessageType :=
  match all.find? fun member => type.isStr member.value with
  | none => .error (.messageError "Unknown message type: ")
  | some member => .ok member

end MessageType

/-- `validate_public_key`. -/
def validatePublicKey : Value → Except PyException PublicKey
  | .bytes key =>
      if key.length = keyLength then .ok key
      else .error (.messageError
        s!"Invalid key: Invalid length ({key.length} != {keyLength})")
  | key => .error (.messageError
      ("Invalid key: Must be `bytes` (is `" ++ key.className ++ "`)"))

/-- `validate_cookie`. -/
def validateCookie : Value → Except PyException Cookie
  | .bytes cookie =>
      if complete : cookie.length = cookieLength then .ok ⟨cookie, complete⟩
      else .error (.messageError
        s!"Invalid cookie: Invalid length ({cookie.length} != {cookieLength})")
  | cookie => .error (.messageError
      ("Invalid cookie: Must be `bytes` (is `" ++ cookie.className ++ "`)"))

/-- `validate_subprotocol`. -/
def validateSubprotocol : Value → Except PyException String
  | .str subprotocol => .ok subprotocol
  | subprotocol => .error (.messageError
      ("Invalid sub-protocol: Must be `str` (is `" ++ subprotocol.className ++ "`)"))

/-- `validate_subprotocols`. -/
def validateSubprotocols : Value → Except PyException (List String)
  | .list subprotocols => subprotocols.mapM validateSubprotocol
  | subprotocols => .error (.messageError
      ("Sub-protocols not list or tuple (type `" ++ subprotocols.className ++ "`)"))

/-- `validate_responder_id`. -/
def validateResponderId (id : Value) : Except PyException ResponderAddress :=
  match id.toInt? with
  | some value =>
      if inRange : 0x02 ≤ value.toNat ∧ value.toNat ≤ 0xff then .ok ⟨value.toNat, inRange⟩
      else .error (.messageError "Invalid responder id: ")
  | none => .error (.messageError "Invalid responder id: ")

/-- `validate_ping_interval`. -/
def validatePingInterval (interval : Value) : Except PyException Nat :=
  match interval.toInt? with
  | some value =>
      if value < 0 then .error (.messageError s!"Invalid ping interval ({value} >= 0)")
      else .ok value.toNat
  | none => .error (.messageError
      ("Invalid ping interval: Must be `int` (is `" ++ interval.className ++ "`)"))

/-- `DropReason(value)`. -/
def DropReason.ofInt? : Int → Option DropReason
  | 3001 => some .protocolError
  | 3002 => some .internalError
  | 3004 => some .dropByInitiator
  | 3005 => some .initiatorCouldNotDecrypt
  | _ => none

/-- `validate_drop_reason`.  A number with a point is found among the members if
it is equal to one of them. -/
def validateDropReason : Value → Except PyException DropReason
  | .none => .ok .dropByInitiator
  | reason =>
      let number := match reason with
        | .float integer => integer
        | _ => reason.toInt?
      match number.bind DropReason.ofInt? with
      | some reason => .ok reason
      | none => .error (.messageError "Invalid drop reason: ")

/-- A check of a value that may be missing. -/
def validateOptional {Checked : Type} (validate : Value → Except PyException Checked) :
    Value → Except PyException (Option Checked)
  | .none => .ok none
  | value => (validate value).map some

/-- `message.ClientAuthMessage`. -/
structure ClientAuth where
  yourCookie : Cookie
  subprotocols : List String
  pingInterval : Option Nat
  yourKey : Option PublicKey

/-- `ClientHelloMessage.from_payload`. -/
def clientHelloFromPayload (payload : List (Value × Value)) : Except PyException PublicKey :=
  validatePublicKey (Value.get payload "key")

/-- `ClientAuthMessage.from_payload`. -/
def ClientAuth.fromPayload (payload : List (Value × Value)) : Except PyException ClientAuth := do
  let yourCookie ← validateCookie (Value.get payload "your_cookie")
  let subprotocols ← validateSubprotocols (Value.get payload "subprotocols")
  let pingInterval ← validateOptional validatePingInterval (Value.get payload "ping_interval")
  let yourKey ← validateOptional validatePublicKey (Value.get payload "your_key")
  return ⟨yourCookie, subprotocols, pingInterval, yourKey⟩

/-- `DropResponderMessage.from_payload`. -/
def dropResponderFromPayload (payload : List (Value × Value)) :
    Except PyException (ResponderAddress × DropReason) := do
  let id ← validateResponderId (Value.get payload "id")
  let reason ← validateDropReason (Value.get payload "reason")
  return (id, reason)

/-- Only exceptions that are allowed are raised. -/
def Raises (allowed : PyException → Prop) {Result : Type} (result : Except PyException Result) :
    Prop :=
  ∀ exception, result = .error exception → allowed exception

namespace Raises

variable {allowed : PyException → Prop} {First Second : Type}

theorem ok (value : First) : Raises allowed (.ok value) := by
  intro exception raised
  contradiction

theorem error {exception : PyException} (permitted : allowed exception) :
    Raises allowed (.error exception : Except PyException First) := by
  intro other raised
  cases raised
  exact permitted

theorem bind {result : Except PyException First} {next : First → Except PyException Second}
    (first : Raises allowed result) (second : ∀ value, Raises allowed (next value)) :
    Raises allowed (result >>= next) := by
  cases result with
  | error exception => exact .error (first exception rfl)
  | ok value => exact second value

theorem map {result : Except PyException First} (function : First → Second)
    (first : Raises allowed result) : Raises allowed (result.map function) := by
  cases result with
  | error exception => exact .error (first exception rfl)
  | ok value => exact .ok _

theorem mapM {check : First → Except PyException Second}
    (each : ∀ value, Raises allowed (check value)) (values : List First) :
    Raises allowed (values.mapM check) := by
  induction values with
  | nil => exact .ok _
  | cons value values ih =>
      rw [List.mapM_cons]
      exact (each value).bind fun _ => ih.bind fun _ => .ok _

end Raises

/-- `except MessageError`. -/
def PyException.IsMessageError (exception : PyException) : Prop :=
  ∃ message, exception = .messageError message

abbrev RaisesMessageError {Result : Type} (result : Except PyException Result) : Prop :=
  Raises PyException.IsMessageError result

section Checks

theorem raises_messageError {Result : Type} (message : String) :
    RaisesMessageError (.error (.messageError message) : Except PyException Result) :=
  .error ⟨message, rfl⟩

theorem MessageType.ofValue_raises (type : Value) : RaisesMessageError (MessageType.ofValue type) := by
  unfold MessageType.ofValue
  split
  · exact raises_messageError _
  · exact .ok _

theorem validatePublicKey_raises (key : Value) : RaisesMessageError (validatePublicKey key) := by
  unfold validatePublicKey
  split
  · split
    · exact .ok _
    · exact raises_messageError _
  · exact raises_messageError _

theorem validateCookie_raises (cookie : Value) : RaisesMessageError (validateCookie cookie) := by
  unfold validateCookie
  split
  · split
    · exact .ok _
    · exact raises_messageError _
  · exact raises_messageError _

theorem validateSubprotocols_raises (subprotocols : Value) :
    RaisesMessageError (validateSubprotocols subprotocols) := by
  unfold validateSubprotocols
  split
  · apply Raises.mapM
    intro subprotocol
    unfold validateSubprotocol
    split
    · exact .ok _
    · exact raises_messageError _
  · exact raises_messageError _

theorem validateResponderId_raises (id : Value) : RaisesMessageError (validateResponderId id) := by
  unfold validateResponderId
  split
  · split
    · exact .ok _
    · exact raises_messageError _
  · exact raises_messageError _

theorem validatePingInterval_raises (interval : Value) :
    RaisesMessageError (validatePingInterval interval) := by
  unfold validatePingInterval
  split
  · split
    · exact raises_messageError _
    · exact .ok _
  · exact raises_messageError _

theorem validateDropReason_raises (reason : Value) :
    RaisesMessageError (validateDropReason reason) := by
  unfold validateDropReason
  split
  · exact .ok _
  · dsimp only
    split
    · exact .ok _
    · exact raises_messageError _

theorem validateOptional_raises {Checked : Type} {validate : Value → Except PyException Checked}
    (each : ∀ value, RaisesMessageError (validate value)) (value : Value) :
    RaisesMessageError (validateOptional validate value) := by
  unfold validateOptional
  split
  · exact .ok _
  · exact (each value).map some

theorem ClientAuth.fromPayload_raises (payload : List (Value × Value)) :
    RaisesMessageError (ClientAuth.fromPayload payload) := by
  refine (validateCookie_raises _).bind fun _ => (validateSubprotocols_raises _).bind fun _ => ?_
  apply (validateOptional_raises validatePingInterval_raises _).bind
  intro _
  exact (validateOptional_raises validatePublicKey_raises _).bind fun _ => .ok _

theorem dropResponderFromPayload_raises (payload : List (Value × Value)) :
    RaisesMessageError (dropResponderFromPayload payload) :=
  (validateResponderId_raises _).bind fun _ => (validateDropReason_raises _).bind fun _ => .ok _

end Checks

end SaltyRtcServer
