import SaltyRtcServer.BytesRepr
import SaltyRtcServer.Payload

/-!
# Incoming messages

`IncomingMessage.unpack` in full: the nonce is checked against the client, the
payload of a packet to the server is decrypted and unpacked, and a message is
created from it.  While the client is not authenticated, the type of the message
is guessed from whether the payload can be decrypted.

What third-party packages do is a parameter.
-/

namespace SaltyRtcServer

/-- `umsgpack.unpackb`, which keys `libnacl.public.Box` accepts, its `decrypt`, the order in which
a set of common strings is enumerated, and what the server was started with. -/
structure Environment where
  unpackb : List UInt8 → Option Value
  accepts : PublicKey → Bool
  decrypt : SecretKey × PublicKey → List UInt8 → List UInt8 → Option (List UInt8)
  common : List String → List String → List String
  mem_common : ∀ first second name, name ∈ common first second ↔ name ∈ first ∧ name ∈ second
  nodup_common : ∀ first second, (common first second).Nodup
  keys : List (PublicKey × SecretKey)
  subprotocols : List String

/-- A server without permanent keys, where no other key than that of zeros is refused. -/
def Environment.keyless (unpackb : List UInt8 → Option Value)
    (decrypt : SecretKey × PublicKey → List UInt8 → List UInt8 → Option (List UInt8))
    (subprotocols : List String) : Environment where
  unpackb := unpackb
  accepts key := key ≠ List.replicate 32 0
  decrypt := decrypt
  common first second := (first.filter (· ∈ second)).dedup
  mem_common first second name := by simp
  nodup_common first second := List.nodup_dedup _
  keys := []
  subprotocols := subprotocols

/-- A stand-in for public keys in examples. -/
def examplePublicKey (key : SecretKey) : PublicKey := 0x09 :: (key ++ List.replicate 31 0).take 31

/-- What two parties have in common, whichever of them has the secret key. -/
def exampleShared (box : SecretKey × PublicKey) : List UInt8 :=
  List.zipWith (· ^^^ ·) (examplePublicKey box.1) box.2

theorem exampleShared_comm (own other : SecretKey) :
    exampleShared (own, examplePublicKey other) = exampleShared (other, examplePublicKey own) :=
  List.zipWith_comm_of_comm UInt8.xor_comm

/-- A stand-in for encryption: what is sealed begins with this and with the nonce. -/
def sealPayload (box : SecretKey × PublicKey) (nonce payload : List UInt8) : List UInt8 :=
  0x10 :: (exampleShared box ++ nonce) ++ payload

/-- Nothing else opens it. -/
def openPayload (box : SecretKey × PublicKey) (nonce data : List UInt8) : Option (List UInt8) :=
  if 0x10 :: (exampleShared box ++ nonce) <+: data then
    some (data.drop ((exampleShared box).length + nonce.length + 1))
  else none

theorem openPayload_sealPayload (own other : SecretKey) (nonce payload : List UInt8) :
    openPayload (own, examplePublicKey other) nonce
      (sealPayload (other, examplePublicKey own) nonce payload) = some payload := by
  rw [sealPayload, exampleShared_comm other own, openPayload, if_pos ⟨payload, rfl⟩]
  exact congrArg some (List.drop_left' (by simp))

/-- The messages that `unpack` returns. -/
inductive IncomingMessage
  | clientHello (key : PublicKey)
  | clientAuth (message : ClientAuth)
  | dropResponder (id : ResponderAddress) (reason : DropReason)
  | relay (source destination : Address) (packet : List UInt8)

/-- `ClientAddress(address)`. -/
def clientAddress (address : Address) : Except PyException Address :=
  if address = serverAddress then .error (.valueError "Invalid address: 0x00") else .ok address

/-- The packet is addressed to the server. -/
abbrev Nonce.ToServer (nonce : Nonce) : Prop := nonce.destination.type = .server

namespace Session

/-- The cookie and the number of a packet to the server: the last lines of
`_unpack_nonce`. -/
def acceptNonce (session : Session) (nonce : Nonce) : Call Session Unit :=
  match session.validCookie nonce.cookie with
  | (session, false) =>
      .raised session (.messageError ("Invalid cookie: " ++ bytesStr nonce.cookie.1))
  | (session, true) =>
      match session.validateCsnIn nonce.number with
      | .raised session exception => .raised session exception
      | .returned session _ => session.incrementCsnIn

/-- `IncomingMessage._unpack_nonce`. -/
def unpackNonce (session : Session) (client : PathClient) (packet : List UInt8) :
    Call Session Nonce :=
  match Nonce.unpack (packet.take nonceLength) with
  | .error exception => .raised session exception
  | .ok nonce =>
      if ¬ nonce.ToServer ∧ ¬ client.P2pAllowed nonce.destination.type then
        .raised session (.messageFlowError
          ("Not allowed to relay messages to 0x" ++ hexByte nonce.destination.1))
      else if nonce.source ≠ client.id then
        match client.id.format with
        | .error exception => .raised session exception
        | .ok expected =>
            .raised session (.messageError ("Identities do not match, expected 0x" ++ expected ++
              ", got 0x" ++ hexByte nonce.source.1))
      else if nonce.ToServer then
        match session.acceptNonce nonce with
        | .raised session exception => .raised session exception
        | .returned session _ => .returned session nonce
      else .returned session nonce

/-- `IncomingMessage._decrypt_payload`. -/
def decryptPayload (environment : Environment) (session : Session) (nonce data : List UInt8) :
    Call Session (List UInt8) :=
  let (session, box) := session.readBox
  match environment.decrypt box nonce data with
  | none => .raised session (.messageError "Could not decrypt payload")
  | some payload => .returned session payload

end Session

namespace IncomingMessage

def unpackError : PyException := .messageError "Could not unpack msgpack payload"

/-- What an `IndexError` of a list says. -/
def indexErrorText (index : Int) : String :=
  if -2 ^ 63 ≤ index ∧ index < 2 ^ 63 then "list index out of range"
  else "cannot fit 'int' into an index-sized integer"

/-- What `unpacked[element]` raises in the loop of `_unpack_payload` for an
element of a list with the given length. -/
def indexFailure (length : Nat) (element : Value) : Option PyException :=
  match element.toInt? with
  | none => some unpackError
  | some index =>
      if -length ≤ index ∧ index < length then none
      else some (.indexError (indexErrorText index))

/-- The loop of `_unpack_payload`, which tags what the payload holds under each
of the elements that it is iterated over.  It is meant for a dictionary. -/
def tagElements : Value → Except PyException Value
  | .dict entries => .ok (.dict entries)
  | .list elements =>
      match elements.findSome? (indexFailure elements.length) with
      | some exception => .error exception
      | none => .ok (.list elements)
  | .bytes bytes =>
      match bytes with
      | [] => .ok (.bytes [])
      | first :: _ =>
          if first.toNat < bytes.length then .error unpackError
          else .error (.indexError "index out of range")
  | .str value => if value = "" then .ok (.str value) else .error unpackError
  | _ => .error unpackError

/-- `IncomingMessage._unpack_payload`. -/
def unpackPayload (environment : Environment) (payload : List UInt8) : Except PyException Value :=
  match environment.unpackb payload with
  | none => .error unpackError
  | some unpacked => tagElements unpacked

/-- The payload is decrypted and unpacked. -/
def decryptAndUnpack (environment : Environment) (session : Session) (nonce data : List UInt8) :
    Call Session Value :=
  match session.decryptPayload environment nonce data with
  | .raised session exception => .raised session exception
  | .returned session payload =>
      match unpackPayload environment payload with
      | .error exception => .raised session exception
      | .ok value => .returned session value

/-- The payload of a client that is not authenticated, with the type that is
expected of it. -/
def unpackGuessed (environment : Environment) (session : Session) (nonce data : List UInt8) :
    Call Session (MessageType × Value) :=
  match decryptAndUnpack environment session nonce data with
  | .returned session value => .returned session (.clientAuth, value)
  | .raised session (.messageError _) =>
      match unpackPayload environment data with
      | .ok value => .returned session (.clientHello, value)
      | .error (.messageError _) =>
          .raised session (.messageError
            "Expected either client-hello or client-auth, got neither")
      | .error exception => .raised session exception
  | .raised session exception => .raised session exception

/-- The entries and the type of a payload. -/
def payloadType : Value → Except PyException (List (Value × Value) × MessageType)
  | .dict entries => (MessageType.ofValue (Value.get entries "type")).map fun type => (entries, type)
  | .list _ => .error (.messageError "Message does not contain a dictionary: <class 'list'>")
  | .bytes _ => .error (.messageError "Message does not contain a dictionary: <class 'bytes'>")
  | .str _ => .error (.messageError "Message does not contain a dictionary: <class 'str'>")
  | value => .error (.messageError ("Message does not contain a dictionary: " ++ value.className))

/-- The error of a message that may not be sent at this time. -/
def unexpected {Message : Type} (type : MessageType) : Except PyException Message :=
  .error (.messageFlowError ("Unexpected message type: " ++ type.name))

/-- The message of a client that is not authenticated. -/
def createGuessed (expected : MessageType) (value : Value) : Except PyException IncomingMessage := do
  let (entries, type) ← payloadType value
  if type ≠ expected then
    .error (.messageError ("Expected type " ++ expected.name ++ ", got " ++ type.name))
  else
    match type with
    | .clientHello => (clientHelloFromPayload entries).map .clientHello
    | .clientAuth => (ClientAuth.fromPayload entries).map .clientAuth
    | type => unexpected type

/-- The message of an authenticated client. -/
def create (source : Address) (value : Value) : Except PyException IncomingMessage := do
  let (entries, type) ← payloadType value
  if type = .dropResponder ∧ source = initiatorAddress then
    (dropResponderFromPayload entries).map fun message => .dropResponder message.1 message.2
  else unexpected type

/-- `unpack` of a packet to the server, after the nonce. -/
def unpackToServer (environment : Environment) (session : Session) (client : PathClient)
    (nonce : Nonce) (packet : List UInt8) : Call Session IncomingMessage :=
  let bytes := packet.take nonceLength
  let data := packet.drop nonceLength
  if client.state = .authenticated ∧ client.type ≠ none then
    match decryptAndUnpack environment session bytes data with
    | .raised session exception => .raised session exception
    | .returned session value =>
        match create nonce.source value with
        | .error exception => .raised session exception
        | .ok message => .returned session message
  else
    match unpackGuessed environment session bytes data with
    | .raised session exception => .raised session exception
    | .returned session (expected, value) =>
        match createGuessed expected value with
        | .error exception => .raised session exception
        | .ok message => .returned session message

/-- The message of a packet to another client. -/
def createRelay (nonce : Nonce) (packet : List UInt8) : Except PyException IncomingMessage := do
  let source ← clientAddress nonce.source
  let destination ← clientAddress nonce.destination
  return .relay source destination packet

/-- `IncomingMessage.unpack`. -/
def unpack (environment : Environment) (session : Session) (client : PathClient)
    (packet : List UInt8) : Call Session IncomingMessage :=
  if packet.length < dataLengthMin then
    .raised session (.messageError s!"Message too short: {packet.length} bytes")
  else
    match session.unpackNonce client packet with
    | .raised session exception => .raised session exception
    | .returned session nonce =>
        if nonce.ToServer then unpackToServer environment session client nonce packet
        else
          match createRelay nonce packet with
          | .error exception => .raised session exception
          | .ok message => .returned session message

end IncomingMessage

/-- The leading sixteen bits are zero. -/
theorem lt_of_leading_zeros {number : Nat} (small : number < 2 ^ 48)
    (zeros : number &&& 0xffff00000000 = 0) : number < 2 ^ 32 := by
  apply Nat.lt_pow_two_of_testBit
  intro bit high
  by_cases inside : bit < 48
  · have masked := congrArg (Nat.testBit · bit) zeros
    have mask : (0xffff00000000 : Nat) = (2 ^ 16 - 1) <<< 32 := rfl
    simp only [Nat.testBit_and, mask, Nat.testBit_shiftLeft, Nat.testBit_two_pow_sub_one,
      Nat.zero_testBit] at masked
    have low : bit - 32 < 16 := by omega
    simpa [high, low] using masked
  · exact Nat.testBit_lt_two_pow (small.trans_le (Nat.pow_le_pow_right (by decide) (by omega)))

namespace Session

variable {session after : Session} {client : PathClient} {nonce : Nonce} {packet : List UInt8}

/-- The session after a packet to the server was accepted. -/
def learn (session : Session) (nonce : Nonce) : Session :=
  { session with
    cookieIn := some nonce.cookie
    csnIn := some (SequenceNumber.increment (some nonce.number)) }

theorem validCookie_true (valid : session.validCookie nonce.cookie = (after, true)) :
    after = { session with cookieIn := some nonce.cookie } ∧
      (session.cookieIn = none ∧ nonce.cookie ≠ session.drawn.cookieOut ∨
        session.cookieIn = some nonce.cookie) := by
  unfold validCookie at valid
  split at valid
  · next unknown =>
    split at valid
    · simp at valid
    · next different =>
      cases valid
      exact ⟨rfl, .inl ⟨unknown, different⟩⟩
  · next cookieIn known =>
    injection valid with same matched
    have cookie : nonce.cookie = cookieIn := of_decide_eq_true matched
    subst same cookie
    exact ⟨by rw [← known], .inr known⟩

theorem validateCsnIn_returned {number : Nat} (small : number < 2 ^ 48)
    (valid : session.validateCsnIn number = .returned after ()) :
    after = { session with csnIn := some (some number) } ∧
      (session.csnIn = none ∧ number < 2 ^ 32 ∨ session.csnIn = some (some number)) := by
  cases csnIn : session.csnIn with
  | none =>
      by_cases leading : number &&& 0xffff00000000 = 0
      · simp only [validateCsnIn, learnCsnIn, csnIn, leading, ne_eq, not_true_eq_false,
          if_false, Call.returned.injEq, and_true] at valid
        exact ⟨valid.symm, .inl ⟨rfl, lt_of_leading_zeros small leading⟩⟩
      · simp [validateCsnIn, learnCsnIn, csnIn, leading] at valid
  | some csn =>
      cases csn with
      | none => simp [validateCsnIn, learnCsnIn, csnIn] at valid
      | some expected =>
          by_cases matched : number = expected
          · simp only [validateCsnIn, learnCsnIn, csnIn, matched, ne_eq, not_true_eq_false,
              if_false, Call.returned.injEq, and_true] at valid
            subst valid matched
            exact ⟨by rw [← csnIn], .inr rfl⟩
          · simp [validateCsnIn, learnCsnIn, csnIn, matched] at valid

theorem acceptNonce_returned (accepted : session.acceptNonce nonce = .returned after ()) :
    after = session.learn nonce ∧
      (session.cookieIn = none ∧ nonce.cookie ≠ session.drawn.cookieOut ∨
        session.cookieIn = some nonce.cookie) ∧
      (session.csnIn = none ∧ nonce.number < 2 ^ 32 ∨
        session.csnIn = some (some nonce.number)) := by
  unfold acceptNonce at accepted
  split at accepted
  · contradiction
  · next withCookie valid =>
    obtain ⟨rfl, cookie⟩ := validCookie_true valid
    split at accepted
    · contradiction
    · next withNumber _ validated =>
      obtain ⟨rfl, number⟩ := validateCsnIn_returned nonce.number_lt validated
      cases accepted
      exact ⟨rfl, cookie, number⟩

/-- What the checks of a nonce ensure, and what they leave. -/
theorem unpackNonce_returned
    (unpacked : session.unpackNonce client packet = .returned after nonce) :
    Nonce.unpack (packet.take nonceLength) = .ok nonce ∧ nonce.source = client.id ∧
      (¬ nonce.ToServer ∧ client.P2pAllowed nonce.destination.type ∧ after = session ∨
        nonce.ToServer ∧ session.acceptNonce nonce = .returned after ()) := by
  unfold unpackNonce at unpacked
  split at unpacked
  · contradiction
  · next found complete =>
    split at unpacked
    · contradiction
    · next allowed =>
      split at unpacked
      · split at unpacked <;> contradiction
      · next source =>
        split at unpacked
        · next toServer =>
          split at unpacked
          · contradiction
          · next accepted =>
            cases unpacked
            exact ⟨complete, not_not.mp source, .inr ⟨toServer, accepted⟩⟩
        · next toClient =>
          cases unpacked
          have permitted := not_and.mp allowed toClient
          exact ⟨complete, not_not.mp source, .inl ⟨toClient, not_not.mp permitted, rfl⟩⟩

end Session

namespace IncomingMessage

variable {environment : Environment} {session after : Session} {client : PathClient}
  {nonce : Nonce} {packet : List UInt8} {message : IncomingMessage}

theorem decryptAndUnpack_state (environment : Environment) (session : Session)
    (bytes data : List UInt8) :
    (decryptAndUnpack environment session bytes data).state = session.readBox.1 := by
  unfold decryptAndUnpack Session.decryptPayload
  cases session.readBox with
  | mk boxed box =>
      dsimp only
      cases environment.decrypt box bytes data with
      | none => rfl
      | some payload =>
          dsimp only
          cases unpackPayload environment payload <;> rfl

theorem unpackGuessed_state (environment : Environment) (session : Session)
    (bytes data : List UInt8) :
    (unpackGuessed environment session bytes data).state = session.readBox.1 := by
  have decrypted := decryptAndUnpack_state environment session bytes data
  unfold unpackGuessed
  split
  · next found =>
    rw [found] at decrypted
    exact decrypted
  · next found =>
    rw [found] at decrypted
    split <;> exact decrypted
  · next found =>
    rw [found] at decrypted
    exact decrypted

/-- After the nonce, nothing but the box is set. -/
theorem unpackToServer_state (environment : Environment) (session : Session) (client : PathClient)
    (nonce : Nonce) (packet : List UInt8) :
    (unpackToServer environment session client nonce packet).state = session.readBox.1 := by
  unfold unpackToServer
  dsimp only
  split
  · have decrypted := decryptAndUnpack_state environment session (packet.take nonceLength)
      (packet.drop nonceLength)
    split
    · next found =>
      rw [found] at decrypted
      exact decrypted
    · next found =>
      rw [found] at decrypted
      split <;> exact decrypted
  · have guessed := unpackGuessed_state environment session (packet.take nonceLength)
      (packet.drop nonceLength)
    split
    · next found =>
      rw [found] at guessed
      exact guessed
    · next found =>
      rw [found] at guessed
      split <;> exact guessed

/-- A packet that is unpacked has passed the checks of its nonce. -/
theorem unpack_returned
    (unpacked : unpack environment session client packet = .returned after message) :
    dataLengthMin ≤ packet.length ∧ ∃ middle nonce,
      session.unpackNonce client packet = .returned middle nonce ∧
      (nonce.ToServer ∧ after = middle.readBox.1 ∧
        unpackToServer environment middle client nonce packet = .returned after message ∨
      ¬ nonce.ToServer ∧ after = middle ∧ createRelay nonce packet = .ok message) := by
  unfold unpack at unpacked
  split at unpacked
  · contradiction
  · next long =>
    split at unpacked
    · contradiction
    · next middle nonce passed =>
      refine ⟨Nat.not_lt.mp long, middle, nonce, passed, ?_⟩
      split at unpacked
      · next toServer =>
        have state := unpackToServer_state environment middle client nonce packet
        rw [unpacked] at state
        exact .inl ⟨toServer, state, unpacked⟩
      · next toClient =>
        split at unpacked
        · contradiction
        · next created =>
          cases unpacked
          exact .inr ⟨toClient, rfl, created⟩

end IncomingMessage

section Errors

/-- The errors that the documentation of `unpack` names. -/
def PyException.IsProtocolError (exception : PyException) : Prop :=
  ∃ text, exception = .messageError text ∨ exception = .messageFlowError text

abbrev RaisesProtocolError {Result : Type} (result : Except PyException Result) : Prop :=
  Raises PyException.IsProtocolError result

theorem PyException.IsMessageError.protocolError {exception : PyException}
    (messageError : exception.IsMessageError) : exception.IsProtocolError := by
  obtain ⟨text, rfl⟩ := messageError
  exact ⟨text, .inl rfl⟩

theorem PyException.IsProtocolError.packetError {exception : PyException}
    (protocolError : exception.IsProtocolError) : exception.isPacketError = true := by
  obtain ⟨text, rfl | rfl⟩ := protocolError <;> rfl

theorem Raises.protocolError {Result : Type} {result : Except PyException Result}
    (raises : RaisesMessageError result) : RaisesProtocolError result :=
  fun exception raised => (raises exception raised).protocolError

theorem raises_messageFlowError {Result : Type} (text : String) :
    RaisesProtocolError (.error (.messageFlowError text) : Except PyException Result) :=
  .error ⟨text, .inr rfl⟩

/-- Only such errors are raised by a call that has an effect. -/
def Call.RaisesProtocolError {State Result : Type} (call : Call State Result) : Prop :=
  ∀ after exception, call = .raised after exception → exception.IsProtocolError

abbrev RaisesPacketError {Result : Type} (result : Except PyException Result) : Prop :=
  Raises (fun exception => exception.isPacketError = true) result

theorem Raises.packetError {Result : Type} {result : Except PyException Result}
    (raises : RaisesProtocolError result) : RaisesPacketError result :=
  fun exception raised => (raises exception raised).packetError

/-- The same for a call that has an effect. -/
def Call.RaisesPacketError {State Result : Type} (call : Call State Result) : Prop :=
  ∀ after exception, call = .raised after exception → exception.isPacketError = true

theorem Call.RaisesProtocolError.returned {State Result : Type} (after : State) (value : Result) :
    (Call.returned after value).RaisesProtocolError := by
  intro other exception raised
  contradiction

theorem Call.RaisesProtocolError.raised {State Result : Type} (after : State)
    {exception : PyException} (protocolError : exception.IsProtocolError) :
    (Call.raised after exception : Call State Result).RaisesProtocolError := by
  intro other same raised
  cases raised
  exact protocolError

theorem Call.RaisesPacketError.returned {State Result : Type} (after : State) (value : Result) :
    (Call.returned after value).RaisesPacketError := by
  intro other exception raised
  contradiction

theorem Call.RaisesPacketError.raised {State Result : Type} (after : State)
    {exception : PyException} (packetError : exception.isPacketError = true) :
    (Call.raised after exception : Call State Result).RaisesPacketError := by
  intro other same raised
  cases raised
  exact packetError

/-- A packet that may be sent to its destination names another source than the client, whose own
id is one of the constants. -/
def PathClient.Misnamed (client : PathClient) (packet : List UInt8) : Prop :=
  ∃ nonce, Nonce.unpack (packet.take nonceLength) = .ok nonce ∧
    ¬ (¬ nonce.ToServer ∧ ¬ client.P2pAllowed nonce.destination.type) ∧
    nonce.source ≠ client.id ∧ client.id.IsConstant

namespace Session

variable {environment : Environment} {session : Session} {client : PathClient} {nonce : Nonce}

theorem learnCsnIn_some {number : Nat} {after : Session} {csn : SequenceNumber}
    (learned : session.learnCsnIn number = .ok (after, csn)) : after.csnIn = some csn := by
  unfold learnCsnIn at learned
  split at learned
  · next known =>
    cases learned
    exact known
  · split at learned
    · contradiction
    · cases learned
      rfl

theorem acceptNonce_raises (session : Session) (nonce : Nonce) :
    (session.acceptNonce nonce).RaisesProtocolError := by
  unfold acceptNonce
  split
  · exact .raised _ ⟨_, .inl rfl⟩
  · next session _ =>
    unfold validateCsnIn
    cases learned : session.learnCsnIn nonce.number with
    | error exception =>
        refine .raised _ ?_
        unfold learnCsnIn at learned
        split at learned
        · contradiction
        · split at learned
          · cases learned
            exact ⟨_, .inl rfl⟩
          · contradiction
    | ok result =>
        obtain ⟨after, csn⟩ := result
        have known := learnCsnIn_some learned
        cases csn with
        | none => exact .raised _ ⟨_, .inr rfl⟩
        | some expected =>
            dsimp only
            split
            · next mismatch =>
              split at mismatch
              · cases mismatch
                exact .raised _ ⟨_, .inl rfl⟩
              · contradiction
            · next unequal =>
              split at unequal
              · contradiction
              · cases unequal
                simp only [incrementCsnIn, readCsnIn, known]
                exact .returned _ _

/-- A source that is not the client is reported as documented, unless the id of the client
cannot be formatted. -/
theorem unpackNonce_raises (session : Session) (client : PathClient) (packet : List UInt8)
    (named : ¬ client.Misnamed packet) :
    (session.unpackNonce client packet).RaisesProtocolError := by
  unfold unpackNonce
  split
  · next packed =>
    refine .raised _ ?_
    unfold Nonce.unpack at packed
    split at packed
    · contradiction
    · cases packed
      exact ⟨_, .inl rfl⟩
  · next nonce packed =>
    split
    · exact .raised _ ⟨_, .inr rfl⟩
    · next allowed =>
      split
      · next other =>
        split
        · next failed =>
          exact absurd ⟨nonce, packed, allowed, other, Address.format_error failed⟩ named
        · exact .raised _ ⟨_, .inl rfl⟩
      · split
        · split
          · next refused => exact .raised _ (acceptNonce_raises session nonce _ _ refused)
          · exact .returned _ _
        · exact .returned _ _

theorem unpackNonce_misnamed {packet : List UInt8} (session : Session)
    (misnamed : client.Misnamed packet) :
    ∃ text, session.unpackNonce client packet = .raised session (.typeError text) := by
  obtain ⟨nonce, packed, allowed, other, constant⟩ := misnamed
  obtain ⟨text, failed⟩ := Address.format_constant constant
  exact ⟨text, by simp only [unpackNonce, packed, if_neg allowed, if_pos other, failed]⟩

theorem unpackNonce_packetError (session : Session) (client : PathClient) (packet : List UInt8) :
    (session.unpackNonce client packet).RaisesPacketError := by
  by_cases misnamed : client.Misnamed packet
  · obtain ⟨text, raised⟩ := unpackNonce_misnamed session misnamed
    rw [raised]
    exact .raised _ rfl
  · exact fun after exception raised =>
      (unpackNonce_raises session client packet misnamed after exception raised).packetError

end Session

namespace IncomingMessage

theorem tagElements_raises (value : Value) : RaisesPacketError (tagElements value) := by
  unfold tagElements
  split
  · exact .ok _
  · split
    · next failed =>
      refine .error ?_
      obtain ⟨element, _, failed⟩ := List.exists_of_findSome?_eq_some failed
      unfold indexFailure at failed
      split at failed
      · cases failed
        rfl
      · split at failed
        · contradiction
        · cases failed
          rfl
    · exact .ok _
  · split
    · exact .ok _
    · split
      · exact .error rfl
      · exact .error rfl
  · split
    · exact .ok _
    · exact .error rfl
  · exact .error rfl

theorem unpackPayload_raises (environment : Environment) (payload : List UInt8) :
    RaisesPacketError (unpackPayload environment payload) := by
  unfold unpackPayload
  split
  · exact .error rfl
  · exact tagElements_raises _

theorem payloadType_raises (value : Value) : RaisesMessageError (payloadType value) := by
  unfold payloadType
  split
  · exact (MessageType.ofValue_raises _).map _
  all_goals exact raises_messageError _

theorem createGuessed_raises (expected : MessageType) (value : Value) :
    RaisesProtocolError (createGuessed expected value) := by
  apply (payloadType_raises value).protocolError.bind
  intro typed
  dsimp only
  split
  · exact (raises_messageError _).protocolError
  · split
    · exact ((validatePublicKey_raises _).map _).protocolError
    · exact ((ClientAuth.fromPayload_raises _).map _).protocolError
    · exact raises_messageFlowError _

theorem create_raises (source : Address) (value : Value) :
    RaisesProtocolError (create source value) := by
  apply (payloadType_raises value).protocolError.bind
  intro typed
  dsimp only
  split
  · exact ((dropResponderFromPayload_raises _).map _).protocolError
  · exact raises_messageFlowError _

theorem createRelay_raises (nonce : Nonce) (packet : List UInt8) :
    RaisesPacketError (createRelay nonce packet) := by
  have address (address : Address) : RaisesPacketError (clientAddress address) := by
    unfold clientAddress
    split
    · exact .error rfl
    · exact .ok _
  exact (address _).bind fun _ => (address _).bind fun _ => .ok _

theorem decryptAndUnpack_raises (environment : Environment) (session : Session)
    (bytes data : List UInt8) :
    (decryptAndUnpack environment session bytes data).RaisesPacketError := by
  unfold decryptAndUnpack Session.decryptPayload
  cases session.readBox with
  | mk boxed box =>
      dsimp only
      cases environment.decrypt box bytes data with
      | none => exact .raised _ rfl
      | some payload =>
          dsimp only
          split
          · next failed => exact .raised _ (unpackPayload_raises _ _ _ failed)
          · exact .returned _ _

theorem unpackGuessed_raises (environment : Environment) (session : Session)
    (bytes data : List UInt8) :
    (unpackGuessed environment session bytes data).RaisesPacketError := by
  unfold unpackGuessed
  split
  · exact .returned _ _
  · split
    · exact .returned _ _
    · exact .raised _ rfl
    · next failed => exact .raised _ (unpackPayload_raises _ _ _ failed)
  · next failed => exact .raised _ (decryptAndUnpack_raises _ _ _ _ _ _ failed)

theorem unpackToServer_raises (environment : Environment) (session : Session)
    (client : PathClient) (nonce : Nonce) (packet : List UInt8) :
    (unpackToServer environment session client nonce packet).RaisesPacketError := by
  unfold unpackToServer
  dsimp only
  split
  · split
    · next failed => exact .raised _ (decryptAndUnpack_raises _ _ _ _ _ _ failed)
    · split
      · next failed => exact .raised _ (create_raises _ _ _ failed).packetError
      · exact .returned _ _
  · split
    · next failed => exact .raised _ (unpackGuessed_raises _ _ _ _ _ _ failed)
    · split
      · next failed => exact .raised _ (createGuessed_raises _ _ _ failed).packetError
      · exact .returned _ _

/-- Nothing else is raised for a packet. -/
theorem unpack_raises (environment : Environment) (session : Session) (client : PathClient)
    (packet : List UInt8) : (unpack environment session client packet).RaisesPacketError := by
  unfold unpack
  split
  · exact .raised _ rfl
  · split
    · next failed => exact .raised _ (Session.unpackNonce_packetError _ _ _ _ _ failed)
    · split
      · exact unpackToServer_raises _ _ _ _ _
      · split
        · next failed => exact .raised _ (createRelay_raises _ _ _ failed)
        · exact .returned _ _

end IncomingMessage

end Errors

end SaltyRtcServer
