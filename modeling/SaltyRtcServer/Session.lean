import SaltyRtcServer.Message
import SaltyRtcServer.Nonce
import Mathlib.Algebra.Order.Ring.Nat

/-!
# Sessions

The rest of `protocol.PathClient`: keys, cookies and combined sequence numbers.
The session key of the server, its cookie and the first number of its messages
are drawn at random when they are first used, and never again.  A session
therefore carries what these draws yield.  Of a counter that is not yet
initialised nothing is known, so a counter is optional.
-/

namespace SaltyRtcServer

abbrev SecretKey := List UInt8

abbrev PublicKey := List UInt8

/-- What a client object draws at random. -/
structure Drawn where
  serverKey : SecretKey
  cookieOut : Cookie
  number : { bytes : List UInt8 // bytes.length = 4 }

/-- A draw of zeros only. -/
def zeroDrawn : Drawn := ⟨[], ⟨List.replicate 16 0, rfl⟩, ⟨List.replicate 4 0, rfl⟩⟩

def onesCookie : Cookie := ⟨List.replicate 16 1, rfl⟩

structure Session where
  drawn : Drawn
  clientKey : PublicKey
  box : Option (SecretKey × PublicKey)
  serverPermanentKey : Option SecretKey
  cookieIn : Option Cookie
  csnOut : Option SequenceNumber
  csnIn : Option SequenceNumber
  keepAliveInterval : Nat

/-- `_increment_csn` below the overflow. -/
theorem SequenceNumber.increment_some {value : Nat} (small : value < 2 ^ 48) :
    SequenceNumber.increment (some value) =
      if value + 1 = 2 ^ 48 then none else some (value + 1) := by
  by_cases last : value + 1 = 2 ^ 48
  · rw [if_pos last, increment, last]
    rfl
  · have inside : value + 1 < 2 ^ 48 := by omega
    have masked : (value + 1) &&& 0xf000000000000 = 0 := by
      apply Nat.eq_of_testBit_eq
      intro bit
      have mask : (0xf000000000000 : Nat) = 15 <<< 48 := rfl
      rw [Nat.testBit_and, mask, Nat.testBit_shiftLeft, Nat.zero_testBit]
      by_cases high : 48 ≤ bit
      · rw [Nat.testBit_lt_two_pow (inside.trans_le (Nat.pow_le_pow_right (by decide) high)),
          Bool.false_and]
      · simp [high]
    rw [if_neg last, increment, masked, if_neg (not_not.mpr rfl)]

/-- `PathClient.p2p_allowed`. -/
def PathClient.P2pAllowed (client : PathClient) (destinationType : AddressType) : Prop :=
  client.state = .authenticated ∧ client.type ≠ some destinationType

instance (client : PathClient) (destinationType : AddressType) :
    Decidable (client.P2pAllowed destinationType) :=
  inferInstanceAs (Decidable (_ ∧ _))

namespace Session

/-- `PathClient(connection, path_number, initiator_key)`. -/
def new (drawn : Drawn) (initiatorKey : PublicKey) : Session where
  drawn := drawn
  clientKey := initiatorKey
  box := none
  serverPermanentKey := none
  cookieIn := none
  csnOut := none
  csnIn := none
  keepAliveInterval := 3600

/-- The first value of `csn_out`: four zeros before the random bytes. -/
def initialNumber (session : Session) : Nat :=
  BigEndian.decode (0 :: 0 :: 0 :: 0 :: session.drawn.number.1)

theorem initialNumber_lt (session : Session) : session.initialNumber < 2 ^ 32 := by
  have bound := BigEndian.decode_lt session.drawn.number.1
  rw [session.drawn.number.2] at bound
  simpa [initialNumber, BigEndian.decode_zero_cons] using bound

/-- `PathClient.csn_out`. -/
def readCsnOut (session : Session) : Session × SequenceNumber :=
  match session.csnOut with
  | some csn => (session, csn)
  | none => ({ session with csnOut := some (some session.initialNumber) },
      some session.initialNumber)

/-- `PathClient.increment_csn_out`. -/
def incrementCsnOut (session : Session) : Session :=
  let (session, csn) := session.readCsnOut
  { session with csnOut := some csn.increment }

/-- `PathClient.csn_in`. -/
def readCsnIn (session : Session) : Except PyException SequenceNumber :=
  match session.csnIn with
  | none => .error (.internalError "Client's combined sequence number not set!")
  | some csn => .ok csn

/-- `PathClient.increment_csn_in`. -/
def incrementCsnIn (session : Session) : Call Session Unit :=
  match session.readCsnIn with
  | .error exception => .raised session exception
  | .ok csn => .returned { session with csnIn := some csn.increment } ()

/-- `PathClient.valid_cookie`. -/
def validCookie (session : Session) (cookie : Cookie) : Session × Bool :=
  match session.cookieIn with
  | none =>
      if cookie = session.drawn.cookieOut then (session, false)
      else ({ session with cookieIn := some cookie }, true)
  | some cookieIn => (session, cookie = cookieIn)

/-- The first lines of `validate_csn_in`: the first number is learned. -/
def learnCsnIn (session : Session) (number : Nat) : Except PyException (Session × SequenceNumber) :=
  match session.csnIn with
  | some csn => .ok (session, csn)
  | none =>
      if number &&& 0xffff00000000 ≠ 0 then
        .error (.messageError "Invalid sequence number, leading 16 bits are not 0")
      else .ok ({ session with csnIn := some (some number) }, some number)

/-- `PathClient.validate_csn_in`. -/
def validateCsnIn (session : Session) (number : Nat) : Call Session Unit :=
  match session.learnCsnIn number with
  | .error exception => .raised session exception
  | .ok (session, none) =>
      .raised session (.messageFlowError
        "Cannot receive any more messages, due to a sequence number counter overflow")
  | .ok (session, some expected) =>
      if number ≠ expected then
        .raised session (.messageError
          s!"Invalid sequence number, expected {expected}, got {number}")
      else .returned session ()

/-- `PathClient.box`. -/
def readBox (session : Session) : Session × (SecretKey × PublicKey) :=
  match session.box with
  | some box => (session, box)
  | none =>
      let box := (session.drawn.serverKey, session.clientKey)
      ({ session with box := some box }, box)

/-- `PathClient.set_client_key`.  `libnacl.public.Box` refuses a public key with which no secret
can be shared, such as one of zeros only. -/
def setClientKey (accepts : PublicKey → Bool) (session : Session) (publicKey : PublicKey) :
    Session × Except PacketError Unit :=
  let session := { session with clientKey := publicKey }
  if accepts publicKey then
    ({ session with box := some (session.drawn.serverKey, publicKey) }, .ok ())
  else (session, .error ⟨.cryptError "Unable to compute shared key", rfl⟩)

theorem setClientKey_ok {accepts : PublicKey → Bool} {session after : Session}
    {publicKey : PublicKey} (accepted : session.setClientKey accepts publicKey = (after, .ok ())) :
    after = { session with
      clientKey := publicKey
      box := some (session.drawn.serverKey, publicKey) } := by
  unfold setClientKey at accepted
  split at accepted
  · cases accepted
    rfl
  · cases accepted

/-- The setter of `PathClient.keep_alive_interval`; the minimum is one second. -/
def setKeepAliveInterval (session : Session) (interval : Nat) : Session :=
  if 1 ≤ interval then { session with keepAliveInterval := interval } else session

end Session

end SaltyRtcServer
