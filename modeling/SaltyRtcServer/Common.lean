import Mathlib.Data.Fintype.Card
import Mathlib.Data.Fintype.EquivFin
import Mathlib.Order.Interval.Finset.Nat
import Mathlib.Tactic.DeriveFintype

/-!
# Constants, addresses and exceptions

The enumerations and address classes of `common.py` and the exceptions of
`exception.py`, together with the built-in exceptions that the server's own
code raises or catches.  An address class is a subtype: the range checks of
its constructor are made once, and every value that exists has passed them.
-/

namespace SaltyRtcServer

/-- Exceptions that travel through the modelled code. -/
inductive PyException
  | valueError (message : String)
  | keyError (message : String)
  | slotsFullError (message : String)
  | internalError (message : String)
  | messageError (message : String)
  | messageFlowError (message : String)
  | pingTimeoutError
  | serverKeyError (message : String)
  | downgradeError (message : String)
  | indexError (message : String)
  | typeError (message : String)
  | cryptError (message : String)
  | disconnected (reason : Nat)
  | cancelledError
  deriving DecidableEq, Repr

/-- What receiving, unpacking and packing a message raise. -/
def PyException.isPacketError : PyException → Bool
  | .messageError _ | .messageFlowError _ | .downgradeError _ | .serverKeyError _
  | .valueError _ | .indexError _ | .typeError _ | .cryptError _ => true
  | _ => false

abbrev PacketError := { exception : PyException // exception.isPacketError = true }

theorem exceptMap_ok {Error First Second : Type} {function : First → Second}
    {result : Except Error First} {value : Second} (mapped : result.map function = .ok value) :
    ∃ first, result = .ok first ∧ function first = value := by
  cases result with
  | error exception => contradiction
  | ok first =>
      cases mapped
      exact ⟨first, rfl, rfl⟩

theorem exceptBind_ok {Error First Second : Type} {next : First → Except Error Second}
    {result : Except Error First} {value : Second} (bound : result >>= next = .ok value) :
    ∃ first, result = .ok first ∧ next first = .ok value := by
  cases result with
  | error exception => contradiction
  | ok first => exact ⟨first, rfl, bound⟩

/-- What is computed for all items is computed for each. -/
theorem exceptMapM_ok {First Second : Type} {function : First → Except PyException Second}
    {items : List First} {values : List Second} (mapped : items.mapM function = .ok values) :
    ∀ item ∈ items, ∃ value, function item = .ok value := by
  induction items generalizing values with
  | nil => simp
  | cons first rest ih =>
      rw [List.mapM_cons] at mapped
      obtain ⟨value, isValue, mapped⟩ := exceptBind_ok mapped
      obtain ⟨others, isOthers, _⟩ := exceptBind_ok mapped
      exact List.forall_mem_cons.mpr ⟨⟨value, isValue⟩, ih isOthers⟩

/-- `common.CloseCode`. -/
inductive CloseCode
  | goingAway
  | subprotocolError
  | pathFullError
  | protocolError
  | internalError
  | handover
  | dropByInitiator
  | initiatorCouldNotDecrypt
  | noSharedTasks
  | invalidKey
  | timeout
  deriving DecidableEq, Repr

/-- The number sent on the wire for a close code. -/
def CloseCode.value : CloseCode → Nat
  | .goingAway => 1001
  | .subprotocolError => 1002
  | .pathFullError => 3000
  | .protocolError => 3001
  | .internalError => 3002
  | .handover => 3003
  | .dropByInitiator => 3004
  | .initiatorCouldNotDecrypt => 3005
  | .noSharedTasks => 3006
  | .invalidKey => 3007
  | .timeout => 3008

/-- `common.DropReason`. -/
inductive DropReason
  | protocolError
  | internalError
  | dropByInitiator
  | initiatorCouldNotDecrypt
  deriving DecidableEq, Repr

/-- `CloseCode(reason)`: every drop reason is a close code. -/
def DropReason.closeCode : DropReason → CloseCode
  | .protocolError => .protocolError
  | .internalError => .internalError
  | .dropByInitiator => .dropByInitiator
  | .initiatorCouldNotDecrypt => .initiatorCouldNotDecrypt

/-- `common.ClientState`. -/
inductive ClientState
  | restricted
  | authenticated
  | dropped
  deriving DecidableEq, Repr

/-- `ClientState.next`; the enumeration has no member after `dropped`. -/
def ClientState.next : ClientState → Except PyException ClientState
  | .restricted => .ok .authenticated
  | .authenticated => .ok .dropped
  | .dropped => .error (.valueError "4 is not a valid ClientState")

/-- `common.AddressType`. -/
inductive AddressType
  | server
  | initiator
  | responder
  deriving DecidableEq, Repr

/-- Two lower-case hexadecimal digits at least, as in `'{:02x}'`. -/
def hexByte (value : Nat) : String :=
  let digits := Nat.toDigits 16 value
  String.ofList (List.replicate (2 - digits.length) '0' ++ digits)

/-- `common.Address`: a number from `0x00` to `0xff`. -/
abbrev Address := { value : Nat // value ≤ 0xff }

/-- `Address(value)`. -/
def Address.ofNat (value : Nat) : Except PyException Address :=
  if inRange : value ≤ 0xff then .ok ⟨value, inRange⟩
  else .error (.valueError ("Invalid address: 0x" ++ hexByte value))

/-- `Address.type`. -/
def Address.type (address : Address) : AddressType :=
  if address.1 = 0x00 then .server
  else if address.1 = 0x01 then .initiator
  else .responder

/-- `common.SERVER_ADDRESS`. -/
def serverAddress : Address := ⟨0x00, by decide⟩

/-- `common.INITIATOR_ADDRESS`. -/
def initiatorAddress : Address := ⟨0x01, by decide⟩

/-- The address is one of the two constants.  An address that the server itself holds is one of
them whenever it has their number. -/
abbrev Address.IsConstant (address : Address) : Prop :=
  address = serverAddress ∨ address = initiatorAddress

/-- What every method that a Splice class wraps does first with the object it is called on: a
copy of it is made, which calls its class with its number.  The classes of the two constants
take no number. -/
def Address.copy (address : Address) : Except PyException Address :=
  if address.IsConstant then
    .error (.typeError "__new__() takes 1 positional argument but 2 were given")
  else .ok address

/-- Its text in a format such as `'0x{:02x}'`. -/
def Address.format (address : Address) : Except PyException String :=
  address.copy.map fun address => hexByte address.1

/-- `common.ResponderAddress`: a number from `0x02` to `0xff`. -/
abbrev ResponderAddress := { value : Nat // 0x02 ≤ value ∧ value ≤ 0xff }

/-- The slot that is assigned first. -/
def ResponderAddress.lowest : ResponderAddress := ⟨0x02, by decide⟩

/-- `ResponderAddress(value)`.  The constructors of `Address`, `ClientAddress`
and `ResponderAddress` raise the same error, each for its own part of the
range. -/
def ResponderAddress.ofNat (value : Nat) : Except PyException ResponderAddress :=
  if inRange : 0x02 ≤ value ∧ value ≤ 0xff then .ok ⟨value, inRange⟩
  else .error (.valueError ("Invalid address: 0x" ++ hexByte value))

/-- A responder's address as a plain address. -/
def ResponderAddress.toAddress (id : ResponderAddress) : Address := ⟨id.1, id.2.2⟩

@[simp]
theorem ResponderAddress.toAddress_val (id : ResponderAddress) : id.toAddress.1 = id.1 :=
  rfl

@[simp, grind =]
theorem ResponderAddress.toAddress_inj (id other : ResponderAddress) :
    id.toAddress = other.toAddress ↔ id = other := by
  rw [Subtype.ext_iff, Subtype.ext_iff, toAddress_val, toAddress_val]

@[simp]
theorem ResponderAddress.ofNat_val (id : ResponderAddress) :
    ResponderAddress.ofNat id.1 = .ok id := by
  simp [ResponderAddress.ofNat, id.2]

theorem ResponderAddress.ofNat_eq_ok {value : Nat} {id : ResponderAddress}
    (converted : ResponderAddress.ofNat value = .ok id) : id.1 = value := by
  unfold ResponderAddress.ofNat at converted
  split at converted
  · injection converted with same
    rw [← same]
  · contradiction

theorem ResponderAddress.ne_initiatorAddress (id : ResponderAddress) :
    id.toAddress ≠ initiatorAddress := by
  intro same
  have value : id.1 = 0x01 := congrArg Subtype.val same
  have := id.2.1
  omega

theorem ResponderAddress.ne_serverAddress (id : ResponderAddress) :
    id.toAddress ≠ serverAddress := by
  intro same
  have value : id.1 = 0x00 := congrArg Subtype.val same
  have := id.2.1
  omega

theorem Address.copy_error {address : Address} {exception : PyException}
    (failed : address.copy = .error exception) :
    address.IsConstant ∧ exception.isPacketError = true := by
  unfold copy at failed
  split at failed
  · next constant =>
    cases failed
    exact ⟨constant, rfl⟩
  · contradiction

theorem Address.format_constant {address : Address}
    (constant : address.IsConstant) : ∃ text, address.format = .error (.typeError text) :=
  ⟨_, by rw [format, copy, if_pos constant, Except.map]⟩

theorem Address.format_error {address : Address} {exception : PyException}
    (failed : address.format = .error exception) : address.IsConstant := by
  by_contra other
  rw [format, copy, if_neg other] at failed
  contradiction

theorem Address.copy_ok {address copied : Address} (succeeded : address.copy = .ok copied) :
    copied = address ∧ ¬ address.IsConstant := by
  unfold copy at succeeded
  split at succeeded
  · contradiction
  · next other =>
    cases succeeded
    exact ⟨rfl, other⟩

instance : Fintype ResponderAddress :=
  Fintype.subtype (Finset.Icc 0x02 0xff) fun _ => Finset.mem_Icc

/-- A path has 254 responder slots. -/
theorem card_responderAddress : Fintype.card ResponderAddress = 254 := by
  rw [Fintype.card_of_subtype (Finset.Icc 0x02 0xff) fun _ => Finset.mem_Icc, Nat.card_Icc]

end SaltyRtcServer
