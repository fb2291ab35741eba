import SaltyRtcServer.BigEndian
import SaltyRtcServer.Common
import Mathlib.Data.List.GetD

/-!
# Nonces

Every packet starts with 24 bytes that are laid out as `NONCE_FORMATTER` says:
a cookie, the addresses of source and destination, and the combined sequence
number.
-/

namespace SaltyRtcServer

/-- `common.DATA_LENGTH_MIN`. -/
def dataLengthMin : Nat := 25

/-- `common.NONCE_LENGTH`. -/
def nonceLength : Nat := 24

/-- `common.COOKIE_LENGTH`. -/
def cookieLength : Nat := 16

abbrev Cookie := { bytes : List UInt8 // bytes.length = cookieLength }

/-- `Address(value)` of a byte, which is always in range. -/
def Address.ofByte (byte : UInt8) : Address := ⟨byte.toNat, Nat.le_of_lt_succ byte.toNat_lt⟩

def Address.toByte (address : Address) : UInt8 := UInt8.ofNat address.1

@[simp]
theorem Address.ofByte_toByte (address : Address) : Address.ofByte address.toByte = address := by
  apply Subtype.ext
  have := address.2
  simp only [ofByte, toByte, UInt8.toNat_ofNat']
  omega

@[simp]
theorem Address.toByte_ofByte (byte : UInt8) : (Address.ofByte byte).toByte = byte := by
  apply UInt8.toNat.inj
  simp [ofByte, toByte]

theorem Address.toByte_inj {one other : Address} : one.toByte = other.toByte ↔ one = other :=
  Function.LeftInverse.injective Address.ofByte_toByte |>.eq_iff

/-- The fields of a nonce. -/
structure Nonce where
  cookie : Cookie
  source : Address
  destination : Address
  number : Nat
  number_lt : number < 2 ^ 48

namespace Nonce

/-- `struct.pack` with `NONCE_FORMATTER`; the number is packed as eight bytes,
and the first two are cut off. -/
def pack (cookie : Cookie) (source destination : Address) (number : Nat) : List UInt8 :=
  cookie.1 ++ source.toByte :: destination.toByte :: (BigEndian.encode 8 number).drop 2

/-- The number in the last six bytes of a nonce, unpacked with two zeros before
it. -/
def encodedNumber (bytes : List UInt8) : Nat := BigEndian.decode (0 :: 0 :: bytes.drop 18)

theorem encodedNumber_lt {bytes : List UInt8} (complete : bytes.length = nonceLength) :
    encodedNumber bytes < 2 ^ 48 := by
  have bound := BigEndian.decode_lt (bytes.drop 18)
  rw [encodedNumber, BigEndian.decode_zero_cons, BigEndian.decode_zero_cons]
  rw [List.length_drop, complete, nonceLength] at bound
  omega

/-- `struct.unpack` with `NONCE_FORMATTER`, and `Address` of both addresses. -/
def unpack (bytes : List UInt8) : Except PyException Nonce :=
  if complete : bytes.length = nonceLength then
    .ok {
      cookie := ⟨bytes.take cookieLength, by
        rw [List.length_take, complete, nonceLength, cookieLength]
        rfl⟩
      source := .ofByte (bytes.getD 16 0)
      destination := .ofByte (bytes.getD 17 0)
      number := encodedNumber bytes
      number_lt := encodedNumber_lt complete }
  else .error (.messageError "Could not unpack nonce")

@[simp]
theorem length_pack (cookie : Cookie) (source destination : Address) (number : Nat) :
    (pack cookie source destination number).length = nonceLength := by
  simp [pack, cookie.2, cookieLength, nonceLength]

theorem encodedNumber_pack (cookie : Cookie) (source destination : Address) {number : Nat}
    (small : number < 2 ^ 48) :
    encodedNumber (pack cookie source destination number) = number := by
  have cut : (pack cookie source destination number).drop 18 = BigEndian.encode 6 number := by
    have front : cookie.1.length = 16 := cookie.2
    rw [pack, List.drop_append, front, List.drop_eq_nil_of_le (by omega)]
    exact BigEndian.drop_encode 2 6 number
  rw [encodedNumber, cut, BigEndian.decode_zero_cons, BigEndian.decode_zero_cons]
  exact BigEndian.decode_encode_of_lt small

/-- What was packed is unpacked again. -/
theorem unpack_pack (cookie : Cookie) (source destination : Address) {number : Nat}
    (small : number < 2 ^ 48) :
    unpack (pack cookie source destination number) =
      .ok ⟨cookie, source, destination, number, small⟩ := by
  have front : cookie.1.length = 16 := cookie.2
  have bytes : (pack cookie source destination number).take cookieLength = cookie.1 := by
    rw [pack]
    exact List.take_left' front
  have first : (pack cookie source destination number).getD 16 0 = source.toByte := by
    rw [pack, List.getD_append_right _ _ _ _ (by omega), front]
    rfl
  have second : (pack cookie source destination number).getD 17 0 = destination.toByte := by
    rw [pack, List.getD_append_right _ _ _ _ (by omega), front]
    rfl
  rw [unpack, dif_pos (length_pack ..)]
  simp only [bytes, first, second, encodedNumber_pack cookie source destination small,
    Address.ofByte_toByte]

/-- The bytes of a nonce. -/
def bytes (nonce : Nonce) : List UInt8 :=
  pack nonce.cookie nonce.source nonce.destination nonce.number

/-- What `relay_message` takes from a packed message as its id. -/
def messageId (packet : List UInt8) : List UInt8 := (packet.take nonceLength).drop cookieLength

/-- The last six of the eight bytes of the number are those of a shorter number. -/
theorem drop_encode_number (number : Nat) :
    (BigEndian.encode 8 number).drop 2 = BigEndian.encode 6 number :=
  BigEndian.drop_encode 2 6 number

/-- The two zeros in front do not count, so the six bytes are packed again. -/
theorem encode_encodedNumber {bytes : List UInt8} (complete : bytes.length = nonceLength) :
    (BigEndian.encode 8 (encodedNumber bytes)).drop 2 = bytes.drop 18 := by
  have six : (bytes.drop 18).length = 6 := by rw [List.length_drop, complete, nonceLength]
  rw [drop_encode_number, encodedNumber, BigEndian.decode_zero_cons, BigEndian.decode_zero_cons,
    ← six]
  exact BigEndian.encode_decode (bytes.drop 18)

/-- What was unpacked is packed again. -/
theorem bytes_of_unpack {bytes : List UInt8} {nonce : Nonce} (unpacked : unpack bytes = .ok nonce) :
    nonce.bytes = bytes := by
  unfold unpack at unpacked
  split at unpacked
  · next complete =>
    cases unpacked
    have split : bytes.drop cookieLength = bytes.getD 16 0 :: bytes.getD 17 0 :: bytes.drop 18 := by
      have inside : 17 < bytes.length := by rw [complete, nonceLength]; decide
      rw [List.getD_eq_getElem _ _ (by omega), List.getD_eq_getElem _ _ inside,
        List.getElem_cons_drop, List.getElem_cons_drop]
      rfl
    simp only [Nonce.bytes, pack, Address.toByte_ofByte, encode_encodedNumber complete]
    rw [← split, List.take_append_drop]
  · contradiction

/-- The id in a packet consists of the addresses and the number of its nonce. -/
theorem messageId_append (nonce : Nonce) (payload : List UInt8) :
    messageId (nonce.bytes ++ payload) =
      nonce.source.toByte :: nonce.destination.toByte :: BigEndian.encode 6 nonce.number := by
  have complete : nonce.bytes.length = nonceLength := length_pack ..
  rw [messageId, List.take_left' complete, bytes, pack, List.drop_left' nonce.cookie.2,
    drop_encode_number]

theorem messageId_eq_iff (one other : Nonce) (payload more : List UInt8) :
    messageId (one.bytes ++ payload) = messageId (other.bytes ++ more) ↔
      one.source = other.source ∧ one.destination = other.destination ∧
        one.number = other.number := by
  rw [messageId_append, messageId_append, List.cons_eq_cons, List.cons_eq_cons,
    Address.toByte_inj, Address.toByte_inj]
  refine and_congr_right fun _ => and_congr_right fun _ => ⟨fun same => ?_, congrArg _⟩
  rw [← @BigEndian.decode_encode_of_lt 6 _ one.number_lt, same]
  exact @BigEndian.decode_encode_of_lt 6 _ other.number_lt

/-- Packing and unpacking are inverse to each other, and the message id of a packet stands
for the addresses and the number. -/
theorem round_trip :
    (∀ nonce : Nonce, nonce.bytes.length = nonceLength ∧ unpack nonce.bytes = .ok nonce) ∧
      (∀ packed : { bytes : List UInt8 // bytes.length = nonceLength },
        ∃ nonce, unpack packed.1 = .ok nonce ∧ nonce.bytes = packed.1) ∧
      ∀ (one other : Nonce) (payload more : List UInt8),
        messageId (one.bytes ++ payload) = messageId (other.bytes ++ more) ↔
          one.source = other.source ∧ one.destination = other.destination ∧
            one.number = other.number := by
  refine ⟨fun nonce => ⟨length_pack .., unpack_pack _ _ _ nonce.number_lt⟩, ?_, messageId_eq_iff⟩
  rintro ⟨packed, complete⟩
  obtain ⟨nonce, unpacked⟩ : ∃ nonce, unpack packed = .ok nonce :=
    ⟨_, by rw [unpack, dif_pos complete]⟩
  exact ⟨nonce, unpacked, bytes_of_unpack unpacked⟩

end Nonce

end SaltyRtcServer
