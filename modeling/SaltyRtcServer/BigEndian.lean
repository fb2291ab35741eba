import Mathlib.Data.List.Induction
import Mathlib.Tactic.Ring

/-!
# Big-endian numbers

A fixed number of bytes, the most significant first.  A number that is too
large loses its leading digits.
-/

namespace BigEndian

/-- The last `width` bytes of a number. -/
def encode : Nat → Nat → List UInt8
  | 0, _ => []
  | width + 1, value => encode width (value / 256) ++ [UInt8.ofNat value]

/-- The number that bytes stand for. -/
def decode (bytes : List UInt8) : Nat :=
  bytes.foldl (fun value byte => value * 256 + byte.toNat) 0

@[simp]
theorem length_encode (width value : Nat) : (encode width value).length = width := by
  induction width generalizing value with
  | zero => rfl
  | succ width ih => simp [encode, ih]

theorem decode_append_singleton (bytes : List UInt8) (byte : UInt8) :
    decode (bytes ++ [byte]) = decode bytes * 256 + byte.toNat := by
  simp [decode]

theorem decode_encode (width value : Nat) :
    decode (encode width value) = value % 256 ^ width := by
  induction width generalizing value with
  | zero => simp [encode, decode, Nat.mod_one]
  | succ width ih =>
      rw [encode, decode_append_singleton, ih, pow_succ', Nat.mod_mul]
      simp
      ring

theorem decode_encode_of_lt {width value : Nat} (small : value < 256 ^ width) :
    decode (encode width value) = value := by
  rw [decode_encode, Nat.mod_eq_of_lt small]

theorem decode_lt (bytes : List UInt8) : decode bytes < 256 ^ bytes.length := by
  induction bytes using List.reverseRecOn with
  | nil => simp [decode]
  | append_singleton bytes byte ih =>
      have digit := byte.toNat_lt
      rw [decode_append_singleton, List.length_append, List.length_singleton, pow_succ]
      omega

theorem encode_decode (bytes : List UInt8) : encode bytes.length (decode bytes) = bytes := by
  induction bytes using List.reverseRecOn with
  | nil => rfl
  | append_singleton bytes byte ih =>
      have digit := byte.toNat_lt
      have quotient : (decode bytes * 256 + byte.toNat) / 256 = decode bytes := by omega
      rw [List.length_append, List.length_singleton, decode_append_singleton, encode, quotient, ih]
      congr
      apply UInt8.toNat.inj
      simp

/-- Leading digits can be cut off. -/
theorem drop_encode (more width value : Nat) :
    (encode (more + width) value).drop more = encode width value := by
  induction width generalizing value with
  | zero => simp [encode]
  | succ width ih =>
      rw [← Nat.add_assoc, encode, List.drop_append_of_le_length (by simp), ih, encode]

/-- Leading zeros do not count. -/
theorem decode_zero_cons (bytes : List UInt8) : decode (0 :: bytes) = decode bytes := by
  simp [decode]

end BigEndian
