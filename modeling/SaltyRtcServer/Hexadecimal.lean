import Mathlib.Data.Nat.Digits.Defs
import Mathlib.Tactic.IntervalCases

/-!
# Hexadecimal text

Bytes are written with two lower-case digits each.  Reading accepts both cases,
so that what is read is determined by the text with its letters in lower case.
-/

namespace Hexadecimal

/-- The value of a digit, in either case. -/
def digit? (character : Char) : Option Nat :=
  if '0' ≤ character ∧ character ≤ '9' then some (character.toNat - '0'.toNat)
  else if 'a' ≤ character ∧ character ≤ 'f' then some (character.toNat - 'a'.toNat + 10)
  else if 'A' ≤ character ∧ character ≤ 'F' then some (character.toNat - 'A'.toNat + 10)
  else none

/-- The two digits of a byte. -/
def ofByte (byte : UInt8) : List Char :=
  [Nat.digitChar (byte.toNat / 16), Nat.digitChar (byte.toNat % 16)]

def encode (bytes : List UInt8) : List Char := bytes.flatMap ofByte

/-- The bytes that an even number of digits stands for. -/
def decode : List Char → Option (List UInt8)
  | [] => some []
  | [_] => none
  | high :: low :: rest =>
      match digit? high, digit? low, decode rest with
      | some high, some low, some bytes => some (UInt8.ofNat (16 * high + low) :: bytes)
      | _, _, _ => none

theorem digit?_digitChar {value : Nat} (small : value < 16) :
    digit? (Nat.digitChar value) = some value := by
  interval_cases value <;> rfl

theorem toLower_digitChar {value : Nat} (small : value < 16) :
    (Nat.digitChar value).toLower = Nat.digitChar value := by
  interval_cases value <;> rfl

/-- What holds of the ASCII characters and of a character that is neither a digit nor
changed by `toLower` holds of all. -/
@[elab_as_elim]
theorem ascii_cases {holds : Char → Prop} (ascii : ∀ code < 128, holds (Char.ofNat code))
    (other : ∀ character : Char, digit? character = none → character.toLower = character →
      holds character) (character : Char) : holds character := by
  by_cases small : character.toNat < 128
  · simpa using ascii character.toNat small
  · have large (bound : Char) (isSmall : bound.toNat < 128) : ¬ character ≤ bound := by
      intro below
      have : character.toNat ≤ bound.toNat := below
      omega
    refine other character ?_ ?_
    · simp [digit?, large '9' (by decide), large 'f' (by decide), large 'F' (by decide)]
    · exact dif_neg fun ⟨_, below⟩ => large 'Z' (by decide) below

theorem digit?_toLower (character : Char) : digit? character.toLower = digit? character := by
  refine ascii_cases ?_ ?_ character
  · decide
  · intro character _ same
    rw [same]

theorem digit?_eq_some_iff (character : Char) (value : Nat) :
    digit? character = some value ↔ value < 16 ∧ character.toLower = Nat.digitChar value := by
  constructor
  · have values : ∀ value ∈ digit? character,
        value < 16 ∧ character.toLower = Nat.digitChar value := by
      refine ascii_cases ?_ ?_ character
      · decide
      · intro character none _ value isDigit
        rw [none] at isDigit
        contradiction
    exact values value
  · rintro ⟨small, same⟩
    rw [← digit?_toLower, same, digit?_digitChar small]

theorem ofByte_ofNat {high low : Nat} (highSmall : high < 16) (lowSmall : low < 16) :
    ofByte (UInt8.ofNat (16 * high + low)) = [Nat.digitChar high, Nat.digitChar low] := by
  have value : (UInt8.ofNat (16 * high + low)).toNat = 16 * high + low := by
    rw [UInt8.toNat_ofNat']
    omega
  have quotient : (16 * high + low) / 16 = high := by omega
  have remainder : (16 * high + low) % 16 = low := by omega
  rw [ofByte, value, quotient, remainder]

theorem ofNat_halves (byte : UInt8) :
    UInt8.ofNat (16 * (byte.toNat / 16) + byte.toNat % 16) = byte := by
  rw [Nat.div_add_mod, UInt8.ofNat_toNat]

theorem decode_cons_eq_some_iff (high low : Char) (rest : List Char) (bytes : List UInt8) :
    decode (high :: low :: rest) = some bytes ↔
      ∃ highValue lowValue more, digit? high = some highValue ∧ digit? low = some lowValue ∧
        decode rest = some more ∧ bytes = UInt8.ofNat (16 * highValue + lowValue) :: more := by
  rw [decode]
  split
  · next highValue lowValue more isHigh isLow isMore =>
    rw [Option.some_inj]
    constructor
    · rintro rfl
      exact ⟨highValue, lowValue, more, isHigh, isLow, isMore, rfl⟩
    · rintro ⟨_, _, _, same, sameLow, sameMore, rfl⟩
      rw [isHigh, Option.some_inj] at same
      rw [isLow, Option.some_inj] at sameLow
      rw [isMore, Option.some_inj] at sameMore
      rw [same, sameLow, sameMore]
  · next fails =>
    refine iff_of_false (by simp) ?_
    rintro ⟨highValue, lowValue, more, isHigh, isLow, isMore, _⟩
    exact fails _ _ _ isHigh isLow isMore

/-- A text stands for the bytes whose digits it has, in either case. -/
theorem decode_eq_some_iff (text : List Char) (bytes : List UInt8) :
    decode text = some bytes ↔ text.map Char.toLower = encode bytes := by
  match text with
  | [] => cases bytes <;> simp [decode, encode, ofByte]
  | [character] => cases bytes <;> simp [decode, encode, ofByte]
  | high :: low :: rest =>
      rw [decode_cons_eq_some_iff]
      constructor
      · rintro ⟨highValue, lowValue, more, isHigh, isLow, isMore, rfl⟩
        obtain ⟨highSmall, highLower⟩ := (digit?_eq_some_iff _ _).mp isHigh
        obtain ⟨lowSmall, lowLower⟩ := (digit?_eq_some_iff _ _).mp isLow
        have tail := (decode_eq_some_iff rest more).mp isMore
        rw [List.map_cons, List.map_cons, highLower, lowLower, tail, encode, encode,
          List.flatMap_cons, ofByte_ofNat highSmall lowSmall]
        rfl
      · intro same
        cases bytes with
        | nil => contradiction
        | cons byte more =>
            have bound := byte.toNat_lt
            simp only [encode, List.flatMap_cons, ofByte, List.map_cons, List.cons_append,
              List.nil_append, List.cons.injEq] at same
            obtain ⟨highLower, lowLower, tail⟩ := same
            refine ⟨byte.toNat / 16, byte.toNat % 16, more, ?_, ?_, ?_, ?_⟩
            · exact (digit?_eq_some_iff _ _).mpr ⟨by omega, highLower⟩
            · exact (digit?_eq_some_iff _ _).mpr ⟨by omega, lowLower⟩
            · exact (decode_eq_some_iff rest more).mpr tail
            · rw [ofNat_halves]

theorem map_toLower_encode (bytes : List UInt8) :
    (encode bytes).map Char.toLower = encode bytes := by
  have ofByte_toLower (byte : UInt8) : (ofByte byte).map Char.toLower = ofByte byte := by
    have bound := byte.toNat_lt
    rw [ofByte, List.map_cons, List.map_singleton, toLower_digitChar (by omega),
      toLower_digitChar (by omega)]
  induction bytes with
  | nil => rfl
  | cons byte rest ih =>
      rw [encode, List.flatMap_cons, List.map_append, ofByte_toLower]
      exact congrArg _ ih

/-- What is written is read back. -/
theorem decode_encode (bytes : List UInt8) : decode (encode bytes) = some bytes :=
  (decode_eq_some_iff _ _).mpr (map_toLower_encode bytes)

theorem encode_injective : Function.Injective encode := by
  intro first second same
  rw [← Option.some_inj, ← decode_encode, same, decode_encode]

@[simp]
theorem length_encode (bytes : List UInt8) : (encode bytes).length = 2 * bytes.length := by
  induction bytes with
  | nil => rfl
  | cons byte rest ih =>
      rw [encode, List.flatMap_cons, List.length_append, ← encode, ih, List.length_cons, ofByte]
      simp
      omega

end Hexadecimal
