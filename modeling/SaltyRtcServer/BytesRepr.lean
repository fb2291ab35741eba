import SaltyRtcServer.PrefixCode

/-!
# The string form of a bytes object

`str(b)` of a Python bytes object is its literal, quotes and leading `b`
included.  Different bytes objects have different literals.
-/

namespace SaltyRtcServer

open PrefixCode

/-- The character whose code point is the byte. -/
def byteChar (byte : UInt8) : Char := Char.ofNat byte.toNat

/-- One byte inside a literal. -/
def escapeByte (quote : Char) (byte : UInt8) : List Char :=
  if byteChar byte = quote ∨ byteChar byte = '\\' then ['\\', byteChar byte]
  else if byteChar byte = '\t' then ['\\', 't']
  else if byteChar byte = '\n' then ['\\', 'n']
  else if byteChar byte = '\r' then ['\\', 'r']
  else if byte.toNat < 0x20 ∨ 0x7f ≤ byte.toNat then
    ['\\', 'x', Nat.digitChar (byte.toNat / 16), Nat.digitChar (byte.toNat % 16)]
  else [byteChar byte]

/-- Double quotes are used only around a literal that has single quotes and no
double quotes inside. -/
def literalQuote (bytes : List UInt8) : Char :=
  if bytes.any (byteChar · = '\'') && !bytes.any (byteChar · = '"') then '"' else '\''

/-- `str(bytes)`. -/
def bytesStr (bytes : List UInt8) : String :=
  let quote := literalQuote bytes
  String.ofList ('b' :: quote :: (bytes.flatMap (escapeByte quote) ++ [quote]))

theorem byteChar_toNat (byte : UInt8) : (byteChar byte).toNat = byte.toNat := by
  have := byte.toNat_lt
  rw [byteChar, Char.ofNat, dif_pos (Or.inl (by omega))]
  rfl

theorem byteChar_injective : Function.Injective byteChar := by
  intro first second same
  apply UInt8.toNat_inj.mp
  rw [← byteChar_toNat, ← byteChar_toNat, same]

theorem escapeByte_ne_nil (quote : Char) (byte : UInt8) : escapeByte quote byte ≠ [] := by
  unfold escapeByte
  repeat' split
  all_goals simp

theorem digitChar_inj {first second : Nat} (firstLt : first < 16) (secondLt : second < 16)
    (same : Nat.digitChar first = Nat.digitChar second) : first = second := by
  have table : ∀ first < 16, ∀ second < 16,
      Nat.digitChar first = Nat.digitChar second → first = second := by decide
  exact table first firstLt second secondLt same

/-- The hexadecimal digits of a byte determine it. -/
theorem byte_eq_of_digitChar {first second : UInt8}
    (high : Nat.digitChar (first.toNat / 16) = Nat.digitChar (second.toNat / 16))
    (low : Nat.digitChar (first.toNat % 16) = Nat.digitChar (second.toNat % 16)) :
    first = second := by
  have firstLt := first.toNat_lt
  have secondLt := second.toNat_lt
  have highEq := digitChar_inj (by omega) (by omega) high
  have lowEq := digitChar_inj (by omega) (by omega) low
  exact UInt8.toNat_inj.mp (by omega)

theorem escapeByte_prefixFree {quote : Char} (isQuote : quote = '\'' ∨ quote = '"') :
    PrefixFree (escapeByte quote) := by
  intro first second rest other same
  have plain := @byteChar_injective first second
  have hexadecimal := @byte_eq_of_digitChar first second
  -- Every escape starts with a backslash, and its second character tells which one it is.
  unfold escapeByte at same
  repeat' split at same
  all_goals grind

theorem literalQuote_eq (bytes : List UInt8) :
    literalQuote bytes = '\'' ∨ literalQuote bytes = '"' := by
  unfold literalQuote
  split
  · exact .inr rfl
  · exact .inl rfl

/-- Different bytes objects have different string forms. -/
theorem bytesStr_injective : Function.Injective bytesStr := by
  intro first second same
  have literals := String.ofList_injective same
  simp only [List.cons.injEq, true_and] at literals
  obtain ⟨quotes, bodies⟩ := literals
  rw [← quotes] at bodies
  have codes := List.append_cancel_right bodies
  exact (escapeByte_prefixFree (literalQuote_eq first)).flatMap_injective
    (escapeByte_ne_nil _) codes

/-- Printable characters stand for themselves, others are escaped. -/
example : bytesStr [0x61, 0x27, 0x00, 0x5c] = "b\"a'\\x00\\\\\"" := by decide

end SaltyRtcServer
