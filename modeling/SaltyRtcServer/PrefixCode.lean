import Mathlib.Data.List.Basic
import Mathlib.Logic.Function.Basic

/-!
# Prefix-free encodings of symbols

An encoding of symbols by words is prefix-free when the first symbol can be
read off the front of any longer word.  Words that encode whole lists of
symbols can then be decoded.
-/

namespace PrefixCode

variable {Symbol Letter : Type*}

/-- The code of a symbol is read off the front of a longer word in one way. -/
def PrefixFree (encode : Symbol → List Letter) : Prop :=
  ∀ first second rest other,
    encode first ++ rest = encode second ++ other → first = second ∧ rest = other

/-- Concatenating the codes of a prefix-free encoding loses nothing, as long
as every code has a letter. -/
theorem PrefixFree.flatMap_injective {encode : Symbol → List Letter}
    (free : PrefixFree encode) (nonempty : ∀ symbol, encode symbol ≠ []) :
    Function.Injective fun symbols : List Symbol => symbols.flatMap encode := by
  intro symbols
  induction symbols with
  | nil =>
      intro others same
      cases others with
      | nil => rfl
      | cons symbol _ => simp [nonempty symbol] at same
  | cons symbol rest ih =>
      intro others same
      cases others with
      | nil => simp [nonempty symbol] at same
      | cons other remaining =>
          obtain ⟨rfl, tails⟩ := free symbol other _ _ same
          rw [ih tails]

end PrefixCode
