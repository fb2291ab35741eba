import Mathlib.Data.List.ChainOfFn
import SaltyRtcServer.BytesRepr
import SaltyRtcServer.PositionalHash
import SaltyRtcServer.StrSynthesis

/-!
# Synthesis of strings with a given hash

`eq_constraint` asks for 100 codes with a hash, of which those in front may be
zero.  The hash functions are positional, so that these zeros do not count, and
`to_python` leaves them out.
-/

namespace SaltyRtcServer

/-- `SpliceDict.hash`, of the bytes of a string. -/
def SpliceDict.hash : List Int → Int := positionalHash 2

/-- `SpliceStr.default_hash`. -/
def SpliceStr.defaultHash : List Int → Int := positionalHash 31

namespace StrSynthesizer

variable {func : List Int → Int} {hash : Int} {chars : Fin maxCharLength → Int}
variable {codes : List Int} {text : List Char}

/-- The characters satisfy what `eq_constraint` adds to the solver. -/
def SolvesEquation (func : List Int → Int) (hash : Int) (chars : Fin maxCharLength → Int) : Prop :=
  ∀ assertion ∈ eqConstraint (func, hash), assertion.Holds ⟨[], chars⟩

/-- Every code is printable or padding, which is in front. -/
structure Padded (codes : List Int) : Prop where
  printable : ∀ code ∈ codes, code = 0 ∨ 32 ≤ code ∧ code ≤ 126
  front : codes.IsChain fun before code => code = 0 → before = 0

theorem solvesEquation_iff : SolvesEquation func hash chars ↔
    Padded (List.ofFn chars) ∧ func (List.ofFn chars) = hash := by
  simp only [SolvesEquation, eqConstraint, List.mem_append, List.mem_map, List.mem_finRange,
    true_and, List.mem_singleton, or_imp, forall_and, forall_exists_index, forall_apply_eq_imp_iff,
    forall_eq, StrAssertion.Holds]
  constructor
  · rintro ⟨⟨range, nulls⟩, equation⟩
    refine ⟨⟨List.forall_mem_ofFn_iff.mpr range, ?_⟩, equation⟩
    rw [List.isChain_ofFn]
    exact fun index inside => nulls ⟨index, by omega⟩
  · rintro ⟨⟨printable, front⟩, equation⟩
    rw [List.isChain_ofFn] at front
    exact ⟨⟨List.forall_mem_ofFn_iff.mp printable, fun index => front index (by omega)⟩, equation⟩

/-- The padding can be taken off. -/
theorem Padded.exists_text (padded : Padded codes) : ∃ count rest,
    codes = List.replicate count 0 ++ rest ∧ ∀ code ∈ rest, 32 ≤ code ∧ code ≤ 126 := by
  induction codes with
  | nil => exact ⟨0, [], rfl, by simp⟩
  | cons code codes ih =>
      obtain ⟨range, printable⟩ := List.forall_mem_cons.mp padded.printable
      obtain ⟨count, rest, rfl, isText⟩ := ih ⟨printable, padded.front.tail⟩
      rcases range with rfl | inRange
      · exact ⟨count + 1, rest, by rw [List.replicate_succ, List.cons_append], isText⟩
      · cases count with
        | zero => exact ⟨0, code :: rest, rfl, List.forall_mem_cons.mpr ⟨inRange, isText⟩⟩
        | succ count =>
            have zero := List.isChain_cons_cons.mp padded.front |>.1 rfl
            omega

/-- A positional hash does not depend on the padding. -/
theorem Padded.positionalHash_filter (padded : Padded codes) (base : Int) :
    positionalHash base (codes.filter fun code => 0 < code) = positionalHash base codes := by
  obtain ⟨count, rest, rfl, isText⟩ := padded.exists_text
  have kept : rest.filter (fun code => 0 < code) = rest := by
    rw [List.filter_eq_self]
    intro code mem
    have := isText code mem
    simp only [decide_eq_true_eq]
    omega
  rw [List.filter_append, kept, List.filter_replicate_of_neg (by decide), List.nil_append,
    positionalHash.replicate_zero_append]

/-- Printable codes can be padded. -/
theorem padded_of_printable (count : Nat) (printable : ∀ code ∈ codes, 32 ≤ code ∧ code ≤ 126) :
    Padded (List.replicate count 0 ++ codes) := by
  constructor
  · rw [List.forall_mem_append]
    exact ⟨fun code mem => .inl (List.eq_of_mem_replicate mem),
      fun code mem => .inr (printable code mem)⟩
  · induction count with
    | zero =>
        apply List.isChain_iff_getElem.mpr
        intro index inside zero
        have := printable _ (List.getElem_mem inside)
        omega
    | succ count ih => exact ih.cons fun _ _ _ => rfl

/-- The codes of a text, with padding in front. -/
def padText (text : List Char) : List Int :=
  List.replicate (maxCharLength - text.length) 0 ++ codesOf text

theorem length_padText (short : text.length ≤ maxCharLength) :
    (padText text).length = maxCharLength := by
  rw [padText, codesOf, List.length_append, List.length_replicate, List.length_map]
  omega

theorem printable_codesOf (printable : ∀ char ∈ text, char ∈ asciiCharset.chars) :
    ∀ code ∈ codesOf text, 32 ≤ code ∧ code ≤ 126 := by
  rw [codesOf, List.forall_mem_map]
  intro char mem
  have := mem_asciiCharset_iff.mp (printable char mem)
  omega

/-- The text is read back from its codes. -/
theorem textOf_padText (printable : ∀ char ∈ text, char ∈ asciiCharset.chars) :
    textOf (.codes (padText text)) = text := by
  have kept : (codesOf text).filter (fun code => 0 < code) = codesOf text := by
    rw [List.filter_eq_self]
    intro code mem
    have := printable_codesOf printable code mem
    simp only [decide_eq_true_eq]
    omega
  rw [textOf, padText, List.filter_append, kept, List.filter_replicate_of_neg (by decide),
    List.nil_append, codesOf, List.map_map]
  exact (List.map_congr_left fun char _ => char.ofNat_toNat).trans (List.map_id _)

/-- A text that is not too long solves the equation for its own hash. -/
theorem exists_solves_padText (base : Int) (printable : ∀ char ∈ text, char ∈ asciiCharset.chars)
    (short : text.length ≤ maxCharLength) : ∃ chars,
      SolvesEquation (positionalHash base) (positionalHash base (codesOf text)) chars ∧
        (toPython (.codes (List.ofFn chars))).value = text := by
  obtain ⟨chars, isPadded⟩ : ∃ chars : Fin maxCharLength → Int, List.ofFn chars = padText text := by
    rw [← length_padText short]
    exact ⟨(padText text).get, List.ofFn_get _⟩
  refine ⟨chars, solvesEquation_iff.mpr ⟨?_, ?_⟩, ?_⟩
  · rw [isPadded]
    exact padded_of_printable _ (printable_codesOf printable)
  · rw [isPadded, padText, positionalHash.replicate_zero_append]
  · rw [isPadded]
    exact textOf_padText printable

/-- What is read from a solution has the hash. -/
theorem hash_of_solves {base : Int} (solves : SolvesEquation (positionalHash base) hash chars) :
    (∀ char ∈ (toPython (.codes (List.ofFn chars))).value, char ∈ asciiCharset.chars) ∧
      positionalHash base (codesOf (toPython (.codes (List.ofFn chars))).value) = hash := by
  obtain ⟨padded, equation⟩ := solvesEquation_iff.mp solves
  obtain ⟨inSet, codes⟩ := textOf_codes padded.printable
  refine ⟨inSet, ?_⟩
  rw [toPython, codes, padded.positionalHash_filter, equation]

/-- Strings and the solutions for their hashes correspond to each other, for both hash
functions. -/
theorem hash_synthesis (func : List Int → Int)
    (isHash : func = SpliceDict.hash ∨ func = SpliceStr.defaultHash) :
    (∀ hash chars, SolvesEquation func hash chars →
      (∀ char ∈ (toPython (.codes (List.ofFn chars))).value, char ∈ asciiCharset.chars) ∧
        func (codesOf (toPython (.codes (List.ofFn chars))).value) = hash) ∧
    ∀ text : asciiCharset.Text, text.1.length ≤ maxCharLength → ∃ chars,
      SolvesEquation func (func (codesOf text.1)) chars ∧
        (toPython (.codes (List.ofFn chars))).value = text.1 := by
  obtain ⟨base, rfl⟩ : ∃ base, func = positionalHash base := by
    rcases isHash with rfl | rfl
    · exact ⟨2, rfl⟩
    · exact ⟨31, rfl⟩
  exact ⟨fun hash chars => hash_of_solves,
    fun text short => exists_solves_padText base text.2 short⟩

/-- A string of two characters, whose hash is `72 * 31 + 105`, and what solves its equation. -/
theorem hash_synthesis_hi :
    (∃ chars, SolvesEquation SpliceStr.defaultHash 2337 chars ∧
      (toPython (.codes (List.ofFn chars))).value = ['H', 'i']) ∧
    ∀ chars, SolvesEquation SpliceStr.defaultHash 2337 chars →
      SpliceStr.defaultHash (codesOf (toPython (.codes (List.ofFn chars))).value) = 2337 := by
  obtain ⟨sound, complete⟩ := hash_synthesis SpliceStr.defaultHash (.inr rfl)
  have printable : ∀ char ∈ ['H', 'i'], char ∈ asciiCharset.chars := by
    intro char mem
    rw [List.mem_cons, List.mem_singleton] at mem
    rcases mem with rfl | rfl <;> exact mem_asciiCharset_iff.mpr (by decide)
  exact ⟨complete ⟨['H', 'i'], printable⟩ (Nat.le_of_ble_eq_true rfl),
    fun chars solves => (sound _ _ solves).2⟩

section PathKeys

variable {bytes : List UInt8}

theorem digitChar_printable {digit : Nat} (small : digit < 16) :
    Nat.digitChar digit ∈ asciiCharset.chars := by
  have table : ∀ digit < 16, 32 ≤ (Nat.digitChar digit).toNat ∧
      (Nat.digitChar digit).toNat ≤ 126 := by decide
  exact mem_asciiCharset_iff.mpr (table digit small)

/-- Escapes are printable. -/
theorem escapeByte_printable {quote : Char} (isQuote : quote = '\'' ∨ quote = '"') (byte : UInt8) :
    ∀ char ∈ escapeByte quote byte, char ∈ asciiCharset.chars := by
  have small := byte.toNat_lt
  have backslash : '\\' ∈ asciiCharset.chars := mem_asciiCharset_iff.mpr (by decide)
  unfold escapeByte
  split
  · next special =>
    have printable : byteChar byte ∈ asciiCharset.chars := by
      rcases special with same | same
      · rcases isQuote with rfl | rfl
        · exact mem_asciiCharset_iff.mpr (by rw [same]; decide)
        · exact mem_asciiCharset_iff.mpr (by rw [same]; decide)
      · rwa [same]
    simp [backslash, printable]
  repeat' split
  · simp [mem_asciiCharset_iff]
  · simp [mem_asciiCharset_iff]
  · simp [mem_asciiCharset_iff]
  · have high := digitChar_printable (show byte.toNat / 16 < 16 by omega)
    have low := digitChar_printable (show byte.toNat % 16 < 16 by omega)
    have marker : 'x' ∈ asciiCharset.chars := mem_asciiCharset_iff.mpr (by decide)
    simp [backslash, marker, high, low]
  · next plain =>
    rw [List.forall_mem_singleton, mem_asciiCharset_iff, byteChar_toNat]
    omega

/-- The string form of a bytes object is printable. -/
theorem bytesStr_printable (bytes : List UInt8) :
    ∀ char ∈ (bytesStr bytes).toList, char ∈ asciiCharset.chars := by
  have isQuote := literalQuote_eq bytes
  have quote : literalQuote bytes ∈ asciiCharset.chars := by
    rcases isQuote with same | same
    · exact mem_asciiCharset_iff.mpr (by rw [same]; decide)
    · exact mem_asciiCharset_iff.mpr (by rw [same]; decide)
  have leading : 'b' ∈ asciiCharset.chars := mem_asciiCharset_iff.mpr (by decide)
  rw [bytesStr, String.toList_ofList, List.forall_mem_cons, List.forall_mem_cons,
    List.forall_mem_append, List.forall_mem_singleton, List.forall_mem_flatMap]
  exact ⟨leading, quote, fun byte _ => escapeByte_printable isQuote byte, quote⟩

/-- Codes that solve an equation for `SpliceDict.hash` bound the hash. -/
theorem hash_le_of_solves (solves : SolvesEquation SpliceDict.hash hash chars) :
    hash ≤ 126 * (2 ^ maxCharLength - 1) := by
  obtain ⟨padded, rfl⟩ := solvesEquation_iff.mp solves
  have atMost : ∀ code ∈ List.ofFn chars, code ≤ 126 := by
    intro code mem
    rcases padded.printable code mem with rfl | inRange
    · decide
    · exact inRange.2
  have bound := positionalHash.le_repunit (by decide : (0 : Int) ≤ 2) atMost
  rwa [List.length_ofFn, repunit_two] at bound

/-- The hash of a long string form is too large. -/
theorem lt_hash_bytesStr (long : maxCharLength < (bytesStr bytes).length) :
    126 * (2 ^ maxCharLength - 1) < SpliceDict.hash (codesOf (bytesStr bytes).toList) := by
  obtain ⟨rest, isText⟩ : ∃ rest, (bytesStr bytes).toList = 'b' :: rest :=
    ⟨_, String.toList_ofList⟩
  have printable := printable_codesOf (bytesStr_printable bytes)
  rw [← String.length_toList, isText, List.length_cons] at long
  rw [isText] at printable ⊢
  have atLeast : ∀ code ∈ codesOf rest, 32 ≤ code :=
    fun code mem => (printable code (List.mem_cons_of_mem _ mem)).1
  have others := positionalHash.repunit_le (by decide : (0 : Int) ≤ 2) atLeast
  have length : (codesOf rest).length = rest.length := List.length_map _
  have first : SpliceDict.hash (codesOf ('b' :: rest)) =
      98 * 2 ^ rest.length + positionalHash 2 (codesOf rest) := by
    rw [← length]
    exact positionalHash.cons 2 98 (codesOf rest)
  have larger : (2 : Int) ^ maxCharLength ≤ 2 ^ rest.length :=
    pow_le_pow_right₀ (by decide) (Nat.le_of_lt_succ long)
  have positive : (0 : Int) < 2 ^ rest.length := pow_pos (by decide) _
  rw [length, repunit_two] at others
  rw [first]
  linarith

/-- The equation for a path key can be solved if and only if its string form has at most
100 characters. -/
theorem path_key_synthesizable_iff (initiatorKey : List UInt8) :
    (∃ chars, SolvesEquation SpliceDict.hash
      (SpliceDict.hash (codesOf (bytesStr initiatorKey).toList)) chars) ↔
      (bytesStr initiatorKey).length ≤ maxCharLength := by
  constructor
  · rintro ⟨chars, solves⟩
    by_contra long
    exact not_lt_of_ge (hash_le_of_solves solves) (lt_hash_bytesStr (Nat.lt_of_not_le long))
  · intro short
    rw [← String.length_toList] at short
    obtain ⟨chars, solves, _⟩ := exists_solves_padText 2 (bytesStr_printable initiatorKey) short
    exact ⟨chars, solves⟩

/-- The key of 32 zeros has a string form of 131 characters. -/
theorem zero_key_not_synthesizable :
    (bytesStr (List.replicate 32 0)).length = 131 ∧
      ¬ ∃ chars, SolvesEquation SpliceDict.hash
        (SpliceDict.hash (codesOf (bytesStr (List.replicate 32 0)).toList)) chars := by
  have length : (bytesStr (List.replicate 32 0)).length = 131 := by
    rw [← String.length_toList, bytesStr, String.toList_ofList]
    rfl
  refine ⟨length, ?_⟩
  rintro ⟨chars, solves⟩
  have long : maxCharLength < (bytesStr (List.replicate 32 0)).length := by
    rw [length]
    decide
  exact not_lt_of_ge (hash_le_of_solves solves) (lt_hash_bytesStr long)

end PathKeys

end StrSynthesizer

end SaltyRtcServer
