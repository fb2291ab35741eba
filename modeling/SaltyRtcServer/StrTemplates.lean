import Mathlib.Data.Char
import SaltyRtcServer.Synthesis
import SaltyRtcServer.WordPatterns

/-!
# Templates of synthesized strings

`StrSynthesizer` keeps a string on one side of a bound by a template: a prefix
of the bound, a smaller or greater character, and anything after it.  Bounds
are texts over the character set of the synthesizer, so that `find` always
finds a character.
-/

namespace SaltyRtcServer

open RegularExpression (literal oneOf)

/-- A character set in the order of its code points. -/
structure Charset where
  chars : List Char
  sorted : chars.Pairwise (· < ·)
  nonempty : chars ≠ []

/-- What is added to the solver about the string variable. -/
inductive TextAssertion
  | never
  | inRe (template : RegularExpression Char)
  | inEither (one other : RegularExpression Char)

def TextAssertion.Holds : TextAssertion → List Char → Prop
  | .never, _ => False
  | .inRe template, text => text ∈ template.matches'
  | .inEither one other, text => text ∈ one.matches' ∨ text ∈ other.matches'

namespace Charset

variable (charset : Charset)

/-- The strings over a character set. -/
abbrev Text := { text : List Char // ∀ char ∈ text, char ∈ charset.chars }

/-- `self._charset.find(char)`. -/
def find (char : Char) : Nat := charset.chars.idxOf char

/-- `Star(self._chars)`. -/
def anyChars : RegularExpression Char := (oneOf charset.chars).star

/-- The loop of `_lt_constraint`: what precedes the first character that is not the
smallest, and the position of that character. -/
def lowerable (kept : List Char) : List Char → Option (List Char × Nat)
  | [] => none
  | char :: rest =>
      if charset.find char = 0 then lowerable (kept ++ [char]) rest
      else some (kept, charset.find char)

/-- The loop of `_gt_constraint`: what precedes the first character that is not the
greatest, and the position of that character. -/
def raisable (kept : List Char) : List Char → Option (List Char × Nat)
  | [] => none
  | char :: rest =>
      if charset.find char + 1 ≥ charset.chars.length then raisable (kept ++ [char]) rest
      else some (kept, charset.find char)

/-- `_lt_constraint`. -/
def ltTemplate (value : charset.Text) (offset : Nat) : RegularExpression Char :=
  match charset.lowerable (value.1.take offset) (value.1.drop offset) with
  | none => literal value.1.dropLast
  | some (kept, position) =>
      literal kept * oneOf (charset.chars.take position) * charset.anyChars

/-- `_gt_constraint`. -/
def gtTemplate (value : charset.Text) (offset : Nat) : RegularExpression Char :=
  if value.1 = [] then oneOf charset.chars * charset.anyChars
  else
    match charset.raisable (value.1.take offset) (value.1.drop offset) with
    | none => literal value.1 * literal [charset.chars.head charset.nonempty]
    | some (kept, position) =>
        literal kept * oneOf (charset.chars.drop (position + 1)) * charset.anyChars

def ltConstraint (value : charset.Text) (offset : Nat) : List TextAssertion :=
  if value.1 = [] then [.never] else [.inRe (charset.ltTemplate value offset)]

def leConstraint (value : charset.Text) (offset : Nat) : List TextAssertion :=
  [.inEither (charset.ltTemplate value offset) (literal value.1)]

def gtConstraint (value : charset.Text) (offset : Nat) : List TextAssertion :=
  [.inRe (charset.gtTemplate value offset)]

def geConstraint (value : charset.Text) (offset : Nat) : List TextAssertion :=
  [.inEither (charset.gtTemplate value offset) (literal value.1)]

def neConstraint (value : charset.Text) (offset : Nat) : List TextAssertion :=
  [.inEither (charset.ltTemplate value offset) (charset.gtTemplate value offset)]

/-- The first position at which two texts differ, or the length of the shorter one. -/
def firstDifference : List Char → List Char → Nat
  | one :: first, other :: second => if one = other then firstDifference first second + 1 else 0
  | _, _ => 0

/-- The characters at a position are adjacent code points. -/
def Adjacent (upper lower : List Char) (position : Nat) : Prop :=
  ∃ below ∈ lower[position]?, ∃ above ∈ upper[position]?, below.toNat + 1 = above.toNat

instance (upper lower : List Char) (position : Nat) : Decidable (Adjacent upper lower position) :=
  decidable_of_iff (lower[position]?.any fun below => upper[position]?.any fun above =>
    below.toNat + 1 = above.toNat) <| by
    unfold Adjacent
    cases lower[position]? <;> cases upper[position]? <;> simp

/-- `StrSynthesizer.bounded_constraints`. -/
def boundedConstraints (upper lower : charset.Text) (includeUpper includeLower : Bool) :
    List TextAssertion :=
  let position := firstDifference upper.1 lower.1
  if position = min upper.1.length lower.1.length ∧ upper.1.length = lower.1.length then [.never]
  else if Adjacent upper.1 lower.1 position then
    if includeLower then charset.geConstraint lower (position + 1)
    else charset.gtConstraint lower (position + 1)
  else
    Synthesizer.baseBounded (fun value => charset.ltConstraint value position)
      (fun value => charset.gtConstraint value position)
      (fun value => charset.leConstraint value position)
      (fun value => charset.geConstraint value position) upper lower includeUpper includeLower

section Soundness

variable {charset} {char other : Char} {kept rest before text : List Char} {position : Nat}

/-- The character set around one of its characters. -/
theorem chars_eq (mem : char ∈ charset.chars) : charset.chars =
    charset.chars.take (charset.find char) ++
      char :: charset.chars.drop (charset.find char + 1) := by
  have found : charset.find char < charset.chars.length := List.idxOf_lt_length_iff.mpr mem
  have isChar : charset.chars[charset.find char] = char := List.getElem_idxOf found
  have split := List.getElem_cons_drop found
  rw [isChar] at split
  rw [split, List.take_append_drop]

theorem lt_of_mem_take (mem : char ∈ charset.chars)
    (smaller : other ∈ charset.chars.take (charset.find char)) : other < char := by
  have sorted := charset.sorted
  rw [chars_eq mem, List.pairwise_append] at sorted
  exact sorted.2.2 other smaller char List.mem_cons_self

theorem lt_of_mem_drop (mem : char ∈ charset.chars)
    (greater : other ∈ charset.chars.drop (charset.find char + 1)) : char < other := by
  have sorted := charset.sorted
  rw [chars_eq mem, List.pairwise_append, List.pairwise_cons] at sorted
  exact sorted.2.1.1 other greater

/-- The position is that of the character after what is kept. -/
theorem lowerable_eq_some (found : charset.lowerable before rest = some (kept, position)) :
    ∃ char after, before ++ rest = kept ++ char :: after ∧ position = charset.find char := by
  induction rest generalizing before with
  | nil => contradiction
  | cons first rest ih =>
      rw [lowerable] at found
      split at found
      · obtain ⟨char, after, same, isPosition⟩ := ih found
        exact ⟨char, after, by simpa using same, isPosition⟩
      · cases found
        exact ⟨first, rest, rfl, rfl⟩

theorem raisable_eq_some (found : charset.raisable before rest = some (kept, position)) :
    before <+: kept ∧
      ∃ char after, before ++ rest = kept ++ char :: after ∧ position = charset.find char := by
  induction rest generalizing before with
  | nil => contradiction
  | cons first rest ih =>
      rw [raisable] at found
      split at found
      · obtain ⟨extends_, char, after, same, isPosition⟩ := ih found
        exact ⟨(List.prefix_append _ _).trans extends_, char, after, by simpa using same,
          isPosition⟩
      · cases found
        exact ⟨List.prefix_rfl, first, rest, rfl, rfl⟩

variable {value : charset.Text} {offset : Nat}

/-- The words of the template of a smaller text: that without its last character, or
those that differ first in a smaller character. -/
theorem mem_ltTemplate (mem : text ∈ (charset.ltTemplate value offset).matches') :
    text = value.1.dropLast ∨
      ∃ kept char after smaller rest, value.1 = kept ++ char :: after ∧ smaller < char ∧
        smaller ∈ charset.chars ∧ (∀ other ∈ rest, other ∈ charset.chars) ∧
        text = kept ++ smaller :: rest := by
  unfold ltTemplate at mem
  split at mem
  · exact .inl (RegularExpression.mem_literal.mp mem)
  · next kept position found =>
    obtain ⟨char, after, split, rfl⟩ := lowerable_eq_some found
    obtain ⟨smaller, isSmaller, rest, inRest, rfl⟩ := RegularExpression.mem_branch.mp mem
    rw [List.take_append_drop] at split
    have inSet : char ∈ charset.chars := value.2 char (by simp [split])
    exact .inr ⟨kept, char, after, smaller, rest, split, lt_of_mem_take inSet isSmaller,
      List.mem_of_mem_take isSmaller, inRest, rfl⟩

theorem mem_gtTemplate (mem : text ∈ (charset.gtTemplate value offset).matches') :
    (∃ char rest, (∀ other ∈ char :: rest, other ∈ charset.chars) ∧
        text = value.1 ++ char :: rest) ∨
      ∃ kept char after greater rest, value.1 = kept ++ char :: after ∧ char < greater ∧
        greater ∈ charset.chars ∧ (∀ other ∈ rest, other ∈ charset.chars) ∧
        text = kept ++ greater :: rest := by
  unfold gtTemplate at mem
  split at mem
  · next empty =>
    obtain ⟨one, single, rest, inRest, rfl⟩ := RegularExpression.mem_comp.mp mem
    obtain ⟨char, inSet, rfl⟩ := RegularExpression.mem_oneOf.mp single
    refine .inl ⟨char, rest, ?_, by simp [empty]⟩
    exact List.forall_mem_cons.mpr ⟨inSet, RegularExpression.mem_star_oneOf.mp inRest⟩
  · split at mem
    · obtain ⟨same, isValue, least, isLeast, rfl⟩ := RegularExpression.mem_comp.mp mem
      rw [RegularExpression.mem_literal.mp isValue, RegularExpression.mem_literal.mp isLeast]
      refine .inl ⟨_, [], ?_, rfl⟩
      simp
    · next kept position found =>
      obtain ⟨_, char, after, split, rfl⟩ := raisable_eq_some found
      obtain ⟨greater, isGreater, rest, inRest, rfl⟩ := RegularExpression.mem_branch.mp mem
      rw [List.take_append_drop] at split
      have inSet : char ∈ charset.chars := value.2 char (by simp [split])
      exact .inr ⟨kept, char, after, greater, rest, split, lt_of_mem_drop inSet isGreater,
        List.mem_of_mem_drop isGreater, inRest, rfl⟩

/-- What precedes the offset is kept. -/
theorem take_prefix_of_mem_gtTemplate (nonempty : value.1 ≠ [])
    (mem : text ∈ (charset.gtTemplate value offset).matches') :
    value.1.take offset <+: text := by
  rw [gtTemplate, if_neg nonempty] at mem
  split at mem
  · obtain ⟨same, isValue, least, _, rfl⟩ := RegularExpression.mem_comp.mp mem
    rw [RegularExpression.mem_literal.mp isValue]
    exact (List.take_prefix _ _).trans (List.prefix_append _ _)
  · next kept position found =>
    obtain ⟨greater, _, rest, _, rfl⟩ := RegularExpression.mem_branch.mp mem
    exact (raisable_eq_some found).1.trans (List.prefix_append _ _)

theorem lt_of_mem_ltTemplate (nonempty : value.1 ≠ [])
    (mem : text ∈ (charset.ltTemplate value offset).matches') : text < value.1 := by
  obtain rfl | ⟨kept, char, after, smaller, rest, split, less, _, _, rfl⟩ := mem_ltTemplate mem
  · exact List.dropLast_lt nonempty
  · rw [split]
    exact List.append_cons_lt_append_cons less kept rest after

theorem lt_of_mem_gtTemplate (mem : text ∈ (charset.gtTemplate value offset).matches') :
    value.1 < text := by
  obtain ⟨char, rest, _, rfl⟩ | ⟨kept, char, after, greater, rest, split, less, _, _, rfl⟩ :=
    mem_gtTemplate mem
  · exact List.lt_append_cons value.1 char rest
  · rw [split]
    exact List.append_cons_lt_append_cons less kept after rest

/-- For the empty text there is no smaller one, and the template is the text itself. -/
theorem le_of_mem_ltTemplate (mem : text ∈ (charset.ltTemplate value offset).matches') :
    text ≤ value.1 := by
  by_cases empty : value.1 = []
  · obtain rfl | ⟨kept, char, after, smaller, rest, split, _⟩ := mem_ltTemplate mem
    · rw [empty]
      exact le_refl _
    · simp [empty] at split
  · exact le_of_lt (lt_of_mem_ltTemplate empty mem)

/-- A constraint of one of the methods, with what it says about texts. -/
theorem holds_ltConstraint (holds : ∀ assertion ∈ charset.ltConstraint value offset,
    assertion.Holds text) : text < value.1 := by
  unfold ltConstraint at holds
  split at holds
  · exact False.elim (holds .never List.mem_cons_self)
  · next nonempty => exact lt_of_mem_ltTemplate nonempty (holds _ List.mem_cons_self)

theorem holds_leConstraint (holds : ∀ assertion ∈ charset.leConstraint value offset,
    assertion.Holds text) : text ≤ value.1 := by
  rcases holds _ List.mem_cons_self with below | same
  · exact le_of_mem_ltTemplate below
  · exact le_of_eq (RegularExpression.mem_literal.mp same)

theorem holds_gtConstraint (holds : ∀ assertion ∈ charset.gtConstraint value offset,
    assertion.Holds text) : value.1 < text :=
  lt_of_mem_gtTemplate (holds _ List.mem_cons_self)

theorem holds_geConstraint (holds : ∀ assertion ∈ charset.geConstraint value offset,
    assertion.Holds text) : value.1 ≤ text := by
  rcases holds _ List.mem_cons_self with above | same
  · exact le_of_lt (lt_of_mem_gtTemplate above)
  · exact ge_of_eq (RegularExpression.mem_literal.mp same)

/-- A text other than the value, unless both are empty. -/
theorem holds_neConstraint (holds : ∀ assertion ∈ charset.neConstraint value offset,
    assertion.Holds text) : text ≠ value.1 ∨ text = [] ∧ value.1 = [] := by
  rcases holds _ List.mem_cons_self with below | above
  · by_cases empty : value.1 = []
    · by_cases same : text = []
      · exact .inr ⟨same, empty⟩
      · exact .inl (by rwa [empty])
    · exact .inl (ne_of_lt (lt_of_mem_ltTemplate empty below))
  · exact .inl (ne_of_gt (lt_of_mem_gtTemplate above))

theorem take_firstDifference (first second : List Char) :
    first.take (firstDifference first second) = second.take (firstDifference first second) := by
  induction first generalizing second with
  | nil => cases second <;> rfl
  | cons one first ih =>
      cases second with
      | nil => rfl
      | cons other second =>
          rw [firstDifference]
          split
          · next same => rw [List.take_succ_cons, List.take_succ_cons, same, ih]
          · rfl

/-- A text that keeps the smaller one of two adjacent characters is below the bound with
the greater one. -/
theorem lt_of_adjacent {upper lower : List Char} (adjacent : Adjacent upper lower position)
    (same : upper.take position = lower.take position)
    (keeps : lower.take (position + 1) <+: text) : text < upper := by
  obtain ⟨below, isBelow, above, isAbove, next⟩ := adjacent
  have less : below < above := by
    have codes : below.toNat < above.toNat := by omega
    exact codes
  rw [List.take_add_one, isBelow] at keeps
  obtain ⟨rest, rfl⟩ := keeps
  obtain ⟨inside, rfl⟩ := List.getElem?_eq_some_iff.mp isAbove
  have split : upper = lower.take position ++ upper[position] :: upper.drop (position + 1) := by
    rw [← same, List.getElem_cons_drop, List.take_append_drop]
  rw [split, List.append_assoc]
  simpa using List.append_cons_lt_append_cons less (lower.take position) rest
    (upper.drop (position + 1))

/-- Texts between two bounds are between them. -/
theorem holds_boundedConstraints {upper lower : charset.Text} {includeUpper includeLower : Bool}
    (holds : ∀ assertion ∈ charset.boundedConstraints upper lower includeUpper includeLower,
      assertion.Holds text) :
    (if includeUpper then text ≤ upper.1 else text < upper.1) ∧
      if includeLower then lower.1 ≤ text else lower.1 < text := by
  unfold boundedConstraints at holds
  dsimp only at holds
  split at holds
  · exact False.elim (holds .never List.mem_cons_self)
  split at holds
  · next adjacent =>
    have nonempty : lower.1 ≠ [] := by
      obtain ⟨below, isBelow, _⟩ := adjacent
      rintro empty
      simp [empty] at isBelow
    have below (keeps : lower.1.take (firstDifference upper.1 lower.1 + 1) <+: text) :
        if includeUpper then text ≤ upper.1 else text < upper.1 := by
      have less := lt_of_adjacent adjacent (take_firstDifference ..) keeps
      cases includeUpper
      · exact less
      · exact le_of_lt less
    cases includeLower with
    | false =>
        exact ⟨below (take_prefix_of_mem_gtTemplate nonempty (holds _ List.mem_cons_self)),
          holds_gtConstraint holds⟩
    | true =>
        refine ⟨below ?_, holds_geConstraint holds⟩
        rcases holds _ List.mem_cons_self with above | same
        · exact take_prefix_of_mem_gtTemplate nonempty above
        · rw [RegularExpression.mem_literal.mp same]
          exact List.take_prefix _ _
  · cases includeUpper <;> cases includeLower <;>
      simp only [Synthesizer.baseBounded, List.forall_mem_append] at holds
    · exact ⟨holds_ltConstraint holds.1, holds_gtConstraint holds.2⟩
    · exact ⟨holds_ltConstraint holds.1, holds_geConstraint holds.2⟩
    · exact ⟨holds_leConstraint holds.1, holds_gtConstraint holds.2⟩
    · exact ⟨holds_leConstraint holds.1, holds_geConstraint holds.2⟩

end Soundness

section Alphabet

variable {charset} {value : charset.Text} {offset : Nat} {text : List Char}

theorem mem_chars_of_ltTemplate (mem : text ∈ (charset.ltTemplate value offset).matches') :
    ∀ char ∈ text, char ∈ charset.chars := by
  obtain rfl | ⟨kept, char, after, smaller, rest, split, _, inSet, inRest, rfl⟩ :=
    mem_ltTemplate mem
  · exact fun char mem => value.2 char (List.mem_of_mem_dropLast mem)
  · have inKept : ∀ other ∈ kept, other ∈ charset.chars :=
      fun other mem => value.2 other (by simp [split, mem])
    exact List.forall_mem_append.mpr ⟨inKept, List.forall_mem_cons.mpr ⟨inSet, inRest⟩⟩

theorem mem_chars_of_gtTemplate (mem : text ∈ (charset.gtTemplate value offset).matches') :
    ∀ char ∈ text, char ∈ charset.chars := by
  obtain ⟨char, rest, inRest, rfl⟩ | ⟨kept, char, after, greater, rest, split, _, inSet, inRest,
    rfl⟩ := mem_gtTemplate mem
  · exact List.forall_mem_append.mpr ⟨value.2, inRest⟩
  · have inKept : ∀ other ∈ kept, other ∈ charset.chars :=
      fun other mem => value.2 other (by simp [split, mem])
    exact List.forall_mem_append.mpr ⟨inKept, List.forall_mem_cons.mpr ⟨inSet, inRest⟩⟩

/-- The assertion accepts texts over the character set only. -/
def Confines (charset : Charset) (assertion : TextAssertion) : Prop :=
  ∀ text, assertion.Holds text → ∀ char ∈ text, char ∈ charset.chars

theorem confines_ltConstraint (value : charset.Text) (offset : Nat) :
    ∀ assertion ∈ charset.ltConstraint value offset, charset.Confines assertion := by
  intro assertion mem text holds
  unfold ltConstraint at mem
  split at mem
  · rw [List.mem_singleton.mp mem] at holds
    contradiction
  · rw [List.mem_singleton.mp mem] at holds
    exact mem_chars_of_ltTemplate holds

theorem confines_leConstraint (value : charset.Text) (offset : Nat) :
    ∀ assertion ∈ charset.leConstraint value offset, charset.Confines assertion := by
  intro assertion mem text holds
  rw [List.mem_singleton.mp mem] at holds
  rcases holds with below | same
  · exact mem_chars_of_ltTemplate below
  · rw [RegularExpression.mem_literal.mp same]
    exact value.2

theorem confines_gtConstraint (value : charset.Text) (offset : Nat) :
    ∀ assertion ∈ charset.gtConstraint value offset, charset.Confines assertion := by
  intro assertion mem text holds
  rw [List.mem_singleton.mp mem] at holds
  exact mem_chars_of_gtTemplate holds

theorem confines_geConstraint (value : charset.Text) (offset : Nat) :
    ∀ assertion ∈ charset.geConstraint value offset, charset.Confines assertion := by
  intro assertion mem text holds
  rw [List.mem_singleton.mp mem] at holds
  rcases holds with above | same
  · exact mem_chars_of_gtTemplate above
  · rw [RegularExpression.mem_literal.mp same]
    exact value.2

theorem confines_neConstraint (value : charset.Text) (offset : Nat) :
    ∀ assertion ∈ charset.neConstraint value offset, charset.Confines assertion := by
  intro assertion mem text holds
  rw [List.mem_singleton.mp mem] at holds
  rcases holds with below | above
  · exact mem_chars_of_ltTemplate below
  · exact mem_chars_of_gtTemplate above

theorem confines_boundedConstraints (upper lower : charset.Text)
    (includeUpper includeLower : Bool) :
    ∀ assertion ∈ charset.boundedConstraints upper lower includeUpper includeLower,
      charset.Confines assertion := by
  unfold boundedConstraints
  dsimp only
  split
  · exact List.forall_mem_singleton.mpr fun text holds => False.elim holds
  split
  · split
    · exact confines_geConstraint lower _
    · exact confines_gtConstraint lower _
  · cases includeUpper <;> cases includeLower <;>
      simp only [Synthesizer.baseBounded, List.forall_mem_append]
    · exact ⟨confines_ltConstraint upper _, confines_gtConstraint lower _⟩
    · exact ⟨confines_ltConstraint upper _, confines_geConstraint lower _⟩
    · exact ⟨confines_leConstraint upper _, confines_gtConstraint lower _⟩
    · exact ⟨confines_leConstraint upper _, confines_geConstraint lower _⟩

end Alphabet

end Charset

end SaltyRtcServer
