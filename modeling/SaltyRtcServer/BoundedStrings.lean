import SaltyRtcServer.StrSynthesis

/-!
# Strings on one side of a bound and between two

What the template of one bound accepts lies on the right side of it, and so does
what the two templates of `bounded_constraints` accept.  As each of the templates
is narrower than its bound, no string may be left between them.
-/

namespace SaltyRtcServer

namespace Charset

variable {charset : Charset}

/-- The assertions accept a text. -/
def Accepts (assertions : List TextAssertion) (text : List Char) : Prop :=
  ∀ assertion ∈ assertions, assertion.Holds text

section Soundness

/-- What each of the constraints on a value accepts is in its relation to the value. -/
structure SoundFor (charset : Charset) (value : charset.Text) (offset : Nat) : Prop where
  lt : ∀ text : charset.Text, Accepts (charset.ltConstraint value offset) text.1 →
    text.1 < value.1
  gt : ∀ text : charset.Text, Accepts (charset.gtConstraint value offset) text.1 →
    text.1 > value.1
  le : ∀ text : charset.Text, Accepts (charset.leConstraint value offset) text.1 →
    text.1 ≤ value.1
  ge : ∀ text : charset.Text, Accepts (charset.geConstraint value offset) text.1 →
    text.1 ≥ value.1
  ne : ∀ text : charset.Text, Accepts (charset.neConstraint value offset) text.1 →
    text.1 ≠ value.1

/-- The template of a text smaller than the empty one is the empty text. -/
theorem accepts_neConstraint_nil {value : charset.Text} (empty : value.1 = []) (offset : Nat) :
    Accepts (charset.neConstraint value offset) [] := by
  intro assertion mem
  rw [List.mem_singleton.mp mem]
  left
  rw [ltTemplate, empty, List.drop_nil, lowerable]
  exact RegularExpression.mem_literal.mpr rfl

/-- The constraints are sound for every value but the empty one. -/
theorem soundFor_iff (charset : Charset) (value : charset.Text) (offset : Nat) :
    charset.SoundFor value offset ↔ value.1 ≠ [] := by
  constructor
  · intro sound empty
    exact sound.ne ⟨[], by simp⟩ (accepts_neConstraint_nil empty offset) empty.symm
  · intro nonempty
    refine ⟨fun text accepts => holds_ltConstraint accepts,
      fun text accepts => holds_gtConstraint accepts,
      fun text accepts => holds_leConstraint accepts,
      fun text accepts => holds_geConstraint accepts, fun text accepts => ?_⟩
    rcases holds_neConstraint accepts with differs | ⟨_, empty⟩
    · exact differs
    · exact absurd empty nonempty

/-- `ne_constraint("")` accepts the empty string. -/
theorem ne_accepts_empty :
    Accepts (asciiCharset.neConstraint ⟨[], by simp⟩ 0) [] ∧
      ¬ asciiCharset.SoundFor ⟨[], by simp⟩ 0 :=
  have accepts : Accepts (asciiCharset.neConstraint ⟨[], by simp⟩ 0) [] :=
    accepts_neConstraint_nil rfl 0
  ⟨accepts, fun sound => sound.ne ⟨[], by simp⟩ accepts rfl⟩

/-- The text is between the bounds, of which each may be included. -/
def Between (upper lower : List Char) (includeUpper includeLower : Bool) (text : List Char) :
    Prop :=
  (if includeUpper then text ≤ upper else text < upper) ∧
    if includeLower then lower ≤ text else lower < text

end Soundness

section Templates

variable {char smaller greater : Char} {kept before rest after text : List Char} {position : Nat}
variable {value : charset.Text}

/-- The smallest character. -/
def least (charset : Charset) : Char := charset.chars.head charset.nonempty

theorem least_mem (charset : Charset) : charset.least ∈ charset.chars := List.head_mem _

theorem find_least (charset : Charset) : charset.find charset.least = 0 := by
  obtain ⟨chars, sorted, nonempty⟩ := charset
  cases chars with
  | nil => contradiction
  | cons first rest => exact List.idxOf_cons_self

theorem eq_least_of_find (first : charset.find char = 0) : char = charset.least := by
  obtain ⟨chars, sorted, nonempty⟩ := charset
  cases chars with
  | nil => contradiction
  | cons least rest =>
      by_contra differs
      have different : least ≠ char := fun same => differs same.symm
      have later : (least :: rest).idxOf char = 0 := first
      rw [List.idxOf_cons_ne _ different] at later
      contradiction

theorem find_lt_find (mem : char ∈ charset.chars) (less : smaller < char)
    (inSet : smaller ∈ charset.chars) : smaller ∈ charset.chars.take (charset.find char) := by
  rw [chars_eq mem, List.mem_append, List.mem_cons] at inSet
  rcases inSet with before | rfl | later
  · exact before
  · exact absurd less (lt_irrefl _)
  · exact absurd (lt_of_mem_drop mem later) (not_lt_of_gt less)

theorem mem_drop_find (mem : char ∈ charset.chars) (less : char < greater)
    (inSet : greater ∈ charset.chars) : greater ∈ charset.chars.drop (charset.find char + 1) := by
  rw [chars_eq mem, List.mem_append, List.mem_cons] at inSet
  rcases inSet with before | rfl | later
  · exact absurd (lt_of_mem_take mem before) (not_lt_of_gt less)
  · exact absurd less (lt_irrefl _)
  · exact later

/-- A smaller character at the offset. -/
theorem mem_ltTemplate_at (split : value.1 = kept ++ char :: after) (less : smaller < char)
    (inSet : smaller ∈ charset.chars) (inRest : ∀ other ∈ rest, other ∈ charset.chars) :
    kept ++ smaller :: rest ∈ (charset.ltTemplate value kept.length).matches' := by
  have mem : char ∈ charset.chars := value.2 char (by simp [split])
  have isSmaller := find_lt_find mem less inSet
  have found : charset.find char ≠ 0 := by
    intro first
    rw [first] at isSmaller
    contradiction
  rw [ltTemplate, split, List.take_left, List.drop_left, lowerable, if_neg found]
  exact RegularExpression.mem_branch.mpr ⟨smaller, isSmaller, rest, inRest, rfl⟩

/-- A greater character at the offset. -/
theorem mem_gtTemplate_at (split : value.1 = kept ++ char :: after) (less : char < greater)
    (inSet : greater ∈ charset.chars) (inRest : ∀ other ∈ rest, other ∈ charset.chars) :
    kept ++ greater :: rest ∈ (charset.gtTemplate value kept.length).matches' := by
  have mem : char ∈ charset.chars := value.2 char (by simp [split])
  have isGreater := mem_drop_find mem less inSet
  have found : ¬ charset.find char + 1 ≥ charset.chars.length := by
    intro last
    rw [List.drop_eq_nil_of_le last] at isGreater
    contradiction
  rw [gtTemplate, if_neg (by simp [split]), split, List.take_left, List.drop_left, raisable,
    if_neg found]
  exact RegularExpression.mem_branch.mpr ⟨greater, isGreater, rest, inRest, rfl⟩

/-- At the end of a text that is not empty, only the smallest character is appended. -/
theorem mem_gtTemplate_end (nonempty : value.1 ≠ []) :
    text ∈ (charset.gtTemplate value value.1.length).matches' ↔
      text = value.1 ++ [charset.least] := by
  rw [gtTemplate, if_neg nonempty, List.drop_length, raisable, RegularExpression.mem_comp]
  simp [least, eq_comm]

/-- Anything that is not empty is greater than the empty text. -/
theorem mem_gtTemplate_nil (empty : value.1 = []) (offset : Nat) :
    text ∈ (charset.gtTemplate value offset).matches' ↔
      text ≠ [] ∧ ∀ char ∈ text, char ∈ charset.chars := by
  rw [gtTemplate, if_pos empty, RegularExpression.mem_comp]
  constructor
  · rintro ⟨one, single, rest, inRest, rfl⟩
    obtain ⟨char, inSet, rfl⟩ := RegularExpression.mem_oneOf.mp single
    exact ⟨List.cons_ne_nil _ _,
      List.forall_mem_cons.mpr ⟨inSet, RegularExpression.mem_star_oneOf.mp inRest⟩⟩
  · rintro ⟨nonempty, inSet⟩
    obtain ⟨char, rest, rfl⟩ := List.exists_cons_of_ne_nil nonempty
    obtain ⟨inHead, inRest⟩ := List.forall_mem_cons.mp inSet
    exact ⟨[char], RegularExpression.mem_oneOf.mpr ⟨char, inHead, rfl⟩, rest,
      RegularExpression.mem_star_oneOf.mpr inRest, rfl⟩

/-- The loop keeps what it has passed, and stops at a character that is not the smallest. -/
theorem lowerable_stops (found : charset.lowerable before rest = some (kept, position)) :
    before <+: kept ∧ position ≠ 0 := by
  induction rest generalizing before with
  | nil => contradiction
  | cons first rest ih =>
      rw [lowerable] at found
      split at found
      · exact ⟨(List.prefix_append _ _).trans (ih found).1, (ih found).2⟩
      · next stops =>
        cases found
        exact ⟨List.prefix_rfl, stops⟩

theorem least_of_lowerable (none : charset.lowerable before rest = none) :
    ∀ char ∈ rest, char = charset.least := by
  induction rest generalizing before with
  | nil => simp
  | cons first rest ih =>
      rw [lowerable] at none
      split at none
      · next isLeast => exact List.forall_mem_cons.mpr ⟨eq_least_of_find isLeast, ih none⟩
      · contradiction

theorem lowerable_eq_none (all : ∀ char ∈ rest, char = charset.least) :
    charset.lowerable before rest = none := by
  induction rest generalizing before with
  | nil => rfl
  | cons first rest ih =>
      obtain ⟨rfl, others⟩ := List.forall_mem_cons.mp all
      rw [lowerable, if_pos charset.find_least]
      exact ih others

/-- Where only smallest characters follow the offset, the last one can be dropped. -/
theorem dropLast_mem_ltTemplate (split : value.1 = kept ++ after)
    (all : ∀ char ∈ after, char = charset.least) :
    value.1.dropLast ∈ (charset.ltTemplate value kept.length).matches' := by
  have passed : charset.lowerable (value.1.take kept.length) (value.1.drop kept.length) = none := by
    rw [split, List.drop_left]
    exact lowerable_eq_none all
  rw [ltTemplate, passed]
  exact RegularExpression.mem_literal.mpr rfl

/-- A smallest character at the offset is kept, unless only such characters follow. -/
theorem mem_ltTemplate_least (split : value.1 = kept ++ charset.least :: after)
    (mem : text ∈ (charset.ltTemplate value kept.length).matches') :
    (text = value.1.dropLast ∧ ∀ char ∈ after, char = charset.least) ∨
      ∃ char rest, text = kept ++ charset.least :: char :: rest := by
  rw [ltTemplate, split, List.take_left, List.drop_left, lowerable,
    if_pos charset.find_least] at mem
  split at mem
  · next found =>
    left
    rw [split]
    exact ⟨RegularExpression.mem_literal.mp mem, least_of_lowerable found⟩
  · next word position found =>
    right
    obtain ⟨smaller, _, rest, _, rfl⟩ := RegularExpression.mem_branch.mp mem
    obtain ⟨skipped, rfl⟩ := (lowerable_stops found).1
    cases skipped with
    | nil => exact ⟨smaller, rest, by simp⟩
    | cons char skipped => exact ⟨char, skipped ++ smaller :: rest, by simp⟩

/-- There is always a word in the template of a smaller text. -/
theorem exists_mem_ltTemplate (value : charset.Text) (offset : Nat) :
    ∃ text, text ∈ (charset.ltTemplate value offset).matches' := by
  unfold ltTemplate
  split
  · exact ⟨_, RegularExpression.mem_literal.mpr rfl⟩
  · next kept position found =>
    have isSmaller : charset.least ∈ charset.chars.take position := by
      obtain ⟨first, rest, same⟩ := List.exists_cons_of_ne_nil charset.nonempty
      obtain ⟨count, rfl⟩ := Nat.exists_eq_succ_of_ne_zero (lowerable_stops found).2
      simp [least, same]
    exact ⟨_, RegularExpression.mem_branch.mpr ⟨charset.least, isSmaller, [], by simp, rfl⟩⟩

theorem append_least_mem_gtTemplate (value : charset.Text) :
    value.1 ++ [charset.least] ∈ (charset.gtTemplate value value.1.length).matches' := by
  by_cases empty : value.1 = []
  · rw [mem_gtTemplate_nil empty, empty]
    exact ⟨List.cons_ne_nil _ _, List.forall_mem_singleton.mpr charset.least_mem⟩
  · exact (mem_gtTemplate_end empty).mpr rfl

theorem raisable_lt (found : charset.raisable before rest = some (kept, position)) :
    position + 1 < charset.chars.length := by
  induction rest generalizing before with
  | nil => contradiction
  | cons first rest ih =>
      rw [raisable] at found
      split at found
      · exact ih found
      · next stops =>
        cases found
        exact Nat.lt_of_not_ge stops

/-- There is always a word in the template of a greater text. -/
theorem exists_mem_gtTemplate (value : charset.Text) (offset : Nat) :
    ∃ text, text ∈ (charset.gtTemplate value offset).matches' := by
  by_cases empty : value.1 = []
  · exact ⟨[charset.least], (mem_gtTemplate_nil empty offset).mpr
      ⟨List.cons_ne_nil _ _, List.forall_mem_singleton.mpr charset.least_mem⟩⟩
  · rw [gtTemplate, if_neg empty]
    split
    · exact ⟨_, RegularExpression.mem_comp.mpr ⟨_, RegularExpression.mem_literal.mpr rfl, _,
        RegularExpression.mem_literal.mpr rfl, rfl⟩⟩
    · next kept position found =>
      have inside := raisable_lt found
      have isGreater : charset.chars[position + 1] ∈ charset.chars.drop (position + 1) := by
        rw [← List.getElem_cons_drop inside]
        exact List.mem_cons_self
      exact ⟨_, RegularExpression.mem_branch.mpr ⟨_, isGreater, [], by simp, rfl⟩⟩

end Templates

section Bounds

variable {upper lower : charset.Text} {includeUpper includeLower : Bool} {text : List Char}

/-- What the two constraints of `bounded_constraints` with a common offset accept. -/
theorem accepts_baseBounded_iff (nonempty : upper.1 ≠ []) (position : Nat) :
    Accepts (Synthesizer.baseBounded (fun value => charset.ltConstraint value position)
      (fun value => charset.gtConstraint value position)
      (fun value => charset.leConstraint value position)
      (fun value => charset.geConstraint value position) upper lower includeUpper includeLower)
      text ↔
    (text ∈ (charset.ltTemplate upper position).matches' ∨
        includeUpper = true ∧ text = upper.1) ∧
      (text ∈ (charset.gtTemplate lower position).matches' ∨
        includeLower = true ∧ text = lower.1) := by
  cases includeUpper <;> cases includeLower <;>
    simp [Accepts, Synthesizer.baseBounded, ltConstraint, gtConstraint, leConstraint,
      geConstraint, TextAssertion.Holds, nonempty]

theorem firstDifference_append_left (word rest : List Char) :
    firstDifference (word ++ rest) word = word.length := by
  induction word with
  | nil => cases rest <;> rfl
  | cons char word ih => rw [List.cons_append, firstDifference, if_pos rfl, ih, List.length_cons]

theorem firstDifference_parted {above below : Char} (differ : above ≠ below)
    (kept after rest : List Char) :
    firstDifference (kept ++ above :: after) (kept ++ below :: rest) = kept.length := by
  induction kept with
  | nil => exact if_neg differ
  | cons char kept ih =>
      rw [List.cons_append, List.cons_append, firstDifference, if_pos rfl, ih, List.length_cons]

theorem le_of_between {upper lower : List Char}
    (between : Between upper lower includeUpper includeLower text) : lower ≤ upper := by
  obtain ⟨below, above⟩ := between
  have atMost : text ≤ upper := by
    split at below
    · exact below
    · exact le_of_lt below
  have atLeast : lower ≤ text := by
    split at above
    · exact above
    · exact le_of_lt above
  exact atLeast.trans atMost

theorem included_of_between {bound : List Char}
    (between : Between bound bound includeUpper includeLower text) :
    includeUpper = true ∧ includeLower = true := by
  obtain ⟨below, above⟩ := between
  cases includeUpper <;> cases includeLower
  · exact absurd (lt_trans above below) (lt_irrefl _)
  · exact absurd (lt_of_le_of_lt above below) (lt_irrefl _)
  · exact absurd (lt_of_lt_of_le above below) (lt_irrefl _)
  · exact ⟨rfl, rfl⟩

theorem between_of_lt {upper lower : List Char} (above : lower < text) (below : text < upper) :
    Between upper lower includeUpper includeLower text := by
  constructor
  · split
    · exact le_of_lt below
    · exact below
  · split
    · exact le_of_lt above
    · exact above

/-- The templates of the bounds leave a string: equal bounds are not both included, and a
lower bound is not extended by the smallest character with more after it, unless that is a
single smallest character. -/
structure Compatible (upper lower : charset.Text) (includeUpper includeLower : Bool) : Prop where
  inclusive : ¬ (upper = lower ∧ includeUpper = true ∧ includeLower = true)
  extension : ∀ rest, lower.1 ≠ [] → upper.1 = lower.1 ++ charset.least :: rest →
    rest = [] ∨ rest = [charset.least]

/-- Equal bounds are refused, whether they are included or not. -/
theorem not_accepts_self : ¬ Accepts (charset.boundedConstraints upper upper includeUpper
    includeLower) text := by
  have position := firstDifference_append_left upper.1 []
  rw [List.append_nil] at position
  intro accepts
  rw [boundedConstraints, if_pos ⟨by rw [position, min_self], rfl⟩] at accepts
  exact accepts .never List.mem_cons_self

/-- No character lies at the common offset of a text and its extension. -/
theorem boundedConstraints_extension {rest : List Char} {char : Char}
    (split : upper.1 = lower.1 ++ char :: rest) :
    charset.boundedConstraints upper lower includeUpper includeLower =
      Synthesizer.baseBounded (fun value => charset.ltConstraint value lower.1.length)
        (fun value => charset.gtConstraint value lower.1.length)
        (fun value => charset.leConstraint value lower.1.length)
        (fun value => charset.geConstraint value lower.1.length)
        upper lower includeUpper includeLower := by
  have position : firstDifference upper.1 lower.1 = lower.1.length := by
    rw [split, firstDifference_append_left]
  have unequal : ¬ upper.1.length = lower.1.length := by simp [split]
  have apart : ¬ Adjacent upper.1 lower.1 lower.1.length := by simp [Adjacent]
  rw [boundedConstraints, position, if_neg fun same => unequal same.2, if_neg apart]

/-- Next to the upper bound, only the lower one is asserted. -/
theorem exists_accepts_adjacent
    (adjacent : Adjacent upper.1 lower.1 (firstDifference upper.1 lower.1)) :
    ∃ text : charset.Text,
      Accepts (charset.boundedConstraints upper lower includeUpper includeLower) text.1 := by
  obtain ⟨text, mem⟩ := exists_mem_gtTemplate lower (firstDifference upper.1 lower.1 + 1)
  refine ⟨⟨text, mem_chars_of_gtTemplate mem⟩, ?_⟩
  have inside : firstDifference upper.1 lower.1 < min upper.1.length lower.1.length := by
    obtain ⟨below, isBelow, above, isAbove, _⟩ := adjacent
    exact lt_min (List.getElem?_eq_some_iff.mp isAbove).1 (List.getElem?_eq_some_iff.mp isBelow).1
  rw [boundedConstraints, if_neg fun same => Nat.ne_of_lt inside same.1, if_pos adjacent]
  intro assertion isAssertion
  cases includeLower with
  | false =>
      rw [List.mem_singleton.mp isAssertion]
      exact mem
  | true =>
      rw [List.mem_singleton.mp isAssertion]
      exact .inl mem

/-- Every character between two others of the set with code points between is in the set. -/
def Dense (charset : Charset) : Prop :=
  ∀ below ∈ charset.chars, ∀ above ∈ charset.chars, below < above →
    below.toNat + 1 ≠ above.toNat → ∃ char ∈ charset.chars, below < char ∧ char < above

/-- Where the bounds part, a character between theirs can be taken. -/
theorem exists_accepts_parted {kept after rest : List Char} {above below : Char}
    (dense : charset.Dense) (isUpper : upper.1 = kept ++ above :: after)
    (isLower : lower.1 = kept ++ below :: rest) (less : below < above) :
    ∃ text : charset.Text,
      Accepts (charset.boundedConstraints upper lower includeUpper includeLower) text.1 := by
  have position : firstDifference upper.1 lower.1 = kept.length := by
    rw [isUpper, isLower, firstDifference_parted (ne_of_gt less)]
  by_cases adjacent : Adjacent upper.1 lower.1 kept.length
  · exact exists_accepts_adjacent (position ▸ adjacent)
  · have apart : below.toNat + 1 ≠ above.toNat := by
      intro next
      exact adjacent ⟨below, by simp [isLower], above, by simp [isUpper], next⟩
    obtain ⟨char, mem, greater, smaller⟩ :=
      dense below (lower.2 below (by simp [isLower])) above (upper.2 above (by simp [isUpper]))
        less apart
    have inSet : ∀ other ∈ kept ++ [char], other ∈ charset.chars := by
      rw [List.forall_mem_append, List.forall_mem_singleton]
      exact ⟨fun other inKept => lower.2 other (by simp [isLower, inKept]), mem⟩
    have short : ¬ kept.length = min upper.1.length lower.1.length := by
      simp [isUpper, isLower]
    refine ⟨⟨kept ++ [char], inSet⟩, ?_⟩
    rw [boundedConstraints, position, if_neg fun same => short same.1, if_neg adjacent]
    exact (accepts_baseBounded_iff (by simp [isUpper]) _).mpr
      ⟨.inl (mem_ltTemplate_at isUpper smaller mem (by simp)),
        .inl (mem_gtTemplate_at isLower greater mem (by simp))⟩

theorem least_lt {char : Char} (mem : char ∈ charset.chars) (differs : char ≠ charset.least) :
    charset.least < char := by
  have found : charset.find char ≠ 0 := fun first => differs (eq_least_of_find first)
  apply lt_of_mem_take mem
  obtain ⟨first, rest, same⟩ := List.exists_cons_of_ne_nil charset.nonempty
  obtain ⟨count, isCount⟩ := Nat.exists_eq_succ_of_ne_zero found
  simp [least, isCount, same]

theorem least_le {char : Char} (mem : char ∈ charset.chars) : charset.least ≤ char := by
  by_cases same : char = charset.least
  · exact ge_of_eq same
  · exact le_of_lt (least_lt mem same)

/-- Nothing lies between a text and the text with the smallest character after it. -/
theorem not_lt_append_least {word : List Char} (inSet : ∀ char ∈ text, char ∈ charset.chars)
    (above : word < text) : ¬ text < word ++ [charset.least] := by
  induction word generalizing text with
  | nil =>
      cases text with
      | nil => exact absurd above (lt_irrefl _)
      | cons char rest =>
          rw [List.nil_append, List.cons_lt_cons_iff]
          rintro (smaller | ⟨_, smaller⟩)
          · exact not_le_of_gt smaller (least_le (inSet char List.mem_cons_self))
          · exact List.not_lt_nil _ smaller
  | cons one word ih =>
      cases text with
      | nil => exact absurd above (List.not_lt_nil _)
      | cons char rest =>
          rw [List.cons_append, List.cons_lt_cons_iff]
          rw [List.cons_lt_cons_iff] at above
          rcases above with greater | ⟨rfl, above⟩
          · rintro (smaller | ⟨rfl, _⟩)
            · exact lt_asymm greater smaller
            · exact lt_irrefl _ greater
          · rintro (smaller | ⟨_, smaller⟩)
            · exact lt_irrefl _ smaller
            · exact ih (fun other mem => inSet other (List.mem_cons_of_mem _ mem)) above smaller

/-- A bound extended by the smallest character: only the bounds themselves are left. -/
theorem exists_accepts_least (isUpper : upper.1 = lower.1 ++ [charset.least])
    (between : ∃ text : charset.Text,
      Between upper.1 lower.1 includeUpper includeLower text.1) :
    ∃ text : charset.Text,
      Accepts (charset.boundedConstraints upper lower includeUpper includeLower) text.1 := by
  rw [boundedConstraints_extension isUpper]
  simp only [accepts_baseBounded_iff (show upper.1 ≠ [] by simp [isUpper])]
  cases includeLower with
  | true =>
      have shorter := dropLast_mem_ltTemplate isUpper (by simp)
      rw [isUpper, List.dropLast_concat] at shorter
      exact ⟨lower, .inl shorter, .inr ⟨rfl, rfl⟩⟩
  | false =>
      cases includeUpper with
      | true => exact ⟨upper, .inr ⟨rfl, rfl⟩, .inl (isUpper ▸ append_least_mem_gtTemplate lower)⟩
      | false =>
          obtain ⟨text, below, above⟩ := between
          rw [isUpper] at below
          exact absurd below (not_lt_append_least text.2 above)

/-- A greater character after the lower bound can be lowered. -/
theorem exists_accepts_greater {rest : List Char} {char : Char}
    (isUpper : upper.1 = lower.1 ++ char :: rest) (differs : char ≠ charset.least) :
    ∃ text : charset.Text,
      Accepts (charset.boundedConstraints upper lower includeUpper includeLower) text.1 := by
  have inSet : char ∈ charset.chars := upper.2 char (by simp [isUpper])
  have inText : ∀ other ∈ lower.1 ++ [charset.least], other ∈ charset.chars := by
    rw [List.forall_mem_append, List.forall_mem_singleton]
    exact ⟨lower.2, charset.least_mem⟩
  refine ⟨⟨lower.1 ++ [charset.least], inText⟩, ?_⟩
  rw [boundedConstraints_extension isUpper, accepts_baseBounded_iff (by simp [isUpper])]
  exact ⟨.inl (mem_ltTemplate_at isUpper (least_lt inSet differs) charset.least_mem (by simp)),
    .inl (append_least_mem_gtTemplate lower)⟩

/-- After the empty text, some string is always left below a longer upper bound. -/
theorem exists_accepts_nil {rest : List Char} (isLower : lower.1 = [])
    (isUpper : upper.1 = charset.least :: rest) (longer : rest ≠ []) :
    ∃ text : charset.Text,
      Accepts (charset.boundedConstraints upper lower includeUpper includeLower) text.1 := by
  obtain ⟨text, mem⟩ := exists_mem_ltTemplate upper 0
  have atStart : upper.1 = [] ++ charset.least :: rest := isUpper
  have nonempty : text ≠ [] := by
    rcases mem_ltTemplate_least atStart mem with ⟨rfl, _⟩ | ⟨char, rest, rfl⟩
    · rw [isUpper, List.dropLast_cons_of_ne_nil longer]
      exact List.cons_ne_nil _ _
    · exact List.cons_ne_nil _ _
  have split : upper.1 = lower.1 ++ charset.least :: rest := by rw [isLower, isUpper, List.nil_append]
  have inSet := mem_chars_of_ltTemplate mem
  refine ⟨⟨text, inSet⟩, ?_⟩
  rw [boundedConstraints_extension split, accepts_baseBounded_iff (by simp [isUpper]), isLower]
  exact ⟨.inl mem, .inl ((mem_gtTemplate_nil isLower _).mpr ⟨nonempty, inSet⟩)⟩

/-- Two smallest characters after the lower bound: one of them is left. -/
theorem exists_accepts_two (isUpper : upper.1 = lower.1 ++ [charset.least, charset.least]) :
    ∃ text : charset.Text,
      Accepts (charset.boundedConstraints upper lower includeUpper includeLower) text.1 := by
  have inText : ∀ other ∈ lower.1 ++ [charset.least], other ∈ charset.chars := by
    rw [List.forall_mem_append, List.forall_mem_singleton]
    exact ⟨lower.2, charset.least_mem⟩
  have shorter := dropLast_mem_ltTemplate isUpper (by simp)
  rw [isUpper, List.dropLast_append_of_ne_nil (List.cons_ne_nil _ _)] at shorter
  refine ⟨⟨lower.1 ++ [charset.least], inText⟩, ?_⟩
  rw [boundedConstraints_extension isUpper, accepts_baseBounded_iff (by simp [isUpper])]
  exact ⟨.inl shorter, .inl (append_least_mem_gtTemplate lower)⟩

/-- More after a smallest character: the template of the lower bound is too short. -/
theorem compatible_of_accepts {rest : List Char} (nonempty : lower.1 ≠ [])
    (isUpper : upper.1 = lower.1 ++ charset.least :: rest)
    (accepts : Accepts (charset.boundedConstraints upper lower includeUpper includeLower) text) :
    rest = [] ∨ rest = [charset.least] := by
  rw [boundedConstraints_extension isUpper, accepts_baseBounded_iff (by simp [isUpper]),
    mem_gtTemplate_end nonempty] at accepts
  obtain ⟨below, above⟩ := accepts
  have short : text.length ≤ lower.1.length + 1 := by
    rcases above with rfl | ⟨_, rfl⟩
    · simp
    · omega
  rcases below with mem | ⟨_, rfl⟩
  · rcases mem_ltTemplate_least isUpper mem with ⟨rfl, all⟩ | ⟨char, rest, rfl⟩
    · rw [isUpper, List.length_dropLast, List.length_append, List.length_cons] at short
      cases rest with
      | nil => exact .inl rfl
      | cons first rest =>
          obtain ⟨rfl, _⟩ := List.forall_mem_cons.mp all
          rw [List.length_cons] at short
          obtain rfl : rest = [] := List.eq_nil_of_length_eq_zero (by omega)
          exact .inr rfl
    · simp at short
  · rw [isUpper, List.length_append, List.length_cons] at short
    exact .inl (List.eq_nil_of_length_eq_zero (by omega))

/-- Some string is left between the bounds, if there is one, if and only if they are
compatible. -/
theorem exists_accepts_iff (dense : charset.Dense) (upper lower : charset.Text)
    (includeUpper includeLower : Bool) :
    ((∃ text : charset.Text, Between upper.1 lower.1 includeUpper includeLower text.1) →
      ∃ text : charset.Text,
        Accepts (charset.boundedConstraints upper lower includeUpper includeLower) text.1) ↔
      Compatible upper lower includeUpper includeLower := by
  constructor
  · intro finds
    constructor
    · rintro ⟨rfl, rfl, rfl⟩
      obtain ⟨text, accepts⟩ := finds ⟨upper, le_refl upper.1, le_refl upper.1⟩
      exact not_accepts_self accepts
    · intro rest nonempty isUpper
      by_cases single : rest = []
      · exact .inl single
      · obtain ⟨first, others, rfl⟩ := List.exists_cons_of_ne_nil single
        have inText : ∀ other ∈ lower.1 ++ [charset.least], other ∈ charset.chars := by
          rw [List.forall_mem_append, List.forall_mem_singleton]
          exact ⟨lower.2, charset.least_mem⟩
        have below := List.lt_append_cons (lower.1 ++ [charset.least]) first others
        rw [List.append_assoc, List.singleton_append, ← isUpper] at below
        obtain ⟨text, accepts⟩ := finds ⟨⟨_, inText⟩,
          between_of_lt (List.lt_append_cons lower.1 charset.least []) below⟩
        exact compatible_of_accepts nonempty isUpper accepts
  · intro compatible between
    have ordered : lower.1 ≤ upper.1 := le_of_between between.choose_spec
    rcases List.parting upper.1 lower.1 with ⟨rest, isUpper⟩ | ⟨char, rest, isLower⟩ |
      ⟨kept, above, after, below, rest, isUpper, isLower, differ⟩
    · cases rest with
      | nil =>
          obtain rfl : upper = lower := Subtype.ext (by rw [isUpper, List.append_nil])
          obtain ⟨text, between⟩ := between
          exact absurd ⟨rfl, included_of_between between⟩ compatible.inclusive
      | cons char rest =>
          by_cases isLeast : char = charset.least
          · subst isLeast
            by_cases empty : lower.1 = []
            · by_cases single : rest = []
              · subst single
                exact exists_accepts_least isUpper between
              · rw [empty, List.nil_append] at isUpper
                exact exists_accepts_nil empty isUpper single
            · rcases compatible.extension rest empty isUpper with rfl | rfl
              · exact exists_accepts_least isUpper between
              · exact exists_accepts_two isUpper
          · exact exists_accepts_greater isUpper isLeast
    · rw [isLower] at ordered
      exact absurd (List.lt_append_cons upper.1 char rest) (not_lt_of_ge ordered)
    · have less : below < above := by
        refine lt_of_le_of_ne (le_of_not_gt fun greater => ?_) (Ne.symm differ)
        rw [isUpper, isLower] at ordered
        exact not_lt_of_ge ordered (List.append_cons_lt_append_cons greater kept after rest)
      exact exists_accepts_parted dense isUpper isLower less

end Bounds

/-- A text of printable characters. -/
def asciiText (text : List Char)
    (printable : (text.all fun char => 32 ≤ char.toNat && char.toNat ≤ 126) = true) :
    asciiCharset.Text :=
  ⟨text, fun char mem => by
    have inRange := List.all_eq_true.mp printable char mem
    rw [Bool.and_eq_true, decide_eq_true_eq, decide_eq_true_eq] at inRange
    exact StrSynthesizer.mem_asciiCharset_iff.mpr inRange⟩

theorem dense_asciiCharset : asciiCharset.Dense := by
  intro below isBelow above isAbove less apart
  obtain ⟨atLeast, _⟩ := StrSynthesizer.mem_asciiCharset_iff.mp isBelow
  obtain ⟨_, atMost⟩ := StrSynthesizer.mem_asciiCharset_iff.mp isAbove
  have order : below.toNat < above.toNat := less
  have isChar : (below.toNat + 1).isValidChar := .inl (by omega)
  have code : (Char.ofNat (below.toNat + 1)).toNat = below.toNat + 1 := by
    rw [Char.ofNat, dif_pos isChar]
    rfl
  refine ⟨Char.ofNat (below.toNat + 1), ?_, ?_, ?_⟩
  · exact StrSynthesizer.mem_asciiCharset (by omega) (by omega)
  · change below.toNat < (Char.ofNat (below.toNat + 1)).toNat
    omega
  · change (Char.ofNat (below.toNat + 1)).toNat < above.toNat
    omega

/-- What `bounded_constraints` accepts is between the bounds. -/
theorem between_of_accepts (upper lower : asciiCharset.Text) (includeUpper includeLower : Bool)
    (text : asciiCharset.Text)
    (accepts : Accepts (asciiCharset.boundedConstraints upper lower includeUpper includeLower)
      text.1) :
    Between upper.1 lower.1 includeUpper includeLower text.1 :=
  holds_boundedConstraints accepts

/-- `b` is accepted above `a` and below `c`. -/
theorem between_of_accepts_b : Between ['c'] ['a'] false false ['b'] := by
  let upper := asciiText ['c'] rfl
  let lower := asciiText ['a'] rfl
  have mem : 'b' ∈ asciiCharset.chars := StrSynthesizer.mem_asciiCharset_iff.mpr (by decide)
  have none : ∀ other ∈ ([] : List Char), other ∈ asciiCharset.chars := by simp
  have lowered := @mem_ltTemplate_at asciiCharset 'c' 'b' [] [] [] upper rfl (by decide) mem none
  have raised := @mem_gtTemplate_at asciiCharset 'a' 'b' [] [] [] lower rfl (by decide) mem none
  apply between_of_accepts upper lower false false (asciiText ['b'] rfl)
  rw [boundedConstraints, if_neg (by decide), if_neg (by decide)]
  exact (accepts_baseBounded_iff (List.cons_ne_nil _ _) 0).mpr ⟨.inl lowered, .inl raised⟩

/-- Between two bounds over the default character set, `bounded_constraints` leaves a
string, if there is one, if and only if the bounds are compatible. -/
theorem bounded_finds_iff (upper lower : asciiCharset.Text) (includeUpper includeLower : Bool) :
    ((∃ text : asciiCharset.Text, Between upper.1 lower.1 includeUpper includeLower text.1) →
      ∃ text : asciiCharset.Text,
        Accepts (asciiCharset.boundedConstraints upper lower includeUpper includeLower) text.1) ↔
      Compatible upper lower includeUpper includeLower :=
  exists_accepts_iff dense_asciiCharset upper lower includeUpper includeLower

/-- Above `a` and below `a b`, no string is left, although `a` with a space is between. -/
theorem bounded_misses :
    Between ['a', ' ', 'b'] ['a'] false false ['a', ' '] ∧
      ¬ ∃ text : asciiCharset.Text, Accepts
        (asciiCharset.boundedConstraints (asciiText ['a', ' ', 'b'] rfl)
          (asciiText ['a'] rfl) false false) text.1 := by
  refine ⟨between_of_lt (by decide) (by decide), ?_⟩
  rintro ⟨text, accepts⟩
  have isUpper : ['a', ' ', 'b'] = ['a'] ++ asciiCharset.least :: ['b'] := rfl
  have short := compatible_of_accepts (List.cons_ne_nil _ _) isUpper accepts
  revert short
  decide

end Charset

end SaltyRtcServer
