import SaltyRtcServer.BoundedStrings

/-!
# Strings with a fixed prefix

`StrSynthesizer.xeq_constraint` fixes the first characters of a value, and takes
only those bounds into account that start with the same characters.  A bound that
parts with the value before that place lies on its side of every string with the
prefix.
-/

namespace SaltyRtcServer

namespace Charset

open RegularExpression (literal oneOf)

section Program

variable (charset : Charset)

/-- The bound is given and not empty, and starts with the fixed characters. -/
def binding (value : charset.Text) (fixedLength : Nat) (bound : Option charset.Text) :
    Option charset.Text :=
  bound.filter fun text => text.1 ≠ [] ∧ fixedLength ≤ text.1.length ∧
    value.1.take fixedLength = text.1.take fixedLength

/-- The bounds of `xeq_constraint` that start with the fixed characters. -/
def bindingConstraints (fixedLength : Nat) (upper lower : Option charset.Text) :
    Except PyException (List TextAssertion) :=
  match upper, lower with
  | some upper, some lower =>
      match lower.1[fixedLength]?, upper.1[fixedLength]? with
      | some below, some above =>
          .ok (if below.toNat + 1 = above.toNat then charset.gtConstraint lower (fixedLength + 1)
            else charset.ltConstraint upper fixedLength ++ charset.gtConstraint lower fixedLength)
      | _, _ => .error (.indexError "string index out of range")
  | some upper, none => .ok (charset.ltConstraint upper fixedLength)
  | none, some lower => .ok (charset.gtConstraint lower fixedLength)
  | none, none => .ok []

/-- `StrSynthesizer.xeq_constraint`. -/
def xeqConstraint (value : charset.Text) (fixedLength : Nat)
    (upperBound lowerBound : Option charset.Text) : Except PyException (List TextAssertion) :=
  if fixedLength = 0 then
    match upperBound.filter (·.1 ≠ []), lowerBound.filter (·.1 ≠ []) with
    | some upper, some lower => .ok (charset.boundedConstraints upper lower false false)
    | some upper, none => .ok (charset.ltConstraint upper 0)
    | none, some lower => .ok (charset.gtConstraint lower 0)
    | none, none => .ok []
  else do
    let bounds ← charset.bindingConstraints fixedLength
      (charset.binding value fixedLength upperBound) (charset.binding value fixedLength lowerBound)
    return bounds ++
      [.inRe (literal (value.1.take fixedLength) * (oneOf charset.chars * charset.anyChars))]

end Program

variable {charset : Charset} {value : charset.Text} {fixedLength : Nat}
variable {upperBound lowerBound : Option charset.Text}

/-- What the synthesis of a string with a fixed prefix is for. -/
structure FixesPrefix (value : charset.Text) (fixedLength : Nat)
    (upperBound lowerBound : Option charset.Text) (assertions : List TextAssertion) : Prop where
  keeps : ∀ text, Accepts assertions text → value.1.take fixedLength <+: text
  below : ∀ text, Accepts assertions text → ∀ upper ∈ upperBound, text < upper.1
  above : ∀ text, Accepts assertions text → ∀ lower ∈ lowerBound, lower.1 < text
  solvable : ∃ text, Accepts assertions text

/-- Where both bounds start with the fixed characters, the lower one goes on with a character
that is not that of the upper one. -/
def PartAfterPrefix (value : charset.Text) (fixedLength : Nat)
    (upperBound lowerBound : Option charset.Text) : Prop :=
  ∀ upper ∈ upperBound, ∀ lower ∈ lowerBound, value.1.take fixedLength <+: upper.1 →
    value.1.take fixedLength <+: lower.1 →
    ∃ below ∈ lower.1[fixedLength]?, below ∉ upper.1[fixedLength]?

section Prefix

variable {kept after rest text : List Char} {char first above below : Char}
variable {upper lower : charset.Text} {bounds : List TextAssertion}

theorem mem_prefixed : text ∈ (literal kept * (oneOf charset.chars * charset.anyChars)).matches' ↔
    ∃ char rest, (∀ other ∈ char :: rest, other ∈ charset.chars) ∧
      text = kept ++ char :: rest := by
  rw [RegularExpression.mem_comp]
  constructor
  · rintro ⟨same, isKept, others, inOthers, rfl⟩
    obtain ⟨one, single, rest, inRest, rfl⟩ := RegularExpression.mem_comp.mp inOthers
    obtain ⟨char, inSet, rfl⟩ := RegularExpression.mem_oneOf.mp single
    rw [RegularExpression.mem_literal.mp isKept]
    exact ⟨char, rest,
      List.forall_mem_cons.mpr ⟨inSet, RegularExpression.mem_star_oneOf.mp inRest⟩, rfl⟩
  · rintro ⟨char, rest, inSet, rfl⟩
    obtain ⟨inHead, inRest⟩ := List.forall_mem_cons.mp inSet
    refine ⟨kept, RegularExpression.mem_literal.mpr rfl, char :: rest, ?_, rfl⟩
    exact RegularExpression.mem_comp.mpr
      ⟨[char], RegularExpression.mem_oneOf.mpr ⟨char, inHead, rfl⟩,
      rest, RegularExpression.mem_star_oneOf.mpr inRest, rfl⟩

/-- Exactly the bounds with the prefix are taken into account. -/
theorem binding_eq_filter (split : value.1 = kept ++ first :: rest) (nonempty : kept ≠ [])
    (bound : Option charset.Text) :
    charset.binding value kept.length bound = bound.filter fun text => kept <+: text.1 := by
  rw [binding, split, List.take_left]
  congr 1
  funext text
  rw [decide_eq_decide, List.prefix_iff_eq_take]
  constructor
  · exact fun found => found.2.2
  · intro same
    have lengths : kept.length ≤ text.1.length := by
      rw [same, List.length_take]
      exact Nat.min_le_right _ _
    refine ⟨fun empty => nonempty ?_, lengths, same⟩
    rw [same, empty, List.take_nil]

theorem xeqConstraint_eq (split : value.1 = kept ++ first :: rest) (nonempty : kept ≠ []) :
    charset.xeqConstraint value kept.length upperBound lowerBound =
      (charset.bindingConstraints kept.length (upperBound.filter fun text => kept <+: text.1)
        (lowerBound.filter fun text => kept <+: text.1)).map
        (· ++ [.inRe (literal kept * (oneOf charset.chars * charset.anyChars))]) := by
  have positive : kept.length ≠ 0 := fun none => nonempty (List.eq_nil_of_length_eq_zero none)
  rw [xeqConstraint, if_neg positive, binding_eq_filter split nonempty,
    binding_eq_filter split nonempty, split, List.take_left]
  rfl

/-- What the constraints of the bounds have to do beside the fixed prefix. -/
theorem fixesPrefix_append (split : value.1 = kept ++ first :: rest)
    (isBelow : ∀ text, Accepts bounds text → kept <+: text → ∀ upper ∈ upperBound, text < upper.1)
    (isAbove : ∀ text, Accepts bounds text → kept <+: text → ∀ lower ∈ lowerBound, lower.1 < text)
    {more : List Char} (inSet : ∀ other ∈ char :: more, other ∈ charset.chars)
    (accepts : Accepts bounds (kept ++ char :: more)) :
    FixesPrefix value kept.length upperBound lowerBound
      (bounds ++ [.inRe (literal kept * (oneOf charset.chars * charset.anyChars))]) := by
  have parts : ∀ text,
      Accepts (bounds ++ [.inRe (literal kept * (oneOf charset.chars * charset.anyChars))]) text →
        Accepts bounds text ∧ kept <+: text := by
    intro text accepts
    obtain ⟨accepts, mem⟩ := List.forall_mem_append.mp accepts
    obtain ⟨char, rest, _, rfl⟩ := mem_prefixed.mp (mem _ List.mem_cons_self)
    exact ⟨accepts, List.prefix_append _ _⟩
  constructor
  · intro text accepts
    rw [split, List.take_left]
    exact (parts text accepts).2
  · intro text accepts
    exact isBelow text (parts text accepts).1 (parts text accepts).2
  · intro text accepts
    exact isAbove text (parts text accepts).1 (parts text accepts).2
  · refine ⟨kept ++ char :: more, List.forall_mem_append.mpr ⟨accepts, ?_⟩⟩
    exact List.forall_mem_singleton.mpr (mem_prefixed.mpr ⟨char, more, inSet, rfl⟩)

/-- An upper bound of the value without the prefix is one of every string with the prefix. -/
theorem lt_of_not_binding (split : value.1 = kept ++ first :: rest) (above : value.1 < upper.1)
    (parts : ¬ kept <+: upper.1) (keeps : kept <+: text) : text < upper.1 := by
  rcases List.lt_or_gt_of_not_prefix parts with less | greater
  · exact less text keeps
  · exact absurd (greater value.1 (split ▸ List.prefix_append _ _)) (lt_asymm above)

theorem gt_of_not_binding (split : value.1 = kept ++ first :: rest) (below : lower.1 < value.1)
    (parts : ¬ kept <+: lower.1) (keeps : kept <+: text) : lower.1 < text := by
  rcases List.lt_or_gt_of_not_prefix parts with less | greater
  · exact absurd (less value.1 (split ▸ List.prefix_append _ _)) (lt_asymm below)
  · exact greater text keeps

theorem accepts_gtConstraint_iff {offset : Nat} : Accepts (charset.gtConstraint lower offset) text ↔
    text ∈ (charset.gtTemplate lower offset).matches' :=
  List.forall_mem_singleton

theorem accepts_ltConstraint_iff {offset : Nat} (nonempty : upper.1 ≠ []) :
    Accepts (charset.ltConstraint upper offset) text ↔
      text ∈ (charset.ltTemplate upper offset).matches' := by
  rw [ltConstraint, if_neg nonempty]
  exact List.forall_mem_singleton

/-- An upper bound of the value with the prefix goes on after it. -/
theorem exists_of_binding (split : value.1 = kept ++ first :: rest) (above : value.1 < upper.1)
    (keeps : kept <+: upper.1) : ∃ char after, upper.1 = kept ++ char :: after := by
  obtain ⟨after, same⟩ := keeps
  cases after with
  | nil =>
      rw [← same, List.append_nil, split] at above
      exact absurd (List.lt_append_cons kept first rest) (lt_asymm above)
  | cons char after => exact ⟨char, after, same.symm⟩

/-- Some string with the prefix is in the template of an upper bound of the value. -/
theorem exists_mem_ltTemplate_prefixed (split : value.1 = kept ++ first :: rest)
    (isAbove : value.1 < upper.1) (isUpper : upper.1 = kept ++ above :: after) :
    ∃ char more, (∀ other ∈ char :: more, other ∈ charset.chars) ∧
      kept ++ char :: more ∈ (charset.ltTemplate upper kept.length).matches' := by
  by_cases isLeast : above = charset.least
  · subst isLeast
    obtain ⟨text, mem⟩ := exists_mem_ltTemplate upper kept.length
    have inSet := mem_chars_of_ltTemplate mem
    rcases mem_ltTemplate_least isUpper mem with ⟨rfl, all⟩ | ⟨char, more, rfl⟩
    · cases after with
      | nil =>
          have inText : ∀ char ∈ value.1, char ∈ charset.chars := value.2
          rw [isUpper] at isAbove
          refine absurd isAbove (not_lt_append_least inText ?_)
          rw [split]
          exact List.lt_append_cons kept first rest
      | cons next after =>
          rw [isUpper, List.dropLast_append_of_ne_nil (List.cons_ne_nil _ _),
            List.dropLast_cons_of_ne_nil (List.cons_ne_nil _ _)] at mem inSet
          exact ⟨_, _, (List.forall_mem_append.mp inSet).2, mem⟩
    · exact ⟨_, _, (List.forall_mem_append.mp inSet).2, mem⟩
  · have inSet : above ∈ charset.chars := upper.2 above (by simp [isUpper])
    refine ⟨charset.least, [], List.forall_mem_singleton.mpr charset.least_mem, ?_⟩
    exact mem_ltTemplate_at isUpper (least_lt inSet isLeast) charset.least_mem (by simp)

theorem not_lt_of_isPrefix (keeps : kept <+: text) : ¬ text < kept := by
  obtain ⟨more, rfl⟩ := keeps
  cases more with
  | nil =>
      rw [List.append_nil]
      exact lt_irrefl kept
  | cons char more => exact lt_asymm (List.lt_append_cons kept char more)

/-- Some string with the prefix of a lower bound is in its template. -/
theorem exists_mem_gtTemplate_prefixed {offset : Nat} (nonempty : kept ≠ [])
    (keeps : kept <+: lower.1.take offset) :
    ∃ char more, (∀ other ∈ char :: more, other ∈ charset.chars) ∧
      kept ++ char :: more ∈ (charset.gtTemplate lower offset).matches' := by
  obtain ⟨text, mem⟩ := exists_mem_gtTemplate lower offset
  have inLower : kept <+: lower.1 := keeps.trans (List.take_prefix _ _)
  have filled : lower.1 ≠ [] := by
    intro empty
    rw [empty] at inLower
    exact nonempty (List.prefix_nil.mp inLower)
  obtain ⟨more, rfl⟩ := keeps.trans (take_prefix_of_mem_gtTemplate filled mem)
  cases more with
  | nil =>
      have greater := lt_of_mem_gtTemplate mem
      rw [List.append_nil] at greater
      exact absurd greater (not_lt_of_isPrefix inLower)
  | cons char more =>
      exact ⟨char, more, (List.forall_mem_append.mp (mem_chars_of_gtTemplate mem)).2, mem⟩

/-- A character that is not the smallest one is lowered at the offset. -/
theorem exists_smaller (split : value.1 = kept ++ char :: after) (differs : char ≠ charset.least)
    (mem : text ∈ (charset.ltTemplate value kept.length).matches') :
    ∃ smaller rest, smaller < char ∧ text = kept ++ smaller :: rest := by
  have inSet : char ∈ charset.chars := value.2 char (by simp [split])
  rw [ltTemplate, split, List.take_left, List.drop_left, lowerable,
    if_neg fun first => differs (eq_least_of_find first)] at mem
  obtain ⟨smaller, isSmaller, rest, _, rfl⟩ := RegularExpression.mem_branch.mp mem
  exact ⟨smaller, rest, lt_of_mem_take inSet isSmaller, rfl⟩

/-- A character that is not the greatest one is raised at the offset. -/
theorem exists_greater {other : Char} (split : value.1 = kept ++ char :: after)
    (inSet : other ∈ charset.chars) (greater : char < other)
    (mem : text ∈ (charset.gtTemplate value kept.length).matches') :
    ∃ greater rest, char < greater ∧ text = kept ++ greater :: rest := by
  have isChar : char ∈ charset.chars := value.2 char (by simp [split])
  have found : ¬ charset.find char + 1 ≥ charset.chars.length := by
    intro last
    have isGreater := mem_drop_find isChar greater inSet
    rw [List.drop_eq_nil_of_le last] at isGreater
    contradiction
  rw [gtTemplate, if_neg (by simp [split]), split, List.take_left, List.drop_left, raisable,
    if_neg found] at mem
  obtain ⟨raised, isRaised, rest, _, rfl⟩ := RegularExpression.mem_branch.mp mem
  exact ⟨raised, rest, lt_of_mem_drop isChar isRaised, rfl⟩

/-- No string is in both templates if the bounds go on with the same character. -/
theorem not_mem_both {greatest : Char} (inSet : greatest ∈ charset.chars)
    (several : charset.least < greatest) (isUpper : upper.1 = kept ++ char :: after)
    (isLower : lower.1 = kept ++ char :: rest)
    (below : text ∈ (charset.ltTemplate upper kept.length).matches') :
    text ∉ (charset.gtTemplate lower kept.length).matches' := by
  intro above
  by_cases isLeast : char = charset.least
  · subst isLeast
    obtain ⟨raised, more, greater, rfl⟩ := exists_greater isLower inSet several above
    have less := lt_of_mem_ltTemplate (by simp [isUpper]) below
    rw [isUpper] at less
    exact lt_asymm less (List.append_cons_lt_append_cons greater kept after more)
  · obtain ⟨lowered, more, smaller, rfl⟩ := exists_smaller isUpper isLeast below
    have greater := lt_of_mem_gtTemplate above
    rw [isLower] at greater
    exact lt_asymm greater (List.append_cons_lt_append_cons smaller kept more rest)

/-- With no common character after the prefix, the two constraints leave a string. -/
theorem exists_fixesPrefix_both (dense : charset.Dense) (split : value.1 = kept ++ first :: rest)
    (nonempty : kept ≠ []) (isUpper : upper.1 = kept ++ above :: after) {more : List Char}
    (isLower : lower.1 = kept ++ below :: more) (less : below < above) :
    ∃ bounds, charset.bindingConstraints kept.length (some upper) (some lower) = .ok bounds ∧
      FixesPrefix value kept.length (some upper) (some lower)
        (bounds ++ [.inRe (literal kept * (oneOf charset.chars * charset.anyChars))]) := by
  have atLower : lower.1[kept.length]? = some below := by simp [isLower]
  have atUpper : upper.1[kept.length]? = some above := by simp [isUpper]
  have filled : upper.1 ≠ [] := by simp [isUpper]
  simp only [bindingConstraints, atLower, atUpper, Except.ok.injEq, exists_eq_left']
  by_cases adjacent : below.toNat + 1 = above.toNat
  · rw [if_pos adjacent]
    have longer : lower.1.take (kept.length + 1) = kept ++ [below] := by
      rw [isLower, List.take_length_add_append]
      rfl
    have keeps : kept <+: lower.1.take (kept.length + 1) := longer ▸ List.prefix_append _ _
    obtain ⟨char, rest, inSet, mem⟩ := exists_mem_gtTemplate_prefixed nonempty keeps
    refine fixesPrefix_append split ?_ ?_ inSet (accepts_gtConstraint_iff.mpr mem)
    · rintro text accepts _ _ ⟨⟩
      have extends_ := take_prefix_of_mem_gtTemplate (by simp [isLower])
        (accepts_gtConstraint_iff.mp accepts)
      rw [longer] at extends_
      obtain ⟨others, rfl⟩ := extends_
      rw [isUpper, List.append_assoc]
      exact List.append_cons_lt_append_cons less kept others after
    · rintro text accepts _ _ ⟨⟩
      exact holds_gtConstraint accepts
  · rw [if_neg adjacent]
    obtain ⟨char, mem, greater, smaller⟩ := dense below (lower.2 below (by simp [isLower])) above
      (upper.2 above (by simp [isUpper])) less adjacent
    have lowered := @mem_ltTemplate_at _ above char kept [] after upper isUpper smaller mem (by simp)
    have raised := @mem_gtTemplate_at _ below char kept [] more lower isLower greater mem (by simp)
    refine fixesPrefix_append split ?_ ?_ (List.forall_mem_singleton.mpr mem)
      (List.forall_mem_append.mpr
        ⟨(accepts_ltConstraint_iff filled).mpr lowered, accepts_gtConstraint_iff.mpr raised⟩)
    · rintro text accepts _ _ ⟨⟩
      exact holds_ltConstraint (List.forall_mem_append.mp accepts).1
    · rintro text accepts _ _ ⟨⟩
      exact holds_gtConstraint (List.forall_mem_append.mp accepts).2

end Prefix

section Synthesis

variable {kept rest : List Char} {first : Char} {text : List Char}

/-- Bounds without the prefix hold for every string with the prefix. -/
theorem below_of_not_binding (split : value.1 = kept ++ first :: rest)
    (isAbove : ∀ upper ∈ upperBound, value.1 < upper.1)
    (none : upperBound.filter (fun text => kept <+: text.1) = none) (keeps : kept <+: text) :
    ∀ upper ∈ upperBound, text < upper.1 := by
  intro upper mem
  have parts := Option.filter_eq_none_iff.mp none upper mem
  exact lt_of_not_binding split (isAbove upper mem) (by simpa using parts) keeps

theorem above_of_not_binding (split : value.1 = kept ++ first :: rest)
    (isBelow : ∀ lower ∈ lowerBound, lower.1 < value.1)
    (none : lowerBound.filter (fun text => kept <+: text.1) = none) (keeps : kept <+: text) :
    ∀ lower ∈ lowerBound, lower.1 < text := by
  intro lower mem
  have parts := Option.filter_eq_none_iff.mp none lower mem
  exact gt_of_not_binding split (isBelow lower mem) (by simpa using parts) keeps

theorem eq_some_of_binding {bound : Option charset.Text} {one : charset.Text}
    (found : bound.filter (fun text => kept <+: text.1) = some one) :
    bound = some one ∧ kept <+: one.1 := by
  obtain ⟨same, keeps⟩ := Option.filter_eq_some_iff.mp found
  exact ⟨same, of_decide_eq_true keeps⟩

variable {upper lower : charset.Text}

/-- Only the constraints of the bounds can raise. -/
theorem exists_assertions_iff (split : value.1 = kept ++ first :: rest) (nonempty : kept ≠ []) :
    (∃ assertions, charset.xeqConstraint value kept.length upperBound lowerBound =
        .ok assertions ∧ FixesPrefix value kept.length upperBound lowerBound assertions) ↔
      ∃ bounds, charset.bindingConstraints kept.length
          (upperBound.filter fun text => kept <+: text.1)
          (lowerBound.filter fun text => kept <+: text.1) = .ok bounds ∧
        FixesPrefix value kept.length upperBound lowerBound
          (bounds ++ [.inRe (literal kept * (oneOf charset.chars * charset.anyChars))]) := by
  rw [xeqConstraint_eq split nonempty]
  constructor
  · rintro ⟨assertions, mapped, fixes⟩
    obtain ⟨bounds, found, rfl⟩ := exceptMap_ok mapped
    exact ⟨bounds, found, fixes⟩
  · rintro ⟨bounds, found, fixes⟩
    exact ⟨_, by rw [found]; rfl, fixes⟩

/-- A lower bound alone leaves a string. -/
theorem fixesPrefix_lower (split : value.1 = kept ++ first :: rest) (nonempty : kept ≠ [])
    (keeps : kept <+: lower.1)
    (less : ∀ text, kept <+: text → ∀ upper ∈ upperBound, text < upper.1) :
    FixesPrefix value kept.length upperBound (some lower)
      (charset.gtConstraint lower kept.length ++
        [.inRe (literal kept * (oneOf charset.chars * charset.anyChars))]) := by
  have inPart : kept <+: lower.1.take kept.length :=
    List.prefix_take_iff.mpr ⟨keeps, le_refl _⟩
  obtain ⟨char, more, inSet, mem⟩ := exists_mem_gtTemplate_prefixed nonempty inPart
  refine fixesPrefix_append split (fun text _ => less text) ?_ inSet
    (accepts_gtConstraint_iff.mpr mem)
  rintro text accepts _ _ ⟨⟩
  exact holds_gtConstraint accepts

/-- An upper bound alone leaves a string. -/
theorem fixesPrefix_upper (split : value.1 = kept ++ first :: rest) (keeps : kept <+: upper.1)
    (above : value.1 < upper.1)
    (greater : ∀ text, kept <+: text → ∀ lower ∈ lowerBound, lower.1 < text) :
    FixesPrefix value kept.length (some upper) lowerBound
      (charset.ltConstraint upper kept.length ++
        [.inRe (literal kept * (oneOf charset.chars * charset.anyChars))]) := by
  obtain ⟨next, after, isUpper⟩ := exists_of_binding split above keeps
  obtain ⟨char, more, inSet, mem⟩ := exists_mem_ltTemplate_prefixed split above isUpper
  refine fixesPrefix_append split ?_ (fun text _ => greater text) inSet
    ((accepts_ltConstraint_iff (by simp [isUpper])).mpr mem)
  rintro text accepts _ _ ⟨⟩
  exact holds_ltConstraint accepts

/-- Two bounds leave a string if and only if they part after the prefix. -/
theorem exists_both_iff {greatest : Char} (dense : charset.Dense)
    (inSet : greatest ∈ charset.chars) (several : charset.least < greatest)
    (split : value.1 = kept ++ first :: rest) (nonempty : kept ≠ [])
    (keepsUpper : kept <+: upper.1) (keepsLower : kept <+: lower.1)
    (isAbove : value.1 < upper.1) (isBelow : lower.1 < value.1) :
    (∃ bounds, charset.bindingConstraints kept.length (some upper) (some lower) = .ok bounds ∧
      FixesPrefix value kept.length (some upper) (some lower)
        (bounds ++ [.inRe (literal kept * (oneOf charset.chars * charset.anyChars))])) ↔
      ∃ below ∈ lower.1[kept.length]?, below ∉ upper.1[kept.length]? := by
  obtain ⟨above, after, isUpper⟩ := exists_of_binding split isAbove keepsUpper
  obtain ⟨tail, lowerSplit⟩ := keepsLower
  cases tail with
  | nil =>
      have ends : lower.1[kept.length]? = none := by simp [← lowerSplit]
      rw [bindingConstraints, ends]
      exact iff_of_false nofun nofun
  | cons below more =>
      have isLower : lower.1 = kept ++ below :: more := lowerSplit.symm
      have atLower : lower.1[kept.length]? = some below := by simp [isLower]
      have atUpper : upper.1[kept.length]? = some above := by simp [isUpper]
      rcases lt_trichotomy below above with less | rfl | greater
      · refine iff_of_true
          (exists_fixesPrefix_both dense split nonempty isUpper isLower less) ⟨below, atLower, ?_⟩
        rw [atUpper, Option.mem_some_iff]
        exact ne_of_gt less
      · apply iff_of_false
        · rintro ⟨bounds, found, fixes⟩
          rw [bindingConstraints, atLower, atUpper] at found
          dsimp only at found
          rw [if_neg (Nat.succ_ne_self _)] at found
          cases found
          obtain ⟨text, accepts⟩ := fixes.solvable
          obtain ⟨bounded, _⟩ := List.forall_mem_append.mp accepts
          obtain ⟨lowered, raised⟩ := List.forall_mem_append.mp bounded
          exact not_mem_both inSet several isUpper isLower
            ((accepts_ltConstraint_iff (by simp [isUpper])).mp lowered)
            (accepts_gtConstraint_iff.mp raised)
        · rintro ⟨same, isSame, differs⟩
          rw [atLower, Option.mem_some_iff] at isSame
          exact differs (isSame ▸ atUpper)
      · have order := isBelow.trans isAbove
        rw [isUpper, isLower] at order
        exact absurd order
          (lt_asymm (List.append_cons_lt_append_cons greater kept after more))

/-- The constraints of the bounds that start with the prefix leave a string with it if and only
if these bounds part after it. -/
theorem exists_fixesPrefix_iff {greatest : Char} (dense : charset.Dense)
    (inSet : greatest ∈ charset.chars) (several : charset.least < greatest)
    (split : value.1 = kept ++ first :: rest) (nonempty : kept ≠ [])
    (isBelow : ∀ lower ∈ lowerBound, lower.1 < value.1)
    (isAbove : ∀ upper ∈ upperBound, value.1 < upper.1) :
    (∃ assertions, charset.xeqConstraint value kept.length upperBound lowerBound =
        .ok assertions ∧ FixesPrefix value kept.length upperBound lowerBound assertions) ↔
      PartAfterPrefix value kept.length upperBound lowerBound := by
  have inValue : ∀ other ∈ first :: rest, other ∈ charset.chars :=
    fun other mem => value.2 other (by rw [split]; exact List.mem_append_right kept mem)
  rw [exists_assertions_iff split nonempty, PartAfterPrefix, split, List.take_left]
  cases isUpper : upperBound.filter fun text => kept <+: text.1 with
  | none =>
      have less := fun text => @below_of_not_binding _ _ _ _ _ _ text split isAbove isUpper
      refine iff_of_true ?_ fun upper mem lower _ keeps => ?_
      · cases isLower : lowerBound.filter fun text => kept <+: text.1 with
        | none =>
            have greater := fun text => @above_of_not_binding _ _ _ _ _ _ text split isBelow isLower
            exact ⟨[], rfl, fixesPrefix_append split (fun text _ => less text)
              (fun text _ => greater text) inValue nofun⟩
        | some lower =>
            obtain ⟨rfl, keeps⟩ := eq_some_of_binding isLower
            exact ⟨_, rfl, fixesPrefix_lower split nonempty keeps less⟩
      · have parts := Option.filter_eq_none_iff.mp isUpper upper mem
        exact absurd keeps (by simpa using parts)
  | some upper =>
      obtain ⟨rfl, keepsUpper⟩ := eq_some_of_binding isUpper
      cases isLower : lowerBound.filter fun text => kept <+: text.1 with
      | none =>
          have greater := fun text => @above_of_not_binding _ _ _ _ _ _ text split isBelow isLower
          refine iff_of_true
            ⟨_, rfl, fixesPrefix_upper split keepsUpper (isAbove upper rfl) greater⟩
            fun _ _ lower mem _ keeps => ?_
          have parts := Option.filter_eq_none_iff.mp isLower lower mem
          exact absurd keeps (by simpa using parts)
      | some lower =>
          obtain ⟨rfl, keepsLower⟩ := eq_some_of_binding isLower
          rw [exists_both_iff dense inSet several split nonempty keepsUpper keepsLower
            (isAbove upper rfl) (isBelow lower rfl)]
          simp [keepsUpper, keepsLower]

/-- For a prefix of the value between the bounds, `xeq_constraint` leaves strings with the
prefix, all of them between the bounds, if and only if bounds with that prefix part after
it. -/
theorem xeq_fixes_iff (value : asciiCharset.Text) (fixedLength : Nat)
    (upperBound lowerBound : Option asciiCharset.Text)
    (inside : 0 < fixedLength ∧ fixedLength < value.1.length)
    (isBelow : ∀ lower ∈ lowerBound, lower.1 < value.1)
    (isAbove : ∀ upper ∈ upperBound, value.1 < upper.1) :
    (∃ assertions, asciiCharset.xeqConstraint value fixedLength upperBound lowerBound =
        .ok assertions ∧ FixesPrefix value fixedLength upperBound lowerBound assertions) ↔
      PartAfterPrefix value fixedLength upperBound lowerBound := by
  obtain ⟨positive, inside⟩ := inside
  have split : value.1 = value.1.take fixedLength ++
      value.1[fixedLength] :: value.1.drop (fixedLength + 1) := by
    rw [List.getElem_cons_drop, List.take_append_drop]
  have lengths : (value.1.take fixedLength).length = fixedLength :=
    List.length_take_of_le (le_of_lt inside)
  have nonempty : value.1.take fixedLength ≠ [] := by
    intro empty
    rw [empty] at lengths
    exact Nat.ne_of_gt positive lengths.symm
  have inSet : '~' ∈ asciiCharset.chars := StrSynthesizer.mem_asciiCharset_iff.mpr (by decide)
  have exact_ := exists_fixesPrefix_iff dense_asciiCharset inSet (by decide) split nonempty
    isBelow isAbove
  rwa [lengths] at exact_

/-- A string that starts with `a` between `ab` and `ad`. -/
theorem xeq_fixes_ac : ∃ assertions, asciiCharset.xeqConstraint (asciiText ['a', 'c'] rfl) 1
    (some (asciiText ['a', 'd'] rfl)) (some (asciiText ['a', 'b'] rfl)) = .ok assertions ∧
      FixesPrefix (asciiText ['a', 'c'] rfl) 1 (some (asciiText ['a', 'd'] rfl))
        (some (asciiText ['a', 'b'] rfl)) assertions := by
  refine (xeq_fixes_iff _ 1 _ _ (by decide) ?_ ?_).mpr ?_
  · rintro _ ⟨⟩
    decide
  · rintro _ ⟨⟩
    decide
  · rintro _ ⟨⟩ _ ⟨⟩ _ _
    exact ⟨'b', rfl, by decide⟩

/-- With bounds that go on with the same character, `abc` is between `ab` and `abz`, and no
string is left; with a lower bound that ends after the prefix, an exception is raised. -/
theorem xeq_misses :
    (¬ ∃ assertions, asciiCharset.xeqConstraint (asciiText ['a', 'b', 'c'] rfl) 1
        (some (asciiText ['a', 'b', 'z'] rfl)) (some (asciiText ['a', 'b'] rfl)) = .ok assertions ∧
      FixesPrefix (asciiText ['a', 'b', 'c'] rfl) 1 (some (asciiText ['a', 'b', 'z'] rfl))
        (some (asciiText ['a', 'b'] rfl)) assertions) ∧
      asciiCharset.xeqConstraint (asciiText ['a', 'b'] rfl) 1 (some (asciiText ['a', 'c'] rfl))
        (some (asciiText ['a'] rfl)) = .error (.indexError "string index out of range") := by
  constructor
  · rintro ⟨assertions, found, fixes⟩
    have split : (asciiText ['a', 'b', 'c'] rfl).1 = ['a'] ++ 'b' :: ['c'] := rfl
    obtain ⟨bounds, both, fixes⟩ := (exists_assertions_iff split (List.cons_ne_nil _ _)).mp
      ⟨assertions, found, fixes⟩
    have inSet : '~' ∈ asciiCharset.chars := StrSynthesizer.mem_asciiCharset_iff.mpr (by decide)
    have parts := (exists_both_iff dense_asciiCharset inSet (by decide) split
      (List.cons_ne_nil _ _) (by decide) (by decide) (by decide) (by decide)).mp ⟨bounds, both, fixes⟩
    obtain ⟨_, ⟨⟩, differs⟩ := parts
    exact differs rfl
  · rfl

end Synthesis

end Charset

end SaltyRtcServer
