import SaltyRtcServer.Common
import SaltyRtcServer.StrTemplates

/-!
# Synthesis of strings

`StrSynthesizer` puts order constraints on a string variable of the solver and
equations on integer variables for up to 100 characters, which are padded with
zeros in front.  Nothing relates the string variable to the integer variables,
and the value of the string variable is taken if the model has one.
-/

namespace SaltyRtcServer

/-- `printable_ascii_chars`. -/
def printableAsciiChars : List Char := (List.range' 32 95).map Char.ofNat

/-- `StrSynthesizer.DEFAULT_ASCII_CHARS`. -/
def asciiCharset : Charset := ⟨printableAsciiChars, by decide +kernel, by decide⟩

/-- `StrSynthesizer.DEFAULT_MAX_CHAR_LENGTH`. -/
abbrev maxCharLength : Nat := 100

/-- An assertion in the solver of a `StrSynthesizer`: about the string variable, or about
the integer variables, of which each is zero or printable, and zero if the next one is. -/
inductive StrAssertion
  | text (assertion : TextAssertion)
  | charRange (index : Fin maxCharLength)
  | nullBefore (index : Fin (maxCharLength - 1))
  | eq (func : List Int → Int) (value : Int)

/-- Values of all variables. -/
structure StrAssignment where
  var : List Char
  chars : Fin maxCharLength → Int

namespace StrAssertion

def Holds : StrAssertion → StrAssignment → Prop
  | .text assertion, assignment => assertion.Holds assignment.var
  | .charRange index, assignment =>
      assignment.chars index = 0 ∨ 32 ≤ assignment.chars index ∧ assignment.chars index ≤ 126
  | .nullBefore index, assignment =>
      assignment.chars index.succ = 0 → assignment.chars index.castSucc = 0
  | .eq func value, assignment => func (List.ofFn assignment.chars) = value

/-- The assertion is about the string variable. -/
def isText : StrAssertion → Bool
  | .text _ => true
  | _ => false

end StrAssertion

/-- A model of the solver, which leaves out variables whose values do not matter. -/
structure StrModel where
  var : Option (List Char)
  chars : Fin maxCharLength → Option Int

namespace StrModel

/-- The assignment gives the variables of the model their values. -/
structure Admits (model : StrModel) (assignment : StrAssignment) : Prop where
  var : ∀ text ∈ model.var, assignment.var = text
  chars : ∀ index, ∀ code ∈ model.chars index, assignment.chars index = code

/-- The assertion holds whatever the other variables are. -/
def Satisfies (assertion : StrAssertion) (model : StrModel) : Prop :=
  ∀ assignment, model.Admits assignment → assertion.Holds assignment

/-- Variables of the model occur in the assertions. -/
structure Occurs (assertions : List StrAssertion) (model : StrModel) : Prop where
  var : model.var ≠ none → ∃ assertion ∈ assertions, assertion.isText = true
  chars : ∀ index, model.chars index ≠ none → ∃ assertion ∈ assertions, assertion.isText = false

end StrModel

/-- The solver of a `StrSynthesizer`. -/
structure StrSolver extends IncrementalSolver StrModel.Satisfies where
  occurs : ∀ {assertions model}, check assertions = some model → model.Occurs assertions

/-- A string that was synthesized, with its tags. -/
structure SpliceStr where
  value : List Char
  trusted : Bool
  synthesized : Bool
  taints : Nat
  deriving DecidableEq

/-- Maps of constraints on strings; `eq` holds pairs of a function and its value. -/
abbrev StrConstraints (charset : Charset) := ConstraintMap charset.Text ((List Int → Int) × Int)

namespace StrSynthesizer

/-- `StrSynthesizer.eq_constraint`. -/
def eqConstraint (equation : (List Int → Int) × Int) : List StrAssertion :=
  (List.finRange maxCharLength).map .charRange ++
    (List.finRange (maxCharLength - 1)).map .nullBefore ++ [.eq equation.1 equation.2]

def synthesizer (charset : Charset) :
    Synthesizer charset.Text ((List Int → Int) × Int) StrAssertion where
  ltConstraint value := (charset.ltConstraint value 0).map .text
  gtConstraint value := (charset.gtConstraint value 0).map .text
  leConstraint value := (charset.leConstraint value 0).map .text
  geConstraint value := (charset.geConstraint value 0).map .text
  eqConstraint := eqConstraint
  neConstraint value := (charset.neConstraint value 0).map .text
  boundedConstraints upper lower includeUpper includeLower :=
    (charset.boundedConstraints upper lower includeUpper includeLower).map .text

/-- What `value` reads from a model: the string variable, or all characters. -/
inductive Z3Value
  | string (text : List Char)
  | codes (codes : List Int)

/-- `StrSynthesizer.value`, for the model of a check that succeeded. -/
def value (model : StrModel) : Except PyException Z3Value :=
  match model.var with
  | some text => .ok (.string text)
  | none => do
      let codes ← (List.finRange maxCharLength).mapM fun index =>
        match model.chars index with
        | some code => Except.ok code
        | none => .error (.keyError ("x" ++ toString index.1))
      return .codes codes

/-- The text that `to_python` makes of a value. -/
def textOf : Z3Value → List Char
  | .string text => text
  | .codes codes => (codes.filter fun code => 0 < code).map fun code => Char.ofNat code.toNat

/-- `StrSynthesizer.to_python`. -/
def toPython (value : Z3Value) : SpliceStr := ⟨textOf value, false, true, emptyTaint⟩

/-- `_splice_synthesis` of a fresh `StrSynthesizer`. -/
def spliceSynthesisOf {charset : Charset} (solver : StrSolver)
    (constraints : StrConstraints charset) : Except PyException (Option SpliceStr) :=
  match ((synthesizer charset).spliceSynthesisOf solver.toIncrementalSolver [] constraints).2 with
  | none => .ok none
  | some model => do
      let value ← value model
      return some (toPython value)

end StrSynthesizer

/-- The characters of a string as `eq` functions take them. -/
def codesOf (text : List Char) : List Int := text.map fun char => (char.toNat : Int)

namespace ConstraintMap

variable {charset : Charset}

/-- A string meets all constraints of the map. -/
structure Meets (constraints : StrConstraints charset) (text : List Char) : Prop where
  lt : ∀ bound ∈ valuesOf constraints.lt, text < bound.1
  le : ∀ bound ∈ valuesOf constraints.le, text ≤ bound.1
  gt : ∀ bound ∈ valuesOf constraints.gt, text > bound.1
  ge : ∀ bound ∈ valuesOf constraints.ge, text ≥ bound.1
  eq : ∀ equation ∈ constraints.eq.getD [], equation.1 (codesOf text) = equation.2
  ne : ∀ other ∈ constraints.ne.getD [], text ≠ other.1

variable (constraints : StrConstraints charset)

/-- Something is asserted about the string variable. -/
def Ordered : Prop :=
  ∃ assertion ∈ (StrSynthesizer.synthesizer charset).assertions constraints,
    assertion.isText = true

/-- The text is a value of the string variable. -/
def Accepts (text : List Char) : Prop :=
  ∀ assertion, .text assertion ∈ (StrSynthesizer.synthesizer charset).assertions constraints →
    assertion.Holds text

/-- The codes are values of the integer variables. -/
def Solves (chars : Fin maxCharLength → Int) : Prop :=
  ∀ assertion ∈ (StrSynthesizer.synthesizer charset).assertions constraints,
    assertion.isText = false → assertion.Holds ⟨[], chars⟩

/-- The two kinds of constraints do not get in each other's way: beside order
constraints, equations exclude no text that is accepted; without them, equations do not
depend on the padding; and the empty text is not accepted where it is excluded. -/
structure Separate : Prop where
  equations : constraints.Ordered → ∀ chars, constraints.Solves chars →
    ∀ text, constraints.Accepts text →
      ∀ equation ∈ constraints.eq.getD [], equation.1 (codesOf text) = equation.2
  empty : constraints.Ordered → ∀ chars, constraints.Solves chars →
    constraints.Accepts [] → ∀ other ∈ constraints.ne.getD [], other.1 ≠ []
  padding : ¬ constraints.Ordered → ∀ chars, constraints.Solves chars →
    ∀ equation ∈ constraints.eq.getD [],
      equation.1 ((List.ofFn chars).filter fun code => 0 < code) = equation.2

end ConstraintMap

namespace StrAssertion

/-- Assertions that are not about the string variable do not depend on it. -/
theorem holds_of_chars_eq {assertion : StrAssertion} {assignment other : StrAssignment}
    (about : assertion.isText = false) (holds : assertion.Holds assignment)
    (same : assignment.chars = other.chars) : assertion.Holds other := by
  obtain ⟨var, chars⟩ := assignment
  obtain ⟨otherVar, otherChars⟩ := other
  obtain rfl : chars = otherChars := same
  cases assertion with
  | text assertion => contradiction
  | charRange index => exact holds
  | nullBefore index => exact holds
  | eq func value => exact holds

end StrAssertion

namespace StrModel

/-- Every model can be completed. -/
theorem exists_admits (model : StrModel) : ∃ assignment, model.Admits assignment := by
  refine ⟨⟨model.var.getD [], fun index => (model.chars index).getD 0⟩, ?_, ?_⟩
  · intro text mem
    rw [Option.mem_def.mp mem]
    rfl
  · intro index code mem
    change (model.chars index).getD 0 = code
    rw [Option.mem_def.mp mem]
    rfl

/-- The part of an assignment that the assertions are about. -/
def restrict (assertions : List StrAssertion) (assignment : StrAssignment) : StrModel where
  var := if ∃ assertion ∈ assertions, assertion.isText = true then some assignment.var else none
  chars index :=
    if ∃ assertion ∈ assertions, assertion.isText = false then some (assignment.chars index)
    else none

variable {assertions : List StrAssertion} {assignment : StrAssignment}

theorem satisfies_restrict (holds : ∀ assertion ∈ assertions, assertion.Holds assignment) :
    ∀ assertion ∈ assertions, Satisfies assertion (restrict assertions assignment) := by
  intro assertion mem other admits
  cases about : assertion.isText with
  | true =>
      have same : other.var = assignment.var := admits.var _ (if_pos ⟨assertion, mem, about⟩)
      cases assertion with
      | text assertion =>
          change assertion.Holds other.var
          rw [same]
          exact holds _ mem
      | charRange index => contradiction
      | nullBefore index => contradiction
      | eq func value => contradiction
  | false =>
      have same : assignment.chars = other.chars :=
        funext fun index => (admits.chars index _ (if_pos ⟨assertion, mem, about⟩)).symm
      exact StrAssertion.holds_of_chars_eq about (holds assertion mem) same

theorem occurs_restrict : (restrict assertions assignment).Occurs assertions := by
  constructor
  · intro present
    by_contra absent
    exact present (if_neg absent)
  · intro index present
    by_contra absent
    exact present (if_neg absent)

end StrModel

/-- A solver for assignments leaves out variables that do not occur. -/
def StrSolver.ofTotal (solver : IncrementalSolver StrAssertion.Holds) : StrSolver where
  check assertions := (solver.check assertions).map (StrModel.restrict assertions)
  sound {assertions model} found := by
    obtain ⟨assignment, checked, rfl⟩ := Option.map_eq_some_iff.mp found
    exact StrModel.satisfies_restrict (solver.sound checked)
  complete {assertions} failed := by
    rintro ⟨model, satisfies⟩
    obtain ⟨assignment, admits⟩ := model.exists_admits
    exact solver.complete (Option.map_eq_none_iff.mp failed)
      ⟨assignment, fun assertion mem => satisfies assertion mem assignment admits⟩
  occurs {assertions model} found := by
    obtain ⟨assignment, checked, rfl⟩ := Option.map_eq_some_iff.mp found
    exact StrModel.occurs_restrict

namespace StrSynthesizer

open ConstraintMap

variable {charset : Charset} {constraints : StrConstraints charset}
variable {text : List Char} {chars : Fin maxCharLength → Int}

/-- The assertion accepts texts over the character set only. -/
def OverCharset (charset : Charset) (assertion : StrAssertion) : Prop :=
  ∃ accepts, assertion = .text accepts ∧ charset.Confines accepts

theorem overCharset_map {accepts : List TextAssertion}
    (confines : ∀ assertion ∈ accepts, charset.Confines assertion) :
    ∀ assertion ∈ accepts.map .text, OverCharset charset assertion := by
  rw [List.forall_mem_map]
  exact fun assertion mem => ⟨assertion, rfl, confines assertion mem⟩

theorem overCharset_boundAssertions :
    ∀ assertion ∈ (synthesizer charset).boundAssertions constraints,
      OverCharset charset assertion := by
  unfold Synthesizer.boundAssertions
  split
  · exact overCharset_map (Charset.confines_boundedConstraints _ _ _ _)
  · simp only [List.forall_mem_append, List.forall_mem_flatMap]
    exact ⟨⟨⟨fun bound _ => overCharset_map (Charset.confines_ltConstraint bound 0),
      fun bound _ => overCharset_map (Charset.confines_leConstraint bound 0)⟩,
      fun bound _ => overCharset_map (Charset.confines_gtConstraint bound 0)⟩,
      fun bound _ => overCharset_map (Charset.confines_geConstraint bound 0)⟩

theorem not_isText_eqConstraint {equation : (List Int → Int) × Int} {assertion : StrAssertion}
    (mem : assertion ∈ eqConstraint equation) : assertion.isText = false := by
  simp only [eqConstraint, List.mem_append, List.mem_map, List.mem_singleton] at mem
  rcases mem with (⟨index, _, rfl⟩ | ⟨index, _, rfl⟩) | rfl <;> rfl

theorem mem_assertions {assertion : StrAssertion} :
    assertion ∈ (synthesizer charset).assertions constraints ↔
      assertion ∈ (synthesizer charset).boundAssertions constraints ∨
        (∃ equation ∈ constraints.eq.getD [], assertion ∈ eqConstraint equation) ∨
        ∃ other ∈ constraints.ne.getD [], assertion ∈ (charset.neConstraint other 0).map .text := by
  simp [Synthesizer.assertions, synthesizer]

/-- What is about the string variable confines it to the character set. -/
theorem overCharset_of_isText {assertion : StrAssertion}
    (mem : assertion ∈ (synthesizer charset).assertions constraints)
    (about : assertion.isText = true) : OverCharset charset assertion := by
  rcases mem_assertions.mp mem with bound | ⟨equation, _, inEquation⟩ | ⟨other, _, inOther⟩
  · exact overCharset_boundAssertions assertion bound
  · rw [not_isText_eqConstraint inEquation] at about
    contradiction
  · exact overCharset_map (Charset.confines_neConstraint other 0) assertion inOther

/-- What is about the characters comes from an equation. -/
theorem exists_equation_of_mem {assertion : StrAssertion}
    (mem : assertion ∈ (synthesizer charset).assertions constraints)
    (about : assertion.isText = false) :
    ∃ equation ∈ constraints.eq.getD [], assertion ∈ eqConstraint equation := by
  rcases mem_assertions.mp mem with bound | inEquation | ⟨other, _, inOther⟩
  · obtain ⟨accepts, rfl, _⟩ := overCharset_boundAssertions assertion bound
    contradiction
  · exact inEquation
  · obtain ⟨accepts, _, rfl⟩ := List.mem_map.mp inOther
    contradiction

theorem solves_of_forall
    (range : ∀ index, chars index = 0 ∨ 32 ≤ chars index ∧ chars index ≤ 126)
    (nulls : ∀ index : Fin (maxCharLength - 1), chars index.succ = 0 → chars index.castSucc = 0)
    (equations : ∀ equation ∈ constraints.eq.getD [], equation.1 (List.ofFn chars) = equation.2) :
    constraints.Solves chars := by
  intro assertion mem about
  obtain ⟨equation, inMap, inEquation⟩ := exists_equation_of_mem mem about
  simp only [eqConstraint, List.mem_append, List.mem_map, List.mem_singleton] at inEquation
  rcases inEquation with (⟨index, _, rfl⟩ | ⟨index, _, rfl⟩) | rfl
  · exact range index
  · exact nulls index
  · exact equations equation inMap

theorem accepts_of_not_ordered (plain : ¬ constraints.Ordered) (text : List Char) :
    constraints.Accepts text :=
  fun assertion mem => absurd ⟨.text assertion, mem, rfl⟩ plain

theorem ordered_of_mem_ne {other : charset.Text} (mem : other ∈ constraints.ne.getD []) :
    constraints.Ordered := by
  have inOther : .text (.inEither (charset.ltTemplate other 0) (charset.gtTemplate other 0)) ∈
      (charset.neConstraint other 0).map StrAssertion.text := List.mem_cons_self
  exact ⟨_, mem_assertions.mpr (.inr (.inr ⟨other, mem, inOther⟩)), rfl⟩

/-- All assertions hold of a text and codes. -/
def Solved (constraints : StrConstraints charset) (text : List Char)
    (chars : Fin maxCharLength → Int) : Prop :=
  ∀ assertion ∈ (synthesizer charset).assertions constraints, assertion.Holds ⟨text, chars⟩

theorem solved_iff :
    Solved constraints text chars ↔ constraints.Accepts text ∧ constraints.Solves chars := by
  constructor
  · intro solved
    exact ⟨fun assertion mem => solved _ mem, fun assertion mem about =>
      StrAssertion.holds_of_chars_eq about (solved assertion mem) rfl⟩
  · rintro ⟨accepts, solves⟩ assertion mem
    cases about : assertion.isText with
    | true =>
        obtain ⟨accepted, rfl, _⟩ := overCharset_of_isText mem about
        exact accepts accepted mem
    | false => exact StrAssertion.holds_of_chars_eq about (solves assertion mem about) rfl

theorem mem_chars_of_accepts (ordered : constraints.Ordered) (accepts : constraints.Accepts text) :
    ∀ char ∈ text, char ∈ charset.chars := by
  obtain ⟨assertion, mem, about⟩ := ordered
  obtain ⟨accepted, rfl, confines⟩ := overCharset_of_isText mem about
  exact confines text (accepts accepted mem)

/-- A text that the order templates accept is within the bounds. -/
theorem holds_boundAssertions (text : charset.Text)
    (holds : ∀ assertion ∈ (synthesizer charset).boundAssertions constraints,
      assertion.Holds ⟨text.1, chars⟩) :
    ((∀ bound ∈ valuesOf constraints.lt, text < bound) ∧
        ∀ bound ∈ valuesOf constraints.le, text ≤ bound) ∧
      (∀ bound ∈ valuesOf constraints.gt, bound < text) ∧
        ∀ bound ∈ valuesOf constraints.ge, bound ≤ text := by
  unfold Synthesizer.boundAssertions at holds
  split at holds
  · next upper includeUpper lower includeLower isUpper isLower =>
    rw [← below_upperBound_iff, ← above_lowerBound_iff, isUpper, isLower]
    simp only [Option.mem_some_iff, forall_eq']
    exact Charset.holds_boundedConstraints (List.forall_mem_map.mp holds)
  · simp only [List.forall_mem_append, List.forall_mem_flatMap, Option.mem_toList] at holds
    obtain ⟨⟨⟨lt, le⟩, gt⟩, ge⟩ := holds
    rw [← forall_minimum_iff (fun below least => lt_of_lt_of_le least below),
      ← forall_minimum_iff (fun below least => le_trans least below),
      ← forall_maximum_iff (fun above greatest => lt_of_le_of_lt above greatest),
      ← forall_maximum_iff (fun above greatest => le_trans above greatest)]
    refine ⟨⟨fun least mem => ?_, fun least mem => ?_⟩, fun greatest mem => ?_,
      fun greatest mem => ?_⟩
    · exact Charset.holds_ltConstraint (List.forall_mem_map.mp (lt least mem))
    · exact Charset.holds_leConstraint (List.forall_mem_map.mp (le least mem))
    · exact Charset.holds_gtConstraint (List.forall_mem_map.mp (gt greatest mem))
    · exact Charset.holds_geConstraint (List.forall_mem_map.mp (ge greatest mem))

/-- Beside the equations, only an excluded empty text is not met. -/
theorem meets_of_solved (confined : ∀ char ∈ text, char ∈ charset.chars)
    (solved : Solved constraints text chars)
    (equations : ∀ equation ∈ constraints.eq.getD [], equation.1 (codesOf text) = equation.2)
    (empty : text = [] → ∀ other ∈ constraints.ne.getD [], other.1 ≠ []) :
    constraints.Meets text := by
  have bounds : ∀ assertion ∈ (synthesizer charset).boundAssertions constraints,
      assertion.Holds ⟨text, chars⟩ :=
    fun assertion mem => solved assertion (mem_assertions.mpr (.inl mem))
  obtain ⟨⟨lt, le⟩, gt, ge⟩ := holds_boundAssertions ⟨text, confined⟩ bounds
  refine ⟨lt, le, gt, ge, equations, fun other mem => ?_⟩
  have differs : ∀ assertion ∈ charset.neConstraint other 0, assertion.Holds text :=
    fun assertion inOther =>
      solved (.text assertion) <| mem_assertions.mpr <|
        .inr <| .inr ⟨other, mem, List.mem_map_of_mem inOther⟩
  rcases Charset.holds_neConstraint differs with different | ⟨isEmpty, otherEmpty⟩
  · exact different
  · exact absurd otherEmpty (empty isEmpty other mem)

section Codes

theorem value_of_chars (chars : Fin maxCharLength → Int) :
    value ⟨none, fun index => some (chars index)⟩ = .ok (.codes (List.ofFn chars)) := by
  change ((List.finRange maxCharLength).mapM fun index => pure (chars index)) >>= _ = _
  rw [List.mapM_pure, List.ofFn_eq_map]
  rfl

/-- Without the string variable, all characters are read. -/
theorem chars_of_value {model : StrModel} {result : Z3Value} (absent : model.var = none)
    (read : value model = .ok result) :
    ∃ chars, model.chars = (fun index => some (chars index)) ∧
      result = .codes (List.ofFn chars) := by
  obtain ⟨var, codes⟩ := model
  obtain rfl : var = none := absent
  obtain ⟨all, done, _⟩ := exceptBind_ok read
  have present (index : Fin maxCharLength) : ∃ code, codes index = some code := by
    obtain ⟨one, isOne⟩ := exceptMapM_ok done index (List.mem_finRange index)
    dsimp only at isOne
    cases found : codes index with
    | none =>
        rw [found] at isOne
        contradiction
    | some code => exact ⟨code, rfl⟩
  choose chars isChars using present
  obtain rfl : codes = fun index => some (chars index) := funext isChars
  rw [value_of_chars] at read
  exact ⟨chars, rfl, (Except.ok.inj read).symm⟩

theorem mem_asciiCharset {code : Nat} (atLeast : 32 ≤ code) (atMost : code ≤ 126) :
    Char.ofNat code ∈ asciiCharset.chars :=
  List.mem_map_of_mem (List.mem_range'_1.mpr ⟨atLeast, by omega⟩)

theorem mem_asciiCharset_iff {char : Char} :
    char ∈ asciiCharset.chars ↔ 32 ≤ char.toNat ∧ char.toNat ≤ 126 := by
  constructor
  · intro mem
    obtain ⟨code, inRange, rfl⟩ := List.mem_map.mp mem
    obtain ⟨atLeast, atMost⟩ := List.mem_range'_1.mp inRange
    have isChar : code.isValidChar := .inl (by omega)
    rw [Char.ofNat, dif_pos isChar]
    exact ⟨atLeast, Nat.le_of_lt_succ atMost⟩
  · rintro ⟨atLeast, atMost⟩
    rw [← char.ofNat_toNat]
    exact mem_asciiCharset atLeast atMost

/-- The codes of the synthesized text are those that are not padding. -/
theorem textOf_codes {codes : List Int}
    (printable : ∀ code ∈ codes, code = 0 ∨ 32 ≤ code ∧ code ≤ 126) :
    (∀ char ∈ textOf (.codes codes), char ∈ asciiCharset.chars) ∧
      codesOf (textOf (.codes codes)) = codes.filter fun code => 0 < code := by
  have inRange : ∀ code ∈ codes.filter fun code => 0 < code, 32 ≤ code ∧ code ≤ 126 := by
    intro code mem
    rw [List.mem_filter, decide_eq_true_eq] at mem
    rcases printable code mem.1 with zero | inRange
    · omega
    · exact inRange
  constructor
  · rw [textOf, List.forall_mem_map]
    intro code mem
    have := inRange code mem
    exact mem_asciiCharset (by omega) (by omega)
  · rw [textOf, codesOf, List.map_map]
    refine (List.map_congr_left fun code mem => ?_).trans (List.map_id _)
    have := inRange code mem
    have isChar : code.toNat.isValidChar := .inl (by omega)
    change ((Char.ofNat code.toNat).toNat : Int) = code
    rw [Char.ofNat, dif_pos isChar]
    exact Int.toNat_of_nonneg (by omega)

/-- An equation restricts the codes to printable characters and padding. -/
theorem printable_of_solves {constraints : StrConstraints charset}
    {equation : (List Int → Int) × Int} (mem : equation ∈ constraints.eq.getD [])
    (solves : constraints.Solves chars) :
    ∀ code ∈ List.ofFn chars, code = 0 ∨ 32 ≤ code ∧ code ≤ 126 := by
  rw [List.forall_mem_ofFn_iff]
  intro index
  have range : .charRange index ∈ eqConstraint equation := by simp [eqConstraint]
  exact solves _ (mem_assertions.mpr (.inr (.inl ⟨equation, mem, range⟩))) rfl

end Codes

section Synthesis

variable {constraints : StrConstraints charset} {solver : StrSolver} {result : SpliceStr}

/-- What is synthesized is read from a model of the constraints. -/
theorem exists_model (found : spliceSynthesisOf solver constraints = .ok (some result)) :
    ∃ model read, solver.check ((synthesizer charset).assertions constraints) = some model ∧
      value model = .ok read ∧ result = toPython read := by
  unfold spliceSynthesisOf at found
  split at found
  · cases found
  · next model checked =>
    obtain ⟨read, isRead, same⟩ := exceptBind_ok found
    unfold Synthesizer.spliceSynthesisOf at checked
    split at checked
    · contradiction
    · exact ⟨model, read, checked, isRead, by cases same; rfl⟩

/-- Any solution may be what the solver finds. -/
theorem spliceSynthesisOf_preferring (solved : Solved constraints text chars)
    (nonempty : (synthesizer charset).assertions constraints ≠ []) {read : Z3Value}
    (isRead : value (.restrict ((synthesizer charset).assertions constraints) ⟨text, chars⟩) =
      .ok read) :
    spliceSynthesisOf (.ofTotal (.preferring _ ⟨text, chars⟩)) constraints =
      .ok (some (toPython read)) := by
  have checked := Option.map_eq_some_iff.mpr ⟨_, IncrementalSolver.check_preferring solved,
    Eq.refl (StrModel.restrict ((synthesizer charset).assertions constraints) ⟨text, chars⟩)⟩
  unfold spliceSynthesisOf
  rw [Synthesizer.spliceSynthesisOf_eq_check _ _ nonempty]
  change (match (StrSolver.ofTotal _).check _ with | none => _ | some model => _) = _
  rw [show (StrSolver.ofTotal _).check _ = _ from checked]
  change (value _ >>= _) = _
  rw [isRead]
  rfl

/-- Beside order constraints, any text that is accepted may be synthesized. -/
theorem exists_synthesizes_text (ordered : constraints.Ordered) (accepts : constraints.Accepts text)
    (solves : constraints.Solves chars) :
    ∃ solver, spliceSynthesisOf solver constraints = .ok (some (toPython (.string text))) := by
  have isRead : value (.restrict ((synthesizer charset).assertions constraints) ⟨text, chars⟩) =
      .ok (.string text) := by
    have present : (StrModel.restrict ((synthesizer charset).assertions constraints)
        ⟨text, chars⟩).var = some text := if_pos ordered
    rw [value, present]
  obtain ⟨assertion, mem, _⟩ := ordered
  exact ⟨_, spliceSynthesisOf_preferring (solved_iff.mpr ⟨accepts, solves⟩)
    (List.ne_nil_of_mem mem) isRead⟩

/-- Without them, any codes that solve the equations may be. -/
theorem exists_synthesizes_codes {equation : (List Int → Int) × Int}
    (mem : equation ∈ constraints.eq.getD []) (plain : ¬ constraints.Ordered)
    (solves : constraints.Solves chars) :
    ∃ solver, spliceSynthesisOf solver constraints =
      .ok (some (toPython (.codes (List.ofFn chars)))) := by
  have accepts : constraints.Accepts [] := accepts_of_not_ordered plain []
  have inMap : .eq equation.1 equation.2 ∈ (synthesizer charset).assertions constraints :=
    mem_assertions.mpr (.inr (.inl ⟨equation, mem, by simp [eqConstraint]⟩))
  have isRead : value (.restrict ((synthesizer charset).assertions constraints) ⟨[], chars⟩) =
      .ok (.codes (List.ofFn chars)) := by
    have absent : StrModel.restrict ((synthesizer charset).assertions constraints) ⟨[], chars⟩ =
        ⟨none, fun index => some (chars index)⟩ :=
      congr (congrArg StrModel.mk (if_neg plain)) (funext fun _ => if_pos ⟨_, inMap, rfl⟩)
    rw [absent, value_of_chars]
  exact ⟨_, spliceSynthesisOf_preferring (solved_iff.mpr ⟨accepts, solves⟩)
    (List.ne_nil_of_mem inMap) isRead⟩

/-- A line feed is not printable, so it is not accepted beside order constraints. -/
theorem not_accepts_lineFeed {constraints : StrConstraints asciiCharset}
    (ordered : constraints.Ordered) : ¬ constraints.Accepts ['\n'] := by
  intro accepts
  have printable := mem_chars_of_accepts ordered accepts '\n' List.mem_cons_self
  revert printable
  decide

/-- Without order constraints, the text of the codes meets what remains. -/
theorem meets_textOf_codes {constraints : StrConstraints asciiCharset}
    {equation : (List Int → Int) × Int} (mem : equation ∈ constraints.eq.getD [])
    (plain : ¬ constraints.Ordered) (solves : constraints.Solves chars)
    (padding : ∀ equation ∈ constraints.eq.getD [],
      equation.1 ((List.ofFn chars).filter fun code => 0 < code) = equation.2) :
    constraints.Meets (textOf (.codes (List.ofFn chars))) := by
  obtain ⟨confined, codes⟩ := textOf_codes (printable_of_solves mem solves)
  have solved : Solved constraints (textOf (.codes (List.ofFn chars))) chars :=
    solved_iff.mpr ⟨accepts_of_not_ordered plain _, solves⟩
  rw [← codes] at padding
  exact meets_of_solved confined solved padding
    fun _ other inMap _ => plain (ordered_of_mem_ne inMap)

theorem meets_of_separate {constraints : StrConstraints asciiCharset}
    (separate : constraints.Separate)
    (found : spliceSynthesisOf solver constraints = .ok (some result)) :
    constraints.Meets result.value := by
  obtain ⟨model, read, checked, isRead, rfl⟩ := exists_model found
  have sound {var : List Char} {chars : Fin maxCharLength → Int}
      (admits : model.Admits ⟨var, chars⟩) :
      constraints.Accepts var ∧ constraints.Solves chars :=
    solved_iff.mp fun assertion mem => solver.sound checked assertion mem _ admits
  obtain ⟨⟨var, chars⟩, admits⟩ := model.exists_admits
  obtain ⟨accepts, solves⟩ := sound admits
  cases present : model.var with
  | some text =>
      have ordered : constraints.Ordered := (solver.occurs checked).var (by simp [present])
      obtain rfl : var = text := admits.var text present
      obtain rfl : .string var = read := by
        rw [value, present] at isRead
        exact Except.ok.inj isRead
      exact meets_of_solved (mem_chars_of_accepts ordered accepts)
        (solved_iff.mpr ⟨accepts, solves⟩) (separate.equations ordered chars solves var accepts)
        fun empty => separate.empty ordered chars solves (empty ▸ accepts)
  | none =>
      obtain ⟨codes, isCodes, rfl⟩ := chars_of_value present isRead
      obtain rfl : chars = codes :=
        funext fun index => admits.chars index _ (congrFun isCodes index)
      have plain : ¬ constraints.Ordered := by
        intro ordered
        have free : model.Admits ⟨['\n'], chars⟩ :=
          ⟨fun text mem => by rw [present] at mem; contradiction, admits.chars⟩
        exact not_accepts_lineFeed ordered (sound free).1
      obtain ⟨assertion, mem, about⟩ := (solver.occurs checked).chars 0 (by simp [isCodes])
      obtain ⟨equation, inMap, _⟩ := exists_equation_of_mem mem about
      exact meets_textOf_codes inMap plain solves (separate.padding plain chars solves)

/-- Every string that may be synthesized meets the map if and only if its order constraints
and its equations do not get in each other's way. -/
theorem synthesized_meets_iff (constraints : StrConstraints asciiCharset) :
    (∀ solver result, spliceSynthesisOf solver constraints = .ok (some result) →
      constraints.Meets result.value) ↔ constraints.Separate := by
  constructor
  · intro meets
    refine ⟨fun ordered chars solves text accepts => ?_, fun ordered chars solves accepts => ?_,
      fun plain chars solves equation mem => ?_⟩
    · obtain ⟨solver, found⟩ := exists_synthesizes_text ordered accepts solves
      exact (meets solver _ found).eq
    · obtain ⟨solver, found⟩ := exists_synthesizes_text ordered accepts solves
      exact fun other mem same => (meets solver _ found).ne other mem same.symm
    · obtain ⟨solver, found⟩ := exists_synthesizes_codes mem plain solves
      have met := (meets solver _ found).eq equation mem
      rwa [toPython, (textOf_codes (printable_of_solves mem solves)).2] at met
  · exact fun separate solver result found => meets_of_separate separate found

/-- Texts that are not empty, of which the equation asks for an `a` in front. -/
def nonemptyWithA : StrConstraints asciiCharset :=
  ⟨none, none, some ⟨[⟨[], by simp⟩], by decide⟩, none,
    some [(fun codes => codes.headD 0, 97)], none⟩

/-- A `b` may be synthesized, although the text `a` meets the map. -/
theorem equation_ignored :
    (∃ solver, spliceSynthesisOf solver nonemptyWithA =
      .ok (some ⟨['b'], false, true, emptyTaint⟩)) ∧
      nonemptyWithA.Meets ['a'] ∧ ¬ nonemptyWithA.Meets ['b'] := by
  have bounds : (synthesizer asciiCharset).boundAssertions nonemptyWithA =
      [.text (.inRe (RegularExpression.oneOf asciiCharset.chars * asciiCharset.anyChars))] := rfl
  refine ⟨?_, ?_, ?_⟩
  · have ordered : nonemptyWithA.Ordered :=
      ⟨_, mem_assertions.mpr (.inl (bounds ▸ List.mem_cons_self)), rfl⟩
    have accepts : nonemptyWithA.Accepts ['b'] := by
      intro assertion mem
      rcases mem_assertions.mp mem with bound | ⟨equation, _, inEquation⟩ | ⟨other, inMap, _⟩
      · rw [bounds, List.mem_singleton] at bound
        cases bound
        refine RegularExpression.mem_comp.mpr ⟨['b'], ?_, [], ?_, rfl⟩
        · exact RegularExpression.mem_oneOf.mpr ⟨'b', by decide, rfl⟩
        · exact RegularExpression.mem_star_oneOf.mpr (by simp)
      · have about := not_isText_eqConstraint inEquation
        contradiction
      · contradiction
    have inRange : (32 : Int) ≤ 97 ∧ (97 : Int) ≤ 126 := by decide
    have solves : nonemptyWithA.Solves fun _ => 97 := by
      refine solves_of_forall (fun _ => .inr inRange) (fun _ zero => ?_) ?_
      · contradiction
      · exact List.forall_mem_singleton.mpr rfl
    exact exists_synthesizes_text ordered accepts solves
  · constructor <;> simp [nonemptyWithA, valuesOf, codesOf]
  · intro meets
    have wrong := meets.eq _ List.mem_cons_self
    contradiction

end Synthesis

end StrSynthesizer

end SaltyRtcServer
