import SaltyRtcServer.Synthesis

/-!
# Synthesis of integers

`IntSynthesizer` uses the methods of `Synthesizer` as they are, on an integer
variable of the solver.
-/

namespace SaltyRtcServer

/-- An assertion about the integer variable of an `IntSynthesizer`. -/
inductive IntAssertion
  | lt (value : Int)
  | gt (value : Int)
  | le (value : Int)
  | ge (value : Int)
  | eq (func : Int → Int) (value : Int)
  | ne (value : Int)

/-- The assertion holds of a value of the variable. -/
def IntAssertion.Holds : IntAssertion → Int → Prop
  | .lt value, var => var < value
  | .gt value, var => var > value
  | .le value, var => var ≤ value
  | .ge value, var => var ≥ value
  | .eq func value, var => func var = value
  | .ne value, var => var ≠ value

/-- Maps of constraints on integers; `eq` holds pairs of a function and its value. -/
abbrev IntConstraints := ConstraintMap Int ((Int → Int) × Int)

/-- An integer that was synthesized, with its tags. -/
structure SpliceInt where
  value : Int
  trusted : Bool
  synthesized : Bool
  taints : Nat
  deriving DecidableEq

namespace IntSynthesizer

def synthesizer : Synthesizer Int ((Int → Int) × Int) IntAssertion where
  ltConstraint value := [.lt value]
  gtConstraint value := [.gt value]
  leConstraint value := [.le value]
  geConstraint value := [.ge value]
  eqConstraint equation := [.eq equation.1 equation.2]
  neConstraint value := [.ne value]
  boundedConstraints :=
    Synthesizer.baseBounded (fun value => [.lt value]) (fun value => [.gt value])
      (fun value => [.le value]) fun value => [.ge value]

/-- `IntSynthesizer.to_python`. -/
def toPython (value : Int) : SpliceInt := ⟨value, false, true, emptyTaint⟩

/-- `splice_synthesis` of a fresh `IntSynthesizer`. -/
def spliceSynthesis (solver : IncrementalSolver IntAssertion.Holds)
    (constraintsList : List IntConstraints) : Option SpliceInt :=
  (synthesizer.spliceSynthesis solver [] constraintsList).2.map toPython

end IntSynthesizer

namespace ConstraintMap

/-- A value meets all constraints of the map. -/
structure Satisfied (constraints : IntConstraints) (value : Int) : Prop where
  lt : ∀ bound ∈ valuesOf constraints.lt, value < bound
  le : ∀ bound ∈ valuesOf constraints.le, value ≤ bound
  gt : ∀ bound ∈ valuesOf constraints.gt, value > bound
  ge : ∀ bound ∈ valuesOf constraints.ge, value ≥ bound
  eq : ∀ equation ∈ constraints.eq.getD [], equation.1 value = equation.2
  ne : ∀ other ∈ constraints.ne.getD [], value ≠ other

def Satisfiable (constraints : IntConstraints) : Prop := ∃ value, constraints.Satisfied value

end ConstraintMap

namespace IntSynthesizer

open ConstraintMap

variable (constraints : IntConstraints) (value : Int)

theorem holds_lt_iff (key : Option Int) :
    (∀ assertion ∈ key.toList.flatMap synthesizer.ltConstraint, assertion.Holds value) ↔
      ∀ bound ∈ key, value < bound := by
  cases key <;> simp [synthesizer, IntAssertion.Holds]

theorem holds_le_iff (key : Option Int) :
    (∀ assertion ∈ key.toList.flatMap synthesizer.leConstraint, assertion.Holds value) ↔
      ∀ bound ∈ key, value ≤ bound := by
  cases key <;> simp [synthesizer, IntAssertion.Holds]

theorem holds_gt_iff (key : Option Int) :
    (∀ assertion ∈ key.toList.flatMap synthesizer.gtConstraint, assertion.Holds value) ↔
      ∀ bound ∈ key, bound < value := by
  cases key <;> simp [synthesizer, IntAssertion.Holds]

theorem holds_ge_iff (key : Option Int) :
    (∀ assertion ∈ key.toList.flatMap synthesizer.geConstraint, assertion.Holds value) ↔
      ∀ bound ∈ key, bound ≤ value := by
  cases key <;> simp [synthesizer, IntAssertion.Holds]

/-- Consolidating the bounds keeps their meaning. -/
theorem holds_boundAssertions_iff :
    (∀ assertion ∈ synthesizer.boundAssertions constraints, assertion.Holds value) ↔
      ((∀ bound ∈ valuesOf constraints.lt, value < bound) ∧
        ∀ bound ∈ valuesOf constraints.le, value ≤ bound) ∧
      (∀ bound ∈ valuesOf constraints.gt, bound < value) ∧
        ∀ bound ∈ valuesOf constraints.ge, bound ≤ value := by
  unfold Synthesizer.boundAssertions
  split
  · next upper includeUpper lower includeLower isUpper isLower =>
    rw [← below_upperBound_iff, ← above_lowerBound_iff, isUpper, isLower]
    simp only [Option.mem_some_iff, forall_eq', Below, Above]
    cases includeUpper <;> cases includeLower <;>
      simp [synthesizer, Synthesizer.baseBounded, IntAssertion.Holds]
  · simp only [List.mem_append, or_imp, forall_and, holds_lt_iff, holds_le_iff, holds_gt_iff,
      holds_ge_iff, and_assoc]
    rw [forall_minimum_iff (fun below least => lt_of_lt_of_le least below),
      forall_minimum_iff (fun below least => le_trans least below),
      forall_maximum_iff (fun above greatest => lt_of_le_of_lt above greatest),
      forall_maximum_iff (fun above greatest => le_trans above greatest)]

/-- What is added to the solver for a map means that the map is met. -/
theorem holds_assertions_iff :
    (∀ assertion ∈ synthesizer.assertions constraints, assertion.Holds value) ↔
      constraints.Satisfied value := by
  have equations : (∀ assertion ∈ (constraints.eq.getD []).flatMap synthesizer.eqConstraint,
      assertion.Holds value) ↔
        ∀ equation ∈ constraints.eq.getD [], equation.1 value = equation.2 := by
    rw [List.forall_mem_flatMap]
    simp [synthesizer, IntAssertion.Holds]
  have others : (∀ assertion ∈ (constraints.ne.getD []).flatMap synthesizer.neConstraint,
      assertion.Holds value) ↔ ∀ other ∈ constraints.ne.getD [], value ≠ other := by
    rw [List.forall_mem_flatMap]
    simp [synthesizer, IntAssertion.Holds]
  simp only [Synthesizer.assertions, List.mem_append, or_imp, forall_and,
    holds_boundAssertions_iff, equations, others]
  constructor
  · rintro ⟨⟨⟨⟨lt, le⟩, gt, ge⟩, eq⟩, ne⟩
    exact ⟨lt, le, gt, ge, eq, ne⟩
  · rintro ⟨lt, le, gt, ge, eq, ne⟩
    exact ⟨⟨⟨⟨lt, le⟩, gt, ge⟩, eq⟩, ne⟩

/-- The assertions that `_splice_synthesis` leaves in the solver of a fresh synthesizer hold of
an integer if and only if it meets every single constraint of the map. -/
theorem holds_spliceSynthesisOf_iff (solver : IncrementalSolver IntAssertion.Holds) :
    (∀ assertion ∈ (synthesizer.spliceSynthesisOf solver [] constraints).1,
      assertion.Holds value) ↔ constraints.Satisfied value := by
  by_cases empty : constraints.IsEmpty
  · rw [← holds_assertions_iff, Synthesizer.spliceSynthesisOf, if_pos empty,
      synthesizer.assertions_eq_nil empty]
  · rw [← holds_assertions_iff, Synthesizer.spliceSynthesisOf, if_neg empty]
    rfl

/-- The result is a value for a map that is not empty, and is missing only if no such
map can be met. -/
structure Meets (maps : List IntConstraints) (result : Option SpliceInt) : Prop where
  found : ∀ synthesized ∈ result, ∃ constraints ∈ maps,
    ¬ constraints.IsEmpty ∧ constraints.Satisfied synthesized.value
  missed : result = none →
    ∀ constraints ∈ maps, ¬ constraints.IsEmpty → ¬ constraints.Satisfiable

variable (solver : IncrementalSolver IntAssertion.Holds)

end IntSynthesizer

end SaltyRtcServer
