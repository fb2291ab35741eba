import Mathlib.Order.MinMax
import SaltyRtcServer.IncrementalSolver
import SaltyRtcServer.Taints

/-!
# Synthesis from constraints

`Synthesizer.splice_synthesis` takes a list of constraint maps, of which one has
to be met in full.  For each map it consolidates the bounds, adds the
constraints to the solver and asks it for a value.  The solver is the one of the
synthesizer, and its assertions are not removed between two maps.
-/

namespace SaltyRtcServer

/-- The values of an order key of a constraint map, of which `min` and `max` take one. -/
abbrev Values (Value : Type*) := { values : List Value // values ≠ [] }

/-- A map of conjunctive constraints. -/
structure ConstraintMap (Value Equation : Type*) where
  lt : Option (Values Value)
  le : Option (Values Value)
  gt : Option (Values Value)
  ge : Option (Values Value)
  eq : Option (List Equation)
  ne : Option (List Value)

/-- The methods of a synthesizer that add constraints to its solver: what each of
them adds. -/
structure Synthesizer (Value Equation Assertion : Type*) where
  ltConstraint : Value → List Assertion
  gtConstraint : Value → List Assertion
  leConstraint : Value → List Assertion
  geConstraint : Value → List Assertion
  eqConstraint : Equation → List Assertion
  neConstraint : Value → List Assertion
  boundedConstraints : Value → Value → Bool → Bool → List Assertion

namespace ConstraintMap

variable {Value Equation Assertion : Type*}

/-- A map without keys, for which no synthesis occurs. -/
def IsEmpty (constraints : ConstraintMap Value Equation) : Prop :=
  constraints.lt = none ∧ constraints.le = none ∧ constraints.gt = none ∧
    constraints.ge = none ∧ constraints.eq = none ∧ constraints.ne = none

instance (constraints : ConstraintMap Value Equation) : Decidable constraints.IsEmpty :=
  decidable_of_iff (constraints.lt.isNone ∧ constraints.le.isNone ∧ constraints.gt.isNone ∧
    constraints.ge.isNone ∧ constraints.eq.isNone ∧ constraints.ne.isNone) <| by
    simp [IsEmpty]

/-- The values of an order key, none if it is absent. -/
def valuesOf {Item : Type*} : Option (Values Item) → List Item
  | none => []
  | some values => values.1

section Consolidation

variable [LinearOrder Value] (constraints : ConstraintMap Value Equation)

/-- `min(constraints[key])`. -/
def minimum (key : Option (Values Value)) : Option Value :=
  key.map fun values => values.1.min values.2

/-- `max(constraints[key])`. -/
def maximum (key : Option (Values Value)) : Option Value :=
  key.map fun values => values.1.max values.2

/-- The upper bound of `_splice_synthesis`, and whether it is included. -/
def upperBound : Option (Value × Bool) :=
  match minimum constraints.lt, minimum constraints.le with
  | some lt, some le => if lt ≤ le then some (lt, false) else some (le, true)
  | some lt, none => some (lt, false)
  | none, some le => some (le, true)
  | none, none => none

/-- The lower bound of `_splice_synthesis`, and whether it is included. -/
def lowerBound : Option (Value × Bool) :=
  match maximum constraints.gt, maximum constraints.ge with
  | some gt, some ge => if gt ≥ ge then some (gt, false) else some (ge, true)
  | some gt, none => some (gt, false)
  | none, some ge => some (ge, true)
  | none, none => none

instance : Std.LawfulOrderMin Value :=
  .of_le_min_iff (fun _ _ _ => le_min_iff) fun one other => min_choice one other

instance : Std.LawfulOrderMax Value :=
  .of_max_le_iff (fun _ _ _ => max_le_iff) fun one other => max_choice one other

variable {key : Option (Values Value)} {holds : Value → Prop}

/-- What also holds of greater values holds of all values of a key when it holds of the
least. -/
theorem forall_minimum_iff (upward : ∀ {one other}, one ≤ other → holds one → holds other) :
    (∀ least ∈ minimum key, holds least) ↔ ∀ value ∈ valuesOf key, holds value := by
  cases key with
  | none => simp [minimum, valuesOf]
  | some values =>
      simp only [minimum, valuesOf, Option.map_some, Option.mem_some_iff, forall_eq']
      constructor
      · exact fun least value mem => upward (List.min_le_of_mem mem) least
      · exact fun all => all _ (List.min_mem values.2)

theorem forall_maximum_iff (downward : ∀ {one other}, one ≤ other → holds other → holds one) :
    (∀ greatest ∈ maximum key, holds greatest) ↔ ∀ value ∈ valuesOf key, holds value := by
  cases key with
  | none => simp [maximum, valuesOf]
  | some values =>
      simp only [maximum, valuesOf, Option.map_some, Option.mem_some_iff, forall_eq']
      constructor
      · exact fun greatest value mem => downward (List.le_max_of_mem mem) greatest
      · exact fun all => all _ (List.max_mem values.2)

/-- The value is below a bound that is included or not. -/
def Below (value : Value) (bound : Value × Bool) : Prop :=
  if bound.2 then value ≤ bound.1 else value < bound.1

/-- The value is above a bound that is included or not. -/
def Above (value : Value) (bound : Value × Bool) : Prop :=
  if bound.2 then bound.1 ≤ value else bound.1 < value

/-- The upper bound stands for all values of `lt` and `le`. -/
theorem below_upperBound_iff (value : Value) :
    (∀ upper ∈ constraints.upperBound, Below value upper) ↔
      (∀ bound ∈ valuesOf constraints.lt, value < bound) ∧
        ∀ bound ∈ valuesOf constraints.le, value ≤ bound := by
  rw [← forall_minimum_iff (fun below least => lt_of_lt_of_le least below),
    ← forall_minimum_iff (fun below least => le_trans least below), upperBound]
  cases minimum constraints.lt with
  | none => cases minimum constraints.le <;> simp [Below]
  | some lt =>
      cases minimum constraints.le with
      | none => simp [Below]
      | some le =>
          simp only [Option.mem_some_iff, forall_eq']
          split
          · next first =>
            simp only [Option.mem_some_iff, forall_eq', Below]
            exact ⟨fun below => ⟨below, le_trans (le_of_lt below) first⟩, And.left⟩
          · next last =>
            simp only [Option.mem_some_iff, forall_eq', Below]
            exact ⟨fun below => ⟨lt_of_le_of_lt below (not_le.mp last), below⟩, And.right⟩

/-- The lower bound stands for all values of `gt` and `ge`. -/
theorem above_lowerBound_iff (value : Value) :
    (∀ lower ∈ constraints.lowerBound, Above value lower) ↔
      (∀ bound ∈ valuesOf constraints.gt, bound < value) ∧
        ∀ bound ∈ valuesOf constraints.ge, bound ≤ value := by
  rw [← forall_maximum_iff (fun above greatest => lt_of_le_of_lt above greatest),
    ← forall_maximum_iff (fun above greatest => le_trans above greatest), lowerBound]
  cases maximum constraints.gt with
  | none => cases maximum constraints.ge <;> simp [Above]
  | some gt =>
      cases maximum constraints.ge with
      | none => simp [Above]
      | some ge =>
          simp only [Option.mem_some_iff, forall_eq']
          split
          · next first =>
            simp only [Option.mem_some_iff, forall_eq', Above]
            exact ⟨fun above => ⟨above, le_trans first (le_of_lt above)⟩, And.left⟩
          · next last =>
            simp only [Option.mem_some_iff, forall_eq', Above]
            exact ⟨fun above => ⟨lt_of_lt_of_le (not_le.mp last) above, above⟩, And.right⟩

end Consolidation

end ConstraintMap

namespace Synthesizer

variable {Value Equation Assertion : Type*} [LinearOrder Value]
variable (synthesizer : Synthesizer Value Equation Assertion)

/-- What `_splice_synthesis` adds for the bounds of a map. -/
def boundAssertions (constraints : ConstraintMap Value Equation) : List Assertion :=
  match constraints.upperBound, constraints.lowerBound with
  | some (upper, includeUpper), some (lower, includeLower) =>
      synthesizer.boundedConstraints upper lower includeUpper includeLower
  | _, _ =>
      (ConstraintMap.minimum constraints.lt).toList.flatMap synthesizer.ltConstraint ++
        (ConstraintMap.minimum constraints.le).toList.flatMap synthesizer.leConstraint ++
        (ConstraintMap.maximum constraints.gt).toList.flatMap synthesizer.gtConstraint ++
        (ConstraintMap.maximum constraints.ge).toList.flatMap synthesizer.geConstraint

/-- What `_splice_synthesis` adds to the solver for a map. -/
def assertions (constraints : ConstraintMap Value Equation) : List Assertion :=
  synthesizer.boundAssertions constraints ++
    (constraints.eq.getD []).flatMap synthesizer.eqConstraint ++
    (constraints.ne.getD []).flatMap synthesizer.neConstraint

/-- `Synthesizer.bounded_constraints`, which subclasses may override. -/
def baseBounded (lt gt le ge : Value → List Assertion) (upper lower : Value)
    (includeUpper includeLower : Bool) : List Assertion :=
  match includeUpper, includeLower with
  | true, true => le upper ++ ge lower
  | true, false => le upper ++ gt lower
  | false, true => lt upper ++ ge lower
  | false, false => lt upper ++ gt lower

variable {Model : Type*} {holds : Assertion → Model → Prop}
variable (solver : IncrementalSolver holds)

/-- `_splice_synthesis`, with the assertions that the solver holds before and after. -/
def spliceSynthesisOf (asserted : List Assertion) (constraints : ConstraintMap Value Equation) :
    List Assertion × Option Model :=
  if constraints.IsEmpty then (asserted, none)
  else
    let asserted := asserted ++ synthesizer.assertions constraints
    (asserted, solver.check asserted)

/-- Nothing is added for a map without keys. -/
theorem assertions_eq_nil {constraints : ConstraintMap Value Equation}
    (empty : constraints.IsEmpty) : synthesizer.assertions constraints = [] := by
  obtain ⟨lt, le, gt, ge, eq, ne⟩ := empty
  simp [assertions, boundAssertions, ConstraintMap.upperBound, ConstraintMap.minimum,
    ConstraintMap.maximum, lt, le, gt, ge, eq, ne]

theorem spliceSynthesisOf_eq_check {constraints : ConstraintMap Value Equation}
    (nonempty : synthesizer.assertions constraints ≠ []) :
    (synthesizer.spliceSynthesisOf solver [] constraints).2 =
      solver.check (synthesizer.assertions constraints) := by
  rw [spliceSynthesisOf, if_neg fun empty => nonempty (synthesizer.assertions_eq_nil empty)]
  rfl

/-- `splice_synthesis`. -/
def spliceSynthesis (asserted : List Assertion) :
    List (ConstraintMap Value Equation) → List Assertion × Option Model
  | [] => (asserted, none)
  | constraints :: rest =>
      match synthesizer.spliceSynthesisOf solver asserted constraints with
      | (asserted, some model) => (asserted, some model)
      | (asserted, none) => spliceSynthesis asserted rest

end Synthesizer

end SaltyRtcServer
