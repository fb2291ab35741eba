import Mathlib.Data.List.Basic

/-!
# Incremental solvers

A solver finds a model of the assertions that were added to it, if there is one.
As assertions only accumulate, a solver without a model never has one again.
-/

/-- A solver that is sound and complete for what its assertions mean. -/
structure IncrementalSolver {Assertion Model : Type*} (holds : Assertion → Model → Prop) where
  check : List Assertion → Option Model
  sound : ∀ {assertions model}, check assertions = some model →
    ∀ assertion ∈ assertions, holds assertion model
  complete : ∀ {assertions}, check assertions = none →
    ¬ ∃ model, ∀ assertion ∈ assertions, holds assertion model

namespace IncrementalSolver

variable {Assertion Model : Type*} {holds : Assertion → Model → Prop}

/-- Some model meets all assertions. -/
def Satisfiable (holds : Assertion → Model → Prop) (assertions : List Assertion) : Prop :=
  ∃ model, ∀ assertion ∈ assertions, holds assertion model

/-- There are such solvers. -/
noncomputable def ofChoice (holds : Assertion → Model → Prop) : IncrementalSolver holds where
  check assertions :=
    open Classical in
    if satisfiable : Satisfiable holds assertions then some satisfiable.choose else none
  sound {assertions model} found := by
    split at found
    · next satisfiable =>
      rw [← Option.some.inj found]
      exact satisfiable.choose_spec
    · contradiction
  complete {assertions} failed := by
    split at failed
    · contradiction
    · assumption

/-- A solver that returns a given model when it can. -/
noncomputable def preferring (holds : Assertion → Model → Prop) (preferred : Model) :
    IncrementalSolver holds where
  check assertions :=
    open Classical in
    if ∀ assertion ∈ assertions, holds assertion preferred then some preferred
    else (ofChoice holds).check assertions
  sound {assertions model} found := by
    split at found
    · next meets =>
      rwa [← Option.some.inj found]
    · exact (ofChoice holds).sound found
  complete {assertions} failed := by
    split at failed
    · contradiction
    · exact (ofChoice holds).complete failed

theorem check_preferring {preferred : Model} {assertions : List Assertion}
    (meets : ∀ assertion ∈ assertions, holds assertion preferred) :
    (preferring holds preferred).check assertions = some preferred :=
  if_pos meets

variable (solver : IncrementalSolver holds)

end IncrementalSolver
