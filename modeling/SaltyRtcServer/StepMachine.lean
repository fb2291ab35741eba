import Mathlib.Logic.Relation
import Mathlib.Logic.Function.Basic

/-!
# Machines with named, partial steps

A concurrent program is described here by what each of its atomic actions does
to the whole state, where an action that is not enabled has no result.  Runs
are lists of actions, so a schedule can be written down and evaluated.

Many guarantees hold only along the runs whose every step meets a condition on
the state before it.  `Reach` therefore carries that condition as a parameter;
`Reachable` is the case without one.
-/

namespace StepMachine

/-- The first states of a machine and the effect of each enabled action. -/
structure Machine (State Action : Type*) where
  initial : State → Prop
  step : State → Action → Option State

variable {State Action : Type*}

namespace Machine

/-- Execute a schedule from a state. -/
def run (machine : Machine State Action) : State → List Action → Option State
  | state, [] => some state
  | state, action :: rest =>
      (machine.step state action).bind fun next => machine.run next rest

@[simp]
theorem run_nil (machine : Machine State Action) (state : State) :
    machine.run state [] = some state :=
  rfl

@[simp]
theorem run_cons (machine : Machine State Action) (state : State)
    (action : Action) (rest : List Action) :
    machine.run state (action :: rest) =
      (machine.step state action).bind fun next => machine.run next rest :=
  rfl

theorem run_of_step {machine : Machine State Action} {before after : State} {action : Action}
    (stepped : machine.step before action = some after) (rest : List Action) :
    machine.run before (action :: rest) = machine.run after rest := by
  rw [run_cons, stepped, Option.bind_some]

/-- The states met by runs whose every step is `allowed` in the state it
starts from. -/
inductive Reach (machine : Machine State Action)
    (allowed : State → Action → Prop) : State → Prop
  | start {state : State} : machine.initial state → Reach machine allowed state
  | next {before after : State} (action : Action) :
      Reach machine allowed before → allowed before action →
      machine.step before action = some after → Reach machine allowed after

/-- The states met by any run. -/
def Reachable (machine : Machine State Action) : State → Prop :=
  machine.Reach fun _ _ => True

/-- `Continues allowed first last` holds when allowed steps lead from `first`
to `last`. -/
def Continues (machine : Machine State Action)
    (allowed : State → Action → Prop) : State → State → Prop :=
  Relation.ReflTransGen fun before after =>
    ∃ action, allowed before action ∧ machine.step before action = some after

variable {machine : Machine State Action}
variable {allowed stricter : State → Action → Prop}

theorem Reach.mono (weaker : ∀ state action, stricter state action → allowed state action)
    {state : State} (reach : machine.Reach stricter state) :
    machine.Reach allowed state := by
  induction reach with
  | start first => exact .start first
  | next action _ permitted stepped ih => exact .next action ih (weaker _ _ permitted) stepped

theorem Reach.reachable {state : State} (reach : machine.Reach allowed state) :
    machine.Reachable state :=
  reach.mono fun _ _ _ => trivial

/-- What holds at the start and survives every allowed step holds along every
allowed run.  The step case may use that its first state was reached. -/
theorem Reach.invariant (holds : State → Prop)
    (atStart : ∀ state, machine.initial state → holds state)
    (preserved : ∀ before after action, machine.Reach allowed before →
      allowed before action → holds before →
      machine.step before action = some after → holds after)
    {state : State} (reach : machine.Reach allowed state) : holds state := by
  induction reach with
  | start first => exact atStart _ first
  | next action reached permitted stepped ih =>
      exact preserved _ _ action reached permitted ih stepped

/-- A run from a reached state whose steps are all allowed reaches its last
state. -/
theorem Reach.continues {first last : State} (reach : machine.Reach allowed first)
    (steps : machine.Continues allowed first last) : machine.Reach allowed last := by
  induction steps with
  | refl => exact reach
  | tail _ step ih =>
      obtain ⟨action, permitted, stepped⟩ := step
      exact .next action ih permitted stepped

theorem reachable_run {first last : State} (reach : machine.Reachable first)
    (schedule : List Action) (runs : machine.run first schedule = some last) :
    machine.Reachable last := by
  induction schedule generalizing first with
  | nil =>
      cases runs
      exact reach
  | cons action rest ih =>
      rw [run_cons, Option.bind_eq_some_iff] at runs
      obtain ⟨middle, stepped, remaining⟩ := runs
      exact ih (.next action reach trivial stepped) remaining

/-- A schedule that can be executed from a first state reaches its last
state. -/
theorem reachable_of_run {first last : State} (start : machine.initial first)
    (schedule : List Action) (runs : machine.run first schedule = some last) :
    machine.Reachable last :=
  reachable_run (.start start) schedule runs

/-- The steps of a schedule are all allowed. -/
def Permitted (machine : Machine State Action) (allowed : State → Action → Prop) :
    State → List Action → Prop
  | _, [] => True
  | state, action :: rest =>
      allowed state action ∧
        ∀ next, machine.step state action = some next →
          machine.Permitted allowed next rest

instance decidablePermitted [decide : ∀ state action, Decidable (allowed state action)] :
    (schedule : List Action) → (state : State) →
      Decidable (machine.Permitted allowed state schedule)
  | [], _ => .isTrue trivial
  | action :: rest, state =>
      match stepped : machine.step state action with
      | none => decidable_of_iff (allowed state action) (by simp [Permitted, stepped])
      | some next =>
          have := decidablePermitted rest next
          decidable_of_iff (allowed state action ∧ machine.Permitted allowed next rest)
            (by simp [Permitted, stepped])

/-- Where everything is allowed, every schedule is permitted. -/
theorem permitted_of_all (all : ∀ state action, allowed state action)
    (schedule : List Action) (state : State) : machine.Permitted allowed state schedule := by
  induction schedule generalizing state with
  | nil => trivial
  | cons action rest ih => exact ⟨all state action, fun next _ => ih next⟩

/-- Executing an allowed schedule from a first state reaches its last state
through allowed steps only. -/
theorem reach_run {first last : State} (reach : machine.Reach allowed first)
    (schedule : List Action) (permitted : machine.Permitted allowed first schedule)
    (runs : machine.run first schedule = some last) :
    machine.Reach allowed last := by
  induction schedule generalizing first with
  | nil =>
      cases runs
      exact reach
  | cons action rest ih =>
      rw [run_cons, Option.bind_eq_some_iff] at runs
      obtain ⟨middle, stepped, remaining⟩ := runs
      exact ih (.next action reach permitted.1 stepped) (permitted.2 middle stepped) remaining

theorem continues_of_run {first last : State} (schedule : List Action)
    (permitted : machine.Permitted allowed first schedule)
    (runs : machine.run first schedule = some last) : machine.Continues allowed first last := by
  induction schedule generalizing first with
  | nil =>
      cases runs
      exact .refl
  | cons action rest ih =>
      rw [run_cons, Option.bind_eq_some_iff] at runs
      obtain ⟨middle, stepped, remaining⟩ := runs
      exact .head ⟨action, permitted.1, stepped⟩ (ih (permitted.2 middle stepped) remaining)

/-- A machine whose every step is matched by a schedule of an abstract machine
reaches only states whose images the abstract machine reaches. -/
theorem Reach.project {Abstract AbstractAction : Type*}
    {abstract : Machine Abstract AbstractAction} (image : State → Abstract)
    (atStart : ∀ state, machine.initial state → abstract.initial (image state))
    (matched : ∀ before after action, machine.Reach allowed before →
      allowed before action → machine.step before action = some after →
      ∃ schedule, abstract.run (image before) schedule = some (image after))
    {state : State} (reach : machine.Reach allowed state) :
    abstract.Reachable (image state) := by
  induction reach with
  | start first => exact .start (atStart _ first)
  | next action reached permitted stepped ih =>
      obtain ⟨schedule, runs⟩ := matched _ _ action reached permitted stepped
      exact reachable_run ih schedule runs

theorem Continues.next {first before after : State} {action : Action}
    (steps : machine.Continues allowed first before) (permitted : allowed before action)
    (stepped : machine.step before action = some after) :
    machine.Continues allowed first after :=
  steps.tail ⟨action, permitted, stepped⟩

section Family

variable {Index : Type*} [DecidableEq Index]

/-- Machines of one kind side by side, each with a state of its own. -/
def family (machine : Machine State Action) (Index : Type*) [DecidableEq Index] :
    Machine (Index → State) (Index × Action) where
  initial states := ∀ index, machine.initial (states index)
  step states action :=
    (machine.step (states action.1) action.2).map (Function.update states action.1)

theorem family_step {before after : Index → State} {index : Index} {action : Action}
    (stepped : (machine.family Index).step before (index, action) = some after) :
    machine.step (before index) action = some (after index) ∧
      ∀ other, other ≠ index → after other = before other := by
  obtain ⟨next, stepped, rfl⟩ := Option.map_eq_some_iff.mp stepped
  refine ⟨by rwa [Function.update_self], fun other different => ?_⟩
  exact Function.update_of_ne different ..

theorem family_reachable {states : Index → State}
    (reachable : (machine.family Index).Reachable states) (index : Index) :
    machine.Reachable (states index) := by
  induction reachable with
  | start first => exact .start (first index)
  | next action _ _ stepped ih =>
      obtain ⟨own, others⟩ := family_step stepped
      by_cases same : index = action.1
      · subst same
        exact .next action.2 ih trivial own
      · rw [others index same]
        exact ih

end Family

end Machine

end StepMachine
