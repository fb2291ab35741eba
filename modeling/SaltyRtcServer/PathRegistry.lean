import SaltyRtcServer.BytesRepr
import SaltyRtcServer.PathSystem

/-!
# The registry of paths

`Paths.get` files a path under the string form of its initiator key, whereas
`Paths.clean` deletes it under the key itself.  The registry below keeps both
kinds of dictionary keys apart, together with every path object that was ever
created and the clients of that path.
-/

namespace SaltyRtcServer

open StepMachine

/-- A key of the dictionary `Paths.paths`. -/
inductive MapKey
  | str (text : String)
  | bytes (key : List UInt8)
  deriving DecidableEq

/-- `server.Paths` with the path objects it created, by their numbers.  `gets`
is an observation: the calls of `get` and the path each one returned. -/
structure PathRegistry where
  paths : PythonDict MapKey Nat
  number : Nat
  system : Nat → PathSystem
  gets : List (List UInt8 × Nat)

namespace PathRegistry

/-- The dictionary key that `get` computes from an initiator key. -/
def storeKey (initiatorKey : List UInt8) : MapKey := .str (bytesStr initiatorKey)

/-- `Paths.get`, with the number of the path it returns. -/
def get (registry : PathRegistry) (initiatorKey : List UInt8) : PathRegistry × Nat :=
  match registry.paths.get? (storeKey initiatorKey) with
  | some number => (registry, number)
  | none =>
      let number := registry.number + 1
      ({ registry with
          paths := registry.paths.set (storeKey initiatorKey) number
          number := number
          system := Function.update registry.system number
            (PathSystem.created initiatorKey number) }, number)

/-- `Paths.clean`; that the path was not found is only logged. -/
def clean (registry : PathRegistry) (number : Nat) : PathRegistry :=
  let system := registry.system number
  if system.path.empty then
    { registry with
      paths := registry.paths.erase (.bytes system.path.initiatorKey)
      system := Function.update registry.system number system.clean }
  else registry

/-- A call of `get`, or a call on the path with a given number. -/
inductive Action
  | get (initiatorKey : List UInt8)
  | act (number : Nat) (action : PathSystem.Action)

/-- Whether a path with this number has been created. -/
def Created (registry : PathRegistry) (number : Nat) : Prop :=
  1 ≤ number ∧ number ≤ registry.number

instance (registry : PathRegistry) (number : Nat) : Decidable (registry.Created number) :=
  inferInstanceAs (Decidable (_ ∧ _))

def step (registry : PathRegistry) : Action → Option PathRegistry
  | .get initiatorKey =>
      let (after, number) := registry.get initiatorKey
      some { after with gets := (initiatorKey, number) :: after.gets }
  | .act number .clean =>
      if registry.Created number then some (registry.clean number) else none
  | .act number action =>
      if registry.Created number then
        ((registry.system number).step action).map fun system =>
          { registry with system := Function.update registry.system number system }
      else none

/-- A registry before the first connection. -/
def Initial (registry : PathRegistry) : Prop :=
  registry.paths = .empty ∧ registry.number = 0 ∧ registry.gets = []

def machine : Machine PathRegistry Action := ⟨Initial, step⟩

/-- The step does not clean a path that has become empty. -/
def KeepsPaths (registry : PathRegistry) : Action → Prop
  | .act number .clean => (registry.system number).path.empty = false
  | _ => True

/-- What the registry promises: the attached paths are the stored ones, and
`get` hands out one attached path for each key. -/
structure Sound (registry : PathRegistry) : Prop where
  stored_iff : ∀ number, registry.Created number →
    ((∃ key, registry.paths.get? key = some number) ↔
      (registry.system number).path.attached = true)
  attached : ∀ key, ((registry.get key).1.system (registry.get key).2).path.attached = true ∧
    ((registry.get key).1.system (registry.get key).2).path.initiatorKey = key
  same : ∀ key number, (key, number) ∈ registry.gets →
    (registry.system number).path.attached = true → (registry.get key).2 = number
  distinct : ∀ key number other, (key, number) ∈ registry.gets →
    (other, number) ∈ registry.gets → key = other
  connects : ∀ key ref,
    (((registry.get key).1.system (registry.get key).2).path.addPending ref).exception? = none

/-- The dictionary files every path under the string form of its key. -/
structure Filed (registry : PathRegistry) : Prop where
  entry : ∀ key number, registry.paths.get? key = some number →
    registry.Created number ∧ key = storeKey (registry.system number).path.initiatorKey
  stored : ∀ number, registry.Created number →
    registry.paths.get? (storeKey (registry.system number).path.initiatorKey) = some number
  attached : ∀ number, registry.Created number →
    (registry.system number).path.attached = true
  gets : ∀ key number, (key, number) ∈ registry.gets →
    registry.Created number ∧ (registry.system number).path.initiatorKey = key

theorem storeKey_injective : Function.Injective storeKey := by
  intro first second same
  injection same with texts
  exact bytesStr_injective texts

@[grind =]
theorem storeKey_inj (first second : List UInt8) :
    storeKey first = storeKey second ↔ first = second :=
  storeKey_injective.eq_iff

theorem Filed.get {before : PathRegistry} (filed : before.Filed) (key : List UInt8) :
    Filed { (before.get key).1 with
      gets := (key, (before.get key).2) :: (before.get key).1.gets } := by
  obtain ⟨entry, stored, attached, gets⟩ := filed
  unfold PathRegistry.get
  unfold Created at *
  cases found : before.paths.get? (storeKey key) with
  | some number =>
      have := entry _ _ found
      constructor <;> simp only [Created] <;> grind
  | none =>
      constructor <;> simp only [Function.update_apply, PathSystem.created, Path.new, Created]
      · grind
      · grind
      · grind
      · grind

/-- A call on one path changes neither its key nor, unless it cleans the path,
whether it is attached. -/
theorem step_act {before after : PathRegistry} {number : Nat} {action : PathSystem.Action}
    (stepped : before.step (.act number action) = some after) (keeps : action ≠ .clean) :
    before.Created number ∧ ∃ system, (before.system number).step action = some system ∧
      after = { before with system := Function.update before.system number system } := by
  cases action with
  | clean => contradiction
  | _ =>
      simp only [step, Option.ite_none_right_eq_some, Option.map_eq_some_iff] at stepped
      obtain ⟨created, system, called, rfl⟩ := stepped
      exact ⟨created, system, called, rfl⟩

theorem Filed.act {before after : PathRegistry} (filed : before.Filed) {number : Nat}
    {action : PathSystem.Action} (keeps : before.KeepsPaths (.act number action))
    (stepped : before.step (.act number action) = some after) : after.Filed := by
  by_cases cleans : action = .clean
  · subst cleans
    -- A path that is not empty is left as it is.
    simp only [step, clean, KeepsPaths] at stepped keeps
    simp_all
  · obtain ⟨created, system, called, rfl⟩ := step_act stepped cleans
    obtain ⟨key, flag⟩ := PathSystem.step_keeps_path called
    have unchanged := flag cleans
    obtain ⟨entry, stored, attached, gets⟩ := filed
    unfold Created at *
    constructor <;> simp only [Function.update_apply, Created] <;> grind

theorem filed_of_reach {registry : PathRegistry} (reach : machine.Reach KeepsPaths registry) :
    registry.Filed := by
  apply reach.invariant _
  · rintro registry ⟨paths, number, gets⟩
    constructor <;> simp only [Created, paths, number, gets] <;> grind [PythonDict.get?_empty]
  · intro before after action _ keeps filed stepped
    cases action with
    | get key =>
        injection stepped with same
        subst same
        exact filed.get key
    | act number action => exact filed.act keeps stepped

theorem Filed.sound {registry : PathRegistry} (filed : registry.Filed) : registry.Sound := by
  have returned (key : List UInt8) :
      ((registry.get key).1.system (registry.get key).2).path.attached = true ∧
        ((registry.get key).1.system (registry.get key).2).path.initiatorKey = key := by
    have after := filed.get key
    have filedKey := after.gets key _ List.mem_cons_self
    exact ⟨after.attached _ filedKey.1, filedKey.2⟩
  constructor
  · intro number created
    exact iff_of_true ⟨_, filed.stored number created⟩ (filed.attached number created)
  · exact returned
  · intro key number mem attached
    obtain ⟨created, rfl⟩ := filed.gets key number mem
    simp only [PathRegistry.get, filed.stored number created]
  · intro key number other mem otherMem
    exact (filed.gets key number mem).2.symm.trans (filed.gets other number otherMem).2
  · intro key ref
    simp [Path.addPending, (returned key).1]

theorem clean_number (registry : PathRegistry) (number : Nat) :
    (registry.clean number).number = registry.number := by
  simp only [clean]
  split <;> rfl

theorem clean_system (registry : PathRegistry) (number : Nat) :
    (registry.clean number).system =
      Function.update registry.system number (registry.system number).clean := by
  simp only [clean]
  split
  · rfl
  · next occupied =>
      have unchanged : PathSystem.cleanPath (registry.system number).path =
        (registry.system number).path := if_neg occupied
      rw [PathSystem.clean, unchanged, Function.update_eq_self]

/-- For each path that exists, a step of the registry is a step of that path or
leaves it alone. -/
theorem step_system {before after : PathRegistry} {action : Action}
    (stepped : before.step action = some after) {number : Nat}
    (created : before.Created number) :
    after.Created number ∧ (after.system number = before.system number ∨
      ∃ called, (before.system number).step called = some (after.system number)) := by
  cases action with
  | get key =>
      cases found : before.paths.get? (storeKey key) with
      | some other =>
          simp only [step, get, found, Option.some_inj] at stepped
          subst stepped
          exact ⟨created, .inl rfl⟩
      | none =>
          simp only [step, get, found, Option.some_inj] at stepped
          subst stepped
          have bound := created.2
          have differs : number ≠ before.number + 1 := by omega
          exact ⟨⟨created.1, Nat.le_succ_of_le bound⟩, .inl (by simp [differs])⟩
  | act other action =>
      by_cases cleans : action = .clean
      · subst cleans
        simp only [step, Option.ite_none_right_eq_some, Option.some_inj] at stepped
        obtain ⟨_, rfl⟩ := stepped
        unfold Created at *
        rw [clean_number, clean_system]
        refine ⟨created, ?_⟩
        by_cases same : number = other
        · subst same
          exact .inr ⟨.clean, by simp [PathSystem.step]⟩
        · exact .inl (by simp [same])
      · obtain ⟨_, system, called, rfl⟩ := step_act stepped cleans
        refine ⟨created, ?_⟩
        by_cases same : number = other
        · subst same
          exact .inr ⟨action, by simpa using called⟩
        · exact .inl (by simp [same])

theorem step_created {before after : PathRegistry} {action : Action}
    (stepped : before.step action = some after) {number : Nat}
    (created : after.Created number) :
    before.Created number ∨ ∃ key, after.system number = PathSystem.created key number := by
  cases action with
  | get key =>
      cases found : before.paths.get? (storeKey key) with
      | some other =>
          simp only [step, get, found, Option.some_inj] at stepped
          subst stepped
          exact .inl created
      | none =>
          simp only [step, get, found, Option.some_inj] at stepped
          subst stepped
          by_cases fresh : number = before.number + 1
          · exact .inr ⟨key, by simp [fresh]⟩
          · have bound : number ≤ before.number + 1 := created.2
            exact .inl ⟨created.1, by omega⟩
  | act other action =>
      by_cases cleans : action = .clean
      · subst cleans
        simp only [step, Option.ite_none_right_eq_some, Option.some_inj] at stepped
        obtain ⟨_, rfl⟩ := stepped
        unfold Created at *
        rw [clean_number] at created
        exact .inl created
      · obtain ⟨_, system, called, rfl⟩ := step_act stepped cleans
        exact .inl created

theorem system_consistent {registry : PathRegistry} (reachable : machine.Reachable registry) :
    ∀ number, registry.Created number → (registry.system number).Consistent := by
  refine reachable.invariant (fun registry => ∀ number, registry.Created number →
    (registry.system number).Consistent) ?_ ?_
  · rintro registry ⟨_, none, _⟩ number ⟨positive, bound⟩
    omega
  · intro before after action _ _ consistent stepped number created
    obtain existed | ⟨key, fresh⟩ := step_created stepped created
    · obtain ⟨_, same | ⟨called, acted⟩⟩ := step_system stepped existed
      · exact same ▸ consistent number existed
      · exact (consistent number existed).step acted
    · rw [fresh]
      exact PathSystem.consistent_of_reachable (.start (PathSystem.initial_created key number))

/-- A detached path stays detached, whatever is called. -/
theorem detached_of_continues {first last : PathRegistry}
    (steps : machine.Continues (fun _ _ => True) first last) {number : Nat}
    (created : first.Created number)
    (detached : (first.system number).path.attached = false) :
    last.Created number ∧ (last.system number).path.attached = false := by
  induction steps with
  | refl => exact ⟨created, detached⟩
  | tail _ step ih =>
      obtain ⟨action, _, stepped⟩ := step
      obtain ⟨still, same | ⟨called, acted⟩⟩ := step_system stepped ih.1
      · exact ⟨still, same ▸ ih.2⟩
      · exact ⟨still, PathSystem.step_detached acted ih.2⟩

/-- Cleaning an empty path leaves it in the registry: `clean` deletes under a
key that `get` never stores under. -/
theorem Filed.keepsPaths {before after : PathRegistry} (filed : before.Filed) {action : Action}
    (stepped : before.step action = some after) (sound : after.Sound) :
    before.KeepsPaths action := by
  cases action with
  | get key => trivial
  | act number called =>
      cases called with
      | clean =>
          by_contra cleaned
          have empty : (before.system number).path.empty = true := by
            simpa [KeepsPaths] using cleaned
          simp only [step, Option.ite_none_right_eq_some, Option.some_inj] at stepped
          obtain ⟨created, rfl⟩ := stepped
          have still : (before.clean number).Created number := by
            unfold Created at *
            rwa [clean_number]
          have detached : ((before.clean number).system number).path.attached = false := by
            simp [clean_system, PathSystem.clean, PathSystem.cleanPath_eq, empty]
          have stored : (before.clean number).paths.get?
              (storeKey (before.system number).path.initiatorKey) = some number := by
            simpa [clean, empty, storeKey] using filed.stored number created
          have attached := (sound.stored_iff number still).mp ⟨_, stored⟩
          simp [detached] at attached
      | _ => trivial

/-- As long as no empty path is cleaned the registry is sound, and the first
such call makes it unsound.  A path that was detached is empty for ever. -/
theorem sound_of_keepsPaths {registry : PathRegistry} (reach : machine.Reach KeepsPaths registry) :
    registry.Sound ∧
      (∀ action after, machine.step registry action = some after →
        (registry.KeepsPaths action ↔ after.Sound)) ∧
      ∀ first last number, machine.Continues (fun _ _ => True) registry first →
        machine.Continues (fun _ _ => True) first last → first.Created number →
        (first.system number).path.attached = false →
        (last.system number).path.attached = false ∧
          (last.system number).path.empty = true := by
  have filed := filed_of_reach reach
  refine ⟨filed.sound, fun action after stepped => ⟨fun keeps => ?_, ?_⟩, ?_⟩
  · exact (filed_of_reach (.next action reach keeps stepped)).sound
  · exact filed.keepsPaths stepped
  · intro first last number before after created detached
    have reachable := (reach.reachable.continues before).continues after
    obtain ⟨still, stays⟩ := detached_of_continues after created detached
    have consistent := system_consistent reachable number still
    exact ⟨stays, (Path.empty_iff _).mpr (consistent.detached stays)⟩

/-- A registry without paths. -/
def empty : PathRegistry := ⟨.empty, 0, fun number => PathSystem.created [] number, []⟩

theorem initial_empty : machine.initial empty := ⟨rfl, rfl, rfl⟩

/-- Two keys, and a second client for the first of them. -/
theorem sound_two_keys :
    ∃ registry : PathRegistry, machine.Reach KeepsPaths registry ∧
      registry.gets = [([0x61], 1), ([0x62], 2), ([0x61], 1)] ∧ registry.Sound ∧
      (∀ action after, machine.step registry action = some after →
        (registry.KeepsPaths action ↔ after.Sound)) ∧
      ∀ first last number, machine.Continues (fun _ _ => True) registry first →
        machine.Continues (fun _ _ => True) first last → first.Created number →
        (first.system number).path.attached = false →
        (last.system number).path.attached = false ∧
          (last.system number).path.empty = true := by
  have reach : machine.Reach KeepsPaths _ :=
    Machine.reach_run (.start initial_empty)
      [.get [0x61], .act 1 (.connect 0), .get [0x62], .act 2 (.connect 1), .get [0x61]]
      ⟨trivial, fun _ _ => ⟨trivial, fun _ _ => ⟨trivial, fun _ _ => ⟨trivial, fun _ _ =>
        ⟨trivial, fun _ _ => trivial⟩⟩⟩⟩⟩ rfl
  exact ⟨_, reach, by decide, sound_of_keepsPaths reach⟩

/-- The second life of a key: the first client has left, its path is detached
but still stored, and the next client cannot be added to it. -/
theorem cleaned_path_returned :
    ¬ ∀ registry : PathRegistry, machine.Reachable registry → registry.Sound := by
  intro claimed
  have reachable : machine.Reachable _ := Machine.reachable_of_run initial_empty
    [.get [0x61], .act 1 (.connect 0), .act 1 (.leave 0), .act 1 .clean] rfl
  have connected := (claimed _ reachable).connects [0x61] 1
  have raised : some Path.detached = none := connected
  contradiction

end PathRegistry

end SaltyRtcServer
