import SaltyRtcServer.PathRegistry

/-!
# The registry never forgets

`Paths.clean` deletes under a key that the dictionary never has, so that a path
stays in the registry for ever: a key has at most one path object in the life of
the server.
-/

namespace SaltyRtcServer

open StepMachine

namespace PathRegistry

/-- What the dictionary of paths has become, whatever was called: it holds every path
that was created, under the string form of its key, and nothing else. -/
structure Kept (registry : PathRegistry) : Prop where
  entry : ∀ key number, registry.paths.get? key = some number →
    registry.Created number ∧ key = storeKey (registry.system number).path.initiatorKey
  stored : ∀ number, registry.Created number →
    registry.paths.get? (storeKey (registry.system number).path.initiatorKey) = some number
  gets : ∀ key number, (key, number) ∈ registry.gets →
    registry.Created number ∧ (registry.system number).path.initiatorKey = key

theorem Kept.bytes {registry : PathRegistry} (kept : registry.Kept) (key : List UInt8) :
    registry.paths.get? (.bytes key) = none := by
  cases found : registry.paths.get? (.bytes key) with
  | none => rfl
  | some number =>
      have isStr := (kept.entry _ _ found).2
      contradiction

/-- Cleaning a path does not reach the dictionary. -/
theorem Kept.clean_eq {registry : PathRegistry} (kept : registry.Kept) (number : Nat) :
    registry.clean number = { registry with
      system := Function.update registry.system number (registry.system number).clean } := by
  have paths : (registry.clean number).paths = registry.paths := by
    simp only [clean]
    split
    · exact PythonDict.erase_of_get?_none (kept.bytes _)
    · rfl
  have gets : (registry.clean number).gets = registry.gets := by
    simp only [clean]
    split <;> rfl
  rw [← clean_system, ← paths, ← clean_number registry number, ← gets]

/-- A call on one path, with the dictionary as it was. -/
theorem Kept.act {before after : PathRegistry} (kept : before.Kept) {number : Nat}
    {action : PathSystem.Action} (stepped : before.step (.act number action) = some after) :
    before.Created number ∧ ∃ system, (before.system number).step action = some system ∧
      after = { before with system := Function.update before.system number system } := by
  by_cases cleans : action = .clean
  · subst cleans
    simp only [step, Option.ite_none_right_eq_some, Option.some_inj] at stepped
    obtain ⟨created, rfl⟩ := stepped
    exact ⟨created, _, rfl, kept.clean_eq number⟩
  · exact step_act stepped cleans

theorem Kept.step {before after : PathRegistry} (kept : before.Kept) {action : Action}
    (stepped : before.step action = some after) : after.Kept := by
  cases action with
  | get key =>
      injection stepped with same
      subst same
      obtain ⟨entry, stored, gets⟩ := kept
      unfold Created at *
      cases found : before.paths.get? (storeKey key) with
      | some number =>
          have := entry _ _ found
          constructor <;> simp only [Created] <;> grind
      | none =>
          constructor <;> simp only [Function.update_apply, PathSystem.created, Path.new, Created] <;>
            grind
  | act number action =>
      obtain ⟨created, system, called, rfl⟩ := kept.act stepped
      have key := (PathSystem.step_keeps_path called).1
      obtain ⟨entry, stored, gets⟩ := kept
      unfold Created at *
      constructor <;> simp only [Function.update_apply, Created] <;> grind

theorem kept_of_reachable {registry : PathRegistry} (reachable : machine.Reachable registry) :
    registry.Kept := by
  refine reachable.invariant _ ?_ fun _ _ _ _ _ kept stepped => kept.step stepped
  rintro registry ⟨paths, number, gets⟩
  constructor <;> simp only [Created, paths, number, gets] <;> grind [PythonDict.get?_empty]

theorem Kept.number_inj {registry : PathRegistry} (kept : registry.Kept) {number other : Nat}
    (created : registry.Created number) (otherCreated : registry.Created other)
    (same : (registry.system number).path.initiatorKey =
      (registry.system other).path.initiatorKey) : number = other := by
  have found := kept.stored number created
  rw [same, kept.stored other otherCreated, Option.some_inj] at found
  exact found.symm

theorem Kept.step_act {registry : PathRegistry} (kept : registry.Kept) {number : Nat}
    (created : registry.Created number) {call : PathSystem.Action} {system : PathSystem}
    (called : (registry.system number).step call = some system) :
    registry.step (.act number call) =
      some { registry with system := Function.update registry.system number system } := by
  by_cases cleans : call = .clean
  · subst cleans
    cases called
    rw [PathRegistry.step, if_pos created, kept.clean_eq]
  · cases call <;>
      first
      | contradiction
      | simp only [PathRegistry.step, if_pos created, called, Option.map_some]

/-- Calls on one path, one after the other. -/
theorem Kept.follows {registry : PathRegistry} (kept : registry.Kept) {number : Nat}
    (created : registry.Created number) {system : PathSystem}
    (steps : Relation.ReflTransGen (fun first second => ∃ call, PathSystem.step first call =
      some second) (registry.system number) system) :
    machine.Continues (fun _ _ => True) registry
      { registry with system := Function.update registry.system number system } := by
  have both : machine.Continues (fun _ _ => True) registry
      { registry with system := Function.update registry.system number system } ∧
      Kept { registry with system := Function.update registry.system number system } := by
    induction steps with
    | refl =>
        rw [Function.update_eq_self]
        exact ⟨.refl, kept⟩
    | @tail middle last _ step ih =>
        obtain ⟨call, called⟩ := step
        obtain ⟨continues, middleKept⟩ := ih
        have calledThere : (Function.update registry.system number middle number).step call =
            some last := by rwa [Function.update_self]
        have acts := middleKept.step_act created calledThere
        rw [Function.update_idem] at acts
        exact ⟨continues.tail ⟨.act number call, trivial, acts⟩, middleKept.step acts⟩
  exact both.1

end PathRegistry

end SaltyRtcServer
