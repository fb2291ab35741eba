import SaltyRtcServer.ClientRemoval

/-!
# Who owns a responder slot

`add_responder` computes the slot from the number of responders instead of
searching a free one, and `remove_client` deletes the entry of the client's slot
whoever owns it.  The slots stay the property of their clients along a run
exactly as long as no step of it takes a slot away from a stored responder.
-/

namespace SaltyRtcServer

open StepMachine

namespace PathSystem

/-- The step does not take a slot away from a stored responder: an addition
counts to an unused slot, and a removal finds its own client there or nobody. -/
def KeepsSlots (system : PathSystem) : Action → Prop
  | .addResponder ref =>
      ref ∈ system.path.pending → ∀ id : ResponderAddress,
        id.1 = system.path.responders.length + 0x02 → system.path.responders.get? id = none
  | .drop ref | .leave ref => system.path.FindsOwnSlot ref (system.client ref)
  | _ => True

/-- Exactly the responders that joined are stored, each in its own slot. -/
structure OwnsSlots (system : PathSystem) : Prop where
  stored : ∀ ref ∈ system.joined, ∀ id : ResponderAddress,
    (system.client ref).id = id.toAddress → system.path.responders.get? id = some ref
  joined : ∀ id ref, system.path.responders.get? id = some ref → ref ∈ system.joined

/-- What a path promises about its responders. -/
structure SlotsUnique (system : PathSystem) : Prop where
  distinct : ∀ first ∈ system.joined, ∀ second ∈ system.joined,
    (system.client first).id = (system.client second).id → first = second
  found : ∀ ref ∈ system.joined, ∃ id : ResponderAddress,
    (system.client ref).id = id.toAddress ∧ system.path.getResponder id = .ok ref ∧
      system.path.hasClient ref (system.client ref) = .ok true
  full : ∀ ref, (∃ state message, system.path.addResponder ref (system.client ref) =
      .raised state (.slotsFullError message)) ↔
    ∀ id, (system.path.responders.get? id).isSome

/-- Adding a responder does not overwrite a stored one. -/
def AddsToFreeSlot (system : PathSystem) : Action → Prop
  | .addResponder ref => ∀ state id,
      system.path.addResponder ref (system.client ref) = .returned state id →
        system.path.responders.get? id = none
  | _ => True

/-- Removals that keep the slots leave exactly the remaining responders stored. -/
theorem OwnsSlots.dropClient {system : PathSystem} (owns : system.OwnsSlots)
    (consistent : system.Consistent) {ref : ClientRef}
    (keeps : system.KeepsSlots (.drop ref)) : (system.dropClient ref).OwnsSlots := by
  have responders := Path.removeClient_responders system.path ref (system.client ref).markDropped
  have restricted := (system.client ref).markDropped_restricted_iff
  have id := (system.client ref).markDropped_id
  obtain ⟨stored, joined⟩ := owns
  have responder := consistent.responder
  have detached := consistent.detached
  unfold Path.Member at detached
  simp only [KeepsSlots, Path.FindsOwnSlot] at keeps
  unfold Path.RemovesSlot at responders keeps
  simp only [PathSystem.dropClient, remove]
  constructor <;> simp only [Function.update_self, Function.update_apply]
  · grind
  · intro id other found
    rw [responders] at found
    grind

theorem OwnsSlots.connect {before after : PathSystem} (owns : before.OwnsSlots)
    (consistent : before.Consistent) {ref : ClientRef}
    (stepped : before.step (.connect ref) = some after) : after.OwnsSlots := by
  obtain ⟨stored, joined⟩ := owns
  have established := consistent.joined
  simp only [step, Path.addPending] at stepped
  split at stepped
  · split at stepped
    · contradiction
    · injection stepped with same
      subst same
      constructor <;> simp only [Function.update_apply] <;> grind
  · contradiction

theorem OwnsSlots.setType {before after : PathSystem} (owns : before.OwnsSlots)
    {ref : ClientRef} {type : AddressType}
    (stepped : before.step (.setType ref type) = some after) : after.OwnsSlots := by
  obtain ⟨stored, joined⟩ := owns
  simp only [step, PathSystem.setType] at stepped
  split at stepped
  · injection stepped with same
    subst same
    constructor <;> simp only [Function.update_apply] <;> grind
  · contradiction

theorem OwnsSlots.setInitiator {before after : PathSystem} (owns : before.OwnsSlots)
    (consistent : before.Consistent) {ref : ClientRef}
    (stepped : before.step (.setInitiator ref) = some after) : after.OwnsSlots := by
  simp only [step] at stepped
  split at stepped
  · injection stepped with same
    subst same
    cases called : before.path.setInitiator ref (before.client ref) with
    | raised state exception =>
        have unchanged := Path.setInitiator_raised called fun mem =>
          (consistent.pending ref mem).2.1
        subst unchanged
        simpa [afterSetInitiator] using owns
    | returned state previous =>
        have placed := consistent.placeInitiator called
        obtain ⟨_, mem, _, rfl, path, client⟩ := Path.setInitiator_returned called
        have owned : OwnsSlots { before with
            path := state.1
            client := Function.update before.client ref state.2
            stage := Function.update before.stage ref .established } := by
          obtain ⟨stored, joined⟩ := owns
          have established := consistent.joined
          have pending := consistent.pending
          rw [path, client]
          constructor <;> simp only [Function.update_apply] <;> grind
        cases current : before.path.initiator with
        | none => simpa only [afterSetInitiator, current] using owned
        | some previous =>
            rw [current] at called
            simp only [afterSetInitiator]
            apply owned.dropClient placed
            -- A previous initiator has no slot to give up.
            have atInitiator := (consistent.initiator previous current).2.2
            intro id owner removes
            have := id.ne_initiatorAddress
            have := removes.2
            simp only [Function.update_apply, client] at this
            grind
  · contradiction

theorem OwnsSlots.addResponder {before after : PathSystem} (owns : before.OwnsSlots)
    (consistent : before.Consistent) {ref : ClientRef}
    (keeps : before.KeepsSlots (.addResponder ref))
    (stepped : before.step (.addResponder ref) = some after) : after.OwnsSlots := by
  simp only [step] at stepped
  split at stepped
  · next handshaking =>
    injection stepped with same
    subst same
    cases called : before.path.addResponder ref (before.client ref) with
    | raised state exception =>
        have unchanged := Path.addResponder_raised called fun mem =>
          (consistent.pending ref mem).2.1
        subst unchanged
        simpa [afterAddResponder] using owns
    | returned state id =>
        obtain ⟨_, mem, _, value, path, client⟩ := Path.addResponder_returned called
        have free := keeps mem id value
        obtain ⟨stored, joined⟩ := owns
        have established := consistent.joined
        simp only [afterAddResponder, path, client]
        constructor <;> simp only [Function.update_apply] <;> grind
  · contradiction

theorem OwnsSlots.drop {before after : PathSystem} (owns : before.OwnsSlots)
    (consistent : before.Consistent) {ref : ClientRef} (keeps : before.KeepsSlots (.drop ref))
    (stepped : before.step (.drop ref) = some after) : after.OwnsSlots := by
  simp only [step] at stepped
  split at stepped
  · contradiction
  · injection stepped with same
    subst same
    exact owns.dropClient consistent keeps

theorem OwnsSlots.leave {before after : PathSystem} (owns : before.OwnsSlots)
    (consistent : before.Consistent) {ref : ClientRef}
    (keeps : before.KeepsSlots (.leave ref))
    (stepped : before.step (.leave ref) = some after) : after.OwnsSlots := by
  have responders := Path.removeClient_responders before.path ref (before.client ref)
  obtain ⟨stored, joined⟩ := owns
  have responder := consistent.responder
  have detached := consistent.detached
  unfold Path.Member at detached
  simp only [KeepsSlots, Path.FindsOwnSlot] at keeps
  unfold Path.RemovesSlot at responders keeps
  simp only [step, PathSystem.leave, remove] at stepped
  split at stepped
  · injection stepped with same
    subst same
    constructor
    · grind
    · intro id other found
      rw [responders] at found
      grind
  · contradiction

theorem OwnsSlots.clean {before after : PathSystem} (owns : before.OwnsSlots)
    (stepped : before.step .clean = some after) : after.OwnsSlots := by
  obtain ⟨stored, joined⟩ := owns
  simp only [step, PathSystem.clean, cleanPath_eq] at stepped
  injection stepped with same
  subst same
  exact ⟨stored, joined⟩

theorem ownsSlots_of_reach {system : PathSystem} (reach : machine.Reach KeepsSlots system) :
    system.OwnsSlots := by
  apply reach.invariant _
  · rintro system ⟨⟨key, number, path⟩, absent, joined⟩
    constructor <;> simp [path, Path.new, joined]
  · intro before after action reached keeps owns stepped
    have consistent := consistent_of_reachable reached.reachable
    cases action with
    | connect ref => exact owns.connect consistent stepped
    | setType ref type => exact owns.setType stepped
    | setInitiator ref => exact owns.setInitiator consistent stepped
    | addResponder ref => exact owns.addResponder consistent keeps stepped
    | drop ref => exact owns.drop consistent keeps stepped
    | leave ref => exact owns.leave consistent keeps stepped
    | clean => exact owns.clean stepped

/-- Owned slots are unique, and their owners are found by them. -/
theorem OwnsSlots.slotsUnique {system : PathSystem} (owns : system.OwnsSlots)
    (consistent : system.Consistent) : system.SlotsUnique := by
  constructor
  · intro first firstMem second secondMem same
    obtain ⟨_, _, id, firstId⟩ := consistent.joined first firstMem
    have atFirst := owns.stored first firstMem id firstId
    have atSecond := owns.stored second secondMem id (same ▸ firstId)
    simpa [atFirst] using atSecond
  · intro ref mem
    obtain ⟨_, _, id, hasId⟩ := consistent.joined ref mem
    have found := owns.stored ref mem id hasId
    have attached := consistent.attached (.inr (.inr ⟨id, found⟩))
    refine ⟨id, hasId, ?_, ?_⟩
    · simp [Path.getResponder, attached, found]
    · have converted := ResponderAddress.ofNat_val id
      have notInitiator := id.ne_initiatorAddress
      simp_all [Path.hasClient]
  · intro ref
    rw [Path.addResponder_slotsFull_iff, and_iff_right_iff_imp]
    intro full
    obtain ⟨owner, found⟩ := Option.isSome_iff_exists.mp (full ⟨0x02, by decide⟩)
    exact consistent.attached (.inr (.inr ⟨_, found⟩))

theorem SlotsUnique.stored {system : PathSystem} (unique : system.SlotsUnique)
    (ref : ClientRef) (id : ResponderAddress) (mem : ref ∈ system.joined)
    (hasId : (system.client ref).id = id.toAddress) :
    system.path.responders.get? id = some ref := by
  obtain ⟨own, ownId, found, _⟩ := unique.found ref mem
  have same : own = id := (ResponderAddress.toAddress_inj own id).mp (ownId.symm.trans hasId)
  rw [same] at found
  unfold Path.getResponder at found
  grind

/-- A step that takes a slot away from a stored responder either overwrites its
entry or leaves it without one. -/
theorem OwnsSlots.keepsSlots {before after : PathSystem} (owns : before.OwnsSlots)
    (consistent : before.Consistent) {action : Action}
    (stepped : before.step action = some after) (free : before.AddsToFreeSlot action)
    (unique : after.SlotsUnique) : before.KeepsSlots action := by
  cases action with
  | connect ref => trivial
  | setType ref type => trivial
  | setInitiator ref => trivial
  | clean => trivial
  | addResponder ref =>
      intro mem id value
      exact free _ id (Path.addResponder_eq (consistent.attached (.inl mem)) mem
        (consistent.pending ref mem).2.1 value)
  | drop ref =>
      intro id owner removes found
      by_contra other
      have responders :=
        Path.removeClient_responders before.path ref (before.client ref).markDropped id
      have restricted := (before.client ref).markDropped_restricted_iff
      have hasId := (consistent.responder id owner found).2.2
      have mem := owns.joined id owner found
      have attached := consistent.attached (.inr (.inr ⟨id, found⟩))
      simp only [step] at stepped
      split at stepped
      · contradiction
      · injection stepped with same
        subst same
        have kept := unique.stored owner id
        unfold Path.RemovesSlot at responders removes
        simp only [PathSystem.dropClient, remove, Function.update_self,
          Function.update_apply] at kept
        rw [responders] at kept
        simp_all
  | leave ref =>
      intro id owner removes found
      by_contra other
      have responders := Path.removeClient_responders before.path ref (before.client ref) id
      have hasId := (consistent.responder id owner found).2.2
      have mem := owns.joined id owner found
      have attached := consistent.attached (.inr (.inr ⟨id, found⟩))
      simp only [step, PathSystem.leave, remove] at stepped
      split at stepped
      · injection stepped with same
        subst same
        have kept := unique.stored owner id
        rw [responders] at kept
        simp_all
      · contradiction

/-- Along every run whose steps take no slot away from a stored responder, the
slots are unique and a full path is reported exactly when every slot is in use;
and these are the only runs in which this holds. -/
theorem slotsUnique_of_keepsSlots {system : PathSystem}
    (reach : machine.Reach KeepsSlots system) :
    system.SlotsUnique ∧ ∀ action after, machine.step system action = some after →
      (system.KeepsSlots action ↔ system.AddsToFreeSlot action ∧ after.SlotsUnique) := by
  have consistent := consistent_of_reachable reach.reachable
  have owns := ownsSlots_of_reach reach
  refine ⟨owns.slotsUnique consistent, fun action after stepped => ⟨fun keeps => ⟨?_, ?_⟩, ?_⟩⟩
  · cases action with
    | addResponder ref =>
        intro state id returned
        obtain ⟨_, mem, _, value, _⟩ := Path.addResponder_returned returned
        exact keeps mem id value
    | _ => trivial
  · have next := Machine.Reach.next action reach keeps stepped
    exact (ownsSlots_of_reach next).slotsUnique (consistent_of_reachable next.reachable)
  · rintro ⟨free, unique⟩
    exact owns.keepsSlots consistent stepped free unique

/-- Two responders join and stay. -/
theorem slotsUnique_two_responders :
    ∃ system : PathSystem, system.joined = {0, 1} ∧ machine.Reach KeepsSlots system ∧
      system.SlotsUnique ∧ ∀ action after, machine.step system action = some after →
        (system.KeepsSlots action ↔ system.AddsToFreeSlot action ∧ after.SlotsUnique) := by
  have connected : machine.Reach KeepsSlots _ :=
    .next (.connect 1) (.next (.connect 0) (.start (initial_created [0x61] 1)) trivial rfl)
      trivial rfl
  have typed : machine.Reach KeepsSlots _ :=
    .next (.setType 1 .responder) (.next (.setType 0 .responder) connected trivial rfl)
      trivial rfl
  have reach : machine.Reach KeepsSlots _ :=
    .next (.addResponder 1) (.next (.addResponder 0) typed (fun _ _ _ => rfl) rfl)
      (fun _ id value => by
        obtain rfl : id = ⟨0x03, by decide⟩ := Subtype.ext value
        rfl) rfl
  exact ⟨_, by decide, reach, slotsUnique_of_keepsSlots reach⟩

/-- After the first of two responders left, the next one is given the slot of
the second. -/
theorem slots_not_unique :
    ¬ ∀ system : PathSystem, machine.Reachable system →
      system.SlotsUnique ∧ ∀ action after, machine.step system action = some after →
        system.AddsToFreeSlot action := by
  intro claimed
  have reachable : machine.Reachable _ := Machine.reachable_of_run (initial_created [0x61] 1)
    [.connect 0, .setType 0 .responder, .addResponder 0,
      .connect 1, .setType 1 .responder, .addResponder 1, .leave 0,
      .connect 2, .setType 2 .responder, .addResponder 2] rfl
  have unique := (claimed _ reachable).1
  have same := unique.distinct 1 (by decide) 2 (by decide) rfl
  contradiction

end PathSystem

end SaltyRtcServer
