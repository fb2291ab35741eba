import SaltyRtcServer.PathSystem

/-!
# Removing one client from its path

A dropped client is removed twice: at once by whoever drops it, and again by
its own handler when that ends.  In between, the client's slot may have been
given to someone else.
-/

namespace SaltyRtcServer

open StepMachine

/-- Every other client is where it was after `remove_client`, whether the call
returned or raised. -/
def Path.RemovesOnly (path : Path) (ref : ClientRef) (client : PathClient) : Prop :=
  let after := (path.removeClient ref client).state
  ∀ other, other ≠ ref →
    (other ∈ path.pending → other ∈ after.pending) ∧
    (path.initiator = some other → after.initiator = some other) ∧
    ∀ id, path.responders.get? id = some other → after.responders.get? id = some other

/-- The slot that a removal clears holds the removed client itself, or nobody. -/
def Path.FindsOwnSlot (path : Path) (ref : ClientRef) (client : PathClient) : Prop :=
  ∀ id owner, RemovesSlot client id → path.responders.get? id = some owner → owner = ref

/-- The initiator is compared by identity before it is removed, a responder
is not. -/
theorem Path.removesOnly_iff {path : Path} (ref : ClientRef) (client : PathClient)
    (attached : ∀ other, path.Member other → path.attached = true) :
    path.RemovesOnly ref client ↔ path.FindsOwnSlot ref client := by
  have pending := Path.removeClient_pending path ref client
  have initiator := Path.removeClient_initiator path ref client
  have responders := Path.removeClient_responders path ref client
  unfold Path.Member at attached
  constructor
  · intro only id owner removes found
    by_contra other
    have kept := (only owner other).2.2 id found
    rw [responders] at kept
    grind
  · intro finds other differs
    refine ⟨by grind, by grind, fun id found => ?_⟩
    rw [responders]
    grind [Path.FindsOwnSlot]

theorem Path.findsOwnSlot_markDropped (path : Path) (ref : ClientRef) (client : PathClient) :
    path.FindsOwnSlot ref client.markDropped ↔ path.FindsOwnSlot ref client := by
  simp only [FindsOwnSlot, RemovesSlot, client.markDropped_id, ne_eq,
    client.markDropped_restricted_iff]

namespace PathSystem

/-- In every reachable state and for every client, its removal leaves all other
clients in place exactly when no other client holds its slot.  This covers the
call of its own handler and the call of someone who has just dropped it. -/
theorem removesOnly_iff_findsOwnSlot {system : PathSystem}
    (reachable : machine.Reachable system) (ref : ClientRef) :
    (system.path.RemovesOnly ref (system.client ref) ↔
      system.path.FindsOwnSlot ref (system.client ref)) ∧
    (system.path.RemovesOnly ref (system.client ref).markDropped ↔
      system.path.FindsOwnSlot ref (system.client ref)) := by
  have consistent := consistent_of_reachable reachable
  have attached : ∀ other, system.path.Member other → system.path.attached = true :=
    fun _ member => consistent.attached member
  refine ⟨Path.removesOnly_iff ref _ attached, ?_⟩
  rw [Path.removesOnly_iff ref _ attached, Path.findsOwnSlot_markDropped]

/-- The second of two responders is removed alone, also after it was dropped. -/
theorem second_responder_removed_alone :
    ∃ system : PathSystem, machine.Reachable system ∧ system.joined = {0, 1} ∧
      system.path.FindsOwnSlot 1 (system.client 1) ∧
      system.path.RemovesOnly 1 (system.client 1) ∧
      system.path.RemovesOnly 1 (system.client 1).markDropped := by
  obtain ⟨system, reachable, joined, finds⟩ : ∃ system : PathSystem, machine.Reachable system ∧
      system.joined = {0, 1} ∧ system.path.FindsOwnSlot 1 (system.client 1) := by
    refine ⟨_, Machine.reachable_of_run (initial_created [0x61] 1)
      [.connect 0, .setType 0 .responder, .addResponder 0,
        .connect 1, .setType 1 .responder, .addResponder 1] rfl, by decide, ?_⟩
    intro id owner removes found
    obtain rfl : id = ⟨0x03, by decide⟩ := Subtype.ext (congrArg Subtype.val removes.2).symm
    exact (Option.some.inj found).symm
  obtain ⟨removed, dropped⟩ := removesOnly_iff_findsOwnSlot reachable 1
  exact ⟨system, reachable, joined, finds, removed.mpr finds, dropped.mpr finds⟩

/-- A responder that the initiator dropped takes its successor off the path when
its own handler ends. -/
theorem dropped_responder_removes_successor :
    ¬ ∀ system : PathSystem, machine.Reachable system →
      ∀ ref, system.path.RemovesOnly ref (system.client ref) := by
  intro claimed
  have reachable : machine.Reachable _ := Machine.reachable_of_run (initial_created [0x61] 1)
    [.connect 0, .setType 0 .initiator, .setInitiator 0,
      .connect 1, .setType 1 .responder, .addResponder 1, .drop 1,
      .connect 2, .setType 2 .responder, .addResponder 2] rfl
  have kept := (claimed _ reachable 1 2 (by decide)).2.2 ⟨0x02, by decide⟩ rfl
  have removed : (none : Option ClientRef) = some 2 := kept
  contradiction

end PathSystem

end SaltyRtcServer
