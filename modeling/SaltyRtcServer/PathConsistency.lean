import SaltyRtcServer.PathSystem

/-!
# The places of a path

Every client of a path waits in the pending set, is the initiator or has a
responder slot, and its state and id agree with its place.  The calls that fail
leave the path and the client as they were.  For `set_initiator` and
`add_responder`, which change the path before the client, this holds because a
pending client can always be authenticated.
-/

namespace SaltyRtcServer

open StepMachine

namespace PathSystem

/-- Every stored client is in one place, which its state and id name.  The keys of the
responders are responder addresses by their type. -/
structure WellPlaced (system : PathSystem) : Prop where
  pending : ∀ ref ∈ system.path.pending,
    (system.client ref).state = .restricted ∧ (system.client ref).id = serverAddress
  initiator : ∀ ref, system.path.initiator = some ref →
    (system.client ref).state = .authenticated ∧ (system.client ref).id = initiatorAddress
  responder : ∀ id ref, system.path.responders.get? id = some ref →
    (system.client ref).state = .authenticated ∧ (system.client ref).id = id.toAddress
  pendingOnly : ∀ ref ∈ system.path.pending, system.path.initiator ≠ some ref ∧
    ∀ id, system.path.responders.get? id ≠ some ref
  initiatorOnly : ∀ ref, system.path.initiator = some ref →
    ∀ id, system.path.responders.get? id ≠ some ref
  undropped : ∀ ref, system.path.Member ref → (system.client ref).state ≠ .dropped

/-- A call that raises leaves the path and the client as they were.  A client is removed as
it is by its own handler, and after it was marked as dropped by others. -/
structure ErrorsAtomic (system : PathSystem) : Prop where
  addPending : ∀ ref after exception,
    system.path.addPending ref = .raised after exception → after = system.path
  setInitiator : ∀ ref after exception,
    system.path.setInitiator ref (system.client ref) = .raised after exception →
      after = (system.path, system.client ref)
  addResponder : ∀ ref after exception,
    system.path.addResponder ref (system.client ref) = .raised after exception →
      after = (system.path, system.client ref)
  removeClient : ∀ ref after exception,
    system.path.removeClient ref (system.client ref) = .raised after exception →
      after = system.path
  removeDropped : ∀ ref after exception,
    system.path.removeClient ref (system.client ref).markDropped = .raised after exception →
      after = system.path

theorem Consistent.wellPlaced {system : PathSystem} (consistent : system.Consistent) :
    system.WellPlaced where
  pending ref mem := (consistent.pending ref mem).2
  initiator ref stored := (consistent.initiator ref stored).2
  responder id ref stored := (consistent.responder id ref stored).2
  pendingOnly ref mem := by
    have restricted := (consistent.pending ref mem).2.1
    constructor
    · intro stored
      rw [(consistent.initiator ref stored).2.1] at restricted
      contradiction
    · intro id stored
      rw [(consistent.responder id ref stored).2.1] at restricted
      contradiction
  initiatorOnly ref stored id found := by
    have own := (consistent.initiator ref stored).2.2
    rw [(consistent.responder id ref found).2.2] at own
    exact id.ne_initiatorAddress own
  undropped ref member := by
    rcases member with mem | stored | ⟨id, stored⟩
    · simp [(consistent.pending ref mem).2.1]
    · simp [(consistent.initiator ref stored).2.1]
    · simp [(consistent.responder id ref stored).2.1]

end PathSystem

/-- Where `remove_client` raises, it has at most tried to take a client that has been
authenticated out of the pending set. -/
theorem Path.removeClient_raised {path : Path} {ref : ClientRef} {client : PathClient}
    {after : Path} {exception : PyException}
    (raised : path.removeClient ref client = .raised after exception)
    (restricted : ref ∈ path.pending → client.state = .restricted) : after = path := by
  unfold removeClient at raised
  split at raised
  · injection raised with same
    exact same.symm
  split at raised
  · split at raised
    · injection raised with same
      exact same.symm
    · contradiction
  · next authenticated =>
    have notPending : ref ∉ path.pending := fun mem => authenticated (restricted mem)
    rw [Finset.erase_eq_of_notMem notPending] at raised
    dsimp only at raised
    split at raised
    · split at raised
      · injection raised with same
        exact same.symm
      · split at raised <;> contradiction
    · split at raised
      · injection raised with same
        exact same.symm
      · split at raised
        · injection raised with same
          exact same.symm
        · contradiction

namespace PathSystem

theorem Consistent.errorsAtomic {system : PathSystem} (consistent : system.Consistent) :
    system.ErrorsAtomic where
  addPending ref after exception raised := by
    unfold Path.addPending at raised
    split at raised
    · injection raised with same
      exact same.symm
    · contradiction
  setInitiator ref after exception raised :=
    Path.setInitiator_raised raised fun mem => (consistent.pending ref mem).2.1
  addResponder ref after exception raised :=
    Path.addResponder_raised raised fun mem => (consistent.pending ref mem).2.1
  removeClient ref after exception raised :=
    Path.removeClient_raised raised fun mem => (consistent.pending ref mem).2.1
  removeDropped ref after exception raised :=
    Path.removeClient_raised raised fun mem =>
      (system.client ref).markDropped_restricted_iff.mpr (consistent.pending ref mem).2.1

/-- Between any two calls, also between setting an initiator and dropping the previous one,
every client is in its place, and a call that fails changes nothing. -/
theorem wellPlaced_and_errorsAtomic {system : PathSystem} (reachable : machine.Reachable system) :
    system.WellPlaced ∧ system.ErrorsAtomic ∧
      ∀ ref state previous,
        system.path.setInitiator ref (system.client ref) = .returned state previous →
          WellPlaced { system with
            path := state.1
            client := Function.update system.client ref state.2 } := by
  have consistent := consistent_of_reachable reachable
  refine ⟨consistent.wellPlaced, consistent.errorsAtomic, fun ref state previous returned => ?_⟩
  obtain ⟨pending, initiator, responder, pendingOnly, initiatorOnly, undropped⟩ :=
    (consistent.placeInitiator returned).wellPlaced
  exact ⟨pending, initiator, responder, pendingOnly, initiatorOnly, undropped⟩

/-- An initiator has joined and a second one waits. -/
theorem wellPlaced_second_initiator :
    ∃ system : PathSystem, system.path.initiator = some 0 ∧ system.path.pending = {1} ∧
      system.WellPlaced ∧ system.ErrorsAtomic ∧
        ∀ ref state previous,
          system.path.setInitiator ref (system.client ref) = .returned state previous →
            WellPlaced { system with
              path := state.1
              client := Function.update system.client ref state.2 } := by
  have reachable : machine.Reachable _ := Machine.reachable_of_run (initial_created [0x61] 1)
    [.connect 0, .setType 0 .initiator, .setInitiator 0, .connect 1, .setType 1 .initiator] rfl
  exact ⟨_, rfl, by decide, wellPlaced_and_errorsAtomic reachable⟩

end PathSystem

end SaltyRtcServer
