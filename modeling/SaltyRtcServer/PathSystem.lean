import SaltyRtcServer.Path
import SaltyRtcServer.StepMachine
import Mathlib.Logic.Function.Basic

/-!
# The life of one path

A path is driven by the protocols of its clients.  A protocol adds its client
as pending when the connection is opened, authenticates it at most once as the
initiator or as a responder, and removes it when its own handler ends, which
also cleans a path that has become empty.  In between, the client may be
dropped, and thereby removed, by another protocol or by a server that is
closing.  `PathSystem` runs these calls in any order and for any number of
clients.
-/

namespace SaltyRtcServer

/-- How far a protocol has come with the calls it makes on its path. -/
inductive Stage
  | absent
  | handshaking
  | established
  | left
  deriving DecidableEq

/-- A path with the clients of all protocols that were ever attached to it.
`joined` is an observation: the responders that `add_responder` has added and
for which `remove_client` has not been called since. -/
structure PathSystem where
  path : Path
  client : ClientRef → PathClient
  stage : ClientRef → Stage
  joined : Finset ClientRef

namespace PathSystem

/-- The calls of one protocol that run without giving up control. -/
inductive Action
  | connect (ref : ClientRef)
  | setType (ref : ClientRef) (type : AddressType)
  | setInitiator (ref : ClientRef)
  | addResponder (ref : ClientRef)
  | drop (ref : ClientRef)
  | leave (ref : ClientRef)
  | clean

/-- `path.remove_client(client)`; the callers ignore what it raises. -/
def remove (system : PathSystem) (ref : ClientRef) : PathSystem :=
  { system with
    path := (system.path.removeClient ref (system.client ref)).state
    joined := system.joined.erase ref }

/-- `ServerProtocol._drop_client`. -/
def dropClient (system : PathSystem) (ref : ClientRef) : PathSystem :=
  { system with
    client := Function.update system.client ref (system.client ref).markDropped }.remove ref

/-- What `Paths.clean` does to the path itself. -/
def cleanPath (path : Path) : Path :=
  if path.empty then { path with attached := false }.clear else path

/-- `client.type = type`. -/
def setType (system : PathSystem) (ref : ClientRef) (type : AddressType) : PathSystem :=
  { system with
    client := Function.update system.client ref { system.client ref with type := some type } }

/-- The removal of a client by its own handler. -/
def leave (system : PathSystem) (ref : ClientRef) : PathSystem :=
  { system.remove ref with stage := Function.update system.stage ref .left }

def clean (system : PathSystem) : PathSystem :=
  { system with path := cleanPath system.path }

/-- Continue with the state a call left, marking the new responder. -/
def afterAddResponder (system : PathSystem) (ref : ClientRef) :
    Call (Path × PathClient) ResponderAddress → PathSystem
  | .raised (path, client) _ =>
      { system with path := path, client := Function.update system.client ref client }
  | .returned (path, client) _ =>
      { system with
        path := path
        client := Function.update system.client ref client
        stage := Function.update system.stage ref .established
        joined := insert ref system.joined }

/-- Continue with the state a call left; a previous initiator is dropped. -/
def afterSetInitiator (system : PathSystem) (ref : ClientRef) :
    Call (Path × PathClient) (Option ClientRef) → PathSystem
  | .raised (path, client) _ =>
      { system with path := path, client := Function.update system.client ref client }
  | .returned (path, client) previous =>
      let system : PathSystem :=
        { system with
          path := path
          client := Function.update system.client ref client
          stage := Function.update system.stage ref .established }
      match previous with
      | none => system
      | some previous => system.dropClient previous

/-- One atomic section of some protocol. -/
def step (system : PathSystem) : Action → Option PathSystem
  | .connect ref =>
      if system.stage ref = .absent then
        match system.path.addPending ref with
        | .raised _ _ => none
        | .returned path _ =>
            some { system with
              path := path
              client := Function.update system.client ref .new
              stage := Function.update system.stage ref .handshaking }
      else none
  | .setType ref type =>
      if system.stage ref = .handshaking then some (system.setType ref type) else none
  | .setInitiator ref =>
      if system.stage ref = .handshaking then
        some (system.afterSetInitiator ref (system.path.setInitiator ref (system.client ref)))
      else none
  | .addResponder ref =>
      if system.stage ref = .handshaking then
        some (system.afterAddResponder ref (system.path.addResponder ref (system.client ref)))
      else none
  | .drop ref =>
      if system.stage ref = .absent then none
      else some (system.dropClient ref)
  | .leave ref =>
      if system.stage ref = .handshaking ∨ system.stage ref = .established then
        some (system.leave ref)
      else none
  | .clean => some system.clean

/-- A path that was just created, before any protocol used it. -/
def Initial (system : PathSystem) : Prop :=
  (∃ key number, system.path = Path.new key number) ∧
    (∀ ref, system.stage ref = .absent) ∧ system.joined = ∅

/-- All runs of the protocols of one path. -/
def machine : StepMachine.Machine PathSystem Action := ⟨Initial, step⟩

/-- Every stored client is in the one place that its state and id name. -/
structure Consistent (system : PathSystem) : Prop where
  pending : ∀ ref, ref ∈ system.path.pending →
    system.stage ref = .handshaking ∧ (system.client ref).state = .restricted ∧
      (system.client ref).id = serverAddress
  initiator : ∀ ref, system.path.initiator = some ref →
    system.stage ref = .established ∧ (system.client ref).state = .authenticated ∧
      (system.client ref).id = initiatorAddress
  responder : ∀ id ref, system.path.responders.get? id = some ref →
    system.stage ref = .established ∧ (system.client ref).state = .authenticated ∧
      (system.client ref).id = id.toAddress
  detached : system.path.attached = false → ∀ ref, ¬ system.path.Member ref
  handshaking : ∀ ref, system.stage ref = .handshaking →
    (system.client ref).state = .restricted ∧ (system.client ref).id = serverAddress
  established : ∀ ref, system.stage ref = .established →
    (system.client ref).state ≠ .restricted
  joined : ∀ ref ∈ system.joined, system.stage ref = .established ∧
    (system.client ref).state = .authenticated ∧
      ∃ id : ResponderAddress, (system.client ref).id = id.toAddress

/-- Only an empty path is cleared, so cleaning changes nothing but the flag. -/
theorem cleanPath_eq (path : Path) :
    cleanPath path = { path with attached := path.attached && !path.empty } := by
  obtain ⟨pending, initiator, responders, key, number, attached⟩ := path
  unfold cleanPath
  split
  · next empty =>
      have cleared := Path.clear_of_empty empty
      simp_all [Path.clear, Path.empty]
  · next occupied => simp [occupied]

/-- A path with a member is attached. -/
theorem Consistent.attached {system : PathSystem} (consistent : system.Consistent)
    {ref : ClientRef} (member : system.path.Member ref) : system.path.attached = true := by
  by_contra detached
  exact consistent.detached (by simpa using detached) ref member

/-- Dropping a client takes it out of its place and keeps the rest in place. -/
theorem Consistent.dropClient {system : PathSystem} (consistent : system.Consistent)
    (ref : ClientRef) : (system.dropClient ref).Consistent := by
  have pending := Path.removeClient_pending system.path ref (system.client ref).markDropped
  have initiator := Path.removeClient_initiator system.path ref (system.client ref).markDropped
  have responders := Path.removeClient_responders system.path ref (system.client ref).markDropped
  have attached := Path.removeClient_attached system.path ref (system.client ref).markDropped
  have restricted := (system.client ref).markDropped_restricted_iff
  have id := (system.client ref).markDropped_id
  obtain ⟨pendings, initiators, respondings, detacheds, handshakings, establisheds, joineds⟩ :=
    consistent
  unfold Path.Member at detacheds
  unfold Path.RemovesSlot at responders
  simp only [PathSystem.dropClient, remove]
  constructor <;> simp only [Function.update_self, Function.update_apply, Path.Member]
  · grind
  · grind
  · grind
  · grind
  · grind
  · grind
  · grind

theorem Consistent.connect {before after : PathSystem} (consistent : before.Consistent)
    {ref : ClientRef} (stepped : before.step (.connect ref) = some after) :
    after.Consistent := by
  obtain ⟨pendings, initiators, respondings, detacheds, handshakings, establisheds, joineds⟩ :=
    consistent
  simp only [step, Path.addPending] at stepped
  split at stepped
  · split at stepped
    · contradiction
    · next path _ added =>
      injection stepped with same
      subst same
      constructor <;> simp only [Function.update_apply, PathClient.new, Path.Member] <;> grind
  · contradiction

theorem Consistent.setType {before after : PathSystem} (consistent : before.Consistent)
    {ref : ClientRef} {type : AddressType}
    (stepped : before.step (.setType ref type) = some after) : after.Consistent := by
  obtain ⟨pendings, initiators, respondings, detacheds, handshakings, establisheds, joineds⟩ :=
    consistent
  simp only [step, PathSystem.setType] at stepped
  split at stepped
  · injection stepped with same
    subst same
    constructor <;> simp only [Function.update_apply] <;> grind
  · contradiction

/-- Authenticating a pending client as the initiator, before a previous one is
dropped. -/
theorem Consistent.placeInitiator {system : PathSystem} (consistent : system.Consistent)
    {ref : ClientRef} {after : Path × PathClient} {previous : Option ClientRef}
    (returned : system.path.setInitiator ref (system.client ref) = .returned after previous) :
    Consistent { system with
      path := after.1
      client := Function.update system.client ref after.2
      stage := Function.update system.stage ref .established } := by
  obtain ⟨attached, mem, restricted, rfl, path, client⟩ := Path.setInitiator_returned returned
  obtain ⟨pendings, initiators, respondings, detacheds, handshakings, establisheds, joineds⟩ :=
    consistent
  rw [path, client]
  constructor <;> simp only [Function.update_apply, Path.Member] <;> grind

theorem Consistent.setInitiator {before after : PathSystem} (consistent : before.Consistent)
    {ref : ClientRef} (stepped : before.step (.setInitiator ref) = some after) :
    after.Consistent := by
  simp only [step] at stepped
  split at stepped
  · injection stepped with same
    subst same
    cases called : before.path.setInitiator ref (before.client ref) with
    | raised state exception =>
        have unchanged := Path.setInitiator_raised called fun mem =>
          (consistent.pending ref mem).2.1
        subst unchanged
        simpa [afterSetInitiator] using consistent
    | returned state previous =>
        have placed := consistent.placeInitiator called
        cases previous with
        | none => exact placed
        | some previous => exact placed.dropClient previous
  · contradiction

theorem Consistent.addResponder {before after : PathSystem} (consistent : before.Consistent)
    {ref : ClientRef} (stepped : before.step (.addResponder ref) = some after) :
    after.Consistent := by
  simp only [step] at stepped
  split at stepped
  · injection stepped with same
    subst same
    cases called : before.path.addResponder ref (before.client ref) with
    | raised state exception =>
        have unchanged := Path.addResponder_raised called fun mem =>
          (consistent.pending ref mem).2.1
        subst unchanged
        simpa [afterAddResponder] using consistent
    | returned state id =>
        obtain ⟨attached, mem, restricted, value, path, client⟩ :=
          Path.addResponder_returned called
        obtain ⟨pendings, initiators, respondings, detacheds, handshakings, establisheds,
          joineds⟩ := consistent
        simp only [afterAddResponder, path, client]
        constructor <;> simp only [Function.update_apply, Path.Member] <;> grind
  · contradiction

theorem Consistent.drop {before after : PathSystem} (consistent : before.Consistent)
    {ref : ClientRef} (stepped : before.step (.drop ref) = some after) : after.Consistent := by
  simp only [step] at stepped
  split at stepped
  · contradiction
  · injection stepped with same
    subst same
    exact consistent.dropClient ref

theorem Consistent.leave {before after : PathSystem} (consistent : before.Consistent)
    {ref : ClientRef} (stepped : before.step (.leave ref) = some after) :
    after.Consistent := by
  have pending := Path.removeClient_pending before.path ref (before.client ref)
  have initiator := Path.removeClient_initiator before.path ref (before.client ref)
  have responders := Path.removeClient_responders before.path ref (before.client ref)
  have attached := Path.removeClient_attached before.path ref (before.client ref)
  obtain ⟨pendings, initiators, respondings, detacheds, handshakings, establisheds, joineds⟩ :=
    consistent
  simp only [step, PathSystem.leave, remove] at stepped
  split at stepped
  · injection stepped with same
    subst same
    unfold Path.Member at detacheds
    unfold Path.RemovesSlot at responders
    constructor <;> simp only [Function.update_apply, Path.Member]
    · grind
    · grind
    · intro id other found
      rw [responders] at found
      grind
    · grind
    · grind
    · grind
    · grind
  · contradiction

theorem Consistent.clean {before after : PathSystem} (consistent : before.Consistent)
    (stepped : before.step .clean = some after) : after.Consistent := by
  have empty := Path.empty_iff before.path
  obtain ⟨pendings, initiators, respondings, detacheds, handshakings, establisheds, joineds⟩ :=
    consistent
  unfold Path.Member at detacheds empty
  simp only [step, PathSystem.clean, cleanPath_eq] at stepped
  injection stepped with same
  subst same
  constructor <;> simp only [Path.Member] <;> grind

theorem Consistent.step {before after : PathSystem} (consistent : before.Consistent)
    {action : Action} (stepped : before.step action = some after) : after.Consistent := by
  cases action with
  | connect ref => exact consistent.connect stepped
  | setType ref type => exact consistent.setType stepped
  | setInitiator ref => exact consistent.setInitiator stepped
  | addResponder ref => exact consistent.addResponder stepped
  | drop ref => exact consistent.drop stepped
  | leave ref => exact consistent.leave stepped
  | clean => exact consistent.clean stepped

/-- Every stored client is in its place in every reachable state. -/
theorem consistent_of_reachable {system : PathSystem} (reachable : machine.Reachable system) :
    system.Consistent := by
  refine reachable.invariant _ ?_ fun _ _ _ _ _ consistent stepped => consistent.step stepped
  rintro system ⟨⟨key, number, path⟩, absent, joined⟩
  constructor <;> simp [path, Path.new, absent, joined]

@[simp]
theorem dropClient_initiatorKey (system : PathSystem) (ref : ClientRef) :
    (system.dropClient ref).path.initiatorKey = system.path.initiatorKey :=
  Path.removeClient_initiatorKey _ _ _

@[simp]
theorem dropClient_attached (system : PathSystem) (ref : ClientRef) :
    (system.dropClient ref).path.attached = system.path.attached :=
  Path.removeClient_attached _ _ _

/-- No call changes the key of a path, and only cleaning detaches it. -/
theorem step_keeps_path {before after : PathSystem} {action : Action}
    (stepped : before.step action = some after) :
    after.path.initiatorKey = before.path.initiatorKey ∧
      (action ≠ .clean → after.path.attached = before.path.attached) := by
  cases action with
  | connect ref =>
      simp only [step, Path.addPending] at stepped
      grind
  | setType ref type =>
      simp only [step, setType] at stepped
      grind
  | setInitiator ref =>
      have key := Path.setInitiator_initiatorKey before.path ref (before.client ref)
      have attached := Path.setInitiator_attached before.path ref (before.client ref)
      simp only [step, afterSetInitiator] at stepped
      cases called : before.path.setInitiator ref (before.client ref) <;>
        grind [Call.state, dropClient_initiatorKey, dropClient_attached]
  | addResponder ref =>
      have key := Path.addResponder_initiatorKey before.path ref (before.client ref)
      have attached := Path.addResponder_attached before.path ref (before.client ref)
      simp only [step, afterAddResponder] at stepped
      cases called : before.path.addResponder ref (before.client ref) <;> grind [Call.state]
  | drop ref =>
      simp only [step] at stepped
      grind [dropClient_initiatorKey, dropClient_attached]
  | leave ref =>
      simp only [step, PathSystem.leave, remove] at stepped
      grind [Path.removeClient_initiatorKey, Path.removeClient_attached]
  | clean =>
      simp only [step, PathSystem.clean, cleanPath_eq] at stepped
      grind

theorem step_detached {before after : PathSystem} {action : Action}
    (stepped : before.step action = some after) (detached : before.path.attached = false) :
    after.path.attached = false := by
  by_cases cleaned : action = .clean
  · subst cleaned
    simp only [step, PathSystem.clean, cleanPath_eq, detached] at stepped
    grind
  · rw [(step_keeps_path stepped).2 cleaned, detached]

/-- A path that was just created, and no protocol. -/
def created (initiatorKey : List UInt8) (number : Nat) : PathSystem :=
  ⟨Path.new initiatorKey number, fun _ => .new, fun _ => .absent, ∅⟩

theorem initial_created (initiatorKey : List UInt8) (number : Nat) :
    machine.initial (created initiatorKey number) :=
  ⟨⟨_, _, rfl⟩, fun _ => rfl, rfl⟩

end PathSystem

end SaltyRtcServer
