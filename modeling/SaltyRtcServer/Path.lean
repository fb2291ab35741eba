import SaltyRtcServer.Common
import SaltyRtcServer.PythonDict
import Mathlib.Data.Finset.Basic

/-!
# Paths and the clients they hold

`protocol.Path` keeps the clients of one initiator key in three places: the set
of clients that have not authenticated yet, the initiator, and the responders
by slot.  A path refers to clients by identity, and it changes a client only by
authenticating it.

A call that raises may have changed the objects it works on before it raised.
`Call` therefore records the state a call leaves behind in both cases.
-/

namespace SaltyRtcServer

/-- What a Python call leaves behind: the state it reached, with the value it
returned or the exception that ended it. -/
inductive Call (State Value : Type*)
  | returned (state : State) (value : Value)
  | raised (state : State) (exception : PyException)

namespace Call

variable {State Value : Type*}

/-- The state after the call, however it ended. -/
def state : Call State Value → State
  | .returned state _ => state
  | .raised state _ => state

/-- The exception that ended the call, if any. -/
def exception? : Call State Value → Option PyException
  | .returned _ _ => none
  | .raised _ exception => some exception

@[simp]
theorem state_returned (after : State) (value : Value) :
    (Call.returned after value).state = after :=
  rfl

@[simp]
theorem state_raised (after : State) (exception : PyException) :
    (Call.raised after exception : Call State Value).state = after :=
  rfl

@[simp]
theorem exception?_returned (after : State) (value : Value) :
    (Call.returned after value).exception? = none :=
  rfl

@[simp]
theorem exception?_raised (after : State) (exception : PyException) :
    (Call.raised after exception : Call State Value).exception? = some exception :=
  rfl

end Call

/-- The identity of a `PathClient` object and of the protocol that owns it. -/
abbrev ClientRef := Nat

/-- The part of `protocol.PathClient` that paths and handlers read. -/
structure PathClient where
  state : ClientState
  id : Address
  type : Option AddressType
  deriving DecidableEq

namespace PathClient

/-- A client as its constructor leaves it. -/
def new : PathClient := ⟨.restricted, serverAddress, none⟩

/-- The setter of `PathClient.state`: states follow one another strictly. -/
def setState (client : PathClient) (state : ClientState) : Except PyException PathClient :=
  match client.state.next with
  | .error exception => .error exception
  | .ok next =>
      if state = next then .ok { client with state := state }
      else .error (.valueError "State cannot be updated")

/-- `PathClient.authenticate`. -/
def authenticate (client : PathClient) (id : Address) : Except PyException PathClient :=
  match client.setState .authenticated with
  | .error exception => .error exception
  | .ok client => .ok { client with id := id }

/-- The last part of `PathClient.drop`: only an authenticated client is marked
as dropped. -/
def markDropped (client : PathClient) : PathClient :=
  if client.state = .authenticated then { client with state := .dropped } else client

theorem authenticate_restricted {client : PathClient} (restricted : client.state = .restricted)
    (id : Address) :
    client.authenticate id = .ok { client with state := .authenticated, id := id } := by
  simp [authenticate, setState, restricted, ClientState.next]

theorem authenticate_eq_ok {client authenticated : PathClient} {id : Address}
    (ok : client.authenticate id = .ok authenticated) :
    client.state = .restricted ∧
      authenticated = { client with state := .authenticated, id := id } := by
  cases state : client.state with
  | restricted =>
      rw [authenticate_restricted state] at ok
      injection ok with same
      exact ⟨rfl, same.symm⟩
  | authenticated => simp [authenticate, setState, state, ClientState.next] at ok
  | dropped => simp [authenticate, setState, state, ClientState.next] at ok

@[simp]
theorem markDropped_id (client : PathClient) : client.markDropped.id = client.id := by
  unfold markDropped
  split <;> rfl

@[simp]
theorem markDropped_type (client : PathClient) : client.markDropped.type = client.type := by
  unfold markDropped
  split <;> rfl

theorem markDropped_state (client : PathClient) :
    client.markDropped.state =
      if client.state = .authenticated then .dropped else client.state := by
  unfold markDropped
  split <;> rfl

theorem markDropped_restricted_iff (client : PathClient) :
    client.markDropped.state = .restricted ↔ client.state = .restricted := by
  rw [markDropped_state]
  split
  · next authenticated => simp [authenticated]
  · rfl

theorem markDropped_ne_authenticated (client : PathClient) :
    client.markDropped.state ≠ .authenticated := by
  rw [markDropped_state]
  split
  · simp
  · assumption

end PathClient

/-- `protocol.Path`. -/
structure Path where
  pending : Finset ClientRef
  initiator : Option ClientRef
  responders : PythonDict ResponderAddress ClientRef
  initiatorKey : List UInt8
  number : Nat
  attached : Bool

namespace Path

/-- `Path(initiator_key, number, attached=True)`. -/
def new (initiatorKey : List UInt8) (number : Nat) : Path :=
  ⟨∅, none, .empty, initiatorKey, number, true⟩

/-- `Path.empty`. -/
def empty (path : Path) : Bool :=
  path.pending.card == 0 && path.initiator.isNone && path.responders.length == 0

/-- The error of every operation on a path that has been detached. -/
def detached : PyException := .valueError "Path has been detached!"

/-- `Path.add_pending`. -/
def addPending (path : Path) (ref : ClientRef) : Call Path Unit :=
  if !path.attached then .raised path detached
  else .returned { path with pending := insert ref path.pending } ()

/-- `Path.has_client`. -/
def hasClient (path : Path) (ref : ClientRef) (client : PathClient) :
    Except PyException Bool :=
  if !path.attached then .error detached
  else if client.id = initiatorAddress then .ok (path.initiator = some ref)
  else
    match ResponderAddress.ofNat client.id.1 with
    | .error _ => .ok false
    | .ok id =>
        match path.responders.get? id with
        | none => .ok false
        | some stored => .ok (stored = ref)

/-- `Path.get_initiator`. -/
def getInitiator (path : Path) : Except PyException ClientRef :=
  if !path.attached then .error detached
  else
    match path.initiator with
    | none => .error (.keyError "No initiator present")
    | some initiator => .ok initiator

/-- `Path.set_initiator`, returning the previous initiator. -/
def setInitiator (path : Path) (ref : ClientRef) (client : PathClient) :
    Call (Path × PathClient) (Option ClientRef) :=
  if !path.attached then .raised (path, client) detached
  else if ref ∉ path.pending then .raised (path, client) (.keyError "client")
  else
    let updated := { path with pending := path.pending.erase ref, initiator := some ref }
    match client.authenticate initiatorAddress with
    | .error exception => .raised (updated, client) exception
    | .ok client => .returned (updated, client) path.initiator

/-- `Path.get_responder`. -/
def getResponder (path : Path) (id : ResponderAddress) : Except PyException ClientRef :=
  if !path.attached then .error detached
  else
    match path.responders.get? id with
    | none => .error (.keyError (toString id.1))
    | some responder => .ok responder

/-- `Path.get_responder_ids`, in the order in which the slots were filled. -/
def getResponderIds (path : Path) : Except PyException (List ResponderAddress) :=
  if !path.attached then .error detached
  else .ok path.responders.keys

/-- `Path.add_responder`, returning the assigned slot.  The slot is computed
from the number of responders. -/
def addResponder (path : Path) (ref : ClientRef) (client : PathClient) :
    Call (Path × PathClient) ResponderAddress :=
  if !path.attached then .raised (path, client) detached
  else
    match ResponderAddress.ofNat (path.responders.length + 0x02) with
    | .error _ => .raised (path, client) (.slotsFullError "No free slot on path")
    | .ok id =>
        if ref ∉ path.pending then .raised (path, client) (.keyError "client")
        else
          let updated :=
            { path with
              pending := path.pending.erase ref
              responders := path.responders.set id ref }
          match client.authenticate id.toAddress with
          | .error exception => .raised (updated, client) exception
          | .ok client => .returned (updated, client) id

/-- `Path.remove_client`. -/
def removeClient (path : Path) (ref : ClientRef) (client : PathClient) : Call Path Unit :=
  if !path.attached then .raised path detached
  else if client.state = .restricted then
    -- Never authenticated: it should be in the pending set.
    if ref ∉ path.pending then .raised path (.keyError "client")
    else .returned { path with pending := path.pending.erase ref } ()
  else
    let path := { path with pending := path.pending.erase ref }
    if client.id = initiatorAddress then
      match path.getInitiator with
      | .error exception => .raised path exception
      | .ok current =>
          if current ≠ ref then .returned path ()
          else .returned { path with initiator := none } ()
    else
      match ResponderAddress.ofNat client.id.1 with
      | .error _ =>
          .raised path (.keyError ("Invalid responder id: " ++ toString client.id.1))
      | .ok id =>
          -- The entry is deleted whoever it belongs to.
          match path.responders.get? id with
          | none => .raised path (.keyError (toString id.1))
          | some _ => .returned { path with responders := path.responders.erase id } ()

/-- `Path.clear`. -/
def clear (path : Path) : Path :=
  { path with pending := ∅, initiator := none, responders := .empty }

/-- A client is stored in one of the three places of the path. -/
def Member (path : Path) (ref : ClientRef) : Prop :=
  ref ∈ path.pending ∨ path.initiator = some ref ∨
    ∃ id, path.responders.get? id = some ref

theorem empty_iff (path : Path) : path.empty = true ↔ ∀ ref, ¬ path.Member ref := by
  simp only [empty, Bool.and_eq_true, beq_iff_eq, Finset.card_eq_zero,
    Option.isNone_iff_eq_none, PythonDict.length_eq_zero_iff, Member]
  constructor
  · rintro ⟨⟨noPending, noInitiator⟩, noResponder⟩ ref
    simp [noPending, noInitiator, noResponder]
  · intro none
    refine ⟨⟨?_, ?_⟩, ?_⟩
    · exact Finset.eq_empty_of_forall_notMem fun ref mem => none ref (.inl mem)
    · exact Option.eq_none_iff_forall_ne_some.mpr fun ref same => none ref (.inr (.inl same))
    · exact fun id => Option.eq_none_iff_forall_ne_some.mpr
        fun ref same => none ref (.inr (.inr ⟨id, same⟩))

@[simp]
theorem not_member_clear (path : Path) (ref : ClientRef) : ¬ path.clear.Member ref := by
  simp [clear, Member]

@[simp]
theorem clear_attached (path : Path) : path.clear.attached = path.attached :=
  rfl

theorem clear_of_empty {path : Path} (empty : path.empty = true) : path.clear = path := by
  simp only [Path.empty, Bool.and_eq_true, beq_iff_eq, Finset.card_eq_zero,
    Option.isNone_iff_eq_none, PythonDict.length_eq_zero_iff_eq_empty] at empty
  obtain ⟨⟨noPending, noInitiator⟩, noResponder⟩ := empty
  rw [clear, ← noPending, ← noInitiator, ← noResponder]

/-- What a successful `set_initiator` did. -/
theorem setInitiator_returned {path : Path} {ref : ClientRef} {client : PathClient}
    {after : Path × PathClient} {previous : Option ClientRef}
    (returned : path.setInitiator ref client = .returned after previous) :
    path.attached = true ∧ ref ∈ path.pending ∧ client.state = .restricted ∧
      previous = path.initiator ∧
      after.1 = { path with pending := path.pending.erase ref, initiator := some ref } ∧
      after.2 = { client with state := .authenticated, id := initiatorAddress } := by
  unfold setInitiator at returned
  split at returned
  · contradiction
  next attached =>
  split at returned
  · contradiction
  next pending =>
  split at returned
  · contradiction
  next authenticated ok =>
  obtain ⟨restricted, rfl⟩ := PathClient.authenticate_eq_ok ok
  injection returned with states values
  subst states
  exact ⟨by simpa using attached, by simpa using pending, restricted, values.symm, rfl, rfl⟩

/-- What a successful `add_responder` did. -/
theorem addResponder_returned {path : Path} {ref : ClientRef} {client : PathClient}
    {after : Path × PathClient} {id : ResponderAddress}
    (returned : path.addResponder ref client = .returned after id) :
    path.attached = true ∧ ref ∈ path.pending ∧ client.state = .restricted ∧
      id.1 = path.responders.length + 0x02 ∧
      after.1 = { path with
        pending := path.pending.erase ref
        responders := path.responders.set id ref } ∧
      after.2 = { client with state := .authenticated, id := id.toAddress } := by
  unfold addResponder at returned
  split at returned
  · contradiction
  next attached =>
  split at returned
  · contradiction
  next slot converted =>
  split at returned
  · contradiction
  next pending =>
  split at returned
  · contradiction
  next authenticated ok =>
  obtain ⟨restricted, rfl⟩ := PathClient.authenticate_eq_ok ok
  injection returned with states values
  subst states values
  exact ⟨by simpa using attached, by simpa using pending, restricted,
    ResponderAddress.ofNat_eq_ok converted, rfl, rfl⟩

/-- `add_responder` succeeds for a pending client while its slot number is in
range. -/
theorem addResponder_eq {path : Path} {ref : ClientRef} {client : PathClient}
    {id : ResponderAddress} (attached : path.attached = true) (pending : ref ∈ path.pending)
    (restricted : client.state = .restricted)
    (value : id.1 = path.responders.length + 0x02) :
    path.addResponder ref client =
      .returned
        ({ path with
            pending := path.pending.erase ref
            responders := path.responders.set id ref },
          { client with state := .authenticated, id := id.toAddress }) id := by
  unfold addResponder
  rw [← value, ResponderAddress.ofNat_val]
  simp [attached, pending, PathClient.authenticate_restricted restricted]

/-- A call that raises for a client that may be authenticated changes neither
the path nor the client. -/
theorem setInitiator_raised {path : Path} {ref : ClientRef} {client : PathClient}
    {after : Path × PathClient} {exception : PyException}
    (raised : path.setInitiator ref client = .raised after exception)
    (restricted : ref ∈ path.pending → client.state = .restricted) :
    after = (path, client) := by
  unfold setInitiator at raised
  split at raised
  · injection raised with states
    exact states.symm
  split at raised
  · injection raised with states
    exact states.symm
  next pending =>
  rw [PathClient.authenticate_restricted (restricted (by simpa using pending))] at raised
  contradiction

theorem addResponder_raised {path : Path} {ref : ClientRef} {client : PathClient}
    {after : Path × PathClient} {exception : PyException}
    (raised : path.addResponder ref client = .raised after exception)
    (restricted : ref ∈ path.pending → client.state = .restricted) :
    after = (path, client) := by
  unfold addResponder at raised
  split at raised
  · injection raised with states
    exact states.symm
  split at raised
  · injection raised with states
    exact states.symm
  split at raised
  · injection raised with states
    exact states.symm
  next pending =>
  rw [PathClient.authenticate_restricted (restricted (by simpa using pending))] at raised
  contradiction

theorem setInitiator_attached (path : Path) (ref : ClientRef) (client : PathClient) :
    (path.setInitiator ref client).state.1.attached = path.attached := by
  unfold setInitiator
  grind [Call.state]

theorem setInitiator_initiatorKey (path : Path) (ref : ClientRef) (client : PathClient) :
    (path.setInitiator ref client).state.1.initiatorKey = path.initiatorKey := by
  unfold setInitiator
  grind [Call.state]

theorem addResponder_attached (path : Path) (ref : ClientRef) (client : PathClient) :
    (path.addResponder ref client).state.1.attached = path.attached := by
  unfold addResponder
  grind [Call.state]

theorem addResponder_initiatorKey (path : Path) (ref : ClientRef) (client : PathClient) :
    (path.addResponder ref client).state.1.initiatorKey = path.initiatorKey := by
  unfold addResponder
  grind [Call.state]

/-- `add_responder` reports a full path exactly when the number of responders
has reached the number of slots. -/
theorem addResponder_slotsFull_iff (path : Path) (ref : ClientRef) (client : PathClient) :
    (∃ after message,
        path.addResponder ref client = .raised after (.slotsFullError message)) ↔
      path.attached = true ∧ ∀ id, (path.responders.get? id).isSome := by
  rw [← PythonDict.card_le_length_iff, card_responderAddress]
  unfold addResponder
  by_cases attached : path.attached = true
  · by_cases full : 254 ≤ path.responders.length
    · rw [ResponderAddress.ofNat, dif_neg (by omega)]
      simp [attached, full]
    · rw [ResponderAddress.ofNat, dif_pos (by omega)]
      by_cases pending : ref ∈ path.pending
      · cases state : client.state <;>
          simp [attached, full, pending, PathClient.authenticate, PathClient.setState, state,
            ClientState.next]
      · simp [attached, full, pending]
  · simp [attached, detached]

section RemoveClient

variable (path : Path) (ref : ClientRef) (client : PathClient)

/-- The slot a removal clears: that of the id of a client that has ever been
authenticated. -/
def RemovesSlot (client : PathClient) (id : ResponderAddress) : Prop :=
  client.state ≠ .restricted ∧ client.id = id.toAddress

instance (id : ResponderAddress) : Decidable (RemovesSlot client id) :=
  inferInstanceAs (Decidable (_ ∧ _))

@[simp]
theorem removeClient_attached :
    (path.removeClient ref client).state.attached = path.attached := by
  unfold removeClient getInitiator
  grind [Call.state]

@[simp]
theorem removeClient_number :
    (path.removeClient ref client).state.number = path.number := by
  unfold removeClient getInitiator
  grind [Call.state]

@[simp]
theorem removeClient_initiatorKey :
    (path.removeClient ref client).state.initiatorKey = path.initiatorKey := by
  unfold removeClient getInitiator
  grind [Call.state]

theorem removeClient_pending :
    (path.removeClient ref client).state.pending =
      if path.attached then path.pending.erase ref else path.pending := by
  unfold removeClient getInitiator
  grind [Call.state, Finset.erase_eq_of_notMem]

theorem removeClient_initiator :
    (path.removeClient ref client).state.initiator =
      if path.attached ∧ client.state ≠ .restricted ∧ client.id = initiatorAddress ∧
          path.initiator = some ref then none
      else path.initiator := by
  unfold removeClient getInitiator
  grind [Call.state]

theorem removeClient_responders (id : ResponderAddress) :
    (path.removeClient ref client).state.responders.get? id =
      if path.attached ∧ RemovesSlot client id then none
      else path.responders.get? id := by
  have onlyOwn : ∀ slot, ResponderAddress.ofNat client.id.1 = .ok slot →
      (client.id = id.toAddress ↔ id = slot) := by
    intro slot converted
    rw [Subtype.ext_iff, Subtype.ext_iff, ResponderAddress.toAddress_val,
      ResponderAddress.ofNat_eq_ok converted]
    exact eq_comm
  have notInitiator : client.id = id.toAddress → client.id ≠ initiatorAddress := by
    intro same
    rw [same]
    exact id.ne_initiatorAddress
  have converts : client.id = id.toAddress →
      ResponderAddress.ofNat client.id.1 = .ok id := by
    intro same
    rw [same]
    exact ResponderAddress.ofNat_val id
  unfold removeClient getInitiator RemovesSlot
  grind [Call.state]

end RemoveClient

end Path

end SaltyRtcServer
