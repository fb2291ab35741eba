import SaltyRtcServer.Introduction

/-!
# What clients are told about who is present

A client learns from its server-auth message and from the messages in its queue who
is present under an address.  The departure of a client is reported by its own
handler, long after the client has left the path.
-/

namespace SaltyRtcServer

open StepMachine

/-- What a message says about an address. -/
inductive PresenceReport
  | present
  | absent
  deriving DecidableEq

def OutgoingMessage.presence? (address : Address) : OutgoingMessage → Option PresenceReport
  | .serverAuthInitiator responders =>
      if address ∈ responders.map ResponderAddress.toAddress then some .present else none
  | .serverAuthResponder _ connected =>
      if connected ∧ address = initiatorAddress then some .present else none
  | .newInitiator _ => if address = initiatorAddress then some .present else none
  | .newResponder id => if address = id.toAddress then some .present else none
  | .disconnected _ id => if address = id then some .absent else none
  | _ => none

/-- A message about presence that was created or submitted to the queue of the client, which
discards what it gets after it was closed. -/
def Event.presence? (client : ClientRef) (address : Address) : Event → Option PresenceReport
  | .created ref message _ | .submitted ref message _ =>
      if ref = client then message.presence? address else none
  | _ => none

/-- A task that is about to put such a message in the queue. -/
def TaskBody.presence? (client : ClientRef) (address : Address) : TaskBody → Option PresenceReport
  | .enqueue ref message => if ref = client then message.presence? address else none
  | _ => none

/-- The handler has given up its client and has not reported its departure. -/
def Handler.leaving : Handler → Bool
  | .joining _ | .cancellingJoin _ | .joined _ => true
  | _ => false

/-- The client that is stored under an address. -/
def Path.occupant (path : Path) (address : Address) : Option ClientRef :=
  if address = initiatorAddress then path.initiator
  else
    match ResponderAddress.ofNat address.1 with
    | .error _ => none
    | .ok id => path.responders.get? id

theorem ResponderAddress.toAddress_ne_initiator (id : ResponderAddress) :
    id.toAddress ≠ initiatorAddress := by
  intro same
  have value : id.1 = 0x01 := congrArg Subtype.val same
  have := id.2.1
  omega

namespace Path

@[simp]
theorem occupant_initiator (path : Path) : path.occupant initiatorAddress = path.initiator :=
  if_pos rfl

@[simp]
theorem occupant_responder (path : Path) (id : ResponderAddress) :
    path.occupant id.toAddress = path.responders.get? id := by
  rw [occupant, if_neg id.toAddress_ne_initiator, ResponderAddress.toAddress_val,
    ResponderAddress.ofNat_val]

/-- Who is stored is the initiator or a responder. -/
theorem occupant_cases {path : Path} {address : Address} {ref : ClientRef}
    (stored : path.occupant address = some ref) :
    address = initiatorAddress ∧ path.initiator = some ref ∨
      ∃ id : ResponderAddress, address = id.toAddress ∧ path.responders.get? id = some ref := by
  unfold occupant at stored
  split at stored
  · next same => exact .inl ⟨same, stored⟩
  · right
    split at stored
    · contradiction
    · next id converted =>
      exact ⟨id, Subtype.ext (ResponderAddress.ofNat_eq_ok converted).symm, stored⟩

theorem PartOf.occupant {path whole : Path} (part : path.PartOf whole) {address : Address}
    {ref : ClientRef} (stored : path.occupant address = some ref) :
    whole.occupant address = some ref := by
  rcases occupant_cases stored with ⟨rfl, isInitiator⟩ | ⟨id, rfl, isResponder⟩
  · rw [occupant_initiator]
    exact part.initiator ref isInitiator
  · rw [occupant_responder]
    exact part.responder id ref isResponder

end Path

namespace PathSystem

/-- A call that authenticates nobody changes no id. -/
theorem id_of_plain {moves : ClientRef → Prop} {system next : PathSystem}
    {call : PathSystem.Action} (stepped : system.step call = some next) (plain : call.Plain moves)
    (ref : ClientRef) : (next.client ref).id = (system.client ref).id := by
  cases call with
  | connect _ | setInitiator _ | addResponder _ => exact plain.elim
  | setType other type =>
      simp only [step, setType] at stepped
      split at stepped
      · injection stepped with same
        subst same
        by_cases same : ref = other <;> simp [same]
      · contradiction
  | drop other =>
      simp only [step, dropClient, remove] at stepped
      split at stepped
      · contradiction
      · injection stepped with same
        subst same
        by_cases same : ref = other <;> simp [same]
  | leave other =>
      simp only [step, PathSystem.leave, remove] at stepped
      split at stepped
      · injection stepped with same
        subst same
        rfl
      · contradiction
  | clean =>
      injection stepped with same
      subst same
      rfl

theorem client_of_connect {system next : PathSystem} {ref other : ClientRef}
    (joined : system.step (.connect ref) = some next) (ne : other ≠ ref) :
    next.client other = system.client other := by
  simp only [step] at joined
  split at joined
  · split at joined
    · contradiction
    · injection joined with same
      subst same
      exact Function.update_of_ne ne _ _
  · contradiction

theorem afterSetInitiator_id (system : PathSystem) {ref other : ClientRef} (ne : other ≠ ref)
    (state : Path × PathClient) (previous : Option ClientRef) :
    ((system.afterSetInitiator ref (.returned state previous)).client other).id =
      (system.client other).id := by
  cases previous with
  | none => simp [afterSetInitiator, ne]
  | some previous =>
      by_cases same : other = previous
      · subst same
        simp [afterSetInitiator, dropClient, remove, ne]
      · simp [afterSetInitiator, dropClient, remove, ne, same]

theorem afterAddResponder_id (system : PathSystem) {ref other : ClientRef} (ne : other ≠ ref)
    (state : Path × PathClient) (id : ResponderAddress) :
    ((system.afterAddResponder ref (.returned state id)).client other).id =
      (system.client other).id := by
  simp [afterAddResponder, ne]

end PathSystem

namespace Server

variable (server : Server) (client : ClientRef) (address : Address)

/-- What a client was told about an address. -/
def told : List PresenceReport := server.history.filterMap (Event.presence? client address)

/-- What it will be told by tasks that have been created for this. -/
def telling : List PresenceReport := server.loop.pending.filterMap (TaskBody.presence? client address)

/-- The messages for a client about an address, in the order in which they are
enqueued. -/
def presence : List PresenceReport := server.told client address ++ server.telling client address

/-- The address that the action reports as disconnected, if there is somebody to
report it to. -/
def reportsAbsent (server : Server) : Action → Option Address
  | .dispatch ref =>
      match server.handler ref with
      | .joined _ =>
          if (server.system.client ref).state = .authenticated then
            match (server.system.client ref).type with
            | some .initiator =>
                if server.system.path.responders.length = 0 then none else some initiatorAddress
            | some .responder =>
                if server.system.path.initiator.isSome then some (server.system.client ref).id
                else none
            | _ => none
          else none
      | _ => none
  | _ => none

/-- No address is reported as disconnected while it is occupied. -/
def ReportsVacant (server : Server) (action : Action) : Prop :=
  ∀ address ∈ server.reportsAbsent action, server.system.path.occupant address = none

instance (server : Server) (action : Action) : Decidable (server.ReportsVacant action) :=
  inferInstanceAs (Decidable (∀ address ∈ server.reportsAbsent action, _ = _))

/-- The last message about an occupied address does not say that it is vacant. -/
structure Truthful (server : Server) : Prop where
  last : ∀ own client address other, server.system.path.occupant own = some client →
    server.system.path.occupant address = some other → other ≠ client →
      (server.presence client address).getLast? ≠ some .absent
  known : ∀ client address, server.presence client address ≠ [] →
    .authenticated client ∈ server.history
  responders : ∀ client address, (server.system.client client).id ≠ initiatorAddress →
    address ≠ initiatorAddress → .absent ∉ server.presence client address
  tasks : ∀ client address, server.telling client address ≠ [] → address = initiatorAddress

section Observations

variable {server before after : Server} {client : ClientRef} {address : Address}

/-- Reports that say present do not make the last one say absent. -/
theorem last_insert {early late new newer : List PresenceReport}
    (last : (early ++ late).getLast? ≠ some .absent) (present : .absent ∉ new ++ newer) :
    (early ++ new ++ (late ++ newer)).getLast? ≠ some .absent := by
  rw [List.mem_append, not_or] at present
  intro ends
  simp only [List.getLast?_append, Option.or_eq_some_iff, Option.or_eq_none_iff] at last ends
  rcases ends with (newest | ⟨_, ofLate⟩) | ⟨⟨_, noLate⟩, ofNew | ⟨_, ofEarly⟩⟩
  · exact present.2 (List.mem_of_getLast? newest)
  · exact last (by simp [ofLate])
  · exact present.1 (List.mem_of_getLast? ofNew)
  · exact last (by simp [noLate, ofEarly])

theorem last_of_present {early new : List PresenceReport} (nonempty : new ≠ [])
    (present : .absent ∉ new) : (early ++ new).getLast? ≠ some .absent := by
  rw [List.getLast?_append_of_ne_nil _ nonempty]
  exact fun ends => present (List.mem_of_getLast? ends)

theorem told_append {events : List Event} (history : after.history = before.history ++ events) :
    after.told client address =
      before.told client address ++ events.filterMap (Event.presence? client address) := by
  rw [told, history, List.filterMap_append]
  rfl

theorem telling_append {bodies : List TaskBody}
    (pending : after.loop.pending = before.loop.pending ++ bodies) :
    after.telling client address =
      before.telling client address ++ bodies.filterMap (TaskBody.presence? client address) := by
  rw [telling, pending, List.filterMap_append]
  rfl

/-- Nothing is said that was not on its way. -/
theorem Truthful.of_same (truthful : before.Truthful)
    (path : after.system.path.PartOf before.system.path)
    (ids : ∀ client, (after.system.client client).id = (before.system.client client).id ∨
      .authenticated client ∉ before.history)
    (history : before.history <+: after.history)
    (presence : ∀ client address, after.presence client address = before.presence client address)
    (telling : ∀ client address, after.telling client address ≠ [] →
      before.telling client address ≠ []) : after.Truthful := by
  constructor
  · intro own client address other isClient isOther ne
    rw [presence]
    exact truthful.last own client address other (path.occupant isClient) (path.occupant isOther) ne
  · intro client address nonempty
    rw [presence] at nonempty
    exact history.subset (truthful.known client address nonempty)
  · intro client address notInitiator ne mem
    rw [presence] at mem
    rcases ids client with same | unauthenticated
    · exact truthful.responders client address (same ▸ notInitiator) ne mem
    · exact unauthenticated (truthful.known client address (List.ne_nil_of_mem mem))
  · exact fun client address nonempty => truthful.tasks client address (telling _ _ nonempty)

/-- Events and tasks that say nothing about presence are added. -/
theorem Truthful.of_quiet (truthful : before.Truthful)
    (path : after.system.path.PartOf before.system.path)
    (ids : ∀ client, (after.system.client client).id = (before.system.client client).id ∨
      .authenticated client ∉ before.history) {events : List Event} {bodies : List TaskBody}
    (history : after.history = before.history ++ events)
    (pending : after.loop.pending = before.loop.pending ++ bodies)
    (quiet : ∀ event ∈ events, ∀ client address, event.presence? client address = none)
    (silent : ∀ body ∈ bodies, ∀ client address, body.presence? client address = none) :
    after.Truthful := by
  have toldNothing : ∀ client address, events.filterMap (Event.presence? client address) = [] :=
    fun client address => List.filterMap_eq_nil_iff.mpr fun event mem => quiet event mem _ _
  have tellingNothing : ∀ client address,
      bodies.filterMap (TaskBody.presence? client address) = [] :=
    fun client address => List.filterMap_eq_nil_iff.mpr fun body mem => silent body mem _ _
  have tellingSame : ∀ client address,
      after.telling client address = before.telling client address := by
    intro client address
    rw [telling_append pending, tellingNothing, List.append_nil]
  refine truthful.of_same path ids ⟨events, history.symm⟩ (fun client address => ?_)
    fun client address nonempty => by rwa [tellingSame] at nonempty
  rw [presence, presence, told_append history, toldNothing, List.append_nil, tellingSame]

/-- Something is said, which must not be that an occupied address is vacant. -/
theorem Truthful.of_appended (truthful : before.Truthful) {events : List Event}
    {bodies : List TaskBody} (history : after.history = before.history ++ events)
    (pending : after.loop.pending = before.loop.pending ++ bodies)
    (last : ∀ own client address other, after.system.path.occupant own = some client →
      after.system.path.occupant address = some other → other ≠ client →
        before.system.path.occupant own = some client ∧
            before.system.path.occupant address = some other ∧
            .absent ∉ events.filterMap (Event.presence? client address) ++
              bodies.filterMap (TaskBody.presence? client address) ∨
          (after.presence client address).getLast? ≠ some .absent)
    (known : ∀ client address, events.filterMap (Event.presence? client address) ++
      bodies.filterMap (TaskBody.presence? client address) ≠ [] →
        .authenticated client ∈ after.history)
    (ids : ∀ client, (after.system.client client).id = (before.system.client client).id ∨
      .authenticated client ∉ before.history)
    (responders : ∀ client address, (after.system.client client).id ≠ initiatorAddress →
      address ≠ initiatorAddress → .absent ∉ events.filterMap (Event.presence? client address))
    (tasks : ∀ client address, bodies.filterMap (TaskBody.presence? client address) ≠ [] →
      address = initiatorAddress) : after.Truthful := by
  have appended : ∀ client address, after.presence client address =
      before.told client address ++ events.filterMap (Event.presence? client address) ++
        (before.telling client address ++
          bodies.filterMap (TaskBody.presence? client address)) := by
    intro client address
    rw [presence, told_append history, telling_append pending]
  constructor
  · intro own client address other isClient isOther ne
    rcases last own client address other isClient isOther ne with ⟨was, wasOther, new⟩ | direct
    · rw [appended]
      exact last_insert (truthful.last own client address other was wasOther ne) new
    · exact direct
  · intro client address nonempty
    by_cases old : before.presence client address = []
    · refine known client address fun none => nonempty ?_
      rw [presence, List.append_eq_nil_iff] at old
      rw [List.append_eq_nil_iff] at none
      rw [appended, old.1, old.2, none.1, none.2]
      rfl
    · rw [history]
      exact List.mem_append_left _ (truthful.known client address old)
  · intro client address notInitiator ne mem
    have old : .absent ∉ before.presence client address := by
      intro wasAbsent
      rcases ids client with same | unauthenticated
      · exact truthful.responders client address (same ▸ notInitiator) ne wasAbsent
      · exact unauthenticated (truthful.known client address (List.ne_nil_of_mem wasAbsent))
    rw [presence, List.mem_append, not_or] at old
    rw [appended] at mem
    have newTasks : bodies.filterMap (TaskBody.presence? client address) = [] := by
      by_contra nonempty
      exact ne (tasks client address nonempty)
    simp only [List.mem_append, newTasks, List.not_mem_nil, or_false] at mem
    rcases mem with (wasTold | new) | wasTelling
    · exact old.1 wasTold
    · exact responders client address notInitiator ne new
    · exact old.2 wasTelling
  · intro client address nonempty
    by_cases old : before.telling client address = []
    · refine tasks client address fun none => nonempty ?_
      rw [telling_append pending, old, none]
      rfl
    · exact truthful.tasks client address old

theorem Truthful.calm {moves : ClientRef → Prop} (truthful : before.Truthful)
    (wellFormed : before.loop.WellFormed) (calm : Calm moves before after) :
    after.Truthful := by
  obtain ⟨events, history, silent⟩ := calm.history
  obtain ⟨bodies, pending, closes⟩ := calm.loop.pending wellFormed
  refine truthful.of_quiet ?_ (fun client => .inl (by rw [calm.system])) history pending ?_ ?_
  · rw [calm.system]
    exact .refl _
  · intro event mem client address
    have := silent event mem
    cases event <;> simp_all [Event.Silent, Event.presence?]
  · intro body mem client address
    have := closes body mem
    unfold TaskBody.IsClose at this
    split at this
    · rfl
    · contradiction

theorem Truthful.connect (truthful : before.Truthful) (stages : before.StagesSound)
    {ref : ClientRef} {csn : Nat} (stepped : before.connect ref csn = some after) :
    after.Truthful := by
  unfold Server.connect at stepped
  split at stepped
  · rw [Option.map_eq_some_iff] at stepped
    obtain ⟨system, joined, rfl⟩ := stepped
    refine truthful.of_quiet (PathSystem.partOf_of_connect joined) (fun client => ?_)
      (List.append_nil _).symm (List.append_nil _).symm (List.forall_mem_nil _)
      (List.forall_mem_nil _)
    by_cases same : client = ref
    · subst same
      right
      intro mem
      have stage := stages.authenticated client mem
      rw [(stages_of_connect joined).1] at stage
      simp at stage
    · left
      rw [PathSystem.client_of_connect joined same]
  · contradiction

/-- A message that says nothing about presence is submitted. -/
theorem Truthful.submit (truthful : before.Truthful) (ref : ClientRef) {message : OutgoingMessage}
    (quiet : ∀ address, message.presence? address = none) :
    (before.submit ref message).Truthful := by
  refine truthful.of_quiet ?_ (fun client => .inl ?_) (submit_history _ _ _) ?_ ?_
    (List.forall_mem_nil _)
  · rw [submit_system]
    exact .refl _
  · rw [submit_system]
  · rw [submit_loop, List.append_nil]
  · intro event mem client address
    rw [List.mem_singleton.mp mem]
    simp [Event.presence?, quiet]

theorem Truthful.log (truthful : before.Truthful) {event : Event}
    (quiet : ∀ client address, event.presence? client address = none) :
    (before.log event).Truthful := by
  refine truthful.of_quiet (.refl _) (fun client => .inl rfl) rfl (List.append_nil _).symm ?_
    (List.forall_mem_nil _)
  intro other mem
  rw [List.mem_singleton.mp mem]
  exact quiet

theorem Truthful.setHandler (truthful : before.Truthful) (ref : ClientRef) (next : Handler) :
    (before.setHandler ref next).Truthful :=
  truthful.of_quiet (.refl _) (fun _ => .inl rfl) (List.append_nil _).symm
    (List.append_nil _).symm (List.forall_mem_nil _) (List.forall_mem_nil _)

theorem telling_startHead {id : TaskId} {rest : List TaskId} (ready : before.loop.ready = id :: rest)
    (status : TaskStatus PyException) :
    before.telling client address =
      ((before.loop.task id).body.presence? client address).toList ++
        (before.startHead id status).telling client address := by
  simp only [telling, startHead, EventLoop.pending_setStatus,
    EventLoop.pending_of_ready ready, List.filterMap_cons]
  cases TaskBody.presence? client address (before.loop.task id).body <;> rfl

/-- A task starts that says nothing about presence. -/
theorem Truthful.startHead (truthful : before.Truthful) {id : TaskId} {rest : List TaskId}
    (ready : before.loop.ready = id :: rest) (status : TaskStatus PyException)
    (quiet : ∀ client message, (before.loop.task id).body ≠ .enqueue client message) :
    (before.startHead id status).Truthful := by
  have telling : ∀ client address, (before.startHead id status).telling client address =
      before.telling client address := by
    intro _ _
    rw [telling_startHead ready status]
    cases body : (before.loop.task id).body with
    | run _ _ => rfl
    | enqueue _ _ => exact absurd body (quiet _ _)
  refine truthful.of_same (.refl _) (fun _ => .inl rfl) (List.prefix_refl _)
    (fun _ _ => ?_) fun _ _ nonempty => by rwa [telling] at nonempty
  rw [presence, presence, telling]
  rfl

/-- A task that tells something says it when its turn has come. -/
theorem Truthful.enqueued (truthful : before.Truthful) {id : TaskId} {rest : List TaskId}
    {ref : ClientRef} {message : OutgoingMessage} (ready : before.loop.ready = id :: rest)
    (body : (before.loop.task id).body = .enqueue ref message) :
    ((before.startHead id (.done .finished)).submit ref message).Truthful := by
  have telling : ∀ client address,
      ((before.startHead id (.done .finished)).submit ref message).telling client address =
        (before.startHead id (.done .finished)).telling client address := by
    intro client address
    rw [Server.telling, submit_loop]
    rfl
  have history := submit_history (before.startHead id (.done .finished)) ref message
  refine truthful.of_same ?_ (fun client => .inl ?_) ⟨_, history.symm⟩ (fun client address => ?_) ?_
  · rw [submit_system]
    exact .refl _
  · rw [submit_system]
    rfl
  · rw [presence, presence, telling, told_append history,
      telling_startHead ready (.done .finished), body]
    simp only [List.filterMap_cons, List.filterMap_nil, Event.presence?, TaskBody.presence?]
    by_cases same : ref = client
    · simp only [same, if_true, List.append_assoc]
      cases message.presence? address <;> rfl
    · simp only [same, if_false, List.append_assoc]
      rfl
  · intro client address nonempty none
    apply nonempty
    rw [telling]
    rw [telling_startHead ready (.done .finished), List.append_eq_nil_iff] at none
    exact none.2

/-- A departure is reported while nobody has taken the address. -/
theorem Truthful.disconnectedResponder (truthful : before.Truthful) (stages : before.StagesSound)
    {initiator : ClientRef} {address : Address}
    (isInitiator : before.system.path.initiator = some initiator)
    (vacant : before.system.path.occupant address = none) :
    (before.submit initiator (.disconnected initiatorAddress address)).Truthful := by
  have history := submit_history before initiator (.disconnected initiatorAddress address)
  have consistent := (PathSystem.consistent_of_reachable stages.system).initiator initiator
    isInitiator
  have observed : ∀ client other, [Event.submitted initiator
      (.disconnected initiatorAddress address) (before.nextNumber initiator)].filterMap
        (Event.presence? client other) =
          if initiator = client ∧ other = address then [.absent] else [] := by
    intro client other
    simp only [List.filterMap_cons, List.filterMap_nil, Event.presence?,
      OutgoingMessage.presence?]
    grind
  have pending : (before.submit initiator (.disconnected initiatorAddress address)).loop.pending =
      before.loop.pending ++ [] := by rw [submit_loop, List.append_nil]
  apply truthful.of_appended history pending
  · rw [submit_system]
    refine fun own client other occupant isClient isOther ne => .inl ⟨isClient, isOther, ?_⟩
    rw [observed]
    split
    · next same =>
      rw [same.2, vacant] at isOther
      contradiction
    · simp
  · intro client other nonempty
    rw [observed] at nonempty
    rw [history]
    apply List.mem_append_left _
    split at nonempty
    · next same => exact same.1 ▸ stages.established initiator consistent.1
    · simp at nonempty
  · exact fun client => .inl (by rw [submit_system])
  · intro client other notInitiator ne mem
    rw [observed] at mem
    split at mem
    · next same =>
      rw [submit_system, ← same.1] at notInitiator
      exact notInitiator consistent.2.2
    · contradiction
  · simp

/-- The messages that are gathered go to the stored responders. -/
theorem telling_responders {server : Server} {message : ResponderAddress → OutgoingMessage}
    {report : PresenceReport}
    (reported : ∀ id other, (message id).presence? other =
      if other = initiatorAddress then some report else none) (other : Address) :
    ∀ said ∈ ((server.toResponders message).map fun message =>
      TaskBody.enqueue message.1 message.2).filterMap (TaskBody.presence? client other),
      said = report ∧ other = initiatorAddress ∧
        ∃ id, server.system.path.responders.get? id = some client := by
  intro said mem
  obtain ⟨body, bodyMem, observed⟩ := List.mem_filterMap.mp mem
  obtain ⟨sent, sentMem, rfl⟩ := List.mem_map.mp bodyMem
  obtain ⟨⟨id, stored⟩, entry, rfl⟩ := List.mem_map.mp sentMem
  simp only [TaskBody.presence?, reported] at observed
  split at observed
  · next same =>
    subst same
    split at observed
    · next initiatorOnly =>
      injection observed with same
      exact ⟨same.symm, initiatorOnly, id, PythonDict.get?_of_mem_entries entry⟩
    · contradiction
  · contradiction

theorem newInitiator_presence (id : ResponderAddress) (other : Address) :
    (OutgoingMessage.newInitiator id).presence? other =
      if other = initiatorAddress then some .present else none :=
  rfl

theorem disconnected_presence (id : ResponderAddress) (other : Address) :
    (OutgoingMessage.disconnected id.toAddress initiatorAddress).presence? other =
      if other = initiatorAddress then some .absent else none :=
  rfl

/-- The departure of the initiator is reported while there is no other one. -/
theorem Truthful.disconnectedInitiator (truthful : before.Truthful) (stages : before.StagesSound)
    (wellFormed : before.loop.WellFormed) {ids : List TaskId}
    (gathers : before.gather (before.toResponders fun id =>
      .disconnected id.toAddress initiatorAddress) = (after, ids))
    (vacant : before.system.path.responders.length ≠ 0 → before.system.path.initiator = none) :
    after.Truthful := by
  obtain ⟨rfl, _⟩ := gather_eq gathers
  have reports := fun client other => @telling_responders client before
    (fun id => .disconnected id.toAddress initiatorAddress) .absent disconnected_presence other
  refine truthful.of_appended (List.append_nil _).symm
    (EventLoop.pending_spawnAll wellFormed _) ?_ ?_ (fun client => .inl rfl) (by simp) ?_
  · refine fun own client other occupant isClient isOther ne => .inl ⟨isClient, isOther, ?_⟩
    intro mem
    obtain ⟨_, rfl, id, stored⟩ := reports client other _ mem
    have occupied : before.system.path.responders.length ≠ 0 := by
      rw [Ne, PythonDict.length_eq_zero_iff]
      exact fun none => by simp [none] at stored
    rw [Path.occupant_initiator, vacant occupied] at isOther
    contradiction
  · intro client other nonempty
    obtain ⟨said, mem⟩ := List.exists_mem_of_ne_nil _ nonempty
    obtain ⟨_, _, id, stored⟩ := reports client other said mem
    have consistent := PathSystem.consistent_of_reachable stages.system
    exact stages.established client (consistent.responder id client stored).1
  · intro client other nonempty
    obtain ⟨said, mem⟩ := List.exists_mem_of_ne_nil _ nonempty
    exact (reports client other said mem).2.1

/-- The list of the initiator says only that responders are present. -/
theorem Truthful.list_created (truthful : before.Truthful) {ref : ClientRef}
    {ids : List ResponderAddress} {initiator : Option ClientRef}
    (authenticated : .authenticated ref ∈ before.history) :
    (before.log (.created ref (.serverAuthInitiator ids) initiator)).Truthful := by
  have observed : ∀ client other, ∀ said ∈ [Event.created ref (.serverAuthInitiator ids)
      initiator].filterMap (Event.presence? client other), said = .present ∧ client = ref := by
    intro client other said mem
    simp only [List.filterMap_cons, List.filterMap_nil, Event.presence?,
      OutgoingMessage.presence?] at mem
    grind
  have history : (before.log (.created ref (.serverAuthInitiator ids) initiator)).history =
      before.history ++ [.created ref (.serverAuthInitiator ids) initiator] := rfl
  refine truthful.of_appended history (List.append_nil _).symm ?_ ?_ (fun _ => .inl rfl) ?_
    (by simp)
  · refine fun own client other occupant isClient isOther ne => .inl ⟨isClient, isOther, ?_⟩
    rw [List.filterMap_nil, List.append_nil]
    intro mem
    have := (observed client other _ mem).1
    contradiction
  · intro client other nonempty
    rw [List.filterMap_nil, List.append_nil] at nonempty
    obtain ⟨said, mem⟩ := List.exists_mem_of_ne_nil _ nonempty
    rw [(observed client other said mem).2, history]
    exact List.mem_append_left _ authenticated
  · intro client other _ _ mem
    have := (observed client other _ mem).1
    contradiction

/-- Before its authentication a client is told nothing. -/
theorem Truthful.unknown (truthful : before.Truthful) {ref : ClientRef}
    (unauthenticated : .authenticated ref ∉ before.history) (address : Address) :
    before.presence ref address = [] := by
  by_contra nonempty
  exact unauthenticated (truthful.known ref address nonempty)

theorem StagesSound.unauthenticated (stages : before.StagesSound) {ref : ClientRef}
    (handshaking : before.system.stage ref = .handshaking) :
    .authenticated ref ∉ before.history := by
  intro mem
  have stage := stages.authenticated ref mem
  rw [handshaking] at stage
  simp at stage

/-- The responders are about to be told that there is an initiator now. -/
theorem Truthful.initiator_set {ref : ClientRef} {dropped : Server} {state : Path × PathClient}
    {previous : Option ClientRef} {ids : List TaskId} {moves : ClientRef → Prop}
    (truthful : before.Truthful) (stages : before.StagesSound)
    (wellFormed : before.loop.WellFormed)
    (handshaking : before.system.stage ref = .handshaking)
    (returned : before.system.path.setInitiator ref (before.system.client ref) =
      .returned state previous)
    (calm : Calm moves ({ before with
      system := before.system.afterSetInitiator ref (.returned state previous) }.log
        (.authenticated ref)) dropped)
    (loop : dropped.loop = before.loop)
    (gathers : dropped.gather (dropped.toResponders .newInitiator) = (after, ids)) :
    after.Truthful := by
  obtain ⟨isNew, kept⟩ := PathSystem.afterSetInitiator_path returned
  obtain ⟨same, _⟩ := gather_eq gathers
  obtain ⟨events, droppedHistory, silent⟩ := calm.history
  have system : after.system = before.system.afterSetInitiator ref (.returned state previous) := by
    rw [same]
    exact calm.system
  have history : after.history = before.history ++ (.authenticated ref :: events) := by
    rw [same]
    exact droppedHistory.trans (List.append_assoc _ _ _)
  have pending : after.loop.pending = before.loop.pending ++
      ((dropped.toResponders .newInitiator).map fun message => .enqueue message.1 message.2) := by
    rw [same, ← loop]
    exact EventLoop.pending_spawnAll (loop ▸ wellFormed) _
  have quiet : ∀ client address,
      (Event.authenticated ref :: events).filterMap (Event.presence? client address) = [] := by
    intro client address
    rw [List.filterMap_eq_nil_iff]
    intro event mem
    rcases List.mem_cons.mp mem with rfl | late
    · rfl
    · have := silent event late
      cases event <;> simp_all [Event.Silent, Event.presence?]
  have unauthenticated := stages.unauthenticated handshaking
  have reports := fun client other => @telling_responders client dropped .newInitiator .present
    newInitiator_presence other
  have present : ∀ client address, .absent ∉ ((dropped.toResponders .newInitiator).map
      fun message => TaskBody.enqueue message.1 message.2).filterMap
        (TaskBody.presence? client address) := by
    intro client address mem
    have := (reports client address _ mem).1
    contradiction
  have storedAfter : ∀ id client, after.system.path.responders.get? id = some client →
      before.system.path.responders.get? id = some client := by
    rw [system]
    exact kept
  apply truthful.of_appended history pending
  · intro own client address other isClient isOther ne
    rcases Path.occupant_cases isClient with ⟨rfl, isInitiator⟩ | ⟨id, rfl, isResponder⟩
    · -- The new initiator itself was told nothing before.
      right
      rw [system] at isInitiator
      obtain rfl := isNew client isInitiator
      have unknown := truthful.unknown unauthenticated address
      rw [presence, List.append_eq_nil_iff] at unknown
      rw [presence, told_append history, telling_append pending, quiet, unknown.1, unknown.2]
      exact fun ends => present client address (List.mem_of_getLast? ends)
    · rcases Path.occupant_cases isOther with ⟨rfl, isInitiator⟩ | ⟨slot, rfl, isOtherResponder⟩
      · -- A task tells each stored responder.
        right
        rw [presence, telling_append pending, ← List.append_assoc]
        refine last_of_present ?_ (present client _)
        have entry : (id, client) ∈ dropped.system.path.responders.entries := by
          apply PythonDict.mem_entries_of_get?
          rw [same] at isResponder
          exact isResponder
        have body : TaskBody.enqueue client (.newInitiator id) ∈
            (dropped.toResponders .newInitiator).map fun message =>
              .enqueue message.1 message.2 := by
          rw [toResponders, List.map_map]
          exact List.mem_map.mpr ⟨_, entry, rfl⟩
        have report : PresenceReport.present ∈ ((dropped.toResponders .newInitiator).map
            fun message => TaskBody.enqueue message.1 message.2).filterMap
              (TaskBody.presence? client initiatorAddress) :=
          List.mem_filterMap.mpr ⟨_, body, by simp [TaskBody.presence?, newInitiator_presence]⟩
        exact List.ne_nil_of_mem report
      · left
        rw [Path.occupant_responder, Path.occupant_responder, quiet]
        exact ⟨storedAfter id client isResponder, storedAfter slot other isOtherResponder,
          present client _⟩
  · intro client address nonempty
    rw [quiet, List.nil_append] at nonempty
    obtain ⟨said, mem⟩ := List.exists_mem_of_ne_nil _ nonempty
    obtain ⟨_, _, id, found⟩ := reports client address said mem
    have consistent := PathSystem.consistent_of_reachable stages.system
    have stored : before.system.path.responders.get? id = some client := by
      apply storedAfter id client
      rw [same]
      exact found
    rw [history]
    exact List.mem_append_left _
      (stages.established client (consistent.responder id client stored).1)
  · intro client
    by_cases isRef : client = ref
    · exact .inr (isRef ▸ unauthenticated)
    · left
      rw [system]
      exact PathSystem.afterSetInitiator_id _ isRef _ _
  · intro client address _ _ mem
    rw [quiet] at mem
    contradiction
  · intro client address nonempty
    obtain ⟨said, mem⟩ := List.exists_mem_of_ne_nil _ nonempty
    exact (reports client address said mem).2.1

/-- The initiator is told about the new responder at once. -/
theorem Truthful.responder_added {ref : ClientRef} {state : Path × PathClient}
    {id : ResponderAddress} {events : List Event}
    (truthful : before.Truthful) (stages : before.StagesSound)
    (handshaking : before.system.stage ref = .handshaking)
    (returned : before.system.path.addResponder ref (before.system.client ref) =
      .returned state id)
    (system : after.system = before.system.afterAddResponder ref (.returned state id))
    (loop : after.loop = before.loop) (history : after.history = before.history ++ events)
    (authenticated : .authenticated ref ∈ events)
    (present : ∀ client address, ∀ said ∈ events.filterMap (Event.presence? client address),
      said = .present ∧ (client = ref ∨ before.system.path.initiator = some client))
    (announced : ∀ initiator, before.system.path.initiator = some initiator →
      events.filterMap (Event.presence? initiator id.toAddress) ≠ []) : after.Truthful := by
  obtain ⟨sameInitiator, responders⟩ := PathSystem.afterAddResponder_path returned
  have consistent := PathSystem.consistent_of_reachable stages.system
  have unauthenticated := stages.unauthenticated handshaking
  have telling : ∀ client address, after.telling client address = before.telling client address :=
    fun client address => by rw [Server.telling, loop, Server.telling]
  have onlyPresent : ∀ client address,
      .absent ∉ events.filterMap (Event.presence? client address) := by
    intro client address mem
    have := (present client address _ mem).1
    contradiction
  have pending : after.loop.pending = before.loop.pending ++ [] := by rw [loop, List.append_nil]
  have otherId : ∀ {own : Address} {client : ClientRef}, own ≠ id.toAddress →
      after.system.path.occupant own = some client →
        before.system.path.occupant own = some client := by
    intro own client ne occupied
    rcases Path.occupant_cases occupied with ⟨rfl, isInitiator⟩ | ⟨other, rfl, isResponder⟩
    · rw [Path.occupant_initiator]
      rwa [system, sameInitiator] at isInitiator
    · rw [Path.occupant_responder]
      rw [system, responders, if_neg] at isResponder
      · exact isResponder
      · rintro rfl
        exact ne rfl
  refine truthful.of_appended history pending ?_ ?_ ?_ ?_ (by simp)
  · intro own client address other isClient isOther ne
    have quietPresence : before.presence client address = [] →
        (after.presence client address).getLast? ≠ some .absent := by
      intro none
      rw [presence, List.append_eq_nil_iff] at none
      rw [presence, told_append history, telling, none.1, none.2, List.append_nil, List.nil_append]
      exact fun ends => onlyPresent client address (List.mem_of_getLast? ends)
    by_cases isRef : client = ref
    · subst isRef
      exact .inr (quietPresence (truthful.unknown unauthenticated address))
    by_cases ownId : own = id.toAddress
    · subst ownId
      rw [Path.occupant_responder, system, responders, if_pos rfl] at isClient
      exact absurd (Option.some.inj isClient).symm isRef
    have wasClient := otherId ownId isClient
    by_cases isNew : address = id.toAddress
    · right
      subst isNew
      rcases Path.occupant_cases wasClient with ⟨_, isInitiator⟩ | ⟨slot, _, isResponder⟩
      · have untold : before.telling client id.toAddress = [] := by
          by_contra nonempty
          exact id.toAddress_ne_initiator (truthful.tasks client _ nonempty)
        rw [presence, telling, untold, List.append_nil, told_append history]
        exact last_of_present (announced client isInitiator) (onlyPresent client _)
      · have own := (consistent.responder slot client isResponder).2.2
        have never := truthful.responders client id.toAddress
          (own ▸ slot.toAddress_ne_initiator) id.toAddress_ne_initiator
        rw [presence, List.mem_append, not_or] at never
        rw [presence, told_append history, telling]
        intro ends
        rcases List.mem_append.mp (List.mem_of_getLast? ends) with old | late
        · exact (List.mem_append.mp old).elim never.1 (onlyPresent client _)
        · exact never.2 late
    · left
      refine ⟨wasClient, otherId isNew isOther, ?_⟩
      rw [List.filterMap_nil, List.append_nil]
      exact onlyPresent client address
  · intro client address nonempty
    rw [List.filterMap_nil, List.append_nil] at nonempty
    obtain ⟨said, mem⟩ := List.exists_mem_of_ne_nil _ nonempty
    rw [history]
    rcases (present client address said mem).2 with rfl | isInitiator
    · exact List.mem_append_right _ authenticated
    · exact List.mem_append_left _
        (stages.established client (consistent.initiator client isInitiator).1)
  · intro client
    by_cases same : client = ref
    · exact .inr (same ▸ unauthenticated)
    · left
      rw [system]
      exact PathSystem.afterAddResponder_id _ same _ _
  · exact fun client address _ _ => onlyPresent client address

theorem Effect.truthful {origin : Server} {action : Action} {moves : ClientRef → Prop}
    (effect : Effect origin action moves before after) (vacant : origin.ReportsVacant action)
    (tasks : before.TasksSound) (stages : before.StagesSound) (truthful : before.Truthful) :
    after.Truthful := by
  have wellFormed := tasks.loop
  cases effect with
  | calm calm => exact truthful.calm wellFormed calm
  | path stepped plain _ =>
      exact truthful.of_quiet (PathSystem.partOf_of_plain stepped plain)
        (fun client => .inl (PathSystem.id_of_plain stepped plain client))
        (List.append_nil _).symm (List.append_nil _).symm (List.forall_mem_nil _)
        (List.forall_mem_nil _)
  | connect mover stepped => exact truthful.connect stages stepped
  | initiator _ _ _ _ handshaking returned calm _ loop gathers =>
      have gathered :=
        truthful.initiator_set stages wellFormed handshaking returned calm loop gathers
      split
      · exact gathered
      · exact gathered.setHandler _ _
  | @responder ref _ joined state id _ _ _ handshaking returned same =>
      have history : joined.history = before.history ++ [.authenticated ref] := by
        rw [same]
        rfl
      have system : joined.system =
          before.system.afterAddResponder ref (.returned state id) := by
        rw [same]
        rfl
      have loop : joined.loop = before.loop := by
        rw [same]
        rfl
      cases present : before.system.path.initiator with
      | none =>
          have grown : (joined.log (.created ref (.serverAuthResponder id false) none)).history =
              before.history ++ [.authenticated ref,
                .created ref (.serverAuthResponder id false) none] := by
            simp [Server.log, history]
          refine truthful.responder_added stages handshaking returned system loop grown
            List.mem_cons_self (fun client address said mem => ?_) (by simp [present])
          simp [List.filterMap_cons, Event.presence?, OutgoingMessage.presence?] at mem
      | some initiator =>
          have grown : ((joined.submit initiator (.newResponder id)).log
              (.created ref (.serverAuthResponder id true) (some initiator))).history =
              before.history ++ [.authenticated ref,
                .submitted initiator (.newResponder id) (joined.nextNumber initiator),
                .created ref (.serverAuthResponder id true) (some initiator)] := by
            simp [Server.log, submit_history, history]
          refine truthful.responder_added stages handshaking returned
            ((submit_system joined initiator (.newResponder id)).trans system)
            ((submit_loop joined initiator (.newResponder id)).trans loop) grown
            List.mem_cons_self (fun client address said mem => ?_) (fun other isOther => ?_)
          · obtain ⟨event, eventMem, observed⟩ := List.mem_filterMap.mp mem
            simp only [List.mem_cons, List.not_mem_nil, or_false] at eventMem
            rcases eventMem with rfl | rfl | rfl
            · contradiction
            · simp only [Event.presence?, OutgoingMessage.presence?] at observed
              grind
            · simp only [Event.presence?, OutgoingMessage.presence?] at observed
              grind
          · obtain rfl : initiator = other := Option.some.inj (present.symm.trans isOther)
            simp [List.filterMap_cons, Event.presence?, OutgoingMessage.presence?]
  | created established => exact truthful.list_created (stages.established _ established)
  | greeted => exact (truthful.setHandler _ _).log fun _ _ => rfl
  | serverAuth => exact (truthful.setHandler _ _).log fun _ _ => rfl
  | sendError => exact truthful.submit _ fun _ => rfl
  | @relay ref destination _ packet _ takes =>
      obtain ⟨bodies, pending, runs⟩ :=
        (submitTask_extends before destination (.relay packet)).pending wellFormed
      refine truthful.of_quiet (.refl _) (fun _ => .inl rfl) rfl pending ?_ ?_
      · intro event mem client address
        rw [List.mem_singleton.mp mem]
        simp [Event.presence?, OutgoingMessage.presence?]
      · intro body mem client address
        rw [runs body mem]
        rfl
  | @disconnectedResponder ref initiator closing isDispatch typed state joined isInitiator =>
      refine truthful.disconnectedResponder stages isInitiator (vacant _ ?_)
      simp [reportsAbsent, isDispatch, joined, state, typed, isInitiator]
  | @disconnectedInitiator ref closing gathered ids _ isDispatch typed state joined gathers =>
      have reported := truthful.disconnectedInitiator stages wellFormed gathers fun occupied => by
        rw [← Path.occupant_initiator]
        apply vacant _
        simp [reportsAbsent, isDispatch, joined, state, typed, occupied]
      split
      · exact reported
      · exact reported.setHandler _ _
  | @take ref coroutine _ _ _ _ =>
      refine truthful.of_quiet (.refl _) (fun _ => .inl rfl) (List.append_nil _).symm
        (EventLoop.pending_spawn wellFormed (.run ref coroutine)) (List.forall_mem_nil _) ?_
      intro body mem client address
      rw [List.mem_singleton.mp mem]
      rfl
  | @startEnded _ id _ outcome _ ready ends =>
      apply truthful.startHead ready _
      intro client message body
      rcases ends with requested | ⟨_, _, runs⟩
      · have created := wellFormed.created id (ready ▸ List.mem_cons_self)
        rw [tasks.enqueues id client message created body] at requested
        contradiction
      · rw [body] at runs
        contradiction
  | startClosing _ ready body => exact truthful.startHead ready _ (by simp [body])
  | handed _ ready _ body =>
      exact (truthful.startHead ready _ (by simp [body])).log fun _ _ => rfl
  | enqueued _ ready body => exact truthful.enqueued ready body
  | @ended _ id outcome =>
      have telling : ∀ client address, Server.telling { before with
          loop := before.loop.setStatus id (.done outcome) } client address =
            before.telling client address := by
        intro _ _
        rw [Server.telling, EventLoop.pending_setStatus, Server.telling]
      refine truthful.of_same (.refl _) (fun _ => .inl rfl) (List.prefix_refl _)
        (fun _ _ => ?_) fun _ _ nonempty => by rwa [telling] at nonempty
      rw [presence, presence, telling]
      rfl

end Observations

/-- Along every run in which departures are reported while nobody has the address, the
last message about an occupied address does not say that it is vacant: neither with nor
without the messages that are about to be enqueued. -/
theorem presence_ends_in_truth {server : Server} (reach : machine.Reach ReportsVacant server)
    {client other : ClientRef} {address : Address} (member : server.system.path.Member client)
    (occupied : server.system.path.occupant address = some other) (ne : other ≠ client) :
    (server.presence client address).getLast? ≠ some .absent ∧
      (server.telling client address = [] →
        (server.told client address).getLast? ≠ some .absent) := by
  have truthful : server.Truthful := by
    refine invariant_of_effects Truthful (fun initiatorKey number => ?_)
      (fun origin action before after _ vacant tasks stages truthful effect =>
        effect.truthful vacant tasks stages truthful) reach
    constructor <;> simp [Server.created, PathSystem.created, Path.new, presence, told, telling,
      EventLoop.pending, Path.occupant]
  have last : (server.presence client address).getLast? ≠ some .absent := by
    rcases member with pending | isInitiator | ⟨id, isResponder⟩
    · have sound := sound_of_reachable reach.reachable
      have handshaking := (sound.consistent.pending client pending).1
      simp [truthful.unknown (sound.stages.unauthenticated handshaking) address]
    · exact truthful.last initiatorAddress client address other
        (by rwa [Path.occupant_initiator]) occupied ne
    · exact truthful.last id.toAddress client address other
        (by rwa [Path.occupant_responder]) occupied ne
  refine ⟨last, fun none => ?_⟩
  rwa [presence, none, List.append_nil] at last

/-- The connection of a client is lost, and its handler leaves the path. -/
def leavePath (ref : ClientRef) : List Action :=
  [.connectionLost ref 1001, .receiveClosed ref 1001, .loopReported ref, .result ref]

/-- The job queue ends, and the departure is reported. -/
def reportDeparture (ref : ClientRef) : List Action :=
  [.runnerGet ref, .join ref, .dispatch ref]

/-- A responder leaves, and its successor joins after its departure was reported. -/
theorem presence_ends_in_truth_successor :
    ∃ server : Server, server.presence 0 ResponderAddress.lowest.toAddress =
        [.present, .absent, .present] ∧
      (server.presence 0 ResponderAddress.lowest.toAddress).getLast? ≠ some .absent := by
  have reach : machine.Reach ReportsVacant _ :=
    Machine.reach_run (.start (initial_created [0x61] 1))
      (joinInitiator 0 ++ joinResponder 1 ++ leavePath 1 ++ reportDeparture 1 ++ joinResponder 2)
      (by decide +kernel) rfl
  refine ⟨_, by decide +kernel, (@presence_ends_in_truth _ reach 0 2
    ResponderAddress.lowest.toAddress (.inr (.inl rfl)) (by decide +kernel) (by decide)).1⟩

/-- The handler has left the path and is still going to report that its address is
vacant. -/
def OwesReport (server : Server) (ref : ClientRef) (address : Address) : Prop :=
  (server.handler ref).leaving = true ∧ (server.system.client ref).state = .authenticated ∧
    (server.system.client ref).id = address

instance (server : Server) (ref : ClientRef) (address : Address) :
    Decidable (server.OwesReport ref address) :=
  inferInstanceAs (Decidable (_ ∧ _ ∧ _))

/-- The departure of a responder is reported after its successor was announced. -/
theorem departure_reported_late :
    ¬ ∀ server : Server, machine.Reachable server → ∀ client address other,
      server.system.path.Member client →
        (∀ ref ∈ server.protocols, ¬ server.OwesReport ref address) →
          server.system.path.occupant address = some other → other ≠ client →
            (server.presence client address).getLast? ≠ some .absent := by
  intro claimed
  have reachable : machine.Reachable _ := Machine.reachable_of_run (initial_created [0x61] 1)
    (joinInitiator 0 ++ joinResponder 1 ++ leavePath 1 ++ joinResponder 2 ++ reportDeparture 1) rfl
  exact claimed _ reachable 0 ResponderAddress.lowest.toAddress 2 (.inr (.inl rfl))
    (by decide +kernel) (by decide +kernel) (by decide) (by decide +kernel)

end Server

end SaltyRtcServer
