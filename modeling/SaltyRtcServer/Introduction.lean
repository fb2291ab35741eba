import SaltyRtcServer.ServerInvariant

/-!
# Initiators and responders learn of each other

Whoever of the two joins later is told about the other in its server-auth message,
and the other is told by a message in its queue.  The initiator handshake gives up
control in between: what it has still to tell the responders are tasks that it
waits for, and its list of responders is taken after that.
-/

namespace SaltyRtcServer

open StepMachine

/-- Everybody who is stored in this path is stored in the other in the same place. -/
structure Path.PartOf (path whole : Path) : Prop where
  initiator : ∀ ref, path.initiator = some ref → whole.initiator = some ref
  responder : ∀ id ref, path.responders.get? id = some ref → whole.responders.get? id = some ref

theorem Path.PartOf.refl (path : Path) : path.PartOf path :=
  ⟨fun _ => id, fun _ _ => id⟩

theorem Path.removeClient_partOf (path : Path) (ref : ClientRef) (client : PathClient) :
    (path.removeClient ref client).state.PartOf path := by
  constructor
  · intro other stored
    rw [removeClient_initiator] at stored
    split at stored
    · contradiction
    · exact stored
  · intro id other stored
    rw [removeClient_responders] at stored
    split at stored
    · contradiction
    · exact stored

namespace PathSystem

/-- A call that authenticates nobody puts nobody in a place. -/
theorem partOf_of_plain {moves : ClientRef → Prop} {system next : PathSystem}
    {call : PathSystem.Action} (stepped : system.step call = some next) (plain : call.Plain moves) :
    next.path.PartOf system.path := by
  cases call with
  | connect _ | setInitiator _ | addResponder _ => exact plain.elim
  | setType ref type =>
      simp only [step, setType] at stepped
      split at stepped
      · injection stepped with same
        subst same
        exact .refl _
      · contradiction
  | drop ref =>
      simp only [step] at stepped
      split at stepped
      · contradiction
      · injection stepped with same
        subst same
        exact Path.removeClient_partOf _ _ _
  | leave ref =>
      simp only [step] at stepped
      split at stepped
      · injection stepped with same
        subst same
        exact Path.removeClient_partOf _ _ _
      · contradiction
  | clean =>
      injection stepped with same
      subst same
      simp only [clean, cleanPath_eq]
      exact ⟨fun _ => id, fun _ _ => id⟩

theorem partOf_of_connect {system next : PathSystem} {ref : ClientRef}
    (joined : system.step (.connect ref) = some next) : next.path.PartOf system.path := by
  simp only [step, Path.addPending] at joined
  constructor <;> grind

/-- The new initiator takes its place, and a previous one gives it up. -/
theorem afterSetInitiator_path {system : PathSystem} {ref : ClientRef}
    {state : Path × PathClient} {previous : Option ClientRef}
    (returned : system.path.setInitiator ref (system.client ref) = .returned state previous) :
    (∀ other, (system.afterSetInitiator ref (.returned state previous)).path.initiator =
        some other → other = ref) ∧
      ∀ id other, (system.afterSetInitiator ref (.returned state previous)).path.responders.get?
        id = some other → system.path.responders.get? id = some other := by
  obtain ⟨_, _, _, _, path, _⟩ := Path.setInitiator_returned returned
  have placed : ∀ other, state.1.initiator = some other → other = ref := by
    intro other stored
    rw [path] at stored
    exact (Option.some.inj stored).symm
  have kept : ∀ id other, state.1.responders.get? id = some other →
      system.path.responders.get? id = some other := by
    rw [path]
    exact fun id other stored => stored
  cases previous with
  | none => exact ⟨placed, kept⟩
  | some previous =>
      have part : (system.afterSetInitiator ref (.returned state (some previous))).path.PartOf
          state.1 := Path.removeClient_partOf _ _ _
      exact ⟨fun other stored => placed other (part.initiator other stored),
        fun id other stored => kept id other (part.responder id other stored)⟩

theorem afterAddResponder_path {system : PathSystem} {ref : ClientRef}
    {state : Path × PathClient} {id : ResponderAddress}
    (returned : system.path.addResponder ref (system.client ref) = .returned state id) :
    (system.afterAddResponder ref (.returned state id)).path.initiator =
        system.path.initiator ∧
      ∀ other, (system.afterAddResponder ref (.returned state id)).path.responders.get? other =
        if other = id then some ref else system.path.responders.get? other := by
  obtain ⟨_, _, _, _, path, _⟩ := Path.addResponder_returned returned
  simp only [afterAddResponder, path]
  exact ⟨trivial, fun other => PythonDict.get?_set _ _ _ _⟩

end PathSystem

/-- The handler is in its handshake. -/
def Handler.handshaking : Handler → Bool
  | .absent | .created | .sendingHello | .receivingFirst | .receivingAuth | .gathering _
  | .sendingAuth => true
  | _ => false

namespace Server

/-- The handshake of a client has ended, after its server-auth message was sent. -/
def HandshakeDone (server : Server) (ref : ClientRef) : Prop :=
  (server.handler ref).handshaking = false ∧
    ∃ message, message.IsServerAuth ∧ .sent ref message none ∈ server.history

/-- The second event was observed after the first. -/
def Follows (server : Server) (mark event : Event) : Prop :=
  ∃ early late, server.history = early ++ late ∧ mark ∈ early ∧ event ∈ late

/-- The initiator was told about the responder with this id. -/
def ToldInitiator (server : Server) (initiator : ClientRef) (id : ResponderAddress) : Prop :=
  (∃ ids current, .created initiator (.serverAuthInitiator ids) current ∈ server.history ∧
      id ∈ ids) ∨
    ∃ number, server.Follows (.authenticated initiator)
      (.submitted initiator (.newResponder id) number)

/-- The responder with this id was told about the initiator. -/
def ToldResponder (server : Server) (initiator responder : ClientRef) (id : ResponderAddress) :
    Prop :=
  .created responder (.serverAuthResponder id true) (some initiator) ∈ server.history ∨
    ∃ number, server.Follows (.authenticated initiator)
      (.submitted responder (.newInitiator id) number)

/-- A task that will submit a message has not started. -/
def Enqueues (server : Server) (task : TaskId) (client : ClientRef)
    (message : OutgoingMessage) : Prop :=
  task ∈ server.loop.ready ∧ (server.loop.task task).body = .enqueue client message

/-- The handler of the initiator still waits for telling the responder. -/
def Introducing (server : Server) (initiator responder : ClientRef) (id : ResponderAddress) :
    Prop :=
  ∃ tasks, server.handler initiator = .gathering tasks ∧
    ∃ task ∈ tasks, server.Enqueues task responder (.newInitiator id)

/-- Everybody was told or is being told about everybody. -/
structure Introduced (server : Server) : Prop where
  initiator : ∀ initiator id responder, server.system.path.initiator = some initiator →
    server.system.path.responders.get? id = some responder →
      ∀ message current, .created initiator message current ∈ server.history →
        server.ToldInitiator initiator id
  responder : ∀ initiator id responder, server.system.path.initiator = some initiator →
    server.system.path.responders.get? id = some responder →
      server.ToldResponder initiator responder id ∨ server.Introducing initiator responder id
  created : ∀ ref message, message.IsServerAuth → .sent ref message none ∈ server.history →
    ∃ current, .created ref message current ∈ server.history

section Observations

variable {server before after : Server} {initiator responder : ClientRef} {id : ResponderAddress}

theorem Follows.grow {mark event : Event} (follows : before.Follows mark event)
    (grows : before.history <+: after.history) : after.Follows mark event := by
  obtain ⟨early, late, history, marked, observed⟩ := follows
  obtain ⟨events, appended⟩ := grows
  refine ⟨early, late ++ events, ?_, marked, List.mem_append_left _ observed⟩
  rw [← appended, history, List.append_assoc]

theorem Follows.of_appended {mark event : Event} {events : List Event}
    (history : after.history = before.history ++ events) (marked : mark ∈ before.history)
    (observed : event ∈ events) : after.Follows mark event :=
  ⟨before.history, events, history, marked, observed⟩

theorem ToldInitiator.grow (told : before.ToldInitiator initiator id)
    (grows : before.history <+: after.history) : after.ToldInitiator initiator id := by
  rcases told with ⟨ids, current, created, listed⟩ | ⟨number, follows⟩
  · exact .inl ⟨ids, current, grows.subset created, listed⟩
  · exact .inr ⟨number, follows.grow grows⟩

theorem ToldResponder.grow (told : before.ToldResponder initiator responder id)
    (grows : before.history <+: after.history) : after.ToldResponder initiator responder id := by
  rcases told with created | ⟨number, follows⟩
  · exact .inl (grows.subset created)
  · exact .inr ⟨number, follows.grow grows⟩

theorem Enqueues.extends {spawned : TaskBody → Prop} {cancelled : TaskId → Prop} {task : TaskId}
    {client : ClientRef} {message : OutgoingMessage} (enqueues : before.Enqueues task client message)
    (extension : before.loop.Extends spawned cancelled after.loop)
    (wellFormed : before.loop.WellFormed) : after.Enqueues task client message := by
  obtain ⟨isReady, body⟩ := enqueues
  obtain ⟨ids, ready, _⟩ := extension.ready
  constructor
  · rw [ready]
    exact List.mem_append_left _ isReady
  · rw [extension.body task (wellFormed.created task isReady), body]

/-- Starting another task leaves it ready. -/
theorem Enqueues.startHead {task head : TaskId} {rest : List TaskId}
    {status : TaskStatus PyException} {client : ClientRef} {message : OutgoingMessage}
    (enqueues : before.Enqueues task client message) (ready : before.loop.ready = head :: rest)
    (other : task ≠ head) : (before.startHead head status).Enqueues task client message := by
  obtain ⟨isReady, body⟩ := enqueues
  rw [ready] at isReady
  constructor
  · simpa [Server.startHead, EventLoop.pop, EventLoop.setStatus, ready, other] using isReady
  · simpa [Server.startHead, EventLoop.pop, EventLoop.setStatus, other] using body

theorem Introducing.keeps (introducing : before.Introducing initiator responder id)
    (handler : after.handler initiator = before.handler initiator)
    (keeps : ∀ task, before.Enqueues task responder (.newInitiator id) →
      after.Enqueues task responder (.newInitiator id)) :
    after.Introducing initiator responder id := by
  obtain ⟨tasks, gathering, task, mem, enqueues⟩ := introducing
  exact ⟨tasks, handler.trans gathering, task, mem, keeps task enqueues⟩

/-- Nobody is added to the path and no server-auth message is created. -/
theorem Introduced.of_appended (introduced : before.Introduced)
    (path : after.system.path.PartOf before.system.path) {events : List Event}
    (history : after.history = before.history ++ events)
    (uncreated : ∀ ref message current, .created ref message current ∉ events)
    (sent : ∀ ref message, message.IsServerAuth → .sent ref message none ∈ events →
      ∃ current, .created ref message current ∈ before.history)
    (introducing : ∀ initiator responder id, before.system.path.initiator = some initiator →
      before.Introducing initiator responder id →
      after.ToldResponder initiator responder id ∨ after.Introducing initiator responder id) :
    after.Introduced := by
  have grows : before.history <+: after.history := ⟨events, history.symm⟩
  constructor
  · intro initiator id responder isInitiator isResponder message current created
    rw [history, List.mem_append, or_iff_left (uncreated _ _ _)] at created
    exact (introduced.initiator initiator id responder (path.initiator _ isInitiator)
      (path.responder _ _ isResponder) message current created).grow grows
  · intro initiator id responder isInitiator isResponder
    rcases introduced.responder initiator id responder (path.initiator _ isInitiator)
      (path.responder _ _ isResponder) with told | waiting
    · exact .inl (told.grow grows)
    · exact introducing initiator responder id (path.initiator _ isInitiator) waiting
  · intro ref message isServerAuth isSent
    rw [history, List.mem_append] at isSent
    obtain ⟨current, created⟩ := isSent.elim (introduced.created ref message isServerAuth)
      (sent ref message isServerAuth)
    exact ⟨current, grows.subset created⟩

theorem Introduced.calm {moves : ClientRef → Prop} (introduced : before.Introduced)
    (wellFormed : before.loop.WellFormed) (calm : Calm moves before after) :
    after.Introduced := by
  obtain ⟨events, history, silent⟩ := calm.history
  refine introduced.of_appended ?_ history ?_ ?_ ?_
  · rw [calm.system]
    exact .refl _
  · exact fun ref message current mem => silent _ mem
  · exact fun ref message _ mem => (silent _ mem).elim
  · rintro initiator responder id _ ⟨tasks, gathering, task, mem, enqueues⟩
    rcases calm.gathering initiator tasks gathering with still | started
    · exact .inr ⟨tasks, still, task, mem, enqueues.extends calm.loop wellFormed⟩
    · exact absurd enqueues.1 (started task mem)

/-- One event is observed that does not concern introductions. -/
theorem Introduced.log (introduced : before.Introduced)
    (path : after.system.path.PartOf before.system.path) {event : Event}
    (history : after.history = before.history ++ [event])
    (uncreated : ∀ ref message current, event ≠ .created ref message current)
    (sent : ∀ ref message, message.IsServerAuth → event = .sent ref message none →
      ∃ current, .created ref message current ∈ before.history)
    (handler : ∀ initiator tasks, before.handler initiator = .gathering tasks →
      after.handler initiator = .gathering tasks ∨ before.Gathered initiator)
    (keeps : ∀ task client message, before.Enqueues task client message →
      after.Enqueues task client message) : after.Introduced := by
  apply introduced.of_appended path history
  · exact fun ref message current mem => uncreated _ _ _ (List.mem_singleton.mp mem).symm
  · exact fun ref message isServerAuth mem =>
      sent ref message isServerAuth (List.mem_singleton.mp mem).symm
  · rintro initiator responder id _ ⟨tasks, gathering, task, mem, enqueues⟩
    rcases handler initiator tasks gathering with still | gathered
    · exact .inr ⟨tasks, still, task, mem, keeps task _ _ enqueues⟩
    · exact absurd enqueues.1 (gathered tasks gathering task mem)

/-- After a new initiator was set, all responders are being told. -/
theorem Introduced.initiator_set {ref : ClientRef} {dropped : Server} {state : Path × PathClient}
    {previous : Option ClientRef} {ids : List TaskId} {moves : ClientRef → Prop}
    (introduced : before.Introduced) (stages : before.StagesSound)
    (handshaking : before.system.stage ref = .handshaking)
    (returned : before.system.path.setInitiator ref (before.system.client ref) =
      .returned state previous)
    (calm : Calm moves ({ before with
      system := before.system.afterSetInitiator ref (.returned state previous) }.log
        (.authenticated ref)) dropped)
    (gathers : dropped.gather (dropped.toResponders .newInitiator) = (after, ids)) :
    (if ids = [] then after else after.setHandler ref (.gathering ids)).Introduced := by
  obtain ⟨isNew, kept⟩ := PathSystem.afterSetInitiator_path returned
  obtain ⟨same, created⟩ := gather_eq gathers
  obtain ⟨events, history, silent⟩ := calm.history
  have system : after.system = before.system.afterSetInitiator ref (.returned state previous) := by
    rw [same]
    exact calm.system
  have grown : after.history = before.history ++ (.authenticated ref :: events) := by
    rw [same]
    exact history.trans (List.append_assoc _ _ _)
  have grows : before.history <+: after.history := ⟨_, grown.symm⟩
  have old : ∀ other message current, .created other message current ∈ after.history →
      .created other message current ∈ before.history := by
    intro other message current mem
    rw [grown, List.mem_append, or_iff_left] at mem
    · exact mem
    · intro new
      rcases List.mem_cons.mp new with event | late
      · contradiction
      · exact silent _ late
  -- Each stored responder has a task that is about to tell it.
  have telling : ∀ id responder, after.system.path.responders.get? id = some responder →
      ∃ task ∈ ids, after.Enqueues task responder (.newInitiator id) := by
    intro id responder stored
    have entry : (id, responder) ∈ dropped.system.path.responders.entries := by
      apply PythonDict.mem_entries_of_get?
      rw [same] at stored
      exact stored
    have body : TaskBody.enqueue responder (.newInitiator id) ∈
        (dropped.toResponders .newInitiator).map fun message => .enqueue message.1 message.2 := by
      rw [toResponders, List.map_map]
      exact List.mem_map.mpr ⟨_, entry, rfl⟩
    obtain ⟨task, mem, ready, isTask⟩ := @EventLoop.exists_spawnAll _ _ dropped.loop _ _ body
    refine ⟨task, created ▸ mem, ?_⟩
    rw [same]
    exact ⟨ready, by rw [isTask]⟩
  have result : ∀ last : Server, last.system = after.system → last.history = after.history →
      last.loop = after.loop → (ids ≠ [] → last.handler ref = .gathering ids) →
      last.Introduced := by
    intro last lastSystem lastHistory lastLoop gathering
    constructor
    · intro initiator id responder isInitiator _ message current isCreated
      rw [lastSystem, system] at isInitiator
      rw [lastHistory] at isCreated
      obtain rfl := isNew initiator isInitiator
      have authenticated := stages.authenticated initiator
        (stages.announced initiator message current (old _ _ _ isCreated))
      rw [handshaking] at authenticated
      simp at authenticated
    · intro initiator id responder isInitiator isResponder
      rw [lastSystem, system] at isInitiator
      obtain rfl := isNew initiator isInitiator
      rw [lastSystem] at isResponder
      obtain ⟨task, mem, enqueues⟩ := telling id responder isResponder
      refine .inr ⟨ids, gathering (List.ne_nil_of_mem mem), task, mem, ?_⟩
      unfold Enqueues
      rwa [lastLoop]
    · intro other message isServerAuth isSent
      rw [lastHistory, grown, List.mem_append, or_iff_left] at isSent
      · obtain ⟨current, isCreated⟩ := introduced.created other message isServerAuth isSent
        exact ⟨current, lastHistory ▸ grows.subset isCreated⟩
      · intro new
        rcases List.mem_cons.mp new with event | late
        · contradiction
        · exact silent _ late
  split
  · next none => exact result after rfl rfl rfl (absurd none)
  · exact result _ rfl rfl rfl fun _ => Function.update_self _ _ _

/-- A new responder and the initiator are told about each other at once. -/
theorem Introduced.responder_added {ref : ClientRef} {state : Path × PathClient}
    {id : ResponderAddress} (introduced : before.Introduced) (stages : before.StagesSound)
    (handshaking : before.system.stage ref = .handshaking)
    (returned : before.system.path.addResponder ref (before.system.client ref) =
      .returned state id)
    (system : after.system = before.system.afterAddResponder ref (.returned state id))
    (handler : after.handler = before.handler) (loop : after.loop = before.loop)
    (events : List Event) (known : Bool)
    (history : after.history = before.history ++ .authenticated ref :: events ++
      [.created ref (.serverAuthResponder id known) before.system.path.initiator])
    (submitted : ∀ initiator, before.system.path.initiator = some initiator → known = true ∧
      ∃ number, events = [.submitted initiator (.newResponder id) number])
    (alone : before.system.path.initiator = none → events = []) : after.Introduced := by
  obtain ⟨sameInitiator, responders⟩ := PathSystem.afterAddResponder_path returned
  have grows : before.history <+: after.history :=
    ⟨_, (history.trans (List.append_assoc _ _ _)).symm⟩
  have old : ∀ other message current, .created other message current ∈ after.history →
      .created other message current ∈ before.history ∨ other = ref := by
    intro other message current mem
    rw [history] at mem
    cases present : before.system.path.initiator with
    | none =>
        rw [alone present] at mem
        simp only [List.mem_append, List.mem_cons] at mem
        grind
    | some initiator =>
        obtain ⟨_, number, single⟩ := submitted initiator present
        rw [single] at mem
        simp only [List.mem_append, List.mem_cons] at mem
        grind
  have established : ∀ initiator, before.system.path.initiator = some initiator →
      initiator ≠ ref ∧ .authenticated initiator ∈ before.history := by
    intro initiator stored
    have stage := ((PathSystem.consistent_of_reachable stages.system).initiator initiator stored).1
    refine ⟨?_, stages.established initiator stage⟩
    rintro rfl
    rw [handshaking] at stage
    contradiction
  constructor
  · intro initiator other responder isInitiator isResponder message current isCreated
    rw [system, sameInitiator] at isInitiator
    rw [system, responders] at isResponder
    obtain ⟨ne, authenticated⟩ := established initiator isInitiator
    split at isResponder
    · next same =>
      subst same
      obtain ⟨_, number, single⟩ := submitted initiator isInitiator
      refine .inr ⟨number, .of_appended (history.trans (List.append_assoc _ _ _)) authenticated ?_⟩
      simp [single]
    · exact (introduced.initiator initiator other responder isInitiator isResponder message current
        ((old _ _ _ isCreated).resolve_right ne)).grow grows
  · intro initiator other responder isInitiator isResponder
    rw [system, sameInitiator] at isInitiator
    rw [system, responders] at isResponder
    split at isResponder
    · next same =>
      subst same
      obtain rfl := Option.some.inj isResponder
      refine .inl (.inl ?_)
      rw [history, isInitiator, (submitted initiator isInitiator).1]
      exact List.mem_append_right _ List.mem_cons_self
    · rcases introduced.responder initiator other responder isInitiator isResponder with
        told | waiting
      · exact .inl (told.grow grows)
      · refine .inr (waiting.keeps (by rw [handler]) fun task enqueues => ?_)
        unfold Enqueues
        rwa [loop]
  · intro other message isServerAuth isSent
    have isOld : .sent other message none ∈ before.history := by
      rw [history] at isSent
      cases present : before.system.path.initiator with
      | none =>
          rw [alone present] at isSent
          simp only [List.mem_append, List.mem_cons] at isSent
          tauto
      | some initiator =>
          obtain ⟨_, number, single⟩ := submitted initiator present
          rw [single] at isSent
          simp only [List.mem_append, List.mem_cons] at isSent
          tauto
    obtain ⟨current, isCreated⟩ := introduced.created other message isServerAuth isOld
    exact ⟨current, grows.subset isCreated⟩

theorem Introduced.submit (introduced : before.Introduced) (ref : ClientRef)
    (message : OutgoingMessage) : (before.submit ref message).Introduced := by
  refine introduced.log ?_ (submit_history _ _ _) (by simp) (by simp) ?_ ?_
  · rw [submit_system]
    exact .refl _
  · rw [submit_handler]
    exact fun _ _ gathering => .inl gathering
  · unfold Enqueues
    rw [submit_loop]
    exact fun _ _ _ enqueues => enqueues

/-- The list of the initiator names every responder that is stored. -/
theorem Introduced.list_created {ref : ClientRef} {ids : List ResponderAddress}
    (introduced : before.Introduced)
    (found : before.system.path.getResponderIds = .ok ids) :
    (before.log (.created ref (.serverAuthInitiator ids)
      before.system.path.initiator)).Introduced := by
  have keys : ids = before.system.path.responders.keys := by
    unfold Path.getResponderIds at found
    grind
  have grows : before.history <+: (before.log (.created ref (.serverAuthInitiator ids)
      before.system.path.initiator)).history := ⟨_, rfl⟩
  constructor
  · intro initiator id responder isInitiator isResponder message current isCreated
    rcases List.mem_append.mp isCreated with old | new
    · exact (introduced.initiator initiator id responder isInitiator isResponder message current
        old).grow grows
    · injection List.mem_singleton.mp new with sameRef
      refine .inl ⟨ids, before.system.path.initiator, ?_, ?_⟩
      · rw [sameRef]
        exact List.mem_append_right _ List.mem_cons_self
      · rw [keys]
        exact PythonDict.mem_keys_of_get? isResponder
  · intro initiator id responder isInitiator isResponder
    exact (introduced.responder initiator id responder isInitiator isResponder).imp_left
      fun told => told.grow grows
  · intro other message isServerAuth isSent
    have isOld : .sent other message none ∈ before.history := by
      simpa [Server.log] using isSent
    obtain ⟨current, isCreated⟩ := introduced.created other message isServerAuth isOld
    exact ⟨current, grows.subset isCreated⟩

/-- A task starts; unless it submits a message itself, nothing changes. -/
theorem Introduced.startHead (introduced : before.Introduced) {task : TaskId} {rest : List TaskId}
    (ready : before.loop.ready = task :: rest) {status : TaskStatus PyException}
    (other : ∀ client message, (before.loop.task task).body ≠ .enqueue client message) :
    (before.startHead task status).Introduced := by
  refine introduced.of_appended (.refl _) (List.append_nil _).symm (by simp) (by simp) ?_
  refine fun initiator responder id _ introducing => .inr (introducing.keeps rfl ?_)
  rintro waiting enqueues
  apply enqueues.startHead ready
  rintro rfl
  exact other _ _ enqueues.2

/-- The task that submits a message has told its receiver. -/
theorem Introduced.enqueued {task : TaskId} {rest : List TaskId} {ref : ClientRef}
    {message : OutgoingMessage} (introduced : before.Introduced) (stages : before.StagesSound)
    (ready : before.loop.ready = task :: rest)
    (body : (before.loop.task task).body = .enqueue ref message) :
    ((before.startHead task (.done .finished)).submit ref message).Introduced := by
  have history := submit_history (before.startHead task (.done .finished)) ref message
  refine introduced.of_appended ?_ history (by simp) (by simp) ?_
  · rw [submit_system]
    exact .refl _
  · rintro initiator responder id isInitiator ⟨tasks, gathering, waiting, mem, enqueues⟩
    by_cases same : waiting = task
    · subst same
      obtain ⟨rfl, rfl⟩ : ref = responder ∧ message = .newInitiator id := by
        simpa using body.symm.trans enqueues.2
      have stage :=
        ((PathSystem.consistent_of_reachable stages.system).initiator initiator isInitiator).1
      exact .inl (.inr ⟨_, .of_appended history (stages.established initiator stage)
        List.mem_cons_self⟩)
    · refine .inr ⟨tasks, by rwa [submit_handler], waiting, mem, ?_⟩
      unfold Enqueues
      rw [submit_loop]
      exact enqueues.startHead ready same

theorem Introduced.gather (introduced : before.Introduced) (wellFormed : before.loop.WellFormed)
    {messages : List (ClientRef × OutgoingMessage)} {ids : List TaskId} {ref : ClientRef}
    {next : Handler} (gathers : before.gather messages = (after, ids))
    (gathered : before.Gathered ref) :
    (if ids = [] then after else after.setHandler ref next).Introduced := by
  obtain ⟨rfl, _⟩ := gather_eq gathers
  have extension : before.loop.Extends (fun _ => True) (fun _ => False)
      (before.loop.spawnAll (messages.map fun message => .enqueue message.1 message.2)).1 :=
    .spawnAll fun _ _ => trivial
  split
  · refine introduced.of_appended (.refl _) (List.append_nil _).symm (by simp) (by simp) ?_
    refine fun initiator responder id _ introducing => .inr (introducing.keeps rfl ?_)
    exact fun task enqueues => enqueues.extends extension wellFormed
  · refine introduced.of_appended (.refl _) (List.append_nil _).symm (by simp) (by simp) ?_
    rintro initiator responder id _ ⟨tasks, gathering, task, mem, enqueues⟩
    refine .inr ⟨tasks, ?_, task, mem, enqueues.extends extension wellFormed⟩
    have other : initiator ≠ ref := by
      rintro rfl
      exact gathered tasks gathering task mem enqueues.1
    simpa [Server.setHandler, other] using gathering

theorem Introduced.connect (introduced : before.Introduced) {ref : ClientRef} {csn : Nat}
    (stepped : before.connect ref csn = some after) : after.Introduced := by
  unfold Server.connect at stepped
  split at stepped
  · next fresh =>
    rw [Option.map_eq_some_iff] at stepped
    obtain ⟨system, joined, rfl⟩ := stepped
    refine introduced.of_appended (PathSystem.partOf_of_connect joined) (List.append_nil _).symm
      (by simp) (by simp) ?_
    intro initiator responder id _ introducing
    refine .inr (introducing.keeps (Function.update_of_ne ?_ _ _) fun task enqueues => enqueues)
    rintro rfl
    obtain ⟨tasks, gathering, _⟩ := introducing
    rw [fresh.1] at gathering
    contradiction
  · contradiction

theorem Effect.introduced {origin : Server} {action : Action} {moves : ClientRef → Prop}
    (effect : Effect origin action moves before after) (tasks : before.TasksSound)
    (stages : before.StagesSound) (introduced : before.Introduced) : after.Introduced := by
  have wellFormed := tasks.loop
  have moved : ∀ ref next, before.Gathered ref → ∀ initiator tasks,
      before.handler initiator = .gathering tasks →
        (before.setHandler ref next).handler initiator = .gathering tasks ∨
          before.Gathered initiator := by
    intro ref next gathered initiator tasks gathering
    by_cases same : initiator = ref
    · exact .inr (same ▸ gathered)
    · exact .inl (by simpa [Server.setHandler, same] using gathering)
  cases effect with
  | calm calm => exact introduced.calm wellFormed calm
  | path stepped plain _ =>
      refine introduced.of_appended (PathSystem.partOf_of_plain stepped plain)
        (List.append_nil _).symm (by simp) (by simp) ?_
      exact fun _ _ _ _ introducing => .inr introducing
  | connect mover stepped => exact introduced.connect stepped
  | initiator _ _ _ _ handshaking returned calm _ _ gathers =>
      exact introduced.initiator_set stages handshaking returned calm gathers
  | @responder ref _ joined state id _ _ _ handshaking returned same =>
      have history : joined.history = before.history ++ [.authenticated ref] := by
        rw [same]
        rfl
      have system : joined.system =
          before.system.afterAddResponder ref (.returned state id) := by
        rw [same]
        rfl
      have handler : joined.handler = before.handler := by
        rw [same]
        rfl
      have loop : joined.loop = before.loop := by
        rw [same]
        rfl
      cases present : before.system.path.initiator with
      | none =>
          refine introduced.responder_added stages handshaking returned system handler loop [] false
            ?_ ?_ fun _ => rfl
          · simp [Server.log, present, history]
          · simp [present]
      | some initiator =>
          refine introduced.responder_added stages handshaking returned
            ((submit_system joined initiator (.newResponder id)).trans system)
            ((submit_handler joined initiator (.newResponder id)).trans handler)
            ((submit_loop joined initiator (.newResponder id)).trans loop)
            [.submitted initiator (.newResponder id) (joined.nextNumber initiator)] true ?_ ?_ ?_
          · simp [Server.log, present, submit_history, history]
          · simp [present]
          · simp [present]
  | created _ _ found => exact introduced.list_created found
  | @greeted ref _ _ _ handler =>
      refine introduced.log (.refl _) rfl (by simp) ?_ (moved ref .sendingHello ?_) ?_
      · rintro other message isServerAuth event
        injection event with _ same
        subst same
        exact isServerAuth.elim
      · simp [Gathered, handler]
      · exact fun _ _ _ enqueues => enqueues
  | @serverAuth ref _ message _ _ created _ gathered =>
      refine introduced.log (.refl _) rfl (by simp) ?_ (moved ref .sendingAuth gathered) ?_
      · rintro other message isServerAuth event
        injection event with sameRef same
        exact sameRef ▸ same ▸ created
      · exact fun _ _ _ enqueues => enqueues
  | sendError => exact introduced.submit _ _
  | relay packet _ takes =>
      refine introduced.log (.refl _) rfl (by simp) (by simp)
        (fun _ _ gathering => .inl gathering) ?_
      exact fun task _ _ enqueues => enqueues.extends (submitTask_extends _ _ _) wellFormed
  | disconnectedResponder => exact introduced.submit _ _
  | disconnectedInitiator _ _ _ _ joined gathers =>
      exact introduced.gather wellFormed gathers (gathered_of_phase joined (by simp))
  | @take ref coroutine _ _ _ _ =>
      have extension : before.loop.Extends (fun _ => True) (fun _ => False)
          (before.loop.spawn (.run ref coroutine)) := .spawn trivial
      refine introduced.of_appended (.refl _) (List.append_nil _).symm (by simp) (by simp) ?_
      refine fun _ _ _ _ introducing => .inr (introducing.keeps rfl fun task enqueues => ?_)
      exact enqueues.extends extension wellFormed
  | @startEnded _ id _ outcome _ ready ends =>
      apply introduced.startHead ready
      intro client message body
      rcases ends with requested | ⟨_, _, runs⟩
      · have created := wellFormed.created id (ready ▸ List.mem_cons_self)
        rw [tasks.enqueues id client message created body] at requested
        contradiction
      · rw [body] at runs
        contradiction
  | startClosing _ ready body => exact introduced.startHead ready (by simp [body])
  | @handed _ head _ ref message number _ ready alive body =>
      refine Introduced.log (introduced.startHead ready (by simp [body])) (.refl _) rfl (by simp)
        ?_ (fun _ _ gathering => .inl gathering) fun _ _ _ enqueues => enqueues
      rintro other _ _ event
      injection event with _ _ unnumbered
      subst unnumbered
      have created := wellFormed.created head (ready ▸ List.mem_cons_self)
      rw [tasks.unnumbered head ref message created body] at alive
      contradiction
  | enqueued _ ready body => exact introduced.enqueued stages ready body
  | @ended _ id outcome _ suspended =>
      refine introduced.of_appended (.refl _) (List.append_nil _).symm (by simp) (by simp) ?_
      refine fun _ _ _ _ introducing => .inr (introducing.keeps rfl ?_)
      rintro task ⟨ready, body⟩
      refine ⟨ready, ?_⟩
      by_cases same : task = id <;> simpa [EventLoop.setStatus, same] using body

end Observations

/-- An initiator that has completed its handshake and a responder that is on the path
at the same time have been told about each other. -/
theorem told_about_each_other {server : Server} (reachable : machine.Reachable server)
    {initiator responder : ClientRef} {id : ResponderAddress}
    (isInitiator : server.system.path.initiator = some initiator)
    (isResponder : server.system.path.responders.get? id = some responder)
    (done : server.HandshakeDone initiator) :
    (server.system.client responder).id = id.toAddress ∧
      server.ToldInitiator initiator id ∧ server.ToldResponder initiator responder id := by
  have introduced : server.Introduced := by
    refine invariant_of_effects Introduced (fun initiatorKey number => ?_)
      (fun origin action before after _ _ tasks stages introduced effect =>
        effect.introduced tasks stages introduced) reachable
    constructor <;> simp [Server.created, PathSystem.created, Path.new]
  obtain ⟨ended, message, isServerAuth, sent⟩ := done
  obtain ⟨current, created⟩ := introduced.created initiator message isServerAuth sent
  refine ⟨?_, ?_, ?_⟩
  · exact ((sound_of_reachable reachable).consistent.responder id responder isResponder).2.2
  · exact introduced.initiator initiator id responder isInitiator isResponder message current
      created
  · apply (introduced.responder initiator id responder isInitiator isResponder).resolve_right
    rintro ⟨tasks, gathering, _⟩
    rw [gathering] at ended
    contradiction

/-- The initiator joins after the responder and tells it. -/
theorem told_about_each_other_late_initiator :
    ∃ server : Server, (server.system.client 1).id = ResponderAddress.lowest.toAddress ∧
      server.ToldInitiator 0 .lowest ∧ server.ToldResponder 0 1 .lowest := by
  have reachable : machine.Reachable _ := Machine.reachable_of_run (initial_created [0x61] 1)
    (joinResponder 1 ++ [.connect 0 0, .begin 0, .sent 0, .receive 0 (.clientAuth (.ok ())),
      .taskStart, .gathered 0, .sent 0]) rfl
  refine ⟨_, @told_about_each_other _ reachable 0 1 .lowest rfl rfl ⟨rfl, ?_⟩⟩
  exact ⟨.serverAuthInitiator [.lowest], trivial, by decide +kernel⟩

end Server

end SaltyRtcServer
