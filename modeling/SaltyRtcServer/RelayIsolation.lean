import SaltyRtcServer.AcceptedMessages
import SaltyRtcServer.PacketServer
import SaltyRtcServer.Packing

/-!
# What is relayed to whom

A relayed message is a task from the moment in which a receive loop takes it up.
Such tasks come from nowhere else, and a receive loop creates one only for a
packet of an authenticated client to a client of the other role.
-/

namespace SaltyRtcServer

open StepMachine

def TaskBody.carriesRelay : TaskBody → Bool
  | .run _ (.send message _) | .enqueue _ message => message.isRelay
  | .run _ (.close _) => false

def Event.handsRelay : Event → Bool
  | .sent _ message _ => message.isRelay
  | _ => false

namespace Server

variable {origin before middle after server : Server} {action : Action}
  {moves : ClientRef → Prop}

/-- A message is relayed to a client: a task does so, or has done so. -/
def Relays (server : Server) (destination : ClientRef) (packet : List UInt8) : Prop :=
  (∃ id < server.loop.next, ∃ number,
    (server.loop.task id).body = .run destination (.send (.relay packet) number)) ∨
  ∃ number, .sent destination (.relay packet) number ∈ server.history

/-- Only tasks of their own carry messages that are relayed. -/
structure RelaysByTasks (server : Server) : Prop where
  queued : ∀ ref, ∀ entry ∈ (server.jobs ref).sends, entry.1.isRelay = false
  enqueues : ∀ id < server.loop.next, ∀ ref message,
    (server.loop.task id).body = .enqueue ref message → message.isRelay = false

/-- A message that is relayed afterwards was so before or has just been taken up. -/
def RelaysFrom (origin : Server) (action : Action) (before after : Server) : Prop :=
  ∀ destination packet, after.Relays destination packet →
    before.Relays destination packet ∨
      ∃ ref address, action = .receive ref (.relay address packet) ∧
        destination ∈ origin.takesRelay action

theorem RelaysFrom.refl (server : Server) : RelaysFrom origin action server server :=
  fun _ _ => .inl

theorem RelaysFrom.trans (one : RelaysFrom origin action before middle)
    (two : RelaysFrom origin action middle after) : RelaysFrom origin action before after :=
  fun destination packet relays =>
    (two destination packet relays).elim (one destination packet) .inr

/-- Nothing that is relayed was added. -/
structure NoRelay (before after : Server) : Prop where
  tasks : ∀ id < after.loop.next,
    id < before.loop.next ∧ (after.loop.task id).body = (before.loop.task id).body ∨
      (after.loop.task id).body.carriesRelay = false
  sends : ∀ ref, ∀ entry ∈ (after.jobs ref).sends,
    entry ∈ (before.jobs ref).sends ∨ entry.1.isRelay = false
  history : ∀ event ∈ after.history, event ∈ before.history ∨ event.handsRelay = false

namespace NoRelay

theorem relaysByTasks (quiet : NoRelay before after) (byTasks : before.RelaysByTasks) :
    after.RelaysByTasks where
  queued ref entry mem := (quiet.sends ref entry mem).elim (byTasks.queued ref entry) id
  enqueues id created ref message body := by
    obtain ⟨older, same⟩ | other := quiet.tasks id created
    · exact byTasks.enqueues id older ref message (same ▸ body)
    · rwa [body] at other

theorem relaysFrom (quiet : NoRelay before after) : RelaysFrom origin action before after := by
  rintro destination packet (⟨id, created, number, body⟩ | ⟨number, mem⟩)
  · obtain ⟨older, same⟩ | other := quiet.tasks id created
    · exact .inl (.inl ⟨id, older, number, same ▸ body⟩)
    · rw [body] at other
      contradiction
  · obtain old | other := quiet.history _ mem
    · exact .inl (.inr ⟨number, old⟩)
    · contradiction

theorem of_same (loop : after.loop = before.loop) (jobs : after.jobs = before.jobs)
    (history : after.history = before.history) : NoRelay before after := by
  constructor
  · rw [loop]
    exact fun id created => .inl ⟨created, rfl⟩
  · rw [jobs]
    exact fun ref entry => .inl
  · rw [history]
    exact fun event => .inl

theorem trans (one : NoRelay before middle) (two : NoRelay middle after) :
    NoRelay before after where
  tasks id created := by
    obtain ⟨older, same⟩ | other := two.tasks id created
    · rw [same]
      exact one.tasks id older
    · exact .inr other
  sends ref entry mem := (two.sends ref entry mem).elim (one.sends ref entry) .inr
  history event mem := (two.history event mem).elim (one.history event) .inr

theorem setLoop {spawned : TaskBody → Prop} {cancelled : TaskId → Prop} {loop : Loop}
    (extension : before.loop.Extends spawned cancelled loop)
    (none : ∀ body, spawned body → body.carriesRelay = false) :
    NoRelay before { before with loop := loop } where
  tasks id created := by
    obtain older | newer := Nat.lt_or_ge id before.loop.next
    · exact .inl ⟨older, extension.body id older⟩
    · exact .inr (none _ (extension.fresh id newer created).1)
  sends ref entry := .inl
  history event := .inl

theorem setStatus (loop : Loop) (id : TaskId) (status : TaskStatus PyException)
    (next : loop.next = before.loop.next) (task : loop.task = before.loop.task) :
    NoRelay before { before with loop := loop.setStatus id status } where
  tasks other created := by
    refine .inl ⟨next ▸ created, ?_⟩
    by_cases same : other = id <;> simp [EventLoop.setStatus, same, task]
  sends ref entry := .inl
  history event := .inl

theorem startHead (server : Server) (id : TaskId) (status : TaskStatus PyException) :
    NoRelay server (server.startHead id status) :=
  setStatus server.loop.pop id status rfl rfl

theorem log (server : Server) {event : Event} (other : event.handsRelay = false) :
    NoRelay server (server.log event) where
  tasks id created := .inl ⟨created, rfl⟩
  sends ref entry := .inl
  history found mem := by
    obtain old | new := List.mem_append.mp mem
    · exact .inl old
    · exact .inr (List.mem_singleton.mp new ▸ other)

theorem setHandler (server : Server) (ref : ClientRef) (handler : Handler) :
    NoRelay server (server.setHandler ref handler) :=
  of_same rfl rfl rfl

theorem calm (calm : Calm moves before after) : NoRelay before after where
  tasks := by
    have closing : ∀ body, TaskBody.IsClose body → body.carriesRelay = false := by
      rintro (⟨_, _ | _⟩ | _) <;> simp [TaskBody.IsClose, TaskBody.carriesRelay]
    exact (setLoop calm.loop closing).tasks
  sends ref entry mem := .inl ((calm.jobs ref).sends.subset mem)
  history event mem := by
    obtain ⟨events, history, silent⟩ := calm.history
    rw [history] at mem
    obtain old | new := List.mem_append.mp mem
    · exact .inl old
    · have := silent event new
      cases event <;> first | exact .inr rfl | contradiction

theorem submit (server : Server) (ref : ClientRef) {message : OutgoingMessage}
    (other : message.isRelay = false) : NoRelay server (server.submit ref message) where
  tasks id created := by
    rw [submit_loop] at created ⊢
    exact .inl ⟨created, rfl⟩
  sends client entry mem := by
    rw [submit_jobs] at mem
    by_cases same : client = ref
    · subst same
      rw [Function.update_self] at mem
      split at mem
      · rw [JobQueue.sends_put] at mem
        obtain old | new := List.mem_append.mp mem
        · exact .inl old
        · simp only [JobEntry.message?, Option.toList_some, List.mem_singleton] at new
          exact .inr (new ▸ other)
      · exact .inl mem
    · rw [Function.update_of_ne same] at mem
      exact .inl mem
  history event mem := by
    rw [submit_history] at mem
    obtain old | new := List.mem_append.mp mem
    · exact .inl old
    · rw [List.mem_singleton.mp new]
      exact .inr rfl

theorem gather {messages : List (ClientRef × OutgoingMessage)} {ids : List TaskId}
    (gathers : before.gather messages = (after, ids))
    (other : ∀ message ∈ messages, message.2.isRelay = false) : NoRelay before after := by
  obtain ⟨rfl, _⟩ := gather_eq gathers
  have extension : before.loop.Extends (fun body => body.carriesRelay = false) (fun _ => False)
      (before.loop.spawnAll (messages.map fun message => .enqueue message.1 message.2)).1 := by
    refine .spawnAll fun body mem => ?_
    obtain ⟨message, isMessage, rfl⟩ := List.mem_map.mp mem
    exact other message isMessage
  exact setLoop extension fun _ none => none

theorem connect {ref : ClientRef} {csn : Nat} (stepped : before.connect ref csn = some after) :
    NoRelay before after := by
  unfold Server.connect at stepped
  split at stepped
  · obtain ⟨system, _, rfl⟩ := Option.map_eq_some_iff.mp stepped
    refine ⟨fun id created => .inl ⟨created, rfl⟩, fun client entry mem => ?_, fun event => .inl⟩
    by_cases same : client = ref
    · subst same
      simp [JobQueue.sends, JobQueue.new] at mem
    · exact .inl (by simpa [same] using mem)
  · contradiction

theorem take {ref : ClientRef} {coroutine : Coroutine} {rest : List JobEntry}
    (byTasks : before.RelaysByTasks)
    (queue : (before.jobs ref).queue = .job (.coroutine coroutine) :: rest) :
    NoRelay before ({ before with loop := before.loop.spawn (.run ref coroutine) }.setJobs ref
      { before.jobs ref with
        queue := rest
        runner := .awaiting before.loop.next
        active := some before.loop.next }) := by
  have other : (TaskBody.run ref coroutine).carriesRelay = false := by
    cases coroutine with
    | close code => rfl
    | send message number =>
        apply byTasks.queued ref (message, number)
        simp [JobQueue.sends, queue, JobEntry.message?]
  have extension : before.loop.Extends (· = .run ref coroutine) (fun _ => False)
      (before.loop.spawn (.run ref coroutine)) := .spawn rfl
  refine (setLoop extension fun body same => same ▸ other).trans ?_
  refine ⟨fun id created => .inl ⟨created, rfl⟩, fun client entry mem => .inl ?_, fun event => .inl⟩
  by_cases same : client = ref
  · subst same
    simp only [setJobs, Function.update_self] at mem
    refine JobQueue.sends_sublist ?_ |>.subset mem
    rw [queue]
    exact List.suffix_cons _ _
  · simpa [setJobs, same] using mem

end NoRelay

theorem RelaysByTasks.relay (byTasks : before.RelaysByTasks) (ref destination : ClientRef)
    (packet : List UInt8) :
    ((before.submitTask destination (.relay packet)).setReceiveLoop ref
      (.relaying before.loop.next packet)).RelaysByTasks where
  queued client entry mem := by
    change entry ∈ ((before.submitTask destination (.relay packet)).jobs client).sends at mem
    rw [submitTask_jobs] at mem
    apply byTasks.queued client entry
    by_cases same : client = destination
    · subst same
      rw [Function.update_self] at mem
      split at mem
      · rw [JobQueue.sends_put] at mem
        simpa [JobEntry.message?] using mem
      · exact mem
    · rwa [Function.update_of_ne same] at mem
  enqueues id created client message body := by
    have extension := submitTask_extends before destination (.relay packet)
    obtain older | newer := Nat.lt_or_ge id before.loop.next
    · exact byTasks.enqueues id older client message ((extension.body id older).symm.trans body)
    · have isNew := (extension.fresh id newer created).1
      cases body.symm.trans isNew

theorem relaysFrom_relay (server : Server) {ref destination : ClientRef} {address : Address}
    {packet : List UInt8}
    (takes : destination ∈ server.takesRelay (.receive ref (.relay address packet))) :
    RelaysFrom server (.receive ref (.relay address packet)) server
      ((server.submitTask destination (.relay packet)).setReceiveLoop ref
        (.relaying server.loop.next packet)) := by
  rintro other bytes (⟨id, created, number, body⟩ | ⟨number, mem⟩)
  · have extension := submitTask_extends server destination (.relay packet)
    obtain older | newer := Nat.lt_or_ge id server.loop.next
    · exact .inl (.inl ⟨id, older, number, (extension.body id older).symm.trans body⟩)
    · have isNew := (extension.fresh id newer created).1
      cases body.symm.trans isNew
      exact .inr ⟨ref, address, rfl, takes⟩
  · left
    obtain old | new := List.mem_append.mp mem
    · exact .inr ⟨number, old⟩
    · simp at new

/-- Relayed messages come from the receive loops alone. -/
theorem Effect.relays (effect : Effect origin action moves before after)
    (tasks : before.TasksSound) (byTasks : before.RelaysByTasks) :
    after.RelaysByTasks ∧ RelaysFrom origin action before after := by
  have quiet (none : NoRelay before after) :
      after.RelaysByTasks ∧ RelaysFrom origin action before after :=
    ⟨none.relaysByTasks byTasks, none.relaysFrom⟩
  cases effect with
  | calm calm => exact quiet (.calm calm)
  | path => exact quiet (.of_same rfl rfl rfl)
  | connect _ stepped => exact quiet (.connect stepped)
  | @initiator ref _ dropped gathered state previous ids _ _ _ _ _ _ calm _ _ gathers =>
      apply quiet
      have placed : NoRelay before { before with
          system := before.system.afterSetInitiator ref (.returned state previous) } :=
        .of_same rfl rfl rfl
      have authenticated := placed.trans (.log _ (rfl : (Event.authenticated ref).handsRelay = false))
      have announced : NoRelay dropped gathered := by
        refine .gather gathers fun message mem => ?_
        obtain ⟨entry, _, rfl⟩ := List.mem_map.mp mem
        rfl
      have joined := (authenticated.trans (.calm calm)).trans announced
      split
      · exact joined
      · exact joined.trans (.setHandler _ _ _)
  | @responder ref _ joined state id _ _ _ _ _ isJoined =>
      apply quiet
      have placed : NoRelay before { before with
          system := before.system.afterAddResponder ref (.returned state id) } :=
        .of_same rfl rfl rfl
      have authenticated : NoRelay before joined := by
        rw [isJoined]
        exact placed.trans (.log _ rfl)
      split
      · exact authenticated.trans (.log _ rfl)
      · exact (authenticated.trans (.submit _ _ rfl)).trans (.log _ rfl)
  | created => exact quiet (.log _ rfl)
  | greeted => exact quiet ((NoRelay.setHandler _ _ _).trans (.log _ rfl))
  | @serverAuth ref _ message _ isServerAuth =>
      refine quiet ((NoRelay.setHandler _ _ _).trans (.log _ ?_))
      cases message <;> first | rfl | exact isServerAuth.elim
  | sendError => exact quiet (.submit _ _ rfl)
  | relay packet receives takes =>
      subst receives
      exact ⟨byTasks.relay _ _ packet, relaysFrom_relay _ takes⟩
  | disconnectedResponder => exact quiet (.submit _ _ rfl)
  | @disconnectedInitiator _ _ gathered _ _ _ _ _ _ gathers =>
      apply quiet
      have announced : NoRelay origin gathered := by
        refine .gather gathers fun message mem => ?_
        obtain ⟨entry, _, rfl⟩ := List.mem_map.mp mem
        rfl
      split
      · exact announced
      · exact announced.trans (.setHandler _ _ _)
  | take _ queue => exact quiet (.take byTasks queue)
  | startEnded => exact quiet (.startHead _ _ _)
  | startClosing => exact quiet (.startHead _ _ _)
  | @handed _ id rest ref message number _ ready _ body =>
      have created : id < before.loop.next := tasks.loop.created id (ready ▸ List.mem_cons_self)
      have started := NoRelay.startHead before id .suspended
      have byTasks := started.relaysByTasks byTasks
      refine ⟨⟨byTasks.queued, byTasks.enqueues⟩, ?_⟩
      rintro destination packet (task | ⟨number, mem⟩)
      · exact started.relaysFrom destination packet (.inl task)
      · left
        obtain old | new := List.mem_append.mp mem
        · exact .inr ⟨number, old⟩
        · cases List.mem_singleton.mp new
          exact .inl ⟨id, created, number, body⟩
  | @enqueued _ id rest ref message _ ready body =>
      have created : id < before.loop.next := tasks.loop.created id (ready ▸ List.mem_cons_self)
      exact quiet ((NoRelay.startHead _ _ _).trans
        (.submit _ _ (byTasks.enqueues id created ref message body)))
  | ended => exact quiet (.setStatus _ _ _ rfl rfl)

theorem Effects.relays (effects : Effects origin action moves before after)
    (tasks : before.TasksSound) (stages : before.StagesSound) (byTasks : before.RelaysByTasks) :
    after.RelaysByTasks ∧ RelaysFrom origin action before after := by
  induction effects with
  | refl => exact ⟨byTasks, .refl _⟩
  | tail first effect ih =>
      have sound := Effects.sound first ⟨tasks, stages⟩
      obtain ⟨byTasks, earlier⟩ := ih
      obtain ⟨byTasks, later⟩ := effect.relays sound.1 byTasks
      exact ⟨byTasks, earlier.trans later⟩

theorem relaysByTasks_of_reachable (reachable : machine.Reachable server) :
    server.RelaysByTasks := by
  refine reachable.invariant _ ?_ fun _ _ _ reached _ byTasks stepped => ?_
  · rintro server ⟨initiatorKey, number, rfl⟩
    constructor <;> simp [created, JobQueue.new, JobQueue.sends]
  · have sound := sound_of_reachable reached
    exact ((sound.effects stepped).relays sound.tasks sound.stages byTasks).1

/-- What one step adds to the messages that are relayed. -/
theorem relaysFrom_step (reachable : machine.Reachable before)
    (stepped : before.step action = some after) : RelaysFrom before action before after := by
  have sound := sound_of_reachable reachable
  exact ((sound.effects stepped).relays sound.tasks sound.stages
    (relaysByTasks_of_reachable reachable)).2

end Server

namespace IncomingMessage

variable {environment : Environment} {session after : Session} {client : PathClient}
  {nonce : Nonce} {packet bytes : List UInt8} {source destination : Address}

theorem createGuessed_ne_relay (expected : MessageType) (value : Value) :
    createGuessed expected value ≠ .ok (.relay source destination bytes) := by
  intro created
  obtain ⟨⟨entries, type⟩, _, created⟩ := exceptBind_ok created
  dsimp only at created
  split at created
  · contradiction
  · split at created
    · obtain ⟨_, _, impossible⟩ := exceptMap_ok created
      contradiction
    · obtain ⟨_, _, impossible⟩ := exceptMap_ok created
      contradiction
    · contradiction

theorem create_ne_relay (sender : Address) (value : Value) :
    create sender value ≠ .ok (.relay source destination bytes) := by
  intro created
  obtain ⟨⟨entries, type⟩, _, created⟩ := exceptBind_ok created
  dsimp only at created
  split at created
  · obtain ⟨_, _, impossible⟩ := exceptMap_ok created
    contradiction
  · contradiction

theorem unpackToServer_ne_relay : unpackToServer environment session client nonce packet ≠
    .returned after (.relay source destination bytes) := by
  intro unpacked
  unfold unpackToServer at unpacked
  dsimp only at unpacked
  split at unpacked
  · split at unpacked
    · contradiction
    · split at unpacked
      · contradiction
      · next created =>
        cases unpacked
        exact create_ne_relay _ _ created
  · split at unpacked
    · contradiction
    · split at unpacked
      · contradiction
      · next created =>
        cases unpacked
        exact createGuessed_ne_relay _ _ created

/-- A packet that is to be relayed has passed the checks of its nonce, and is kept. -/
theorem unpack_relay (unpacked : unpack environment session client packet =
      .returned after (.relay source destination bytes)) :
    bytes = packet ∧ client.P2pAllowed destination.type ∧ destination ≠ serverAddress ∧
      ∃ nonce, Nonce.unpack (packet.take nonceLength) = .ok nonce ∧
        nonce.source = client.id ∧ nonce.destination = destination := by
  obtain ⟨_, middle, nonce, passed, later⟩ := unpack_returned unpacked
  obtain ⟨packed, own, checked⟩ := Session.unpackNonce_returned passed
  obtain ⟨_, _, toServer⟩ | ⟨toClient, _, created⟩ := later
  · exact absurd toServer unpackToServer_ne_relay
  · obtain ⟨_, notServer, same⟩ := createRelay_eq_ok created
    cases same
    obtain ⟨_, allowed, _⟩ | ⟨toServer, _⟩ := checked
    · exact ⟨rfl, allowed, notServer, nonce, packed, own, rfl⟩
    · exact absurd toServer toClient

end IncomingMessage

/-- The client is stored on the path under the address. -/
def Path.Stores (path : Path) (address : Address) (ref : ClientRef) : Prop :=
  address = initiatorAddress ∧ path.initiator = some ref ∨
    ∃ id : ResponderAddress, address = id.toAddress ∧ path.responders.get? id = some ref

namespace PacketServer

variable {environment : Environment} {before after state : PacketServer} {action : Action}
  {source destination : ClientRef} {packet : List UInt8}

/-- What the server knows when it takes up a packet of one client for another one. -/
structure Relayable (state : PacketServer) (source destination : ClientRef)
    (packet : List UInt8) : Prop where
  authenticated : (state.client source).state = .authenticated
  nonce : ∃ nonce, Nonce.unpack (packet.take nonceLength) = .ok nonce ∧
    nonce.source = (state.client source).id ∧
      (state.client source).P2pAllowed nonce.destination.type ∧
        state.server.system.path.Stores nonce.destination destination
  roles : (state.client source).type = some .initiator ∧
      (state.client destination).type = some .responder ∨
    (state.client source).type = some .responder ∧
      (state.client destination).type = some .initiator

theorem interpret_relay {frame : Frame} {address : Address}
    (interpreted : (state.interpret environment source frame).2.1 = .relay address packet) :
    frame = .binary packet ∧ (state.client source).P2pAllowed address.type ∧
      address ≠ serverAddress ∧ ∃ nonce, Nonce.unpack (packet.take nonceLength) = .ok nonce ∧
        nonce.source = (state.client source).id ∧ nonce.destination = address := by
  unfold interpret at interpreted
  split at interpreted
  · contradiction
  · next middle message received =>
    cases message with
    | relay sender target bytes =>
        simp only [Session.handleMessage, Received.relay.injEq] at interpreted
        obtain ⟨rfl, rfl⟩ := interpreted
        cases frame with
        | text => contradiction
        | binary packet =>
            obtain ⟨rfl, unpacked⟩ := IncomingMessage.unpack_relay received
            exact ⟨rfl, unpacked⟩
    | clientAuth message =>
        simp only [Session.handleMessage] at interpreted
        split at interpreted <;> contradiction
    | clientHello key =>
        simp only [Session.handleMessage] at interpreted
        split at interpreted <;> contradiction
    | dropResponder => contradiction

/-- The client that a receive loop finds is stored under the address, and has the role
that belongs to it. -/
theorem relayDestination_stores {server : Server} (roles : server.Roles) (sound : server.Sound)
    {address : Address} (allowed : (server.system.client source).P2pAllowed address.type)
    (notServer : address ≠ serverAddress)
    (found : destination ∈ server.relayDestination source address) :
    server.system.path.Stores address destination ∧
      ((server.system.client source).type = some .initiator ∧
          (server.system.client destination).type = some .responder ∨
        (server.system.client source).type = some .responder ∧
          (server.system.client destination).type = some .initiator) := by
  obtain ⟨authenticated, otherType⟩ := allowed
  have consistent := sound.consistent
  unfold Server.relayDestination at found
  obtain ⟨_, type⟩ | ⟨_, type⟩ := roles.known source (by simp [authenticated])
  · rw [if_pos type] at found
    split at found
    · next id converted =>
      have address_eq : address = id.toAddress :=
        Subtype.ext (ResponderAddress.ofNat_eq_ok converted).symm
      obtain ⟨_, known, own⟩ := consistent.responder id destination found
      refine ⟨.inr ⟨id, address_eq, found⟩, .inl ⟨type, ?_⟩⟩
      obtain ⟨isInitiator, _⟩ | ⟨_, responder⟩ := roles.known destination (by simp [known])
      · exact absurd (own.symm.trans isInitiator) id.ne_initiatorAddress
      · exact responder
    · contradiction
  · rw [if_neg (by simp [type])] at found
    have address_eq : address = initiatorAddress := by
      apply Subtype.ext
      unfold Address.type at otherType
      rw [type] at otherType
      by_contra notInitiator
      have nonzero : address.1 ≠ 0x00 := fun zero => notServer (Subtype.ext zero)
      have notOne : address.1 ≠ 0x01 := notInitiator
      exact otherType (by rw [if_neg nonzero, if_neg notOne])
    obtain ⟨_, known, own⟩ := consistent.initiator destination found
    refine ⟨.inl ⟨address_eq, found⟩, .inr ⟨type, ?_⟩⟩
    obtain ⟨_, initiator⟩ | ⟨⟨id, isResponder⟩, _⟩ := roles.known destination (by simp [known])
    · exact initiator
    · exact absurd (isResponder.symm.trans own) id.ne_initiatorAddress

/-- A step relays nothing but a packet that it receives and that may be relayed. -/
theorem relays_step (reachable : (machine environment).Reachable before)
    (stepped : step environment before action = some after)
    (relays : after.server.Relays destination packet) :
    before.server.Relays destination packet ∨
      ∃ source, action = .receive source (.binary packet) ∧
        before.Relayable source destination packet := by
  have handlers := server_reachable reachable
  refine (Server.relaysFrom_step handlers (step_server stepped) destination packet relays).imp_right
    fun ⟨source, address, receives, takes⟩ => ?_
  rw [receives] at takes
  cases action with
  | connect => contradiction
  | other action =>
      change action = _ at receives
      subst receives
      simp [step, Server.Action.ofPackets] at stepped
  | receive mover frame =>
      injection receives with same interpreted
      subst same
      obtain ⟨rfl, allowed, notServer, nonce, packed, own, rfl⟩ := interpret_relay interpreted
      unfold Server.takesRelay at takes
      dsimp only at takes
      split at takes
      · obtain ⟨stored, roles⟩ := relayDestination_stores (Server.roles_of_reachable handlers)
          (sound_of_reachable reachable) allowed notServer takes
        exact ⟨mover, rfl, allowed.1, ⟨nonce, packed, own, allowed, stored⟩, roles⟩
      · contradiction

/-- The server does not relay the packet for its sender. -/
def Refuses (state : PacketServer) (source : ClientRef) (packet : List UInt8) : Prop :=
  (state.client source).state ≠ .authenticated ∨
    ∃ nonce, Nonce.unpack (packet.take nonceLength) = .ok nonce ∧
      (state.client source).type = some nonce.destination.type

theorem Relayable.not_refused (relayable : state.Relayable source destination packet) :
    ¬ state.Refuses source packet := by
  rintro (unknown | ⟨nonce, packed, own⟩)
  · exact unknown relayable.authenticated
  · obtain ⟨other, found, _, allowed, _⟩ := relayable.nonce
    cases packed.symm.trans found
    exact allowed.2 own

section Paths

variable {PathId : Type*} [DecidableEq PathId]

/-- The server took up the packet for the client in an earlier step on the path. -/
def TakenUp (environment : Environment) (paths : PathId → PacketServer) (path : PathId)
    (destination : ClientRef) (packet : List UInt8) : Prop :=
  ∃ origin next source, ((machine environment).family PathId).Reachable origin ∧
    ((machine environment).family PathId).step origin (path, .receive source (.binary packet)) =
      some next ∧
    ((machine environment).family PathId).Continues (fun _ _ => True) next paths ∧
    (origin path).Relayable source destination packet

theorem takenUp_of_relays {paths : PathId → PacketServer}
    (reachable : ((machine environment).family PathId).Reachable paths) (path : PathId)
    (relays : (paths path).server.Relays destination packet) :
    TakenUp environment paths path destination packet := by
  induction reachable with
  | start first =>
      obtain ⟨⟨initiatorKey, number, created⟩, _⟩ := first path
      rw [created] at relays
      simp [Server.Relays, Server.created] at relays
  | @next before after action reached _ stepped ih =>
      have keep (earlier : (before path).server.Relays destination packet) :
          TakenUp environment after path destination packet := by
        obtain ⟨origin, next, source, start, taken, steps, relayable⟩ := ih earlier
        exact ⟨origin, next, source, start, taken, steps.next trivial stepped, relayable⟩
      obtain ⟨mover, moved⟩ := action
      obtain ⟨own, others⟩ := Machine.family_step stepped
      by_cases same : path = mover
      · subst same
        obtain earlier | ⟨source, rfl, relayable⟩ :=
          relays_step (Machine.family_reachable reached path) own relays
        · exact keep earlier
        · exact ⟨before, after, source, reached, stepped, .refl, relayable⟩
      · rw [others path same] at relays
        exact keep relays

/-- A relayed message comes from an authenticated client of the same path and of the other
role, and reaches the client that was stored under its destination.  What is refused is
relayed to nobody. -/
theorem relay_isolation (environment : Environment) {paths : PathId → PacketServer}
    (reachable : ((machine environment).family PathId).Reachable paths) (path : PathId) :
    (∀ destination packet number,
      .sent destination (.relay packet) number ∈ (paths path).server.history →
        TakenUp environment paths path destination packet ∧
          ∀ session : Session, session.pack (.relay packet) = (session, ⟨none, .ok packet⟩)) ∧
    ∀ source packet next,
      step environment (paths path) (.receive source (.binary packet)) = some next →
        (paths path).Refuses source packet →
          ∀ destination bytes, next.server.Relays destination bytes →
            (paths path).server.Relays destination bytes := by
  refine ⟨fun destination packet number sent => ⟨?_, fun _ => rfl⟩, ?_⟩
  · exact takenUp_of_relays reachable path (.inr ⟨number, sent⟩)
  · intro source packet next stepped refused destination bytes relays
    obtain earlier | ⟨sender, same, relayable⟩ :=
      relays_step (Machine.family_reachable reachable path) stepped relays
    · exact earlier
    · cases same
      exact absurd refused relayable.not_refused

/-- A payload of zero is a client-hello message, and one of one a client-auth message. -/
def introducingEnvironment : Environment :=
  .keyless
    (fun payload =>
      if payload = [0x00] then
        some (.dict [(.str "type", .str "client-hello"), (.str "key", .bytes (examplePublicKey [0x03]))])
      else if payload = [0x01] then
        some (.dict [(.str "type", .str "client-auth"),
          (.str "your_cookie", .bytes (List.replicate 16 0)),
          (.str "subprotocols", .list [.str "v1.saltyrtc.org"])])
      else none)
    openPayload ["v1.saltyrtc.org"]

def introducingPacket (source destination : Address) (number : Nat) (data : List UInt8) :
    List UInt8 :=
  Nonce.pack onesCookie source destination number ++ data

/-- A client-auth message, sealed with the key of its client. -/
def introducingAuth (key : SecretKey) (number : Nat) : Frame :=
  .binary (introducingPacket serverAddress serverAddress number
    (sealPayload (key, examplePublicKey zeroDrawn.serverKey)
      (Nonce.pack onesCookie serverAddress serverAddress number) [0x01]))

def relayedPacket : List UInt8 :=
  introducingPacket initiatorAddress ResponderAddress.lowest.toAddress 0 [7]

/-- The initiator relays a message to the only responder. -/
theorem relay_isolation_initiator : ∃ paths : Unit → PacketServer,
    TakenUp introducingEnvironment paths () 1 relayedPacket := by
  let start : PacketServer := ⟨Server.created (examplePublicKey [0x02]) 1,
    fun _ => Session.new zeroDrawn [], fun _ => .saltyrtcV1, []⟩
  let connects (ref : ClientRef) : List Action :=
    [.connect ref zeroDrawn ["v1.saltyrtc.org"], .other (.begin ref), .other (.sent ref)]
  let hello : Frame := .binary (introducingPacket serverAddress serverAddress 0 [0x00])
  have first : ((machine introducingEnvironment).family Unit).initial fun _ => start :=
    fun _ => ⟨Server.initial_created (examplePublicKey [0x02]) 1, rfl⟩
  let schedule : List Action :=
    connects 0 ++ [.receive 0 (introducingAuth [0x02] 0), .other (.sent 0)] ++ connects 1 ++
      [.receive 1 hello, .receive 1 (introducingAuth [0x03] 1), .other (.sent 1),
        .receive 0 (.binary relayedPacket), .other .taskStart]
  have handed : (((machine introducingEnvironment).family Unit).run (fun _ => start)
      (schedule.map fun action => ((), action))).any (fun paths => decide
        (.sent 1 (.relay relayedPacket) (some 9) ∈ (paths ()).server.history)) = true := by
    decide +kernel
  obtain ⟨paths, ran, sent⟩ := (Option.any_eq_true ..).mp handed
  have reachable := Machine.reachable_of_run first _ ran
  exact ⟨paths, ((relay_isolation introducingEnvironment reachable ()).1 1 relayedPacket (some 9)
    (of_decide_eq_true sent)).1⟩

end Paths

end PacketServer

end SaltyRtcServer
