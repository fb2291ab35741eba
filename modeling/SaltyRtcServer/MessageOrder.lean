import SaltyRtcServer.ServerInvariant

/-!
# The order of the messages to one client

Messages of the server wait in the queue of their destination as coroutines, and
the runner starts them one by one.  A relayed message is a task that the event
loop starts by itself, whatever the runner is waiting for.  The messages reach
the connection in the order in which they were enqueued as long as no message is
relayed to a client that has coroutines waiting.
-/

namespace SaltyRtcServer

open StepMachine

/-- A message that was put in the queue of the client. -/
def Event.enqueued? (client : ClientRef) : Event → Option (OutgoingMessage × Nat)
  | .submitted ref message (some number) => if ref = client then some (message, number) else none
  | _ => none

/-- A queued message that was handed to the connection of the client. -/
def Event.handed? (client : ClientRef) : Event → Option (OutgoingMessage × Nat)
  | .sent ref message (some number) => if ref = client then some (message, number) else none
  | _ => none

def TaskBody.queued? (client : ClientRef) : TaskBody → Option (OutgoingMessage × Nat)
  | .run ref (.send message (some number)) =>
      if ref = client then some (message, number) else none
  | _ => none

namespace Server

variable (server : Server) (client : ClientRef)

/-- The messages that were put in the queue of a client, in order. -/
def enqueued : List (OutgoingMessage × Nat) := server.history.filterMap (Event.enqueued? client)

/-- The queued messages that were handed to its connection, in order. -/
def handed : List (OutgoingMessage × Nat) := server.history.filterMap (Event.handed? client)

/-- Those whose tasks have not started. -/
def scheduled : List (OutgoingMessage × Nat) := server.loop.pending.filterMap (TaskBody.queued? client)

/-- Those that wait in the queue as coroutines. -/
def waiting : List (OutgoingMessage × Nat) :=
  (server.jobs client).sends.filterMap fun entry => entry.2.map fun number => (entry.1, number)

/-- The messages that are handed over or may still be are among those that were
enqueued, in the same order. -/
def Ordered (server : Server) : Prop :=
  ∀ client, (server.handed client ++ server.scheduled client ++ server.waiting client).Sublist
    (server.enqueued client)

/-- Nothing is relayed to a client while coroutines wait in its queue. -/
def RelaysLast (server : Server) (action : Action) : Prop :=
  ∀ destination ∈ server.takesRelay action,
    (server.jobs destination).state = .opened → (server.jobs destination).sends = []

instance (server : Server) (action : Action) : Decidable (server.RelaysLast action) :=
  inferInstanceAs (Decidable (∀ destination ∈ server.takesRelay action, _ → _))

section Observations

variable {server before after : Server} {client : ClientRef}

theorem Calm.handed {moves : ClientRef → Prop} (calm : Calm moves before after) :
    after.handed client = before.handed client := by
  obtain ⟨events, history, silent⟩ := calm.history
  have none : events.filterMap (Event.handed? client) = [] := by
    rw [List.filterMap_eq_nil_iff]
    intro event mem
    have := silent event mem
    cases event <;> simp_all [Event.Silent, Event.handed?]
  simp [Server.handed, history, none]

theorem Calm.enqueued {moves : ClientRef → Prop} (calm : Calm moves before after) :
    after.enqueued client = before.enqueued client := by
  obtain ⟨events, history, silent⟩ := calm.history
  have none : events.filterMap (Event.enqueued? client) = [] := by
    rw [List.filterMap_eq_nil_iff]
    intro event mem
    have := silent event mem
    cases event <;> simp_all [Event.Silent, Event.enqueued?]
  simp [Server.enqueued, history, none]

theorem scheduled_extends {spawned : TaskBody → Prop} {cancelled : TaskId → Prop}
    (extension : before.loop.Extends spawned cancelled after.loop)
    (wellFormed : before.loop.WellFormed)
    (unqueued : ∀ body, spawned body → body.queued? client = none) :
    after.scheduled client = before.scheduled client := by
  obtain ⟨bodies, pending, areSpawned⟩ := extension.pending wellFormed
  have none : bodies.filterMap (TaskBody.queued? client) = [] := by
    rw [List.filterMap_eq_nil_iff]
    exact fun body mem => unqueued body (areSpawned body mem)
  simp [scheduled, pending, none]

theorem waiting_sublist (shrinks : (before.jobs client).Shrinks (after.jobs client)) :
    (after.waiting client).Sublist (before.waiting client) :=
  shrinks.sends.filterMap _

theorem Ordered.calm {moves : ClientRef → Prop} (ordered : before.Ordered)
    (wellFormed : before.loop.WellFormed) (calm : Calm moves before after) : after.Ordered := by
  intro client
  rw [calm.handed, calm.enqueued, scheduled_extends calm.loop wellFormed]
  · exact ((List.Sublist.refl _).append (waiting_sublist (calm.jobs client))).trans
      (ordered client)
  · intro body isClose
    unfold TaskBody.IsClose at isClose
    split at isClose
    · rfl
    · contradiction

theorem Ordered.of_same (ordered : before.Ordered) (history : after.history = before.history)
    (jobs : after.jobs = before.jobs) (pending : after.loop.pending = before.loop.pending) :
    after.Ordered := by
  intro client
  unfold Server.handed Server.scheduled Server.waiting Server.enqueued
  rw [history, jobs, pending]
  exact ordered client

theorem handed_log (event : Event) :
    (server.log event).handed client = server.handed client ++ (event.handed? client).toList := by
  simp only [Server.handed, Server.log, List.filterMap_append]
  cases observed : event.handed? client <;> simp [observed]

theorem enqueued_log (event : Event) :
    (server.log event).enqueued client =
      server.enqueued client ++ (event.enqueued? client).toList := by
  simp only [Server.enqueued, Server.log, List.filterMap_append]
  cases observed : event.enqueued? client <;> simp [observed]

theorem Ordered.log (ordered : before.Ordered) {event : Event}
    (unqueued : ∀ client, event.enqueued? client = none ∧ event.handed? client = none) :
    (before.log event).Ordered := by
  intro client
  rw [handed_log, enqueued_log, (unqueued client).1, (unqueued client).2]
  simp only [Option.toList_none, List.append_nil]
  exact ordered client

/-- The entry that a submission adds to the queue of a client. -/
def submission (server : Server) (ref : ClientRef) (message : OutgoingMessage)
    (client : ClientRef) : List (OutgoingMessage × Nat) :=
  if ref = client ∧ (server.jobs ref).state = .opened then [(message, server.history.length)]
  else []

theorem submitted_enqueued (ref : ClientRef) (message : OutgoingMessage) :
    (Event.enqueued? client (.submitted ref message (server.nextNumber ref))).toList =
      server.submission ref message client := by
  unfold submission nextNumber
  by_cases opened : (server.jobs ref).state = .opened
  · rw [if_pos opened]
    by_cases same : ref = client
    · subst same
      simp [opened, Event.enqueued?]
    · simp [same, Event.enqueued?]
  · simp [opened, Event.enqueued?]

theorem enqueued_submit (ref : ClientRef) (message : OutgoingMessage) :
    (server.submit ref message).enqueued client =
      server.enqueued client ++ server.submission ref message client := by
  rw [← submitted_enqueued, Server.enqueued, submit_history]
  exact enqueued_log _

theorem handed_submit (ref : ClientRef) (message : OutgoingMessage) :
    (server.submit ref message).handed client = server.handed client := by
  rw [Server.handed, submit_history]
  exact (handed_log _).trans (List.append_nil _)

theorem waiting_submit (ref : ClientRef) (message : OutgoingMessage) :
    (server.submit ref message).waiting client =
      server.waiting client ++ server.submission ref message client := by
  unfold Server.waiting submission
  rw [submit_jobs]
  by_cases same : client = ref
  · subst same
    rw [Function.update_self]
    by_cases opened : (server.jobs client).state = .opened <;>
      simp [opened, JobQueue.put, JobQueue.sends, JobEntry.message?, nextNumber]
  · simp [same, Ne.symm same]

theorem Ordered.submit (ordered : before.Ordered) (ref : ClientRef) (message : OutgoingMessage) :
    (before.submit ref message).Ordered := by
  intro client
  have scheduled : (before.submit ref message).scheduled client = before.scheduled client := by
    rw [Server.scheduled, submit_loop]
    rfl
  rw [handed_submit, scheduled, waiting_submit, enqueued_submit, ← List.append_assoc]
  exact (ordered client).append (List.Sublist.refl _)

section Relay

variable (destination : ClientRef) (packet : List UInt8)

theorem scheduled_relay (wellFormed : server.loop.WellFormed) :
    (server.submitTask destination (.relay packet)).scheduled client =
      server.scheduled client ++ server.submission destination (.relay packet) client := by
  have pending := EventLoop.pending_spawn wellFormed
    (.run destination (.send (.relay packet) (server.nextNumber destination)))
  have same : (server.submitTask destination (.relay packet)).loop.pending =
      server.loop.pending ++
        [.run destination (.send (.relay packet) (server.nextNumber destination))] := by
    rw [submitTask_loop]
    dsimp only
    split
    · exact pending
    · rw [← pending, EventLoop.pending_requestCancel]
  rw [Server.scheduled, same, List.filterMap_append]
  congr 1
  unfold submission nextNumber
  by_cases opened : (server.jobs destination).state = .opened
  · rw [if_pos opened]
    by_cases same : destination = client
    · subst same
      simp [opened, TaskBody.queued?]
    · simp [same, TaskBody.queued?]
  · simp [opened, TaskBody.queued?]

theorem waiting_relay : (server.submitTask destination (.relay packet)).waiting client =
    server.waiting client := by
  unfold Server.waiting
  rw [submitTask_jobs]
  by_cases same : client = destination
  · subst same
    rw [Function.update_self]
    split
    · simp [JobQueue.put, JobQueue.sends, JobEntry.message?]
    · rfl
  · rw [Function.update_of_ne same]

theorem Ordered.relay (ordered : before.Ordered) (wellFormed : before.loop.WellFormed)
    (last : (before.jobs destination).state = .opened → (before.jobs destination).sends = [])
    (ref : ClientRef) :
    ((before.submitTask destination (.relay packet)).setReceiveLoop ref
      (.relaying before.loop.next packet)).Ordered := by
  intro client
  change ((before.submitTask destination (.relay packet)).handed client ++
    (before.submitTask destination (.relay packet)).scheduled client ++
      (before.submitTask destination (.relay packet)).waiting client).Sublist
        ((before.submitTask destination (.relay packet)).enqueued client)
  have initial := ordered client
  have history : (before.submitTask destination (.relay packet)).history =
      (before.log (.submitted destination (.relay packet) (before.nextNumber destination))).history :=
    rfl
  have handed : (before.submitTask destination (.relay packet)).handed client =
      before.handed client := (handed_log _).trans (List.append_nil _)
  have enqueued : (before.submitTask destination (.relay packet)).enqueued client =
      before.enqueued client ++ before.submission destination (.relay packet) client := by
    rw [← submitted_enqueued]
    exact enqueued_log _
  rw [handed, scheduled_relay destination packet wellFormed, waiting_relay, enqueued]
  unfold submission
  split
  · next queued =>
    obtain ⟨rfl, opened⟩ := queued
    have empty : before.waiting destination = [] := by simp [Server.waiting, last opened]
    rw [empty, List.append_nil] at initial ⊢
    rw [← List.append_assoc]
    exact initial.append (List.Sublist.refl _)
  · simpa using initial

end Relay

theorem Ordered.gather (ordered : before.Ordered) (wellFormed : before.loop.WellFormed)
    {messages : List (ClientRef × OutgoingMessage)} {ids : List TaskId}
    (gathers : before.gather messages = (after, ids)) : after.Ordered := by
  obtain ⟨rfl, _⟩ := gather_eq gathers
  intro client
  have scheduled : (({ before with loop := (before.loop.spawnAll (messages.map fun message =>
      .enqueue message.1 message.2)).1 } : Server)).scheduled client = before.scheduled client := by
    simp only [Server.scheduled, EventLoop.pending_spawnAll wellFormed, List.filterMap_append,
      List.filterMap_map]
    simp [Function.comp_def, TaskBody.queued?]
  rw [scheduled]
  exact ordered client

theorem Ordered.take (ordered : before.Ordered) (wellFormed : before.loop.WellFormed)
    {ref : ClientRef} {coroutine : Coroutine} {rest : List JobEntry}
    (queue : (before.jobs ref).queue = .job (.coroutine coroutine) :: rest) :
    ({ before with loop := before.loop.spawn (.run ref coroutine) }.setJobs ref
      { before.jobs ref with
        queue := rest
        runner := .awaiting before.loop.next
        active := some before.loop.next }).Ordered := by
  intro client
  let after : Server := { before with loop := before.loop.spawn (.run ref coroutine) }.setJobs ref
    { before.jobs ref with
      queue := rest
      runner := .awaiting before.loop.next
      active := some before.loop.next }
  have scheduled : after.scheduled client =
      before.scheduled client ++ (TaskBody.queued? client (.run ref coroutine)).toList := by
    change (before.loop.spawn (.run ref coroutine)).pending.filterMap _ = _
    rw [EventLoop.pending_spawn wellFormed, List.filterMap_append, Server.scheduled]
    congr 1
  have waiting : before.waiting client =
      (TaskBody.queued? client (.run ref coroutine)).toList ++ after.waiting client := by
    by_cases same : client = ref
    · subst same
      simp only [Server.waiting, JobQueue.sends, queue, after, setJobs, Function.update_self]
      rcases coroutine with ⟨message, _ | number⟩ | code <;>
        simp [List.filterMap_cons, JobEntry.message?, TaskBody.queued?]
    · have unqueued : TaskBody.queued? client (.run ref coroutine) = none := by
        rcases coroutine with ⟨message, _ | number⟩ | code <;>
          simp [TaskBody.queued?, Ne.symm same]
      simp [Server.waiting, after, setJobs, same, unqueued]
  have initial := ordered client
  rw [waiting] at initial
  change (before.handed client ++ after.scheduled client ++ after.waiting client).Sublist
    (before.enqueued client)
  rw [scheduled]
  simpa only [List.append_assoc] using initial

/-- The message of the first ready task, if it has one, is the first one scheduled. -/
theorem scheduled_startHead {id : TaskId} {rest : List TaskId}
    (ready : before.loop.ready = id :: rest) (status : TaskStatus PyException) :
    before.scheduled client = (TaskBody.queued? client (before.loop.task id).body).toList ++
      (before.startHead id status).scheduled client := by
  simp only [Server.scheduled, startHead, EventLoop.pending_setStatus,
    EventLoop.pending_of_ready ready, List.filterMap_cons]
  cases observed : TaskBody.queued? client (before.loop.task id).body <;> simp

theorem Ordered.startHead (ordered : before.Ordered) {id : TaskId} {rest : List TaskId}
    (ready : before.loop.ready = id :: rest) (status : TaskStatus PyException) :
    (before.startHead id status).Ordered := by
  intro client
  have initial := ordered client
  rw [scheduled_startHead ready status] at initial
  refine List.Sublist.trans ?_ initial
  exact ((List.Sublist.refl _).append (List.sublist_append_right _ _)).append
    (List.Sublist.refl _)

theorem Ordered.handed (ordered : before.Ordered) {id : TaskId} {rest : List TaskId}
    {ref : ClientRef} {message : OutgoingMessage} {number : Option Nat}
    (ready : before.loop.ready = id :: rest)
    (body : (before.loop.task id).body = .run ref (.send message number)) :
    ((before.startHead id .suspended).log (.sent ref message number)).Ordered := by
  intro client
  have initial := ordered client
  have observed : Event.handed? client (.sent ref message number) =
      TaskBody.queued? client (.run ref (.send message number)) := by
    cases number <;> rfl
  have unqueued : Event.enqueued? client (.sent ref message number) = none := rfl
  rw [scheduled_startHead ready .suspended, body, ← observed] at initial
  rw [handed_log, enqueued_log, unqueued]
  simp only [Option.toList_none, List.append_nil]
  rw [List.append_assoc, List.append_assoc] at initial ⊢
  exact initial

theorem Ordered.connect (ordered : before.Ordered) {ref : ClientRef} {csn : Nat}
    (stepped : before.connect ref csn = some after) : after.Ordered := by
  unfold Server.connect at stepped
  split at stepped
  · rw [Option.map_eq_some_iff] at stepped
    obtain ⟨system, _, rfl⟩ := stepped
    intro client
    refine List.Sublist.trans ?_ (ordered client)
    apply (List.Sublist.refl _).append
    by_cases same : client = ref
    · subst same
      simp [Server.waiting, JobQueue.new, JobQueue.sends]
    · simp [Server.waiting, same]
  · contradiction

theorem Effect.ordered {origin : Server} {action : Action} {moves : ClientRef → Prop}
    (effect : Effect origin action moves before after) (relaysLast : origin.RelaysLast action)
    (wellFormed : before.loop.WellFormed) (ordered : before.Ordered) : after.Ordered := by
  have unqueued : ∀ ref client, Event.enqueued? client (.authenticated ref) = none ∧
      Event.handed? client (.authenticated ref) = none := fun ref client => ⟨rfl, rfl⟩
  cases effect with
  | calm calm => exact ordered.calm wellFormed calm
  | path stepped plain _ => exact ordered.of_same rfl rfl rfl
  | connect mover stepped => exact ordered.connect stepped
  | @initiator ref _ dropped gathered state previous ids _ _ _ _ _ _ calm _ loop gathers =>
      have middle : ({ before with
          system := before.system.afterSetInitiator ref (.returned state previous) }.log
            (.authenticated ref)).Ordered :=
        Ordered.log (ordered.of_same rfl rfl rfl) (unqueued ref)
      have gatheredOrdered := (middle.calm wellFormed calm).gather (loop ▸ wellFormed) gathers
      split
      · exact gatheredOrdered
      · exact gatheredOrdered.of_same rfl rfl rfl
  | @responder ref _ joined state id _ _ _ _ _ same =>
      have middle : joined.Ordered := by
        rw [same]
        exact Ordered.log (ordered.of_same rfl rfl rfl) (unqueued ref)
      split
      · exact middle.log fun client => ⟨rfl, rfl⟩
      · exact (middle.submit _ _).log fun client => ⟨rfl, rfl⟩
  | created => exact ordered.log fun client => ⟨rfl, rfl⟩
  | greeted => exact Ordered.log (ordered.of_same rfl rfl rfl) fun client => ⟨rfl, rfl⟩
  | serverAuth => exact Ordered.log (ordered.of_same rfl rfl rfl) fun client => ⟨rfl, rfl⟩
  | sendError => exact ordered.submit _ _
  | relay packet _ takes => exact ordered.relay _ packet wellFormed (relaysLast _ takes) _
  | disconnectedResponder => exact ordered.submit _ _
  | disconnectedInitiator _ _ _ _ _ gathers =>
      split
      · exact ordered.gather wellFormed gathers
      · exact (ordered.gather wellFormed gathers).of_same rfl rfl rfl
  | take _ queue => exact ordered.take wellFormed queue
  | startEnded _ ready => exact ordered.startHead ready _
  | startClosing _ ready body => exact ordered.startHead ready _
  | handed _ ready alive body => exact ordered.handed ready body
  | enqueued _ ready body => exact (ordered.startHead ready _).submit _ _
  | ended _ suspended => exact ordered.of_same rfl rfl (by simp)

/-- Every message that was enqueued has the position of its submission in the
history as its number. -/
structure Numbered (server : Server) : Prop where
  increasing : ∀ client, (server.enqueued client).Pairwise fun one two => one.2 < two.2
  bounded : ∀ client, ∀ entry ∈ server.enqueued client, entry.2 < server.history.length

theorem Numbered.of_same (numbered : before.Numbered)
    (enqueued : ∀ client, after.enqueued client = before.enqueued client)
    (longer : before.history.length ≤ after.history.length) : after.Numbered := by
  refine ⟨fun client => ?_, fun client entry mem => ?_⟩
  · rw [enqueued]
    exact numbered.increasing client
  · rw [enqueued] at mem
    exact Nat.lt_of_lt_of_le (numbered.bounded client entry mem) longer

theorem Numbered.log (numbered : before.Numbered) {event : Event}
    (history : after.history = before.history ++ [event])
    (unqueued : ∀ client, event.enqueued? client = none) : after.Numbered := by
  refine numbered.of_same (fun client => ?_) (by simp [history])
  simp [Server.enqueued, history, unqueued client]

theorem Numbered.submitted (numbered : before.Numbered) {ref : ClientRef}
    {message : OutgoingMessage}
    (history : after.history =
      before.history ++ [.submitted ref message (before.nextNumber ref)]) : after.Numbered := by
  have enqueued : ∀ client, after.enqueued client =
      before.enqueued client ++ before.submission ref message client := by
    intro client
    rw [← submitted_enqueued, Server.enqueued, history]
    exact enqueued_log _
  have new : ∀ client, ∀ entry ∈ before.submission ref message client,
      entry.2 = before.history.length := by
    intro client entry mem
    unfold submission at mem
    split at mem
    · rw [List.mem_singleton.mp mem]
    · contradiction
  refine ⟨fun client => ?_, fun client entry mem => ?_⟩
  · rw [enqueued, List.pairwise_append]
    refine ⟨numbered.increasing client, ?_, fun one early two late => ?_⟩
    · unfold submission
      split <;> simp
    · rw [new client two late]
      exact numbered.bounded client one early
  · rw [enqueued] at mem
    rw [history, List.length_append]
    rcases List.mem_append.mp mem with early | late
    · exact Nat.lt_add_right _ (numbered.bounded client entry early)
    · rw [new client entry late]
      exact Nat.lt_add_one _

theorem Numbered.calm {moves : ClientRef → Prop} (numbered : before.Numbered)
    (calm : Calm moves before after) : after.Numbered := by
  obtain ⟨events, history, _⟩ := calm.history
  exact numbered.of_same (fun client => calm.enqueued) (by simp [history])

theorem Effect.numbered {origin : Server} {action : Action} {moves : ClientRef → Prop}
    (effect : Effect origin action moves before after) (numbered : before.Numbered) :
    after.Numbered := by
  have same : ∀ {other : Server}, other.history = before.history → other.Numbered :=
    fun history => numbered.of_same (fun client => by simp [Server.enqueued, history])
      (by simp [history])
  cases effect with
  | calm calm => exact numbered.calm calm
  | connect mover stepped =>
      unfold Server.connect at stepped
      split at stepped
      · rw [Option.map_eq_some_iff] at stepped
        obtain ⟨system, _, rfl⟩ := stepped
        exact same rfl
      · contradiction
  | @initiator ref _ dropped gathered state previous ids _ _ _ _ _ _ calm _ _ gathers =>
      have middle : ({ before with
          system := before.system.afterSetInitiator ref (.returned state previous) }.log
            (.authenticated ref)).Numbered :=
        numbered.log rfl fun client => rfl
      have history : gathered.history = dropped.history := by rw [(gather_eq gathers).1]
      have gatheredNumbered : gathered.Numbered :=
        (middle.calm calm).of_same (fun client => by simp [Server.enqueued, history])
          (by simp [history])
      split
      · exact gatheredNumbered
      · exact gatheredNumbered.of_same (fun client => rfl) (Nat.le_refl _)
  | @responder ref _ joined state id _ _ _ _ _ isJoined =>
      have middle : joined.Numbered := by
        rw [isJoined]
        exact numbered.log rfl fun client => rfl
      split
      · exact middle.log rfl fun client => rfl
      · exact (middle.submitted (submit_history _ _ _)).log rfl fun client => rfl
  | created => exact numbered.log rfl fun client => rfl
  | greeted => exact numbered.log rfl fun client => rfl
  | serverAuth => exact numbered.log rfl fun client => rfl
  | sendError => exact numbered.submitted (submit_history _ _ _)
  | relay packet => exact numbered.submitted rfl
  | disconnectedResponder => exact numbered.submitted (submit_history _ _ _)
  | @disconnectedInitiator ref closing gathered ids _ _ _ _ _ gathers =>
      have history : gathered.history = before.history := by rw [(gather_eq gathers).1]
      split
      · exact same history
      · exact same history
  | handed => exact numbered.log rfl fun client => rfl
  | enqueued => exact numbered.submitted (submit_history _ _ _)
  | path | take | startEnded | startClosing | ended => exact same rfl

end Observations

/-- Along every run in which nothing is relayed past waiting coroutines, the
messages of each client, which are told apart by their numbers, are handed over in
the order in which they were enqueued. -/
theorem handed_in_order {server : Server} (reach : machine.Reach RelaysLast server)
    (client : ClientRef) :
    (server.handed client).Sublist (server.enqueued client) ∧
      (server.enqueued client).Pairwise fun one two => one.2 < two.2 := by
  have ordered : server.Ordered := by
    refine invariant_of_effects Ordered (fun initiatorKey number client => ?_)
      (fun origin action before after _ relaysLast tasks _ ordered effect =>
        effect.ordered relaysLast tasks.loop ordered) reach
    simp [created, Server.handed, Server.scheduled, Server.waiting, EventLoop.pending,
      JobQueue.new, JobQueue.sends]
  have numbered : server.Numbered := by
    refine invariant_of_effects Numbered (fun initiatorKey number => ?_)
      (fun origin action before after _ _ _ _ numbered effect => effect.numbered numbered) reach
    exact ⟨by simp [created, Server.enqueued], by simp [created, Server.enqueued]⟩
  refine ⟨?_, numbered.increasing client⟩
  exact ((List.sublist_append_left _ _).trans (List.sublist_append_left _ _)).trans
    (ordered client)

/-- A new responder and a relayed message, with nothing in between. -/
theorem handed_in_order_initiator :
    ∃ server : Server, (server.handed 0).map Prod.fst =
        [.newResponder .lowest, .relay [0x07]] ∧
      (server.handed 0).Sublist (server.enqueued 0) ∧
        (server.enqueued 0).Pairwise fun one two => one.2 < two.2 := by
  have reach : machine.Reach RelaysLast _ :=
    Machine.reach_run (.start (initial_created [0x61] 1))
      (joinInitiator 0 ++ joinResponder 1 ++
        [.runnerGet 0, .receive 1 (.relay initiatorAddress [0x07]), .taskStart, .taskStart])
      (by decide +kernel) rfl
  exact ⟨_, by decide +kernel, handed_in_order reach 0⟩

/-- While the runner waits for one message to be sent, a second one is queued and a
message that is relayed after it is handed over first. -/
theorem relay_overtakes :
    ¬ ∀ server : Server, machine.Reachable server → ∀ client,
      (server.handed client).Sublist (server.enqueued client) := by
  intro claimed
  have reachable : machine.Reachable _ := Machine.reachable_of_run (initial_created [0x61] 1)
    (joinInitiator 0 ++ joinResponder 1 ++ [.runnerGet 0, .taskStart] ++ joinResponder 2 ++
      [.receive 1 (.relay initiatorAddress [0x07]), .taskStart, .taskSent 0, .runnerWake 0,
        .runnerGet 0, .taskStart]) rfl
  have ordered := claimed _ reachable 0
  revert ordered
  decide +kernel

end Server

end SaltyRtcServer
