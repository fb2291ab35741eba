import Mathlib.Data.List.TakeWhile
import SaltyRtcServer.ServerInvariant

/-!
# The first message after authentication

A client can be reached by its peers as soon as it is on the path, but the runner of
its queue starts only after its server-auth message was sent.  What is relayed to it
does not wait for the runner, so the relaying clients decide whether server-auth
comes first.
-/

namespace SaltyRtcServer

open StepMachine

/-- The message that is handed to the connection of the client. -/
def Event.sent? (client : ClientRef) : Event → Option OutgoingMessage
  | .sent ref message _ => if ref = client then some message else none
  | _ => none

instance : DecidablePred OutgoingMessage.IsServerAuth
  | .serverAuthInitiator _ | .serverAuthResponder _ _ => .isTrue trivial
  | .serverHello | .newInitiator _ | .newResponder _ | .sendError _ _ | .disconnected _ _
  | .relay _ => .isFalse id

/-- The queue is no longer open, and no message waits in it. -/
def JobQueue.Muted (jobs : JobQueue) : Prop :=
  jobs.state ≠ .opened ∧ jobs.sends = []

theorem JobQueue.Shrinks.muted {before after : JobQueue} (shrinks : before.Shrinks after)
    (muted : before.Muted) : after.Muted := by
  obtain ⟨closed, empty⟩ := muted
  refine ⟨fun opened => closed (shrinks.opened opened), ?_⟩
  exact List.sublist_nil.mp (empty ▸ shrinks.sends)

namespace Server

/-- What was handed to the connection of a client since it was authenticated. -/
def handedSince (server : Server) (client : ClientRef) : List OutgoingMessage :=
  (server.history.dropWhile (· ≠ .authenticated client)).filterMap (Event.sent? client)

/-- A message is relayed to a client whose queue is open only after its server-auth
message was sent. -/
def RelaysAfterAuth (server : Server) (action : Action) : Prop :=
  ∀ destination ∈ server.takesRelay action, (server.jobs destination).state = .opened →
    ∃ message ∈ server.handedSince destination, message.IsServerAuth

instance (server : Server) (action : Action) : Decidable (server.RelaysAfterAuth action) :=
  inferInstanceAs (Decidable (∀ destination ∈ server.takesRelay action,
    (server.jobs destination).state = .opened →
      ∃ message ∈ server.handedSince destination, message.IsServerAuth))

/-- Server-auth is sent first, and nothing else is about to be sent before it. -/
structure AuthFirst (server : Server) : Prop where
  first : ∀ client, ∀ message ∈ (server.handedSince client).head?, message.IsServerAuth
  scheduled : ∀ id ∈ server.loop.ready, ∀ client message number,
    (server.loop.task id).body = .run client (.send message (some number)) →
      server.handedSince client ≠ []
  started : ∀ client, (server.jobs client).runner ≠ .notStarted →
    server.handedSince client ≠ [] ∨ (server.jobs client).Muted
  sending : ∀ client, server.handler client = .sendingAuth → server.handedSince client ≠ []

section Observations

variable {server before after : Server} {ref client : ClientRef}

theorem handedSince_unsent {events : List Event}
    (history : after.history = before.history ++ events)
    (unsent : ∀ message number, .sent client message number ∉ events) :
    after.handedSince client = before.handedSince client := by
  have none : events.filterMap (Event.sent? client) = [] := by
    rw [List.filterMap_eq_nil_iff]
    intro event mem
    cases event with
    | sent ref message number =>
        apply if_neg
        rintro rfl
        exact unsent message number mem
    | _ => rfl
  simp only [handedSince, history, List.dropWhile_append]
  split
  · next empty =>
    rw [List.isEmpty_iff.mp empty]
    refine List.sublist_nil.mp (none ▸ ?_)
    exact (List.dropWhile_sublist _).filterMap _
  · rw [List.filterMap_append, none, List.append_nil]

theorem handedSince_sent {message : OutgoingMessage} {number : Option Nat}
    (history : after.history = before.history ++ [.sent ref message number])
    (authenticated : .authenticated ref ∈ before.history) :
    after.handedSince ref = before.handedSince ref ++ [message] := by
  have found : (before.history.dropWhile (· ≠ .authenticated ref)).isEmpty = false := by
    rw [List.isEmpty_eq_false_iff, Ne, List.dropWhile_eq_nil_iff]
    intro all
    simpa using all _ authenticated
  simp only [handedSince, history, List.dropWhile_append, found]
  simp [List.filterMap_append, Event.sent?]

theorem handedSince_unauthenticated (absent : .authenticated ref ∉ server.history) :
    server.handedSince ref = [] := by
  have empty : server.history.dropWhile (· ≠ .authenticated ref) = [] := by
    rw [List.dropWhile_eq_nil_iff]
    intro event mem
    simp only [ne_eq, decide_not, Bool.not_eq_eq_eq_not, Bool.not_true, decide_eq_false_iff_not]
    rintro rfl
    exact absent mem
  rw [handedSince, empty]
  rfl

/-- What an effect may do: messages are appended for each client, the first of them
being server-auth; tasks, runners and handlers get ready only after it. -/
theorem AuthFirst.of_appended (authFirst : before.AuthFirst)
    (appended : ∀ client, ∃ messages,
      after.handedSince client = before.handedSince client ++ messages ∧
        (before.handedSince client = [] → ∀ message ∈ messages.head?, message.IsServerAuth))
    (scheduled : ∀ id ∈ after.loop.ready, ∀ client message number,
      (after.loop.task id).body = .run client (.send message (some number)) →
        id ∈ before.loop.ready ∧ (before.loop.task id).body = (after.loop.task id).body ∨
          before.handedSince client ≠ [])
    (started : ∀ client, (after.jobs client).runner ≠ .notStarted →
      (before.jobs client).runner ≠ .notStarted ∧
          ((before.jobs client).Muted → (after.jobs client).Muted) ∨
        before.handedSince client ≠ [] ∨ (after.jobs client).Muted)
    (sending : ∀ client, after.handler client = .sendingAuth →
      before.handler client = .sendingAuth ∨ after.handedSince client ≠ []) :
    after.AuthFirst := by
  have kept : ∀ client, before.handedSince client ≠ [] → after.handedSince client ≠ [] := by
    intro client nonempty
    obtain ⟨messages, same, _⟩ := appended client
    simp [same, nonempty]
  refine ⟨fun client message mem => ?_, fun id ready client message number body => ?_, ?_, ?_⟩
  · obtain ⟨messages, same, new⟩ := appended client
    rw [same] at mem
    cases already : before.handedSince client with
    | nil => exact new already message (by simpa [already] using mem)
    | cons first rest => exact authFirst.first client message (by simpa [already] using mem)
  · rcases scheduled id ready client message number body with ⟨wasReady, same⟩ | nonempty
    · exact kept client (authFirst.scheduled id wasReady client message number (same.trans body))
    · exact kept client nonempty
  · intro client running
    rcases started client running with ⟨wasRunning, muted⟩ | nonempty | muted
    · exact (authFirst.started client wasRunning).imp (kept client) muted
    · exact .inl (kept client nonempty)
    · exact .inr muted
  · intro client isSending
    exact (sending client isSending).elim (fun was => kept client (authFirst.sending client was)) id

/-- Nothing is sent. -/
theorem AuthFirst.of_unsent (authFirst : before.AuthFirst) {events : List Event}
    (history : after.history = before.history ++ events)
    (unsent : ∀ client message number, .sent client message number ∉ events)
    (scheduled : ∀ id ∈ after.loop.ready, ∀ client message number,
      (after.loop.task id).body = .run client (.send message (some number)) →
        id ∈ before.loop.ready ∧ (before.loop.task id).body = (after.loop.task id).body ∨
          before.handedSince client ≠ [])
    (started : ∀ client, (after.jobs client).runner ≠ .notStarted →
      (before.jobs client).runner ≠ .notStarted ∧
          ((before.jobs client).Muted → (after.jobs client).Muted) ∨
        before.handedSince client ≠ [] ∨ (after.jobs client).Muted)
    (sending : ∀ client, after.handler client = .sendingAuth →
      before.handler client = .sendingAuth) : after.AuthFirst := by
  refine authFirst.of_appended (fun client => ⟨[], ?_, by simp⟩) scheduled started
    fun client isSending => .inl (sending client isSending)
  rw [List.append_nil]
  exact handedSince_unsent history (unsent client)

theorem AuthFirst.of_same (authFirst : before.AuthFirst) {events : List Event}
    (history : after.history = before.history ++ events)
    (unsent : ∀ client message number, .sent client message number ∉ events)
    (loop : after.loop = before.loop) (jobs : after.jobs = before.jobs)
    (sending : ∀ client, after.handler client = .sendingAuth →
      before.handler client = .sendingAuth) : after.AuthFirst := by
  refine authFirst.of_unsent history unsent ?_ ?_ sending
  · rw [loop]
    exact fun id ready client message number body => .inl ⟨ready, rfl⟩
  · rw [jobs]
    exact fun client running => .inl ⟨running, id⟩

/-- Tasks other than sending messages of a queue may be added. -/
theorem sends_extends {spawned : TaskBody → Prop} {cancelled : TaskId → Prop}
    (extension : before.loop.Extends spawned cancelled after.loop)
    (wellFormed : before.loop.WellFormed)
    (sends : ∀ client message number, spawned (.run client (.send message (some number))) →
      before.handedSince client ≠ []) :
    ∀ id ∈ after.loop.ready, ∀ client message number,
      (after.loop.task id).body = .run client (.send message (some number)) →
        id ∈ before.loop.ready ∧ (before.loop.task id).body = (after.loop.task id).body ∨
          before.handedSince client ≠ [] := by
  intro id isReady client message number body
  obtain ⟨ids, ready, bounds⟩ := extension.ready
  rw [ready] at isReady
  rcases List.mem_append.mp isReady with old | new
  · exact .inl ⟨old, (extension.body id (wellFormed.created id old)).symm⟩
  · right
    apply sends client message number
    rw [← body]
    exact (extension.fresh id (bounds id new).1 (bounds id new).2).1

theorem AuthFirst.calm {moves : ClientRef → Prop} (authFirst : before.AuthFirst)
    (wellFormed : before.loop.WellFormed) (calm : Calm moves before after) :
    after.AuthFirst := by
  obtain ⟨events, history, silent⟩ := calm.history
  refine authFirst.of_unsent history (fun client message number mem => silent _ mem) ?_ ?_
    calm.sending
  · exact sends_extends calm.loop wellFormed fun _ _ _ isClose => isClose.elim
  · intro client running
    rcases calm.started client running with wasRunning | sending | muted
    · exact .inl ⟨wasRunning, (calm.jobs client).muted⟩
    · exact .inr (.inl (authFirst.sending client sending))
    · exact .inr (.inr muted)

/-- Adding an entry to an open queue neither starts its runner nor unmutes it. -/
theorem muted_put {entry : JobEntry}
    (jobs : after.jobs = Function.update before.jobs ref
      (if (before.jobs ref).state = .opened then (before.jobs ref).put entry
      else before.jobs ref)) :
    ∀ client, (after.jobs client).runner ≠ .notStarted →
      (before.jobs client).runner ≠ .notStarted ∧
          ((before.jobs client).Muted → (after.jobs client).Muted) ∨
        before.handedSince client ≠ [] ∨ (after.jobs client).Muted := by
  intro client running
  left
  rw [jobs] at running ⊢
  by_cases same : client = ref
  · subst same
    rw [Function.update_self] at running ⊢
    refine ⟨?_, fun muted => by rwa [if_neg muted.1]⟩
    split at running <;> exact running
  · rw [Function.update_of_ne same] at running ⊢
    exact ⟨running, id⟩

theorem AuthFirst.submit (authFirst : before.AuthFirst) (ref : ClientRef)
    (message : OutgoingMessage) : (before.submit ref message).AuthFirst := by
  refine authFirst.of_unsent (submit_history _ _ _) (by simp) ?_ (muted_put (submit_jobs _ _ _)) ?_
  · rw [submit_loop]
    exact fun id ready client message number body => .inl ⟨ready, rfl⟩
  · rw [submit_handler]
    exact fun client sending => sending

theorem AuthFirst.gather (authFirst : before.AuthFirst) (wellFormed : before.loop.WellFormed)
    {messages : List (ClientRef × OutgoingMessage)} {ids : List TaskId}
    (gathers : before.gather messages = (after, ids)) : after.AuthFirst := by
  obtain ⟨rfl, _⟩ := gather_eq gathers
  have extension : before.loop.Extends (fun body => ∃ ref message, body = .enqueue ref message)
      (fun _ => False)
      (before.loop.spawnAll (messages.map fun message => .enqueue message.1 message.2)).1 := by
    refine .spawnAll fun body mem => ?_
    obtain ⟨message, _, rfl⟩ := List.mem_map.mp mem
    exact ⟨_, _, rfl⟩
  refine authFirst.of_unsent (List.append_nil _).symm (by simp) ?_
    (fun client running => .inl ⟨running, id⟩) fun client sending => sending
  exact sends_extends extension wellFormed (by simp)

theorem AuthFirst.setHandler (authFirst : before.AuthFirst) (ref : ClientRef) {next : Handler}
    (notSending : next ≠ .sendingAuth) : (before.setHandler ref next).AuthFirst := by
  refine authFirst.of_same (List.append_nil _).symm (by simp) rfl rfl fun client sending => ?_
  by_cases same : client = ref
  · subst same
    simp [Server.setHandler, notSending] at sending
  · simpa [Server.setHandler, same] using sending

/-- A message is relayed to a client whose queue is open and that was sent its
server-auth message, or the relay task is cancelled at once. -/
theorem AuthFirst.relay (authFirst : before.AuthFirst) (wellFormed : before.loop.WellFormed)
    (ref destination : ClientRef) (packet : List UInt8)
    (late : (before.jobs destination).state = .opened → before.handedSince destination ≠ []) :
    ((before.submitTask destination (.relay packet)).setReceiveLoop ref
      (.relaying before.loop.next packet)).AuthFirst := by
  have history : ((before.submitTask destination (.relay packet)).setReceiveLoop ref
      (.relaying before.loop.next packet)).history = before.history ++
        [.submitted destination (.relay packet) (before.nextNumber destination)] := rfl
  refine authFirst.of_unsent history (by simp) ?_
    (muted_put (submitTask_jobs before destination (.relay packet))) fun client sending => sending
  apply sends_extends (submitTask_extends before destination (.relay packet)) wellFormed
  intro client message number isSpawned
  injection isSpawned with sameClient sends
  injection sends with _ numbered
  subst sameClient
  apply late
  by_contra closed
  simp [nextNumber, closed] at numbered

/-- The runner has started, so server-auth was sent before the message that it takes. -/
theorem AuthFirst.take (authFirst : before.AuthFirst) (wellFormed : before.loop.WellFormed)
    {ref : ClientRef} {coroutine : Coroutine} {rest : List JobEntry}
    (running : (before.jobs ref).runner = .getting)
    (queue : (before.jobs ref).queue = .job (.coroutine coroutine) :: rest) :
    ({ before with loop := before.loop.spawn (.run ref coroutine) }.setJobs ref
      { before.jobs ref with
        queue := rest
        runner := .awaiting before.loop.next
        active := some before.loop.next }).AuthFirst := by
  have started := authFirst.started ref (by simp [running])
  have extension : before.loop.Extends (· = .run ref coroutine) (fun _ => False)
      (before.loop.spawn (.run ref coroutine)) := .spawn rfl
  refine authFirst.of_unsent (List.append_nil _).symm (by simp) ?_ ?_ fun client sending => sending
  · apply sends_extends extension wellFormed
    intro client message number isSpawned
    injection isSpawned with sameClient sends
    subst sameClient
    apply started.resolve_right
    intro muted
    have empty := muted.2
    simp [JobQueue.sends, queue, ← sends, JobEntry.message?] at empty
  · intro client isRunning
    left
    by_cases same : client = ref
    · subst same
      refine ⟨by simp [running], fun muted => ?_⟩
      simp only [setJobs, Function.update_self]
      refine ⟨muted.1, List.sublist_nil.mp (muted.2 ▸ JobQueue.sends_sublist ?_)⟩
      rw [queue]
      exact List.suffix_cons _ _
    · simp only [setJobs, Function.update_of_ne same] at isRunning ⊢
      exact ⟨isRunning, id⟩

/-- A task of the loop starts or ends without sending anything. -/
theorem AuthFirst.setStatus (authFirst : before.AuthFirst) {id : TaskId}
    {status : TaskStatus PyException} {loop : Loop} (task : loop.task = before.loop.task)
    (ready : ∀ other ∈ loop.ready, other ∈ before.loop.ready) :
    { before with loop := loop.setStatus id status }.AuthFirst := by
  refine authFirst.of_unsent (List.append_nil _).symm (by simp) ?_
    (fun client running => .inl ⟨running, fun muted => muted⟩) fun client sending => sending
  intro other isReady client message number body
  refine .inl ⟨ready other isReady, ?_⟩
  by_cases same : other = id <;> simp [EventLoop.setStatus, same, task]

theorem AuthFirst.startHead (authFirst : before.AuthFirst) {id : TaskId} {rest : List TaskId}
    (ready : before.loop.ready = id :: rest) (status : TaskStatus PyException) :
    (before.startHead id status).AuthFirst := by
  refine authFirst.setStatus rfl fun other isReady => ?_
  rw [ready]
  exact List.mem_cons_of_mem _ (by simpa [EventLoop.pop, ready] using isReady)

theorem AuthFirst.connect (authFirst : before.AuthFirst) {ref : ClientRef} {csn : Nat}
    (stepped : before.connect ref csn = some after) : after.AuthFirst := by
  unfold Server.connect at stepped
  split at stepped
  · rw [Option.map_eq_some_iff] at stepped
    obtain ⟨system, _, rfl⟩ := stepped
    refine authFirst.of_unsent (List.append_nil _).symm (by simp)
      (fun id ready client message number body => .inl ⟨ready, rfl⟩) ?_ ?_
    · intro client running
      by_cases same : client = ref
      · subst same
        simp [JobQueue.new] at running
      · simp only [Function.update_of_ne same] at running ⊢
        exact .inl ⟨running, id⟩
    · intro client sending
      by_cases same : client = ref
      · subst same
        simp at sending
      · simpa [same] using sending
  · contradiction

/-- A message of the queue is sent, when server-auth was. -/
theorem AuthFirst.handed (authFirst : before.AuthFirst) {id : TaskId} {rest : List TaskId}
    {ref : ClientRef} {message : OutgoingMessage} {number : Nat}
    (ready : before.loop.ready = id :: rest)
    (body : (before.loop.task id).body = .run ref (.send message (some number))) :
    ((before.startHead id .suspended).log (.sent ref message (some number))).AuthFirst := by
  have late := authFirst.scheduled id (ready ▸ List.mem_cons_self) ref message number body
  have started := authFirst.startHead ready .suspended
  have history : ((before.startHead id .suspended).log
      (.sent ref message (some number))).history =
        (before.startHead id .suspended).history ++ [.sent ref message (some number)] := rfl
  have authenticated : .authenticated ref ∈ before.history := by
    by_contra absent
    exact late (handedSince_unauthenticated absent)
  refine started.of_appended (fun client => ?_)
    (fun id ready client message number body => .inl ⟨ready, rfl⟩)
    (fun client running => .inl ⟨running, fun muted => muted⟩)
    fun client sending => .inl sending
  by_cases same : client = ref
  · subst same
    exact ⟨[message], handedSince_sent history authenticated, fun empty => absurd empty late⟩
  · refine ⟨[], ?_, by simp⟩
    rw [List.append_nil]
    exact handedSince_unsent history (by simp [same])

/-- The server-auth message is sent to a client that was authenticated. -/
theorem AuthFirst.serverAuth (authFirst : before.AuthFirst) {ref : ClientRef}
    {message : OutgoingMessage} (isServerAuth : message.IsServerAuth)
    (authenticated : .authenticated ref ∈ before.history) :
    ((before.setHandler ref .sendingAuth).log (.sent ref message none)).AuthFirst := by
  have history : ((before.setHandler ref .sendingAuth).log (.sent ref message none)).history =
      before.history ++ [.sent ref message none] := rfl
  have sent := handedSince_sent history authenticated
  refine authFirst.of_appended (fun client => ?_)
    (fun id ready client message number body => .inl ⟨ready, rfl⟩)
    (fun client running => .inl ⟨running, fun muted => muted⟩) fun client sending => ?_
  · by_cases same : client = ref
    · subst same
      exact ⟨[message], sent, fun _ => by simpa using isServerAuth⟩
    · refine ⟨[], ?_, by simp⟩
      rw [List.append_nil]
      exact handedSince_unsent history (by simp [same])
  · by_cases same : client = ref
    · subst same
      right
      simp [sent]
    · left
      simpa [Server.setHandler, Server.log, same] using sending

theorem AuthFirst.greeted (authFirst : before.AuthFirst) {ref : ClientRef}
    (absent : .authenticated ref ∉ before.history) :
    ((before.setHandler ref .sendingHello).log (.sent ref .serverHello none)).AuthFirst := by
  have history : ((before.setHandler ref .sendingHello).log
      (.sent ref .serverHello none)).history = before.history ++ [.sent ref .serverHello none] :=
    rfl
  refine (authFirst.setHandler ref (by simp)).of_appended (fun client => ?_)
    (fun id ready client message number body => .inl ⟨ready, rfl⟩)
    (fun client running => .inl ⟨running, fun muted => muted⟩)
    fun client sending => .inl sending
  refine ⟨[], ?_, by simp⟩
  rw [List.append_nil]
  by_cases same : client = ref
  · subst same
    have still : .authenticated client ∉ before.history ++ [.sent client .serverHello none] := by
      simpa using absent
    exact (handedSince_unauthenticated (history ▸ still)).trans
      (handedSince_unauthenticated absent).symm
  · exact handedSince_unsent history (by simp [same])

theorem Effect.authFirst {origin : Server} {action : Action} {moves : ClientRef → Prop}
    (effect : Effect origin action moves before after) (late : origin.RelaysAfterAuth action)
    (tasks : before.TasksSound) (stages : before.StagesSound) (authFirst : before.AuthFirst) :
    after.AuthFirst := by
  have wellFormed := tasks.loop
  have logged : ∀ {server : Server} (event : Event), server.AuthFirst →
      (∀ client message number, event ≠ .sent client message number) →
        (server.log event).AuthFirst := by
    intro server event authFirst unsent
    refine authFirst.of_same rfl ?_ rfl rfl fun client sending => sending
    exact fun client message number mem =>
      unsent client message number (List.mem_singleton.mp mem).symm
  cases effect with
  | calm calm => exact authFirst.calm wellFormed calm
  | path stepped plain _ =>
      exact authFirst.of_same (List.append_nil _).symm (by simp) rfl rfl fun _ sending => sending
  | connect mover stepped => exact authFirst.connect stepped
  | @initiator ref _ dropped gathered state previous ids _ _ _ _ _ _ calm _ loop gathers =>
      have middle : ({ before with
          system := before.system.afterSetInitiator ref (.returned state previous) }.log
            (.authenticated ref)).AuthFirst :=
        authFirst.of_same rfl (by simp) rfl rfl fun _ sending => sending
      have gatheredFirst := (middle.calm wellFormed calm).gather (loop ▸ wellFormed) gathers
      split
      · exact gatheredFirst
      · exact gatheredFirst.setHandler _ (by simp)
  | @responder ref _ joined state id _ _ _ _ _ same =>
      have middle : joined.AuthFirst := by
        rw [same]
        exact authFirst.of_same rfl (by simp) rfl rfl fun _ sending => sending
      split
      · exact logged _ middle (by simp)
      · exact logged _ (middle.submit _ _) (by simp)
  | created => exact logged _ authFirst (by simp)
  | greeted _ handshaking =>
      apply authFirst.greeted
      intro mem
      have stage := stages.authenticated _ mem
      rw [handshaking] at stage
      simp at stage
  | serverAuth _ isServerAuth _ established =>
      exact authFirst.serverAuth isServerAuth (stages.established _ established)
  | sendError => exact authFirst.submit _ _
  | relay packet _ takes =>
      apply authFirst.relay wellFormed _ _ packet
      intro opened empty
      obtain ⟨message, mem, _⟩ := late _ takes opened
      rw [empty] at mem
      contradiction
  | disconnectedResponder => exact authFirst.submit _ _
  | disconnectedInitiator _ _ _ _ _ gathers =>
      split
      · exact authFirst.gather wellFormed gathers
      · exact (authFirst.gather wellFormed gathers).setHandler _ (by simp)
  | take running queue => exact authFirst.take wellFormed running queue
  | startEnded _ ready => exact authFirst.startHead ready _
  | startClosing _ ready body => exact authFirst.startHead ready _
  | @handed _ id _ ref message number _ ready alive body =>
      cases number with
      | none =>
          have created := wellFormed.created id (ready ▸ List.mem_cons_self)
          rw [tasks.unnumbered id ref message created body] at alive
          contradiction
      | some number => exact authFirst.handed ready body
  | enqueued _ ready body => exact (authFirst.startHead ready _).submit _ _
  | ended _ suspended => exact authFirst.setStatus rfl fun _ ready => ready

end Observations

/-- Along every run in which nothing is relayed to an open queue too early, the first
message to a client after its authentication is server-auth. -/
theorem server_auth_first {server : Server} (reach : machine.Reach RelaysAfterAuth server)
    (client : ClientRef) :
    ∀ message ∈ (server.handedSince client).head?, message.IsServerAuth := by
  have authFirst : server.AuthFirst := by
    refine invariant_of_effects AuthFirst (fun initiatorKey number => ?_)
      (fun origin action before after _ late tasks stages authFirst effect =>
        effect.authFirst late tasks stages authFirst) reach
    constructor <;> simp [Server.created, handedSince, JobQueue.new]
  exact authFirst.first client

/-- A responder is sent server-auth and then what the initiator relays to it. -/
theorem server_auth_first_responder :
    ∃ server : Server, server.handedSince 1 =
        [.serverAuthResponder .lowest true, .relay [0x07]] ∧
      ∀ message ∈ (server.handedSince 1).head?, message.IsServerAuth := by
  have reach : machine.Reach RelaysAfterAuth _ :=
    Machine.reach_run (.start (initial_created [0x61] 1))
      (joinInitiator 0 ++ joinResponder 1 ++
        [.receive 0 (.relay ResponderAddress.lowest.toAddress [0x07]), .taskStart])
      (by decide +kernel) rfl
  exact ⟨_, by decide +kernel, server_auth_first reach 1⟩

/-- While the handler of a new initiator tells a responder about it, that responder
relays a message to it, which is sent before server-auth. -/
theorem relay_precedes_server_auth :
    ¬ ∀ server : Server, machine.Reachable server → ∀ client,
      ∀ message ∈ (server.handedSince client).head?, message.IsServerAuth := by
  intro claimed
  have reachable : machine.Reachable _ := Machine.reachable_of_run (initial_created [0x61] 1)
    (joinResponder 1 ++ [.connect 0 0, .begin 0, .sent 0, .receive 0 (.clientAuth (.ok ())),
      .receive 1 (.relay initiatorAddress [0x07]), .taskStart, .taskStart]) rfl
  have first := claimed _ reachable 0 (.relay [0x07]) (by decide +kernel)
  exact first

end Server

end SaltyRtcServer
