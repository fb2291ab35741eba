import SaltyRtcServer.ClientStep

/-!
# The steps of a handshake

What the coroutines of one client do to that client until its handler has
dispatched its last messages, and that they leave all other clients alone.
-/

namespace SaltyRtcServer

open StepMachine

theorem JobQueue.cancel_next (jobs : JobQueue) (loop : Loop) (result : PyException) :
    (jobs.cancel loop result).state.2.next = loop.next := by
  have extension : loop.Extends (fun _ => False) jobs.Refers (jobs.cancel loop result).state.2 :=
    jobs.cancel_extends loop result
  rcases Nat.lt_or_ge loop.next (jobs.cancel loop result).state.2.next with more | same
  · exact (extension.fresh loop.next (Nat.le_refl _) more).1.elim
  · exact Nat.le_antisymm same extension.next

/-- A path that is cleaned and still attached is not empty. -/
theorem PathSystem.nonempty_of_cleaned {system : PathSystem}
    (attached : system.clean.path.attached = true) : system.clean.path.empty = false := by
  rw [PathSystem.clean, PathSystem.cleanPath_eq] at attached ⊢
  obtain ⟨_, occupied⟩ := Bool.and_eq_true_iff.mp attached
  exact Bool.not_eq_true' _ |>.mp occupied

namespace Server

@[simp]
theorem submit_connection (server : Server) (ref : ClientRef) (message : OutgoingMessage) :
    (server.submit ref message).connection = server.connection := by
  rw [submit_eq]
  rfl

@[simp]
theorem submit_protocols (server : Server) (ref : ClientRef) (message : OutgoingMessage) :
    (server.submit ref message).protocols = server.protocols := by
  rw [submit_eq]
  rfl

/-- Only this client has changed. -/
def Keeps (ref : ClientRef) (before after : Server) : Prop :=
  ∀ who, who ≠ ref → after.view who = before.view who

namespace Keeps

variable {ref : ClientRef} {first second third : Server}

theorem trans (one : Keeps ref first second) (two : Keeps ref second third) :
    Keeps ref first third :=
  fun who ne => (two who ne).trans (one who ne)

variable (server : Server)

theorem log (event : Event) : Keeps ref server (server.log event) :=
  fun _ _ => rfl

theorem setHandler (handler : Handler) : Keeps ref server (server.setHandler ref handler) :=
  fun who ne => by simp [view, Server.setHandler, ne]

theorem setJobs (jobs : JobQueue) : Keeps ref server (server.setJobs ref jobs) :=
  fun who ne => by simp [view, Server.setJobs, ne]

theorem setTasks (tasks : Tasks) : Keeps ref server (server.setTasks ref tasks) :=
  fun who ne => by simp [view, Server.setTasks, ne]

theorem setConnection (connection : Connection) : Keeps ref server
    { server with connection := Function.update server.connection ref connection } :=
  fun who ne => by simp [view, ne]

theorem closeJobs (code : Nat) : Keeps ref server (server.closeJobs ref code) :=
  setJobs server _

theorem cancelTasks (result : TasksResult) : Keeps ref server (server.cancelTasks ref result) :=
  setTasks server _

theorem cancelJobs (result : PyException) : Keeps ref server (server.cancelJobs ref result).1 :=
  setJobs { server with loop := ((server.jobs ref).cancel server.loop result).state.2 } _

theorem submit (message : OutgoingMessage) : Keeps ref server (server.submit ref message) :=
  fun who ne => by simp [view, submit_jobs, submit_connection, ne]

theorem drop (code : CloseCode) : Keeps ref server (server.drop ref code) :=
  .trans (setJobs server _) (.trans (cancelTasks _ .onClosed) (log _ _))

theorem handleException (exception : PyException) :
    Keeps ref server (server.handleException ref exception) := by
  unfold Server.handleException
  split
  · exact setHandler server _
  · next code _ =>
    exact setHandler { server with loop := server.loop.spawn (.run ref (.close code)) } _

theorem start (connected : Bool) : Keeps ref server (server.start ref connected) := by
  unfold Server.start
  split
  · exact .trans (setJobs server _) (.trans (setTasks _ _) (setHandler _ _))
  · exact handleException server _

theorem abort (exception : PyException) : Keeps ref server (server.abort ref exception) := by
  have cancelled : Keeps ref server (server.cancelJobs ref exception).1 :=
    cancelJobs server exception
  unfold Server.abort
  split
  · next after raised called =>
    rw [called] at cancelled
    exact cancelled.trans (handleException after raised)
  · next after called =>
    rw [called] at cancelled
    exact (cancelled.trans (cancelTasks after _)).trans (start _ false)

theorem send (message : OutgoingMessage) (next : Handler) :
    Keeps ref server (server.send ref message next) := by
  unfold Server.send
  split
  · next csn exception _ =>
    exact abort { server with csnOut := Function.update server.csnOut ref csn } exception
  · next csn _ _ =>
    exact setHandler { server with csnOut := Function.update server.csnOut ref csn } next

theorem sendServerAuth (message : OutgoingMessage) :
    Keeps ref server (server.sendServerAuth ref message) :=
  .trans (log server _) (send _ message .sendingAuth)

theorem sendInitiatorAuth : Keeps ref server (server.sendInitiatorAuth ref) := by
  unfold Server.sendInitiatorAuth
  split
  · exact abort server _
  · exact sendServerAuth server _

theorem completeHandshake : Keeps ref server (server.completeHandshake ref) := by
  unfold Server.completeHandshake
  split
  · exact handleException server _
  · split
    · exact start server _
    · exact start server _
    · exact handleException server _
    · exact handleException server _

end Keeps

section Excused

variable {lost : Prop} {path : Path} {exception : PyException}

theorem PacketError.excused (error : PacketError) : error.1.Excused lost := by
  intro code same
  have isPacketError := error.2
  rw [same] at isPacketError
  contradiction

theorem getResponderIds_excused (raised : path.getResponderIds = .error exception) :
    exception.Excused lost := by
  unfold Path.getResponderIds at raised
  split at raised
  · injection raised with same
    rw [← same]
    exact fun _ closed => nomatch closed
  · contradiction

theorem getResponderIds_detached (raised : path.getResponderIds = .error exception) :
    path.attached = false := by
  unfold Path.getResponderIds at raised
  split at raised
  · next detached => simpa using detached
  · contradiction

theorem setState_excused {client : PathClient} {state : ClientState}
    (raised : client.setState state = .error exception) : exception.Excused lost := by
  intro code same
  subst same
  unfold PathClient.setState at raised
  split at raised
  · next next failed =>
    cases phase : client.state <;> simp [phase, ClientState.next] at failed
    subst failed
    cases raised
  · split at raised <;> cases raised

theorem authenticate_excused {client : PathClient} {id : Address}
    (raised : client.authenticate id = .error exception) : exception.Excused lost := by
  unfold PathClient.authenticate at raised
  split at raised
  · next error failed =>
    injection raised with same
    exact same ▸ setState_excused failed
  · contradiction

theorem setInitiator_excused {ref : ClientRef} {client : PathClient} {state : Path × PathClient}
    (raised : path.setInitiator ref client = .raised state exception) :
    exception.Excused lost := by
  unfold Path.setInitiator at raised
  split at raised
  · injection raised with _ same
    exact same ▸ fun _ closed => nomatch closed
  split at raised
  · injection raised with _ same
    exact same ▸ fun _ closed => nomatch closed
  · dsimp only at raised
    split at raised
    · next error failed =>
      injection raised with _ same
      exact same ▸ authenticate_excused failed
    · contradiction

theorem addResponder_excused {ref : ClientRef} {client : PathClient} {state : Path × PathClient}
    (raised : path.addResponder ref client = .raised state exception) :
    exception.Excused lost := by
  unfold Path.addResponder at raised
  split at raised
  · injection raised with _ same
    exact same ▸ fun _ closed => nomatch closed
  split at raised
  · injection raised with _ same
    exact same ▸ fun _ closed => nomatch closed
  split at raised
  · injection raised with _ same
    exact same ▸ fun _ closed => nomatch closed
  · dsimp only at raised
    split at raised
    · next error failed =>
      injection raised with _ same
      exact same ▸ authenticate_excused failed
    · contradiction

theorem getInitiator_excused (raised : path.getInitiator = .error exception) :
    exception.Excused lost := by
  unfold Path.getInitiator at raised
  split at raised
  · injection raised with same
    exact same ▸ fun _ closed => nomatch closed
  split at raised
  · injection raised with same
    exact same ▸ fun _ closed => nomatch closed
  · contradiction

theorem getInitiator_detached (notKey : ∀ key, exception ≠ .keyError key)
    (raised : path.getInitiator = .error exception) : path.attached = false := by
  unfold Path.getInitiator at raised
  split at raised
  · next detached => simpa using detached
  split at raised
  · injection raised with same
    exact absurd same.symm (notKey _)
  · contradiction

theorem hasClient_excused {ref : ClientRef} {client : PathClient}
    (raised : path.hasClient ref client = .error exception) :
    path.attached = false ∧ exception.Excused lost := by
  unfold Path.hasClient at raised
  split at raised
  · next detached =>
    injection raised with same
    exact ⟨by simpa using detached, same ▸ fun _ closed => nomatch closed⟩
  · grind

end Excused

section Authentication

variable {path : Path} {ref : ClientRef} {client : PathClient}

theorem setInitiator_type : (path.setInitiator ref client).state.2.type = client.type := by
  unfold Path.setInitiator
  split
  · rfl
  split
  · rfl
  · dsimp only
    split
    · rfl
    · next authenticated ok =>
      obtain ⟨_, rfl⟩ := PathClient.authenticate_eq_ok ok
      rfl

theorem addResponder_type : (path.addResponder ref client).state.2.type = client.type := by
  unfold Path.addResponder
  split
  · rfl
  split
  · rfl
  split
  · rfl
  · dsimp only
    split
    · rfl
    · next authenticated ok =>
      obtain ⟨_, rfl⟩ := PathClient.authenticate_eq_ok ok
      rfl

theorem afterSetInitiator_type (system : PathSystem) (who : ClientRef) :
    ((system.afterSetInitiator ref (system.path.setInitiator ref (system.client ref))).client
      who).type = (system.client who).type := by
  have kept := @setInitiator_type system.path ref (system.client ref)
  cases called : system.path.setInitiator ref (system.client ref) with
  | raised state exception =>
      rw [called] at kept
      by_cases same : who = ref
      · subst same
        simpa [PathSystem.afterSetInitiator] using kept
      · simp [PathSystem.afterSetInitiator, same]
  | returned state previous =>
      rw [called] at kept
      have joined : (Function.update system.client ref state.2 who).type =
          (system.client who).type := by
        by_cases same : who = ref
        · subst same
          simpa using kept
        · simp [same]
      cases previous with
      | none => exact joined
      | some previous =>
          by_cases same : who = previous
          · subst same
            simpa [PathSystem.afterSetInitiator, PathSystem.dropClient, PathSystem.remove] using joined
          · simpa [PathSystem.afterSetInitiator, PathSystem.dropClient, PathSystem.remove, same]
              using joined

theorem afterAddResponder_type (system : PathSystem) (who : ClientRef) :
    ((system.afterAddResponder ref (system.path.addResponder ref (system.client ref))).client
      who).type = (system.client who).type := by
  have kept := @addResponder_type system.path ref (system.client ref)
  by_cases same : who = ref
  · subst same
    cases called : system.path.addResponder who (system.client who) with
    | raised state exception => simpa [PathSystem.afterAddResponder, called] using kept
    | returned state id => simpa [PathSystem.afterAddResponder, called] using kept
  · cases system.path.addResponder ref (system.client ref) <;>
      simp [PathSystem.afterAddResponder, same]

theorem afterSetInitiator_stage (system : PathSystem)
    (call : Call (Path × PathClient) (Option ClientRef)) {who : ClientRef} (ne : who ≠ ref) :
    (system.afterSetInitiator ref call).stage who = system.stage who := by
  cases call with
  | raised => rfl
  | returned state previous =>
      rw [afterSetInitiator_stages, Function.update_of_ne ne]

theorem afterAddResponder_stage (system : PathSystem)
    (call : Call (Path × PathClient) ResponderAddress) {who : ClientRef} (ne : who ≠ ref) :
    (system.afterAddResponder ref call).stage who = system.stage who := by
  cases call with
  | raised => rfl
  | returned state id => exact Function.update_of_ne ne _ _

end Authentication

section Handshake

variable {before server : Server} {action : Action} {ref : ClientRef}

theorem handleException_gaveUp (next : server.loop.next = before.loop.next)
    (exception : PyException) :
    ∃ closing, before.GaveUp (server.handleException ref exception) ref exception closing ∧
      (server.handleException ref exception).view ref =
        { server.view ref with handler := .joining closing } := by
  unfold Server.handleException
  split
  · next lost => exact ⟨none, .lost lost, by simp [view, setHandler]⟩
  · next code closes =>
    refine ⟨some server.loop.next, ?_, by simp [view, setHandler]⟩
    rw [next]
    refine .closes closes ?_ ?_
    · exact next ▸ Nat.lt_succ_self _
    · simp [setHandler, EventLoop.spawn, next]

theorem cancelJobs_view (exception : PyException) :
    (server.cancelJobs ref exception).1.view ref = { server.view ref with
      jobs := ((server.jobs ref).cancel server.loop exception).state.1 } := by
  simp [view, cancelJobs, setJobs]

theorem cancelJobs_next (exception : PyException) :
    (server.cancelJobs ref exception).1.loop.next = server.loop.next :=
  JobQueue.cancel_next (server.jobs ref) server.loop exception

theorem cancelJobs_exception (exception : PyException) :
    (server.cancelJobs ref exception).2 =
      ((server.jobs ref).cancel server.loop exception).exception? :=
  rfl

theorem start_view (notStarted : (server.jobs ref).runner = .notStarted) (connected : Bool) :
    (server.start ref connected).view ref = { server.view ref with
      handler := .awaitingResult
      jobs := { server.jobs ref with runner := .getting }
      tasks := (server.tasks ref).start connected } := by
  simp [Server.start, notStarted, view, setHandler, setTasks, setJobs]

/-- The handshake of a client, as long as it has done nothing with its jobs. -/
structure InHandshake (before : Server) (action : Action) (ref : ClientRef) (server : Server) :
    Prop where
  starting : (before.handler ref).starting = true
  notSending : before.handler ref ≠ .sendingAuth
  gathering : ∀ ids, before.handler ref = .gathering ids →
    action = .gathered ref ∧ ¬ before.CanAnnounce ref
  notStarted : (before.jobs ref).runner = .notStarted
  typed : (server.system.client ref).type = (before.system.client ref).type ∧
      before.handler ref ≠ .receivingFirst ∨
    (server.system.client ref).type = some .initiator ∨
    (server.system.client ref).type = some .responder
  loop : server.loop = before.loop
  jobs : server.jobs ref = before.jobs ref
  tasks : server.tasks ref = before.tasks ref
  connection : server.connection ref = before.connection ref
  protocols : server.protocols = before.protocols

theorem abort_clientStep {exception : PyException} {jobs : JobQueue}
    (fails : before.HandshakeFails action ref exception jobs) (loop : server.loop = before.loop)
    (queue : server.jobs ref = jobs) (notStarted : jobs.runner = .notStarted)
    (tasks : server.tasks ref = before.tasks ref)
    (connection : server.connection ref = before.connection ref)
    (protocols : server.protocols = before.protocols) :
    ClientStep before action ref (server.abort ref exception) := by
  have same : server.view ref = { before.view ref with
      handler := server.handler ref
      stage := server.system.stage ref
      type := (server.system.client ref).type
      jobs := jobs } := by
    simp [view, queue, tasks, connection, protocols]
  have cancelled := @cancelJobs_view server ref exception
  have next := @cancelJobs_next server ref exception
  have outcome := @cancelJobs_exception server ref exception
  have runner : (jobs.cancel before.loop exception).state.1.runner = .notStarted :=
    (jobs.cancel_runner before.loop exception).trans notStarted
  rw [queue, loop] at cancelled outcome
  rw [same] at cancelled
  unfold Server.abort
  split
  · next middle raised called =>
    rw [called] at cancelled next outcome
    obtain ⟨closing, gaveUp, final⟩ :=
      @handleException_gaveUp before middle ref (next.trans (congrArg EventLoop.next loop)) raised
    rw [cancelled] at final
    exact .abortFailed fails outcome.symm gaveUp final
  · next middle called =>
    rw [called] at cancelled next outcome
    let stopped := middle.cancelTasks ref (.now exception)
    have jobsAfter : stopped.jobs ref = (jobs.cancel before.loop exception).state.1 :=
      congrArg ClientView.jobs cancelled
    have kept : middle.tasks ref = before.tasks ref := congrArg ClientView.tasks cancelled
    have tasksAfter : stopped.tasks ref = (before.tasks ref).cancel (.now exception) := by
      simp [stopped, cancelTasks, setTasks, kept]
    have started := @start_view stopped ref ((congrArg JobQueue.runner jobsAfter).trans runner) false
    have stoppedView : stopped.view ref =
        { middle.view ref with tasks := (before.tasks ref).cancel (.now exception) } := by
      simp [view, stopped, cancelTasks, setTasks, kept]
    rw [stoppedView, cancelled, jobsAfter, tasksAfter] at started
    exact .aborted fails outcome.symm started

theorem InHandshake.fails (handshake : before.InHandshake action ref server)
    {exception : PyException} (excused : exception.Excused (before.ConnectionClosed ref)) :
    before.HandshakeFails action ref exception (before.jobs ref) where
  starting := handshake.starting
  excused := excused
  jobs := .inl rfl
  gathering := handshake.gathering
  sending sending := absurd sending handshake.notSending

theorem InHandshake.abort (handshake : before.InHandshake action ref server)
    {exception : PyException} (excused : exception.Excused (before.ConnectionClosed ref)) :
    ClientStep before action ref (server.abort ref exception) :=
  abort_clientStep (handshake.fails excused) handshake.loop handshake.jobs handshake.notStarted
    handshake.tasks handshake.connection handshake.protocols

theorem InHandshake.advance {after : Server}
    (handshake : before.InHandshake action ref server) (next : Handler)
    (starting : next.starting = true)
    (same : after.view ref = { server.view ref with handler := next }) :
    ClientStep before action ref after := by
  have moved : after.view ref = { before.view ref with
      handler := next
      stage := server.system.stage ref
      type := (server.system.client ref).type } := by
    rw [same]
    simp [view, handshake.jobs, handshake.tasks, handshake.connection, handshake.protocols]
  exact .advanced handshake.starting handshake.notSending starting handshake.typed moved

theorem InHandshake.send (handshake : before.InHandshake action ref server)
    (message : OutgoingMessage) {next : Handler} (starting : next.starting = true) :
    ClientStep before action ref (server.send ref message next) := by
  unfold Server.send
  split
  · next csn exception failed =>
    obtain ⟨_, error, rfl⟩ := OutgoingMessage.pack_error failed
    have counted : before.InHandshake action ref
        { server with csnOut := Function.update server.csnOut ref csn } := { handshake with }
    exact counted.abort (PacketError.excused error)
  · exact handshake.advance next starting (by simp [view, setHandler, log])

theorem InHandshake.sendServerAuth (handshake : before.InHandshake action ref server)
    (message : OutgoingMessage) :
    ClientStep before action ref (server.sendServerAuth ref message) := by
  have created : before.InHandshake action ref
      (server.log (.created ref message server.system.path.initiator)) := { handshake with }
  exact created.send message rfl

theorem InHandshake.sendInitiatorAuth (handshake : before.InHandshake action ref server) :
    ClientStep before action ref (server.sendInitiatorAuth ref) := by
  unfold Server.sendInitiatorAuth
  split
  · next exception raised => exact handshake.abort (getResponderIds_excused raised)
  · exact handshake.sendServerAuth _

/-- The second part of the handshake of an initiator, if nothing stops it. -/
theorem sendInitiatorAuth_view (announces : server.CanAnnounce ref) :
    (server.sendInitiatorAuth ref).view ref =
      { server.view ref with handler := .sendingAuth } := by
  obtain ⟨attached, numbered, authenticated⟩ := announces
  have ids : server.system.path.getResponderIds = .ok server.system.path.responders.keys := by
    simp [Path.getResponderIds, attached]
  unfold Server.sendInitiatorAuth
  rw [ids]
  simp [sendServerAuth, Server.send, OutgoingMessage.pack, OutgoingMessage.isRelay,
    OutgoingMessage.packPayload, OutgoingMessage.payloadAddress?, numbered, authenticated, view,
    setHandler, Server.log]

theorem InHandshake.log (handshake : before.InHandshake action ref server) (event : Event) :
    before.InHandshake action ref (server.log event) :=
  { handshake with }

theorem InHandshake.dropPrevious (handshake : before.InHandshake action ref server)
    {previous : Option ClientRef} (other : previous ≠ some ref) :
    before.InHandshake action ref (server.dropPrevious previous) := by
  cases previous with
  | none => exact handshake
  | some previous =>
      have ne : ref ≠ previous := fun same => other (same ▸ rfl)
      have drops : Keeps previous server (server.drop previous .dropByInitiator) := .drop server _
      have kept := drops ref ne
      have jobs := congrArg ClientView.jobs kept
      have tasks := congrArg ClientView.tasks kept
      exact { handshake with
        jobs := jobs.trans handshake.jobs
        tasks := tasks.trans handshake.tasks }

theorem InHandshake.submit (handshake : before.InHandshake action ref server)
    {other : ClientRef} (ne : ref ≠ other) (message : OutgoingMessage) :
    before.InHandshake action ref (server.submit other message) := by
  have submits : Keeps other server (server.submit other message) := .submit server message
  have kept := submits ref ne
  have jobs := congrArg ClientView.jobs kept
  obtain ⟨starting, notSending, gathering, notStarted, typed, loop, _, tasks, connection,
    protocols⟩ := handshake
  refine ⟨starting, notSending, gathering, notStarted, ?_, ?_, ?_, ?_, ?_, ?_⟩
  · rw [submit_system]
    exact typed
  · rw [submit_loop]
    exact loop
  · exact jobs.trans ‹_›
  · rw [submit_tasks]
    exact tasks
  · rw [submit_connection]
    exact connection
  · rw [submit_protocols]
    exact protocols

theorem InHandshake.setSystem (handshake : before.InHandshake action ref server)
    {system : PathSystem}
    (type : (system.client ref).type = (server.system.client ref).type) :
    before.InHandshake action ref { server with system := system } :=
  { handshake with typed := by rw [type]; exact handshake.typed }

/-- Gathering nothing creates no tasks. -/
theorem InHandshake.unspawned (handshake : before.InHandshake action ref server)
    {bodies : List TaskBody} (none : [] = (server.loop.spawnAll bodies).2) :
    before.InHandshake action ref { server with loop := (server.loop.spawnAll bodies).1 } := by
  cases bodies with
  | nil => exact handshake
  | cons => contradiction

theorem InHandshake.handshakeInitiator (handshake : before.InHandshake action ref server)
    (notInitiator : server.system.path.initiator ≠ some ref) (verdict : Except PacketError Unit) :
    ClientStep before action ref (server.handshakeInitiator ref verdict) := by
  unfold Server.handshakeInitiator
  split
  · next error => exact handshake.abort (PacketError.excused error)
  · dsimp only
    have type := @afterSetInitiator_type ref server.system ref
    cases called : server.system.path.setInitiator ref (server.system.client ref) with
    | raised state exception =>
        rw [called] at type
        exact (handshake.setSystem type).abort (setInitiator_excused called)
    | returned state previous =>
        rw [called] at type
        have same : previous = server.system.path.initiator :=
          (Path.setInitiator_returned called).2.2.2.1
        let middle : Server := { server with
          system := server.system.afterSetInitiator ref (.returned state previous) }.log
            (.authenticated ref)
        have inMiddle : before.InHandshake action ref middle :=
          (handshake.setSystem type).log _
        have dropped := inMiddle.dropPrevious (same ▸ notInitiator)
        dsimp only
        rcases gathers : (middle.dropPrevious previous).gather
          ((middle.dropPrevious previous).toResponders .newInitiator) with ⟨after, ids⟩
        obtain ⟨rfl, created⟩ := gather_eq gathers
        cases ids with
        | nil => exact (dropped.unspawned created).sendInitiatorAuth
        | cons id ids =>
            exact dropped.advance (.gathering (id :: ids)) rfl (by simp [view, setHandler])

theorem InHandshake.announceResponder (handshake : before.InHandshake action ref server)
    (notInitiator : server.system.path.initiator ≠ some ref) (id : ResponderAddress) :
    ClientStep before action ref (server.announceResponder ref id) := by
  unfold Server.announceResponder
  split
  · exact handshake.sendServerAuth _
  · next exception _ raised => exact handshake.abort (getInitiator_excused raised)
  · next initiator found =>
    have stored := getInitiator_ok found
    refine (handshake.submit ?_ _).sendServerAuth _
    rintro rfl
    exact notInitiator stored

theorem InHandshake.handshakeResponder (handshake : before.InHandshake action ref server)
    (notInitiator : server.system.path.initiator ≠ some ref) (verdict : Except PacketError Unit) :
    ClientStep before action ref (server.handshakeResponder ref verdict) := by
  unfold Server.handshakeResponder
  split
  · next error => exact handshake.abort (PacketError.excused error)
  · dsimp only
    have type := @afterAddResponder_type ref server.system ref
    cases called : server.system.path.addResponder ref (server.system.client ref) with
    | raised state exception =>
        rw [called] at type
        exact (handshake.setSystem type).abort (addResponder_excused called)
    | returned state id =>
        rw [called] at type
        refine ((handshake.setSystem type).log _).announceResponder ?_ id
        change state.1.initiator ≠ some ref
        rwa [(Path.addResponder_returned called).2.2.2.2.1]

/-- The first message of a client shows its type. -/
theorem inHandshake_setType (receiving : before.handler ref = .receivingFirst)
    (notStarted : (before.jobs ref).runner = .notStarted)
    (type : AddressType) (known : type = .initiator ∨ type = .responder) :
    before.InHandshake action ref { before with system := before.system.setType ref type } where
  starting := by rw [receiving]; rfl
  notSending := by simp [receiving]
  gathering := by simp [receiving]
  notStarted := notStarted
  typed := by
    right
    simpa [PathSystem.setType] using known
  loop := rfl
  jobs := rfl
  tasks := rfl
  connection := rfl
  protocols := rfl

/-- A failed assertion about the next message is a protocol error. -/
theorem messageFlowError_excused {lost : Prop} (text : String) :
    (PyException.messageFlowError text).Excused lost := by
  intro code same
  contradiction

theorem receiveFirst_clientStep (receiving : before.handler ref = .receivingFirst)
    (notStarted : (before.jobs ref).runner = .notStarted)
    (notInitiator : before.system.path.initiator ≠ some ref) (input : Received) :
    ClientStep before action ref (before.receiveFirst ref input) := by
  have fails {exception : PyException} (excused : exception.Excused (before.ConnectionClosed ref)) :
      before.HandshakeFails action ref exception (before.jobs ref) :=
    { starting := by rw [receiving]; rfl
      excused := excused
      jobs := .inl rfl
      gathering := by simp [receiving]
      sending := by simp [receiving] }
  unfold Server.receiveFirst
  split
  · exact (inHandshake_setType receiving notStarted .initiator (.inl rfl)).handshakeInitiator
      notInitiator _
  · have typed : before.InHandshake action ref _ :=
      inHandshake_setType receiving notStarted .responder (.inr rfl)
    unfold Server.awaitAuth
    split
    · next error => exact typed.abort (PacketError.excused error)
    · refine typed.advance .receivingAuth rfl ?_
      simp [view, setHandler]
  · next error =>
    exact abort_clientStep (fails (PacketError.excused error)) rfl rfl notStarted rfl rfl rfl
  · exact abort_clientStep (fails (messageFlowError_excused _)) rfl rfl notStarted rfl rfl rfl

theorem InHandshake.receiveAuth (handshake : before.InHandshake action ref server)
    (notInitiator : server.system.path.initiator ≠ some ref) (input : Received) :
    ClientStep before action ref (server.receiveAuth ref input) := by
  unfold Server.receiveAuth
  split
  · exact handshake.handshakeResponder notInitiator _
  · next error => exact handshake.abort (PacketError.excused error)
  · exact handshake.abort (messageFlowError_excused _)

/-- A connection that turns out to be closed in the handshake. -/
theorem abort_closed {code : Nat} (starting : (before.handler ref).starting = true)
    (lost : before.ConnectionClosed ref) (notStarted : (before.jobs ref).runner = .notStarted)
    (gathering : ∀ ids, before.handler ref ≠ .gathering ids)
    (sending : before.handler ref = .sendingAuth → ∃ code, action = .sendClosed ref code) :
    ClientStep before action ref
      ((before.closeJobs ref code).abort ref (.disconnected code)) := by
  have fails : before.HandshakeFails action ref (.disconnected code)
      ((before.jobs ref).close (.disconnected code) []) :=
    { starting := starting
      excused := fun _ _ => lost
      jobs := .inr ⟨lost, code, rfl⟩
      gathering := fun ids same => absurd same (gathering ids)
      sending := sending }
  refine abort_clientStep fails rfl ?_ ?_ rfl rfl rfl
  · simp [closeJobs, setJobs]
  · rw [JobQueue.close_eq]
    split
    · exact notStarted
    · exact notStarted

end Handshake

section Handler

variable {before after server : Server} {action : Action} {ref : ClientRef}

theorem hasClient_attached {path : Path} {client : PathClient} {connected : Bool}
    (found : path.hasClient ref client = .ok connected) : path.attached = true := by
  cases attached : path.attached with
  | true => rfl
  | false => simp [Path.hasClient, attached] at found

theorem completeHandshake_clientStep (sending : before.handler ref = .sendingAuth)
    (notStarted : (before.jobs ref).runner = .notStarted) :
    ClientStep before (.sent ref) ref (before.completeHandshake ref) := by
  unfold Server.completeHandshake
  split
  · next exception raised =>
    obtain ⟨detached, excused⟩ := hasClient_excused raised
    obtain ⟨closing, gaveUp, final⟩ := @handleException_gaveUp before before ref rfl exception
    exact .completeFailed rfl sending (.inl detached) excused gaveUp final
  · next connected found =>
    have attached := hasClient_attached found
    split
    · exact .completed rfl sending attached (start_view notStarted connected)
    · exact .completed rfl sending attached (start_view notStarted connected)
    · next typed =>
      obtain ⟨closing, gaveUp, final⟩ :=
        @handleException_gaveUp before before ref rfl (.valueError "Invalid address type: 0")
      exact .completeFailed rfl sending (.inr (by simp [typed])) (fun _ same => by contradiction)
        gaveUp final
    · next typed =>
      obtain ⟨closing, gaveUp, final⟩ :=
        @handleException_gaveUp before before ref rfl (.valueError "Invalid address type: None")
      exact .completeFailed rfl sending (.inr (by simp [typed])) (fun _ same => by contradiction)
        gaveUp final

theorem handleException_system (server : Server) (ref : ClientRef) (exception : PyException) :
    (server.handleException ref exception).system = server.system := by
  unfold Server.handleException
  split <;> rfl

theorem leave_clientStep {result : PyException} (awaiting : before.handler ref = .awaitingResult)
    (known : before.taskResult ref = some result) :
    ClientStep before (.result ref) ref (before.leave ref result) := by
  have cancelled := @cancelJobs_view before ref result
  have next := @cancelJobs_next before ref result
  have outcome := @cancelJobs_exception before ref result
  unfold Server.leave
  split
  · next middle raised called =>
    rw [called] at cancelled next outcome
    obtain ⟨closing, gaveUp, final⟩ := @handleException_gaveUp before middle ref next raised
    rw [cancelled] at final
    exact .leaveFailed rfl awaiting known outcome.symm gaveUp final
  · next middle called =>
    rw [called] at cancelled next outcome
    dsimp only at cancelled next outcome ⊢
    let gone : Server := { middle with
      system := if (middle.system.leave ref).path.attached then (middle.system.leave ref).clean
        else middle.system.leave ref }
    obtain ⟨closing, gaveUp, final⟩ := @handleException_gaveUp before gone ref next result
    have cleaned : gone.system.path.attached = true → gone.system.path.empty = false := by
      dsimp only [gone]
      split
      · exact PathSystem.nonempty_of_cleaned
      · intro attached
        contradiction
    refine .left rfl awaiting known outcome.symm gaveUp ?_ ?_
    · rwa [handleException_system]
    have left : gone.view ref = { middle.view ref with stage := .left } := by
      dsimp only [gone]
      split <;> simp [view, PathSystem.leave, PathSystem.clean, PathSystem.remove]
    rw [final, left, cancelled]

theorem submit_view (server : Server) (other ref : ClientRef) (message : OutgoingMessage)
    (lost established : Prop) (fresh : TaskId) : ∃ jobs,
      (server.jobs ref).Supplied lost established fresh jobs ∧
        (server.submit other message).view ref = { server.view ref with jobs := jobs } := by
  by_cases supplied : ref = other ∧ (server.jobs ref).state = .opened
  · obtain ⟨rfl, opened⟩ := supplied
    refine ⟨_, .send message (server.nextNumber ref) opened, ?_⟩
    simp [view, submit_jobs, opened]
  · refine ⟨server.jobs ref, .same, ?_⟩
    by_cases same : ref = other
    · subst same
      have notOpened : ¬ (server.jobs ref).state = .opened := fun opened => supplied ⟨rfl, opened⟩
      simp [view, submit_jobs, notOpened]
    · simp [view, submit_jobs, same]

theorem gather_view {messages : List (ClientRef × OutgoingMessage)} {ids : List TaskId}
    (gathers : server.gather messages = (after, ids)) : after.view ref = server.view ref := by
  obtain ⟨rfl, _⟩ := gather_eq gathers
  rfl

theorem setJobs_view (jobs : JobQueue) :
    (server.setJobs ref jobs).view ref = { server.view ref with jobs := jobs } := by
  simp [view, setJobs]

theorem setHandler_view (next : Handler) :
    (server.setHandler ref next).view ref = { server.view ref with handler := next } := by
  simp [view, setHandler]

/-- The disconnected messages of a client. -/
theorem dispatch_clientStep {closing : Option TaskId}
    (joined : before.handler ref = .joined closing) :
    ClientStep before (.dispatch ref) ref (before.dispatch ref closing) := by
  have skipped : ClientStep before (.dispatch ref) ref
      (before.setHandler ref (.closing closing)) :=
    .dispatched rfl joined (.inl rfl) .same (setHandler_view _)
  have raised (nonempty : before.system.path.empty = false)
      (detached : before.system.path.attached = false) (exception : PyException) :
      ClientStep before (.dispatch ref) ref (before.setHandler ref (.raised exception)) :=
    .dispatchRaised rfl joined nonempty detached (setHandler_view _)
  unfold Server.dispatch
  dsimp only
  split
  · exact skipped
  · next occupied =>
    have nonempty : before.system.path.empty = false :=
      Bool.eq_false_of_not_eq_true fun empty => occupied (.inl empty)
    split
    · split
      · next exception failed =>
        exact raised nonempty (getResponderIds_detached failed) _
      · rcases gathers : before.gather (before.toResponders fun id =>
          .disconnected id.toAddress initiatorAddress) with ⟨after, ids⟩
        have kept := @gather_view after before ref _ _ gathers
        cases ids with
        | nil =>
            refine .dispatched rfl joined (.inl rfl) .same ((setHandler_view _).trans ?_)
            rw [kept]
            rfl
        | cons id ids =>
            refine .dispatched rfl joined (.inr ⟨id :: ids, rfl⟩) .same
              ((setHandler_view _).trans ?_)
            rw [kept]
            rfl
    · split
      · exact skipped
      · next exception notKey failed =>
        exact raised nonempty (getInitiator_detached notKey failed) _
      · next initiator _ =>
        obtain ⟨jobs, supplied, same⟩ := submit_view before initiator ref
          (.disconnected initiatorAddress (before.system.client ref).id)
          (before.ConnectionClosed ref) (before.system.stage ref = .established) before.loop.next
        refine .dispatched rfl joined (.inl rfl) supplied ((setHandler_view _).trans ?_)
        rw [same]
    · exact skipped

theorem join_clientStep {closing : Option TaskId} (joining : before.handler ref = .joining closing)
    (stepped : before.join ref closing = some after) :
    ClientStep before (.join ref) ref after := by
  unfold Server.join at stepped
  split at stepped
  · next notStarted =>
    cases stepped
    exact .joinRaised rfl joining (.inl notStarted) (setHandler_view _)
  · next exception failed =>
    cases stepped
    exact .joinRaised rfl joining (.inr failed) (setHandler_view _)
  · next finished =>
    split at stepped
    · next done =>
      cases stepped
      exact .joined rfl joining finished done (setHandler_view _)
    · contradiction
  · contradiction

theorem joinTimeout_clientStep {closing : Option TaskId}
    (joining : before.handler ref = .joining closing) :
    ClientStep before (.joinTimeout ref) ref (before.joinTimeout ref closing) := by
  unfold Server.joinTimeout
  dsimp only
  split
  · next getting =>
    have runner : (before.jobs ref).runner = .getting := getting
    exact .joinGivenUp rfl joining (.inr ⟨runner, rfl⟩) (by simp [view, setHandler, setJobs])
  · exact .joinGivenUp rfl joining (.inl rfl) (by simp [view, setHandler])
  · exact .joinGivenUp rfl joining (.inl rfl) (setHandler_view _)

theorem finish_clientStep {closing : Option TaskId}
    (isClosing : before.handler ref = .closing closing)
    (stepped : before.finish ref closing = some after) :
    ClientStep before action ref after := by
  unfold Server.finish at stepped
  split at stepped
  · cases stepped
    exact .finished isClosing (by simp) (by simp [view, setHandler])
  · next id =>
    split at stepped
    · next done =>
      cases stepped
      exact .finished isClosing (by simpa using done) (by simp [view, setHandler])
    · next cancelled =>
      cases stepped
      exact .closeRaised isClosing (.inl cancelled) (setHandler_view _)
    · next exception failed =>
      cases stepped
      exact .closeRaised isClosing (.inr failed) (setHandler_view _)
    · contradiction

end Handler

end Server

end SaltyRtcServer
