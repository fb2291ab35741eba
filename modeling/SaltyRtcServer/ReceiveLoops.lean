import SaltyRtcServer.TaskStep

/-!
# Receive loops

The coroutines of the server leave the receive loop of a client where it is,
unless it is resumed itself.  They may ask it to stop, but not before its tasks
have a result.
-/

namespace SaltyRtcServer

open StepMachine

/-- Tasks are asked to stop only when they have a result. -/
structure Tasks.Justified (tasks : Tasks) : Prop where
  cancelled : tasks.cancelled = true → tasks.haveResult = true
  requested : tasks.receiveLoop.cancelRequested = true → tasks.haveResult = true

namespace Tasks

variable {tasks : Tasks}

theorem setResult_haveResult (tasks : Tasks) (result : TasksResult) :
    (tasks.setResult result).haveResult = true := by
  unfold setResult
  split
  · next known => exact known
  · rfl

theorem cancel_haveResult (tasks : Tasks) (result : TasksResult) :
    tasks.haveResult = true → (tasks.cancel result).haveResult = true := by
  intro known
  unfold cancel
  split
  · exact known
  · exact setResult_haveResult tasks result

theorem taskDone_haveResult (tasks : Tasks) (exception : PyException) :
    tasks.haveResult = true → (tasks.taskDone exception).haveResult = true := by
  intro known
  unfold taskDone
  split
  · split
    · exact setResult_haveResult tasks _
    · exact known
  · exact setResult_haveResult tasks _

theorem Justified.of_result (known : tasks.haveResult = true) : tasks.Justified :=
  ⟨fun _ => known, fun _ => known⟩

theorem Justified.cancel (justified : tasks.Justified) (result : TasksResult) :
    (tasks.cancel result).Justified := by
  unfold Tasks.cancel
  split
  · exact justified
  · exact .of_result (setResult_haveResult tasks result)

theorem Justified.taskDone (justified : tasks.Justified) (exception : PyException) :
    (tasks.taskDone exception).Justified := by
  unfold Tasks.taskDone
  split
  · split
    · exact .of_result (setResult_haveResult tasks _)
    · exact justified
  · exact .of_result (setResult_haveResult tasks _)

theorem Justified.start (justified : tasks.Justified) (connected : Bool) :
    (tasks.start connected).Justified := by
  unfold Tasks.start
  cases connected with
  | false =>
      simp only [Bool.false_eq_true, if_false]
      split
      · next cancelled => exact .of_result (justified.cancelled cancelled)
      · exact justified
  | true =>
      simp only [if_true]
      split
      · next cancelled => exact .of_result (justified.cancelled cancelled)
      · exact ⟨justified.cancelled, by simp [Worker.start]⟩

theorem Justified.setReceiveLoop (justified : tasks.Justified) (status : WorkerStatus) :
    Justified { tasks with receiveLoop := { tasks.receiveLoop with status := status } } :=
  ⟨justified.cancelled, justified.requested⟩

end Tasks

/-- `client.tasks` may have been started. -/
def Handler.Served : Handler → Prop
  | .awaitingResult | .joining _ | .cancellingJoin _ | .joined _ | .dispatching _ _ | .closing _
  | .finished | .raised _ => True
  | _ => False

def OutgoingMessage.isSendError : OutgoingMessage → Bool
  | .sendError _ _ => true
  | _ => false

/-- The send-error message that was submitted to the queue of a client. -/
def Event.sendError? (client : ClientRef) : Event → Option OutgoingMessage
  | .submitted ref message _ => if ref = client ∧ message.isSendError then some message else none
  | _ => none

namespace Server

/-- `relay_message` waits in the receive loop of a client. -/
def Relaying (server : Server) (ref : ClientRef) : Prop :=
  (server.tasks ref).receiveLoop.status.task? ≠ none

instance (server : Server) (ref : ClientRef) : Decidable (server.Relaying ref) :=
  inferInstanceAs (Decidable (¬ _))

/-- The send-error messages that were submitted to the queue of a client, in order. -/
def sendErrors (server : Server) (ref : ClientRef) : List OutgoingMessage :=
  server.history.filterMap (Event.sendError? ref)

/-- Tasks that enqueue a message do not enqueue send-error messages. -/
def Announces (server : Server) : Prop :=
  ∀ id < server.loop.next, ∀ ref message,
    (server.loop.task id).body = .enqueue ref message → message.isSendError = false

/-- What every coroutine keeps of a client. -/
structure Serves (ref : ClientRef) (before after : Server) : Prop where
  justified : (before.tasks ref).Justified → (after.tasks ref).Justified
  served : (before.handler ref).Served → (after.handler ref).Served ∧
    ((before.tasks ref).haveResult = true → (after.tasks ref).haveResult = true)

/-- What every coroutine but the receive loop itself keeps of a client. -/
structure LoopKept (ref : ClientRef) (before after : Server) : Prop where
  serves : Serves ref before after
  status : (before.handler ref).Served →
    (after.tasks ref).receiveLoop.status = (before.tasks ref).receiveLoop.status
  errors : after.sendErrors ref = before.sendErrors ref

section Kept

variable {ref : ClientRef} {first second third before after : Server}

theorem Serves.trans (one : Serves ref first second) (two : Serves ref second third) :
    Serves ref first third where
  justified justified := two.justified (one.justified justified)
  served served := by
    obtain ⟨middle, result⟩ := one.served served
    obtain ⟨last, later⟩ := two.served middle
    exact ⟨last, fun known => later (result known)⟩

namespace LoopKept

theorem trans (one : LoopKept ref first second) (two : LoopKept ref second third) :
    LoopKept ref first third where
  serves := one.serves.trans two.serves
  status served := (two.status (one.serves.served served).1).trans (one.status served)
  errors := two.errors.trans one.errors

theorem of_same (tasks : after.tasks ref = before.tasks ref)
    (handler : (before.handler ref).Served → (after.handler ref).Served)
    (errors : after.sendErrors ref = before.sendErrors ref) : LoopKept ref before after where
  serves := by
    refine ⟨fun justified => ?_, fun served => ⟨handler served, fun known => ?_⟩⟩
    · rwa [tasks]
    · rwa [tasks]
  status _ := by rw [tasks]
  errors := errors

variable (server : Server)

theorem refl : LoopKept ref server server := of_same rfl id rfl

theorem setHandler {mover : ClientRef} {next : Handler}
    (served : mover = ref → (server.handler ref).Served → next.Served) :
    LoopKept ref server (server.setHandler mover next) := by
  refine of_same rfl (fun still => ?_) rfl
  by_cases same : ref = mover
  · subst same
    simpa [Server.setHandler] using served rfl still
  · simpa [Server.setHandler, same] using still

theorem setJobs (victim : ClientRef) (jobs : JobQueue) :
    LoopKept ref server (server.setJobs victim jobs) :=
  of_same rfl id rfl

theorem log {event : Event} (other : event.sendError? ref = none) :
    LoopKept ref server (server.log event) := by
  refine of_same rfl id ?_
  simp [sendErrors, Server.log, other]

theorem setTasks {victim : ClientRef} {tasks : Tasks}
    (own : victim = ref → ((server.tasks ref).Justified → tasks.Justified) ∧
      ((server.tasks ref).haveResult = true → tasks.haveResult = true) ∧
        tasks.receiveLoop.status = (server.tasks ref).receiveLoop.status) :
    LoopKept ref server (server.setTasks victim tasks) := by
  by_cases same : ref = victim
  · subst same
    obtain ⟨justified, result, status⟩ := own rfl
    refine ⟨⟨?_, fun served => ⟨served, ?_⟩⟩, fun _ => ?_, rfl⟩
    · simpa [Server.setTasks] using justified
    · simpa [Server.setTasks] using result
    · simpa [Server.setTasks] using status
  · exact of_same (Function.update_of_ne same ..) id rfl

theorem cancelTasks (victim : ClientRef) (result : TasksResult) :
    LoopKept ref server (server.cancelTasks victim result) := by
  apply setTasks server
  rintro rfl
  exact ⟨fun justified => justified.cancel result, (server.tasks victim).cancel_haveResult result,
    Tasks.cancel_receiveLoop_status _ _⟩

theorem closeJobs (victim : ClientRef) (code : Nat) :
    LoopKept ref server (server.closeJobs victim code) :=
  setJobs server _ _

theorem cancelJobs (victim : ClientRef) (result : PyException) :
    LoopKept ref server (server.cancelJobs victim result).1 :=
  of_same rfl id rfl

theorem submit (victim : ClientRef) {message : OutgoingMessage}
    (other : victim = ref → message.isSendError = false) :
    LoopKept ref server (server.submit victim message) := by
  refine of_same ?_ ?_ ?_
  · rw [submit_tasks]
  · rw [submit_handler]
    exact id
  · have silent : (Event.submitted victim message (server.nextNumber victim)).sendError? ref =
        none := by
      unfold Event.sendError?
      refine if_neg fun ⟨same, error⟩ => ?_
      rw [other same] at error
      contradiction
    simp [sendErrors, submit_history, silent]

theorem drop (victim : ClientRef) (code : CloseCode) :
    LoopKept ref server (server.drop victim code) := by
  unfold Server.drop
  exact ((setJobs server _ _).trans (cancelTasks _ _ _)).trans (log _ rfl)

theorem setSystem (system : PathSystem) : LoopKept ref server { server with system := system } :=
  of_same rfl id rfl

theorem setLoop (loop : Loop) : LoopKept ref server { server with loop := loop } :=
  of_same rfl id rfl

theorem dropClient (victim : ClientRef) (code : CloseCode) :
    LoopKept ref server (server.dropClient victim code) := by
  unfold Server.dropClient
  exact (drop server victim code).trans (setSystem _ _)

theorem gather {messages : List (ClientRef × OutgoingMessage)} {ids : List TaskId}
    (gathers : server.gather messages = (after, ids)) : LoopKept ref server after := by
  rw [(gather_eq gathers).1]
  exact setLoop server _

theorem handleException (mover : ClientRef) (exception : PyException) :
    LoopKept ref server (server.handleException mover exception) := by
  unfold Server.handleException
  split
  · exact setHandler server fun _ _ => trivial
  · exact (setLoop server _).trans (setHandler _ fun _ _ => trivial)

theorem dropPrevious (previous : Option ClientRef) :
    LoopKept ref server (server.dropPrevious previous) := by
  cases previous with
  | none => exact refl server
  | some previous => exact drop server previous _

theorem leave (mover : ClientRef) (result : PyException) :
    LoopKept ref server (server.leave mover result) := by
  have cancelled : LoopKept ref server (server.cancelJobs mover result).1 :=
    cancelJobs server mover result
  unfold Server.leave
  split
  · next after raised called =>
    rw [called] at cancelled
    exact cancelled.trans (handleException after mover raised)
  · next after called =>
    rw [called] at cancelled
    exact (cancelled.trans (setSystem after _)).trans (handleException _ mover result)

theorem dispatch (mover : ClientRef) (closing : Option TaskId) :
    LoopKept ref server (server.dispatch mover closing) := by
  unfold Server.dispatch
  dsimp only
  split
  · exact setHandler server fun _ _ => trivial
  · split
    · split
      · exact setHandler server fun _ _ => trivial
      · split
        · next gathers => exact (gather server gathers).trans (setHandler _ fun _ _ => trivial)
        · next gathers => exact (gather server gathers).trans (setHandler _ fun _ _ => trivial)
    · split
      · exact setHandler server fun _ _ => trivial
      · exact setHandler server fun _ _ => trivial
      · exact (submit server _ fun _ => rfl).trans (setHandler _ fun _ _ => trivial)
    · exact setHandler server fun _ _ => trivial

/-- The handler acts for another client, or before the tasks are started. -/
def Away (ref mover : ClientRef) (server : Server) : Prop :=
  mover = ref → ¬ (server.handler ref).Served

theorem Away.of_handler {mover : ClientRef} {server : Server} (away : Away ref mover server)
    (same : after.handler = server.handler) : Away ref mover after := by
  unfold Away
  rwa [same]

variable {server}

theorem start {mover : ClientRef} (away : Away ref mover server) (connected : Bool) :
    LoopKept ref server (server.start mover connected) := by
  unfold Server.start
  split
  · by_cases same : mover = ref
    · subst same
      have absent := away rfl
      refine ⟨⟨fun justified => ?_, fun served => absurd served absent⟩,
        fun served => absurd served absent, rfl⟩
      simpa [Server.setHandler, Server.setTasks, Server.setJobs] using justified.start connected
    · refine of_same ?_ ?_ rfl
      · simp [Server.setHandler, Server.setTasks, Server.setJobs, Ne.symm same]
      · simp [Server.setHandler, Server.setTasks, Server.setJobs, Ne.symm same]
  · exact handleException server mover _

theorem abort {mover : ClientRef} (away : Away ref mover server) (exception : PyException) :
    LoopKept ref server (server.abort mover exception) := by
  have cancelled : LoopKept ref server (server.cancelJobs mover exception).1 :=
    cancelJobs server mover exception
  have still : Away ref mover (server.cancelJobs mover exception).1 := away.of_handler rfl
  unfold Server.abort
  split
  · next after raised called =>
    rw [called] at cancelled
    exact cancelled.trans (handleException after mover raised)
  · next after called =>
    rw [called] at cancelled still
    refine (cancelled.trans (cancelTasks after mover _)).trans (start ?_ false)
    exact still.of_handler rfl

theorem send {mover : ClientRef} (away : Away ref mover server) (message : OutgoingMessage)
    (next : Handler) : LoopKept ref server (server.send mover message next) := by
  unfold Server.send
  split
  · next csn exception _ =>
    have counted : LoopKept ref server
        { server with csnOut := Function.update server.csnOut mover csn } := of_same rfl id rfl
    refine counted.trans (abort ?_ exception)
    exact away
  · next csn _ _ =>
    have counted : LoopKept ref server
        { server with csnOut := Function.update server.csnOut mover csn } := of_same rfl id rfl
    refine (counted.trans (setHandler _ fun same served => ?_)).trans (log _ rfl)
    exact absurd served (away same)

theorem sendServerAuth {mover : ClientRef} (away : Away ref mover server)
    (message : OutgoingMessage) : LoopKept ref server (server.sendServerAuth mover message) := by
  unfold Server.sendServerAuth
  have created : LoopKept ref server
      (server.log (.created mover message server.system.path.initiator)) := log server rfl
  refine created.trans (send ?_ message _)
  exact away

theorem sendInitiatorAuth {mover : ClientRef} (away : Away ref mover server) :
    LoopKept ref server (server.sendInitiatorAuth mover) := by
  unfold Server.sendInitiatorAuth
  split
  · exact abort away _
  · exact sendServerAuth away _

theorem handshakeInitiator {mover : ClientRef} (away : Away ref mover server)
    (verdict : Except PacketError Unit) :
    LoopKept ref server (server.handshakeInitiator mover verdict) := by
  unfold Server.handshakeInitiator
  split
  · exact abort away _
  · dsimp only
    split
    · refine (setSystem server _).trans (abort ?_ _)
      exact away
    · next previous _ =>
      have placed (system : PathSystem) : LoopKept ref server
          (({ server with system := system }.log (.authenticated mover)).dropPrevious previous) :=
        ((setSystem server system).trans (log _ rfl)).trans (dropPrevious _ previous)
      have handler (system : PathSystem) :
          (({ server with system := system }.log (.authenticated mover)).dropPrevious
            previous).handler = server.handler := by
        cases previous <;> rfl
      split
      · next after gathers =>
        refine ((placed _).trans (gather _ gathers)).trans (sendInitiatorAuth ?_)
        rw [(gather_eq gathers).1]
        exact away.of_handler (handler _)
      · next after ids _ gathers =>
        refine ((placed _).trans (gather _ gathers)).trans (setHandler _ fun same served => ?_)
        rw [(gather_eq gathers).1] at served
        change ((Server.handler _) ref).Served at served
        rw [handler] at served
        exact absurd served (away same)

theorem announceResponder {mover : ClientRef} (away : Away ref mover server)
    (id : ResponderAddress) : LoopKept ref server (server.announceResponder mover id) := by
  unfold Server.announceResponder
  split
  · exact sendServerAuth away _
  · exact abort away _
  · refine (submit server _ fun _ => rfl).trans (sendServerAuth ?_ _)
    exact away.of_handler (submit_handler ..)

theorem handshakeResponder {mover : ClientRef} (away : Away ref mover server)
    (verdict : Except PacketError Unit) :
    LoopKept ref server (server.handshakeResponder mover verdict) := by
  unfold Server.handshakeResponder
  split
  · exact abort away _
  · dsimp only
    split
    · refine (setSystem server _).trans (abort ?_ _)
      exact away
    · refine ((setSystem server _).trans (log _ rfl)).trans (announceResponder ?_ _)
      exact away.of_handler rfl

theorem completeHandshake {mover : ClientRef} (away : Away ref mover server) :
    LoopKept ref server (server.completeHandshake mover) := by
  unfold Server.completeHandshake
  split
  · exact handleException server mover _
  · split
    · exact start away _
    · exact start away _
    · exact handleException server mover _
    · exact handleException server mover _

theorem awaitAuth {mover : ClientRef} (away : Away ref mover server)
    (verdict : Except PacketError Unit) : LoopKept ref server (server.awaitAuth mover verdict) := by
  unfold Server.awaitAuth
  split
  · exact abort away _
  · exact setHandler _ fun same served => absurd served (away same)

theorem receiveFirst {mover : ClientRef} (away : Away ref mover server) (input : Received) :
    LoopKept ref server (server.receiveFirst mover input) := by
  unfold Server.receiveFirst
  split
  · refine (setSystem server _).trans (handshakeInitiator ?_ _)
    exact away
  · refine (setSystem server (server.system.setType mover .responder)).trans (awaitAuth ?_ _)
    exact away
  · exact abort away _
  · exact abort away _

theorem receiveAuth {mover : ClientRef} (away : Away ref mover server) (input : Received) :
    LoopKept ref server (server.receiveAuth mover input) := by
  unfold Server.receiveAuth
  split
  · exact handshakeResponder away _
  · exact abort away _
  · exact abort away _

section Others

variable {other : ClientRef}

theorem setReceiveLoop (different : other ≠ ref) (server : Server) (status : WorkerStatus) :
    LoopKept ref server (server.setReceiveLoop other status) :=
  setTasks server fun same => absurd same different

theorem sendError (different : other ≠ ref) (server : Server) (packet : List UInt8) :
    LoopKept ref server (server.sendError other packet) := by
  unfold Server.sendError
  split
  · exact setReceiveLoop different _ _
  · exact (submit server _ fun same => absurd same different).trans (setReceiveLoop different _ _)

theorem submitTask (server : Server) (destination : ClientRef) (packet : List UInt8) :
    LoopKept ref server (server.submitTask destination (.relay packet)) := by
  unfold Server.submitTask
  dsimp only
  exact ((setLoop server _).trans (setJobs _ _ _)).trans (log _ (by simp [Event.sendError?,
    OutgoingMessage.isSendError]))

theorem relayMessage (different : other ≠ ref) (server : Server)
    (destination : Option ClientRef) (packet : List UInt8) :
    LoopKept ref server (server.relayMessage other destination packet) := by
  unfold Server.relayMessage
  split
  · exact sendError different server packet
  · exact (submitTask server _ packet).trans (setReceiveLoop different _ _)

theorem initiatorReceive (different : other ≠ ref) (server : Server) (input : Received) :
    LoopKept ref server (server.initiatorReceive other input) := by
  unfold Server.initiatorReceive
  split
  · split
    · exact setReceiveLoop different server _
    · split
      · exact relayMessage different server _ _
      · exact setReceiveLoop different server _
      · exact relayMessage different server _ _
  · split
    · exact refl server
    · exact setReceiveLoop different server _
    · exact dropClient server _ _
  · exact setReceiveLoop different server _
  · exact setReceiveLoop different server _

theorem responderReceive (different : other ≠ ref) (server : Server) (input : Received) :
    LoopKept ref server (server.responderReceive other input) := by
  unfold Server.responderReceive
  split
  · split
    · exact relayMessage different server _ _
    · exact setReceiveLoop different server _
    · exact relayMessage different server _ _
  · exact setReceiveLoop different server _
  · exact setReceiveLoop different server _

end Others

section Runner

variable {other : ClientRef}

theorem runnerGet (stepped : server.runnerGet other = some after) : LoopKept ref server after := by
  unfold Server.runnerGet at stepped
  split at stepped
  · dsimp only at stepped
    split at stepped
    · cases stepped
      exact setJobs server other _
    · cases stepped
      exact (setJobs server other _).trans (cancelTasks _ _ _)
  · cases stepped
    exact (setLoop server _).trans (setJobs _ other _)
  · cases stepped
    exact setJobs server other _
  · contradiction

theorem runnerWake (stepped : server.runnerWake other = some after) : LoopKept ref server after := by
  unfold Server.runnerWake at stepped
  split at stepped
  · dsimp only at stepped
    split at stepped
    · split at stepped
      · cases stepped
        exact setJobs server other _
      · cases stepped
        exact setJobs server other _
    · cases stepped
      exact setJobs server other _
    · next exception _ =>
      have cancelled (jobs : JobQueue) : LoopKept ref server
          ((server.setJobs other jobs).cancelJobs other exception).1 :=
        (setJobs server other jobs).trans (cancelJobs _ _ _)
      split at stepped
      · next middle raised called =>
        cases stepped
        have first := cancelled { server.jobs other with active := none }
        rw [called] at first
        exact first.trans (setJobs middle other _)
      · next middle called =>
        cases stepped
        have first := cancelled { server.jobs other with active := none }
        rw [called] at first
        exact (first.trans (cancelTasks middle other _)).trans (setJobs _ other _)
    · contradiction
  · contradiction

theorem jobDone {id : TaskId} (stepped : server.jobDone other id = some after) :
    LoopKept ref server after := by
  unfold Server.jobDone at stepped
  split at stepped
  · dsimp only at stepped
    split at stepped
    · cases stepped
      exact setJobs server other _
    · cases stepped
      exact setJobs server other _
  · contradiction

theorem joinTimeout (server : Server) (mover : ClientRef) (closing : Option TaskId) :
    LoopKept ref server (server.joinTimeout mover closing) := by
  have moved : LoopKept ref server (server.setHandler mover (.cancellingJoin closing)) :=
    setHandler server fun _ _ => trivial
  unfold Server.joinTimeout
  dsimp only
  split
  · exact moved.trans (setJobs _ _ _)
  · exact moved.trans (setLoop _ _)
  · exact moved

theorem finish {mover : ClientRef} {closing : Option TaskId}
    (stepped : server.finish mover closing = some after) : LoopKept ref server after := by
  have finished : LoopKept ref server
      ({ server with protocols := server.protocols.erase mover }.setHandler mover .finished) := by
    have unregistered : LoopKept ref server
        { server with protocols := server.protocols.erase mover } := of_same rfl id rfl
    exact unregistered.trans (setHandler _ fun _ _ => trivial)
  unfold Server.finish at stepped
  split at stepped
  · cases stepped
    exact finished
  · split at stepped
    · cases stepped
      exact finished
    · cases stepped
      exact setHandler server fun _ _ => trivial
    · cases stepped
      exact setHandler server fun _ _ => trivial
    · contradiction

theorem setKeepAlive (server : Server) (victim : ClientRef) (status : WorkerStatus) :
    LoopKept ref server (server.setKeepAlive victim status) := by
  apply setTasks server
  rintro rfl
  exact ⟨fun justified => ⟨justified.cancelled, justified.requested⟩, id, rfl⟩

theorem keepAliveReported (stepped : server.keepAliveReported other = some after) :
    LoopKept ref server after := by
  unfold Server.keepAliveReported at stepped
  split at stepped
  · next exception _ =>
    cases stepped
    refine (setKeepAlive server other .reported).trans (setTasks _ ?_)
    rintro rfl
    exact ⟨fun justified => justified.taskDone exception,
      Tasks.taskDone_haveResult _ exception, Tasks.taskDone_receiveLoop_status _ _⟩
  · contradiction

theorem taskStart (wellFormed : server.loop.WellFormed) (announces : Announces server)
    (stepped : server.taskStart = some after) : LoopKept ref server after := by
  unfold Server.taskStart at stepped
  split at stepped
  · contradiction
  · next head rest ready =>
    dsimp only at stepped
    have popped : LoopKept ref server { server with loop := { server.loop with ready := rest } } :=
      setLoop server _
    split at stepped
    · cases stepped
      exact setLoop server _
    · split at stepped
      · split at stepped
        · cases stepped
          exact of_same rfl id rfl
        · cases stepped
          have started (csn : SequenceNumber) (loop : Loop) (client : ClientRef) :
              LoopKept ref server { server with
                csnOut := Function.update server.csnOut client csn
                loop := loop } := of_same rfl id rfl
          exact (started _ _ _).trans (log _ rfl)
      · next client code _ =>
        cases stepped
        apply (popped.trans (closeJobs _ client code.value)).trans
        exact of_same rfl id (by simp [sendErrors, Server.log, suspendTask, Event.sendError?])
      · next client message body =>
        cases stepped
        have created := wellFormed.created head (ready ▸ List.mem_cons_self)
        have own := announces head created client message body
        exact (popped.trans (submit _ client fun _ => own)).trans (setLoop _ _)

end Runner

end LoopKept

end Kept

section Announcements

variable {origin before after : Server} {action : Action} {moves : ClientRef → Prop}

/-- Bookkeeping adds no such task but those that it spawns. -/
theorem Announces.extends {spawned : TaskBody → Prop} {cancelled : TaskId → Prop}
    (announces : Announces before)
    (extension : before.loop.Extends spawned cancelled after.loop)
    (none : ∀ ref message, spawned (.enqueue ref message) → message.isSendError = false) :
    Announces after := by
  intro id created ref message body
  obtain older | newer := Nat.lt_or_ge id before.loop.next
  · exact announces id older ref message ((extension.body id older).symm.trans body)
  · have isSpawned := (extension.fresh id newer created).1
    rw [body] at isSpawned
    exact none ref message isSpawned

theorem Announces.gather (announces : Announces before)
    {messages : List (ClientRef × OutgoingMessage)} {ids : List TaskId}
    (gathers : before.gather messages = (after, ids))
    (none : ∀ message ∈ messages, message.2.isSendError = false) : Announces after := by
  obtain ⟨rfl, _⟩ := gather_eq gathers
  have extension : before.loop.Extends
      (fun body => ∃ message ∈ messages, body = .enqueue message.1 message.2) (fun _ => False)
      (before.loop.spawnAll (messages.map fun message => .enqueue message.1 message.2)).1 := by
    refine .spawnAll fun body mem => ?_
    obtain ⟨message, isMessage, rfl⟩ := List.mem_map.mp mem
    exact ⟨message, isMessage, rfl⟩
  apply announces.extends extension
  rintro ref message ⟨entry, isMessage, same⟩
  cases same
  exact none entry isMessage

theorem Announces.of_bodies (announces : Announces before)
    (next : after.loop.next = before.loop.next)
    (body : ∀ id, (after.loop.task id).body = (before.loop.task id).body) :
    Announces after := by
  intro id created ref message isEnqueue
  rw [next] at created
  rw [body] at isEnqueue
  exact announces id created ref message isEnqueue

theorem body_setStatus (loop : Loop) (id other : TaskId) (status : TaskStatus PyException) :
    ((loop.setStatus id status).task other).body = (loop.task other).body := by
  by_cases same : other = id <;> simp [EventLoop.setStatus, same]

theorem Effect.announces (effect : Effect origin action moves before after)
    (announces : Announces before) : Announces after := by
  have started (id : TaskId) (status : TaskStatus PyException) :
      Announces (before.startHead id status) :=
    announces.of_bodies rfl fun other => body_setStatus before.loop.pop id other status
  cases effect with
  | calm calm => exact announces.extends calm.loop fun _ _ isClose => isClose.elim
  | path | created | greeted | serverAuth => exact announces
  | connect _ stepped =>
      unfold Server.connect at stepped
      split at stepped
      · obtain ⟨system, _, rfl⟩ := Option.map_eq_some_iff.mp stepped
        exact announces
      · contradiction
  | @initiator ref _ dropped gathered state previous ids _ _ _ _ _ _ calm _ _ gathers =>
      have announced : Announces gathered := by
        refine Announces.gather ?_ gathers fun message mem => ?_
        · exact Announces.extends announces calm.loop fun _ _ isClose => isClose.elim
        · obtain ⟨entry, _, rfl⟩ := List.mem_map.mp mem
          rfl
      split <;> exact announced
  | @responder ref _ joined state id _ _ _ _ _ isJoined =>
      have loop : joined.loop = before.loop := by
        rw [isJoined]
        rfl
      split
      · exact announces.of_bodies (congrArg _ loop) fun id => by
          change (joined.loop.task id).body = _
          rw [loop]
      · refine announces.of_bodies ?_ fun id => ?_
        · change (joined.submit _ _).loop.next = _
          rw [submit_loop, loop]
        · change ((joined.submit _ _).loop.task id).body = _
          rw [submit_loop, loop]
  | sendError | disconnectedResponder =>
      exact announces.of_bodies (by rw [submit_loop]) fun id => by rw [submit_loop]
  | relay packet =>
      apply announces.extends (submitTask_extends origin _ (.relay packet))
      intro _ _ isRun
      contradiction
  | @disconnectedInitiator _ _ gathered _ _ _ _ _ _ gathers =>
      have announced : Announces gathered := by
        apply announces.gather gathers
        intro message mem
        obtain ⟨entry, _, rfl⟩ := List.mem_map.mp mem
        rfl
      split <;> exact announced
  | @take ref coroutine _ _ =>
      have extension : before.loop.Extends (· = .run ref coroutine) (fun _ => False)
          (before.loop.spawn (.run ref coroutine)) := .spawn rfl
      exact announces.extends extension fun _ _ isRun => by contradiction
  | startEnded | startClosing | handed => exact started _ _
  | @enqueued _ head _ _ _ _ _ _ =>
      refine (started head (.done .finished)).of_bodies ?_ fun id => ?_
      · rw [submit_loop]
      · rw [submit_loop]
  | ended => exact announces.of_bodies rfl fun other => body_setStatus before.loop _ other _

theorem announces_of_reachable {server : Server} (reachable : machine.Reachable server) :
    Announces server :=
  invariant_of_effects Announces (fun _ _ id created => absurd created (Nat.not_lt_zero id))
    (fun _ _ _ _ _ _ _ _ announces effect => effect.announces announces) reachable

end Announcements

section Steps

variable {before after : Server} {action : Action} {ref : ClientRef}

/-- The action resumes the receive loop of the client. -/
def ResumesLoop (server : Server) (action : Action) (ref : ClientRef) : Prop :=
  match action with
  | .receive mover _ | .receiveClosed mover _ =>
      mover = ref ∧ server.handler mover = .awaitingResult
  | .relayed mover | .relayTimeout mover | .relayExpired mover | .loopCancelled mover
  | .loopReported mover => mover = ref
  | _ => False

theorem away_of_handler {mover : ClientRef} {handler : Handler} (current : before.handler mover = handler)
    (early : ¬ handler.Served) : LoopKept.Away ref mover before := by
  rintro rfl
  rwa [current]

theorem receive_kept {mover : ClientRef} {input : Received}
    (stepped : before.receive mover input = some after)
    (others : ¬ before.ResumesLoop (.receive mover input) ref) : LoopKept ref before after := by
  unfold Server.receive at stepped
  split at stepped
  · next receiving =>
    cases stepped
    exact .receiveFirst (away_of_handler receiving id) input
  · next receiving =>
    cases stepped
    exact .receiveAuth (away_of_handler receiving id) input
  · next awaiting =>
    have different : mover ≠ ref := fun same => others ⟨same, awaiting⟩
    split at stepped
    · split at stepped
      · cases stepped
        exact .initiatorReceive different before input
      · cases stepped
        exact .responderReceive different before input
    · contradiction
  · contradiction

theorem receiveClosed_kept {mover : ClientRef} {code : Nat}
    (stepped : before.receiveClosed mover code = some after)
    (others : ¬ before.ResumesLoop (.receiveClosed mover code) ref) : LoopKept ref before after := by
  have closed : LoopKept ref before (before.closeJobs mover code) := .closeJobs before mover code
  unfold Server.receiveClosed at stepped
  split at stepped
  · split at stepped
    · next receiving =>
      cases stepped
      refine closed.trans (.abort ?_ _)
      exact away_of_handler receiving id
    · next receiving =>
      cases stepped
      refine closed.trans (.abort ?_ _)
      exact away_of_handler receiving id
    · next awaiting =>
      have different : mover ≠ ref := fun same => others ⟨same, awaiting⟩
      split at stepped
      · cases stepped
        exact closed.trans (.setReceiveLoop different _ _)
      · contradiction
    · contradiction
  · contradiction

section Others

variable {mover : ClientRef} (different : mover ≠ ref)

include different

theorem relayed_kept (stepped : before.relayed mover = some after) : LoopKept ref before after := by
  unfold Server.relayed at stepped
  split at stepped
  · split at stepped
    · cases stepped
      exact .setReceiveLoop different before _
    · split at stepped
      · cases stepped
        exact .setReceiveLoop different before _
      · cases stepped
        exact .sendError different before _
    · cases stepped
      exact .sendError different before _
    · contradiction
  · contradiction

theorem relayTimeout_kept (stepped : before.relayTimeout mover = some after) :
    LoopKept ref before after := by
  unfold Server.relayTimeout at stepped
  split at stepped
  · split at stepped
    · cases stepped
      exact LoopKept.trans (.setLoop before _) (.setReceiveLoop different _ _)
    · contradiction
  · contradiction

theorem relayExpired_kept (stepped : before.relayExpired mover = some after) :
    LoopKept ref before after := by
  unfold Server.relayExpired at stepped
  split at stepped
  · split at stepped
    · cases stepped
      exact .sendError different before _
    · contradiction
  · contradiction

theorem giveUpRelay_kept {id : TaskId} {packet : List UInt8}
    (stepped : (if id ∈ before.loop.ready then none
      else
        let server := { before with loop := before.loop.requestCancel id }
        if (server.tasks mover).haveResult then
          some (server.setReceiveLoop mover (.ended .cancelledError))
        else
          some ((server.setTasks mover { server.tasks mover with
            receiveLoop := ⟨.waiting, false⟩ }).sendError mover packet)) = some after) :
    LoopKept ref before after := by
  split at stepped
  · contradiction
  · dsimp only at stepped
    split at stepped
    · cases stepped
      exact LoopKept.trans (.setLoop before _) (.setReceiveLoop different _ _)
    · cases stepped
      refine LoopKept.trans (.setLoop before _) (.trans (.setTasks _ ?_) (.sendError different _ _))
      exact fun same => absurd same different

theorem loopCancelled_kept (stepped : before.loopCancelled mover = some after) :
    LoopKept ref before after := by
  unfold Server.loopCancelled at stepped
  split at stepped
  · cases stepped
    exact .setReceiveLoop different before _
  · exact giveUpRelay_kept different stepped
  · exact giveUpRelay_kept different stepped
  · contradiction

theorem loopReported_kept (stepped : before.loopReported mover = some after) :
    LoopKept ref before after := by
  unfold Server.loopReported at stepped
  split at stepped
  · cases stepped
    refine LoopKept.trans (.setReceiveLoop different before _) (.setTasks _ ?_)
    exact fun same => absurd same different
  · contradiction

end Others

/-- Whoever is resumed instead leaves the receive loop where it is. -/
theorem step_kept (wellFormed : before.loop.WellFormed) (announces : before.Announces)
    (stepped : before.step action = some after) (others : ¬ before.ResumesLoop action ref) :
    LoopKept ref before after := by
  cases action with
  | connect mover csn =>
      simp only [step, connect] at stepped
      split at stepped
      · next absent =>
        obtain ⟨system, _, rfl⟩ := Option.map_eq_some_iff.mp stepped
        by_cases same : ref = mover
        · subst same
          refine ⟨⟨fun _ => ?_, fun served => ?_⟩, fun served => ?_, rfl⟩
          · constructor <;> simp [Tasks.new]
          · rw [absent.1] at served
            exact served.elim
          · rw [absent.1] at served
            exact served.elim
        · exact .of_same (Function.update_of_ne same ..)
            (by simp [Function.update_of_ne same]) rfl
      · contradiction
  | begin mover =>
      simp only [step] at stepped
      split at stepped
      · next created =>
        cases stepped
        exact .send (away_of_handler created id) _ _
      · contradiction
  | sent mover =>
      simp only [step] at stepped
      split at stepped
      · next sending =>
        cases stepped
        refine .setHandler before fun same served => ?_
        exact absurd served (away_of_handler sending id same)
      · next sending =>
        cases stepped
        exact .completeHandshake (away_of_handler sending id)
      · contradiction
  | sendClosed mover code =>
      simp only [step] at stepped
      split at stepped
      · next sending =>
        cases stepped
        have away : LoopKept.Away ref mover before :=
          sending.1.elim (away_of_handler · id) (away_of_handler · id)
        refine LoopKept.trans (.closeJobs before mover code) (.abort ?_ _)
        exact away
      · contradiction
  | receive mover input => exact receive_kept stepped others
  | receiveClosed mover code => exact receiveClosed_kept stepped others
  | gathered mover =>
      simp only [step] at stepped
      split at stepped
      · next gathering =>
        split at stepped
        · cases stepped
          exact .sendInitiatorAuth (away_of_handler gathering id)
        · contradiction
      · contradiction
  | result mover =>
      simp only [step] at stepped
      split at stepped
      · cases stepped
        exact .leave before mover _
      · contradiction
  | join mover =>
      simp only [step, join] at stepped
      split at stepped
      · split at stepped
        · cases stepped
          exact .setHandler before fun _ _ => trivial
        · cases stepped
          exact .setHandler before fun _ _ => trivial
        · split at stepped
          · cases stepped
            exact .setHandler before fun _ _ => trivial
          · contradiction
        · contradiction
      · contradiction
  | joinTimeout mover =>
      simp only [step] at stepped
      split at stepped
      · split at stepped
        · contradiction
        · cases stepped
          exact .joinTimeout before mover _
      · contradiction
  | joinCancelled mover =>
      simp only [step] at stepped
      split at stepped
      · next closing _ =>
        cases stepped
        have cancelled (loop : Loop) (jobs : JobQueue) : LoopKept ref before
            ({ before with loop := loop }.setJobs mover jobs) := .of_same rfl id rfl
        exact (cancelled _ _).trans (.setHandler _ fun _ _ => trivial)
      · contradiction
  | dispatch mover =>
      simp only [step] at stepped
      split at stepped
      · cases stepped
        exact .dispatch before mover _
      · contradiction
  | dispatched mover =>
      simp only [step] at stepped
      split at stepped
      · split at stepped
        · cases stepped
          exact .setHandler before fun _ _ => trivial
        · contradiction
      · contradiction
  | finish mover =>
      simp only [step] at stepped
      split at stepped
      · exact .finish stepped
      · contradiction
  | runnerGet mover => exact .runnerGet stepped
  | runnerWake mover => exact .runnerWake stepped
  | jobDone mover id => exact .jobDone stepped
  | taskStart => exact .taskStart wellFormed announces stepped
  | taskSent id =>
      simp only [step, taskSent] at stepped
      split at stepped
      · split at stepped
        · cases stepped
          exact .setLoop before _
        · contradiction
      · contradiction
  | taskSendClosed id code =>
      simp only [step, taskSendClosed] at stepped
      split at stepped
      · split at stepped
        · cases stepped
          exact LoopKept.trans (.closeJobs before _ code) (.setLoop _ _)
        · contradiction
      · contradiction
  | taskClosed id =>
      simp only [step, taskClosed] at stepped
      split at stepped
      · split at stepped
        · cases stepped
          exact .of_same rfl (fun served => served) rfl
        · contradiction
      · contradiction
  | taskCancelled id =>
      simp only [step, taskCancelled] at stepped
      split at stepped
      · cases stepped
        exact .setLoop before _
      · contradiction
  | relayed mover => exact relayed_kept others stepped
  | relayTimeout mover => exact relayTimeout_kept others stepped
  | relayExpired mover => exact relayExpired_kept others stepped
  | loopCancelled mover => exact loopCancelled_kept others stepped
  | loopReported mover => exact loopReported_kept others stepped
  | pingTimeout mover =>
      simp only [step, pingTimeout] at stepped
      split at stepped
      · cases stepped
        exact .setKeepAlive before mover _
      · contradiction
  | pingClosed mover code =>
      simp only [step, pingClosed] at stepped
      split at stepped
      · cases stepped
        exact LoopKept.trans (.closeJobs before mover code) (.setKeepAlive _ mover _)
      · contradiction
  | keepAliveCancelled mover =>
      simp only [step, keepAliveCancelled] at stepped
      split at stepped
      · cases stepped
        exact .setKeepAlive before mover _
      · contradiction
  | keepAliveReported mover => exact .keepAliveReported stepped
  | connectionLost mover code =>
      simp only [step] at stepped
      split at stepped
      · cases stepped
        exact .of_same rfl id rfl
      · contradiction
  | closeProtocol mover =>
      simp only [step] at stepped
      split at stepped
      · cases stepped
        exact .dropClient before mover _
      · contradiction

section Own

theorem Serves.setTasks (server : Server) {tasks : Tasks}
    (justified : (server.tasks ref).Justified → tasks.Justified)
    (result : (server.tasks ref).haveResult = true → tasks.haveResult = true) :
    Serves ref server (server.setTasks ref tasks) := by
  refine ⟨?_, fun served => ⟨served, ?_⟩⟩
  · simpa [Server.setTasks] using justified
  · simpa [Server.setTasks] using result

theorem Serves.setReceiveLoop (server : Server) (status : WorkerStatus) :
    Serves ref server (server.setReceiveLoop ref status) :=
  .setTasks server (fun justified => justified.setReceiveLoop status) id

theorem Serves.submit (server : Server) (victim : ClientRef) (message : OutgoingMessage) :
    Serves ref server (server.submit victim message) := by
  refine ⟨?_, fun served => ⟨?_, ?_⟩⟩
  · rw [submit_tasks]
    exact id
  · rwa [submit_handler]
  · rw [submit_tasks]
    exact id

theorem Serves.sendError (server : Server) (packet : List UInt8) :
    Serves ref server (server.sendError ref packet) := by
  unfold Server.sendError
  split
  · exact setReceiveLoop server _
  · exact (submit server _ _).trans (setReceiveLoop _ _)

theorem Serves.relayMessage (server : Server) (destination : Option ClientRef)
    (packet : List UInt8) : Serves ref server (server.relayMessage ref destination packet) := by
  unfold Server.relayMessage
  split
  · exact sendError server packet
  · exact (LoopKept.submitTask server _ packet).serves.trans (setReceiveLoop _ _)

theorem Serves.initiatorReceive (server : Server) (input : Received) :
    Serves ref server (server.initiatorReceive ref input) := by
  unfold Server.initiatorReceive
  split
  · split
    · exact setReceiveLoop server _
    · split
      · exact relayMessage server _ _
      · exact setReceiveLoop server _
      · exact relayMessage server _ _
  · split
    · exact (LoopKept.refl server).serves
    · exact setReceiveLoop server _
    · exact (LoopKept.dropClient server _ _).serves
  · exact setReceiveLoop server _
  · exact setReceiveLoop server _

theorem Serves.responderReceive (server : Server) (input : Received) :
    Serves ref server (server.responderReceive ref input) := by
  unfold Server.responderReceive
  split
  · split
    · exact relayMessage server _ _
    · exact setReceiveLoop server _
    · exact relayMessage server _ _
  · exact setReceiveLoop server _
  · exact setReceiveLoop server _

theorem Serves.giveUpRelay {id : TaskId} {packet : List UInt8}
    (stepped : (if id ∈ before.loop.ready then none
      else
        let server := { before with loop := before.loop.requestCancel id }
        if (server.tasks ref).haveResult then
          some (server.setReceiveLoop ref (.ended .cancelledError))
        else
          some ((server.setTasks ref { server.tasks ref with
            receiveLoop := ⟨.waiting, false⟩ }).sendError ref packet)) = some after) :
    Serves ref before after := by
  have requested : Serves ref before { before with loop := before.loop.requestCancel id } :=
    (LoopKept.setLoop before _).serves
  split at stepped
  · contradiction
  · dsimp only at stepped
    split at stepped
    · cases stepped
      exact requested.trans (setReceiveLoop _ _)
    · cases stepped
      refine requested.trans (.trans (setTasks _ ?_ ?_) (sendError _ _))
      · exact fun justified => ⟨justified.cancelled, by simp⟩
      · exact fun known => known

/-- Every step keeps what every coroutine keeps. -/
theorem step_serves (wellFormed : before.loop.WellFormed) (announces : before.Announces)
    (stepped : before.step action = some after) (ref : ClientRef) : Serves ref before after := by
  by_cases own : before.ResumesLoop action ref
  · cases action with
    | receive mover input =>
        obtain ⟨rfl, awaiting⟩ := own
        simp only [step, receive, awaiting] at stepped
        split at stepped
        · split at stepped
          · cases stepped
            exact .initiatorReceive before input
          · cases stepped
            exact .responderReceive before input
        · contradiction
    | receiveClosed mover code =>
        obtain ⟨rfl, awaiting⟩ := own
        simp only [step, receiveClosed, awaiting] at stepped
        split at stepped
        · split at stepped
          · cases stepped
            exact (LoopKept.closeJobs before mover code).serves.trans (.setReceiveLoop _ _)
          · contradiction
        · contradiction
    | relayed mover =>
        cases own
        simp only [step, relayed] at stepped
        split at stepped
        · split at stepped
          · cases stepped
            exact .setReceiveLoop before _
          · split at stepped
            · cases stepped
              exact .setReceiveLoop before _
            · cases stepped
              exact .sendError before _
          · cases stepped
            exact .sendError before _
          · contradiction
        · contradiction
    | relayTimeout mover =>
        cases own
        simp only [step, relayTimeout] at stepped
        split at stepped
        · split at stepped
          · cases stepped
            exact (LoopKept.setLoop before _).serves.trans (.setReceiveLoop _ _)
          · contradiction
        · contradiction
    | relayExpired mover =>
        cases own
        simp only [step, relayExpired] at stepped
        split at stepped
        · split at stepped
          · cases stepped
            exact .sendError before _
          · contradiction
        · contradiction
    | loopCancelled mover =>
        cases own
        simp only [step, loopCancelled] at stepped
        split at stepped
        · cases stepped
          exact .setReceiveLoop before _
        · exact .giveUpRelay stepped
        · exact .giveUpRelay stepped
        · contradiction
    | loopReported mover =>
        cases own
        simp only [step, loopReported] at stepped
        split at stepped
        · next exception _ =>
          cases stepped
          refine (Serves.setReceiveLoop before _).trans (.setTasks _ ?_ ?_)
          · exact fun justified => justified.taskDone exception
          · exact Tasks.taskDone_haveResult _ exception
        · contradiction
    | _ => exact own.elim
  · exact (step_kept wellFormed announces stepped own).serves

end Own

/-- A receive loop relays only if it did so before, or if its tasks are started. -/
theorem Effect.relaying {origin : Server} {moves : ClientRef → Prop}
    (effect : Effect origin action moves before after) (relaying : after.Relaying ref) :
    before.Relaying ref ∨ (origin.handler ref).Served := by
  have same (tasks : after.tasks = before.tasks) : before.Relaying ref := by
    unfold Relaying at relaying ⊢
    rwa [tasks] at relaying
  have calmly {last : Server} (calm : Calm moves before last) (tasks : after.tasks = last.tasks) :
      before.Relaying ref := by
    unfold Relaying at relaying ⊢
    rw [tasks] at relaying
    obtain ⟨id, waits⟩ := Option.ne_none_iff_exists'.mp relaying
    rw [calm.relays ref id waits]
    simp
  cases effect with
  | calm calm => exact .inl (calmly calm rfl)
  | path | created | greeted | serverAuth | take | startEnded | startClosing | handed | ended =>
      exact .inl (same rfl)
  | @connect mover csn _ _ stepped =>
      unfold Server.connect at stepped
      split at stepped
      · obtain ⟨system, _, rfl⟩ := Option.map_eq_some_iff.mp stepped
        left
        unfold Relaying at relaying ⊢
        by_cases isNew : ref = mover
        · subst isNew
          simp [Tasks.new, WorkerStatus.task?] at relaying
        · simpa [isNew] using relaying
      · contradiction
  | @initiator mover _ dropped gathered state previous ids _ _ _ _ _ _ calm _ _ gathers =>
      have tasks : (if ids = [] then gathered
          else gathered.setHandler mover (.gathering ids)).tasks = dropped.tasks := by
        rw [(gather_eq gathers).1]
        split <;> rfl
      left
      unfold Relaying at relaying ⊢
      rw [tasks] at relaying
      obtain ⟨id, waits⟩ := Option.ne_none_iff_exists'.mp relaying
      have waited : (before.tasks ref).receiveLoop.status.task? = some id := calm.relays ref id waits
      simp [waited]
  | @responder mover _ joined state id _ _ _ _ _ isJoined =>
      have tasks : joined.tasks = before.tasks := by
        rw [isJoined]
        rfl
      refine .inl (same ?_)
      split
      · exact tasks
      · next initiator _ => exact (submit_tasks joined initiator (.newResponder id)).trans tasks
  | sendError | disconnectedResponder => exact .inl (same (submit_tasks ..))
  | @relay source destination address packet receives takes =>
      by_cases own : ref = source
      · subst own
        right
        rw [receives] at takes
        unfold takesRelay at takes
        dsimp only at takes
        split at takes
        · next awaiting =>
          rw [awaiting.1]
          trivial
        · contradiction
      · left
        unfold Relaying at relaying ⊢
        simpa [Server.setReceiveLoop, Server.setTasks, own, submitTask, Server.log, Server.setJobs]
          using relaying
  | disconnectedInitiator _ _ _ _ _ gathers =>
      refine .inl (same ?_)
      rw [(gather_eq gathers).1]
      split <;> rfl
  | enqueued =>
      refine .inl (same ?_)
      rw [submit_tasks]
      rfl

theorem Effects.relaying {origin : Server} {moves : ClientRef → Prop}
    (effects : Effects origin action moves before after) (relaying : after.Relaying ref) :
    before.Relaying ref ∨ (origin.handler ref).Served := by
  induction effects with
  | refl => exact .inl relaying
  | tail _ effect ih =>
      obtain earlier | served := effect.relaying relaying
      · exact ih earlier
      · exact .inr served

/-- What holds of the receive loops in every reachable state. -/
structure LoopsSound (server : Server) : Prop where
  justified : ∀ ref, (server.tasks ref).Justified
  served : ∀ ref, server.Relaying ref → (server.handler ref).Served

theorem loopsSound_of_reachable {server : Server} (reachable : machine.Reachable server) :
    server.LoopsSound := by
  refine reachable.invariant _ ?_ fun before after action reached _ loops stepped => ?_
  · rintro server ⟨initiatorKey, number, rfl⟩
    refine ⟨fun ref => ?_, fun ref relaying => ?_⟩
    · constructor <;> simp [created, Tasks.new]
    · exact absurd rfl relaying
  · have sound := sound_of_reachable reached
    have serves := step_serves sound.tasks.loop (announces_of_reachable reached) stepped
    refine ⟨fun ref => (serves ref).justified (loops.justified ref), fun ref relaying => ?_⟩
    have served : (before.handler ref).Served :=
      ((sound.effects stepped).relaying relaying).elim (loops.served ref) id
    exact ((serves ref).served served).1

end Steps

end Server

end SaltyRtcServer
