import SaltyRtcServer.TaskStep

/-!
# What one step does to one client

A client is its handler, its job queue, its tasks and its connection, with the
stage it has reached on the path and the type it has shown.  Whatever the
action and whoever acts, a step changes one client in one of the ways that
`ClientStep` lists.
-/

namespace SaltyRtcServer

open StepMachine

structure ClientView where
  handler : Handler
  stage : Stage
  type : Option AddressType
  jobs : JobQueue
  tasks : Tasks
  connection : Connection
  registered : Prop

/-- The exception says that the connection is closed only if it is. -/
def PyException.Excused (lost : Prop) (exception : PyException) : Prop :=
  ∀ code, exception = .disconnected code → lost

/-- The handler has not started the runner of the job queue. -/
def Handler.starting : Handler → Bool
  | .created | .sendingHello | .receivingFirst | .receivingAuth | .gathering _
  | .sendingAuth => true
  | _ => false

/-- `handle_client` has ended. -/
def Handler.departed : Handler → Bool
  | .joining _ | .cancellingJoin _ | .joined _ | .dispatching _ _ | .closing _ | .finished
  | .raised _ => true
  | _ => false

/-- The task that closes the connection. -/
def Handler.closer : Handler → Option TaskId
  | .joining task | .cancellingJoin task | .joined task | .dispatching task _
  | .closing task => task
  | _ => none

/-- What the coroutines of any client may put in a queue; a queue is closed when the
connection turns out to be closed. -/
inductive JobQueue.Supplied (lost established : Prop) (fresh : TaskId) (before : JobQueue) :
    JobQueue → Prop
  | same : Supplied lost established fresh before before
  | send (message : OutgoingMessage) (number : Option Nat) : before.state = .opened →
      Supplied lost established fresh before
        (before.put (.job (.coroutine (.send message number))))
  | task : before.state = .opened → established →
      Supplied lost established fresh before (before.put (.job (.task fresh)))
  | closed (code : Nat) : lost →
      Supplied lost established fresh before (before.close (.disconnected code) [])

/-- The receive loop and the keep-alive loop go on; they may end. -/
structure Tasks.Works (lost : Prop) (before after : Tasks) : Prop where
  cancelled : after.cancelled = before.cancelled
  result : after.result = before.result
  receiveLoop : ∀ exception, after.receiveLoop.status = .ended exception →
    before.receiveLoop.status = .ended exception ∨ exception.Excused lost
  keepAlive : ∀ exception, after.keepAlive.status = .ended exception →
    before.keepAlive.status = .ended exception ∨ exception.Excused lost

theorem Tasks.Works.refl (lost : Prop) (tasks : Tasks) : tasks.Works lost tasks :=
  ⟨rfl, rfl, fun _ ended => .inl ended, fun _ ended => .inl ended⟩

theorem Tasks.Works.trans {lost : Prop} {first second third : Tasks}
    (one : first.Works lost second) (two : second.Works lost third) : first.Works lost third where
  cancelled := two.cancelled.trans one.cancelled
  result := two.result.trans one.result
  receiveLoop exception ended := by
    obtain earlier | excused := two.receiveLoop exception ended
    · exact one.receiveLoop exception earlier
    · exact .inr excused
  keepAlive exception ended := by
    obtain earlier | excused := two.keepAlive exception ended
    · exact one.keepAlive exception earlier
    · exact .inr excused

namespace Server

def view (server : Server) (ref : ClientRef) : ClientView where
  handler := server.handler ref
  stage := server.system.stage ref
  type := (server.system.client ref).type
  jobs := server.jobs ref
  tasks := server.tasks ref
  connection := server.connection ref
  registered := ref ∈ server.protocols

/-- The `except` clauses of `handler` took the exception: a task was scheduled that
closes the connection, unless it is closed. -/
inductive GaveUp (before after : Server) (ref : ClientRef) (exception : PyException) :
    Option TaskId → Prop
  | lost : closeCode exception = none → GaveUp before after ref exception none
  | closes {code : CloseCode} : closeCode exception = some code →
      before.loop.next < after.loop.next →
      after.loop.task before.loop.next = ⟨.run ref (.close code), .unstarted, false⟩ →
      GaveUp before after ref exception (some before.loop.next)

/-- The client that the action drops. -/
def drops (server : Server) : Action → Option ClientRef
  | .closeProtocol ref => if ref ∈ server.protocols then some ref else none
  | .receive ref (.dropResponder id _) =>
      if server.handler ref = .awaitingResult ∧ (server.tasks ref).receiveLoop = .start ∧
          (server.system.client ref).type = some .initiator then
        server.system.path.responders.get? id
      else none
  | .receive ref (.clientAuth (.ok _)) =>
      if server.handler ref = .receivingFirst then server.system.path.initiator else none
  | _ => none

/-- The message that ends the handshake of an initiator can be created and sent. -/
def CanAnnounce (server : Server) (ref : ClientRef) : Prop :=
  server.system.path.attached = true ∧ server.csnOut ref ≠ none ∧
    (server.system.client ref).state = .authenticated

instance (server : Server) (ref : ClientRef) : Decidable (server.CanAnnounce ref) :=
  inferInstanceAs (Decidable (_ ∧ _ ∧ _))

/-- The exception of a handshake, with the queue as the handshake left it. -/
structure HandshakeFails (before : Server) (action : Action) (ref : ClientRef)
    (exception : PyException) (jobs : JobQueue) : Prop where
  starting : (before.handler ref).starting = true
  excused : exception.Excused (before.ConnectionClosed ref)
  jobs : jobs = before.jobs ref ∨ before.ConnectionClosed ref ∧
    ∃ code, jobs = (before.jobs ref).close (.disconnected code) []
  gathering : ∀ ids, before.handler ref = .gathering ids →
    action = .gathered ref ∧ ¬ before.CanAnnounce ref
  sending : before.handler ref = .sendingAuth → ∃ code, action = .sendClosed ref code

/-- `ref` before and after a step of the server. -/
inductive ClientStep (before : Server) (action : Action) (ref : ClientRef) (after : Server) : Prop
  | worked {jobs : JobQueue} {tasks : Tasks} :
      (before.jobs ref).Supplied (before.ConnectionClosed ref)
        (before.system.stage ref = .established) before.loop.next jobs →
      (before.tasks ref).Works (before.ConnectionClosed ref) tasks →
      after.view ref = { before.view ref with jobs := jobs, tasks := tasks } →
      ClientStep before action ref after
  | reported {tasks : Tasks} {exception : PyException} :
      (before.tasks ref).receiveLoop.status = .ended exception ∨
        (before.tasks ref).keepAlive.status = .ended exception →
      (before.tasks ref).Works (before.ConnectionClosed ref) tasks →
      after.view ref = { before.view ref with tasks := tasks.taskDone exception } →
      ClientStep before action ref after
  | connected {csn : Nat} {type : Option AddressType} : action = .connect ref csn →
      before.handler ref = .absent →
      after.view ref = ⟨.created, .handshaking, type, .new, .new, ⟨false, none⟩, True⟩ →
      ClientStep before action ref after
  | advanced {handler : Handler} {stage : Stage} {type : Option AddressType} :
      (before.handler ref).starting = true → before.handler ref ≠ .sendingAuth →
      handler.starting = true →
      (type = (before.system.client ref).type ∧ before.handler ref ≠ .receivingFirst ∨
        type = some .initiator ∨ type = some .responder) →
      after.view ref = { before.view ref with handler, stage, type } →
      ClientStep before action ref after
  | aborted {exception : PyException} {jobs : JobQueue} {stage : Stage}
      {type : Option AddressType} :
      before.HandshakeFails action ref exception jobs →
      (jobs.cancel before.loop exception).exception? = none →
      after.view ref = { before.view ref with
        handler := .awaitingResult
        stage, type
        jobs := { (jobs.cancel before.loop exception).state.1 with runner := .getting }
        tasks := ((before.tasks ref).cancel (.now exception)).start false } →
      ClientStep before action ref after
  | abortFailed {exception raised : PyException} {jobs : JobQueue} {closing : Option TaskId}
      {stage : Stage} {type : Option AddressType} :
      before.HandshakeFails action ref exception jobs →
      (jobs.cancel before.loop exception).exception? = some raised →
      before.GaveUp after ref raised closing →
      after.view ref = { before.view ref with
        handler := .joining closing
        stage, type
        jobs := (jobs.cancel before.loop exception).state.1 } →
      ClientStep before action ref after
  | completed {connected : Bool} : action = .sent ref → before.handler ref = .sendingAuth →
      before.system.path.attached = true →
      after.view ref = { before.view ref with
        handler := .awaitingResult
        jobs := { before.jobs ref with runner := .getting }
        tasks := (before.tasks ref).start connected } →
      ClientStep before action ref after
  | completeFailed {exception : PyException} {closing : Option TaskId} : action = .sent ref →
      before.handler ref = .sendingAuth →
      (before.system.path.attached = false ∨ (before.system.client ref).type ≠ some .initiator ∧
        (before.system.client ref).type ≠ some .responder) →
      exception.Excused False → before.GaveUp after ref exception closing →
      after.view ref = { before.view ref with handler := .joining closing } →
      ClientStep before action ref after
  | left {result : PyException} {closing : Option TaskId} : action = .result ref →
      before.handler ref = .awaitingResult → before.taskResult ref = some result →
      ((before.jobs ref).cancel before.loop result).exception? = none →
      before.GaveUp after ref result closing →
      (after.system.path.attached = true → after.system.path.empty = false) →
      after.view ref = { before.view ref with
        handler := .joining closing
        stage := .left
        jobs := ((before.jobs ref).cancel before.loop result).state.1 } →
      ClientStep before action ref after
  | leaveFailed {result raised : PyException} {closing : Option TaskId} : action = .result ref →
      before.handler ref = .awaitingResult → before.taskResult ref = some result →
      ((before.jobs ref).cancel before.loop result).exception? = some raised →
      before.GaveUp after ref raised closing →
      after.view ref = { before.view ref with
        handler := .joining closing
        jobs := ((before.jobs ref).cancel before.loop result).state.1 } →
      ClientStep before action ref after
  | joined {closing : Option TaskId} : action = .join ref →
      before.handler ref = .joining closing → (before.jobs ref).runner = .finished →
      (before.jobs ref).unfinished = 0 →
      after.view ref = { before.view ref with handler := .joined closing } →
      ClientStep before action ref after
  | joinRaised {closing : Option TaskId} {exception : PyException} : action = .join ref →
      before.handler ref = .joining closing →
      ((before.jobs ref).runner = .notStarted ∨ (before.jobs ref).runner = .failed exception) →
      after.view ref = { before.view ref with handler := .raised exception } →
      ClientStep before action ref after
  | joinGivenUp {closing : Option TaskId} {jobs : JobQueue} : action = .joinTimeout ref →
      before.handler ref = .joining closing →
      (jobs = before.jobs ref ∨ (before.jobs ref).runner = .getting ∧
        jobs = { before.jobs ref with runner := .finished }) →
      after.view ref = { before.view ref with
        handler := .cancellingJoin closing
        jobs := jobs } →
      ClientStep before action ref after
  | joinCancelled {closing : Option TaskId} : action = .joinCancelled ref →
      before.handler ref = .cancellingJoin closing →
      after.view ref = { before.view ref with
        handler := .joined closing
        jobs := ((before.jobs ref).cancelAll before.loop).state.1 } →
      ClientStep before action ref after
  | dispatched {closing : Option TaskId} {handler : Handler} {jobs : JobQueue} :
      action = .dispatch ref → before.handler ref = .joined closing →
      (handler = .closing closing ∨ ∃ ids, handler = .dispatching closing ids) →
      (before.jobs ref).Supplied (before.ConnectionClosed ref)
        (before.system.stage ref = .established) before.loop.next jobs →
      after.view ref = { before.view ref with handler, jobs } →
      ClientStep before action ref after
  | dispatchRaised {closing : Option TaskId} {exception : PyException} :
      action = .dispatch ref → before.handler ref = .joined closing →
      before.system.path.empty = false → before.system.path.attached = false →
      after.view ref = { before.view ref with handler := .raised exception } →
      ClientStep before action ref after
  | closes {closing : Option TaskId} {ids : List TaskId} : action = .dispatched ref →
      before.handler ref = .dispatching closing ids →
      after.view ref = { before.view ref with handler := .closing closing } →
      ClientStep before action ref after
  | finished {closing : Option TaskId} : before.handler ref = .closing closing →
      (∀ id, closing = some id → (before.loop.task id).status = .done .finished) →
      after.view ref = { before.view ref with handler := .finished, registered := False } →
      ClientStep before action ref after
  | closeRaised {id : TaskId} {exception : PyException} :
      before.handler ref = .closing (some id) →
      ((before.loop.task id).status = .done .cancelled ∨
        (before.loop.task id).status = .done (.failed exception)) →
      after.view ref = { before.view ref with handler := .raised exception } →
      ClientStep before action ref after
  | tookFinal {result : PyException} {rest : List JobEntry} :
      (before.jobs ref).runner = .getting → (before.jobs ref).queue = .final result :: rest →
      after.view ref = { before.view ref with
        jobs := { before.jobs ref with
          queue := rest
          state := .completed
          unfinished := (before.jobs ref).unfinished - 1
          runner := .finished }
        tasks := (before.tasks ref).cancel (.now result) } →
      ClientStep before action ref after
  | tookCoroutine {coroutine : Coroutine} {rest : List JobEntry} :
      (before.jobs ref).runner = .getting →
      (before.jobs ref).queue = .job (.coroutine coroutine) :: rest →
      before.loop.next < after.loop.next →
      after.loop.task before.loop.next = ⟨.run ref coroutine, .unstarted, false⟩ →
      after.view ref = { before.view ref with
        jobs := { before.jobs ref with
          queue := rest
          runner := .awaiting before.loop.next
          active := some before.loop.next } } →
      ClientStep before action ref after
  | tookTask {id : TaskId} {rest : List JobEntry} :
      (before.jobs ref).runner = .getting → (before.jobs ref).queue = .job (.task id) :: rest →
      after.view ref = { before.view ref with
        jobs := { before.jobs ref with queue := rest, runner := .awaiting id, active := some id } } →
      ClientStep before action ref after
  | woke {id : TaskId} : (before.jobs ref).runner = .awaiting id →
      (before.loop.task id).status = .done .finished →
      after.view ref = { before.view ref with
        jobs := { before.jobs ref with
          active := none
          unfinished := (before.jobs ref).unfinished - 1
          runner := .getting } } →
      ClientStep before action ref after
  | wokeCancelled {id : TaskId} : (before.jobs ref).runner = .awaiting id →
      (before.loop.task id).status = .done .cancelled →
      after.view ref = { before.view ref with
        jobs := { before.jobs ref with
          active := none
          runner := .getting
          callbacks := (before.jobs ref).callbacks ++ [id] } } →
      ClientStep before action ref after
  | wokeFailed {id : TaskId} {exception : PyException} {jobs : JobQueue} :
      action = .runnerWake ref → (before.jobs ref).runner = .awaiting id →
      (before.loop.task id).status = .done (.failed exception) →
      jobs = { before.jobs ref with active := none } →
      (jobs.cancel before.loop exception).exception? = none →
      after.view ref = { before.view ref with
        jobs := { (jobs.cancel before.loop exception).state.1 with
          runner := .getting
          callbacks := (jobs.cancel before.loop exception).state.1.callbacks ++ [id] }
        tasks := (before.tasks ref).cancel (.now exception) } →
      ClientStep before action ref after
  | wakeFailed {id : TaskId} {exception raised : PyException} {jobs : JobQueue} :
      action = .runnerWake ref → (before.jobs ref).runner = .awaiting id →
      (before.loop.task id).status = .done (.failed exception) →
      jobs = { before.jobs ref with active := none } →
      (jobs.cancel before.loop exception).exception? = some raised →
      after.view ref = { before.view ref with
        jobs := { (jobs.cancel before.loop exception).state.1 with runner := .failed raised } } →
      ClientStep before action ref after
  | overcounted {jobs : JobQueue} : (before.jobs ref).unfinished = 0 →
      ((before.jobs ref).queue ≠ [] ∨ ∃ id, (before.jobs ref).runner = .awaiting id) →
      after.view ref = { before.view ref with jobs := jobs } →
      ClientStep before action ref after
  | jobDone {id : TaskId} : id ∈ (before.jobs ref).callbacks →
      after.view ref = { before.view ref with
        jobs := { before.jobs ref with
          unfinished := (before.jobs ref).unfinished - 1
          callbacks := (before.jobs ref).callbacks.erase id } } →
      ClientStep before action ref after
  | closing {code : CloseCode} : action = .taskStart →
      after.view ref = { before.view ref with
        jobs := (before.jobs ref).close (.disconnected code.value) []
        connection := { before.connection ref with closing := true } } →
      ClientStep before action ref after
  | lost {code : Nat} : after.view ref = { before.view ref with
        connection := { before.connection ref with lost := some code } } →
      ClientStep before action ref after
  | dropped {code : CloseCode} : ref ∈ before.drops action →
      after.view ref = { before.view ref with
        jobs := (before.jobs ref).close (.disconnected code.value) [.close code]
        tasks := (before.tasks ref).cancel .onClosed } →
      ClientStep before action ref after

end Server

end SaltyRtcServer
