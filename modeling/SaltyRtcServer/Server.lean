import SaltyRtcServer.JobQueue
import SaltyRtcServer.PathSystem

/-!
# The state of the server

The protocols of one path, with everything their coroutines share: the path and
its clients, the job queue and the tasks of each client, the event loop, and
the set of registered protocols.  Protocols on different paths share nothing
else, so the server is modelled one path at a time.

The history is an observation.  It records, for all clients in one order, what
was submitted to a job queue, what was handed to a connection and when a client
was authenticated, dropped or closed; no coroutine reads it.
-/

namespace SaltyRtcServer

/-- What `Tasks.cancel` was given: a result, or the future that is resolved
when the connection is closed. -/
inductive TasksResult
  | now (exception : PyException)
  | onClosed
  deriving DecidableEq

/-- Where a task of `Tasks` is suspended: in its own wait (for a message, or
between two pings), in waiting for a relay task, in waiting for the end of a
relay task that has timed out; or how it ended, until its done callback has
run. -/
inductive WorkerStatus
  | absent
  | waiting
  | relaying (task : TaskId) (packet : List UInt8)
  | expiring (task : TaskId) (packet : List UInt8)
  | ended (exception : PyException)
  | reported
  deriving DecidableEq

structure Worker where
  status : WorkerStatus
  cancelRequested : Bool
  deriving DecidableEq

namespace Worker

/-- `create_task` of a coroutine of `Tasks`. -/
def start : Worker := ⟨.waiting, false⟩

/-- `task.cancel()`, unless the task is done. -/
def cancel (worker : Worker) : Worker :=
  match worker.status with
  | .absent | .ended _ | .reported => worker
  | _ => { worker with cancelRequested := true }

@[simp]
theorem cancel_status (worker : Worker) : worker.cancel.status = worker.status := by
  unfold cancel
  split <;> rfl

/-- The task is done and its done callback has run. -/
def settled (worker : Worker) : Bool :=
  match worker.status with
  | .absent | .reported => true
  | _ => false

end Worker

/-- `task.Tasks` of a client: its receive loop and its keep-alive loop. -/
structure Tasks where
  cancelled : Bool
  result : Option TasksResult
  receiveLoop : Worker
  keepAlive : Worker

namespace Tasks

/-- `Tasks(log, loop)`. -/
def new : Tasks := ⟨false, none, ⟨.absent, false⟩, ⟨.absent, false⟩⟩

/-- `Tasks._have_result`. -/
def haveResult (tasks : Tasks) : Bool := tasks.result.isSome

/-- `Tasks._set_result`. -/
def setResult (tasks : Tasks) (result : TasksResult) : Tasks :=
  if tasks.haveResult then tasks else { tasks with result := some result }

/-- `Tasks._cancel`. -/
def cancelAll (tasks : Tasks) : Tasks :=
  { tasks with receiveLoop := tasks.receiveLoop.cancel, keepAlive := tasks.keepAlive.cancel }

/-- `Tasks.cancel`. -/
def cancel (tasks : Tasks) (result : TasksResult) : Tasks :=
  if tasks.cancelled then tasks
  else { (tasks.setResult result).cancelAll with cancelled := true }

/-- `Tasks.start`, with both loops or with none. -/
def start (tasks : Tasks) (connected : Bool) : Tasks :=
  let tasks :=
    if connected then { tasks with receiveLoop := .start, keepAlive := .start } else tasks
  if tasks.cancelled then tasks.cancelAll else tasks

/-- `Tasks._task_done_handler`, for a task whose exception is given. -/
def taskDone (tasks : Tasks) (exception : PyException) : Tasks :=
  if exception = .cancelledError then
    if tasks.receiveLoop.settled ∧ tasks.keepAlive.settled ∧ ¬ tasks.haveResult then
      { tasks.setResult (.now (.internalError
          "All tasks have been cancelled prior to an exception")) with cancelled := true }
    else tasks
  else (tasks.setResult (.now exception)).cancelAll

@[simp]
theorem setResult_receiveLoop (tasks : Tasks) (result : TasksResult) :
    (tasks.setResult result).receiveLoop = tasks.receiveLoop := by
  unfold setResult
  split <;> rfl

@[simp]
theorem setResult_keepAlive (tasks : Tasks) (result : TasksResult) :
    (tasks.setResult result).keepAlive = tasks.keepAlive := by
  unfold setResult
  split <;> rfl

@[simp]
theorem cancelAll_receiveLoop (tasks : Tasks) :
    tasks.cancelAll.receiveLoop = tasks.receiveLoop.cancel :=
  rfl

@[simp]
theorem cancel_receiveLoop_status (tasks : Tasks) (result : TasksResult) :
    (tasks.cancel result).receiveLoop.status = tasks.receiveLoop.status := by
  unfold cancel
  split <;> simp

@[simp]
theorem taskDone_receiveLoop_status (tasks : Tasks) (exception : PyException) :
    (tasks.taskDone exception).receiveLoop.status = tasks.receiveLoop.status := by
  unfold taskDone
  split
  · split <;> simp
  · simp

theorem start_receiveLoop_status (tasks : Tasks) (connected : Bool) :
    (tasks.start connected).receiveLoop.status =
      if connected then .waiting else tasks.receiveLoop.status := by
  unfold start
  cases connected <;> by_cases cancelled : tasks.cancelled <;> simp [cancelled, Worker.start]

end Tasks

/-- Where `ServerProtocol.handler` is suspended, or how it ended.  The last
phases remember the task that closes the connection, if there is one. -/
inductive Handler
  | absent
  | created
  | sendingHello
  | receivingFirst
  | receivingAuth
  | gathering (tasks : List TaskId)
  | sendingAuth
  | awaitingResult
  | joining (closing : Option TaskId)
  | cancellingJoin (closing : Option TaskId)
  | joined (closing : Option TaskId)
  | dispatching (closing : Option TaskId) (tasks : List TaskId)
  | closing (closing : Option TaskId)
  | finished
  | raised (exception : PyException)
  deriving DecidableEq

/-- The connection of a client, as far as the server can tell: whether `close`
was called, and the close code once it is lost. -/
structure Connection where
  closing : Bool
  lost : Option Nat

/-- What can be observed of the server.  A message that was put in a job queue
has a number. -/
inductive Event
  | authenticated (client : ClientRef)
  | created (client : ClientRef) (message : OutgoingMessage) (initiator : Option ClientRef)
  | submitted (client : ClientRef) (message : OutgoingMessage) (number : Option Nat)
  | sent (client : ClientRef) (message : OutgoingMessage) (number : Option Nat)
  | dropped (client : ClientRef) (code : CloseCode)
  | closed (client : ClientRef) (code : CloseCode)
  deriving DecidableEq

structure Server where
  system : PathSystem
  jobs : ClientRef → JobQueue
  tasks : ClientRef → Tasks
  handler : ClientRef → Handler
  connection : ClientRef → Connection
  csnOut : ClientRef → SequenceNumber
  loop : Loop
  protocols : Finset ClientRef
  history : List Event

namespace Server

def log (server : Server) (event : Event) : Server :=
  { server with history := server.history ++ [event] }

def setHandler (server : Server) (ref : ClientRef) (handler : Handler) : Server :=
  { server with handler := Function.update server.handler ref handler }

def setJobs (server : Server) (ref : ClientRef) (jobs : JobQueue) : Server :=
  { server with jobs := Function.update server.jobs ref jobs }

def setTasks (server : Server) (ref : ClientRef) (tasks : Tasks) : Server :=
  { server with tasks := Function.update server.tasks ref tasks }

def setReceiveLoop (server : Server) (ref : ClientRef) (status : WorkerStatus) : Server :=
  server.setTasks ref { server.tasks ref with
    receiveLoop := { (server.tasks ref).receiveLoop with status := status } }

/-- The number of the next message that is put in a job queue. -/
def nextNumber (server : Server) (ref : ClientRef) : Option Nat :=
  if (server.jobs ref).state = .opened then some server.history.length else none

/-- `await client.jobs.enqueue(client.send(message))`. -/
def submit (server : Server) (ref : ClientRef) (message : OutgoingMessage) : Server :=
  let number := server.nextNumber ref
  let (jobs, loop) :=
    ((server.jobs ref).enqueue server.loop (.coroutine (.send message number))).state
  ({ server with loop := loop }.setJobs ref jobs).log (.submitted ref message number)

/-- `create_task(client.send(message))` and `await client.jobs.enqueue(task)`.
The task is called `server.loop.next`. -/
def submitTask (server : Server) (ref : ClientRef) (message : OutgoingMessage) : Server :=
  let number := server.nextNumber ref
  let id := server.loop.next
  let (jobs, loop) :=
    ((server.jobs ref).enqueue (server.loop.spawn (.run ref (.send message number)))
      (.task id)).state
  ({ server with loop := loop }.setJobs ref jobs).log (.submitted ref message number)

/-- `client.jobs.close(Result(Disconnected(code)))`. -/
def closeJobs (server : Server) (ref : ClientRef) (code : Nat) : Server :=
  server.setJobs ref ((server.jobs ref).close (.disconnected code) [])

/-- `client.jobs.cancel(result)`, and whether it raised. -/
def cancelJobs (server : Server) (ref : ClientRef) (result : PyException) :
    Server × Option PyException :=
  let call := (server.jobs ref).cancel server.loop result
  ({ server with loop := call.state.2 }.setJobs ref call.state.1, call.exception?)

/-- `client.tasks.cancel(result)`. -/
def cancelTasks (server : Server) (ref : ClientRef) (result : TasksResult) : Server :=
  server.setTasks ref ((server.tasks ref).cancel result)

/-- `PathClient.drop`, up to the new state of the client. -/
def drop (server : Server) (ref : ClientRef) (code : CloseCode) : Server :=
  ((server.setJobs ref
      ((server.jobs ref).close (.disconnected code.value) [.close code])).cancelTasks
    ref .onClosed).log (.dropped ref code)

/-- `ServerProtocol._drop_client`: the client changes its state and leaves the
path. -/
def dropClient (server : Server) (ref : ClientRef) (code : CloseCode) : Server :=
  let dropped := server.drop ref code
  { dropped with system := dropped.system.dropClient ref }

/-- `create_task` for one coroutine of `enqueue` per message, all gathered. -/
def gather (server : Server) (messages : List (ClientRef × OutgoingMessage)) :
    Server × List TaskId :=
  let (loop, ids) := server.loop.spawnAll
    (messages.map fun message => .enqueue message.1 message.2)
  ({ server with loop := loop }, ids)

/-- The stored responders with one message each. -/
def toResponders (server : Server) (message : ResponderAddress → OutgoingMessage) :
    List (ClientRef × OutgoingMessage) :=
  server.system.path.responders.entries.map fun entry => (entry.2, message entry.1)

/-- The close code that `handler` chooses for the exception that
`handle_client` ended with; a connection that is closed is not closed again. -/
def closeCode : PyException → Option CloseCode
  | .disconnected _ => none
  | .pingTimeoutError => some .timeout
  | .slotsFullError _ => some .pathFullError
  | .serverKeyError _ => some .invalidKey
  | .messageError _ | .messageFlowError _ | .downgradeError _ => some .protocolError
  | .internalError _ | .valueError _ | .keyError _ | .indexError _ | .typeError _ | .cryptError _
  | .cancelledError => some .internalError

/-- The `except` clauses of `handler`: closing the connection is scheduled and
the job queue is joined. -/
def handleException (server : Server) (ref : ClientRef) (exception : PyException) : Server :=
  match closeCode exception with
  | none => server.setHandler ref (.joining none)
  | some code =>
      { server with loop := server.loop.spawn (.run ref (.close code)) }.setHandler ref
        (.joining (some server.loop.next))

/-- `client.jobs.start` and `client.tasks.start`; the handler then awaits the
result of the tasks. -/
def start (server : Server) (ref : ClientRef) (connected : Bool) : Server :=
  if (server.jobs ref).runner = .notStarted then
    ((server.setJobs ref { server.jobs ref with runner := .getting }).setTasks ref
      ((server.tasks ref).start connected)).setHandler ref .awaitingResult
  else
    server.handleException ref
      (.internalError "Tried starting but job queue runner already active")

/-- The `except` clause of `handle_client` around the handshake. -/
def abort (server : Server) (ref : ClientRef) (exception : PyException) : Server :=
  match server.cancelJobs ref exception with
  | (server, some raised) => server.handleException ref raised
  | (server, none) => (server.cancelTasks ref (.now exception)).start ref false

/-- `await client.send(message)` of the handler itself, up to the suspension. -/
def send (server : Server) (ref : ClientRef) (message : OutgoingMessage) (next : Handler) :
    Server :=
  match message.pack (server.system.client ref) (server.csnOut ref) with
  | (csn, .error exception) =>
      { server with csnOut := Function.update server.csnOut ref csn }.abort ref exception
  | (csn, .ok _) =>
      ({ server with csnOut := Function.update server.csnOut ref csn }.setHandler ref next).log
        (.sent ref message none)

/-- The end of a handshake: the server-auth message is created and sent. -/
def sendServerAuth (server : Server) (ref : ClientRef) (message : OutgoingMessage) : Server :=
  (server.log (.created ref message server.system.path.initiator)).send ref message .sendingAuth

/-- The second part of `handshake_initiator`. -/
def sendInitiatorAuth (server : Server) (ref : ClientRef) : Server :=
  match server.system.path.getResponderIds with
  | .error exception => server.abort ref exception
  | .ok ids => server.sendServerAuth ref (.serverAuthInitiator ids)

/-- A previous initiator is dropped; the path has removed it already. -/
def dropPrevious (server : Server) : Option ClientRef → Server
  | none => server
  | some previous => server.drop previous .dropByInitiator

/-- The first part of `handshake_initiator`, with what `_handle_client_auth`
returned. -/
def handshakeInitiator (server : Server) (ref : ClientRef) (verdict : Except PacketError Unit) :
    Server :=
  match verdict with
  | .error error => server.abort ref error.1
  | .ok _ =>
      let call := server.system.path.setInitiator ref (server.system.client ref)
      let server := { server with system := server.system.afterSetInitiator ref call }
      match call with
      | .raised _ exception => server.abort ref exception
      | .returned _ previous =>
          let server := (server.log (.authenticated ref)).dropPrevious previous
          match server.gather (server.toResponders .newInitiator) with
          | (server, []) => server.sendInitiatorAuth ref
          | (server, ids) => server.setHandler ref (.gathering ids)

/-- The end of `handshake_responder`, with the result of `get_initiator`. -/
def announceResponder (server : Server) (ref : ClientRef) (id : ResponderAddress) : Server :=
  match server.system.path.getInitiator with
  | .error (.keyError _) => server.sendServerAuth ref (.serverAuthResponder id false)
  | .error exception => server.abort ref exception
  | .ok initiator =>
      (server.submit initiator (.newResponder id)).sendServerAuth ref
        (.serverAuthResponder id true)

/-- `handshake_responder` from the client-auth message on. -/
def handshakeResponder (server : Server) (ref : ClientRef) (verdict : Except PacketError Unit) :
    Server :=
  match verdict with
  | .error error => server.abort ref error.1
  | .ok _ =>
      let call := server.system.path.addResponder ref (server.system.client ref)
      let server := { server with system := server.system.afterAddResponder ref call }
      match call with
      | .raised _ exception => server.abort ref exception
      | .returned _ id => (server.log (.authenticated ref)).announceResponder ref id

/-- `handle_client` after a handshake that returned. -/
def completeHandshake (server : Server) (ref : ClientRef) : Server :=
  match server.system.path.hasClient ref (server.system.client ref) with
  | .error exception => server.handleException ref exception
  | .ok connected =>
      match (server.system.client ref).type with
      | some .initiator | some .responder => server.start ref connected
      | some .server => server.handleException ref (.valueError "Invalid address type: 0")
      | none => server.handleException ref (.valueError "Invalid address type: None")

/-- `handle_client` from the result of the tasks on. -/
def leave (server : Server) (ref : ClientRef) (result : PyException) : Server :=
  match server.cancelJobs ref result with
  | (server, some raised) => server.handleException ref raised
  | (server, none) =>
      let system := server.system.leave ref
      { server with system := if system.path.attached then system.clean else system
        }.handleException ref result

/-- `ServerProtocol.handler` after the job queue was joined: the disconnected
messages. -/
def dispatch (server : Server) (ref : ClientRef) (closing : Option TaskId) : Server :=
  let client := server.system.client ref
  if server.system.path.empty ∨ client.state ≠ .authenticated then
    server.setHandler ref (.closing closing)
  else
    match client.type with
    | some .initiator =>
        match server.system.path.getResponderIds with
        | .error exception => server.setHandler ref (.raised exception)
        | .ok _ =>
            match server.gather (server.toResponders fun id =>
                .disconnected id.toAddress initiatorAddress) with
            | (server, []) => server.setHandler ref (.closing closing)
            | (server, ids) => server.setHandler ref (.dispatching closing ids)
    | some .responder =>
        match server.system.path.getInitiator with
        | .error (.keyError _) => server.setHandler ref (.closing closing)
        | .error exception => server.setHandler ref (.raised exception)
        | .ok initiator =>
            (server.submit initiator (.disconnected initiatorAddress client.id)).setHandler ref
              (.closing closing)
    | _ => server.setHandler ref (.closing closing)

end Server

end SaltyRtcServer
