import SaltyRtcServer.Server
import SaltyRtcServer.StepMachine

/-!
# The steps of the server

Each action below is one atomic section of one coroutine, from one suspension
to the next, or an event of one connection.  Tasks that were created start in
the order of their creation; apart from that, any coroutine that can be resumed
may be resumed next, so that every order in which the event loop may run them
is a run of this machine.
-/

namespace SaltyRtcServer

open StepMachine

/-- What `client.receive()` makes of the next packet.  A client-hello message
comes with the result of `set_client_key`, and a client-auth message with that
of `_handle_client_auth`. -/
inductive Received
  | clientHello (verdict : Except PacketError Unit)
  | clientAuth (verdict : Except PacketError Unit)
  | relay (destination : Address) (packet : List UInt8)
  | dropResponder (id : ResponderAddress) (reason : DropReason)
  | invalid (error : PacketError)

/-- The type of a message as it is named in errors. -/
def Received.typeName : Received → String
  | .clientHello _ => "MessageType.client_hello"
  | .clientAuth _ => "MessageType.client_auth"
  | .relay _ _ => "relay"
  | .dropResponder _ _ => "MessageType.drop_responder"
  | .invalid _ => ""

namespace Server

inductive Action
  /-- a new connection, with the initial value of `csn_out` -/
  | connect (ref : ClientRef) (csn : Nat)
  /-- the handler starts -/
  | begin (ref : ClientRef)
  /-- the handler's own send returns, or raises that the connection is closed -/
  | sent (ref : ClientRef)
  | sendClosed (ref : ClientRef) (code : Nat)
  /-- the handler or the receive loop receives a packet, or learns of the close -/
  | receive (ref : ClientRef) (input : Received)
  | receiveClosed (ref : ClientRef) (code : Nat)
  /-- the handler resumes: after gathering, with the result of the tasks, after
  joining the job queue or giving that up, after dispatching, at the end -/
  | gathered (ref : ClientRef)
  | result (ref : ClientRef)
  | join (ref : ClientRef)
  | joinTimeout (ref : ClientRef)
  | joinCancelled (ref : ClientRef)
  | dispatch (ref : ClientRef)
  | dispatched (ref : ClientRef)
  | finish (ref : ClientRef)
  /-- the runner of the job queue takes an entry, or resumes after a job -/
  | runnerGet (ref : ClientRef)
  | runnerWake (ref : ClientRef)
  /-- the done callback `_job_done` of a task -/
  | jobDone (ref : ClientRef) (id : TaskId)
  /-- the first ready task starts; a suspended task is resumed -/
  | taskStart
  | taskSent (id : TaskId)
  | taskSendClosed (id : TaskId) (code : Nat)
  | taskClosed (id : TaskId)
  | taskCancelled (id : TaskId)
  /-- `relay_message` resumes after the relay task, or gives it up -/
  | relayed (ref : ClientRef)
  | relayTimeout (ref : ClientRef)
  | relayExpired (ref : ClientRef)
  /-- a worker receives its cancellation; its done callback runs -/
  | loopCancelled (ref : ClientRef)
  | loopReported (ref : ClientRef)
  | pingTimeout (ref : ClientRef)
  | pingClosed (ref : ClientRef) (code : Nat)
  | keepAliveCancelled (ref : ClientRef)
  | keepAliveReported (ref : ClientRef)
  /-- the connection is lost; `Server.close` drops a protocol's client -/
  | connectionLost (ref : ClientRef) (code : Nat)
  | closeProtocol (ref : ClientRef)

/-- The connection raises `ConnectionClosed` from its methods. -/
def ConnectionClosed (server : Server) (ref : ClientRef) : Prop :=
  (server.connection ref).closing = true ∨ (server.connection ref).lost ≠ none

instance (server : Server) (ref : ClientRef) : Decidable (server.ConnectionClosed ref) :=
  inferInstanceAs (Decidable (_ ∨ _))

/-- `ServerProtocol.__init__`, for a path to which a client can be added. -/
def connect (server : Server) (ref : ClientRef) (csn : Nat) : Option Server :=
  if server.handler ref = .absent ∧ csn < 2 ^ 32 then
    (server.system.step (.connect ref)).map fun system =>
      { server with
        system := system
        jobs := Function.update server.jobs ref .new
        tasks := Function.update server.tasks ref .new
        handler := Function.update server.handler ref .created
        connection := Function.update server.connection ref ⟨false, none⟩
        csnOut := Function.update server.csnOut ref (some csn)
        protocols := insert ref server.protocols }
  else none

/-- `send_error_message` of `relay_message`, with what becomes of the receive loop.
`ClientAddress(source.id)` compares the id with other numbers. -/
def sendError (server : Server) (ref : ClientRef) (packet : List UInt8) : Server :=
  match (server.system.client ref).id.copy with
  | .error exception => server.setReceiveLoop ref (.ended exception)
  | .ok id =>
      (server.submit ref (.sendError id ((packet.drop 16).take 8))).setReceiveLoop ref .waiting

/-- `relay_message` up to its suspension. -/
def relayMessage (server : Server) (ref : ClientRef) (destination : Option ClientRef)
    (packet : List UInt8) : Server :=
  match destination with
  | none => server.sendError ref packet
  | some destination =>
      (server.submitTask destination (.relay packet)).setReceiveLoop ref
        (.relaying server.loop.next packet)

/-- One iteration of `initiator_receive_loop`. -/
def initiatorReceive (server : Server) (ref : ClientRef) : Received → Server
  | .relay destination packet =>
      match ResponderAddress.ofNat destination.1 with
      | .error exception => server.setReceiveLoop ref (.ended exception)
      | .ok id =>
          match server.system.path.getResponder id with
          | .error (.keyError _) => server.relayMessage ref none packet
          | .error exception => server.setReceiveLoop ref (.ended exception)
          | .ok responder => server.relayMessage ref (some responder) packet
  | .dropResponder id reason =>
      match server.system.path.getResponder id with
      | .error (.keyError _) => server
      | .error exception => server.setReceiveLoop ref (.ended exception)
      | .ok responder => server.dropClient responder reason.closeCode
  | .invalid error => server.setReceiveLoop ref (.ended error.1)
  | input =>
      server.setReceiveLoop ref (.ended (.messageFlowError
        ("Expected relay message or 'drop-responder', got '" ++ input.typeName ++ "'")))

/-- One iteration of `responder_receive_loop`. -/
def responderReceive (server : Server) (ref : ClientRef) : Received → Server
  | .relay _ packet =>
      match server.system.path.getInitiator with
      | .error (.keyError _) => server.relayMessage ref none packet
      | .error exception => server.setReceiveLoop ref (.ended exception)
      | .ok initiator => server.relayMessage ref (some initiator) packet
  | .invalid error => server.setReceiveLoop ref (.ended error.1)
  | input =>
      server.setReceiveLoop ref (.ended (.messageFlowError
        ("Expected relay message, got '" ++ input.typeName ++ "'")))

/-- The first lines of `handshake_responder`, with what `set_client_key` returned. -/
def awaitAuth (server : Server) (ref : ClientRef) (verdict : Except PacketError Unit) : Server :=
  match verdict with
  | .error error => server.abort ref error.1
  | .ok _ => server.setHandler ref .receivingAuth

/-- `handshake` after its first `receive`. -/
def receiveFirst (server : Server) (ref : ClientRef) : Received → Server
  | .clientAuth verdict =>
      { server with system := server.system.setType ref .initiator }.handshakeInitiator ref verdict
  | .clientHello verdict =>
      { server with system := server.system.setType ref .responder }.awaitAuth ref verdict
  | .invalid error => server.abort ref error.1
  | input =>
      server.abort ref (.messageFlowError
        ("Expected 'client-hello' or 'client-auth', got '" ++ input.typeName ++ "'"))

/-- `handshake_responder` after its `receive`. -/
def receiveAuth (server : Server) (ref : ClientRef) : Received → Server
  | .clientAuth verdict => server.handshakeResponder ref verdict
  | .invalid error => server.abort ref error.1
  | input =>
      server.abort ref (.messageFlowError
        ("Expected 'client-auth', got '" ++ input.typeName ++ "'"))

def receive (server : Server) (ref : ClientRef) (input : Received) : Option Server :=
  match server.handler ref with
  | .receivingFirst => some (server.receiveFirst ref input)
  | .receivingAuth => some (server.receiveAuth ref input)
  | .awaitingResult =>
      if (server.tasks ref).receiveLoop = .start then
        match (server.system.client ref).type with
        | some .initiator => some (server.initiatorReceive ref input)
        | _ => some (server.responderReceive ref input)
      else none
  | _ => none

/-- `ConnectionClosed` while receiving: the job queue is closed first. -/
def receiveClosed (server : Server) (ref : ClientRef) (code : Nat) : Option Server :=
  if server.ConnectionClosed ref then
    match server.handler ref with
    | .receivingFirst | .receivingAuth =>
        some ((server.closeJobs ref code).abort ref (.disconnected code))
    | .awaitingResult =>
        if (server.tasks ref).receiveLoop = .start then
          some ((server.closeJobs ref code).setReceiveLoop ref (.ended (.disconnected code)))
        else none
    | _ => none
  else none

/-- The result that `client.tasks.await_result()` resolves to. -/
def taskResult (server : Server) (ref : ClientRef) : Option PyException :=
  match (server.tasks ref).result with
  | none => none
  | some (.now exception) => some exception
  | some .onClosed => (server.connection ref).lost.map .disconnected

/-- `client.jobs.join()`, once the runner and the entries of the queue are done. -/
def join (server : Server) (ref : ClientRef) (closing : Option TaskId) : Option Server :=
  match (server.jobs ref).runner with
  | .notStarted =>
      some (server.setHandler ref (.raised (.internalError
        "Tried joining but job queue runner not started")))
  | .failed exception => some (server.setHandler ref (.raised exception))
  | .finished =>
      if (server.jobs ref).unfinished = 0 then some (server.setHandler ref (.joined closing))
      else none
  | _ => none

/-- Joining timed out: the runner is cancelled, or through it its active job. -/
def joinTimeout (server : Server) (ref : ClientRef) (closing : Option TaskId) : Server :=
  let server := server.setHandler ref (.cancellingJoin closing)
  match (server.jobs ref).runner with
  | .getting => server.setJobs ref { server.jobs ref with runner := .finished }
  | .awaiting id => { server with loop := server.loop.requestCancel id }
  | _ => server

/-- `JobQueue._run` takes the next entry. -/
def runnerGet (server : Server) (ref : ClientRef) : Option Server :=
  match (server.jobs ref).runner, (server.jobs ref).queue with
  | .getting, .final result :: rest =>
      let jobs := { server.jobs ref with queue := rest, state := .completed }
      match jobs.jobDone with
      | .error exception => some (server.setJobs ref { jobs with runner := .failed exception })
      | .ok jobs =>
          some ((server.setJobs ref { jobs with runner := .finished }).cancelTasks ref
            (.now result))
  | .getting, .job (.coroutine coroutine) :: rest =>
      -- `ensure_future` makes it a task.
      some ({ server with loop := server.loop.spawn (.run ref coroutine) }.setJobs ref
        { server.jobs ref with
          queue := rest
          runner := .awaiting server.loop.next
          active := some server.loop.next })
  | .getting, .job (.task id) :: rest =>
      some (server.setJobs ref
        { server.jobs ref with queue := rest, runner := .awaiting id, active := some id })
  | _, _ => none

/-- `JobQueue._run` resumes when the job it awaits is done. -/
def runnerWake (server : Server) (ref : ClientRef) : Option Server :=
  match (server.jobs ref).runner with
  | .awaiting id =>
      let jobs := { server.jobs ref with active := none }
      match (server.loop.task id).status with
      | .done .finished =>
          match jobs.jobDone with
          | .error exception => some (server.setJobs ref { jobs with runner := .failed exception })
          | .ok jobs => some (server.setJobs ref { jobs with runner := .getting })
      | .done .cancelled =>
          some (server.setJobs ref
            { jobs with runner := .getting, callbacks := jobs.callbacks ++ [id] })
      | .done (.failed exception) =>
          match (server.setJobs ref jobs).cancelJobs ref exception with
          | (server, some raised) =>
              some (server.setJobs ref { server.jobs ref with runner := .failed raised })
          | (server, none) =>
              let server := server.cancelTasks ref (.now exception)
              some (server.setJobs ref { server.jobs ref with
                runner := .getting
                callbacks := (server.jobs ref).callbacks ++ [id] })
      | _ => none
  | _ => none

/-- A done callback `_job_done`; what it raises is only logged. -/
def jobDone (server : Server) (ref : ClientRef) (id : TaskId) : Option Server :=
  if id ∈ (server.jobs ref).callbacks ∧ server.loop.isDone id then
    let jobs := { server.jobs ref with callbacks := (server.jobs ref).callbacks.erase id }
    match jobs.jobDone with
    | .error _ => some (server.setJobs ref jobs)
    | .ok jobs => some (server.setJobs ref jobs)
  else none

def finishTask (server : Server) (id : TaskId) (outcome : Outcome PyException) : Server :=
  { server with loop := server.loop.setStatus id (.done outcome) }

def suspendTask (server : Server) (id : TaskId) : Server :=
  { server with loop := server.loop.setStatus id .suspended }

/-- The first ready task runs up to its first suspension. -/
def taskStart (server : Server) : Option Server :=
  match server.loop.ready with
  | [] => none
  | id :: rest =>
      let server := { server with loop := { server.loop with ready := rest } }
      if (server.loop.task id).cancelRequested then some (server.finishTask id .cancelled)
      else
        match (server.loop.task id).body with
        | .run ref (.send message number) =>
            match message.pack (server.system.client ref) (server.csnOut ref) with
            | (csn, .error exception) =>
                some ({ server with csnOut := Function.update server.csnOut ref csn
                  }.finishTask id (.failed exception))
            | (csn, .ok _) =>
                some (({ server with csnOut := Function.update server.csnOut ref csn
                  }.suspendTask id).log (.sent ref message number))
        | .run ref (.close code) =>
            let server := server.closeJobs ref code.value
            some (({ server with
              connection := Function.update server.connection ref
                { server.connection ref with closing := true } }.suspendTask id).log
              (.closed ref code))
        | .enqueue ref message => some ((server.submit ref message).finishTask id .finished)

/-- A suspended task that was not cancelled is resumed. -/
def Resumable (server : Server) (id : TaskId) : Prop :=
  (server.loop.task id).status = .suspended ∧ (server.loop.task id).cancelRequested = false

instance (server : Server) (id : TaskId) : Decidable (server.Resumable id) :=
  inferInstanceAs (Decidable (_ ∧ _))

def taskSent (server : Server) (id : TaskId) : Option Server :=
  match (server.loop.task id).body with
  | .run _ (.send _ _) =>
      if server.Resumable id then some (server.finishTask id .finished) else none
  | _ => none

def taskSendClosed (server : Server) (id : TaskId) (code : Nat) : Option Server :=
  match (server.loop.task id).body with
  | .run ref (.send _ _) =>
      if server.Resumable id ∧ server.ConnectionClosed ref then
        some ((server.closeJobs ref code).finishTask id (.failed (.disconnected code)))
      else none
  | _ => none

/-- `connection.close(code)` returns when the connection is closed. -/
def taskClosed (server : Server) (id : TaskId) : Option Server :=
  match (server.loop.task id).body with
  | .run ref (.close code) =>
      if server.Resumable id then
        some ({ server with
          connection := Function.update server.connection ref
            { server.connection ref with
              lost := some ((server.connection ref).lost.getD code.value) }
          }.finishTask id .finished)
      else none
  | _ => none

def taskCancelled (server : Server) (id : TaskId) : Option Server :=
  if (server.loop.task id).status = .suspended ∧ (server.loop.task id).cancelRequested then
    some (server.finishTask id .cancelled)
  else none

/-- `relay_message` resumes: the relay task is done. -/
def relayed (server : Server) (ref : ClientRef) : Option Server :=
  match (server.tasks ref).receiveLoop with
  | ⟨.relaying id packet, false⟩ =>
      match (server.loop.task id).status with
      | .done .finished => some (server.setReceiveLoop ref .waiting)
      | .done .cancelled =>
          if (server.tasks ref).haveResult then
            some (server.setReceiveLoop ref (.ended .cancelledError))
          else some (server.sendError ref packet)
      | .done (.failed _) => some (server.sendError ref packet)
      | _ => none
  | _ => none

/-- `wait_for` gives up a relay task after `RELAY_TIMEOUT`, which is long after
the task has started. -/
def relayTimeout (server : Server) (ref : ClientRef) : Option Server :=
  match (server.tasks ref).receiveLoop with
  | ⟨.relaying id packet, false⟩ =>
      if (server.loop.task id).status = .suspended then
        some ({ server with loop := server.loop.requestCancel id }.setReceiveLoop ref
          (.expiring id packet))
      else none
  | _ => none

/-- `wait_for` raises its timeout when the relay task has ended. -/
def relayExpired (server : Server) (ref : ClientRef) : Option Server :=
  match (server.tasks ref).receiveLoop with
  | ⟨.expiring id packet, false⟩ =>
      if server.loop.isDone id then some (server.sendError ref packet) else none
  | _ => none

/-- `CancelledError` in the receive loop.  A relay task that it waits for has
started before and is cancelled. -/
def loopCancelled (server : Server) (ref : ClientRef) : Option Server :=
  match (server.tasks ref).receiveLoop with
  | ⟨.waiting, true⟩ => some (server.setReceiveLoop ref (.ended .cancelledError))
  | ⟨.relaying id packet, true⟩ | ⟨.expiring id packet, true⟩ =>
      if id ∈ server.loop.ready then none
      else
        let server := { server with loop := server.loop.requestCancel id }
        if (server.tasks ref).haveResult then
          some (server.setReceiveLoop ref (.ended .cancelledError))
        else
          some ((server.setTasks ref { server.tasks ref with
            receiveLoop := ⟨.waiting, false⟩ }).sendError ref packet)
  | _ => none

/-- The done callback of the receive loop. -/
def loopReported (server : Server) (ref : ClientRef) : Option Server :=
  match (server.tasks ref).receiveLoop.status with
  | .ended exception =>
      let server := server.setReceiveLoop ref .reported
      some (server.setTasks ref ((server.tasks ref).taskDone exception))
  | _ => none

def setKeepAlive (server : Server) (ref : ClientRef) (status : WorkerStatus) : Server :=
  server.setTasks ref { server.tasks ref with
    keepAlive := { (server.tasks ref).keepAlive with status := status } }

/-- `PingTimeoutError(str(client))`: the name of a client is formatted with its id. -/
def pingTimeoutError (client : PathClient) : PyException :=
  match client.id.copy with
  | .error exception => exception
  | .ok _ => .pingTimeoutError

def pingTimeout (server : Server) (ref : ClientRef) : Option Server :=
  if (server.tasks ref).keepAlive = .start then
    some (server.setKeepAlive ref (.ended (pingTimeoutError (server.system.client ref))))
  else none

def pingClosed (server : Server) (ref : ClientRef) (code : Nat) : Option Server :=
  if (server.tasks ref).keepAlive = .start ∧ server.ConnectionClosed ref then
    some ((server.closeJobs ref code).setKeepAlive ref (.ended (.disconnected code)))
  else none

def keepAliveCancelled (server : Server) (ref : ClientRef) : Option Server :=
  if (server.tasks ref).keepAlive = ⟨.waiting, true⟩ then
    some (server.setKeepAlive ref (.ended .cancelledError))
  else none

/-- The done callback of the keep-alive loop. -/
def keepAliveReported (server : Server) (ref : ClientRef) : Option Server :=
  match (server.tasks ref).keepAlive.status with
  | .ended exception =>
      let server := server.setKeepAlive ref .reported
      some (server.setTasks ref ((server.tasks ref).taskDone exception))
  | _ => none

/-- The last lines of `handler`: the task that closes the connection is done. -/
def finish (server : Server) (ref : ClientRef) : Option TaskId → Option Server
  | none =>
      some ({ server with protocols := server.protocols.erase ref }.setHandler ref .finished)
  | some id =>
      match (server.loop.task id).status with
      | .done .finished =>
          some ({ server with protocols := server.protocols.erase ref }.setHandler ref .finished)
      | .done .cancelled => some (server.setHandler ref (.raised .cancelledError))
      | .done (.failed exception) => some (server.setHandler ref (.raised exception))
      | _ => none

def step (server : Server) : Action → Option Server
  | .connect ref csn => server.connect ref csn
  | .begin ref =>
      if server.handler ref = .created then some (server.send ref .serverHello .sendingHello)
      else none
  | .sent ref =>
      match server.handler ref with
      | .sendingHello => some (server.setHandler ref .receivingFirst)
      | .sendingAuth => some (server.completeHandshake ref)
      | _ => none
  | .sendClosed ref code =>
      if (server.handler ref = .sendingHello ∨ server.handler ref = .sendingAuth) ∧
          server.ConnectionClosed ref then
        some ((server.closeJobs ref code).abort ref (.disconnected code))
      else none
  | .receive ref input => server.receive ref input
  | .receiveClosed ref code => server.receiveClosed ref code
  | .gathered ref =>
      match server.handler ref with
      | .gathering ids =>
          if ids.all server.loop.isDone then some (server.sendInitiatorAuth ref) else none
      | _ => none
  | .result ref =>
      match server.handler ref, server.taskResult ref with
      | .awaitingResult, some result => some (server.leave ref result)
      | _, _ => none
  | .join ref =>
      match server.handler ref with
      | .joining closing => server.join ref closing
      | _ => none
  | .joinTimeout ref =>
      match server.handler ref with
      | .joining closing =>
          if (server.jobs ref).runner = .notStarted then none
          else some (server.joinTimeout ref closing)
      | _ => none
  | .joinCancelled ref =>
      match server.handler ref with
      | .cancellingJoin closing =>
          -- What `_cancel` raises is replaced by the timeout.
          let call := (server.jobs ref).cancelAll server.loop
          some (({ server with loop := call.state.2 }.setJobs ref call.state.1).setHandler ref
            (.joined closing))
      | _ => none
  | .dispatch ref =>
      match server.handler ref with
      | .joined closing => some (server.dispatch ref closing)
      | _ => none
  | .dispatched ref =>
      match server.handler ref with
      | .dispatching closing ids =>
          if ids.all server.loop.isDone then some (server.setHandler ref (.closing closing))
          else none
      | _ => none
  | .finish ref =>
      match server.handler ref with
      | .closing closing => server.finish ref closing
      | _ => none
  | .runnerGet ref => server.runnerGet ref
  | .runnerWake ref => server.runnerWake ref
  | .jobDone ref id => server.jobDone ref id
  | .taskStart => server.taskStart
  | .taskSent id => server.taskSent id
  | .taskSendClosed id code => server.taskSendClosed id code
  | .taskClosed id => server.taskClosed id
  | .taskCancelled id => server.taskCancelled id
  | .relayed ref => server.relayed ref
  | .relayTimeout ref => server.relayTimeout ref
  | .relayExpired ref => server.relayExpired ref
  | .loopCancelled ref => server.loopCancelled ref
  | .loopReported ref => server.loopReported ref
  | .pingTimeout ref => server.pingTimeout ref
  | .pingClosed ref code => server.pingClosed ref code
  | .keepAliveCancelled ref => server.keepAliveCancelled ref
  | .keepAliveReported ref => server.keepAliveReported ref
  | .connectionLost ref code =>
      if server.handler ref ≠ .absent ∧ (server.connection ref).lost = none then
        some { server with
          connection := Function.update server.connection ref
            { server.connection ref with lost := some code } }
      else none
  | .closeProtocol ref =>
      if ref ∈ server.protocols then some (server.dropClient ref .goingAway) else none

/-- A server before the first connection to a path. -/
def created (initiatorKey : List UInt8) (number : Nat) : Server where
  system := PathSystem.created initiatorKey number
  jobs _ := .new
  tasks _ := .new
  handler _ := .absent
  connection _ := ⟨false, none⟩
  csnOut _ := some 0
  loop := ⟨fun _ => ⟨.enqueue 0 .serverHello, .done .finished, false⟩, 0, []⟩
  protocols := ∅
  history := []

def machine : Machine Server Action :=
  ⟨fun server => ∃ initiatorKey number, server = created initiatorKey number, step⟩

/-- A client joins as the initiator while nobody else acts. -/
def joinInitiator (ref : ClientRef) : List Action :=
  [.connect ref 0, .begin ref, .sent ref, .receive ref (.clientAuth (.ok ())), .sent ref]

/-- A client joins as a responder while nobody else acts. -/
def joinResponder (ref : ClientRef) : List Action :=
  [.connect ref 0, .begin ref, .sent ref, .receive ref (.clientHello (.ok ())),
    .receive ref (.clientAuth (.ok ())), .sent ref]

theorem initial_created (initiatorKey : List UInt8) (number : Nat) :
    machine.initial (created initiatorKey number) :=
  ⟨initiatorKey, number, rfl⟩

end Server

end SaltyRtcServer
