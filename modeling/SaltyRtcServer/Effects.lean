import SaltyRtcServer.Bookkeeping

/-!
# What one step can do

A step of the server is a short sequence of effects.  Most of them are calm; the
others each do one thing that other clients can notice: a client enters or
leaves the path, a message is submitted, a task is started or ends.  What holds
before and after every effect holds along every run.
-/

namespace SaltyRtcServer

open StepMachine

/-- The calls of a protocol that neither add nor authenticate a client.  Only the
handler of a client that `moves` allows takes the client out of its stage. -/
def PathSystem.Action.Plain (moves : ClientRef → Prop) : PathSystem.Action → Prop
  | .setType _ _ | .drop _ | .clean => True
  | .leave ref => moves ref
  | _ => False

/-- The role that the first message of a client gives it. -/
def Received.role : Received → Option AddressType
  | .clientAuth _ => some .initiator
  | .clientHello _ => some .responder
  | _ => none

def OutgoingMessage.IsServerAuth : OutgoingMessage → Prop
  | .serverAuthInitiator _ | .serverAuthResponder _ _ => True
  | _ => False

namespace Server

/-- The stored client to which a receive loop relays a message with this address. -/
def relayDestination (server : Server) (ref : ClientRef) (address : Address) : Option ClientRef :=
  if (server.system.client ref).type = some .initiator then
    match ResponderAddress.ofNat address.1 with
    | .ok id => server.system.path.responders.get? id
    | .error _ => none
  else server.system.path.initiator

/-- The client to which the action relays a message, if it takes one up. -/
def takesRelay (server : Server) : Action → Option ClientRef
  | .receive ref (.relay address _) =>
      if server.handler ref = .awaitingResult ∧ (server.tasks ref).receiveLoop = .start then
        server.relayDestination ref address
      else none
  | _ => none

/-- A role is set only when the handler of the client receives its first message. -/
def Types (origin : Server) (action : Action) (call : PathSystem.Action) : Prop :=
  ∀ ref type, call = .setType ref type → origin.handler ref = .receivingFirst ∧
    ∃ input, action = .receive ref input ∧ input.role = some type

/-- The head of the ready tasks has started and has the status given. -/
def startHead (server : Server) (id : TaskId) (status : TaskStatus PyException) : Server :=
  { server with loop := server.loop.pop.setStatus id status }

/-- Why a task that starts ends at once: its cancellation was requested, or its message
cannot be packed. -/
inductive EndsAtOnce (task : LoopTask TaskBody PyException) : Outcome PyException → Prop
  | cancelled : task.cancelRequested = true → EndsAtOnce task .cancelled
  | failed {ref : ClientRef} {message : OutgoingMessage} {number : Option Nat}
      (error : PacketError) : task.cancelRequested = false →
      task.body = .run ref (.send message number) → message.isRelay = false →
      EndsAtOnce task (.failed error.1)

/-- Why a suspended task ends: what it waits for is over, its cancellation was requested,
or the connection was closed while it was sending. -/
inductive Ends (server : Server) (task : LoopTask TaskBody PyException) :
    Outcome PyException → Prop
  | finished : task.cancelRequested = false → Ends server task .finished
  | cancelled : task.cancelRequested = true → Ends server task .cancelled
  | failed {ref : ClientRef} {message : OutgoingMessage} {number : Option Nat} (code : Nat) :
      task.body = .run ref (.send message number) → server.ConnectionClosed ref →
      Ends server task (.failed (.disconnected code))

/-- The suspended task that the action resumes. -/
def Action.resumed : Action → Option TaskId
  | .taskSent id | .taskSendClosed id _ | .taskClosed id | .taskCancelled id => some id
  | _ => none

/-- The effects of an action that started in the state `origin`, and in which only
the clients that `moves` allows get on with their handlers. -/
inductive Effect (origin : Server) (action : Action) (moves : ClientRef → Prop) :
    Server → Server → Prop
  | calm {before after : Server} :
      Calm moves before after → Effect origin action moves before after
  | path {before : Server} {call : PathSystem.Action} {system : PathSystem} :
      before.system.step call = some system → call.Plain moves → origin.Types action call →
      Effect origin action moves before { before with system := system }
  | connect {ref : ClientRef} {csn : Nat} {after : Server} : moves ref →
      origin.connect ref csn = some after → Effect origin action moves origin after
  | initiator {ref : ClientRef} {before dropped after : Server} {state : Path × PathClient}
      {previous : Option ClientRef} {ids : List TaskId} : moves ref →
      action = .receive ref (.clientAuth (.ok ())) → origin.handler ref = .receivingFirst →
      (before.system.client ref).type = some .initiator →
      before.system.stage ref = .handshaking →
      before.system.path.setInitiator ref (before.system.client ref) = .returned state previous →
      Calm moves ({ before with
        system := before.system.afterSetInitiator ref (.returned state previous) }.log
          (.authenticated ref)) dropped →
      dropped.handler = before.handler → dropped.loop = before.loop →
      dropped.gather (dropped.toResponders .newInitiator) = (after, ids) →
      Effect origin action moves before
        (if ids = [] then after else after.setHandler ref (.gathering ids))
  | responder {ref : ClientRef} {before joined : Server} {state : Path × PathClient}
      {id : ResponderAddress} : moves ref →
      action = .receive ref (.clientAuth (.ok ())) → origin.handler ref = .receivingAuth →
      before.system.stage ref = .handshaking →
      before.system.path.addResponder ref (before.system.client ref) = .returned state id →
      joined = { before with
        system := before.system.afterAddResponder ref (.returned state id) }.log
          (.authenticated ref) →
      Effect origin action moves before
        (match before.system.path.initiator with
          | none => joined.log (.created ref (.serverAuthResponder id false) none)
          | some initiator => (joined.submit initiator (.newResponder id)).log
              (.created ref (.serverAuthResponder id true) (some initiator)))
  | created {ref : ClientRef} {before : Server} {ids : List ResponderAddress} :
      before.system.stage ref = .established → before.Gathered ref →
      before.system.path.getResponderIds = .ok ids →
      Effect origin action moves before
        (before.log (.created ref (.serverAuthInitiator ids) before.system.path.initiator))
  | greeted {ref : ClientRef} {before : Server} : moves ref →
      before.system.stage ref = .handshaking → before.handler ref = .created →
      Effect origin action moves before
        ((before.setHandler ref .sendingHello).log (.sent ref .serverHello none))
  | serverAuth {ref : ClientRef} {before : Server} {message : OutgoingMessage} : moves ref →
      message.IsServerAuth → (∃ initiator, .created ref message initiator ∈ before.history) →
      before.system.stage ref = .established → before.Gathered ref →
      Effect origin action moves before
        ((before.setHandler ref .sendingAuth).log (.sent ref message none))
  | sendError {ref : ClientRef} {before : Server} (destination : Address) (id : List UInt8) :
      Effect origin action moves before (before.submit ref (.sendError destination id))
  | relay {ref destination : ClientRef} {address : Address} (packet : List UInt8) :
      action = .receive ref (.relay address packet) → destination ∈ origin.takesRelay action →
      Effect origin action moves origin
        ((origin.submitTask destination (.relay packet)).setReceiveLoop ref
          (.relaying origin.loop.next packet))
  | disconnectedResponder {ref initiator : ClientRef} {closing : Option TaskId} :
      action = .dispatch ref → (origin.system.client ref).type = some .responder →
      (origin.system.client ref).state = .authenticated → origin.handler ref = .joined closing →
      origin.system.path.initiator = some initiator →
      Effect origin action moves origin
        (origin.submit initiator (.disconnected initiatorAddress (origin.system.client ref).id))
  | disconnectedInitiator {ref : ClientRef} {closing : Option TaskId} {after : Server}
      {ids : List TaskId} : moves ref →
      action = .dispatch ref → (origin.system.client ref).type = some .initiator →
      (origin.system.client ref).state = .authenticated → origin.handler ref = .joined closing →
      origin.gather (origin.toResponders fun id =>
        .disconnected id.toAddress initiatorAddress) = (after, ids) →
      Effect origin action moves origin
        (if ids = [] then after else after.setHandler ref (.dispatching closing ids))
  | take {ref : ClientRef} {coroutine : Coroutine} {rest : List JobEntry} {before : Server} :
      (before.jobs ref).runner = .getting →
      (before.jobs ref).queue = .job (.coroutine coroutine) :: rest →
      Effect origin action moves before
        ({ before with loop := before.loop.spawn (.run ref coroutine) }.setJobs ref
          { before.jobs ref with
            queue := rest
            runner := .awaiting before.loop.next
            active := some before.loop.next })
  | startEnded {before : Server} {id : TaskId} {rest : List TaskId}
      {outcome : Outcome PyException} : action = .taskStart →
      before.loop.ready = id :: rest → EndsAtOnce (before.loop.task id) outcome →
      Effect origin action moves before (before.startHead id (.done outcome))
  | startClosing {before : Server} {id : TaskId} {rest : List TaskId} {ref : ClientRef}
      {code : CloseCode} : action = .taskStart →
      before.loop.ready = id :: rest → (before.loop.task id).body = .run ref (.close code) →
      Effect origin action moves before (before.startHead id .suspended)
  | handed {before : Server} {id : TaskId} {rest : List TaskId} {ref : ClientRef}
      {message : OutgoingMessage} {number : Option Nat} : action = .taskStart →
      before.loop.ready = id :: rest → (before.loop.task id).cancelRequested = false →
      (before.loop.task id).body = .run ref (.send message number) →
      Effect origin action moves before
        ((before.startHead id .suspended).log (.sent ref message number))
  | enqueued {before : Server} {id : TaskId} {rest : List TaskId} {ref : ClientRef}
      {message : OutgoingMessage} : action = .taskStart →
      before.loop.ready = id :: rest → (before.loop.task id).body = .enqueue ref message →
      Effect origin action moves before
        ((before.startHead id (.done .finished)).submit ref message)
  | ended {before : Server} {id : TaskId} {outcome : Outcome PyException} :
      action.resumed = some id → (before.loop.task id).status = .suspended →
      Ends origin (before.loop.task id) outcome →
      Effect origin action moves before
        { before with loop := before.loop.setStatus id (.done outcome) }

/-- Where a client stands with its path in each phase of its handler. -/
def Phase (server : Server) (ref : ClientRef) : Prop :=
  match server.handler ref with
  | .absent => server.system.stage ref = .absent ∧ ref ∉ server.protocols
  | .created | .sendingHello | .receivingFirst | .receivingAuth =>
      server.system.stage ref = .handshaking ∧ (server.jobs ref).Idle
  | .gathering _ | .sendingAuth =>
      server.system.stage ref = .established ∧ (server.jobs ref).Idle
  | .awaitingResult =>
      server.system.stage ref = .handshaking ∨ server.system.stage ref = .established
  | _ => server.system.stage ref ≠ .absent

abbrev Effects (origin : Server) (action : Action) (moves : ClientRef → Prop) :
    Server → Server → Prop :=
  Relation.ReflTransGen (Effect origin action moves)

section Submit

variable (server : Server) (ref : ClientRef) (message : OutgoingMessage)

theorem submit_eq :
    server.submit ref message =
      (server.setJobs ref
        (if (server.jobs ref).state = .opened then
          (server.jobs ref).put (.job (.coroutine (.send message (server.nextNumber ref))))
        else server.jobs ref)).log (.submitted ref message (server.nextNumber ref)) := by
  unfold submit JobQueue.enqueue cancelAwaitable
  by_cases opened : (server.jobs ref).state = .opened <;> simp [opened, setJobs, log]

@[simp]
theorem submit_system : (server.submit ref message).system = server.system := by
  rw [submit_eq]
  rfl

@[simp]
theorem submit_handler : (server.submit ref message).handler = server.handler := by
  rw [submit_eq]
  rfl

@[simp]
theorem submit_loop : (server.submit ref message).loop = server.loop := by
  rw [submit_eq]
  rfl

@[simp]
theorem submit_tasks : (server.submit ref message).tasks = server.tasks := by
  rw [submit_eq]
  rfl

theorem submit_history : (server.submit ref message).history =
    server.history ++ [.submitted ref message (server.nextNumber ref)] := by
  rw [submit_eq]
  rfl

theorem submit_jobs : (server.submit ref message).jobs =
    Function.update server.jobs ref
      (if (server.jobs ref).state = .opened then
        (server.jobs ref).put (.job (.coroutine (.send message (server.nextNumber ref))))
      else server.jobs ref) := by
  rw [submit_eq]
  rfl

theorem submit_runner (other : ClientRef) :
    ((server.submit ref message).jobs other).runner = (server.jobs other).runner := by
  rw [submit_jobs]
  by_cases same : other = ref
  · subst same
    rw [Function.update_self]
    split <;> rfl
  · rw [Function.update_of_ne same]

theorem submit_state (other : ClientRef) :
    ((server.submit ref message).jobs other).state = (server.jobs other).state := by
  rw [submit_jobs]
  by_cases same : other = ref
  · subst same
    rw [Function.update_self]
    split <;> rfl
  · rw [Function.update_of_ne same]

theorem submit_idle {other : ClientRef} (idle : (server.jobs other).Idle) :
    ((server.submit ref message).jobs other).Idle :=
  ⟨(submit_runner server ref message other).trans idle.notStarted,
    by rw [submit_state]; exact idle.state⟩

end Submit

theorem gather_eq {server after : Server} {messages : List (ClientRef × OutgoingMessage)}
    {ids : List TaskId} (gathers : server.gather messages = (after, ids)) :
    after = { server with loop := (server.loop.spawnAll
      (messages.map fun message => .enqueue message.1 message.2)).1 } ∧
    ids = (server.loop.spawnAll (messages.map fun message => .enqueue message.1 message.2)).2 := by
  unfold gather at gathers
  injection gathers with first second
  exact ⟨first.symm, second.symm⟩

section Handshake

variable {origin server : Server} {action : Action} {moves : ClientRef → Prop} {ref : ClientRef}

theorem Calm.effects {after : Server} (calm : Calm moves server after) :
    Effects origin action moves server after :=
  .single (.calm calm)

theorem calm_csnOut (csn : ClientRef → SequenceNumber) :
    Calm moves server { server with csnOut := csn } :=
  .of_same rfl rfl rfl rfl rfl (Finset.Subset.refl _) fun _ _ found => found

theorem send_effects (mover : moves ref) {message : OutgoingMessage}
    (isServerAuth : message.IsServerAuth)
    (created : ∃ initiator, .created ref message initiator ∈ server.history)
    (established : server.system.stage ref = .established) (gathered : server.Gathered ref)
    (idle : (server.jobs ref).Idle) :
    Effects origin action moves server (server.send ref message .sendingAuth) := by
  unfold Server.send
  split
  · next csn exception _ =>
    have counted : Calm moves server
        { server with csnOut := Function.update server.csnOut ref csn } := calm_csnOut _
    exact (counted.trans (.abort _ exception mover gathered idle)).effects
  · next csn _ _ =>
    have counted : Calm moves server
        { server with csnOut := Function.update server.csnOut ref csn } := calm_csnOut _
    exact counted.effects.tail (.serverAuth mover isServerAuth created established gathered)

theorem sendInitiatorAuth_effects (mover : moves ref)
    (established : server.system.stage ref = .established) (gathered : server.Gathered ref) (idle : (server.jobs ref).Idle) :
    Effects origin action moves server (server.sendInitiatorAuth ref) := by
  unfold Server.sendInitiatorAuth
  split
  · next exception _ => exact (Calm.abort server exception mover gathered idle).effects
  · next ids found =>
    refine .head (.created established gathered found)
      (send_effects mover trivial ⟨server.system.path.initiator, ?_⟩ established gathered idle)
    exact List.mem_append_right _ List.mem_cons_self

theorem idle_drop {other victim : ClientRef} (idle : (server.jobs other).Idle)
    (code : CloseCode) : ((server.drop victim code).jobs other).Idle := by
  by_cases same : other = victim
  · subst same
    simp only [Server.drop, Server.log, Server.cancelTasks, Server.setTasks, Server.setJobs,
      Function.update_self, JobQueue.close_eq]
    split
    · exact ⟨idle.notStarted, .inr rfl⟩
    · exact idle
  · simpa [Server.drop, Server.log, Server.cancelTasks, Server.setTasks, Server.setJobs, same]
      using idle

theorem afterSetInitiator_stages (system : PathSystem) (ref : ClientRef)
    (state : Path × PathClient) (previous : Option ClientRef) :
    (system.afterSetInitiator ref (.returned state previous)).stage =
      Function.update system.stage ref .established := by
  cases previous <;> rfl

theorem dropPrevious_calm (server : Server) (previous : Option ClientRef) :
    Calm moves server (server.dropPrevious previous) := by
  cases previous with
  | none => exact .refl server
  | some previous => exact .drop server previous _

theorem dropPrevious_same (server : Server) (previous : Option ClientRef) (ref : ClientRef)
    (idle : (server.jobs ref).Idle) :
    (server.dropPrevious previous).handler = server.handler ∧
      (server.dropPrevious previous).loop = server.loop ∧
      (server.dropPrevious previous).system = server.system ∧
      ((server.dropPrevious previous).jobs ref).Idle := by
  cases previous with
  | none => exact ⟨rfl, rfl, rfl, idle⟩
  | some previous => exact ⟨rfl, rfl, rfl, idle_drop idle _⟩

theorem handshakeInitiator_effects (mover : moves ref)
    (handshaking : server.system.stage ref = .handshaking) (receiving : server.handler ref = .receivingFirst) (idle : (server.jobs ref).Idle)
    (consistent : server.system.Consistent) (verdict : Except PacketError Unit)
    (receives : action = .receive ref (.clientAuth verdict))
    (first : origin.handler ref = .receivingFirst)
    (typed : (server.system.client ref).type = some .initiator) :
    Effects origin action moves server (server.handshakeInitiator ref verdict) := by
  have gathered : server.Gathered ref := by simp [Gathered, receiving]
  unfold Server.handshakeInitiator
  split
  · exact (Calm.abort server _ mover gathered idle).effects
  · dsimp only
    cases called : server.system.path.setInitiator ref (server.system.client ref) with
    | raised state exception =>
        have unchanged := Path.setInitiator_raised called fun mem =>
          (consistent.pending ref mem).2.1
        subst unchanged
        simpa [PathSystem.afterSetInitiator] using
          (Calm.abort server exception mover gathered idle).effects
    | returned state previous =>
        let middle : Server := { server with
          system := server.system.afterSetInitiator ref (.returned state previous) }.log
            (.authenticated ref)
        have calm : Calm moves middle (middle.dropPrevious previous) :=
          dropPrevious_calm middle previous
        obtain ⟨handler, loop, system, stillIdle⟩ := dropPrevious_same middle previous ref idle
        dsimp only
        rcases gathers : (middle.dropPrevious previous).gather
          ((middle.dropPrevious previous).toResponders .newInitiator) with ⟨after, ids⟩
        have effect : Effect origin action moves server _ :=
          .initiator mover receives first typed handshaking called calm handler loop gathers
        cases ids with
        | nil =>
            have same : after.system = middle.system ∧
                after.jobs = (middle.dropPrevious previous).jobs ∧
                after.handler = server.handler := by
              rw [(gather_eq gathers).1]
              exact ⟨system, rfl, handler⟩
            refine .head effect (sendInitiatorAuth_effects mover ?_ ?_ ?_)
            · rw [if_pos rfl, same.1]
              simp [middle, Server.log, afterSetInitiator_stages]
            · rw [if_pos rfl, Gathered, same.2.2, receiving]
              simp
            · rw [if_pos rfl, same.2.1]
              exact stillIdle
        | cons id ids => exact .single effect

theorem handshakeResponder_effects (mover : moves ref)
    (handshaking : server.system.stage ref = .handshaking) (receiving : server.handler ref = .receivingAuth) (idle : (server.jobs ref).Idle)
    (consistent : server.system.Consistent) (verdict : Except PacketError Unit)
    (receives : action = .receive ref (.clientAuth verdict))
    (second : origin.handler ref = .receivingAuth) :
    Effects origin action moves server (server.handshakeResponder ref verdict) := by
  have gathered : server.Gathered ref := by simp [Gathered, receiving]
  unfold Server.handshakeResponder
  split
  · exact (Calm.abort server _ mover gathered idle).effects
  · dsimp only
    cases called : server.system.path.addResponder ref (server.system.client ref) with
    | raised state exception =>
        have unchanged := Path.addResponder_raised called fun mem =>
          (consistent.pending ref mem).2.1
        subst unchanged
        simpa [PathSystem.afterAddResponder] using
          (Calm.abort server exception mover gathered idle).effects
    | returned state id =>
        let joined : Server := { server with
          system := server.system.afterAddResponder ref (.returned state id) }.log
            (.authenticated ref)
        have effect : Effect origin action moves server _ :=
          .responder mover receives second handshaking called rfl
        obtain ⟨attached, _, _, _, path, _⟩ := Path.addResponder_returned called
        have joinedPath : joined.system.path = state.1 := rfl
        have joinedAttached : joined.system.path.attached = true := by
          rw [joinedPath, path]
          exact attached
        have joinedInitiator : joined.system.path.initiator = server.system.path.initiator := by
          rw [joinedPath, path]
        have established : joined.system.stage ref = .established := by
          simp [joined, Server.log, PathSystem.afterAddResponder]
        change Effects origin action moves server (joined.announceResponder ref id)
        unfold Server.announceResponder Path.getInitiator
        rw [joinedAttached, joinedInitiator]
        cases present : server.system.path.initiator with
        | none =>
            rw [present] at effect
            refine .head effect ?_
            simp only [Bool.not_true, Bool.false_eq_true, if_false, Server.sendServerAuth,
              joinedInitiator, present]
            refine send_effects mover trivial ⟨none, ?_⟩ established gathered idle
            exact List.mem_append_right _ List.mem_cons_self
        | some initiator =>
            rw [present] at effect
            refine .head effect ?_
            simp only [Bool.not_true, Bool.false_eq_true, if_false, Server.sendServerAuth,
              submit_system, joinedInitiator, present]
            refine send_effects mover trivial ⟨some initiator, ?_⟩ ?_ ?_
              (submit_idle joined _ _ idle)
            · exact List.mem_append_right _ List.mem_cons_self
            · change (joined.submit initiator (.newResponder id)).system.stage ref = .established
              rw [submit_system]
              exact established
            · simpa [Gathered, Server.log] using gathered

theorem receiveFirst_effects (mover : moves ref) (handshaking : server.system.stage ref = .handshaking)
    (receiving : server.handler ref = .receivingFirst) (idle : (server.jobs ref).Idle)
    (consistent : server.system.Consistent) (input : Received)
    (first : origin.handler ref = .receivingFirst) :
    Effects origin (.receive ref input) moves server (server.receiveFirst ref input) := by
  have gathered : server.Gathered ref := by simp [Gathered, receiving]
  have typed : ∀ type, server.system.step (.setType ref type) =
      some (server.system.setType ref type) := fun type => if_pos handshaking
  have types {type : AddressType} (role : input.role = some type) :
      origin.Types (.receive ref input) (.setType ref type) := by
    intro other given same
    injection same with client same
    subst client same
    exact ⟨first, input, rfl, role⟩
  unfold Server.receiveFirst
  split
  · next verdict =>
    refine .head (.path (typed .initiator) trivial (types rfl)) ?_
    have stillConsistent := consistent.setType (typed .initiator)
    refine handshakeInitiator_effects mover ?_ ?_ ?_ ?_ verdict rfl first ?_
    · exact handshaking
    · exact receiving
    · exact idle
    · exact stillConsistent
    · simp [PathSystem.setType]
  · refine .head (.path (typed .responder) trivial (types rfl)) ?_
    let typedServer := { server with system := server.system.setType ref .responder }
    change Effects origin _ moves typedServer (typedServer.awaitAuth ref _)
    unfold Server.awaitAuth
    split
    · exact (Calm.abort typedServer _ mover gathered idle).effects
    · exact (Calm.setHandler typedServer mover (by simp) gathered).effects
  · exact (Calm.abort server _ mover gathered idle).effects
  · exact (Calm.abort server _ mover gathered idle).effects

theorem receiveAuth_effects (mover : moves ref) (handshaking : server.system.stage ref = .handshaking)
    (receiving : server.handler ref = .receivingAuth) (idle : (server.jobs ref).Idle)
    (consistent : server.system.Consistent) (input : Received)
    (second : origin.handler ref = .receivingAuth) :
    Effects origin (.receive ref input) moves server (server.receiveAuth ref input) := by
  have gathered : server.Gathered ref := by simp [Gathered, receiving]
  unfold Server.receiveAuth
  split
  · exact handshakeResponder_effects mover handshaking receiving idle consistent _ rfl second
  · exact (Calm.abort server _ mover gathered idle).effects
  · exact (Calm.abort server _ mover gathered idle).effects

end Handshake

section ReceiveLoop

variable {server : Server} {action : Action} {moves : ClientRef → Prop} {ref : ClientRef}

theorem setReceiveLoop_effects {origin : Server} {status : WorkerStatus}
    (noTask : status.task? = none) :
    Effects origin action moves server (server.setReceiveLoop ref status) := by
  have calm : Calm moves server (server.setReceiveLoop ref status) :=
    .setReceiveLoop server ref (.inl noTask)
  exact calm.effects

theorem sendError_effects {origin : Server} (packet : List UInt8) :
    Effects origin action moves server (server.sendError ref packet) := by
  unfold Server.sendError
  split
  · exact setReceiveLoop_effects rfl
  · exact .head (.sendError _ _) (setReceiveLoop_effects rfl)

theorem relayMessage_effects (destination : Option ClientRef) {address : Address}
    (packet : List UInt8) (receives : action = .receive ref (.relay address packet))
    (takes : ∀ target, destination = some target → target ∈ server.takesRelay action) :
    Effects server action moves server (server.relayMessage ref destination packet) := by
  cases destination with
  | none => exact sendError_effects packet
  | some target => exact .single (.relay packet receives (takes target rfl))

theorem getInitiator_ok {path : Path} {initiator : ClientRef}
    (found : path.getInitiator = .ok initiator) : path.initiator = some initiator := by
  unfold Path.getInitiator at found
  grind

theorem getResponder_ok {path : Path} {id : ResponderAddress} {responder : ClientRef}
    (found : path.getResponder id = .ok responder) :
    path.responders.get? id = some responder := by
  unfold Path.getResponder at found
  grind

/-- Dropping a client is calm, up to its removal from the path. -/
theorem dropClient_effects {origin : Server} (victim : ClientRef) (code : CloseCode)
    (present : server.system.stage victim ≠ .absent) :
    Effects origin action moves server (server.dropClient victim code) := by
  have calm : Calm moves server (server.drop victim code) := .drop server victim code
  have stepped : (server.drop victim code).system.step (.drop victim) =
      some (server.system.dropClient victim) := if_neg present
  exact calm.effects.tail (.path stepped trivial (by simp [Types]))

theorem initiatorReceive_effects (consistent : server.system.Consistent)
    (awaiting : server.handler ref = .awaitingResult)
    (waiting : (server.tasks ref).receiveLoop = .start)
    (typed : (server.system.client ref).type = some .initiator) (input : Received) :
    Effects server (.receive ref input) moves server (server.initiatorReceive ref input) := by
  unfold Server.initiatorReceive
  split
  · next destination packet =>
    split
    · exact setReceiveLoop_effects rfl
    · split
      · exact relayMessage_effects none packet rfl (by simp)
      · exact setReceiveLoop_effects rfl
      · next responder found =>
        apply relayMessage_effects (some responder) packet rfl
        intro target same
        injection same with same
        subst same
        rw [takesRelay, if_pos ⟨awaiting, waiting⟩]
        simp only [relayDestination, if_true, *]
        exact getResponder_ok found
  · split
    · exact .refl
    · exact setReceiveLoop_effects rfl
    · next responder found =>
      have established := (consistent.responder _ _ (getResponder_ok found)).1
      exact dropClient_effects responder _ (by simp [established])
  · exact setReceiveLoop_effects rfl
  · exact setReceiveLoop_effects rfl

theorem responderReceive_effects (awaiting : server.handler ref = .awaitingResult)
    (waiting : (server.tasks ref).receiveLoop = .start)
    (typed : (server.system.client ref).type ≠ some .initiator) (input : Received) :
    Effects server (.receive ref input) moves server (server.responderReceive ref input) := by
  unfold Server.responderReceive
  split
  · next destination packet =>
    split
    · exact relayMessage_effects none packet rfl (by simp)
    · exact setReceiveLoop_effects rfl
    · next initiator found =>
      apply relayMessage_effects (some initiator) packet rfl
      intro target same
      injection same with same
      subst same
      rw [takesRelay, if_pos ⟨awaiting, waiting⟩, relayDestination, if_neg typed]
      exact getInitiator_ok found
  · exact setReceiveLoop_effects rfl
  · exact setReceiveLoop_effects rfl

end ReceiveLoop

section Leaving

variable {origin server : Server} {action : Action} {moves : ClientRef → Prop} {ref : ClientRef}

theorem leave_effects (mover : moves ref) (stage : server.system.stage ref = .handshaking ∨
      server.system.stage ref = .established) (gathered : server.Gathered ref)
    (result : PyException) : Effects origin action moves server (server.leave ref result) := by
  have cancelled : Calm moves server (server.cancelJobs ref result).1 :=
    .cancelJobs server result (.inl mover)
  have extension : server.loop.Extends (fun _ => False) (server.jobs ref).Refers
      (server.cancelJobs ref result).1.loop :=
    (server.jobs ref).cancel_extends server.loop result
  have stillGathered : (server.cancelJobs ref result).1.Gathered ref := by
    intro ids gathering id mem
    rw [extension.ready_eq]
    exact gathered ids gathering id mem
  have system : (server.cancelJobs ref result).1.system = server.system := rfl
  unfold Server.leave
  split
  · next after raised called =>
    rw [called] at cancelled stillGathered
    exact (cancelled.trans (.handleException after raised mover stillGathered)).effects
  · next after called =>
    rw [called] at cancelled stillGathered system
    change after.system = server.system at system
    have left : after.system.step (.leave ref) = some (after.system.leave ref) := by
      rw [system]
      exact if_pos stage
    refine cancelled.effects.trans (.head (.path left mover (by simp [Types])) ?_)
    dsimp only
    split
    · have cleaned : (after.system.leave ref).step .clean = some (after.system.leave ref).clean :=
        rfl
      refine .head (.path cleaned trivial (by simp [Types]))
        (.single (.calm (.handleException _ result mover ?_)))
      exact stillGathered
    · refine .single (.calm (.handleException _ result mover ?_))
      exact stillGathered

theorem dispatch_effects (mover : moves ref) {closing : Option TaskId}
    (joined : server.handler ref = .joined closing) :
    Effects server (.dispatch ref) moves server (server.dispatch ref closing) := by
  have gathered : server.Gathered ref := by simp [Gathered, joined]
  have skipped : Effects server (.dispatch ref) moves server (server.setHandler ref (.closing closing)) :=
    (Calm.setHandler server mover (by simp) gathered).effects
  unfold Server.dispatch
  dsimp only
  split
  · exact skipped
  · next present =>
    have authenticated : (server.system.client ref).state = .authenticated := by
      by_contra other
      exact present (.inr other)
    split
    · next typed =>
      split
      · exact (Calm.setHandler server mover (by simp) gathered).effects
      · rcases gathers : server.gather (server.toResponders fun id =>
          .disconnected id.toAddress initiatorAddress) with ⟨after, ids⟩
        have effect : Effect server (.dispatch ref) moves server _ :=
          .disconnectedInitiator mover rfl typed authenticated joined gathers
        cases ids with
        | nil =>
            refine .head effect (Calm.setHandler _ mover (by simp) ?_).effects
            rw [if_pos rfl, (gather_eq gathers).1]
            simp [Gathered, joined]
        | cons id ids => exact .single effect
    · next typed =>
      split
      · exact skipped
      · exact (Calm.setHandler server mover (by simp) gathered).effects
      · next initiator found =>
        have effect : Effect server (.dispatch ref) moves server _ :=
          .disconnectedResponder rfl typed authenticated joined (getInitiator_ok found)
        refine .head effect (Calm.setHandler _ mover (by simp) ?_).effects
        simp [Gathered, joined]
    · exact skipped

end Leaving

section Tasks

variable {origin server after : Server} {action : Action} {moves : ClientRef → Prop}

theorem pop_of_ready {loop : Loop} {id : TaskId} {rest : List TaskId}
    (ready : loop.ready = id :: rest) : { loop with ready := rest } = loop.pop := by
  simp [EventLoop.pop, ready]

theorem taskStart_effects (stepped : server.taskStart = some after) :
    Effects origin .taskStart moves server after := by
  unfold Server.taskStart at stepped
  split at stepped
  · contradiction
  · next id rest ready =>
    rw [pop_of_ready ready] at stepped
    dsimp only at stepped
    split at stepped
    · next cancelled =>
      injection stepped with same
      subst same
      exact .single (.startEnded rfl ready (.cancelled cancelled))
    · next alive =>
      split at stepped
      · next ref message number body =>
        split at stepped
        · next csn exception failed =>
          injection stepped with same
          subst same
          have counted : Calm moves server
              { server with csnOut := Function.update server.csnOut ref csn } := calm_csnOut _
          obtain ⟨server_, error, rfl⟩ := OutgoingMessage.pack_error failed
          exact counted.effects.tail (.startEnded rfl ready
            (.failed error (Bool.eq_false_of_not_eq_true alive) body server_))
        · next csn _ _ =>
          injection stepped with same
          subst same
          have counted : Calm moves server
              { server with csnOut := Function.update server.csnOut ref csn } := calm_csnOut _
          exact counted.effects.tail (.handed rfl ready (Bool.eq_false_of_not_eq_true alive) body)
      · next ref code body =>
        injection stepped with same
        subst same
        let started := server.startHead id .suspended
        have closed : Calm moves started (started.closeJobs ref code.value) := .closeJobs started ref _
        have closing : Calm moves (started.closeJobs ref code.value)
            { started.closeJobs ref code.value with
              connection := Function.update started.connection ref
                { started.connection ref with closing := true } } :=
          .of_same rfl rfl rfl rfl rfl (Finset.Subset.refl _) fun _ _ found => found
        refine .head (.startClosing rfl ready body) (Calm.effects (closed.trans (closing.trans ?_)))
        exact .log _ trivial
      · next ref message body =>
        injection stepped with same
        subst same
        refine .single ?_
        have effect : Effect origin .taskStart moves server _ := .enqueued rfl ready body
        rw [submit_eq] at effect ⊢
        exact effect

theorem taskSent_effects {id : TaskId} (stepped : server.taskSent id = some after) :
    Effects server (.taskSent id) moves server after := by
  unfold Server.taskSent at stepped
  split at stepped
  · split at stepped
    · next resumable =>
      obtain ⟨suspended, kept⟩ := resumable
      injection stepped with same
      subst same
      exact .single (.ended rfl suspended (.finished kept))
    · contradiction
  · contradiction

theorem taskSendClosed_effects {id : TaskId} {code : Nat}
    (stepped : server.taskSendClosed id code = some after) :
    Effects server (.taskSendClosed id code) moves server after := by
  unfold Server.taskSendClosed at stepped
  split at stepped
  · next ref _ _ body =>
    split at stepped
    · next resumable =>
      obtain ⟨⟨suspended, _⟩, lost⟩ := resumable
      injection stepped with same
      subst same
      have closed : Calm moves server (server.closeJobs ref code) := .closeJobs server ref code
      exact closed.effects.tail (.ended rfl suspended (.failed code body lost))
    · contradiction
  · contradiction

theorem taskClosed_effects {id : TaskId} (stepped : server.taskClosed id = some after) :
    Effects server (.taskClosed id) moves server after := by
  unfold Server.taskClosed at stepped
  split at stepped
  · next ref code _ =>
    split at stepped
    · next resumable =>
      obtain ⟨suspended, kept⟩ := resumable
      injection stepped with same
      subst same
      have lost : Calm moves server { server with
          connection := Function.update server.connection ref
            { server.connection ref with
              lost := some ((server.connection ref).lost.getD code.value) } } :=
        .of_same rfl rfl rfl rfl rfl (Finset.Subset.refl _) fun _ _ found => found
      exact lost.effects.tail (.ended rfl suspended (.finished kept))
    · contradiction
  · contradiction

theorem taskCancelled_effects {id : TaskId} (stepped : server.taskCancelled id = some after) :
    Effects server (.taskCancelled id) moves server after := by
  unfold Server.taskCancelled at stepped
  split at stepped
  · next cancelled =>
    injection stepped with same
    subst same
    exact .single (.ended rfl cancelled.1 (.cancelled cancelled.2))
  · contradiction

end Tasks

section Workers

variable {origin server after : Server} {action : Action} {moves : ClientRef → Prop} {ref : ClientRef}

/-- A relay task that the receive loop waits for may be cancelled. -/
theorem requestCancel_calm {id : TaskId}
    (waits : (server.tasks ref).receiveLoop.status.task? = some id) :
    Calm moves server { server with loop := server.loop.requestCancel id } :=
  .setLoop server (.requestCancel ⟨ref, .inr waits⟩)

theorem relayed_effects (stepped : server.relayed ref = some after) :
    Effects origin action moves server after := by
  unfold Server.relayed at stepped
  split at stepped
  · split at stepped
    · injection stepped with same
      subst same
      exact setReceiveLoop_effects rfl
    · split at stepped
      · injection stepped with same
        subst same
        exact setReceiveLoop_effects rfl
      · injection stepped with same
        subst same
        exact sendError_effects _
    · injection stepped with same
      subst same
      exact sendError_effects _
    · contradiction
  · contradiction

theorem relayTimeout_effects (stepped : server.relayTimeout ref = some after) :
    Effects origin action moves server after := by
  unfold Server.relayTimeout at stepped
  split at stepped
  · next id packet waits =>
    split at stepped
    · injection stepped with same
      subst same
      have task : (server.tasks ref).receiveLoop.status.task? = some id := by
        rw [waits]
        rfl
      have calm : Calm moves server _ := requestCancel_calm task
      refine (calm.trans (.setReceiveLoop _ ref (.inr ?_))).effects
      exact task.symm
    · contradiction
  · contradiction

theorem relayExpired_effects (stepped : server.relayExpired ref = some after) :
    Effects origin action moves server after := by
  unfold Server.relayExpired at stepped
  split at stepped
  · split at stepped
    · injection stepped with same
      subst same
      exact sendError_effects _
    · contradiction
  · contradiction

theorem giveUpRelay_effects {id : TaskId} {packet : List UInt8}
    (waits : (server.tasks ref).receiveLoop.status.task? = some id)
    (stepped : (if id ∈ server.loop.ready then none
      else
        let server := { server with loop := server.loop.requestCancel id }
        if (server.tasks ref).haveResult then
          some (server.setReceiveLoop ref (.ended .cancelledError))
        else
          some ((server.setTasks ref { server.tasks ref with
            receiveLoop := ⟨.waiting, false⟩ }).sendError ref packet)) = some after) :
    Effects origin action moves server after := by
  have calm : Calm moves server _ := requestCancel_calm waits
  split at stepped
  · contradiction
  · dsimp only at stepped
    split at stepped
    · injection stepped with same
      subst same
      exact calm.effects.trans (setReceiveLoop_effects rfl)
    · injection stepped with same
      subst same
      have resumed : Calm moves { server with loop := server.loop.requestCancel id }
          ({ server with loop := server.loop.requestCancel id }.setTasks ref
            { server.tasks ref with receiveLoop := ⟨.waiting, false⟩ }) :=
        .setTasks _ ref (.inl rfl)
      exact (calm.trans resumed).effects.trans (sendError_effects _)

theorem loopCancelled_effects (stepped : server.loopCancelled ref = some after) :
    Effects origin action moves server after := by
  unfold Server.loopCancelled at stepped
  split at stepped
  · injection stepped with same
    subst same
    exact setReceiveLoop_effects rfl
  · next id packet waits =>
    exact giveUpRelay_effects (by rw [waits]; rfl) stepped
  · next id packet waits =>
    exact giveUpRelay_effects (by rw [waits]; rfl) stepped
  · contradiction

end Workers

section Step

variable {server after : Server} {moves : ClientRef → Prop} {ref : ClientRef}

theorem idle_closeJobs {other victim : ClientRef} (idle : (server.jobs other).Idle) (code : Nat) :
    ((server.closeJobs victim code).jobs other).Idle := by
  by_cases same : other = victim
  · subst same
    simp only [Server.closeJobs, Server.setJobs, Function.update_self, JobQueue.close_eq]
    split
    · exact ⟨idle.notStarted, .inr rfl⟩
    · exact idle
  · simpa [Server.closeJobs, Server.setJobs, same] using idle

theorem gathered_of_phase {phase : Handler} (current : server.handler ref = phase)
    (notGathering : ∀ ids, phase ≠ .gathering ids) : server.Gathered ref := by
  intro ids gathering
  exact absurd (current.symm.trans gathering) (notGathering ids)

theorem gathered_of_done (wellFormed : server.loop.WellFormed) {ids : List TaskId}
    (gathering : server.handler ref = .gathering ids)
    (done : ids.all server.loop.isDone = true) : server.Gathered ref := by
  intro others same id mem ready
  obtain rfl : ids = others := by
    rw [gathering] at same
    injection same
  have isDone := List.all_eq_true.mp done id mem
  unfold EventLoop.isDone at isDone
  rw [wellFormed.ready_unstarted ready] at isDone
  contradiction

theorem setHandler_effects {origin : Server} {action : Action} {next : Handler}
    (mover : moves ref) (gathered : server.Gathered ref) (notSending : next ≠ .sendingAuth) :
    Effects origin action moves server (server.setHandler ref next) :=
  (Calm.setHandler server mover notSending gathered).effects

theorem begin_effects (mover : moves ref) (phase : server.Phase ref)
    (stepped : server.step (.begin ref) = some after) :
    Effects server (.begin ref) moves server after := by
  simp only [step] at stepped
  split at stepped
  · next created =>
    injection stepped with same
    subst same
    unfold Phase at phase
    rw [created] at phase
    have gathered : server.Gathered ref := gathered_of_phase created (by simp)
    unfold Server.send
    split
    · next csn exception _ =>
      have counted : Calm moves server
          { server with csnOut := Function.update server.csnOut ref csn } := calm_csnOut _
      exact (counted.trans (.abort _ exception mover gathered phase.2)).effects
    · next csn _ _ =>
      have counted : Calm moves server
          { server with csnOut := Function.update server.csnOut ref csn } := calm_csnOut _
      exact counted.effects.tail (.greeted mover phase.1 created)
  · contradiction

theorem sent_effects (mover : moves ref) (stepped : server.step (.sent ref) = some after) :
    Effects server (.sent ref) moves server after := by
  simp only [step] at stepped
  split at stepped
  · next greeting =>
    injection stepped with same
    subst same
    exact setHandler_effects mover (gathered_of_phase greeting (by simp)) (by simp)
  · next sending =>
    injection stepped with same
    subst same
    exact (Calm.completeHandshake server mover sending).effects
  · contradiction

theorem sendClosed_effects {code : Nat} (mover : moves ref) (phase : server.Phase ref)
    (stepped : server.step (.sendClosed ref code) = some after) :
    Effects server (.sendClosed ref code) moves server after := by
  simp only [step] at stepped
  split at stepped
  · next closed =>
    obtain ⟨sending, _⟩ := closed
    injection stepped with same
    subst same
    have idle : (server.jobs ref).Idle := by
      unfold Phase at phase
      rcases sending with greeting | authenticating
      · rw [greeting] at phase
        exact phase.2
      · rw [authenticating] at phase
        exact phase.2
    have gathered : server.Gathered ref :=
      sending.elim (gathered_of_phase · (by simp)) (gathered_of_phase · (by simp))
    have calm : Calm moves server (server.closeJobs ref code) := .closeJobs server ref code
    exact (calm.trans (.abort _ _ mover gathered (idle_closeJobs idle code))).effects
  · contradiction

theorem receive_effects {input : Received}
    (mover : server.handler ref ≠ .awaitingResult → moves ref) (consistent : server.system.Consistent)
    (phase : server.Phase ref) (stepped : server.receive ref input = some after) :
    Effects server (.receive ref input) moves server after := by
  unfold Server.receive at stepped
  unfold Phase at phase
  split at stepped
  · next receiving =>
    rw [receiving] at phase
    injection stepped with same
    subst same
    exact receiveFirst_effects (mover (by simp [receiving])) phase.1 receiving phase.2 consistent
      input receiving
  · next receiving =>
    rw [receiving] at phase
    injection stepped with same
    subst same
    exact receiveAuth_effects (mover (by simp [receiving])) phase.1 receiving phase.2 consistent
      input receiving
  · next awaiting =>
    split at stepped
    · next waiting =>
      split at stepped
      · next typed =>
        injection stepped with same
        subst same
        exact initiatorReceive_effects consistent awaiting waiting typed input
      · next typed =>
        injection stepped with same
        subst same
        exact responderReceive_effects awaiting waiting typed input
    · contradiction
  · contradiction

theorem receiveClosed_effects {origin : Server} {action : Action} {code : Nat}
    (mover : server.handler ref ≠ .awaitingResult → moves ref) (phase : server.Phase ref)
    (stepped : server.receiveClosed ref code = some after) :
    Effects origin action moves server after := by
  have calm : Calm moves server (server.closeJobs ref code) := .closeJobs server ref code
  unfold Server.receiveClosed at stepped
  unfold Phase at phase
  split at stepped
  · split at stepped
    · next receiving =>
      rw [receiving] at phase
      injection stepped with same
      subst same
      have gathered : server.Gathered ref := gathered_of_phase receiving (by simp)
      exact (calm.trans (.abort _ _ (mover (by simp [receiving])) gathered
        (idle_closeJobs phase.2 code))).effects
    · next receiving =>
      rw [receiving] at phase
      injection stepped with same
      subst same
      have gathered : server.Gathered ref := gathered_of_phase receiving (by simp)
      exact (calm.trans (.abort _ _ (mover (by simp [receiving])) gathered
        (idle_closeJobs phase.2 code))).effects
    · split at stepped
      · injection stepped with same
        subst same
        exact (calm.trans (.setReceiveLoop _ ref (.inl rfl))).effects
      · contradiction
    · contradiction
  · contradiction

theorem join_effects {origin : Server} {action : Action} {closing : Option TaskId}
    (mover : moves ref) (joining : server.handler ref = .joining closing)
    (stepped : server.join ref closing = some after) : Effects origin action moves server after := by
  have gathered : server.Gathered ref := gathered_of_phase joining (by simp)
  unfold Server.join at stepped
  split at stepped
  · injection stepped with same
    subst same
    exact setHandler_effects mover gathered (by simp)
  · injection stepped with same
    subst same
    exact setHandler_effects mover gathered (by simp)
  · split at stepped
    · injection stepped with same
      subst same
      exact setHandler_effects mover gathered (by simp)
    · contradiction
  · contradiction

theorem joinTimeout_effects {origin : Server} {action : Action} {closing : Option TaskId}
    (mover : moves ref) (joining : server.handler ref = .joining closing) :
    Effects origin action moves server (server.joinTimeout ref closing) := by
  have gathered : server.Gathered ref := gathered_of_phase joining (by simp)
  have moved : Calm moves server (server.setHandler ref (.cancellingJoin closing)) :=
    .setHandler server mover (by simp) gathered
  unfold Server.joinTimeout
  dsimp only
  split
  · next getting =>
    have stopped : (server.jobs ref).Shrinks { server.jobs ref with runner := .finished } := by
      refine ⟨fun opened => opened, .refl _, ?_⟩
      unfold JobQueue.Refers
      tauto
    refine (moved.trans (.setRunning _ stopped ?_)).effects
    change (server.jobs ref).runner = .getting at getting
    change (server.jobs ref).runner ≠ .notStarted
    simp [getting]
  · next id awaiting =>
    refine (moved.trans (.setLoop _ (.requestCancel ⟨ref, .inl ?_⟩))).effects
    exact .inr (.inr (.inl awaiting))
  · exact moved.effects

theorem joinCancelled_calm {closing : Option TaskId} (mover : moves ref)
    (cancelling : server.handler ref = .cancellingJoin closing) :
    Calm moves server
      (({ server with loop := ((server.jobs ref).cancelAll server.loop).state.2 }.setJobs ref
        ((server.jobs ref).cancelAll server.loop).state.1).setHandler ref (.joined closing)) := by
  have moved : Calm moves server (server.setHandler ref (.joined closing)) :=
    .setHandler server mover (by simp) (gathered_of_phase cancelling (by simp))
  have extension : (server.setHandler ref (.joined closing)).loop.Extends TaskBody.IsClose
      (fun id => ∃ other, (server.setHandler ref (.joined closing)).Refers other id)
      ((server.jobs ref).cancelAll server.loop).state.2 :=
    ((server.jobs ref).cancelAll_extends server.loop).mono (fun _ => id)
      fun id refers => ⟨ref, .inl refers⟩
  refine (moved.trans (.setLoop _ extension)).trans (.setJobs _ ref ?_ ?_ ?_)
  · exact (server.jobs ref).cancelAll_shrinks server.loop
  · exact fun still => absurd mover still
  · rw [JobQueue.cancelAll_runner]
    exact .inl

theorem finish_effects {origin : Server} {action : Action} {closing : Option TaskId}
    (mover : moves ref) (isClosing : server.handler ref = .closing closing)
    (stepped : server.finish ref closing = some after) : Effects origin action moves server after := by
  have gathered : server.Gathered ref := gathered_of_phase isClosing (by simp)
  have unregistered : Calm moves server
      { server with protocols := server.protocols.erase ref } :=
    .of_same rfl rfl rfl rfl rfl (Finset.erase_subset _ _) fun _ _ found => found
  have finished : Effects origin action moves server
      ({ server with protocols := server.protocols.erase ref }.setHandler ref .finished) :=
    (unregistered.trans (.setHandler _ mover (by simp) gathered)).effects
  unfold Server.finish at stepped
  split at stepped
  · injection stepped with same
    subst same
    exact finished
  · split at stepped
    · injection stepped with same
      subst same
      exact finished
    · injection stepped with same
      subst same
      exact setHandler_effects mover gathered (by simp)
    · injection stepped with same
      subst same
      exact setHandler_effects mover gathered (by simp)
    · contradiction

theorem runnerGet_effects {origin : Server} {action : Action}
    (stepped : server.runnerGet ref = some after) : Effects origin action moves server after := by
  cases queue : (server.jobs ref).queue with
  | nil => exact (runnerGet_calm stepped (by simp [queue])).effects
  | cons entry rest =>
      cases entry with
      | final result => exact (runnerGet_calm stepped (by simp [queue])).effects
      | job job =>
          cases job with
          | task id => exact (runnerGet_calm stepped (by simp [queue])).effects
          | coroutine coroutine =>
              unfold Server.runnerGet at stepped
              rw [queue] at stepped
              cases running : (server.jobs ref).runner with
              | getting =>
                  simp only [running] at stepped
                  injection stepped with same
                  subst same
                  exact .single (.take running queue)
              | _ => simp [running] at stepped

theorem loopReported_calm (stepped : server.loopReported ref = some after) :
    Calm moves server after := by
  unfold Server.loopReported at stepped
  split at stepped
  · injection stepped with same
    subst same
    have reported : Calm moves server (server.setReceiveLoop ref .reported) :=
      .setReceiveLoop server ref (.inl rfl)
    exact reported.trans (.setTasks _ ref (.inr (by simp)))
  · contradiction

theorem keepAliveReported_calm (stepped : server.keepAliveReported ref = some after) :
    Calm moves server after := by
  unfold Server.keepAliveReported at stepped
  split at stepped
  · injection stepped with same
    subst same
    have reported : Calm moves server (server.setKeepAlive ref .reported) :=
      .setKeepAlive server ref _
    exact reported.trans (.setTasks _ ref (.inr (by simp)))
  · contradiction

theorem gathered_effects (mover : moves ref) (wellFormed : server.loop.WellFormed)
    (phase : server.Phase ref) (stepped : server.step (.gathered ref) = some after) :
    Effects server (.gathered ref) moves server after := by
  simp only [step] at stepped
  split at stepped
  · next ids gathering =>
    split at stepped
    · next done =>
      injection stepped with same
      subst same
      unfold Phase at phase
      rw [gathering] at phase
      exact sendInitiatorAuth_effects mover phase.1 (gathered_of_done wellFormed gathering done) phase.2
    · contradiction
  · contradiction

/-- The client whose handler gets on in an action. -/
def MovedBy (server : Server) (action : Action) (other : ClientRef) : Prop :=
  match action with
  | .connect ref _ | .begin ref | .sent ref | .sendClosed ref _ | .gathered ref | .result ref
  | .join ref | .joinTimeout ref | .joinCancelled ref | .dispatch ref | .dispatched ref
  | .finish ref => other = ref
  | .receive ref _ | .receiveClosed ref _ => other = ref ∧ server.handler ref ≠ .awaitingResult
  | _ => False

/-- Every step is a sequence of effects. -/
theorem step_effects {action : Action} (consistent : server.system.Consistent)
    (wellFormed : server.loop.WellFormed) (phase : ∀ ref, server.Phase ref)
    (stepped : server.step action = some after) :
    Effects server action (server.MovedBy action) server after := by
  cases action with
  | connect ref csn => exact .single (.connect rfl stepped)
  | begin ref => exact begin_effects rfl (phase ref) stepped
  | sent ref => exact sent_effects rfl stepped
  | sendClosed ref code => exact sendClosed_effects rfl (phase ref) stepped
  | receive ref input =>
      exact receive_effects (fun notAwaiting => ⟨rfl, notAwaiting⟩) consistent (phase ref) stepped
  | receiveClosed ref code =>
      exact receiveClosed_effects (fun notAwaiting => ⟨rfl, notAwaiting⟩) (phase ref) stepped
  | gathered ref => exact gathered_effects rfl wellFormed (phase ref) stepped
  | result ref =>
      simp only [step] at stepped
      split at stepped
      · next result awaiting _ =>
        injection stepped with same
        subst same
        have placed := phase ref
        unfold Phase at placed
        rw [awaiting] at placed
        have mover : server.MovedBy (.result ref) ref := rfl
        exact leave_effects mover placed (gathered_of_phase awaiting (by simp)) result
      · contradiction
  | join ref =>
      simp only [step] at stepped
      split at stepped
      · next closing joining => exact join_effects rfl joining stepped
      · contradiction
  | joinTimeout ref =>
      simp only [step] at stepped
      split at stepped
      · next closing joining =>
        split at stepped
        · contradiction
        · injection stepped with same
          subst same
          exact joinTimeout_effects rfl joining
      · contradiction
  | joinCancelled ref =>
      simp only [step] at stepped
      split at stepped
      · next closing cancelling =>
        injection stepped with same
        subst same
        have mover : server.MovedBy (.joinCancelled ref) ref := rfl
        exact (joinCancelled_calm mover cancelling).effects
      · contradiction
  | dispatch ref =>
      simp only [step] at stepped
      split at stepped
      · next closing joined =>
        injection stepped with same
        subst same
        have mover : server.MovedBy (.dispatch ref) ref := rfl
        exact dispatch_effects mover joined
      · contradiction
  | dispatched ref =>
      simp only [step] at stepped
      split at stepped
      · next closing ids dispatching =>
        split at stepped
        · injection stepped with same
          subst same
          exact setHandler_effects rfl (gathered_of_phase dispatching (by simp)) (by simp)
        · contradiction
      · contradiction
  | finish ref =>
      simp only [step] at stepped
      split at stepped
      · next closing isClosing => exact finish_effects rfl isClosing stepped
      · contradiction
  | runnerGet ref => exact runnerGet_effects stepped
  | runnerWake ref => exact (runnerWake_calm stepped).effects
  | jobDone ref id => exact (jobDone_calm stepped).effects
  | taskStart => exact taskStart_effects stepped
  | taskSent id => exact taskSent_effects stepped
  | taskSendClosed id code => exact taskSendClosed_effects stepped
  | taskClosed id => exact taskClosed_effects stepped
  | taskCancelled id => exact taskCancelled_effects stepped
  | relayed ref => exact relayed_effects stepped
  | relayTimeout ref => exact relayTimeout_effects stepped
  | relayExpired ref => exact relayExpired_effects stepped
  | loopCancelled ref => exact loopCancelled_effects stepped
  | loopReported ref => exact (loopReported_calm stepped).effects
  | pingTimeout ref =>
      simp only [step, pingTimeout] at stepped
      split at stepped
      · injection stepped with same
        subst same
        exact .single (.calm (.setKeepAlive server ref _))
      · contradiction
  | pingClosed ref code =>
      simp only [step, pingClosed] at stepped
      split at stepped
      · injection stepped with same
        subst same
        exact .single (.calm (.trans (.closeJobs server ref code) (.setKeepAlive _ ref _)))
      · contradiction
  | keepAliveCancelled ref =>
      simp only [step, keepAliveCancelled] at stepped
      split at stepped
      · injection stepped with same
        subst same
        exact .single (.calm (.setKeepAlive server ref _))
      · contradiction
  | keepAliveReported ref => exact (keepAliveReported_calm stepped).effects
  | connectionLost ref code =>
      simp only [step] at stepped
      split at stepped
      · injection stepped with same
        subst same
        exact .single (.calm (.of_same rfl rfl rfl rfl rfl (Finset.Subset.refl _)
          fun _ _ found => found))
      · contradiction
  | closeProtocol ref =>
      simp only [step] at stepped
      split at stepped
      · next registered =>
        injection stepped with same
        subst same
        apply dropClient_effects ref _
        intro absent
        have placed := phase ref
        unfold Phase at placed
        split at placed <;> simp_all
      · contradiction

end Step

end Server

end SaltyRtcServer
