import Mathlib.Data.Finset.Basic
import SaltyRtcServer.StepMachine

/-!
# The WebSocket server

The connections of a `WebSocketServer`, from the TCP connection to the end of
their handler tasks, and the task that closes the server.  Every connection is
registered before its handler task is created and unregistered when this task
ends.  What the parser of requests, the checks of the headers and the closing
handshake do is left open.
-/

namespace SaltyRtcServer

open StepMachine

abbrev ConnectionId := Nat

/-- The request line and the headers of a request, whose names are in lower case. -/
structure UpgradeRequest where
  path : String
  headers : List (String × List String)
  deriving DecidableEq

namespace UpgradeRequest

/-- `headers.get_all(name)`. -/
def getAll (request : UpgradeRequest) (name : String) : List String :=
  (request.headers.lookup name).getD []

/-- A deletion request of Splice, which cuts the opening handshake short. -/
def isDeletion (request : UpgradeRequest) : Bool :=
  request.path == "SPLICE" && (request.headers.lookup "taints").isSome

end UpgradeRequest

/-- What the opening handshake raises, as far as `handler` distinguishes it. -/
inductive HandshakeError
  | connectionError
  | abortHandshake (status : Nat)
  | invalidOrigin (origin : Option String)
  | invalidUpgrade
  | invalidHandshake
  | other
  deriving DecidableEq

/-- The status of the response to a failed handshake; a connection that is lost gets none. -/
def HandshakeError.status : HandshakeError → Option Nat
  | .connectionError => none
  | .abortHandshake status => some status
  | .invalidOrigin _ => some 403
  | .invalidUpgrade => some 426
  | .invalidHandshake => some 400
  | .other => some 500

/-- `process_origin`. -/
def processOrigin (request : UpgradeRequest) (origins : Option (List (Option String))) :
    Except HandshakeError (Option String) :=
  match request.getAll "origin" with
  | _ :: _ :: _ => .error .invalidHandshake
  | values =>
      match origins with
      | none => .ok values.head?
      | some origins =>
          if values.head? ∈ origins then .ok values.head? else .error (.invalidOrigin values.head?)

/-- What `process_request` returns or raises. -/
inductive HookResult
  | continue
  | respond (status : Nat)
  | raise (error : HandshakeError)
  deriving DecidableEq

/-- Where the handler task of a connection is suspended. -/
inductive HandlerTask
  | absent
  | readingRequest
  | processingRequest (request : UpgradeRequest)
  /-- the response of a refusal is written; `wait_closed` -/
  | refused (status : Nat)
  /-- `ws_handler` is running, for a path or for a deletion request -/
  | serving (request : UpgradeRequest) (deletion : Bool)
  | closing
  | ended
  deriving DecidableEq

namespace HandlerTask

def running : HandlerTask → Bool
  | .absent | .ended => false
  | _ => true

/-- The opening handshake is complete and the connection is not being closed by its
handler. -/
def isOpen : HandlerTask → Bool
  | .serving _ deletion => !deletion
  | _ => false

theorem running_of_isOpen {task : HandlerTask} (isOpen : task.isOpen = true) :
    task.running = true := by
  cases task <;> first | rfl | contradiction

end HandlerTask

/-- Where `_close` is suspended. -/
inductive Closer
  | absent
  | created
  | closingListener
  | yielding
  | closingConnections (waiting : Finset ConnectionId)
  | joiningHandlers (waiting : Finset ConnectionId)
  | finished
  deriving DecidableEq

/-- The snapshot of the connections was taken. -/
def Closer.pastSnapshot : Closer → Bool
  | .closingConnections _ | .joiningHandlers _ | .finished => true
  | _ => false

structure WebSocketServer where
  /-- `is_serving` of the listening server -/
  serving : Bool
  /-- TCP connections that were accepted, while `connection_made` was not called yet -/
  accepted : Finset ConnectionId
  websockets : Finset ConnectionId
  task : ConnectionId → HandlerTask
  /-- the connections that `close(1001)` was called for -/
  goingAway : Finset ConnectionId
  closer : Closer

namespace WebSocketServer

/-- The checks of a request, in their order. -/
structure Settings where
  /-- `check_request` -/
  checkRequest : UpgradeRequest → Option HandshakeError
  origins : Option (List (Option String))
  /-- `process_extensions` and `process_subprotocol` -/
  negotiate : UpgradeRequest → Option HandshakeError

variable (settings : Settings)

inductive Action
  | accept (id : ConnectionId)
  | connectionMade (id : ConnectionId)
  /-- `read_http_request`, which turns every error into `InvalidMessage` -/
  | requestRead (id : ConnectionId) (request : Option UpgradeRequest)
  | requestProcessed (id : ConnectionId) (result : HookResult)
  /-- `wait_closed` of a refused connection is done -/
  | refusalClosed (id : ConnectionId)
  | handlerReturned (id : ConnectionId)
  | handlerRaised (id : ConnectionId)
  /-- the closing handshake is done, or has failed -/
  | closed (id : ConnectionId)
  | close
  /-- the parts of `_close` -/
  | stopListening
  | listenerClosed
  | resumed
  | connectionClosed (id : ConnectionId)
  | connectionsClosed
  | handlersJoined
  deriving DecidableEq

def setTask (server : WebSocketServer) (id : ConnectionId) (task : HandlerTask) :
    WebSocketServer :=
  { server with task := Function.update server.task id task }

/-- The end of `handler`: `self.ws_server.unregister(self)`. -/
def finishTask (server : WebSocketServer) (id : ConnectionId) : WebSocketServer :=
  { server with websockets := server.websockets.erase id }.setTask id .ended

/-- The `except` clauses of `handler` around the handshake. -/
def refuse (server : WebSocketServer) (id : ConnectionId) (error : HandshakeError) :
    WebSocketServer :=
  match error.status with
  | some status => server.setTask id (.refused status)
  | none => server.finishTask id

/-- The rest of the opening handshake after `process_request`. -/
def openingError (server : WebSocketServer) (request : UpgradeRequest) : HookResult →
    Option HandshakeError
  | .raise error => some error
  | .respond status => some (.abortHandshake (if server.serving then status else 503))
  | .continue =>
      if server.serving then
        match settings.checkRequest request with
        | some error => some error
        | none =>
            match processOrigin request settings.origins with
            | .error error => some error
            | .ok _ => settings.negotiate request
      else some (.abortHandshake 503)

/-- `_close` waits for the handler tasks of the connections that are left, if there are any. -/
def joinHandlers (server : WebSocketServer) : WebSocketServer :=
  { server with
    closer := if server.websockets = ∅ then .finished else .joiningHandlers server.websockets }

def step (server : WebSocketServer) : Action → Option WebSocketServer
  | .accept id =>
      if server.serving ∧ id ∉ server.accepted ∧ server.task id = .absent then
        some { server with accepted := insert id server.accepted }
      else none
  | .connectionMade id =>
      if id ∈ server.accepted then
        some ({ server with
          accepted := server.accepted.erase id
          websockets := insert id server.websockets }.setTask id .readingRequest)
      else none
  | .requestRead id result =>
      if server.task id = .readingRequest then
        match result with
        | none => some (server.refuse id .invalidHandshake)
        | some request =>
            if request.isDeletion then some (server.setTask id (.serving request true))
            else some (server.setTask id (.processingRequest request))
      else none
  | .requestProcessed id result =>
      match server.task id with
      | .processingRequest request =>
          match openingError settings server request result with
          | some error => some (server.refuse id error)
          | none => some (server.setTask id (.serving request false))
      | _ => none
  | .refusalClosed id =>
      match server.task id with
      | .refused _ => some (server.finishTask id)
      | _ => none
  | .handlerReturned id =>
      match server.task id with
      | .serving _ _ => some (server.setTask id .closing)
      | _ => none
  | .handlerRaised id =>
      match server.task id with
      | .serving _ _ => some (server.finishTask id)
      | _ => none
  | .closed id => if server.task id = .closing then some (server.finishTask id) else none
  | .close => some (if server.closer = .absent then { server with closer := .created } else server)
  | .stopListening =>
      if server.closer = .created then
        some { server with serving := false, closer := .closingListener }
      else none
  | .listenerClosed =>
      if server.closer = .closingListener then some { server with closer := .yielding } else none
  | .resumed =>
      if server.closer = .yielding then
        if server.websockets = ∅ then some server.joinHandlers
        else some { server with
          goingAway := server.goingAway ∪ server.websockets
          closer := .closingConnections server.websockets }
      else none
  | .connectionClosed id =>
      match server.closer with
      | .closingConnections waiting =>
          if id ∈ waiting then some { server with closer := .closingConnections (waiting.erase id) }
          else none
      | _ => none
  | .connectionsClosed =>
      if server.closer = .closingConnections ∅ then some server.joinHandlers else none
  | .handlersJoined =>
      match server.closer with
      | .joiningHandlers waiting =>
          if ∀ id ∈ waiting, server.task id = .ended then some { server with closer := .finished }
          else none
      | _ => none

def created : WebSocketServer := ⟨true, ∅, ∅, fun _ => .absent, ∅, .absent⟩

def machine : Machine WebSocketServer Action := ⟨fun server => server = created, step settings⟩

/-- What `_close` relies on: when it resumes, `connection_made` was called for all connections
that were accepted. -/
def Yields (server : WebSocketServer) (action : Action) : Prop :=
  action = .resumed → server.accepted = ∅

instance (server : WebSocketServer) (action : Action) : Decidable (Yields server action) :=
  inferInstanceAs (Decidable (_ → _))

/-- `ws_handler` runs for requests that have passed all checks, or ask for a deletion. -/
def Admitted (request : UpgradeRequest) (deletion : Bool) : Prop :=
  if deletion then request.isDeletion = true
  else request.isDeletion = false ∧ settings.checkRequest request = none ∧
    (∃ origin, processOrigin request settings.origins = .ok origin) ∧
    settings.negotiate request = none

structure Consistent (server : WebSocketServer) : Prop where
  registered : ∀ id, id ∈ server.websockets ↔ (server.task id).running = true
  unborn : ∀ id ∈ server.accepted, server.task id = .absent
  processing : ∀ id request, server.task id = .processingRequest request →
    request.isDeletion = false
  admitted : ∀ id request deletion, server.task id = .serving request deletion →
    Admitted settings request deletion
  serving : server.serving = true → server.closer = .absent ∨ server.closer = .created
  accepted : server.closer.pastSnapshot = true → server.accepted = ∅
  told : server.closer.pastSnapshot = true → server.websockets ⊆ server.goingAway
  joining : ∀ waiting, server.closer = .joiningHandlers waiting → server.websockets ⊆ waiting
  finished : server.closer = .finished → server.websockets = ∅

theorem task_setTask (server : WebSocketServer) (id other : ConnectionId) (task : HandlerTask) :
    (server.setTask id task).task other = if other = id then task else server.task other :=
  Function.update_apply ..

section Changes

variable {settings} {server : WebSocketServer} {id : ConnectionId} {task : HandlerTask}

/-- A handler task goes on. -/
theorem Consistent.setTask (consistent : Consistent settings server)
    (active : (server.task id).running = true) (runs : task.running = true)
    (processing : ∀ request, task = .processingRequest request → request.isDeletion = false)
    (admitted : ∀ request deletion, task = .serving request deletion →
      Admitted settings request deletion) :
    Consistent settings (server.setTask id task) where
  registered other := by
    rw [task_setTask]
    split
    · next same =>
      subst same
      exact iff_of_true ((consistent.registered other).mpr active) runs
    · exact consistent.registered other
  unborn other mem := by
    rw [task_setTask]
    split
    · next same =>
      have absent := consistent.unborn other mem
      rw [same] at absent
      rw [absent] at active
      contradiction
    · exact consistent.unborn other mem
  processing other request found := by
    rw [task_setTask] at found
    split at found
    · exact processing request found
    · exact consistent.processing other request found
  admitted other request deletion found := by
    rw [task_setTask] at found
    split at found
    · exact admitted request deletion found
    · exact consistent.admitted other request deletion found
  serving := consistent.serving
  accepted := consistent.accepted
  told := consistent.told
  joining := consistent.joining
  finished := consistent.finished

/-- A handler task ends. -/
theorem Consistent.finishTask (consistent : Consistent settings server)
    (active : (server.task id).running = true) : Consistent settings (server.finishTask id) where
  registered other := by
    change other ∈ server.websockets.erase id ↔ ((server.setTask id .ended).task other).running = _
    rw [task_setTask, Finset.mem_erase, consistent.registered]
    split
    · next same => simp [same, HandlerTask.running]
    · next different => simp [different]
  unborn other mem := by
    change (server.setTask id .ended).task other = _
    rw [task_setTask]
    split
    · next same =>
      have absent := consistent.unborn other mem
      rw [same] at absent
      rw [absent] at active
      contradiction
    · exact consistent.unborn other mem
  processing other request found := by
    change (server.setTask id .ended).task other = _ at found
    rw [task_setTask] at found
    split at found
    · contradiction
    · exact consistent.processing other request found
  admitted other request deletion found := by
    change (server.setTask id .ended).task other = _ at found
    rw [task_setTask] at found
    split at found
    · contradiction
    · exact consistent.admitted other request deletion found
  serving := consistent.serving
  accepted := consistent.accepted
  told past := (Finset.erase_subset id _).trans (consistent.told past)
  joining waiting joins := (Finset.erase_subset id _).trans (consistent.joining waiting joins)
  finished ended := Finset.subset_empty.mp ((Finset.erase_subset id _).trans
    (Finset.subset_empty.mpr (consistent.finished ended)))

theorem Consistent.early (consistent : Consistent settings server)
    (accepted : id ∈ server.accepted) : server.closer.pastSnapshot = false := by
  rw [← Bool.not_eq_true]
  intro past
  rw [consistent.accepted past] at accepted
  exact Finset.notMem_empty id accepted

/-- A new connection is registered before its handler task runs. -/
theorem Consistent.connectionMade (consistent : Consistent settings server)
    (accepted : id ∈ server.accepted) :
    Consistent settings ({ server with
      accepted := server.accepted.erase id
      websockets := insert id server.websockets }.setTask id .readingRequest) where
  registered other := by
    rw [task_setTask]
    change other ∈ insert id server.websockets ↔ _
    rw [Finset.mem_insert, consistent.registered]
    split
    · next same => simp [same, HandlerTask.running]
    · next different => simp [different]
  unborn other mem := by
    obtain ⟨different, old⟩ := Finset.mem_erase.mp mem
    rw [task_setTask, if_neg different]
    exact consistent.unborn other old
  processing other request found := by
    rw [task_setTask] at found
    split at found
    · contradiction
    · exact consistent.processing other request found
  admitted other request deletion found := by
    rw [task_setTask] at found
    split at found
    · contradiction
    · exact consistent.admitted other request deletion found
  serving := consistent.serving
  accepted past := absurd (consistent.early accepted) (Bool.not_eq_false _ |>.mpr past)
  told past := absurd (consistent.early accepted) (Bool.not_eq_false _ |>.mpr past)
  joining waiting joins := by
    have early := consistent.early accepted
    rw [show server.closer = _ from joins] at early
    contradiction
  finished ended := by
    have early := consistent.early accepted
    rw [show server.closer = _ from ended] at early
    contradiction

theorem Consistent.refuse (consistent : Consistent settings server)
    (active : (server.task id).running = true) (error : HandshakeError) :
    Consistent settings (server.refuse id error) := by
  unfold WebSocketServer.refuse
  split
  · exact consistent.setTask active rfl nofun nofun
  · exact consistent.finishTask active

/-- The snapshot of the handler tasks that are left. -/
theorem Consistent.joinHandlers (consistent : Consistent settings server)
    (stopped : server.serving = false) (accepted : server.accepted = ∅)
    (told : server.websockets ⊆ server.goingAway) : Consistent settings server.joinHandlers := by
  unfold WebSocketServer.joinHandlers
  split
  · next empty =>
    exact { consistent with
      serving := fun serving => absurd serving (by simp [stopped])
      accepted := fun _ => accepted
      told := fun _ => told
      joining := nofun
      finished := fun _ => empty }
  · exact { consistent with
      serving := fun serving => absurd serving (by simp [stopped])
      accepted := fun _ => accepted
      told := fun _ => told
      joining := fun waiting joins => by
        cases joins
        exact Finset.Subset.refl _
      finished := nofun }

/-- A request that passes the rest of the handshake is admitted, while the server is serving. -/
theorem admitted_of_openingError {request : UpgradeRequest} {result : HookResult}
    (normal : request.isDeletion = false)
    (opens : openingError settings server request result = none) :
    server.serving = true ∧ Admitted settings request false := by
  cases result with
  | raise | respond => contradiction
  | «continue» =>
      simp only [openingError] at opens
      split at opens
      · next serving =>
        split at opens
        · contradiction
        · next passes =>
          split at opens
          · contradiction
          · next origin found => exact ⟨serving, normal, passes, ⟨origin, found⟩, opens⟩
      · contradiction

end Changes

variable {settings} {before after : WebSocketServer} {action : Action}

/-- What one step preserves. -/
theorem Consistent.step (consistent : Consistent settings before) (yields : Yields before action)
    (stepped : before.step settings action = some after) : Consistent settings after := by
  cases action with
  | accept id =>
      simp only [WebSocketServer.step] at stepped
      split at stepped
      · next enabled =>
        cases stepped
        obtain ⟨serving, _, absent⟩ := enabled
        exact { consistent with
          unborn := fun other mem => by
            rcases Finset.mem_insert.mp mem with rfl | old
            · exact absent
            · exact consistent.unborn other old
          accepted := fun past => by
            rcases consistent.serving serving with phase | phase <;>
              simp [phase, Closer.pastSnapshot] at past }
      · contradiction
  | connectionMade id =>
      simp only [WebSocketServer.step] at stepped
      split at stepped
      · next accepted =>
        cases stepped
        exact consistent.connectionMade accepted
      · contradiction
  | requestRead id result =>
      simp only [WebSocketServer.step] at stepped
      split at stepped
      · next reading =>
        have active : (before.task id).running = true := by rw [reading]; rfl
        split at stepped
        · cases stepped
          exact consistent.refuse active _
        · next request =>
          split at stepped
          · next deletion =>
            cases stepped
            refine consistent.setTask active rfl nofun ?_
            rintro _ _ ⟨⟩
            exact deletion
          · next normal =>
            cases stepped
            refine consistent.setTask active rfl ?_ nofun
            rintro _ ⟨⟩
            exact Bool.eq_false_iff.mpr normal
      · contradiction
  | requestProcessed id result =>
      simp only [WebSocketServer.step] at stepped
      split at stepped
      · next request processing =>
        have active : (before.task id).running = true := by rw [processing]; rfl
        split at stepped
        · cases stepped
          exact consistent.refuse active _
        · next opens =>
          cases stepped
          refine consistent.setTask active rfl nofun ?_
          rintro _ _ ⟨⟩
          exact (admitted_of_openingError (consistent.processing id request processing) opens).2
      · contradiction
  | refusalClosed id | handlerRaised id =>
      simp only [WebSocketServer.step] at stepped
      split at stepped
      · next found =>
        cases stepped
        exact consistent.finishTask (by rw [found]; rfl)
      · contradiction
  | handlerReturned id =>
      simp only [WebSocketServer.step] at stepped
      split at stepped
      · next found =>
        cases stepped
        exact consistent.setTask (by rw [found]; rfl) rfl nofun nofun
      · contradiction
  | closed id =>
      simp only [WebSocketServer.step] at stepped
      split at stepped
      · next found =>
        cases stepped
        exact consistent.finishTask (by rw [found]; rfl)
      · contradiction
  | close =>
      cases stepped
      split
      · exact { consistent with
          serving := fun _ => .inr rfl
          accepted := nofun
          told := nofun
          joining := nofun
          finished := nofun }
      · exact consistent
  | stopListening | listenerClosed =>
      simp only [WebSocketServer.step] at stepped
      split at stepped
      · next phase =>
        cases stepped
        exact { consistent with
          serving := fun serving => by
            first | contradiction | simpa [phase] using consistent.serving serving
          accepted := nofun
          told := nofun
          joining := nofun
          finished := nofun }
      · contradiction
  | resumed =>
      simp only [WebSocketServer.step] at stepped
      split at stepped
      · next phase =>
        have stopped : before.serving = false := by
          rw [← Bool.not_eq_true]
          intro serving
          simpa [phase] using consistent.serving serving
        split at stepped
        · next empty =>
          cases stepped
          exact consistent.joinHandlers stopped (yields rfl) (empty ▸ Finset.empty_subset _)
        · cases stepped
          exact { consistent with
            serving := fun serving => absurd serving (by simp [stopped])
            accepted := fun _ => yields rfl
            told := fun _ => Finset.subset_union_right
            joining := nofun
            finished := nofun }
      · contradiction
  | connectionClosed id =>
      simp only [WebSocketServer.step] at stepped
      split at stepped
      · next waiting phase =>
        have past : before.closer.pastSnapshot = true := by rw [phase]; rfl
        split at stepped
        · cases stepped
          exact { consistent with
            serving := fun serving => by simpa [phase] using consistent.serving serving
            accepted := fun _ => consistent.accepted past
            told := fun _ => consistent.told past
            joining := nofun
            finished := nofun }
        · contradiction
      · contradiction
  | connectionsClosed =>
      simp only [WebSocketServer.step] at stepped
      split at stepped
      · next phase =>
        cases stepped
        have past : before.closer.pastSnapshot = true := by rw [phase]; rfl
        have stopped : before.serving = false := by
          rw [← Bool.not_eq_true]
          intro serving
          simpa [phase] using consistent.serving serving
        exact consistent.joinHandlers stopped (consistent.accepted past) (consistent.told past)
      · contradiction
  | handlersJoined =>
      simp only [WebSocketServer.step] at stepped
      split at stepped
      · next waiting phase =>
        have past : before.closer.pastSnapshot = true := by rw [phase]; rfl
        split at stepped
        · next ended =>
          cases stepped
          exact { consistent with
            serving := fun serving => by simpa [phase] using consistent.serving serving
            accepted := fun _ => consistent.accepted past
            told := fun _ => consistent.told past
            joining := nofun
            finished := fun _ => by
              apply Finset.eq_empty_of_forall_notMem
              intro id mem
              have running := (consistent.registered id).mp mem
              rw [ended id (consistent.joining waiting phase mem)] at running
              contradiction }
        · contradiction
      · contradiction

/-- The opening handshake of a connection is completed only while the server is serving, and
a server that has stopped serving does not start again. -/
structure Opens (before after : WebSocketServer) : Prop where
  serving : after.serving = true → before.serving = true
  opened : ∀ id, (after.task id).isOpen = true →
    (before.task id).isOpen = true ∨ before.serving = true

theorem Opens.of_task (sameTask : after.task = before.task)
    (serving : after.serving = true → before.serving = true) : Opens before after :=
  ⟨serving, fun id isOpen => .inl (by rwa [sameTask] at isOpen)⟩

theorem Opens.of_update {id : ConnectionId} {task : HandlerTask}
    (sameServing : after.serving = before.serving)
    (updated : after.task = Function.update before.task id task)
    (opens : task.isOpen = false ∨ before.serving = true) : Opens before after where
  serving := by
    rw [sameServing]
    exact fun serving => serving
  opened other isOpen := by
    rw [updated, Function.update_apply] at isOpen
    split at isOpen
    · right
      apply opens.resolve_left
      simp [isOpen]
    · exact .inl isOpen

theorem Opens.refuse (server : WebSocketServer) (id : ConnectionId) (error : HandshakeError) :
    Opens server (server.refuse id error) := by
  unfold WebSocketServer.refuse
  split <;> exact Opens.of_update rfl rfl (.inl rfl)

theorem Consistent.opens (consistent : Consistent settings before)
    (stepped : before.step settings action = some after) : Opens before after := by
  cases action with
  | accept id | close | stopListening | listenerClosed | resumed | connectionClosed id
  | connectionsClosed | handlersJoined =>
      simp only [WebSocketServer.step] at stepped
      repeat' split at stepped
      all_goals first | contradiction | cases stepped
      all_goals first
        | exact Opens.of_task rfl fun serving => serving
        | exact Opens.of_task rfl fun serving => absurd serving Bool.false_ne_true
  | connectionMade id | refusalClosed id | handlerReturned id | handlerRaised id | closed id =>
      simp only [WebSocketServer.step] at stepped
      split at stepped
      · cases stepped
        exact Opens.of_update rfl rfl (.inl rfl)
      · contradiction
  | requestRead id result =>
      simp only [WebSocketServer.step] at stepped
      repeat' split at stepped
      all_goals first | contradiction | cases stepped
      · exact Opens.refuse ..
      · exact Opens.of_update rfl rfl (.inl rfl)
      · exact Opens.of_update rfl rfl (.inl rfl)
  | requestProcessed id result =>
      simp only [WebSocketServer.step] at stepped
      split at stepped
      · next request processing =>
        split at stepped
        · cases stepped
          exact Opens.refuse ..
        · next opens =>
          cases stepped
          have normal := consistent.processing id request processing
          exact Opens.of_update rfl rfl (.inr (admitted_of_openingError normal opens).1)
      · contradiction

theorem consistent_created : Consistent settings created where
  registered id := by simp [created, HandlerTask.running]
  unborn _ mem := absurd mem (Finset.notMem_empty _)
  processing := nofun
  admitted := nofun
  serving _ := .inl rfl
  accepted := nofun
  told := nofun
  joining := nofun
  finished := nofun

theorem consistent_of_reach {server : WebSocketServer}
    (reach : (machine settings).Reach Yields server) : Consistent settings server := by
  apply reach.invariant (Consistent settings)
  · rintro _ rfl
    exact consistent_created
  · intro before after action _ yields consistent stepped
    exact consistent.step yields stepped

/-- No connection is opened once the server has stopped listening. -/
theorem open_of_continues {server : WebSocketServer}
    (reach : (machine settings).Reach Yields server) (stopped : server.serving = false)
    (continues : (machine settings).Continues Yields server after) :
    after.serving = false ∧
      ∀ id, (after.task id).isOpen = true → (server.task id).isOpen = true := by
  induction continues with
  | refl => exact ⟨stopped, fun _ => id⟩
  | tail steps step ih =>
      obtain ⟨action, _, stepped⟩ := step
      have opens := (consistent_of_reach (reach.continues steps)).opens stepped
      refine ⟨?_, fun id isOpen => ?_⟩
      · rw [← Bool.not_eq_true]
        intro serving
        rw [opens.serving serving] at ih
        exact absurd ih.1 (by decide)
      · apply ih.2
        exact (opens.opened id isOpen).resolve_right (by simp [ih.1])

/-- The handler tasks that run are those of the registered connections, and a request is handled
only if it has passed all checks or asks for a deletion.  Once the server has stopped listening,
no further connection is opened in any continuation.  When `_close` has called `close(1001)`, it
did so for every connection that is open, and when it is finished, no connection is left and all
handler tasks have ended. -/
theorem connections_shut_down {server : WebSocketServer}
    (reach : (machine settings).Reach Yields server) :
    (∀ id, id ∈ server.websockets ↔ (server.task id).running = true) ∧
      (∀ id request deletion, server.task id = .serving request deletion →
        Admitted settings request deletion) ∧
      (server.serving = false → ∀ after, (machine settings).Continues Yields server after →
        ∀ id, (after.task id).isOpen = true → (server.task id).isOpen = true) ∧
      (server.closer.pastSnapshot = true →
        ∀ id, (server.task id).isOpen = true → id ∈ server.goingAway) ∧
      (server.closer = .finished →
        server.accepted = ∅ ∧ ∀ id, server.task id = .absent ∨ server.task id = .ended) := by
  have consistent := consistent_of_reach reach
  refine ⟨consistent.registered, consistent.admitted, ?_, ?_, ?_⟩
  · intro stopped after continues
    exact (open_of_continues reach stopped continues).2
  · intro past id isOpen
    apply consistent.told past
    exact (consistent.registered id).mpr (HandlerTask.running_of_isOpen isOpen)
  · intro finished
    refine ⟨consistent.accepted (by rw [finished]; rfl), fun id => ?_⟩
    have stopped : (server.task id).running = false := by
      rw [← Bool.not_eq_true, ← consistent.registered, consistent.finished finished]
      exact Finset.notMem_empty id
    cases task : server.task id with
    | absent => exact .inl rfl
    | ended => exact .inr rfl
    | _ =>
        rw [task] at stopped
        contradiction

section Example

/-- All requests with at most one origin header are accepted. -/
def openSettings : Settings := ⟨fun _ => none, none, fun _ => none⟩

/-- The server is closed while connection 0 is open and connection 1 is in its opening handshake,
and connection 2 then asks for a deletion. -/
def closingSchedule : List Action :=
  [.accept 0, .accept 1, .connectionMade 0, .requestRead 0 (some ⟨"/path", []⟩),
    .requestProcessed 0 .continue, .accept 2, .connectionMade 1,
    .requestRead 1 (some ⟨"/path", []⟩), .close, .stopListening, .requestProcessed 1 .continue,
    .connectionMade 2, .requestRead 2 (some ⟨"SPLICE", [("taints", ["16"])]⟩), .listenerClosed,
    .resumed, .connectionClosed 1, .connectionClosed 2, .handlerReturned 0, .closed 0,
    .connectionClosed 0, .connectionsClosed, .refusalClosed 1, .handlerRaised 2, .handlersJoined]

def closedServer : WebSocketServer :=
  ((machine openSettings).run created closingSchedule).getD created

/-- The close of the server is finished, and all three handler tasks have ended. -/
theorem connections_shut_down_three :
    closedServer.closer = .finished ∧ closedServer.goingAway = {0, 1, 2} ∧
      closedServer.accepted = ∅ ∧
      ∀ id, closedServer.task id = .absent ∨ closedServer.task id = .ended := by
  have reach : (machine openSettings).Reach Yields closedServer :=
    Machine.reach_run (.start rfl) closingSchedule (by decide) rfl
  have finished : closedServer.closer = .finished := by decide
  exact ⟨finished, by decide, (connections_shut_down reach).2.2.2.2 finished⟩

end Example

end WebSocketServer

end SaltyRtcServer
