import SaltyRtcServer.ReceiveLoops

/-!
# How relaying a message ends

`relay_message` waits for the task that sends its message, which others may
cancel.  When it returns, either that task has completed, or one send-error
message was submitted for its source.
-/

namespace SaltyRtcServer

open StepMachine

namespace Server

/-- The receive loop of a client calls `relay_message`. -/
structure CallsRelayMessage (server : Server) (ref : ClientRef) (address : Address) : Prop where
  awaiting : server.handler ref = .awaitingResult
  waiting : (server.tasks ref).receiveLoop = .start
  attached : server.system.path.attached = true
  responder : (server.system.client ref).type = some .initiator →
    ∃ id, ResponderAddress.ofNat address.1 = .ok id

/-- `relay_message` has ended as it is meant to, with or without an exception.  `start` is the
state in which it was called, and `delivered` says whether its message was sent. -/
def RelayEnded (start after : Server) (ref : ClientRef) (packet : List UInt8)
    (delivered : Prop) : Prop :=
  (after.tasks ref).receiveLoop.status = .waiting ∧
      (delivered ∧ after.sendErrors ref = start.sendErrors ref ∨
        ¬ delivered ∧ ∃ source,
          after.sendErrors ref =
            start.sendErrors ref ++ [.sendError source ((packet.drop 16).take 8)]) ∨
    (∃ exception, (after.tasks ref).receiveLoop.status = .ended exception) ∧
      (after.tasks ref).haveResult = true

/-- In the step with which `relay_message` ends it is known that the message was not sent. -/
def Unsent (server : Server) (ref : ClientRef) : Action → Prop
  | .receive _ (.relay address _) => server.relayDestination ref address = none
  | .relayed _ => ∀ id packet, (server.tasks ref).receiveLoop.status = .relaying id packet →
      (server.loop.task id).status ≠ .done .finished
  | _ => True

/-- A failure is reported to a client whose id is one of the constants and whose tasks have no
result. -/
structure RefusesReport (server : Server) (ref : ClientRef) (action : Action) : Prop where
  unsent : server.Unsent ref action
  constant : (server.system.client ref).id.IsConstant
  noResult : (server.tasks ref).haveResult = false

/-- The step with which a call of `relay_message` ends, which `start` is called in. -/
inductive LastStep (start : Server) (ref : ClientRef) (address : Address)
    (packet : List UInt8) : Server → Action → Server → Prop
  | atOnce {after : Server} : start.step (.receive ref (.relay address packet)) = some after →
      ¬ after.Relaying ref → LastStep start ref address packet start
        (.receive ref (.relay address packet)) after
  | later {taken before after : Server} {action : Action} :
      start.step (.receive ref (.relay address packet)) = some taken →
      machine.Continues (fun server _ => server.Relaying ref) taken before →
      before.Relaying ref → before.step action = some after → ¬ after.Relaying ref →
      LastStep start ref address packet before action after

variable {start before after taken server : Server} {action : Action} {ref : ClientRef}
  {address : Address} {packet : List UInt8} {id : TaskId}

theorem relayMessage_step (calls : server.CallsRelayMessage ref address) (packet : List UInt8) :
    server.step (.receive ref (.relay address packet)) =
      some (server.relayMessage ref (server.relayDestination ref address) packet) := by
  obtain ⟨awaiting, waiting, attached, responder⟩ := calls
  simp only [step, receive, awaiting, waiting, if_true]
  by_cases typed : (server.system.client ref).type = some .initiator
  · obtain ⟨id, converted⟩ := responder typed
    cases found : server.system.path.responders.get? id <;>
      simp [typed, initiatorReceive, relayDestination, converted, Path.getResponder, attached, found]
  · have initiator : server.relayDestination ref address = server.system.path.initiator := if_neg typed
    have received : server.responderReceive ref (.relay address packet) =
        server.relayMessage ref server.system.path.initiator packet := by
      cases found : server.system.path.initiator <;>
        simp [responderReceive, Path.getInitiator, attached, found]
    rw [initiator, ← received]
    split
    · contradiction
    · rfl

theorem sendError_loop (server : Server) (ref : ClientRef) (packet : List UInt8) :
    (server.sendError ref packet).loop = server.loop := by
  unfold Server.sendError
  split
  · rfl
  · exact submit_loop ..

theorem sendError_not_relaying (server : Server) (ref : ClientRef) (packet : List UInt8) :
    ¬ (server.sendError ref packet).Relaying ref := by
  unfold Server.sendError Relaying
  split <;> simp [Server.setReceiveLoop, Server.setTasks, WorkerStatus.task?]

/-- A failure is reported once, unless the id of the client is one of the constants. -/
theorem relayEnded_sendError_iff {delivered : Prop}
    (errors : server.sendErrors ref = start.sendErrors ref) (failed : ¬ delivered) :
    RelayEnded start (server.sendError ref packet) ref packet delivered ↔
      ¬ ((server.system.client ref).id.IsConstant ∧ (server.tasks ref).haveResult = false) := by
  unfold Server.sendError
  split
  · next exception refused =>
    have constant := (Address.copy_error refused).1
    have known : ((server.setReceiveLoop ref (.ended exception)).tasks ref).haveResult =
        (server.tasks ref).haveResult := by
      simp [Server.setReceiveLoop, Server.setTasks, Tasks.haveResult]
    have status : ((server.setReceiveLoop ref (.ended exception)).tasks ref).receiveLoop.status =
        .ended exception := by
      simp [Server.setReceiveLoop, Server.setTasks]
    unfold RelayEnded
    rw [known, status]
    simp [constant]
  · next id copied =>
    obtain ⟨rfl, other⟩ := Address.copy_ok copied
    refine iff_of_true (.inl ⟨?_, .inr ⟨failed, (server.system.client ref).id, ?_⟩⟩)
      fun refused => other refused.1
    · simp [Server.setReceiveLoop, Server.setTasks]
    · rw [← errors]
      change List.filterMap _ (server.submit ref _).history = _
      rw [submit_history, List.filterMap_append]
      simp [sendErrors, Event.sendError?, OutgoingMessage.isSendError]

/-- The task will not complete. -/
def Doomed (server : Server) (id : TaskId) : Prop :=
  (server.loop.task id).status = .suspended ∧ (server.loop.task id).cancelRequested = true ∨
    ∃ outcome, (server.loop.task id).status = .done outcome ∧ outcome ≠ .finished

theorem Doomed.step (doomed : before.Doomed id) (sound : before.Sound)
    (created : id < before.loop.next) (stepped : before.step action = some after) :
    after.Doomed id := by
  have task := sound.taskStep stepped created
  have started : (before.loop.task id).status ≠ .unstarted := by
    obtain ⟨suspended, _⟩ | ⟨outcome, done, _⟩ := doomed
    · simp [suspended]
    · simp [done]
  have notReady {rest : List TaskId} (ready : before.loop.ready = id :: rest) : False :=
    started (sound.tasks.loop.ready_unstarted (ready ▸ List.mem_cons_self))
  cases task.status with
  | same status =>
      obtain ⟨suspended, requested⟩ | ⟨outcome, done, unfinished⟩ := doomed
      · refine .inl ⟨status.trans suspended, ?_⟩
        obtain same | ⟨now, _⟩ := task.requested
        · exact same.trans requested
        · exact now
      · exact .inr ⟨outcome, status.trans done, unfinished⟩
  | endsAtOnce _ ready => exact (notReady ready).elim
  | enqueues _ ready => exact (notReady ready).elim
  | starts _ ready => exact (notReady ready).elim
  | @ends outcome _ suspended ends status =>
      refine .inr ⟨outcome, status, ?_⟩
      rintro rfl
      cases ends with
      | finished kept =>
        obtain ⟨_, requested⟩ | ⟨outcome, done, _⟩ := doomed
        · simp [kept] at requested
        · simp [suspended] at done

/-- `relay_message` waits for its task, and has not yet reported a failure. -/
structure Pending (start : Server) (ref : ClientRef) (packet : List UInt8) (id : TaskId)
    (server : Server) : Prop where
  waits : (server.tasks ref).receiveLoop.status = .relaying id packet ∨
    (server.tasks ref).receiveLoop.status = .expiring id packet ∧ server.Doomed id
  created : id < server.loop.next
  errors : server.sendErrors ref = start.sendErrors ref

theorem Pending.relaying (pending : Pending start ref packet id server) : server.Relaying ref := by
  unfold Relaying
  obtain waits | ⟨waits, _⟩ := pending.waits <;> simp [waits, WorkerStatus.task?]

theorem not_refusesReport (known : (server.tasks ref).haveResult = true) :
    ¬ server.RefusesReport ref action := by
  intro refused
  rw [refused.noResult] at known
  contradiction

/-- The receive loop ends by cancellation when there is a result. -/
theorem relayEnded_cancelled {delivered : Prop} (known : (server.tasks ref).haveResult = true) :
    ¬ (server.setReceiveLoop ref (.ended .cancelledError)).Relaying ref ∧
      RelayEnded start (server.setReceiveLoop ref (.ended .cancelledError)) ref packet
        delivered := by
  refine ⟨?_, .inr ⟨⟨.cancelledError, ?_⟩, ?_⟩⟩
  · simp [Relaying, Server.setReceiveLoop, Server.setTasks, WorkerStatus.task?]
  · simp [Server.setReceiveLoop, Server.setTasks]
  · simpa [Server.setReceiveLoop, Server.setTasks, Tasks.haveResult] using known

/-- The receive loop is given up while it waits for the relay task. -/
theorem relayEnded_of_giveUp {delivered : Prop} {bytes : List UInt8}
    (known : (before.tasks ref).haveResult = true)
    (stepped : (if id ∈ before.loop.ready then none
      else
        let server := { before with loop := before.loop.requestCancel id }
        if (server.tasks ref).haveResult then
          some (server.setReceiveLoop ref (.ended .cancelledError))
        else
          some ((server.setTasks ref { server.tasks ref with
            receiveLoop := ⟨.waiting, false⟩ }).sendError ref bytes)) = some after) :
    ¬ after.Relaying ref ∧ RelayEnded start after ref packet delivered := by
  split at stepped
  · contradiction
  · dsimp only at stepped
    rw [if_pos known] at stepped
    cases stepped
    exact relayEnded_cancelled known

/-- The call goes on, or it ends as it is meant to if and only if no report is refused. -/
theorem Pending.step (pending : Pending start ref packet id before)
    (reachable : machine.Reachable before) (stepped : before.step action = some after) :
    Pending start ref packet id after ∨ ¬ after.Relaying ref ∧
      (RelayEnded start after ref packet ((after.loop.task id).status = .done .finished) ↔
        ¬ before.RefusesReport ref action) := by
  have sound := sound_of_reachable reachable
  have loops := loopsSound_of_reachable reachable
  have created := (sound.taskStep stepped pending.created).created
  have running := pending.relaying
  have notStart : (before.tasks ref).receiveLoop ≠ .start := by
    intro idle
    apply running
    simp [idle, Worker.start, WorkerStatus.task?]
  -- A failure is reported from a state that differs from `before` in nothing that matters here.
  have reports {bytes : List UInt8} (same : bytes = packet)
      (failed : ¬ (before.loop.task id).status = .done .finished)
      (unsent : before.Unsent ref action) :
      ¬ (before.sendError ref bytes).Relaying ref ∧
        (RelayEnded start (before.sendError ref bytes) ref packet
            (((before.sendError ref bytes).loop.task id).status = .done .finished) ↔
          ¬ before.RefusesReport ref action) := by
    subst same
    refine ⟨sendError_not_relaying before ref bytes, ?_⟩
    rw [relayEnded_sendError_iff pending.errors (by rwa [sendError_loop])]
    exact not_congr ⟨fun refused => ⟨unsent, refused.1, refused.2⟩,
      fun refused => ⟨refused.constant, refused.noResult⟩⟩
  by_cases own : before.ResumesLoop action ref
  · cases action with
    | receive mover input =>
        obtain ⟨rfl, awaiting⟩ := own
        simp only [Server.step, receive, awaiting] at stepped
        rw [if_neg notStart] at stepped
        contradiction
    | receiveClosed mover code =>
        obtain ⟨rfl, awaiting⟩ := own
        simp only [Server.step, receiveClosed, awaiting, if_neg notStart] at stepped
        split at stepped <;> contradiction
    | relayed mover =>
        cases own
        simp only [Server.step, relayed] at stepped
        split at stepped
        · next task bytes waits =>
          obtain ⟨rfl, rfl⟩ : task = id ∧ bytes = packet := by
            simpa [waits] using pending.waits
          have unsent (failed : (before.loop.task task).status ≠ .done .finished) :
              before.Unsent ref (.relayed ref) := by
            intro other _ relaying
            rw [waits] at relaying
            cases relaying
            exact failed
          right
          split at stepped
          · next finished =>
            cases stepped
            have sent : ¬ before.RefusesReport ref (.relayed ref) :=
              fun refused => refused.unsent task bytes (by rw [waits]) finished
            refine ⟨?_, iff_of_true (.inl ⟨?_, .inl ⟨finished, pending.errors⟩⟩) sent⟩
            · simp [Relaying, Server.setReceiveLoop, Server.setTasks, WorkerStatus.task?]
            · simp [Server.setReceiveLoop, Server.setTasks]
          · next cancelled =>
            split at stepped
            · next known =>
              cases stepped
              obtain ⟨idle, ended⟩ := relayEnded_cancelled known
              exact ⟨idle, iff_of_true ended (not_refusesReport known)⟩
            · cases stepped
              have failed : (before.loop.task task).status ≠ .done .finished := by simp [cancelled]
              exact reports rfl failed (unsent failed)
          · next exception raised =>
            cases stepped
            have failed : (before.loop.task task).status ≠ .done .finished := by simp [raised]
            exact reports rfl failed (unsent failed)
          · contradiction
        · contradiction
    | relayTimeout mover =>
        cases own
        simp only [Server.step, relayTimeout] at stepped
        split at stepped
        · next task bytes waits =>
          obtain ⟨rfl, rfl⟩ : task = id ∧ bytes = packet := by
            simpa [waits] using pending.waits
          split at stepped
          · next suspended =>
            cases stepped
            refine .inl ⟨.inr ⟨?_, .inl ⟨?_, ?_⟩⟩, created, pending.errors⟩
            · simp [Server.setReceiveLoop, Server.setTasks]
            · exact (EventLoop.status_requestCancel ..).trans suspended
            · have alive : before.loop.isDone task = false := by
                simp [EventLoop.isDone, suspended]
              change ((before.loop.requestCancel task).task task).cancelRequested = true
              rw [EventLoop.cancelRequested_requestCancel, if_pos ⟨rfl, alive⟩]
          · contradiction
        · contradiction
    | relayExpired mover =>
        cases own
        simp only [Server.step, relayExpired] at stepped
        split at stepped
        · next task bytes waits =>
          obtain ⟨⟨rfl, rfl⟩, doomed⟩ : (task = id ∧ bytes = packet) ∧ before.Doomed id := by
            simpa [waits] using pending.waits
          split at stepped
          · next done =>
            cases stepped
            right
            refine reports rfl ?_ trivial
            obtain ⟨suspended, _⟩ | ⟨outcome, status, unfinished⟩ := doomed
            · simp [EventLoop.isDone, suspended] at done
            · rw [status]
              simpa using unfinished
          · contradiction
        · contradiction
    | loopCancelled mover =>
        cases own
        simp only [Server.step, loopCancelled] at stepped
        have known (requested : (before.tasks ref).receiveLoop.cancelRequested = true) :
            (before.tasks ref).haveResult = true := (loops.justified ref).requested requested
        split at stepped
        · next waits => exact absurd (by simp [waits, WorkerStatus.task?]) running
        · next task bytes waits =>
          have isKnown := known (by simp [waits])
          obtain ⟨idle, ended⟩ := relayEnded_of_giveUp isKnown stepped
          exact .inr ⟨idle, iff_of_true ended (not_refusesReport isKnown)⟩
        · next task bytes waits =>
          have isKnown := known (by simp [waits])
          obtain ⟨idle, ended⟩ := relayEnded_of_giveUp isKnown stepped
          exact .inr ⟨idle, iff_of_true ended (not_refusesReport isKnown)⟩
        · contradiction
    | loopReported mover =>
        cases own
        simp only [Server.step, loopReported] at stepped
        split at stepped
        · next ended => exact absurd (by simp [ended, WorkerStatus.task?]) running
        · contradiction
    | _ => exact own.elim
  · have kept := step_kept sound.tasks.loop (announces_of_reachable reachable) stepped own
    have status := kept.status (loops.served ref running)
    refine .inl ⟨?_, created, kept.errors.trans pending.errors⟩
    rw [status]
    apply pending.waits.imp_right
    rintro ⟨expiring, doomed⟩
    exact ⟨expiring, doomed.step sound pending.created stepped⟩

/-- A packet that is relayed: a cookie, two addresses, a number and one byte. -/
def relayedBytes (source destination : Address) : List UInt8 :=
  List.replicate 16 1 ++ [.ofNat source.1, .ofNat destination.1, 0, 0, 0, 0, 0, 7, 0]

/-- The message was handed to a task, and that task has completed. -/
def Delivered (start after : Server) (ref : ClientRef) (address : Address) : Prop :=
  start.relayDestination ref address ≠ none ∧
    (after.loop.task start.loop.next).status = .done .finished

theorem relayMessage_pending (start : Server) (ref destination : ClientRef) (packet : List UInt8) :
    Pending start ref packet start.loop.next (start.relayMessage ref (some destination) packet) where
  waits := by simp [relayMessage, Server.setReceiveLoop, Server.setTasks]
  created := (submitTask_next start destination (.relay packet)).1
  errors := (LoopKept.submitTask start destination packet).errors

/-- As long as `relay_message` runs, it waits for its task. -/
theorem Pending.continues (pending : Pending start ref packet id taken)
    (reachable : machine.Reachable taken)
    (running : machine.Continues (fun server _ => server.Relaying ref) taken after)
    (still : after.Relaying ref) :
    machine.Reachable after ∧ Pending start ref packet id after := by
  induction running with
  | refl => exact ⟨reachable, pending⟩
  | tail _ last ih =>
      obtain ⟨action, relaying, stepped⟩ := last
      obtain ⟨reached, waits⟩ := ih relaying
      obtain next | ⟨idle, _⟩ := waits.step reached stepped
      · exact ⟨.next action reached trivial stepped, next⟩
      · exact absurd still idle

/-- However `relay_message` is interrupted: it returns with the task of its destination completed
or with one send-error message with the id of its message submitted for its source, or it raises
while its source has a result, if and only if no report is refused in the step with which it
ends. -/
theorem relay_ends_iff (reachable : machine.Reachable start)
    (calls : start.CallsRelayMessage ref address)
    (last : LastStep start ref address packet before action after) :
    RelayEnded start after ref packet (start.Delivered after ref address) ↔
      ¬ before.RefusesReport ref action := by
  cases last with
  | atOnce called idle =>
      rw [relayMessage_step calls packet] at called
      cases called
      cases found : start.relayDestination ref address with
      | none =>
          have undelivered : ¬ start.Delivered (start.sendError ref packet) ref address :=
            fun delivered => delivered.1 found
          change RelayEnded start (start.sendError ref packet) ref packet
            (start.Delivered (start.sendError ref packet) ref address) ↔ _
          rw [relayEnded_sendError_iff rfl undelivered]
          exact not_congr ⟨fun refused => ⟨found, refused.1, refused.2⟩,
            fun refused => ⟨refused.constant, refused.noResult⟩⟩
      | some destination =>
          rw [found] at idle
          exact absurd (relayMessage_pending start ref destination packet).relaying idle
  | later called running relaying stepped idle =>
      have first : machine.Reachable _ :=
        .next (.receive ref (.relay address packet)) reachable trivial called
      rw [relayMessage_step calls packet] at called
      cases called
      cases found : start.relayDestination ref address with
      | none =>
          rw [found] at running
          have ended := sendError_not_relaying start ref packet
          obtain same | ⟨_, ⟨_, relaying, _⟩, _⟩ := running.cases_head
          · subst same
            exact absurd relaying ended
          · exact absurd relaying ended
      | some destination =>
          rw [found] at running first
          have delivered : start.Delivered after ref address ↔
              (after.loop.task start.loop.next).status = .done .finished := by
            simp [Delivered, found]
          rw [delivered]
          obtain ⟨reached, pending⟩ :=
            (relayMessage_pending start ref destination packet).continues first running relaying
          obtain next | ⟨_, ended⟩ := pending.step reached stepped
          · exact absurd next.relaying idle
          · exact ended

/-- The task that relays a message of a responder is given up, and the responder is told. -/
theorem relay_ends_timeout : ∃ start after : Server,
    RelayEnded start after 1 (relayedBytes ResponderAddress.lowest.toAddress initiatorAddress)
        (start.Delivered after 1 initiatorAddress) ∧
      ¬ start.Delivered after 1 initiatorAddress := by
  have reachable : machine.Reachable _ := Machine.reachable_of_run (initial_created [0x61] 1)
    (joinInitiator 0 ++ joinResponder 1) rfl
  refine ⟨_, _, (@relay_ends_iff _ _ _ (.relayExpired 1) 1 initiatorAddress
    (relayedBytes ResponderAddress.lowest.toAddress initiatorAddress) reachable
    ⟨rfl, rfl, rfl, by decide +kernel⟩
    (.later rfl (Machine.continues_of_run [.taskStart, .relayTimeout 1, .taskCancelled 0]
      (by decide +kernel) rfl) (by decide +kernel) rfl (by decide +kernel))).mpr ?_, ?_⟩
  · exact fun refused => absurd refused.constant (by decide +kernel)
  · exact fun delivered => absurd delivered.2 (by decide +kernel)

/-- The initiator relays a message to an address that nobody has, and the receive loop ends with
another error than a result of its tasks. -/
theorem relay_of_initiator_raises :
    ¬ ∀ (start before after : Server) (action : Action) (ref : ClientRef) (address : Address)
      (packet : List UInt8), machine.Reachable start → start.CallsRelayMessage ref address →
      LastStep start ref address packet before action after →
      RelayEnded start after ref packet (start.Delivered after ref address) := by
  intro claimed
  have reachable : machine.Reachable _ := Machine.reachable_of_run (initial_created [0x61] 1)
    (joinInitiator 0) rfl
  have ended := claimed _ _ _ _ 0 ResponderAddress.lowest.toAddress
    (relayedBytes initiatorAddress ResponderAddress.lowest.toAddress) reachable
    ⟨rfl, rfl, rfl, fun _ => ⟨.lowest, rfl⟩⟩ (.atOnce rfl (by decide +kernel))
  obtain ⟨waiting, _⟩ | ⟨_, known⟩ := ended
  · exact absurd waiting (by decide +kernel)
  · exact absurd known (by decide +kernel)

end Server

end SaltyRtcServer
