import SaltyRtcServer.HandshakeCompletion
import SaltyRtcServer.ServerAuthFirst

/-!
# The numbers of handed messages

Handlers, runners and relay tasks all send through the same counter of a client.
One step packs at most one message, and it is the last thing that the step
does; every other step leaves the counters and the connections alone.
-/

namespace SaltyRtcServer

namespace Server

/-- All messages that were handed to the connection of a client, in order. -/
def handedTo (server : Server) (client : ClientRef) : List OutgoingMessage :=
  server.history.filterMap (Event.sent? client)

/-- Nothing is packed. -/
structure Quiet (before after : Server) : Prop where
  csnOut : after.csnOut = before.csnOut
  handedTo : ∀ client, after.handedTo client = before.handedTo client

/-- One message is packed for a client, and handed to its connection if that does not
raise. -/
structure PacksFor (ref : ClientRef) (message : OutgoingMessage) (before after : Server) :
    Prop where
  csnOut : after.csnOut = Function.update before.csnOut ref
    (message.pack (after.system.client ref) (before.csnOut ref)).1
  handedTo : ∀ client, after.handedTo client = before.handedTo client ++
    if client = ref ∧ (message.pack (after.system.client ref) (before.csnOut ref)).2 = .ok () then
      [message]
    else []

/-- What a step does to the counters and the connections. -/
inductive Packs (before : Server) (action : Action) (after : Server) : Prop
  | quiet : Quiet before after → Packs before action after
  | connected {ref : ClientRef} {csn : Nat} : action = .connect ref csn →
      before.handler ref = .absent → csn < 2 ^ 32 →
      after.csnOut = Function.update before.csnOut ref (some csn) →
      after.history = before.history → Packs before action after
  | packed {ref : ClientRef} {message : OutgoingMessage} :
      PacksFor ref message before after → Packs before action after

variable {first second third server before after : Server} {ref client : ClientRef}
  {message : OutgoingMessage} {action : Action}

namespace Quiet

theorem of_same (csnOut : after.csnOut = before.csnOut) (history : after.history = before.history) :
    Quiet before after :=
  ⟨csnOut, fun client => congrArg (List.filterMap (Event.sent? client)) history⟩

theorem refl (server : Server) : Quiet server server := .of_same rfl rfl

theorem trans (one : Quiet first second) (two : Quiet second third) : Quiet first third :=
  ⟨two.csnOut.trans one.csnOut, fun client => (two.handedTo client).trans (one.handedTo client)⟩

theorem preceded (two : Quiet second third) (one : Quiet first second) : Quiet first third :=
  one.trans two

theorem preceded_same (two : Quiet second third) (csnOut : second.csnOut = first.csnOut)
    (history : second.history = first.history) : Quiet first third :=
  (of_same csnOut history).trans two

theorem then_same (one : Quiet first second) (csnOut : third.csnOut = second.csnOut)
    (history : third.history = second.history) : Quiet first third :=
  one.trans (of_same csnOut history)

/-- An event is logged that is no handed message. -/
theorem logged {event : Event} (unsent : ∀ client, event.sent? client = none)
    (csnOut : after.csnOut = before.csnOut) (history : after.history = before.history ++ [event]) :
    Quiet before after := by
  refine ⟨csnOut, fun client => ?_⟩
  simp [Server.handedTo, history, unsent]

theorem submit (server : Server) (ref : ClientRef) (message : OutgoingMessage) :
    Quiet server (server.submit ref message) :=
  .logged (fun _ => rfl) (by rw [submit_eq]; rfl) (submit_history ..)

theorem submitTask (server : Server) (ref : ClientRef) (message : OutgoingMessage) :
    Quiet server (server.submitTask ref message) := .logged (fun _ => rfl) rfl rfl

theorem cancelJobs (server : Server) (ref : ClientRef) (result : PyException) :
    Quiet server (server.cancelJobs ref result).1 := .of_same rfl rfl

theorem drop (server : Server) (ref : ClientRef) (code : CloseCode) :
    Quiet server (server.drop ref code) := .logged (fun _ => rfl) rfl rfl

theorem dropClient (server : Server) (ref : ClientRef) (code : CloseCode) :
    Quiet server (server.dropClient ref code) :=
  (drop server ref code).trans (.of_same rfl rfl)

theorem handleException (server : Server) (ref : ClientRef) (exception : PyException) :
    Quiet server (server.handleException ref exception) := by
  unfold Server.handleException
  split <;> exact .of_same rfl rfl

theorem start (server : Server) (ref : ClientRef) (connected : Bool) :
    Quiet server (server.start ref connected) := by
  unfold Server.start
  split
  · exact .of_same rfl rfl
  · exact handleException ..

theorem abort (server : Server) (ref : ClientRef) (exception : PyException) :
    Quiet server (server.abort ref exception) := by
  have cancels := cancelJobs server ref exception
  unfold Server.abort
  split
  · next cancelled =>
    rw [cancelled] at cancels
    exact cancels.trans (handleException ..)
  · next cancelled =>
    rw [cancelled] at cancels
    exact cancels.trans (preceded_same (start ..) rfl rfl)

theorem gather {messages : List (ClientRef × OutgoingMessage)} {ids : List TaskId}
    (gathers : server.gather messages = (after, ids)) : Quiet server after := by
  obtain ⟨rfl, _⟩ := gather_eq gathers
  exact .of_same rfl rfl

theorem completeHandshake (server : Server) (ref : ClientRef) :
    Quiet server (server.completeHandshake ref) := by
  unfold Server.completeHandshake
  split
  · exact handleException ..
  · split
    · exact start ..
    · exact start ..
    · exact handleException ..
    · exact handleException ..

theorem leave (server : Server) (ref : ClientRef) (result : PyException) :
    Quiet server (server.leave ref result) := by
  have cancels := cancelJobs server ref result
  unfold Server.leave
  split
  · next cancelled =>
    rw [cancelled] at cancels
    exact cancels.trans (handleException ..)
  · next cancelled =>
    rw [cancelled] at cancels
    exact cancels.trans (preceded_same (handleException ..) rfl rfl)

theorem dispatch (server : Server) (ref : ClientRef) (closing : Option TaskId) :
    Quiet server (server.dispatch ref closing) := by
  unfold Server.dispatch
  dsimp only
  split
  · exact .of_same rfl rfl
  · split
    · split
      · exact .of_same rfl rfl
      · split
        · next gathers => exact (gather gathers).then_same rfl rfl
        · next gathers => exact (gather gathers).then_same rfl rfl
    · split
      · exact .of_same rfl rfl
      · exact .of_same rfl rfl
      · exact (submit ..).then_same rfl rfl
    · exact .of_same rfl rfl

theorem sendError (server : Server) (ref : ClientRef) (packet : List UInt8) :
    Quiet server (server.sendError ref packet) := by
  unfold Server.sendError
  split
  · exact .of_same rfl rfl
  · exact (submit ..).then_same rfl rfl

theorem awaitAuth (server : Server) (ref : ClientRef) (verdict : Except PacketError Unit) :
    Quiet server (server.awaitAuth ref verdict) := by
  unfold Server.awaitAuth
  split
  · exact abort ..
  · exact .of_same rfl rfl

theorem relayMessage (server : Server) (ref : ClientRef) (destination : Option ClientRef)
    (packet : List UInt8) : Quiet server (server.relayMessage ref destination packet) := by
  cases destination with
  | none => exact sendError ..
  | some destination => exact (submitTask ..).then_same rfl rfl

theorem initiatorReceive (server : Server) (ref : ClientRef) (input : Received) :
    Quiet server (server.initiatorReceive ref input) := by
  unfold Server.initiatorReceive
  split
  · split
    · exact .of_same rfl rfl
    · split
      · exact relayMessage ..
      · exact .of_same rfl rfl
      · exact relayMessage ..
  · split
    · exact refl server
    · exact .of_same rfl rfl
    · exact dropClient ..
  · exact .of_same rfl rfl
  · exact .of_same rfl rfl

theorem responderReceive (server : Server) (ref : ClientRef) (input : Received) :
    Quiet server (server.responderReceive ref input) := by
  unfold Server.responderReceive
  split
  · split
    · exact relayMessage ..
    · exact .of_same rfl rfl
    · exact relayMessage ..
  · exact .of_same rfl rfl
  · exact .of_same rfl rfl

theorem join {closing : Option TaskId} (stepped : before.join ref closing = some after) :
    Quiet before after := by
  unfold Server.join at stepped
  split at stepped
  · cases stepped
    exact .of_same rfl rfl
  · cases stepped
    exact .of_same rfl rfl
  · split at stepped
    · cases stepped
      exact .of_same rfl rfl
    · contradiction
  · contradiction

theorem joinTimeout (server : Server) (ref : ClientRef) (closing : Option TaskId) :
    Quiet server (server.joinTimeout ref closing) := by
  unfold Server.joinTimeout
  dsimp only
  split <;> exact .of_same rfl rfl

theorem runnerGet (stepped : before.runnerGet ref = some after) : Quiet before after := by
  unfold Server.runnerGet at stepped
  split at stepped
  · dsimp only at stepped
    split at stepped <;> cases stepped <;> exact .of_same rfl rfl
  · cases stepped
    exact .of_same rfl rfl
  · cases stepped
    exact .of_same rfl rfl
  · contradiction

theorem runnerWake (stepped : before.runnerWake ref = some after) : Quiet before after := by
  unfold Server.runnerWake at stepped
  split at stepped
  · dsimp only at stepped
    split at stepped
    · split at stepped <;> cases stepped <;> exact .of_same rfl rfl
    · cases stepped
      exact .of_same rfl rfl
    · next exception _ =>
      have cancels : Quiet before ((before.setJobs ref
          { before.jobs ref with active := none }).cancelJobs ref exception).1 := .of_same rfl rfl
      split at stepped
      · next cancelled =>
        rw [cancelled] at cancels
        cases stepped
        exact cancels.then_same rfl rfl
      · next cancelled =>
        rw [cancelled] at cancels
        cases stepped
        exact cancels.then_same rfl rfl
    · contradiction
  · contradiction

theorem jobDone {id : TaskId} (stepped : before.jobDone ref id = some after) :
    Quiet before after := by
  unfold Server.jobDone at stepped
  split at stepped
  · dsimp only at stepped
    split at stepped <;> cases stepped <;> exact .of_same rfl rfl
  · contradiction

theorem relayed (stepped : before.relayed ref = some after) : Quiet before after := by
  unfold Server.relayed at stepped
  split at stepped
  · split at stepped
    · cases stepped
      exact .of_same rfl rfl
    · split at stepped <;> cases stepped
      · exact .of_same rfl rfl
      · exact sendError ..
    · cases stepped
      exact sendError ..
    · contradiction
  · contradiction

theorem relayTimeout (stepped : before.relayTimeout ref = some after) : Quiet before after := by
  unfold Server.relayTimeout at stepped
  split at stepped
  · split at stepped
    · cases stepped
      exact .of_same rfl rfl
    · contradiction
  · contradiction

theorem relayExpired (stepped : before.relayExpired ref = some after) : Quiet before after := by
  unfold Server.relayExpired at stepped
  split at stepped
  · split at stepped
    · cases stepped
      exact sendError ..
    · contradiction
  · contradiction

theorem loopCancelled (stepped : before.loopCancelled ref = some after) : Quiet before after := by
  unfold Server.loopCancelled at stepped
  split at stepped
  · cases stepped
    exact .of_same rfl rfl
  all_goals
    first
      | contradiction
      | (split at stepped
         · contradiction
         · dsimp only at stepped
           split at stepped <;> cases stepped
           · exact .of_same rfl rfl
           · exact preceded_same (sendError ..) rfl rfl)

theorem finish {closing : Option TaskId} (stepped : before.finish ref closing = some after) :
    Quiet before after := by
  unfold Server.finish at stepped
  split at stepped
  · cases stepped
    exact .of_same rfl rfl
  · split at stepped
    · cases stepped
      exact .of_same rfl rfl
    · cases stepped
      exact .of_same rfl rfl
    · cases stepped
      exact .of_same rfl rfl
    · contradiction

end Quiet

namespace PacksFor

theorem preceded (packs : PacksFor ref message second third) (quiet : Quiet first second) :
    PacksFor ref message first third := by
  constructor
  · rw [packs.csnOut, quiet.csnOut]
  · intro client
    rw [packs.handedTo, quiet.handedTo, quiet.csnOut]

theorem of_error {csn : SequenceNumber} {exception : PyException}
    (failed : message.pack (before.system.client ref) (before.csnOut ref) = (csn, .error exception))
    (csnOut : after.csnOut = Function.update before.csnOut ref csn)
    (system : after.system = before.system)
    (history : after.history = before.history) : PacksFor ref message before after := by
  refine ⟨?_, fun client => ?_⟩
  · rw [system, failed, csnOut]
  · rw [system, failed, if_neg (by simp), List.append_nil, Server.handedTo, history]
    rfl

theorem of_ok {csn : SequenceNumber} {number : Option Nat}
    (packed : message.pack (before.system.client ref) (before.csnOut ref) = (csn, .ok ()))
    (csnOut : after.csnOut = Function.update before.csnOut ref csn)
    (system : after.system = before.system)
    (history : after.history = before.history ++ [.sent ref message number]) :
    PacksFor ref message before after := by
  refine ⟨?_, fun client => ?_⟩
  · rw [system, packed, csnOut]
  · rw [system, packed, Server.handedTo, history, List.filterMap_append]
    by_cases same : client = ref
    · simp [Server.handedTo, Event.sent?, same]
    · simp [Server.handedTo, Event.sent?, same, Ne.symm same]

theorem send (server : Server) (ref : ClientRef) (message : OutgoingMessage) (next : Handler) :
    PacksFor ref message server (server.send ref message next) := by
  unfold Server.send
  split
  · next csn exception failed =>
    have aborts := Quiet.abort
      { server with csnOut := Function.update server.csnOut ref csn } ref exception
    refine ⟨?_, fun client => ?_⟩
    · rw [abort_system, aborts.csnOut, failed]
    · rw [abort_system, aborts.handedTo, failed, if_neg (by simp), List.append_nil]
      rfl
  · next packed => exact .of_ok packed rfl rfl rfl

end PacksFor

/-- One message is packed for the client, or none. -/
def PacksAtMost (ref : ClientRef) (before after : Server) : Prop :=
  Quiet before after ∨ ∃ message, PacksFor ref message before after

namespace PacksAtMost

theorem preceded (packs : PacksAtMost ref second third) (quiet : Quiet first second) :
    PacksAtMost ref first third := by
  obtain idle | ⟨message, packs⟩ := packs
  · exact .inl (quiet.trans idle)
  · exact .inr ⟨message, packs.preceded quiet⟩

theorem sendServerAuth (server : Server) (ref : ClientRef) (message : OutgoingMessage) :
    PacksAtMost ref server (server.sendServerAuth ref message) :=
  .inr ⟨message, PacksFor.preceded (.send ..) (.logged (fun _ => rfl) rfl rfl)⟩

theorem sendInitiatorAuth (server : Server) (ref : ClientRef) :
    PacksAtMost ref server (server.sendInitiatorAuth ref) := by
  unfold Server.sendInitiatorAuth
  split
  · exact .inl (.abort ..)
  · exact sendServerAuth ..

theorem dropPrevious (server : Server) (previous : Option ClientRef) :
    Quiet server (server.dropPrevious previous) := by
  cases previous with
  | none => exact .refl server
  | some previous => exact .drop ..

theorem handshakeInitiator (server : Server) (ref : ClientRef)
    (verdict : Except PacketError Unit) :
    PacksAtMost ref server (server.handshakeInitiator ref verdict) := by
  unfold Server.handshakeInitiator
  split
  · exact .inl (.abort ..)
  · dsimp only
    split
    · exact .inl (Quiet.preceded_same (.abort ..) rfl rfl)
    · next previous _ =>
      have dropped : Quiet server (({ server with
          system := server.system.afterSetInitiator ref
            (server.system.path.setInitiator ref (server.system.client ref))
          }.log (.authenticated ref)).dropPrevious previous) :=
        Quiet.preceded (dropPrevious ..) (.logged (fun _ => rfl) rfl rfl)
      split
      · next gathers => exact preceded (sendInitiatorAuth ..) (dropped.trans (.gather gathers))
      · next gathers => exact .inl ((dropped.trans (.gather gathers)).then_same rfl rfl)

theorem announceResponder (server : Server) (ref : ClientRef) (id : ResponderAddress) :
    PacksAtMost ref server (server.announceResponder ref id) := by
  unfold Server.announceResponder
  split
  · exact sendServerAuth ..
  · exact .inl (.abort ..)
  · exact preceded (sendServerAuth ..) (.submit ..)

theorem handshakeResponder (server : Server) (ref : ClientRef)
    (verdict : Except PacketError Unit) :
    PacksAtMost ref server (server.handshakeResponder ref verdict) := by
  unfold Server.handshakeResponder
  split
  · exact .inl (.abort ..)
  · dsimp only
    split
    · exact .inl (Quiet.preceded_same (.abort ..) rfl rfl)
    · exact preceded (announceResponder ..) (.logged (fun _ => rfl) rfl rfl)

theorem receive {input : Received} (stepped : before.receive ref input = some after) :
    PacksAtMost ref before after := by
  unfold Server.receive at stepped
  split at stepped
  · cases stepped
    unfold receiveFirst
    split
    · exact preceded (handshakeInitiator ..) (.of_same rfl rfl)
    · exact .inl (Quiet.preceded_same (.awaitAuth ..) rfl rfl)
    · exact .inl (.abort ..)
    · exact .inl (.abort ..)
  · cases stepped
    unfold receiveAuth
    split
    · exact handshakeResponder ..
    · exact .inl (.abort ..)
    · exact .inl (.abort ..)
  · split at stepped
    · split at stepped <;> cases stepped
      · exact .inl (.initiatorReceive ..)
      · exact .inl (.responderReceive ..)
    · contradiction
  · contradiction

end PacksAtMost

theorem Packs.of_atMost (packs : PacksAtMost ref before after) : Packs before action after := by
  obtain quiet | ⟨_, packs⟩ := packs
  · exact .quiet quiet
  · exact .packed packs

theorem packs_connect {csn : Nat} (stepped : before.connect ref csn = some after) :
    Packs before (.connect ref csn) after := by
  unfold Server.connect at stepped
  split at stepped
  · next absent =>
    obtain ⟨_, _, rfl⟩ := Option.map_eq_some_iff.mp stepped
    exact .connected rfl absent.1 absent.2 rfl rfl
  · contradiction

theorem packs_taskStart (stepped : before.taskStart = some after) :
    Packs before action after := by
  unfold taskStart at stepped
  split at stepped
  · contradiction
  · dsimp only at stepped
    split at stepped
    · cases stepped
      exact .quiet (.of_same rfl rfl)
    · split at stepped
      · next ref message number _ =>
        split at stepped
        · next csn exception failed =>
          cases stepped
          exact .packed (.of_error failed rfl rfl rfl)
        · next csn _ packed =>
          cases stepped
          exact .packed (.of_ok packed rfl rfl rfl)
      · cases stepped
        exact .quiet (.logged (fun _ => rfl) rfl rfl)
      · cases stepped
        exact .quiet ((Quiet.preceded_same (.submit ..) rfl rfl).then_same rfl rfl)

theorem packs_of_step (stepped : before.step action = some after) :
    Packs before action after := by
  cases action with
  | connect ref csn => exact packs_connect stepped
  | begin ref =>
      simp only [Server.step] at stepped
      split at stepped
      · cases stepped
        exact .packed (.send ..)
      · contradiction
  | sent ref =>
      simp only [Server.step] at stepped
      split at stepped
      · cases stepped
        exact .quiet (.of_same rfl rfl)
      · cases stepped
        exact .quiet (.completeHandshake ..)
      · contradiction
  | sendClosed ref code =>
      simp only [Server.step] at stepped
      split at stepped
      · cases stepped
        exact .quiet (Quiet.preceded_same (.abort ..) rfl rfl)
      · contradiction
  | receive ref input => exact .of_atMost (.receive stepped)
  | receiveClosed ref code =>
      simp only [Server.step, receiveClosed] at stepped
      split at stepped
      · split at stepped
        · cases stepped
          exact .quiet (Quiet.preceded_same (.abort ..) rfl rfl)
        · cases stepped
          exact .quiet (Quiet.preceded_same (.abort ..) rfl rfl)
        · split at stepped
          · cases stepped
            exact .quiet (.of_same rfl rfl)
          · contradiction
        · contradiction
      · contradiction
  | gathered ref =>
      simp only [Server.step] at stepped
      split at stepped
      · split at stepped
        · cases stepped
          exact .of_atMost (.sendInitiatorAuth ..)
        · contradiction
      · contradiction
  | result ref =>
      simp only [Server.step] at stepped
      split at stepped
      · cases stepped
        exact .quiet (.leave ..)
      · contradiction
  | join ref =>
      simp only [Server.step] at stepped
      split at stepped
      · exact .quiet (.join stepped)
      · contradiction
  | joinTimeout ref =>
      simp only [Server.step] at stepped
      split at stepped
      · split at stepped
        · contradiction
        · cases stepped
          exact .quiet (.joinTimeout ..)
      · contradiction
  | joinCancelled ref =>
      simp only [Server.step] at stepped
      split at stepped
      · cases stepped
        exact .quiet (.of_same rfl rfl)
      · contradiction
  | dispatch ref =>
      simp only [Server.step] at stepped
      split at stepped
      · cases stepped
        exact .quiet (.dispatch ..)
      · contradiction
  | dispatched ref =>
      simp only [Server.step] at stepped
      split at stepped
      · split at stepped
        · cases stepped
          exact .quiet (.of_same rfl rfl)
        · contradiction
      · contradiction
  | finish ref =>
      simp only [Server.step] at stepped
      split at stepped
      · exact .quiet (.finish stepped)
      · contradiction
  | runnerGet ref => exact .quiet (.runnerGet stepped)
  | runnerWake ref => exact .quiet (.runnerWake stepped)
  | jobDone ref id => exact .quiet (.jobDone stepped)
  | taskStart => exact packs_taskStart stepped
  | relayed ref => exact .quiet (.relayed stepped)
  | relayTimeout ref => exact .quiet (.relayTimeout stepped)
  | relayExpired ref => exact .quiet (.relayExpired stepped)
  | loopCancelled ref => exact .quiet (.loopCancelled stepped)
  | taskSent id | taskSendClosed id code | taskClosed id =>
      simp only [Server.step, taskSent, taskSendClosed, taskClosed] at stepped
      split at stepped
      · split at stepped
        · cases stepped
          exact .quiet (.of_same rfl rfl)
        · contradiction
      · contradiction
  | taskCancelled _ | loopReported _ | pingTimeout _ | pingClosed _ _ | keepAliveCancelled _
  | keepAliveReported _ | connectionLost _ _ =>
      simp only [Server.step, taskCancelled, loopReported, pingTimeout, pingClosed,
        keepAliveCancelled, keepAliveReported] at stepped
      split at stepped
      · cases stepped
        exact .quiet (.of_same rfl rfl)
      · contradiction
  | closeProtocol ref =>
      simp only [Server.step] at stepped
      split at stepped
      · cases stepped
        exact .quiet (.dropClient ..)
      · contradiction

end Server

end SaltyRtcServer
