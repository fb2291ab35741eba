import SaltyRtcServer.HandshakeSteps

/-!
# Every step is a step of each client

The runner of a job queue, the receive loops and the tasks of the event loop
change their client and those to which they send.  Together with the steps of
the handlers these are all actions, so that `Sound.clientStep` may replace the
definition of a step wherever the fate of one client is followed.
-/

namespace SaltyRtcServer

open StepMachine

namespace Server

section Runner

variable {before after : Server} {action : Action} {ref : ClientRef}

theorem jobDone_error {jobs : JobQueue} {exception : PyException}
    (failed : jobs.jobDone = .error exception) : jobs.unfinished = 0 := by
  unfold JobQueue.jobDone at failed
  split at failed
  · assumption
  · contradiction

theorem runnerGet_clientStep (stepped : before.runnerGet ref = some after) :
    ClientStep before (.runnerGet ref) ref after := by
  unfold Server.runnerGet at stepped
  split at stepped
  · next result rest getting queue =>
    dsimp only at stepped
    split at stepped
    · next exception failed =>
      have zero := jobDone_error failed
      cases stepped
      exact .overcounted zero (.inl (by simp [queue])) (setJobs_view _)
    · next jobs done =>
      obtain ⟨_, rfl⟩ := JobQueue.jobDone_ok done
      cases stepped
      exact .tookFinal getting queue (by simp [view, setJobs, cancelTasks, setTasks])
  · next coroutine rest getting queue =>
    cases stepped
    refine .tookCoroutine getting queue (Nat.lt_succ_self _) ?_ (setJobs_view _)
    simp [setJobs, EventLoop.spawn]
  · next id rest getting queue =>
    cases stepped
    exact .tookTask getting queue (setJobs_view _)
  · contradiction

theorem runnerWake_clientStep (stepped : before.runnerWake ref = some after) :
    ClientStep before (.runnerWake ref) ref after := by
  unfold Server.runnerWake at stepped
  split at stepped
  · next id awaiting =>
    let jobs : JobQueue := { before.jobs ref with active := none }
    split at stepped
    · next finished =>
      dsimp only at stepped
      split at stepped
      · next exception failed =>
        have zero := jobDone_error failed
        cases stepped
        exact .overcounted zero (.inr ⟨id, awaiting⟩) (setJobs_view _)
      · next done =>
        obtain ⟨_, rfl⟩ := JobQueue.jobDone_ok done
        cases stepped
        exact .woke awaiting finished (setJobs_view _)
    · next cancelled =>
      cases stepped
      exact .wokeCancelled awaiting cancelled (setJobs_view _)
    · next exception failed =>
      have cancelled := @cancelJobs_view (before.setJobs ref jobs) ref exception
      have outcome := @cancelJobs_exception (before.setJobs ref jobs) ref exception
      have inactive : (before.setJobs ref jobs).jobs ref = jobs := Function.update_self ..
      rw [setJobs_view, inactive] at cancelled
      rw [inactive] at outcome
      dsimp only at stepped
      split at stepped
      · next middle raised called =>
        rw [called] at cancelled outcome
        have queue := congrArg ClientView.jobs cancelled
        cases stepped
        refine .wakeFailed rfl awaiting failed rfl outcome.symm ((setJobs_view _).trans ?_)
        rw [cancelled]
        exact congrArg (fun queue : JobQueue => { before.view ref with
          jobs := { queue with runner := .failed raised } }) queue
      · next middle called =>
        rw [called] at cancelled outcome
        have queue : middle.jobs ref = _ := congrArg ClientView.jobs cancelled
        have tasks : middle.tasks ref = before.tasks ref := congrArg ClientView.tasks cancelled
        cases stepped
        refine .wokeFailed rfl awaiting failed rfl outcome.symm ((setJobs_view _).trans ?_)
        have stopped : (middle.cancelTasks ref (.now exception)).view ref = { middle.view ref with
            tasks := (before.tasks ref).cancel (.now exception) } := by
          simp [view, cancelTasks, setTasks, tasks]
        rw [stopped, cancelled]
        exact congrArg (fun queue : JobQueue => { before.view ref with
          jobs := { queue with
            runner := .getting
            callbacks := queue.callbacks ++ [id] }
          tasks := (before.tasks ref).cancel (.now exception) }) queue
    · contradiction
  · contradiction

theorem jobDone_clientStep {id : TaskId} (stepped : before.jobDone ref id = some after) :
    ClientStep before action ref after := by
  unfold Server.jobDone at stepped
  split at stepped
  · next called =>
    dsimp only at stepped
    split at stepped
    · next exception failed =>
      cases stepped
      have zero := jobDone_error failed
      dsimp only at zero
      exact .jobDone called.1 ((setJobs_view _).trans (by simp [zero]))
    · next done =>
      obtain ⟨_, rfl⟩ := JobQueue.jobDone_ok done
      cases stepped
      exact .jobDone called.1 (setJobs_view _)
  · contradiction

end Runner

section Work

theorem pingTimeoutError_excused {lost : Prop} (client : PathClient) :
    (pingTimeoutError client).Excused lost := by
  unfold pingTimeoutError
  split
  · next exception refused =>
    exact PacketError.excused ⟨exception, (Address.copy_error refused).2⟩
  · exact fun code closed => by contradiction

variable {before after middle : Server} {action : Action} {mover who : ClientRef}

theorem ClientStep.kept (same : after.view who = before.view who) :
    ClientStep before action who after :=
  .worked .same (.refl _ _) same

theorem setReceiveLoop_view (server : Server) (mover who : ClientRef) {status : WorkerStatus}
    {lost : Prop} (excused : ∀ exception, status = .ended exception → exception.Excused lost) :
    ∃ tasks, (server.tasks who).Works lost tasks ∧
      (server.setReceiveLoop mover status).view who = { server.view who with tasks := tasks } := by
  by_cases same : who = mover
  · subst same
    refine ⟨{ server.tasks who with receiveLoop :=
      { (server.tasks who).receiveLoop with status := status } }, ⟨rfl, rfl, ?_, ?_⟩, ?_⟩
    · exact fun exception ended => .inr (excused exception ended)
    · exact fun _ ended => .inl ended
    · simp [view, setReceiveLoop, setTasks]
  · exact ⟨_, (.refl _ _), by
      simp [view, setReceiveLoop, setTasks, same]⟩

/-- A receive loop goes on after something was put in a queue. -/
theorem ClientStep.resumed {jobs : JobQueue} {status : WorkerStatus}
    (supplied : (before.jobs who).Supplied (before.ConnectionClosed who)
      (before.system.stage who = .established) before.loop.next jobs)
    (same : middle.view who = { before.view who with jobs := jobs })
    (excused : ∀ exception, status = .ended exception →
      exception.Excused (before.ConnectionClosed who)) :
    ClientStep before action who (middle.setReceiveLoop mover status) := by
  obtain ⟨tasks, works, final⟩ := middle.setReceiveLoop_view mover who excused
  have kept : middle.tasks who = before.tasks who := congrArg ClientView.tasks same
  rw [kept] at works
  rw [same] at final
  exact .worked supplied works final

/-- Something may be put in a queue, and the receive loop goes on or ends. -/
theorem sendError_view (server : Server) (mover who : ClientRef) (packet : List UInt8)
    (lost established : Prop) (next : TaskId) : ∃ jobs tasks,
      (server.jobs who).Supplied lost established next jobs ∧ (server.tasks who).Works lost tasks ∧
      (server.sendError mover packet).view who =
        { server.view who with jobs := jobs, tasks := tasks } := by
  unfold Server.sendError
  split
  · next exception refused =>
    have excused : ∀ other, WorkerStatus.ended exception = .ended other → other.Excused lost := by
      rintro other ended
      cases ended
      exact PacketError.excused ⟨exception, (Address.copy_error refused).2⟩
    obtain ⟨tasks, works, final⟩ := setReceiveLoop_view server mover who excused
    exact ⟨server.jobs who, tasks, .same, works, final⟩
  · next id _ =>
    let message : OutgoingMessage := .sendError id ((packet.drop 16).take 8)
    obtain ⟨jobs, supplied, submitted⟩ :=
      submit_view server mover who message lost established next
    obtain ⟨tasks, works, final⟩ := setReceiveLoop_view (server.submit mover message) mover who
      (fun exception (ended : WorkerStatus.waiting = .ended exception) =>
        (by contradiction : exception.Excused lost))
    rw [submit_tasks] at works
    rw [submitted] at final
    exact ⟨jobs, tasks, supplied, works, final⟩

theorem sendError_clientStep (packet : List UInt8) :
    ClientStep before action who (before.sendError mover packet) := by
  obtain ⟨jobs, tasks, supplied, works, same⟩ := sendError_view before mover who packet
    (before.ConnectionClosed who) (before.system.stage who = .established) before.loop.next
  exact .worked supplied works same

theorem submitTask_view {destination : ClientRef} (message : OutgoingMessage)
    (established : before.system.stage destination = .established) : ∃ jobs,
      (before.jobs who).Supplied (before.ConnectionClosed who)
        (before.system.stage who = .established) before.loop.next jobs ∧
      (before.submitTask destination message).view who =
        { before.view who with jobs := jobs } := by
  have jobs := congrFun (submitTask_jobs before destination message) who
  have changed : (before.submitTask destination message).view who = { before.view who with
      jobs := (before.submitTask destination message).jobs who } := rfl
  rw [changed, jobs]
  by_cases same : who = destination
  · subst same
    rw [Function.update_self]
    split
    · next opened => exact ⟨_, .task opened established, rfl⟩
    · exact ⟨_, .same, rfl⟩
  · rw [Function.update_of_ne same]
    exact ⟨_, .same, rfl⟩

theorem relayMessage_clientStep {destination : Option ClientRef} (packet : List UInt8)
    (established : ∀ ref, destination = some ref → before.system.stage ref = .established) :
    ClientStep before action who (before.relayMessage mover destination packet) := by
  cases destination with
  | none => exact sendError_clientStep packet
  | some destination =>
      obtain ⟨jobs, supplied, same⟩ :=
        @submitTask_view before who destination (.relay packet) (established destination rfl)
      exact .resumed supplied same fun exception ended => by contradiction

theorem ended_clientStep {exception : PyException}
    (excused : exception.Excused (before.ConnectionClosed who)) :
    ClientStep before action who (before.setReceiveLoop mover (.ended exception)) := by
  refine .resumed .same rfl fun other ended => ?_
  cases ended
  exact excused

theorem dropClient_clientStep {victim : ClientRef} {code : CloseCode}
    (drops : victim ∈ before.drops action) :
    ClientStep before action who (before.dropClient victim code) := by
  by_cases same : who = victim
  · subst same
    have same : (before.dropClient who code).view who = { before.view who with
        jobs := (before.jobs who).close (.disconnected code.value) [.close code]
        tasks := (before.tasks who).cancel .onClosed } := by
      simp [view, dropClient, drop, setJobs, cancelTasks, setTasks, Server.log,
        PathSystem.dropClient, PathSystem.remove]
    exact .dropped drops same
  · refine .kept ?_
    simp [view, dropClient, drop, setJobs, cancelTasks, setTasks, Server.log,
      PathSystem.dropClient, PathSystem.remove, same]

theorem getResponder_excused {path : Path} {id : ResponderAddress} {exception : PyException}
    {lost : Prop} (raised : path.getResponder id = .error exception) : exception.Excused lost := by
  unfold Path.getResponder at raised
  split at raised
  · cases raised
    exact fun _ closed => by contradiction
  split at raised
  · cases raised
    exact fun _ closed => by contradiction
  · contradiction

theorem ofNat_excused {value : Nat} {exception : PyException} {lost : Prop}
    (raised : ResponderAddress.ofNat value = .error exception) : exception.Excused lost := by
  unfold ResponderAddress.ofNat at raised
  split at raised
  · contradiction
  · cases raised
    exact fun _ closed => by contradiction

theorem initiatorReceive_clientStep (consistent : before.system.Consistent)
    (awaiting : before.handler mover = .awaitingResult)
    (waiting : (before.tasks mover).receiveLoop = .start)
    (typed : (before.system.client mover).type = some .initiator) (input : Received) :
    ClientStep before (.receive mover input) who (before.initiatorReceive mover input) := by
  unfold Server.initiatorReceive
  split
  · next destination packet =>
    split
    · next exception raised => exact ended_clientStep (ofNat_excused raised)
    · next id _ =>
      split
      · exact relayMessage_clientStep packet fun _ found => by contradiction
      · next exception _ raised => exact ended_clientStep (getResponder_excused raised)
      · next responder found =>
        refine relayMessage_clientStep packet fun ref same => ?_
        cases same
        exact (consistent.responder id _ (getResponder_ok found)).1
  · next id reason =>
    split
    · exact .kept rfl
    · next exception _ raised => exact ended_clientStep (getResponder_excused raised)
    · next responder found =>
      refine dropClient_clientStep ?_
      have stored := getResponder_ok found
      simp [drops, awaiting, waiting, typed, stored]
  · next error => exact ended_clientStep (PacketError.excused error)
  · exact ended_clientStep (messageFlowError_excused _)

theorem responderReceive_clientStep (consistent : before.system.Consistent) (input : Received) :
    ClientStep before action who (before.responderReceive mover input) := by
  unfold Server.responderReceive
  split
  · next destination packet =>
    split
    · exact relayMessage_clientStep packet fun _ found => by contradiction
    · next exception _ raised => exact ended_clientStep (getInitiator_excused raised)
    · next initiator found =>
      refine relayMessage_clientStep packet fun ref same => ?_
      cases same
      exact (consistent.initiator _ (getInitiator_ok found)).1
  · next error => exact ended_clientStep (PacketError.excused error)
  · exact ended_clientStep (messageFlowError_excused _)

/-- The keep-alive loop of a client goes on or ends. -/
theorem setKeepAlive_clientStep {jobs : JobQueue} {status : WorkerStatus}
    (supplied : (before.jobs who).Supplied (before.ConnectionClosed who)
      (before.system.stage who = .established) before.loop.next jobs)
    (same : middle.view who = { before.view who with jobs := jobs })
    (excused : ∀ exception, status = .ended exception →
      exception.Excused (before.ConnectionClosed who)) :
    ClientStep before action who (middle.setKeepAlive mover status) := by
  have kept : middle.tasks who = before.tasks who := congrArg ClientView.tasks same
  by_cases own : who = mover
  · subst own
    have changed : (middle.setKeepAlive who status).view who = { middle.view who with
        tasks := { middle.tasks who with
          keepAlive := { (middle.tasks who).keepAlive with status := status } } } := by
      simp [view, setKeepAlive, setTasks]
    rw [same, kept] at changed
    have works : (before.tasks who).Works (before.ConnectionClosed who) { before.tasks who with
        keepAlive := { (before.tasks who).keepAlive with status := status } } :=
      ⟨rfl, rfl, fun _ ended => .inl ended, fun exception ended => .inr (excused exception ended)⟩
    exact .worked supplied works changed
  · have unchanged : (middle.setKeepAlive mover status).view who = middle.view who := by
      simp [view, setKeepAlive, setTasks, own]
    rw [same] at unchanged
    exact .worked supplied (.refl _ _)
      unchanged

/-- A queue is closed because its connection is. -/
theorem closeJobs_view (server : Server) (mover : ClientRef) {code : Nat}
    (lost : server.ConnectionClosed mover) : ∃ jobs,
      (server.jobs who).Supplied (server.ConnectionClosed who)
        (server.system.stage who = .established) server.loop.next jobs ∧
      (server.closeJobs mover code).view who = { server.view who with jobs := jobs } := by
  by_cases same : who = mover
  · subst same
    exact ⟨_, .closed code lost, setJobs_view _⟩
  · refine ⟨_, .same, ?_⟩
    simp [view, closeJobs, setJobs, same]

theorem relayed_clientStep (stepped : before.relayed mover = some after) :
    ClientStep before action who after := by
  unfold Server.relayed at stepped
  split at stepped
  · split at stepped
    · cases stepped
      exact .resumed .same rfl fun _ ended => by contradiction
    · split at stepped
      · cases stepped
        exact ended_clientStep fun _ closed => by contradiction
      · cases stepped
        exact sendError_clientStep _
    · cases stepped
      exact sendError_clientStep _
    · contradiction
  · contradiction

theorem relayTimeout_clientStep (stepped : before.relayTimeout mover = some after) :
    ClientStep before action who after := by
  unfold Server.relayTimeout at stepped
  split at stepped
  · next id packet _ =>
    split at stepped
    · cases stepped
      have same : Server.view { before with loop := before.loop.requestCancel id } who =
          { before.view who with jobs := before.jobs who } := rfl
      exact .resumed .same same fun _ ended => by contradiction
    · contradiction
  · contradiction

theorem relayExpired_clientStep (stepped : before.relayExpired mover = some after) :
    ClientStep before action who after := by
  unfold Server.relayExpired at stepped
  split at stepped
  · split at stepped
    · cases stepped
      exact sendError_clientStep _
    · contradiction
  · contradiction

/-- The receive loop is cancelled while it waits for a relay task. -/
theorem giveUpRelay_clientStep {id : TaskId} {packet : List UInt8}
    (stepped : (if id ∈ before.loop.ready then none
      else
        let server := { before with loop := before.loop.requestCancel id }
        if (server.tasks mover).haveResult then
          some (server.setReceiveLoop mover (.ended .cancelledError))
        else
          some ((server.setTasks mover { server.tasks mover with
            receiveLoop := ⟨.waiting, false⟩ }).sendError mover packet)) = some after) :
    ClientStep before action who after := by
  split at stepped
  · contradiction
  · dsimp only at stepped
    split at stepped
    · cases stepped
      have same : Server.view { before with loop := before.loop.requestCancel id } who =
          { before.view who with jobs := before.jobs who } := rfl
      refine .resumed .same same fun exception ended => ?_
      cases ended
      exact fun _ closed => by contradiction
    · cases stepped
      let middle : Server := { before with loop := before.loop.requestCancel id }.setTasks mover
        { before.tasks mover with receiveLoop := ⟨.waiting, false⟩ }
      obtain ⟨jobs, tasks, supplied, works, final⟩ := sendError_view middle mover who packet
        (before.ConnectionClosed who) (before.system.stage who = .established) before.loop.next
      have begun : (before.tasks who).Works (before.ConnectionClosed who) (middle.tasks who) := by
        by_cases own : who = mover
        · subst own
          refine ⟨?_, ?_, ?_, ?_⟩ <;> simp +contextual [middle, setTasks]
        · refine ⟨?_, ?_, ?_, ?_⟩ <;> simp +contextual [middle, setTasks, own]
      exact .worked supplied (begun.trans works) final

theorem loopCancelled_clientStep (stepped : before.loopCancelled mover = some after) :
    ClientStep before action who after := by
  unfold Server.loopCancelled at stepped
  split at stepped
  · cases stepped
    exact ended_clientStep fun _ closed => by contradiction
  · exact giveUpRelay_clientStep stepped
  · exact giveUpRelay_clientStep stepped
  · contradiction

/-- The done callback of a loop of `Tasks`. -/
theorem reported_clientStep {tasks : Tasks} {exception : PyException}
    (ended : (before.tasks mover).receiveLoop.status = .ended exception ∨
      (before.tasks mover).keepAlive.status = .ended exception)
    (works : (before.tasks mover).Works (before.ConnectionClosed mover) tasks)
    (others : ∀ ref, ref ≠ mover → after.view ref = before.view ref)
    (own : after.view mover = { before.view mover with tasks := tasks.taskDone exception }) :
    ClientStep before action who after := by
  by_cases same : who = mover
  · subst same
    exact .reported ended works own
  · exact .kept (others who same)

theorem loopReported_clientStep (stepped : before.loopReported mover = some after) :
    ClientStep before action who after := by
  unfold Server.loopReported at stepped
  split at stepped
  · next exception ended =>
    cases stepped
    have works : (before.tasks mover).Works (before.ConnectionClosed mover) { before.tasks mover with
        receiveLoop := { (before.tasks mover).receiveLoop with status := .reported } } :=
      ⟨rfl, rfl, fun _ reported => by contradiction, fun _ ended => .inl ended⟩
    refine reported_clientStep (.inl ended) works ?_ ?_
    · exact fun ref ne => by simp [view, setReceiveLoop, setTasks, ne]
    · simp [view, setReceiveLoop, setTasks]
  · contradiction

theorem keepAliveReported_clientStep (stepped : before.keepAliveReported mover = some after) :
    ClientStep before action who after := by
  unfold Server.keepAliveReported at stepped
  split at stepped
  · next exception ended =>
    cases stepped
    have works : (before.tasks mover).Works (before.ConnectionClosed mover) { before.tasks mover with
        keepAlive := { (before.tasks mover).keepAlive with status := .reported } } :=
      ⟨rfl, rfl, fun _ ended => .inl ended, fun _ reported => by contradiction⟩
    refine reported_clientStep (.inr ended) works ?_ ?_
    · exact fun ref ne => by simp [view, setKeepAlive, setTasks, ne]
    · simp [view, setKeepAlive, setTasks]
  · contradiction

theorem taskStart_clientStep (stepped : before.taskStart = some after) :
    ClientStep before .taskStart who after := by
  unfold Server.taskStart at stepped
  split at stepped
  · contradiction
  · next head rest ready =>
    dsimp only at stepped
    split at stepped
    · cases stepped
      exact .kept rfl
    · split at stepped
      · split at stepped
        · cases stepped
          exact .kept rfl
        · cases stepped
          exact .kept rfl
      · next ref code body =>
        cases stepped
        by_cases same : who = ref
        · subst same
          refine @ClientStep.closing before _ who _ code rfl ?_
          simp [view, suspendTask, Server.log, closeJobs, setJobs]
        · refine .kept ?_
          simp [view, suspendTask, Server.log, closeJobs, setJobs, same]
      · next ref message body =>
        cases stepped
        obtain ⟨jobs, supplied, same⟩ := submit_view
          { before with loop := { before.loop with ready := rest } } ref who message
          (before.ConnectionClosed who) (before.system.stage who = .established) before.loop.next
        exact .worked supplied (.refl _ _) same

theorem taskClosed_clientStep {id : TaskId} (stepped : before.taskClosed id = some after) :
    ClientStep before action who after := by
  unfold Server.taskClosed at stepped
  split at stepped
  · next ref code body =>
    split at stepped
    · cases stepped
      by_cases same : who = ref
      · subst same
        refine @ClientStep.lost before _ who _ ((before.connection who).lost.getD code.value) ?_
        simp [view, finishTask]
      · exact .kept (by simp [view, finishTask, same])
    · contradiction
  · contradiction

theorem taskSendClosed_clientStep {id : TaskId} {code : Nat}
    (stepped : before.taskSendClosed id code = some after) :
    ClientStep before action who after := by
  unfold Server.taskSendClosed at stepped
  split at stepped
  · split at stepped
    · next resumable =>
      cases stepped
      obtain ⟨jobs, supplied, same⟩ := @closeJobs_view who before _ _ resumable.2
      exact .worked supplied (.refl _ _) same
    · contradiction
  · contradiction

theorem connect_clientStep {csn : Nat} (stepped : before.connect mover csn = some after) :
    ClientStep before (.connect mover csn) who after := by
  unfold Server.connect at stepped
  split at stepped
  · next absent =>
    obtain ⟨system, joined, rfl⟩ := Option.map_eq_some_iff.mp stepped
    simp only [PathSystem.step] at joined
    split at joined
    · split at joined
      · contradiction
      · cases joined
        by_cases same : who = mover
        · subst same
          exact @ClientStep.connected before _ who _ csn none rfl absent.1
            (by simp [view, PathClient.new])
        · exact .kept (by simp [view, same])
    · contradiction
  · contradiction

end Work

section Others

variable {before server : Server} {action : Action} {mover who : ClientRef}

theorem dispatch_others (ne : who ≠ mover) (closing : Option TaskId) :
    ClientStep before action who (before.dispatch mover closing) := by
  have kept (handler : Handler) : ClientStep before action who (before.setHandler mover handler) :=
    .kept (Keeps.setHandler before handler who ne)
  unfold Server.dispatch
  dsimp only
  split
  · exact kept _
  · split
    · split
      · exact kept _
      · rcases gathers : before.gather (before.toResponders fun id =>
          .disconnected id.toAddress initiatorAddress) with ⟨after, ids⟩
        have same := @gather_view after before who _ _ gathers
        cases ids with
        | nil => exact .kept ((Keeps.setHandler after _ who ne).trans same)
        | cons id ids => exact .kept ((Keeps.setHandler after _ who ne).trans same)
    · split
      · exact kept _
      · exact kept _
      · next initiator _ =>
        obtain ⟨jobs, supplied, same⟩ := submit_view before initiator who
          (.disconnected initiatorAddress (before.system.client mover).id)
          (before.ConnectionClosed who) (before.system.stage who = .established) before.loop.next
        exact .worked supplied (.refl _ _)
          ((Keeps.setHandler _ _ who ne).trans same)
    · exact kept _

theorem leave_keeps (result : PyException) : Keeps mover server (server.leave mover result) := by
  have cancelled : Keeps mover server (server.cancelJobs mover result).1 :=
    .cancelJobs server result
  unfold Server.leave
  split
  · next middle raised called =>
    rw [called] at cancelled
    exact cancelled.trans (.handleException middle raised)
  · next middle called =>
    rw [called] at cancelled
    refine .trans cancelled (.trans ?_ (.handleException _ result))
    intro ref ne
    split <;> simp [view, PathSystem.leave, PathSystem.clean, PathSystem.remove, ne]

theorem handshakeInitiator_others (ne : who ≠ mover) {verdict : Except PacketError Unit}
    (same : server.view who = before.view who)
    (drops : ∀ previous, verdict = .ok () → server.system.path.initiator = some previous →
      previous ∈ before.drops action) :
    ClientStep before action who (server.handshakeInitiator mover verdict) := by
  unfold Server.handshakeInitiator
  split
  · exact .kept ((Keeps.abort server _ who ne).trans same)
  · dsimp only
    have type := @afterSetInitiator_type mover server.system who
    have stage := afterSetInitiator_stage server.system
      (server.system.path.setInitiator mover (server.system.client mover)) ne
    cases called : server.system.path.setInitiator mover (server.system.client mover) with
    | raised state exception =>
        rw [called] at type stage
        refine .kept ((Keeps.abort _ exception who ne).trans (Eq.trans ?_ same))
        simp [view, type, stage]
    | returned state previous =>
        rw [called] at type stage
        have isInitiator : previous = server.system.path.initiator :=
          (Path.setInitiator_returned called).2.2.2.1
        let middle : Server := { server with
          system := server.system.afterSetInitiator mover (.returned state previous) }.log
            (.authenticated mover)
        have middleView : middle.view who = before.view who := by
          rw [← same]
          simp [view, middle, Server.log, type, stage]
        dsimp only
        rcases gathers : (middle.dropPrevious previous).gather
          ((middle.dropPrevious previous).toResponders .newInitiator) with ⟨after, ids⟩
        have gathered := @gather_view after (middle.dropPrevious previous) who _ _ gathers
        have finish (last : Server) (final : Keeps mover after last) :
            ClientStep before action who last := by
          have finalView := (final who ne).trans gathered
          cases previous with
          | none => exact .kept (finalView.trans middleView)
          | some previous =>
              by_cases dropped : who = previous
              · subst dropped
                have view : (middle.dropPrevious (some who)).view who = { middle.view who with
                    jobs := (middle.jobs who).close (.disconnected CloseCode.dropByInitiator.value)
                      [.close .dropByInitiator]
                    tasks := (middle.tasks who).cancel .onClosed } := by
                  simp [Server.view, Server.dropPrevious, Server.drop, setJobs, cancelTasks,
                    setTasks, Server.log]
                have jobs : middle.jobs who = before.jobs who :=
                  congrArg ClientView.jobs middleView
                have tasks : middle.tasks who = before.tasks who :=
                  congrArg ClientView.tasks middleView
                rw [middleView, jobs, tasks] at view
                exact .dropped (drops who rfl isInitiator.symm) (finalView.trans view)
              · have drops : Keeps previous middle (middle.drop previous .dropByInitiator) :=
                  .drop middle _
                exact .kept (finalView.trans ((drops who dropped).trans middleView))
        cases ids with
        | nil => exact finish _ (.sendInitiatorAuth after)
        | cons id ids => exact finish _ (.setHandler after _)

theorem announceResponder_others (ne : who ≠ mover) (same : server.view who = before.view who)
    (id : ResponderAddress) :
    ClientStep before action who (server.announceResponder mover id) := by
  unfold Server.announceResponder
  split
  · exact .kept ((Keeps.sendServerAuth server _ who ne).trans same)
  · exact .kept ((Keeps.abort server _ who ne).trans same)
  · next initiator _ =>
    obtain ⟨jobs, supplied, submitted⟩ := submit_view server initiator who (.newResponder id)
      (before.ConnectionClosed who) (before.system.stage who = .established) before.loop.next
    have queue : server.jobs who = before.jobs who := congrArg ClientView.jobs same
    rw [queue] at supplied
    rw [same] at submitted
    exact .worked supplied (.refl _ _)
      ((Keeps.sendServerAuth _ _ who ne).trans submitted)

theorem handshakeResponder_others (ne : who ≠ mover) (verdict : Except PacketError Unit) :
    ClientStep before action who (before.handshakeResponder mover verdict) := by
  unfold Server.handshakeResponder
  split
  · exact .kept (Keeps.abort before _ who ne)
  · dsimp only
    have type := @afterAddResponder_type mover before.system who
    have stage := afterAddResponder_stage before.system
      (before.system.path.addResponder mover (before.system.client mover)) ne
    cases called : before.system.path.addResponder mover (before.system.client mover) with
    | raised state exception =>
        rw [called] at type stage
        refine .kept ((Keeps.abort _ exception who ne).trans ?_)
        simp [view, type, stage]
    | returned state id =>
        rw [called] at type stage
        refine announceResponder_others ne ?_ id
        simp [view, Server.log, type, stage]

theorem receiveFirst_others (ne : who ≠ mover) (receiving : before.handler mover = .receivingFirst)
    (input : Received) :
    ClientStep before (.receive mover input) who (before.receiveFirst mover input) := by
  have typed (type : AddressType) : Server.view { before with
      system := before.system.setType mover type } who = before.view who := by
    simp [view, PathSystem.setType, ne]
  unfold Server.receiveFirst
  split
  · next verdict =>
    refine handshakeInitiator_others ne (typed .initiator) fun previous accepted found => ?_
    subst accepted
    have stored : before.system.path.initiator = some previous := found
    simp [drops, receiving, stored]
  · unfold Server.awaitAuth
    split
    · exact .kept ((Keeps.abort _ _ who ne).trans (typed .responder))
    · exact .kept ((Keeps.setHandler _ _ who ne).trans (typed .responder))
  · exact .kept (Keeps.abort before _ who ne)
  · exact .kept (Keeps.abort before _ who ne)

theorem receiveAuth_others (ne : who ≠ mover) (input : Received) :
    ClientStep before action who (before.receiveAuth mover input) := by
  unfold Server.receiveAuth
  split
  · exact handshakeResponder_others ne _
  · exact .kept (Keeps.abort before _ who ne)
  · exact .kept (Keeps.abort before _ who ne)

theorem runnerGet_others (ne : who ≠ mover) {after : Server}
    (stepped : before.runnerGet mover = some after) : after.view who = before.view who := by
  unfold Server.runnerGet at stepped
  split at stepped
  · dsimp only at stepped
    split at stepped
    · cases stepped
      exact Keeps.setJobs before _ who ne
    · cases stepped
      exact (Keeps.cancelTasks _ _ who ne).trans (Keeps.setJobs before _ who ne)
  · next coroutine rest _ _ =>
    cases stepped
    exact Keeps.setJobs { before with loop := before.loop.spawn (.run mover coroutine) } _ who ne
  · cases stepped
    exact Keeps.setJobs before _ who ne
  · contradiction

theorem runnerWake_others (ne : who ≠ mover) {after : Server}
    (stepped : before.runnerWake mover = some after) : after.view who = before.view who := by
  unfold Server.runnerWake at stepped
  split at stepped
  · next id awaiting =>
    let jobs : JobQueue := { before.jobs mover with active := none }
    split at stepped
    · dsimp only at stepped
      split at stepped
      · cases stepped
        exact Keeps.setJobs before _ who ne
      · cases stepped
        exact Keeps.setJobs before _ who ne
    · cases stepped
      exact Keeps.setJobs before _ who ne
    · next exception failed =>
      have cancelled : Keeps mover before ((before.setJobs mover jobs).cancelJobs mover exception).1 :=
        (Keeps.setJobs before jobs).trans (.cancelJobs _ exception)
      dsimp only at stepped
      split at stepped
      · next middle raised called =>
        rw [called] at cancelled
        cases stepped
        exact (Keeps.setJobs middle _ who ne).trans (cancelled who ne)
      · next middle called =>
        rw [called] at cancelled
        cases stepped
        exact (Keeps.setJobs _ _ who ne).trans
          ((Keeps.cancelTasks middle _ who ne).trans (cancelled who ne))
    · contradiction
  · contradiction

theorem jobDone_others (ne : who ≠ mover) {after : Server} {id : TaskId}
    (stepped : before.jobDone mover id = some after) : after.view who = before.view who := by
  unfold Server.jobDone at stepped
  split at stepped
  · dsimp only at stepped
    split at stepped
    · cases stepped
      exact Keeps.setJobs before _ who ne
    · cases stepped
      exact Keeps.setJobs before _ who ne
  · contradiction

theorem joinTimeout_keeps (closing : Option TaskId) :
    Keeps mover server (server.joinTimeout mover closing) := by
  unfold Server.joinTimeout
  dsimp only
  split
  · exact (Keeps.setHandler server _).trans (.setJobs _ _)
  · exact fun ref ne => Keeps.setHandler server (.cancellingJoin closing) ref ne
  · exact .setHandler server _

end Others

section Step

variable {before after : Server} {action : Action} {mover who : ClientRef}

theorem Sound.notStarted (sound : before.Sound) (starting : (before.handler who).starting = true) :
    (before.jobs who).runner = .notStarted := by
  have phase := sound.phase who
  unfold Phase at phase
  cases handler : before.handler who <;> simp only [handler, Handler.starting] at starting phase
  all_goals first | contradiction | exact phase.2.notStarted

theorem Sound.inHandshake (sound : before.Sound) (starting : (before.handler who).starting = true)
    (notSending : before.handler who ≠ .sendingAuth)
    (notFirst : before.handler who ≠ .receivingFirst)
    (gathering : ∀ ids, before.handler who = .gathering ids →
      action = .gathered who ∧ ¬ before.CanAnnounce who) :
    before.InHandshake action who before where
  starting := starting
  notSending := notSending
  gathering := gathering
  notStarted := sound.notStarted starting
  typed := .inl ⟨rfl, notFirst⟩
  loop := rfl
  jobs := rfl
  tasks := rfl
  connection := rfl
  protocols := rfl

/-- A client in its handshake is not the stored initiator. -/
theorem Sound.not_initiator (sound : before.Sound)
    (handshaking : before.handler who = .receivingFirst ∨ before.handler who = .receivingAuth) :
    before.system.path.initiator ≠ some who := by
  intro stored
  have phase := sound.phase who
  have stage := (sound.consistent.initiator who stored).1
  unfold Phase at phase
  obtain handler | handler := handshaking <;> simp [handler, stage] at phase

theorem receive_clientStep (sound : before.Sound) {input : Received}
    (stepped : before.receive mover input = some after) :
    ClientStep before (.receive mover input) who after := by
  unfold Server.receive at stepped
  split at stepped
  · next receiving =>
    cases stepped
    by_cases ne : who = mover
    · subst ne
      have starting : (before.handler who).starting = true := by rw [receiving]; rfl
      exact receiveFirst_clientStep receiving (sound.notStarted starting)
        (sound.not_initiator (.inl receiving)) input
    · exact receiveFirst_others ne receiving input
  · next receiving =>
    cases stepped
    by_cases ne : who = mover
    · subst ne
      have handshake : before.InHandshake (.receive who input) who before :=
        sound.inHandshake (by rw [receiving]; rfl) (by simp [receiving]) (by simp [receiving])
          (by simp [receiving])
      exact handshake.receiveAuth (sound.not_initiator (.inr receiving)) input
    · exact receiveAuth_others ne input
  · next awaiting =>
    split at stepped
    · next waiting =>
      split at stepped
      · next typed =>
        cases stepped
        exact initiatorReceive_clientStep sound.consistent awaiting waiting typed input
      · cases stepped
        exact responderReceive_clientStep sound.consistent input
    · contradiction
  · contradiction

theorem receiveClosed_clientStep (sound : before.Sound) {code : Nat}
    (stepped : before.receiveClosed mover code = some after) :
    ClientStep before (.receiveClosed mover code) who after := by
  unfold Server.receiveClosed at stepped
  split at stepped
  · next lost =>
    have aborts (receiving : before.handler mover = .receivingFirst ∨
        before.handler mover = .receivingAuth) : ClientStep before (.receiveClosed mover code) who
        ((before.closeJobs mover code).abort mover (.disconnected code)) := by
      by_cases ne : who = mover
      · subst ne
        have starting : (before.handler who).starting = true := by
          obtain receiving | receiving := receiving <;> rw [receiving] <;> rfl
        refine abort_closed starting lost (sound.notStarted starting) ?_ ?_
        · obtain receiving | receiving := receiving <;> simp [receiving]
        · obtain receiving | receiving := receiving <;> simp [receiving]
      · exact .kept ((Keeps.abort _ _ who ne).trans (Keeps.closeJobs before code who ne))
    split at stepped
    · next receiving =>
      cases stepped
      exact aborts (.inl receiving)
    · next receiving =>
      cases stepped
      exact aborts (.inr receiving)
    · split at stepped
      · cases stepped
        obtain ⟨jobs, supplied, same⟩ := @closeJobs_view who before mover code lost
        by_cases ne : who = mover
        · subst ne
          refine .resumed supplied same fun exception ended => ?_
          cases ended
          exact fun _ _ => lost
        · exact .worked supplied (.refl _ _)
            (Eq.trans (by simp [view, setReceiveLoop, setTasks, ne]) same)
      · contradiction
    · contradiction
  · contradiction

theorem gathered_clientStep (sound : before.Sound) {ids : List TaskId}
    (gathering : before.handler who = .gathering ids) :
    ClientStep before (.gathered who) who (before.sendInitiatorAuth who) := by
  by_cases announces : before.CanAnnounce who
  · have same := sendInitiatorAuth_view announces
    exact .advanced (by rw [gathering]; rfl) (by simp [gathering]) rfl
      (.inl ⟨rfl, by simp [gathering]⟩) same
  · have handshake : before.InHandshake (.gathered who) who before :=
      sound.inHandshake (by rw [gathering]; rfl) (by simp [gathering]) (by simp [gathering])
        fun _ _ => ⟨rfl, announces⟩
    exact handshake.sendInitiatorAuth

/-- Whatever the action, a step changes a client in one of the ways of `ClientStep`. -/
theorem Sound.clientStep (sound : before.Sound) (stepped : before.step action = some after)
    (who : ClientRef) : ClientStep before action who after := by
  cases action with
  | connect mover csn => exact connect_clientStep stepped
  | «begin» mover =>
      simp only [Server.step] at stepped
      split at stepped
      · next created =>
        cases stepped
        by_cases ne : who = mover
        · subst ne
          have handshake : before.InHandshake (.begin who) who before :=
            sound.inHandshake (by rw [created]; rfl) (by simp [created]) (by simp [created])
              (by simp [created])
          exact handshake.send _ rfl
        · exact .kept (Keeps.send before _ _ who ne)
      · contradiction
  | sent mover =>
      simp only [Server.step] at stepped
      split at stepped
      · next sending =>
        cases stepped
        by_cases ne : who = mover
        · subst ne
          have handshake : before.InHandshake (.sent who) who before :=
            sound.inHandshake (by rw [sending]; rfl) (by simp [sending]) (by simp [sending])
              (by simp [sending])
          exact handshake.advance .receivingFirst rfl (setHandler_view _)
        · exact .kept (Keeps.setHandler before _ who ne)
      · next sending =>
        cases stepped
        by_cases ne : who = mover
        · subst ne
          exact completeHandshake_clientStep sending
            (sound.notStarted (by rw [sending]; rfl))
        · exact .kept (Keeps.completeHandshake before who ne)
      · contradiction
  | sendClosed mover code =>
      simp only [Server.step] at stepped
      split at stepped
      · next closed =>
        obtain ⟨sending, lost⟩ := closed
        cases stepped
        by_cases ne : who = mover
        · subst ne
          have starting : (before.handler who).starting = true := by
            obtain sending | sending := sending <;> rw [sending] <;> rfl
          refine abort_closed starting lost (sound.notStarted starting) ?_ fun _ => ⟨code, rfl⟩
          obtain sending | sending := sending <;> simp [sending]
        · exact .kept ((Keeps.abort _ _ who ne).trans (Keeps.closeJobs before code who ne))
      · contradiction
  | receive mover input => exact receive_clientStep sound stepped
  | receiveClosed mover code => exact receiveClosed_clientStep sound stepped
  | gathered mover =>
      simp only [Server.step] at stepped
      split at stepped
      · next ids gathering =>
        split at stepped
        · cases stepped
          by_cases ne : who = mover
          · subst ne
            exact gathered_clientStep sound gathering
          · exact .kept (Keeps.sendInitiatorAuth before who ne)
        · contradiction
      · contradiction
  | result mover =>
      simp only [Server.step] at stepped
      split at stepped
      · next result awaiting known =>
        cases stepped
        by_cases ne : who = mover
        · subst ne
          exact leave_clientStep awaiting known
        · exact .kept (leave_keeps result who ne)
      · contradiction
  | join mover =>
      simp only [Server.step] at stepped
      split at stepped
      · next closing joining =>
        by_cases ne : who = mover
        · subst ne
          exact join_clientStep joining stepped
        · refine .kept ?_
          unfold Server.join at stepped
          split at stepped
          · cases stepped
            exact Keeps.setHandler before _ who ne
          · cases stepped
            exact Keeps.setHandler before _ who ne
          · split at stepped
            · cases stepped
              exact Keeps.setHandler before _ who ne
            · contradiction
          · contradiction
      · contradiction
  | joinTimeout mover =>
      simp only [Server.step] at stepped
      split at stepped
      · next closing joining =>
        split at stepped
        · contradiction
        · cases stepped
          by_cases ne : who = mover
          · subst ne
            exact joinTimeout_clientStep joining
          · exact .kept (joinTimeout_keeps closing who ne)
      · contradiction
  | joinCancelled mover =>
      simp only [Server.step] at stepped
      split at stepped
      · next closing cancelling =>
        cases stepped
        by_cases ne : who = mover
        · subst ne
          refine .joinCancelled rfl cancelling ((setHandler_view _).trans ?_)
          rw [setJobs_view]
          rfl
        · exact .kept ((Keeps.setHandler _ _ who ne).trans (Keeps.setJobs _ _ who ne))
      · contradiction
  | dispatch mover =>
      simp only [Server.step] at stepped
      split at stepped
      · next closing joined =>
        cases stepped
        by_cases ne : who = mover
        · subst ne
          exact dispatch_clientStep joined
        · exact dispatch_others ne closing
      · contradiction
  | dispatched mover =>
      simp only [Server.step] at stepped
      split at stepped
      · next closing ids dispatching =>
        split at stepped
        · cases stepped
          by_cases ne : who = mover
          · subst ne
            exact .closes rfl dispatching (setHandler_view _)
          · exact .kept (Keeps.setHandler before _ who ne)
        · contradiction
      · contradiction
  | finish mover =>
      simp only [Server.step] at stepped
      split at stepped
      · next closing isClosing =>
        by_cases ne : who = mover
        · subst ne
          exact finish_clientStep isClosing stepped
        · refine .kept ?_
          unfold Server.finish at stepped
          split at stepped
          · cases stepped
            simp [view, setHandler, ne]
          · split at stepped
            · cases stepped
              simp [view, setHandler, ne]
            · cases stepped
              exact Keeps.setHandler _ _ who ne
            · cases stepped
              exact Keeps.setHandler _ _ who ne
            · contradiction
      · contradiction
  | runnerGet mover =>
      by_cases ne : who = mover
      · subst ne
        exact runnerGet_clientStep stepped
      · exact .kept (runnerGet_others ne stepped)
  | runnerWake mover =>
      by_cases ne : who = mover
      · subst ne
        exact runnerWake_clientStep stepped
      · exact .kept (runnerWake_others ne stepped)
  | jobDone mover id =>
      by_cases ne : who = mover
      · subst ne
        exact jobDone_clientStep stepped
      · exact .kept (jobDone_others ne stepped)
  | taskStart => exact taskStart_clientStep stepped
  | taskSent id =>
      simp only [Server.step, taskSent] at stepped
      split at stepped
      · split at stepped
        · cases stepped
          exact .kept rfl
        · contradiction
      · contradiction
  | taskSendClosed id code => exact taskSendClosed_clientStep stepped
  | taskClosed id => exact taskClosed_clientStep stepped
  | taskCancelled id =>
      simp only [Server.step, taskCancelled] at stepped
      split at stepped
      · cases stepped
        exact .kept rfl
      · contradiction
  | relayed mover => exact relayed_clientStep stepped
  | relayTimeout mover => exact relayTimeout_clientStep stepped
  | relayExpired mover => exact relayExpired_clientStep stepped
  | loopCancelled mover => exact loopCancelled_clientStep stepped
  | loopReported mover => exact loopReported_clientStep stepped
  | pingTimeout mover =>
      simp only [Server.step, pingTimeout] at stepped
      split at stepped
      · cases stepped
        refine setKeepAlive_clientStep .same rfl fun exception ended => ?_
        cases ended
        exact pingTimeoutError_excused _
      · contradiction
  | pingClosed mover code =>
      simp only [Server.step, pingClosed] at stepped
      split at stepped
      · next closed =>
        cases stepped
        obtain ⟨jobs, supplied, same⟩ := @closeJobs_view who before mover code closed.2
        by_cases ne : who = mover
        · subst ne
          refine setKeepAlive_clientStep supplied same fun exception ended => ?_
          cases ended
          exact fun _ _ => closed.2
        · exact .worked supplied (.refl _ _)
            (Eq.trans (by simp [view, setKeepAlive, setTasks, ne]) same)
      · contradiction
  | keepAliveCancelled mover =>
      simp only [Server.step, keepAliveCancelled] at stepped
      split at stepped
      · cases stepped
        refine setKeepAlive_clientStep .same rfl fun exception ended => ?_
        cases ended
        exact fun _ closed => by contradiction
      · contradiction
  | keepAliveReported mover => exact keepAliveReported_clientStep stepped
  | connectionLost mover code =>
      simp only [Server.step] at stepped
      split at stepped
      · cases stepped
        by_cases ne : who = mover
        · subst ne
          exact @ClientStep.lost before _ who _ code (by simp [view])
        · exact .kept (Keeps.setConnection before _ who ne)
      · contradiction
  | closeProtocol mover =>
      simp only [Server.step] at stepped
      split at stepped
      · next registered =>
        cases stepped
        exact dropClient_clientStep (by simp [drops, registered])
      · contradiction

end Step

end Server

end SaltyRtcServer
