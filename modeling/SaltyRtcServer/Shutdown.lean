import SaltyRtcServer.PathAdmission

/-!
# Closing the whole server

`Server.close` starts a task that drops the clients of all registered protocols and
waits for their handlers before it closes the socket.  From the call on, new
connections are refused, so that the protocols it waits for are all there are.
-/

namespace SaltyRtcServer

open StepMachine

namespace PathSystem

variable {system next : PathSystem} {ref other : ClientRef}

theorem member_of_dropClient (member : (system.dropClient other).path.Member ref) :
    system.path.Member ref := by
  have pending := Path.removeClient_pending system.path other (system.client other).markDropped
  have initiator := Path.removeClient_initiator system.path other (system.client other).markDropped
  have responders :=
    Path.removeClient_responders system.path other (system.client other).markDropped
  simp only [dropClient, remove, Function.update_self] at member
  unfold Path.Member at member ⊢
  grind

theorem not_member_dropClient (consistent : system.Consistent) :
    ¬ (system.dropClient ref).path.Member ref := by
  intro member
  have attached := consistent.attached (member_of_dropClient member)
  have dropped := consistent.dropClient ref
  have restricted := (system.client ref).markDropped_restricted_iff
  have notAuthenticated := (system.client ref).markDropped_ne_authenticated
  have client : (system.dropClient ref).client ref = (system.client ref).markDropped := by
    rw [dropClient_client, if_pos rfl]
  obtain pending | initiator | ⟨id, responder⟩ := member
  · have erased := Path.removeClient_pending system.path ref (system.client ref).markDropped
    simp only [dropClient, remove, Function.update_self] at pending
    rw [erased, if_pos attached] at pending
    simp at pending
  · have state := (dropped.initiator ref initiator).2.1
    rw [client] at state
    exact notAuthenticated state
  · have state := (dropped.responder id ref responder).2.1
    rw [client] at state
    exact notAuthenticated state

/-- Only a new connection adds a member to a path. -/
theorem member_of_step (consistent : system.Consistent) {call : Action}
    (stepped : system.step call = some next) (member : next.path.Member ref) :
    system.path.Member ref ∨ call = .connect ref := by
  cases call with
  | connect other =>
      simp only [step, Path.addPending] at stepped
      unfold Path.Member at member ⊢
      grind
  | setType other type =>
      simp only [step, setType] at stepped
      grind
  | setInitiator other =>
      simp only [step] at stepped
      split at stepped
      · next handshaking =>
        cases stepped
        left
        cases called : system.path.setInitiator other (system.client other) with
        | raised state exception =>
            have unchanged := Path.setInitiator_raised called fun mem =>
              (consistent.pending other mem).2.1
            subst unchanged
            rw [called] at member
            exact member
        | returned state previous =>
            obtain ⟨_, pending, _, _, path, _⟩ := Path.setInitiator_returned called
            have placed : state.1.Member ref → system.path.Member ref := by
              rw [path]
              unfold Path.Member
              grind
            rw [called] at member
            cases previous with
            | none => exact placed member
            | some previous => exact placed (member_of_dropClient member)
      · contradiction
  | addResponder other =>
      simp only [step] at stepped
      split at stepped
      · cases stepped
        left
        cases called : system.path.addResponder other (system.client other) with
        | raised state exception =>
            have unchanged := Path.addResponder_raised called fun mem =>
              (consistent.pending other mem).2.1
            subst unchanged
            rw [called] at member
            exact member
        | returned state id =>
            obtain ⟨_, pending, _, _, path, _⟩ := Path.addResponder_returned called
            rw [called] at member
            simp only [afterAddResponder, path] at member
            unfold Path.Member at member ⊢
            grind
      · contradiction
  | drop other =>
      simp only [step] at stepped
      split at stepped
      · contradiction
      · cases stepped
        exact .inl (member_of_dropClient member)
  | leave other =>
      have pending := Path.removeClient_pending system.path other (system.client other)
      have initiator := Path.removeClient_initiator system.path other (system.client other)
      have responders := Path.removeClient_responders system.path other (system.client other)
      simp only [step, PathSystem.leave, remove] at stepped
      unfold Path.Member at member ⊢
      grind
  | clean =>
      simp only [step, PathSystem.clean, cleanPath_eq] at stepped
      unfold Path.Member at member ⊢
      grind

theorem absent_of_update {stage : ClientRef → Stage} {reached : Stage} (other : ClientRef)
    (known : reached ≠ .absent) (absent : Function.update stage other reached ref = .absent) :
    stage ref = .absent := by
  rw [Function.update_apply] at absent
  split at absent
  · exact absurd absent known
  · exact absent

/-- Nobody who was on a path becomes unknown to it. -/
theorem absent_of_step {call : Action} (stepped : system.step call = some next)
    (absent : next.stage ref = .absent) : system.stage ref = .absent := by
  cases call with
  | connect other =>
      simp only [step, Option.ite_none_right_eq_some] at stepped
      obtain ⟨_, stepped⟩ := stepped
      split at stepped
      · contradiction
      · cases stepped
        exact absent_of_update other (by simp) absent
  | setType other type =>
      simp only [step, setType, Option.ite_none_right_eq_some] at stepped
      obtain ⟨_, stepped⟩ := stepped
      cases stepped
      exact absent
  | setInitiator other =>
      simp only [step, Option.ite_none_right_eq_some] at stepped
      obtain ⟨_, stepped⟩ := stepped
      cases stepped
      cases called : system.path.setInitiator other (system.client other) with
      | raised state exception =>
          rw [called] at absent
          exact absent
      | returned state previous =>
          rw [called, Server.afterSetInitiator_stages] at absent
          exact absent_of_update other (by simp) absent
  | addResponder other =>
      simp only [step, Option.ite_none_right_eq_some] at stepped
      obtain ⟨_, stepped⟩ := stepped
      cases stepped
      cases called : system.path.addResponder other (system.client other) with
      | raised state exception =>
          rw [called] at absent
          exact absent
      | returned state id =>
          rw [called] at absent
          exact absent_of_update other (by simp) absent
  | drop other =>
      simp only [step] at stepped
      split at stepped
      · contradiction
      · cases stepped
        exact absent
  | leave other =>
      simp only [step, PathSystem.leave, remove, Option.ite_none_right_eq_some] at stepped
      obtain ⟨_, stepped⟩ := stepped
      cases stepped
      exact absent_of_update other (by simp) absent
  | clean =>
      cases stepped
      exact absent

/-- Whoever is on a path after some calls was on it before, or was not known to it. -/
theorem member_of_follows (consistent : system.Consistent)
    (steps : Relation.ReflTransGen (fun first last => ∃ call, PathSystem.step first call =
      some last) system next) (member : next.path.Member ref) :
    system.path.Member ref ∨ system.stage ref = .absent := by
  have along : next.Consistent ∧ (next.stage ref = .absent → system.stage ref = .absent) ∧
      (next.path.Member ref → system.path.Member ref ∨ system.stage ref = .absent) := by
    clear member
    induction steps with
    | refl => exact ⟨consistent, id, .inl⟩
    | tail _ step ih =>
        obtain ⟨call, stepped⟩ := step
        obtain ⟨middle, absent, member⟩ := ih
        refine ⟨middle.step stepped, fun gone => absent (absent_of_step stepped gone),
          fun isMember => ?_⟩
        obtain was | rfl := member_of_step middle stepped isMember
        · exact member was
        · simp only [step, Option.ite_none_right_eq_some] at stepped
          exact .inr (absent stepped.1)
  exact along.2.2 member

end PathSystem

namespace SignalingServer

/-- A step of a protocol adds no member to its path. -/
theorem member_of_inner {first last : Server} {action : Server.Action} (sound : first.Sound)
    (stepped : first.step action = some last) (inner : Inner action = true) {ref : ClientRef}
    (member : last.system.path.Member ref) : first.system.path.Member ref := by
  obtain was | absent := PathSystem.member_of_follows sound.consistent
    (system_follows sound stepped) member
  · exact was
  · have notThere : first.handler ref = .absent := by
      by_contra present
      exact (sound.phase ref).present present absent
    have stillAbsent := (handler_absent_iff sound stepped inner ref).mpr notThere
    have phase := (sound.step stepped).phase ref
    rw [Server.Phase, stillAbsent] at phase
    obtain stage | stage := Server.stage_of_member (sound.step stepped) member <;>
      · rw [phase.1] at stage
        contradiction

variable {before after server : SignalingServer}

/-- The protocol is not registered, or its client is not on the path. -/
def OffPath (server : SignalingServer) (protocol : Nat × ClientRef) : Prop :=
  ¬ (server.onPath protocol.1).system.path.Member protocol.2

theorem closeProtocol_offPath (reachable : ∀ number, (server.onPath number).Sound)
    (protocol : Nat × ClientRef) : (server.closeProtocol protocol).OffPath protocol := by
  rw [OffPath, closeProtocol_onPath, Function.update_self]
  exact PathSystem.not_member_dropClient (reachable _).consistent

theorem OffPath.closeProtocol {protocol : Nat × ClientRef} (off : server.OffPath protocol)
    (other : Nat × ClientRef) : (server.closeProtocol other).OffPath protocol := by
  intro member
  rw [closeProtocol_onPath] at member
  by_cases same : protocol.1 = other.1
  · rw [same, Function.update_self] at member
    rw [OffPath, same] at off
    exact off (PathSystem.member_of_dropClient member)
  · rw [Function.update_of_ne same] at member
    exact off member

theorem OffPath.closeProtocols {protocol : Nat × ClientRef} (off : server.OffPath protocol)
    (protocols : List (Nat × ClientRef)) :
    (protocols.foldl SignalingServer.closeProtocol server).OffPath protocol := by
  induction protocols generalizing server with
  | nil => exact off
  | cons other rest ih => exact ih (off.closeProtocol other)

theorem closeProtocols_offPath (protocols : List (Nat × ClientRef)) (server : SignalingServer)
    (registered : ∀ protocol ∈ protocols, protocol.2 ∈ (server.onPath protocol.1).protocols)
    (reachable : ∀ number, Server.machine.Reachable (server.onPath number)) :
    ∀ protocol ∈ protocols, (protocols.foldl closeProtocol server).OffPath protocol := by
  induction protocols generalizing server with
  | nil => simp
  | cons first rest ih =>
      have next : ∀ number, Server.machine.Reachable ((server.closeProtocol first).onPath number) :=
        fun number => (reachable number).continues (closeProtocols_follows [first] server
          (by simpa using registered first List.mem_cons_self) number)
      intro protocol mem
      obtain rfl | later := List.mem_cons.mp mem
      · exact (closeProtocol_offPath
          (fun number => Server.sound_of_reachable (reachable number)) protocol).closeProtocols rest
      · refine ih _ (fun other mem => ?_) next protocol later
        rw [closeProtocol_protocols]
        exact registered other (List.mem_cons_of_mem _ mem)

/-- On a path to which nobody connects any more, protocols and members only become
fewer, and a protocol is unregistered only when its handler has returned. -/
structure Winds (first last : Server) : Prop where
  registered : ∀ ref, ref ∈ last.protocols → ref ∈ first.protocols
  unregistered : ∀ ref, ref ∈ first.protocols →
    ref ∈ last.protocols ∨ last.handler ref = .finished
  ended : ∀ ref, first.handler ref = .finished → last.handler ref = .finished
  member : ∀ ref, last.system.path.Member ref → first.system.path.Member ref

theorem Winds.refl (server : Server) : Winds server server :=
  ⟨fun _ => id, fun _ => .inl, fun _ => id, fun _ => id⟩

theorem Winds.trans {first middle last : Server} (early : Winds first middle)
    (late : Winds middle last) : Winds first last where
  registered ref is := early.registered ref (late.registered ref is)
  unregistered ref was := by
    obtain still | ended := early.unregistered ref was
    · exact late.unregistered ref still
    · exact .inr (late.ended ref ended)
  ended ref ended := late.ended ref (early.ended ref ended)
  member ref is := early.member ref (late.member ref is)

theorem winds_of_inner {first last : Server} {action : Server.Action} (sound : first.Sound)
    (stepped : first.step action = some last) (inner : Inner action = true) :
    Winds first last := by
  have move (ref : ClientRef) : first.HandlerMove action ref last :=
    (sound.clientStep stepped ref).handlerMove
  have notConnect {ref : ClientRef} {csn : Nat} (connects : action = .connect ref csn) : False := by
    subst connects
    contradiction
  refine ⟨fun ref is => ?_, fun ref was => ?_, fun ref ended => ?_,
    fun ref member => member_of_inner sound stepped inner member⟩
  · cases move ref with
    | kept _ same | moved _ _ _ _ same => exact same.mp is
    | connected connects => exact (notConnect connects).elim
    | finished _ _ _ gone => exact absurd is gone
  · cases move ref with
    | kept _ same | moved _ _ _ _ same => exact .inl (same.mpr was)
    | connected connects => exact (notConnect connects).elim
    | finished _ _ finished _ => exact .inr finished
  · cases move ref with
    | kept same => rw [same, ended]
    | connected connects => exact (notConnect connects).elim
    | moved _ running | finished _ running =>
        rw [ended] at running
        contradiction

/-- A step of a server that is closing. -/
theorem Stepped.winds {action : Action} (stepped : Stepped before action after)
    (reachable : machine.Reachable before) (closing : before.closeTask ≠ .absent) :
    after.closeTask ≠ .absent ∧ after.number = before.number ∧
      ∀ number, Winds (before.onPath number) (after.onPath number) := by
  cases stepped with
  | handled _ handled =>
      cases handled with
      | closing => exact ⟨closing, rfl, fun _ => .refl _⟩
      | subprotocol absent | path absent | failed absent | served absent =>
          exact absurd absent closing
  | @acted number action onPath paths created inner acted same =>
      rw [foldl_raiseEvent]
      refine ⟨closing, rfl, fun other => ?_⟩
      change Winds _ (Function.update before.onPath number onPath other)
      by_cases here : other = number
      · subst here
        rw [Function.update_self]
        exact winds_of_inner (onPath_sound reachable _) acted inner
      · rw [Function.update_of_ne here]
        exact .refl _
  | @closedProtocols protocols scheduled enumerates =>
      obtain ⟨number, _, onPath⟩ := closeProtocols_same protocols before
      refine ⟨by dsimp only; split <;> simp, number, fun other => ?_⟩
      obtain ⟨handler, registered⟩ := onPath other
      refine ⟨fun ref is => ?_, fun ref was => .inl ?_, fun ref ended => ?_, fun ref member => ?_⟩
      · exact registered ▸ is
      · exact registered.symm ▸ was
      · exact handler.symm ▸ ended
      · by_contra off
        have stays : before.OffPath (other, ref) := off
        exact stays.closeProtocols protocols member
  | closes absent => exact absurd absent closing
  | closedServer | failed => exact ⟨by simp, rfl, fun _ => .refl _⟩
  | refused | refusedEvent | registered | closing => exact ⟨closing, rfl, fun _ => .refl _⟩

theorem unregistered_of_finished {onPath : Server} (reachable : Server.machine.Reachable onPath)
    {ref : ClientRef} (ended : onPath.handler ref = .finished) : ref ∉ onPath.protocols := by
  refine reachable.invariant
    (fun onPath => onPath.handler ref = .finished → ref ∉ onPath.protocols) ?_ ?_ ended
  · rintro onPath ⟨key, number, rfl⟩ ended
    contradiction
  · intro first last action reached _ unregistered stepped ended
    cases ((Server.sound_of_reachable reached).clientStep stepped ref).handlerMove with
    | kept same registered =>
        rw [registered]
        exact unregistered (same ▸ ended)
    | connected _ _ created =>
        rw [created] at ended
        contradiction
    | moved _ _ _ running => exact absurd ended running
    | finished _ _ _ gone => exact gone

/-- What the closing task knows of the protocols that are still registered. -/
structure Closing (server : SignalingServer) : Prop where
  waiting : ∀ protocols, server.closeTask = .waiting protocols →
    ∀ protocol, server.Registered protocol → protocol ∈ protocols
  offPath : server.closeTask ≠ .absent → server.closeTask ≠ .scheduled →
    ∀ protocol, server.Registered protocol → server.OffPath protocol
  closed : server.closeTask = .closed → ∀ protocol, ¬ server.Registered protocol

theorem Stepped.registered_of {action : Action} (stepped : Stepped before action after)
    (reachable : machine.Reachable before) (closing : before.closeTask ≠ .absent)
    {protocol : Nat × ClientRef} (registered : after.Registered protocol) :
    before.Registered protocol := by
  obtain ⟨_, number, winds⟩ := stepped.winds reachable closing
  refine ⟨⟨registered.1.1, ?_⟩, (winds protocol.1).registered _ registered.2⟩
  rw [← number]
  exact registered.1.2

theorem Closing.kept (known : before.Closing) {action : Action}
    (stepped : Stepped before action after) (reachable : machine.Reachable before)
    (closing : before.closeTask ≠ .absent) (task : after.closeTask = before.closeTask) :
    after.Closing where
  waiting protocols waiting protocol is :=
    known.waiting protocols (task ▸ waiting) protocol (stepped.registered_of reachable closing is)
  offPath _ notScheduled protocol is member :=
    known.offPath closing (task ▸ notScheduled) protocol
      (stepped.registered_of reachable closing is)
      (((stepped.winds reachable closing).2.2 protocol.1).member _ member)
  closed closed protocol is :=
    known.closed (task ▸ closed) protocol (stepped.registered_of reachable closing is)

/-- Before the closing task has made its first step, it knows nothing. -/
theorem Closing.early (early : server.closeTask = .absent ∨ server.closeTask = .scheduled) :
    server.Closing := by
  constructor
  · intro protocols waiting
    simp [waiting] at early
  · intro notAbsent notScheduled
    exact absurd early (by simp [notAbsent, notScheduled])
  · intro closed
    simp [closed] at early

theorem registered_of_closeProtocols {protocols : List (Nat × ClientRef)}
    (enumerates : before.Enumerates protocols) {protocol : Nat × ClientRef}
    (registered : (protocols.foldl closeProtocol before).Registered protocol) :
    protocol ∈ protocols := by
  obtain ⟨number, _, onPath⟩ := closeProtocols_same protocols before
  obtain ⟨⟨positive, bound⟩, mem⟩ := registered
  rw [number] at bound
  rw [(onPath protocol.1).2] at mem
  exact enumerates.2.2 _ (Finset.mem_Icc.mpr ⟨positive, bound⟩) _ mem

theorem Closing.step (known : before.Closing) {action : Action}
    (stepped : Stepped before action after) (reachable : machine.Reachable before) :
    after.Closing := by
  by_cases absent : before.closeTask = .absent
  · refine .early ?_
    cases stepped with
    | handled _ handled =>
        cases handled with
        | closing notAbsent => exact absurd absent notAbsent
        | subprotocol | path => exact .inl absent
        | failed | served =>
            left
            unfold get
            split <;> exact absent
    | acted =>
        rw [foldl_raiseEvent]
        exact .inl absent
    | closes => exact .inr rfl
    | closing notAbsent => exact absurd absent notAbsent
    | closedProtocols scheduled => simp [absent] at scheduled
    | closedServer waiting | failed waiting => simp [absent] at waiting
    | refused | refusedEvent | registered => exact .inl absent
  · have whole := stepped
    cases stepped with
    | handled _ handled =>
        cases handled with
        | closing => exact known.kept whole reachable absent rfl
        | subprotocol isAbsent | path isAbsent | failed isAbsent | served isAbsent =>
            exact absurd isAbsent absent
    | acted =>
        refine known.kept whole reachable absent ?_
        rw [foldl_raiseEvent]
    | closes isAbsent => exact absurd isAbsent absent
    | @closedProtocols protocols scheduled enumerates =>
        have all {protocol : Nat × ClientRef}
            (is : (protocols.foldl closeProtocol before).Registered protocol) :
            protocol ∈ protocols := registered_of_closeProtocols enumerates is
        have off := closeProtocols_offPath protocols before
          (fun protocol mem => (enumerates.2.1 protocol mem).2) (onPath_reachable reachable)
        refine ⟨fun others waiting protocol is => ?_, fun _ _ protocol is => off protocol (all is),
          fun closed protocol is => ?_⟩
        · by_cases none : protocols = []
          · rw [if_pos none] at waiting
            contradiction
          · rw [if_neg none] at waiting
            cases waiting
            exact all is
        · by_cases none : protocols = []
          · have mem := all is
            simp [none] at mem
          · rw [if_neg none] at closed
            contradiction
    | @closedServer protocols waiting ended =>
        refine ⟨by simp, fun _ _ => known.offPath (by simp [waiting]) (by simp [waiting]),
          fun _ protocol is => ?_⟩
        exact unregistered_of_finished (onPath_reachable reachable _)
          (ended protocol (known.waiting protocols waiting protocol is)) is.2
    | failed waiting =>
        exact ⟨by simp, fun _ _ => known.offPath (by simp [waiting]) (by simp [waiting]), by simp⟩
    | refused | refusedEvent | registered | closing => exact known.kept whole reachable absent rfl

theorem closing_of_reachable (reachable : machine.Reachable server) : server.Closing := by
  refine reachable.invariant _ ?_ fun _ _ _ reached _ known stepped =>
    known.step (stepped_of_step stepped) reached
  rintro server ⟨callbacks, rfl⟩
  exact .early (.inl rfl)

/-- A server that is closing serves nobody new. -/
theorem Stepped.served_of_closing {action : Action} (stepped : Stepped before action after)
    (closing : before.closeTask ≠ .absent) {ref : ClientRef} {number : Nat} {path : String}
    (served : after.admission ref = .served number path) :
    before.admission ref = .served number path := by
  have elsewhere {mover : ClientRef} {admission : Admission}
      (moved : (before.setAdmission mover admission).admission ref = .served number path)
      (new : admission ≠ .served number path) : before.admission ref = .served number path := by
    rw [setAdmission_admission] at moved
    split at moved
    · exact absurd moved new
    · exact moved
  cases stepped with
  | handled _ handled =>
      cases handled with
      | closing => exact elsewhere served (by simp)
      | subprotocol absent | path absent | failed absent | served absent =>
          exact absurd absent closing
  | refused | refusedEvent => exact elsewhere served (by simp)
  | acted =>
      rw [foldl_raiseEvent] at served
      exact served
  | closedProtocols =>
      dsimp only at served
      rwa [(closeProtocols_same _ before).2.1] at served
  | registered | closes | closing | closedServer | failed => exact served

/-- A server that is closing refuses every new connection, and its protocols only
become fewer.  The closing task waits for all that are registered, whose clients it has
taken off their paths; once it has closed the socket, every handler has returned and
unregistered its protocol. -/
theorem shutdown {first last : SignalingServer} (reachable : machine.Reachable first)
    (closing : first.closeTask ≠ .absent)
    (steps : machine.Continues (fun _ _ => True) first last) :
    (∀ ref number path, last.admission ref = .served number path →
      first.admission ref = .served number path) ∧
    (∀ protocol, last.Registered protocol → first.Registered protocol) ∧
    (∀ protocols, last.closeTask = .waiting protocols → ∀ protocol, last.Registered protocol →
      protocol ∈ protocols ∧ last.OffPath protocol) ∧
    (last.closeTask = .closed → ∀ protocol, first.Registered protocol →
      last.Ended protocol ∧ ¬ last.Registered protocol) := by
  have along : last.closeTask ≠ .absent ∧ last.number = first.number ∧
      (∀ number, Winds (first.onPath number) (last.onPath number)) ∧
      ∀ ref number path, last.admission ref = .served number path →
        first.admission ref = .served number path := by
    induction steps with
    | refl => exact ⟨closing, rfl, fun _ => .refl _, fun _ _ _ => id⟩
    | tail early step ih =>
        obtain ⟨action, _, stepped⟩ := step
        obtain ⟨still, number, winds, served⟩ := ih
        have stepped := stepped_of_step stepped
        obtain ⟨stays, sameNumber, next⟩ := stepped.winds (reachable.continues early) still
        exact ⟨stays, sameNumber.trans number, fun index => (winds index).trans (next index),
          fun ref index path is => served ref index path (stepped.served_of_closing still is)⟩
  obtain ⟨still, number, winds, served⟩ := along
  have known := closing_of_reachable (reachable.continues steps)
  refine ⟨served, fun protocol is => ?_, fun protocols waiting protocol is => ?_,
    fun closed protocol was => ?_⟩
  · exact ⟨⟨is.1.1, number ▸ is.1.2⟩, (winds protocol.1).registered _ is.2⟩
  · exact ⟨known.waiting protocols waiting protocol is,
      known.offPath still (by simp [waiting]) protocol is⟩
  · have gone := known.closed closed protocol
    refine ⟨?_, gone⟩
    obtain registered | ended := (winds protocol.1).unregistered _ was.2
    · exact absurd ⟨⟨was.1.1, number.symm ▸ was.1.2⟩, registered⟩ gone
    · exact ended

/-- The client of a protocol that was closed is dropped and its handler returns. -/
def closeClient (number : Nat) (ref : ClientRef) (task : TaskId) : List Action :=
  ([.runnerGet ref, .taskStart, .connectionLost ref 1001, .taskClosed task, .runnerWake ref,
    .runnerGet ref, .loopCancelled ref, .loopReported ref, .keepAliveCancelled ref,
    .keepAliveReported ref, .result ref, .join ref, .dispatch ref, .finish ref] :
      List Server.Action).map (.act number)

set_option maxRecDepth 10000 in
/-- The server is closed while it has an initiator on one path and a responder on another. -/
theorem shutdown_two_paths :
    ∃ first last : SignalingServer, machine.run (created fun _ => [])
      (openPath 1 0 'a' Server.joinInitiator ++ openPath 2 1 'b' Server.joinResponder ++
        [.close]) = some first ∧
      first.Registered (1, 0) ∧ first.Registered (2, 1) ∧ last.closeTask = .closed ∧
      (last.Ended (1, 0) ∧ ¬ last.Registered (1, 0)) ∧
      last.Ended (2, 1) ∧ ¬ last.Registered (2, 1) := by
  have reachable : machine.Reachable _ := Machine.reachable_of_run (initial_created fun _ => [])
    (openPath 1 0 'a' Server.joinInitiator ++ openPath 2 1 'b' Server.joinResponder ++
      [.close]) rfl
  have closes := shutdown reachable (by decide) (Machine.continues_of_run
    ([.closeProtocols [(2, 1), (1, 0)]] ++ closeClient 1 0 0 ++ closeClient 2 1 0 ++
      [.closeServer])
    (Machine.permitted_of_all (fun _ _ => trivial) _ _) rfl)
  refine ⟨_, _, rfl, ?_, ?_, rfl, closes.2.2.2 rfl (1, 0) ?_, closes.2.2.2 rfl (2, 1) ?_⟩ <;>
    decide +kernel

end SignalingServer

end SaltyRtcServer
