import SaltyRtcServer.PathAdmission

/-!
# The events of a connection

The application learns of a connection through events: that an initiator or a
responder has connected, and that a connection has ended.
-/

namespace SaltyRtcServer

open StepMachine

namespace Server

variable {before after : Server} {action : Action} {ref : ClientRef}

/-- Where a step takes a handler. -/
inductive HandlerPhase (before : Server) (ref : ClientRef) (after : Server) : Prop
  | kept : after.handler ref = before.handler ref → HandlerPhase before ref after
  | early : (before.handler ref).departed = false → (before.handler ref).starting = true ∨
      before.handler ref = .absent → before.handler ref ≠ .sendingAuth →
      (after.handler ref).starting = true → HandlerPhase before ref after
  | awaiting : (before.handler ref).starting = true → after.handler ref = .awaitingResult →
      HandlerPhase before ref after
  | gone {closing : Option TaskId} : (before.handler ref).departed = false →
      before.handler ref ≠ .absent → after.handler ref = .joining closing →
      HandlerPhase before ref after
  | late : (before.handler ref).departed = true → (after.handler ref).departed = true →
      (∀ closing, after.handler ref ≠ .joining closing) → HandlerPhase before ref after

theorem departed_of_starting {handler : Handler} (starting : handler.starting = true) :
    handler.departed = false := by
  cases handler <;> first | contradiction | rfl

theorem ClientStep.handlerPhase (step : ClientStep before action ref after) :
    HandlerPhase before ref after := by
  have late {next : ClientView} {handler : Handler} (same : after.view ref = next)
      (was : before.handler ref = handler) (departed : handler.departed = true)
      (still : next.handler.departed = true)
      (notJoining : ∀ closing, next.handler ≠ .joining closing) :
      HandlerPhase before ref after := by
    subst was
    rw [← handler_of_view same] at still notJoining
    exact .late departed still notJoining
  have gone {next : ClientView} {closing : Option TaskId} (same : after.view ref = next)
      (notDeparted : (before.handler ref).departed = false) (present : before.handler ref ≠ .absent)
      (joining : next.handler = .joining closing) : HandlerPhase before ref after :=
    .gone notDeparted present ((handler_of_view same).trans joining)
  cases step with
  | worked _ _ same | reported _ _ same | tookFinal _ _ same | tookCoroutine _ _ _ _ same
  | tookTask _ _ same | woke _ _ same | wokeCancelled _ _ same | wokeFailed _ _ _ _ _ same
  | wakeFailed _ _ _ _ _ same | overcounted _ _ same | jobDone _ same | closing _ same
  | lost same | dropped _ same => exact .kept (handler_of_view same)
  | connected _ absent same =>
      refine .early (by simp [absent, Handler.departed]) (.inr absent) (by simp [absent]) ?_
      rw [handler_of_view same]
      rfl
  | advanced starting notSending next _ same =>
      refine .early (departed_of_starting starting) (.inl starting) notSending ?_
      rw [handler_of_view same]
      exact next
  | aborted fails _ same => exact .awaiting fails.starting (handler_of_view same)
  | abortFailed fails _ _ same =>
      refine gone same (departed_of_starting fails.starting) (fun absent => ?_) rfl
      have starting := fails.starting
      rw [absent] at starting
      contradiction
  | completed _ sending _ same => exact .awaiting (by rw [sending]; rfl) (handler_of_view same)
  | completeFailed _ sending _ _ _ same =>
      exact gone same (by rw [sending]; rfl) (by simp [sending]) rfl
  | left _ awaiting _ _ _ _ same | leaveFailed _ awaiting _ _ _ same =>
      exact gone same (by rw [awaiting]; rfl) (by simp [awaiting]) rfl
  | joined _ joining _ _ same | joinRaised _ joining _ same | joinGivenUp _ joining _ same =>
      exact late same joining rfl rfl (by simp)
  | joinCancelled _ cancelling same => exact late same cancelling rfl rfl (by simp)
  | dispatched _ joined next _ same =>
      refine late same joined rfl ?_ ?_ <;> obtain rfl | ⟨ids, rfl⟩ := next <;>
        simp [Handler.departed]
  | dispatchRaised _ joined _ _ same => exact late same joined rfl rfl (by simp)
  | closes _ dispatching same => exact late same dispatching rfl rfl (by simp)
  | finished closing _ same | closeRaised closing _ same =>
      exact late same closing rfl rfl (by simp)

end Server

namespace SignalingServer

variable {before after server : SignalingServer}

/-- A handler that leaves its phase before `handle_client` has ended is resumed. -/
theorem resumes_of_moved {first last : Server} {action : Server.Action}
    (stepped : first.step action = some last) (inner : Inner action = true) {ref : ClientRef}
    (moved : first.MovedBy action ref) (here : (first.handler ref).departed = false) :
    resumes action = some ref := by
  cases action with
  | connect => contradiction
  | join mover | joinTimeout mover | joinCancelled mover | dispatch mover | dispatched mover
  | finish mover =>
      cases moved
      simp only [Server.step] at stepped
      split at stepped
      · next was =>
        rw [was] at here
        contradiction
      · contradiction
  | «begin» | sent | sendClosed | gathered | result =>
      cases moved
      rfl
  | receive | receiveClosed =>
      cases moved.1
      rfl
  | _ => exact moved.elim

/-- The event of a connection that has been authenticated in its role. -/
inductive RoleEvent : Option AddressType → ServerEvent → Prop
  | initiator : RoleEvent (some .initiator) .initiatorConnected
  | responder : RoleEvent (some .responder) .responderConnected

theorem connectedNotice_cases (onPath : Server) (ref : ClientRef) :
    connectedNotice onPath ref = [] ∨ ∃ event,
      RoleEvent (onPath.system.client ref).type event ∧
      connectedNotice onPath ref =
        [⟨ref, event, some (hexPath onPath.system.path.initiatorKey), none⟩] := by
  unfold connectedNotice
  dsimp only
  split
  · exact .inl rfl
  · split
    · next isInitiator =>
      rw [isInitiator]
      exact .inr ⟨_, .initiator, rfl⟩
    · next isResponder =>
      rw [isResponder]
      exact .inr ⟨_, .responder, rfl⟩
    · exact .inl rfl

theorem disconnectedNotice_nil {first last : Server} {ref : ClientRef}
    (same : (∀ closing, last.handler ref ≠ .joining closing) ∨
      ∃ closing, first.handler ref = .joining closing) :
    disconnectedNotice first last ref = [] := by
  unfold disconnectedNotice
  split
  · rfl
  · next closing is notBefore =>
    obtain notAfter | ⟨other, was⟩ := same
    · exact absurd is (notAfter closing)
    · exact (notBefore other was).elim
  · rfl

theorem disconnectedNotice_joining {first last : Server} {ref : ClientRef}
    {closing : Option TaskId} (was : (first.handler ref).departed = false)
    (is : last.handler ref = .joining closing) :
    disconnectedNotice first last ref =
      [⟨ref, .disconnected, some (hexPath last.system.path.initiatorKey),
        closingCode last closing⟩] := by
  unfold disconnectedNotice
  split
  · next other joining =>
    rw [joining] at was
    contradiction
  · next other joining _ =>
    rw [is] at joining
    cases joining
    rfl
  · next _ notAfter => exact (notAfter closing is).elim

/-- The events that a step raises about one connection. -/
def about (ref : ClientRef) (notices : List Notice) : List Notice :=
  notices.filter fun notice => notice.ref = ref

theorem about_append (ref : ClientRef) (early late : List Notice) :
    about ref (early ++ late) = about ref early ++ about ref late :=
  List.filter_append ..

theorem about_self (ref : ClientRef) (event : ServerEvent) (path : Option String)
    (data : Option CloseCode) :
    about ref [⟨ref, event, path, data⟩] = [⟨ref, event, path, data⟩] := by
  simp [about]

theorem about_other {ref other : ClientRef} (different : other ≠ ref) (event : ServerEvent)
    (path : Option String) (data : Option CloseCode) :
    about ref [⟨other, event, path, data⟩] = [] := by
  simp [about, different]

theorem about_connected (first : Server) (action : Server.Action) (ref : ClientRef) :
    about ref (connectedNotices first action) = [] ∨
      action = .sent ref ∧ first.handler ref = .sendingAuth ∧ ∃ event,
        RoleEvent (first.system.client ref).type event ∧
        about ref (connectedNotices first action) =
          [⟨ref, event, some (hexPath first.system.path.initiatorKey), none⟩] := by
  unfold connectedNotices
  split
  · next mover =>
    split
    · next sending =>
      obtain none | ⟨event, role, notice⟩ := connectedNotice_cases first mover
      · rw [none]
        exact .inl rfl
      · rw [notice]
        by_cases same : mover = ref
        · subst same
          exact .inr ⟨rfl, sending, event, role, about_self ..⟩
        · exact .inl (about_other same ..)
    · exact .inl rfl
  · exact .inl rfl

theorem about_disconnectedNotice (first last : Server) (mover ref : ClientRef) :
    about ref (disconnectedNotice first last mover) =
      if mover = ref then disconnectedNotice first last mover else [] := by
  have alone (code : Option CloseCode) (path : Option String) :
      about ref [⟨mover, .disconnected, path, code⟩] =
        if mover = ref then [⟨mover, .disconnected, path, code⟩] else [] := by
    by_cases same : mover = ref
    · subst same
      rw [about_self, if_pos rfl]
    · rw [about_other same, if_neg same]
  unfold disconnectedNotice
  split
  · simp [about]
  · exact alone ..
  · simp [about]

/-- What the step of a protocol tells about a connection. -/
inductive Tells (first : Server) (ref : ClientRef) (last : Server) (told : List Notice) : Prop
  | nothing : told = [] → (last.handler ref).departed = (first.handler ref).departed →
      ((last.handler ref).starting = true →
        (first.handler ref).starting = true ∨ first.handler ref = .absent) →
      Tells first ref last told
  | connected {event : ServerEvent} : first.handler ref = .sendingAuth →
      last.handler ref = .awaitingResult → RoleEvent (first.system.client ref).type event →
      told = [⟨ref, event, some (hexPath first.system.path.initiatorKey), none⟩] →
      Tells first ref last told
  | disconnected {connected : List Notice} {code : Option CloseCode} :
      (first.handler ref).departed = false → (last.handler ref).departed = true →
      (connected = [] ∨ first.handler ref = .sendingAuth ∧ ∃ event,
        RoleEvent (first.system.client ref).type event ∧
        connected = [⟨ref, event, some (hexPath first.system.path.initiatorKey), none⟩]) →
      told = connected ++
        [⟨ref, .disconnected, some (hexPath last.system.path.initiatorKey), code⟩] →
      Tells first ref last told

theorem handleException_joining (server : Server) (ref : ClientRef) (exception : PyException) :
    ∃ closing, (server.handleException ref exception).handler ref = .joining closing := by
  unfold Server.handleException
  split
  · exact ⟨_, Function.update_self ..⟩
  · exact ⟨_, Function.update_self ..⟩

/-- The last step of a handshake leaves it. -/
theorem completeHandshake_handler (server : Server) (ref : ClientRef) :
    (server.completeHandshake ref).handler ref = .awaitingResult ∨
      ∃ closing, (server.completeHandshake ref).handler ref = .joining closing := by
  have started (connected : Bool) : (server.start ref connected).handler ref = .awaitingResult ∨
      ∃ closing, (server.start ref connected).handler ref = .joining closing := by
    unfold Server.start
    split
    · exact .inl (by simp [Server.setHandler])
    · exact .inr (handleException_joining ..)
  unfold Server.completeHandshake
  split
  · exact .inr (handleException_joining ..)
  · split
    · exact started _
    · exact started _
    · exact .inr (handleException_joining ..)
    · exact .inr (handleException_joining ..)

theorem sent_handler {first last : Server} {ref : ClientRef}
    (stepped : first.step (.sent ref) = some last) (sending : first.handler ref = .sendingAuth) :
    last.handler ref = .awaitingResult ∨ ∃ closing, last.handler ref = .joining closing := by
  simp only [Server.step, sending] at stepped
  cases stepped
  exact completeHandshake_handler first ref

theorem tells_of_step {first last : Server} {action : Server.Action} (sound : first.Sound)
    (stepped : first.step action = some last) (inner : Inner action = true) (ref : ClientRef) :
    Tells first ref last (about ref (noticesOf first action last)) := by
  have connected := about_connected first action ref
  have quiet (same : (∀ closing, last.handler ref ≠ .joining closing) ∨
      ∃ closing, first.handler ref = .joining closing) :
      about ref (disconnectedNotices first action last) = [] := by
    unfold disconnectedNotices
    split
    · rfl
    · next mover _ =>
      rw [about_disconnectedNotice]
      split
      · next isRef =>
        subst isRef
        exact disconnectedNotice_nil same
      · rfl
  rw [noticesOf, about_append]
  cases (sound.clientStep stepped ref).handlerPhase with
  | kept same =>
      have none : about ref (disconnectedNotices first action last) = [] := by
        refine quiet ?_
        by_cases joining : ∃ closing, first.handler ref = .joining closing
        · exact .inr joining
        · exact .inl fun closing is => joining ⟨closing, same ▸ is⟩
      obtain nobody | ⟨rfl, sending, _⟩ := connected
      · exact .nothing (by rw [nobody, none]; rfl) (by rw [same]) fun starting => .inl (same ▸ starting)
      · rw [sending] at same
        obtain awaiting | ⟨closing, joining⟩ := sent_handler stepped sending
        · simp [same] at awaiting
        · simp [same] at joining
  | early notDeparted starting notSending next =>
      have notJoining (closing : Option TaskId) : last.handler ref ≠ .joining closing := by
        intro joining
        rw [joining] at next
        contradiction
      obtain nobody | ⟨_, sending, _⟩ := connected
      · refine .nothing (by rw [nobody, quiet (.inl notJoining)]; rfl) ?_ fun _ => starting
        rw [notDeparted, Server.departed_of_starting next]
      · exact absurd sending notSending
  | awaiting starting awaits =>
      have none := quiet (.inl (by simp [awaits]))
      obtain nobody | ⟨_, sending, event, role, notice⟩ := connected
      · refine .nothing (by rw [nobody, none]; rfl) ?_ fun next => ?_
        · rw [awaits, Server.departed_of_starting starting]
          rfl
        · rw [awaits] at next
          contradiction
      · exact .connected sending awaits role (by rw [notice, none]; rfl)
  | @gone closing notDeparted present joining =>
      have moved : first.MovedBy action ref := by
        by_contra unmoved
        rw [(sound.effects stepped).handler_eq unmoved] at joining
        rw [joining] at notDeparted
        contradiction
      have left : about ref (disconnectedNotices first action last) =
          disconnectedNotice first last ref := by
        rw [disconnectedNotices, resumes_of_moved stepped inner moved notDeparted]
        exact (about_disconnectedNotice ..).trans (if_pos rfl)
      rw [left, disconnectedNotice_joining notDeparted joining]
      refine .disconnected notDeparted (by rw [joining]; rfl) ?_ rfl
      obtain nobody | ⟨_, sending, event, role, notice⟩ := connected
      · exact .inl nobody
      · exact .inr ⟨sending, event, role, notice⟩
  | late was still notJoining =>
      obtain nobody | ⟨_, sending, _⟩ := connected
      · refine .nothing (by rw [nobody, quiet (.inl notJoining)]; rfl) (by rw [was, still])
          fun starting => ?_
        rw [Server.departed_of_starting starting] at still
        contradiction
      · rw [sending] at was
        contradiction

/-- The events of a client that is served: at most one that it has connected in its
role, and one that it has disconnected once `handle_client` has ended. -/
structure ToldOf (onPath : Server) (ref : ClientRef) (told : List Notice) : Prop where
  split : ∃ connected disconnected, told = connected ++ disconnected ∧
    (connected = [] ∨ (onPath.handler ref).starting = false ∧ ∃ event,
      RoleEvent (onPath.system.client ref).type event ∧
      connected = [⟨ref, event, some (hexPath onPath.system.path.initiatorKey), none⟩]) ∧
    ((onPath.handler ref).departed = false ∧ disconnected = [] ∨
      (onPath.handler ref).departed = true ∧ ∃ code, disconnected =
        [⟨ref, .disconnected, some (hexPath onPath.system.path.initiatorKey), code⟩])

theorem ToldOf.same {first last : Server} {ref : ClientRef} {told : List Notice}
    (known : ToldOf first ref told) (handler : last.handler ref = first.handler ref)
    (type : (last.system.client ref).type = (first.system.client ref).type)
    (key : last.system.path.initiatorKey = first.system.path.initiatorKey) :
    ToldOf last ref told := by
  obtain ⟨connected, disconnected, rfl, early, late⟩ := known
  exact ⟨connected, disconnected, rfl, by rwa [handler, type, key], by rwa [handler, key]⟩

theorem ToldOf.step {first last : Server} {action : Server.Action} {ref : ClientRef}
    {told : List Notice} (known : ToldOf first ref told) (sound : first.Sound)
    (present : first.handler ref ≠ .absent) (stepped : first.step action = some last)
    (inner : Inner action = true) :
    ToldOf last ref (told ++ about ref (noticesOf first action last)) := by
  obtain ⟨connected, disconnected, rfl, early, late⟩ := known
  have key := Server.initiatorKey_eq sound stepped
  have type (past : (first.handler ref).starting = false) :
      (last.system.client ref).type = (first.system.client ref).type := by
    refine (sound.effects stepped).type_eq present fun receiving => ?_
    rw [receiving] at past
    contradiction
  cases tells_of_step sound stepped inner ref with
  | nothing none departed starting =>
      rw [none, List.append_nil]
      refine ⟨connected, disconnected, rfl, early.imp_right ?_, ?_⟩
      · rintro ⟨past, event, role, notice⟩
        refine ⟨?_, event, type past ▸ role, key ▸ notice⟩
        by_contra next
        obtain was | absent := starting (by simpa using next)
        · rw [past] at was
          contradiction
        · exact present absent
      · rwa [departed, key]
  | connected sending awaits role notice =>
      have past : (first.handler ref).starting = true := by rw [sending]; rfl
      obtain rfl : connected = [] := early.resolve_right fun was => by simp [past] at was
      obtain rfl : disconnected = [] := by
        obtain ⟨_, none⟩ | ⟨gone, _⟩ := late
        · exact none
        · rw [sending] at gone
          contradiction
      refine ⟨about ref (noticesOf first action last), [], by simp,
        .inr ⟨by rw [awaits]; rfl, _, ?_, by rw [notice, key]⟩, .inl ⟨by rw [awaits]; rfl, rfl⟩⟩
      rwa [(sound.effects stepped).type_eq present (by simp [sending])]
  | @disconnected new code notDeparted departed told notice =>
      have notStarting : (last.handler ref).starting = false := by
        by_contra starting
        rw [Server.departed_of_starting (by simpa using starting)] at departed
        contradiction
      obtain rfl : disconnected = [] := by
        obtain ⟨_, none⟩ | ⟨gone, _⟩ := late
        · exact none
        · rw [gone] at notDeparted
          contradiction
      refine ⟨connected ++ new, _, by rw [notice, List.append_nil, List.append_assoc], ?_,
        .inr ⟨departed, code, rfl⟩⟩
      obtain rfl | ⟨sending, event, role, isNew⟩ := told
      · rw [List.append_nil]
        refine early.imp_right ?_
        rintro ⟨past, event, role, isEvent⟩
        exact ⟨notStarting, event, type past ▸ role, key ▸ isEvent⟩
      · have past : (first.handler ref).starting = true := by rw [sending]; rfl
        obtain rfl : connected = [] := early.resolve_right fun was => by simp [past] at was
        refine .inr ⟨notStarting, event, ?_, by rw [isNew, key]; rfl⟩
        rwa [(sound.effects stepped).type_eq present (by simp [sending])]

/-- The events of a connection, by what became of it. -/
def Told (server : SignalingServer) (ref : ClientRef) : Prop :=
  match server.admission ref with
  | .served number _ => ToldOf (server.onPath number) ref (about ref server.notices)
  | .refusing code notifies => about ref server.notices = [] ∧ notifies = (code ≠ .goingAway)
  | .refused code => about ref server.notices =
      if code = .goingAway then [] else [⟨ref, .disconnected, none, some code⟩]
  | _ => about ref server.notices = []

theorem Told.of_same {ref : ClientRef} (known : before.Told ref)
    (admission : after.admission ref = before.admission ref)
    (notices : about ref after.notices = about ref before.notices)
    (onPath : ∀ number path, before.admission ref = .served number path →
      (after.onPath number).handler ref = (before.onPath number).handler ref ∧
      ((after.onPath number).system.client ref).type =
        ((before.onPath number).system.client ref).type ∧
      (after.onPath number).system.path.initiatorKey =
        (before.onPath number).system.path.initiatorKey) : after.Told ref := by
  unfold Told at known ⊢
  rw [admission, notices]
  cases was : before.admission ref with
  | served number path =>
      rw [was] at known
      obtain ⟨handler, type, key⟩ := onPath number path was
      exact known.same handler type key
  | absent | refusing | refused | failed =>
      rw [was] at known
      exact known

theorem Told.setAdmission {ref other : ClientRef} {admission : Admission}
    (known : before.Told ref) (different : ref ≠ other) :
    (before.setAdmission other admission).Told ref :=
  known.of_same (by rw [setAdmission_admission, if_neg different]) rfl
    fun _ _ _ => ⟨rfl, rfl, rfl⟩

theorem dropClient_type (server : Server) (victim ref : ClientRef) (code : CloseCode) :
    ((server.dropClient victim code).system.client ref).type = (server.system.client ref).type := by
  change ((server.system.dropClient victim).client ref).type = _
  rw [PathSystem.dropClient_client]
  split <;> simp

theorem closeProtocols_type (protocols : List (Nat × ClientRef)) (server : SignalingServer)
    (number : Nat) (ref : ClientRef) :
    (((protocols.foldl closeProtocol server).onPath number).system.client ref).type =
        ((server.onPath number).system.client ref).type ∧
      (protocols.foldl closeProtocol server).notices = server.notices := by
  induction protocols generalizing server with
  | nil => exact ⟨rfl, rfl⟩
  | cons protocol rest ih =>
      rw [List.foldl_cons, (ih _).1, (ih _).2, closeProtocol_onPath]
      refine ⟨?_, rfl⟩
      by_cases same : number = protocol.1
      · subst same
        rw [Function.update_self, dropClient_type]
      · rw [Function.update_of_ne same]

/-- A step on a path tells nothing about who is not there. -/
theorem about_absent {first last : Server} {action : Server.Action} (sound : first.Sound)
    (stepped : first.step action = some last) (inner : Inner action = true) {ref : ClientRef}
    (absent : first.handler ref = .absent) : about ref (noticesOf first action last) = [] := by
  cases tells_of_step sound stepped inner ref with
  | nothing none => exact none
  | connected sending =>
      rw [absent] at sending
      contradiction
  | disconnected _ departed =>
      rw [(handler_absent_iff sound stepped inner ref).mpr absent] at departed
      contradiction

theorem Told.get {ref : ClientRef} (known : before.Told ref) (placed : before.Placed)
    (key : List UInt8) : (before.get key).1.Told ref := by
  refine known.of_same (by rw [get_admission]) ?_ fun number path was => ?_
  · refine congrArg (about ref) ?_
    cases found : before.paths.get? (PathRegistry.storeKey key) <;>
      simp [SignalingServer.get, found]
  · have created := (placed.served ref number path was).1
    have same : (before.get key).1.onPath number = before.onPath number := by
      obtain same | ⟨fresh, _⟩ := get_onPath before key number
      · exact same
      · have := created.2
        omega
    rw [same]
    exact ⟨rfl, rfl, rfl⟩

/-- Whoever else connects, nothing new is told about a connection. -/
theorem Told.connect {ref mover : ClientRef} {number csn : Nat} {onPath : Server} {path : String}
    (known : before.Told ref) (different : ref ≠ mover)
    (sound : (before.onPath number).Sound)
    (connected : (before.onPath number).connect mover csn = some onPath) :
    Told ({ before with onPath := Function.update before.onPath number onPath }.setAdmission mover
      (.served number path)) ref := by
  have connects : (before.onPath number).step (.connect mover csn) = some onPath := connected
  refine known.of_same (by rw [setAdmission_admission, if_neg different]) rfl fun other name _ => ?_
  change (Function.update before.onPath number onPath other).handler ref = _ ∧
    ((Function.update before.onPath number onPath other).system.client ref).type = _ ∧
    (Function.update before.onPath number onPath other).system.path.initiatorKey = _
  by_cases same : other = number
  · subst same
    rw [Function.update_self, (connect_eq connected).1, Function.update_of_ne different,
      Server.connect_client connected, if_neg different]
    exact ⟨rfl, rfl, Server.initiatorKey_eq sound connects⟩
  · rw [Function.update_of_ne same]
    exact ⟨rfl, rfl, rfl⟩

theorem Told.step (known : ∀ ref, before.Told ref) {action : Action}
    (stepped : Stepped before action after) (reachable : machine.Reachable before)
    (ref : ClientRef) : after.Told ref := by
  have placed := placed_of_reachable reachable
  cases stepped with
  | @handled mover request csn after absent handled =>
      have untold : about mover before.notices = [] := by
        have := known mover
        rwa [Told, absent] at this
      by_cases same : ref = mover
      · subst same
        have gotten (key : List UInt8) : about ref (before.get key).1.notices = [] := by
          have := (known ref).get placed key
          rwa [Told, get_admission, absent] at this
        cases handled with
        | closing | subprotocol | path =>
            rw [Told, setAdmission_admission, if_pos rfl]
            exact ⟨untold, by simp⟩
        | failed =>
            rw [Told, setAdmission_admission, if_pos rfl]
            exact gotten _
        | @served key onPath _ _ _ connected =>
            rw [Told, setAdmission_admission, if_pos rfl]
            refine ⟨[], [], gotten key, .inl rfl, .inl ⟨?_, rfl⟩⟩
            change ((Function.update (before.get key).1.onPath (before.get key).2 onPath
              (before.get key).2).handler ref).departed = false
            rw [Function.update_self, (connect_eq connected).1, Function.update_self]
            rfl
      · cases handled with
        | closing | subprotocol | path => exact (known ref).setAdmission same
        | @failed key => exact ((known ref).get placed key).setAdmission same
        | @served key onPath _ _ _ connected =>
            refine ((known ref).get placed key).connect same ?_ connected
            obtain unchanged | ⟨_, _, fresh⟩ := get_onPath before key (before.get key).2
            · rw [unchanged]
              exact onPath_sound reachable _
            · rw [fresh]
              exact Server.sound_created _ _
  | @refused mover code refusing =>
      by_cases same : ref = mover
      · subst same
        obtain ⟨untold, notifies⟩ : about ref before.notices = [] ∧ _ := by
          have := known ref
          rwa [Told, refusing] at this
        rw [Told, setAdmission_admission, if_pos rfl]
        have goingAway : code = .goingAway := by simpa using notifies
        change about ref before.notices = _
        rw [untold, if_pos goingAway]
      · exact (known ref).setAdmission same
  | @refusedEvent mover code refusing =>
      have more : about ref ((before.setAdmission mover (.refused code)).raiseEvent
          ⟨mover, .disconnected, none, some code⟩).notices =
            about ref before.notices ++ about ref [⟨mover, .disconnected, none, some code⟩] :=
        about_append ..
      by_cases same : ref = mover
      · subst same
        obtain ⟨untold, notifies⟩ : about ref before.notices = [] ∧ _ := by
          have := known ref
          rwa [Told, refusing] at this
        have notGoingAway : code ≠ .goingAway := by simpa using notifies
        have refused : ((before.setAdmission ref (.refused code)).raiseEvent
            ⟨ref, .disconnected, none, some code⟩).admission ref = .refused code :=
          Function.update_self ..
        rw [Told, refused]
        dsimp only
        rw [more, untold, about_self, if_neg notGoingAway]
        rfl
      · refine (known ref).of_same ?_ ?_ fun _ _ _ => ⟨rfl, rfl, rfl⟩
        · exact Function.update_of_ne same ..
        · rw [more, about_other (Ne.symm same), List.append_nil]
  | @acted number action onPath paths created inner acted same =>
      have sound := onPath_sound reachable number
      rw [foldl_raiseEvent]
      have more : about ref (before.notices ++ noticesOf (before.onPath number) action onPath) =
          about ref before.notices ++ about ref (noticesOf (before.onPath number) action onPath) :=
        about_append ..
      by_cases absent : (before.onPath number).handler ref = .absent
      · refine (known ref).of_same rfl ?_ fun other path was => ?_
        · dsimp only
          rw [more, about_absent sound acted inner absent, List.append_nil]
        · have different : other ≠ number := by
            rintro rfl
            exact (placed.served ref other path was).2.2 absent
          dsimp only
          rw [Function.update_of_ne different]
          exact ⟨rfl, rfl, rfl⟩
      · obtain ⟨path, served⟩ := placed.present ref number absent
        have told := known ref
        unfold Told at told ⊢
        dsimp only
        rw [served] at told ⊢
        dsimp only at told ⊢
        rw [more, Function.update_self]
        exact told.step sound absent acted inner
  | @closedProtocols protocols scheduled enumerates =>
      obtain ⟨_, admission, onPath⟩ := closeProtocols_same protocols before
      have keys {number : Nat} (created : before.Created number) :=
        Stepped.keyOf_eq (.closedProtocols scheduled enumerates) reachable created
      refine (known ref).of_same (congrFun admission ref) ?_ fun number path was => ?_
      · exact congrArg (about ref) (closeProtocols_type protocols before 0 ref).2
      · exact ⟨congrFun (onPath number).1 ref, (closeProtocols_type protocols before number ref).1,
          keys (placed.served ref number path was).1⟩
  | closing => exact known ref
  | registered | closes | closedServer | failed =>
      exact (known ref).of_same rfl rfl fun _ _ _ => ⟨rfl, rfl, rfl⟩

/-- The application learns the truth about every connection, in order: nothing while it is
being refused or in its handshake; then at most one event that it has connected, which
names its role; and one event that it has disconnected, as soon as `handle_client` has
ended.  All of them carry the path in lower case. -/
theorem told_of_reachable (reachable : machine.Reachable server) (ref : ClientRef) :
    server.Told ref := by
  refine reachable.invariant (fun server => ∀ ref, server.Told ref) ?_ ?_ ref
  · rintro server ⟨callbacks, rfl⟩ ref
    rfl
  · exact fun _ _ _ reached _ known stepped =>
      Told.step known (stepped_of_step stepped) reached

set_option maxRecDepth 10000 in
/-- A connection without a sub-protocol, and an initiator that connects and leaves. -/
theorem told_refused_and_served :
    ∃ server : SignalingServer, server.admission 0 = .refused .subprotocolError ∧
      server.admission 1 = .served 1 (urlPath 'a') ∧ server.Told 0 ∧ server.Told 1 := by
  have reachable : machine.Reachable _ := Machine.reachable_of_run (initial_created fun _ => [])
    ([.connection 0 ⟨none, urlPath 'a'⟩ 0, .refused 0] ++ openPath 1 1 'a' Server.joinInitiator ++
      (Server.leavePath 1).map (.act 1)) rfl
  exact ⟨_, rfl, rfl, told_of_reachable reachable 0, told_of_reachable reachable 1⟩

/-- The step registers no callback. -/
def KeepsCallbacks (_ : SignalingServer) : Action → Prop
  | .registerEventCallback _ _ => False
  | _ => True

/-- The callbacks that `serve` registers are called for every event, in order. -/
theorem calls_eq (reach : machine.Reach KeepsCallbacks server) :
    server.calls = server.notices.flatMap fun notice =>
      (server.callbacks notice.event).map (·, notice) := by
  induction reach with
  | start initial =>
      obtain ⟨callbacks, rfl⟩ := initial
      rfl
  | @next before after action _ keeps stepped ih =>
      have gets (key : List UInt8) : (before.get key).1.calls =
          (before.get key).1.notices.flatMap fun notice =>
            ((before.get key).1.callbacks notice.event).map (·, notice) := by
        cases found : before.paths.get? (PathRegistry.storeKey key) <;>
          simpa [SignalingServer.get, found] using ih
      cases stepped_of_step stepped with
      | handled _ handled =>
          cases handled with
          | closing | subprotocol | path => exact ih
          | failed | served => exact gets _
      | refusedEvent =>
          simp only [setAdmission, raiseEvent, List.flatMap_append, ih]
          simp
      | acted =>
          rw [foldl_raiseEvent]
          dsimp only
          rw [List.flatMap_append, ih]
      | @closedProtocols protocols =>
          have same (protocols : List (Nat × ClientRef)) (server : SignalingServer) :
              (protocols.foldl closeProtocol server).calls = server.calls ∧
                (protocols.foldl closeProtocol server).callbacks = server.callbacks := by
            induction protocols generalizing server with
            | nil => exact ⟨rfl, rfl⟩
            | cons protocol rest ih => exact ih _
          dsimp only
          rw [(same _ _).1, (same _ _).2, (closeProtocols_type protocols before 0 0).2, ih]
      | registered => exact keeps.elim
      | refused | closes | closing | closedServer | failed => exact ih

end SignalingServer

end SaltyRtcServer
