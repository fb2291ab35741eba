import SaltyRtcServer.HandlerMoves
import SaltyRtcServer.SignalingSteps

/-!
# Which path a connection is served on

The path of a URL names the key of a path in hexadecimal.  All connections that
name one key meet on one path object, and on no other.
-/

namespace SaltyRtcServer

open StepMachine

namespace SignalingServer

variable {before after server : SignalingServer}

/-- The key of the path with a given number. -/
def keyOf (server : SignalingServer) (number : Nat) : List UInt8 :=
  (server.onPath number).system.path.initiatorKey

theorem follows_initiatorKey {first last : Server} (reachable : Server.machine.Reachable first)
    (follows : Follows first last) :
    last.system.path.initiatorKey = first.system.path.initiatorKey := by
  induction follows with
  | refl => rfl
  | tail early step ih =>
      obtain ⟨action, _, stepped⟩ := step
      rw [← ih]
      exact Server.initiatorKey_eq (Server.sound_of_reachable (reachable.continues early)) stepped

theorem Stepped.keyOf_eq {action : Action} (stepped : Stepped before action after)
    (reachable : machine.Reachable before) {number : Nat} (created : before.Created number) :
    after.keyOf number = before.keyOf number := by
  obtain follows | ⟨fresh, _⟩ := stepped.follows number
  · exact follows_initiatorKey (onPath_reachable reachable number) follows
  · have := created.2
    omega

theorem get_number (server : SignalingServer) (key : List UInt8) :
    server.number ≤ (server.get key).1.number := by
  cases found : server.paths.get? (PathRegistry.storeKey key) with
  | some number => simp [get, found]
  | none => simp [get, found]

theorem closeProtocols_same (protocols : List (Nat × ClientRef)) (server : SignalingServer) :
    (protocols.foldl closeProtocol server).number = server.number ∧
      (protocols.foldl closeProtocol server).admission = server.admission ∧
      ∀ number, ((protocols.foldl closeProtocol server).onPath number).handler =
          (server.onPath number).handler ∧
        ((protocols.foldl closeProtocol server).onPath number).protocols =
          (server.onPath number).protocols := by
  induction protocols generalizing server with
  | nil => exact ⟨rfl, rfl, fun _ => ⟨rfl, rfl⟩⟩
  | cons protocol rest ih =>
      obtain ⟨number, admission, onPath⟩ := ih (server.closeProtocol protocol)
      refine ⟨number, admission, fun other => ?_⟩
      rw [List.foldl_cons, (onPath other).1, (onPath other).2, closeProtocol_protocols,
        closeProtocol_onPath]
      refine ⟨?_, rfl⟩
      by_cases same : other = protocol.1
      · subst same
        rw [Function.update_self]
        rfl
      · rw [Function.update_of_ne same]

theorem Stepped.created {action : Action} (stepped : Stepped before action after) {number : Nat}
    (created : before.Created number) : after.Created number := by
  refine ⟨created.1, created.2.trans ?_⟩
  cases stepped with
  | handled _ handled =>
      cases handled with
      | closing | subprotocol | path => exact le_refl _
      | failed | served => exact get_number before _
  | acted =>
      rw [foldl_raiseEvent]
  | closedProtocols => exact (closeProtocols_same _ before).1.ge
  | refused | refusedEvent | registered | closes | closing | closedServer | failed =>
      exact le_refl _

/-- `get` returns the number of a path that exists and has the key. -/
theorem get_spec (reachable : machine.Reachable server) (key : List UInt8) :
    (server.get key).1.Created (server.get key).2 ∧
      (server.get key).1.keyOf (server.get key).2 = key := by
  have kept := (kept_of_reachable reachable).step (registry_get server key).1
  refine kept.gets key _ ?_
  rw [registry_gets]
  exact List.mem_cons_self

/-- The connections that are served are the clients of the paths that they name. -/
structure Placed (server : SignalingServer) : Prop where
  served : ∀ ref number path, server.admission ref = .served number path →
    server.Created number ∧ pathKey path = .ok (server.keyOf number) ∧
      (server.onPath number).handler ref ≠ .absent
  present : ∀ ref number, (server.onPath number).handler ref ≠ .absent →
    ∃ path, server.admission ref = .served number path

/-- A step that serves no new connection. -/
theorem Placed.kept (placed : before.Placed) {action : Action}
    (stepped : Stepped before action after) (reachable : machine.Reachable before)
    (admission : ∀ ref number path, after.admission ref = .served number path ↔
      before.admission ref = .served number path)
    (handler : ∀ number ref, (after.onPath number).handler ref = .absent ↔
      (before.onPath number).handler ref = .absent) : after.Placed where
  served ref number path served := by
    obtain ⟨created, key, present⟩ := placed.served ref number path ((admission ..).mp served)
    refine ⟨stepped.created created, ?_, ?_⟩
    · rw [stepped.keyOf_eq reachable created]
      exact key
    · rwa [Ne, handler]
  present ref number present := by
    rw [Ne, handler] at present
    obtain ⟨path, served⟩ := placed.present ref number present
    exact ⟨path, (admission ..).mpr served⟩

theorem get_handler (server : SignalingServer) (key : List UInt8) (number : Nat)
    (ref : ClientRef) (present : ((server.get key).1.onPath number).handler ref ≠ .absent) :
    ((server.get key).1.onPath number) = server.onPath number := by
  obtain same | ⟨_, _, fresh⟩ := get_onPath server key number
  · exact same
  · rw [fresh] at present
    contradiction

theorem get_admission (server : SignalingServer) (key : List UInt8) :
    (server.get key).1.admission = server.admission := by
  cases found : server.paths.get? (PathRegistry.storeKey key) <;> simp [get, found]

/-- After `get`, a client is only on a path where it was before. -/
theorem Placed.get (placed : before.Placed) (key : List UInt8) : (before.get key).1.Placed where
  served ref number path served := by
    rw [get_admission] at served
    obtain ⟨created, isKey, present⟩ := placed.served ref number path served
    have unchanged : (before.get key).1.onPath number = before.onPath number := by
      obtain same | ⟨fresh, _⟩ := get_onPath before key number
      · exact same
      · have := created.2
        omega
    refine ⟨⟨created.1, created.2.trans (get_number before key)⟩, ?_, ?_⟩
    · rwa [keyOf, unchanged]
    · rwa [unchanged]
  present ref number present := by
    rw [get_handler before key number ref present] at present
    rw [get_admission]
    exact placed.present ref number present

theorem setAdmission_admission (server : SignalingServer) (ref other : ClientRef)
    (admission : Admission) :
    (server.setAdmission ref admission).admission other =
      if other = ref then admission else server.admission other :=
  Function.update_apply ..

theorem Placed.setAdmission (placed : before.Placed) {ref : ClientRef} {admission : Admission}
    (was : ∀ number path, before.admission ref ≠ .served number path)
    (is : ∀ number path, admission ≠ .served number path) :
    (before.setAdmission ref admission).Placed where
  served other number path served := by
    by_cases same : other = ref
    · subst same
      rw [setAdmission_admission, if_pos rfl] at served
      exact absurd served (is number path)
    · rw [setAdmission_admission, if_neg same] at served
      exact placed.served other number path served
  present other number present := by
    obtain ⟨path, served⟩ := placed.present other number present
    have different : other ≠ ref := by
      rintro rfl
      exact was number path served
    exact ⟨path, by rwa [setAdmission_admission, if_neg different]⟩

theorem connect_eq {first last : Server} {ref : ClientRef} {csn : Nat}
    (connected : first.connect ref csn = some last) :
    last.handler = Function.update first.handler ref .created ∧
      last.protocols = insert ref first.protocols := by
  unfold Server.connect at connected
  split at connected
  · rw [Option.map_eq_some_iff] at connected
    obtain ⟨system, _, rfl⟩ := connected
    exact ⟨rfl, rfl⟩
  · contradiction

/-- A new client on the path that it names. -/
theorem Placed.connect (placed : before.Placed) {ref : ClientRef} {number : Nat} {path : String}
    {csn : Nat} {onPath : Server} (reachable : Server.machine.Reachable (before.onPath number))
    (was : ∀ number path, before.admission ref ≠ .served number path)
    (created : before.Created number) (isKey : pathKey path = .ok (before.keyOf number))
    (connected : (before.onPath number).connect ref csn = some onPath) :
    Placed ({ before with onPath := Function.update before.onPath number onPath }.setAdmission ref
      (.served number path)) := by
  have handler := (connect_eq connected).1
  have connects : (before.onPath number).step (.connect ref csn) = some onPath := connected
  have keys (other : Nat) :
      (Function.update before.onPath number onPath other).system.path.initiatorKey =
        before.keyOf other := by
    by_cases same : other = number
    · subst same
      rw [Function.update_self]
      exact follows_initiatorKey reachable (follows_of_step connects)
    · rw [Function.update_of_ne same]
      rfl
  have others (other : ClientRef) (different : other ≠ ref) (index : Nat) :
      (Function.update before.onPath number onPath index).handler other =
        (before.onPath index).handler other := by
    by_cases same : index = number
    · subst same
      rw [Function.update_self, handler, Function.update_of_ne different]
    · rw [Function.update_of_ne same]
  constructor
  · intro other index name served
    by_cases same : other = ref
    · subst same
      rw [setAdmission_admission, if_pos rfl] at served
      cases served
      refine ⟨created, ?_, ?_⟩
      · exact isKey.trans (congrArg _ (keys number).symm)
      · change (Function.update before.onPath number onPath number).handler other ≠ _
        rw [Function.update_self, handler, Function.update_self]
        simp
    · rw [setAdmission_admission, if_neg same] at served
      obtain ⟨exists_, isOther, present⟩ := placed.served other index name served
      refine ⟨exists_, ?_, ?_⟩
      · exact isOther.trans (congrArg _ (keys index).symm)
      · change (Function.update before.onPath number onPath index).handler other ≠ _
        rwa [others other same]
  · intro other index present
    change (Function.update before.onPath number onPath index).handler other ≠ _ at present
    by_cases same : other = ref
    · subst same
      by_cases here : index = number
      · subst here
        exact ⟨path, by rw [setAdmission_admission, if_pos rfl]⟩
      · rw [Function.update_of_ne here] at present
        obtain ⟨name, served⟩ := placed.present other index present
        exact absurd served (was index name)
    · rw [others other same] at present
      obtain ⟨name, served⟩ := placed.present other index present
      exact ⟨name, by rwa [setAdmission_admission, if_neg same]⟩

theorem handler_absent_iff {first last : Server} {action : Server.Action} (sound : first.Sound)
    (stepped : first.step action = some last) (inner : Inner action = true) (ref : ClientRef) :
    last.handler ref = .absent ↔ first.handler ref = .absent := by
  cases (sound.clientStep stepped ref).handlerMove with
  | kept same _ => rw [same]
  | connected connects =>
      subst connects
      contradiction
  | moved was _ is _ _ => exact iff_of_false is was
  | finished departed _ is _ =>
      refine iff_of_false (by simp [is]) fun absent => ?_
      rw [absent] at departed
      contradiction

theorem Placed.step (placed : before.Placed) {action : Action}
    (stepped : Stepped before action after) (reachable : machine.Reachable before) :
    after.Placed := by
  have keeps : ∀ ref number path, before.admission ref = .served number path ↔
      before.admission ref = .served number path := fun _ _ _ => Iff.rfl
  cases stepped with
  | @handled ref request csn after absent handled =>
      have was (number : Nat) (path : String) : before.admission ref ≠ .served number path := by
        simp [absent]
      cases handled with
      | closing | subprotocol | path => exact placed.setAdmission was (by simp)
      | @failed key =>
          exact (placed.get key).setAdmission (by simpa [get_admission] using was) (by simp)
      | @served key onPath _ _ isKey connected =>
          obtain ⟨created, keyOf_eq⟩ := get_spec reachable key
          refine (placed.get key).connect ?_ (by simpa [get_admission] using was) created
            (by rw [keyOf_eq, isKey]) connected
          obtain same | ⟨_, _, fresh⟩ := get_onPath before key (before.get key).2
          · rw [same]
            exact onPath_reachable reachable _
          · rw [fresh]
            exact .start (Server.initial_created _ _)
  | refused refusing => exact placed.setAdmission (by simp [refusing]) (by simp)
  | @refusedEvent ref code refusing =>
      have refused : (before.setAdmission ref (.refused code)).Placed :=
        placed.setAdmission (by simp [refusing]) (by simp)
      exact ⟨refused.served, refused.present⟩
  | @acted number action onPath paths created inner acted same =>
      have whole := Stepped.acted created inner acted same
      refine placed.kept whole reachable ?_ ?_
      · rw [foldl_raiseEvent]
        exact keeps
      · intro other ref
        rw [foldl_raiseEvent]
        change (Function.update before.onPath number onPath other).handler ref = _ ↔ _
        by_cases here : other = number
        · subst here
          rw [Function.update_self]
          exact handler_absent_iff (onPath_sound reachable _) acted inner ref
        · rw [Function.update_of_ne here]
  | closedProtocols scheduled enumerates =>
      obtain ⟨_, admission, onPath⟩ := closeProtocols_same _ before
      refine placed.kept (.closedProtocols scheduled enumerates) reachable ?_ ?_
      · dsimp only
        rw [admission]
        exact keeps
      · intro number ref
        dsimp only
        rw [(onPath number).1]
  | closing => exact placed
  | registered | closes | closedServer | failed => exact ⟨placed.served, placed.present⟩

theorem placed_of_reachable (reachable : machine.Reachable server) : server.Placed := by
  refine reachable.invariant _ ?_ fun _ _ _ reached _ placed stepped =>
    placed.step (stepped_of_step stepped) reached
  rintro server ⟨callbacks, rfl⟩
  constructor
  · intro ref number path served
    contradiction
  · intro ref number present
    contradiction

/-- The digits in the path of a URL, with its letters in lower case. -/
def digits (path : String) : List Char := (path.toList.drop 1).map Char.toLower

theorem pathKey_eq_ok_iff (path : String) (key : List UInt8) :
    pathKey path = .ok key ↔ key.length = 32 ∧ digits path = Hexadecimal.encode key := by
  unfold pathKey digits
  dsimp only
  split
  · next wrongLength =>
    refine iff_of_false (by simp) ?_
    rintro ⟨length, same⟩
    have lengths := congrArg List.length same
    rw [List.length_map, Hexadecimal.length_encode, length] at lengths
    exact wrongLength lengths
  · next rightLength =>
    rw [not_not] at rightLength
    rw [← Hexadecimal.decode_eq_some_iff]
    split
    · next none =>
      rw [none]
      simp
    · next found isFound =>
      rw [isFound, Except.ok.injEq, Option.some_inj]
      constructor
      · rintro rfl
        refine ⟨?_, rfl⟩
        have lengths := congrArg List.length ((Hexadecimal.decode_eq_some_iff _ _).mp isFound)
        rw [List.length_map, rightLength, Hexadecimal.length_encode, pathLength] at lengths
        omega
      · exact And.right

/-- A connection is served on the one path object whose key its URL names.  Two
connections are on the same path object exactly if their URLs have the same digits,
in either case. -/
theorem served_by_key (reachable : machine.Reachable server) {ref : ClientRef} {number : Nat}
    {path : String} (served : server.admission ref = .served number path) :
    server.Created number ∧ (server.keyOf number).length = 32 ∧
      hexPath (server.keyOf number) = String.ofList (digits path) ∧
      (∀ other, (server.onPath other).handler ref ≠ .absent ↔ other = number) ∧
      ∀ other index name, server.admission other = .served index name →
        (index = number ↔ digits name = digits path) := by
  have placed := placed_of_reachable reachable
  obtain ⟨created, isKey, present⟩ := placed.served ref number path served
  obtain ⟨length, same⟩ := (pathKey_eq_ok_iff _ _).mp isKey
  refine ⟨created, length, ?_, fun other => ⟨fun here => ?_, ?_⟩, fun other index name also => ?_⟩
  · rw [hexPath, same]
  · obtain ⟨_, also⟩ := placed.present ref other here
    rw [served] at also
    injection also with same
    exact same.symm
  · rintro rfl
    exact present
  · obtain ⟨otherCreated, isOther, _⟩ := placed.served other index name also
    obtain ⟨_, otherSame⟩ := (pathKey_eq_ok_iff _ _).mp isOther
    rw [same, otherSame, Hexadecimal.encode_injective.eq_iff]
    constructor
    · rintro rfl
      rfl
    · exact fun keys => (kept_of_reachable reachable).number_inj otherCreated created keys

set_option maxRecDepth 10000 in
/-- An initiator and a responder whose URLs differ in the case of their letters. -/
theorem served_by_key_either_case :
    ∃ server : SignalingServer, server.admission 0 = .served 1 (urlPath 'a') ∧
      server.admission 1 = .served 1 (urlPath 'A') ∧ server.Created 1 ∧
      (server.keyOf 1).length = 32 ∧
      hexPath (server.keyOf 1) = String.ofList (digits (urlPath 'a')) ∧
      (∀ other, (server.onPath other).handler 0 ≠ .absent ↔ other = 1) ∧
      ∀ other index name, server.admission other = .served index name →
        (index = 1 ↔ digits name = digits (urlPath 'a')) := by
  have reachable : machine.Reachable _ := Machine.reachable_of_run (initial_created fun _ => [])
    (openPath 1 0 'a' Server.joinInitiator ++ openPath 1 1 'A' Server.joinResponder) rfl
  exact ⟨_, rfl, rfl, served_by_key reachable rfl⟩

theorem follows_detached {first last : Server} (reachable : Server.machine.Reachable first)
    (follows : Follows first last) (detached : first.system.path.attached = false) :
    last.system.path.attached = false := by
  induction follows with
  | refl => exact detached
  | tail early step ih =>
      obtain ⟨action, _, stepped⟩ := step
      have sound := Server.sound_of_reachable (reachable.continues early)
      exact (sound.effects stepped).detached ih

/-- A path that was detached, in the next state. -/
theorem Stepped.detached {action : Action} (stepped : Stepped before action after)
    (reachable : machine.Reachable before) {number : Nat} (created : before.Created number)
    (detached : (before.onPath number).system.path.attached = false) :
    (after.onPath number).system.path.attached = false := by
  obtain follows | ⟨fresh, _⟩ := stepped.follows number
  · exact follows_detached (onPath_reachable reachable number) follows detached
  · have := created.2
    omega

theorem connect_attached {first last : Server} {ref : ClientRef} {csn : Nat}
    (connected : first.connect ref csn = some last) : first.system.path.attached = true := by
  by_contra attached
  have detached : first.system.path.attached = false := by simpa using attached
  unfold Server.connect at connected
  simp [PathSystem.step, Path.addPending, detached] at connected

/-- No step serves a connection on a path that was detached. -/
theorem Stepped.served {action : Action} (stepped : Stepped before action after) {number : Nat}
    (created : before.Created number)
    (detached : (before.onPath number).system.path.attached = false) {ref : ClientRef}
    {path : String} (served : after.admission ref = .served number path) :
    before.admission ref = .served number path := by
  have elsewhere {server : SignalingServer} {mover : ClientRef} {admission : Admission}
      (same : server.admission = before.admission)
      (moved : (server.setAdmission mover admission).admission ref = .served number path)
      (new : ref = mover → admission ≠ .served number path) :
      before.admission ref = .served number path := by
    rw [setAdmission_admission, same] at moved
    split at moved
    · next isMover => exact absurd moved (new isMover)
    · exact moved
  cases stepped with
  | @handled mover request csn after _ handled =>
      cases handled with
      | closing | subprotocol | path => exact elsewhere rfl served (by simp)
      | failed => exact elsewhere (get_admission ..) served (by simp)
      | @served key onPath _ _ _ connected =>
          refine elsewhere (get_admission before key) served fun _ same => ?_
          injection same with here
          have attached := connect_attached connected
          obtain same | ⟨fresh, _⟩ := get_onPath before key (before.get key).2
          · rw [same, here, detached] at attached
            contradiction
          · have := created.2
            omega
  | refused | refusedEvent => exact elsewhere rfl served (by simp)
  | acted =>
      rw [foldl_raiseEvent] at served
      exact served
  | closedProtocols =>
      dsimp only at served
      rwa [(closeProtocols_same _ before).2.1] at served
  | registered | closes | closing | closedServer | failed => exact served

/-- The key of a path that has become empty once is used up: the path stays in the
registry, detached and empty, and no new connection is served under the key. -/
theorem key_used_up {first last : SignalingServer} (reachable : machine.Reachable first)
    (steps : machine.Continues (fun _ _ => True) first last) {number : Nat}
    (created : first.Created number)
    (detached : (first.onPath number).system.path.attached = false) :
    last.paths.get? (PathRegistry.storeKey (first.keyOf number)) = some number ∧
      (last.onPath number).system.path.attached = false ∧
      (last.onPath number).system.path.empty = true ∧
      ∀ ref index path, pathKey path = .ok (first.keyOf number) →
        last.admission ref = .served index path → first.admission ref = .served index path := by
  -- What has to be known of each state on the way.
  have along : last.Created number ∧ last.keyOf number = first.keyOf number ∧
      (last.onPath number).system.path.attached = false ∧
      ∀ ref path, last.admission ref = .served number path →
        first.admission ref = .served number path := by
    induction steps with
    | refl => exact ⟨created, rfl, detached, fun _ _ served => served⟩
    | tail early step ih =>
        obtain ⟨action, _, stepped⟩ := step
        obtain ⟨exists_, key, gone, earlier⟩ := ih
        have reached := reachable.continues early
        have stepped := stepped_of_step stepped
        exact ⟨stepped.created exists_, (stepped.keyOf_eq reached exists_).trans key,
          stepped.detached reached exists_ gone,
          fun ref path served => earlier ref path (stepped.served exists_ gone served)⟩
  obtain ⟨exists_, key, gone, earlier⟩ := along
  have reached := reachable.continues steps
  have kept := kept_of_reachable reached
  refine ⟨?_, gone, ?_, fun ref index path isKey served => ?_⟩
  · rw [← key]
    exact kept.stored number exists_
  · exact (Path.empty_iff _).mpr ((onPath_sound reached number).consistent.detached gone)
  · obtain ⟨indexCreated, isIndex, _⟩ := (placed_of_reachable reached).served ref index path served
    rw [isIndex, ← key, Except.ok.injEq] at isKey
    obtain rfl : index = number := kept.number_inj indexCreated exists_ isKey
    exact earlier ref path served

set_option maxRecDepth 10000 in
/-- After its first client has left, nobody is served on a path any more. -/
theorem key_used_up_after_one :
    ∃ server : SignalingServer, server.admission 0 = .served 1 (urlPath 'a') ∧
      ∀ last, machine.Continues (fun _ _ => True) server last →
        last.paths.get? (PathRegistry.storeKey (server.keyOf 1)) = some 1 ∧
        (last.onPath 1).system.path.attached = false ∧
        (last.onPath 1).system.path.empty = true ∧
        ∀ ref index path, pathKey path = .ok (server.keyOf 1) →
          last.admission ref = .served index path →
          server.admission ref = .served index path := by
  have reachable : machine.Reachable _ := Machine.reachable_of_run (initial_created fun _ => [])
    (openPath 1 0 'a' Server.joinInitiator ++ (Server.leavePath 0).map (.act 1)) rfl
  exact ⟨_, rfl, fun _ steps => key_used_up reachable steps (by decide) rfl⟩

end SignalingServer

end SaltyRtcServer
