import SaltyRtcServer.Authentication
import SaltyRtcServer.RegistryGrowth
import SaltyRtcServer.SignalingServer

/-!
# The steps of the whole server

Each path object lives as the machine of one path describes it, whatever happens
on the other paths, and the registry sees the calls that this machine makes on the
path.  What was proved about one path and about the registry therefore holds of the
whole server.
-/

namespace SaltyRtcServer

open StepMachine

namespace SignalingServer

variable {before after server : SignalingServer}

/-- What `Server.handler` makes of a new connection. -/
inductive Handled (before : SignalingServer) (ref : ClientRef) (request : Request) (csn : Nat) :
    SignalingServer → Prop
  | closing : before.closeTask ≠ .absent →
      Handled before ref request csn (before.setAdmission ref (.refusing .goingAway false))
  | subprotocol : before.closeTask = .absent → SubProtocol.ofValue request.subprotocol = none →
      Handled before ref request csn (before.setAdmission ref (.refusing .subprotocolError true))
  | path {error : PathError} : before.closeTask = .absent → pathKey request.path = .error error →
      Handled before ref request csn (before.setAdmission ref (.refusing .protocolError true))
  | failed {key : List UInt8} {state : Path} {exception : PyException} :
      before.closeTask = .absent → pathKey request.path = .ok key →
      ((before.get key).1.onPath (before.get key).2).system.path.addPending ref =
        .raised state exception →
      Handled before ref request csn ((before.get key).1.setAdmission ref (.failed exception))
  | served {key : List UInt8} {onPath : Server} :
      before.closeTask = .absent → SubProtocol.ofValue request.subprotocol = some .saltyrtcV1 →
      pathKey request.path = .ok key →
      ((before.get key).1.onPath (before.get key).2).connect ref csn = some onPath →
      Handled before ref request csn
        ({ (before.get key).1 with
          onPath := Function.update (before.get key).1.onPath (before.get key).2 onPath
          }.setAdmission ref (.served (before.get key).2 request.path))

theorem handled_of_handler {ref : ClientRef} {request : Request} {csn : Nat}
    (handled : before.handler ref request csn = some after) :
    Handled before ref request csn after := by
  unfold handler at handled
  split at handled
  · next closing =>
    cases handled
    exact .closing closing
  · next absent =>
    rw [not_not] at absent
    split at handled
    · next unknown =>
      cases handled
      exact .subprotocol absent unknown
    · next known =>
      unfold createProtocol at handled
      split at handled
      · next error isError =>
        cases handled
        exact .path absent isError
      · next key isKey =>
        dsimp only at handled
        split at handled
        · next state exception raised =>
          cases handled
          exact .failed absent isKey raised
        · rw [Option.map_eq_some_iff] at handled
          obtain ⟨onPath, connected, rfl⟩ := handled
          exact .served absent known isKey connected

/-- What the steps of the whole server do. -/
inductive Stepped (before : SignalingServer) : Action → SignalingServer → Prop
  | handled {ref : ClientRef} {request : Request} {csn : Nat} {after : SignalingServer} :
      before.admission ref = .absent → Handled before ref request csn after →
      Stepped before (.connection ref request csn) after
  | refused {ref : ClientRef} {code : CloseCode} :
      before.admission ref = .refusing code false →
      Stepped before (.refused ref) (before.setAdmission ref (.refused code))
  | refusedEvent {ref : ClientRef} {code : CloseCode} :
      before.admission ref = .refusing code true →
      Stepped before (.refused ref) ((before.setAdmission ref (.refused code)).raiseEvent
        ⟨ref, .disconnected, none, some code⟩)
  | acted {number : Nat} {action : Server.Action} {onPath : Server}
      {paths : PythonDict MapKey Nat} : before.Created number → Inner action = true →
      (before.onPath number).step action = some onPath →
      (paths = before.paths ∨ ∃ key, paths = before.paths.erase (.bytes key)) →
      Stepped before (.act number action)
        ((noticesOf (before.onPath number) action onPath).foldl raiseEvent
          { before with paths := paths, onPath := Function.update before.onPath number onPath })
  | registered {event : ServerEvent} {callback : Callback} :
      Stepped before (.registerEventCallback event callback) { before with
        callbacks := Function.update before.callbacks event (before.callbacks event ++ [callback]) }
  | closes : before.closeTask = .absent →
      Stepped before .close { before with closeTask := .scheduled }
  | closing : before.closeTask ≠ .absent → Stepped before .close before
  | closedProtocols {protocols : List (Nat × ClientRef)} : before.closeTask = .scheduled →
      before.Enumerates protocols →
      Stepped before (.closeProtocols protocols) { protocols.foldl closeProtocol before with
        closeTask := if protocols = [] then .closed else .waiting protocols }
  | closedServer {protocols : List (Nat × ClientRef)} : before.closeTask = .waiting protocols →
      (∀ protocol ∈ protocols, before.Ended protocol) →
      Stepped before .closeServer { before with closeTask := .closed }
  | failed {protocols : List (Nat × ClientRef)} : before.closeTask = .waiting protocols →
      protocols.any before.Fails = true →
      Stepped before .closeFails { before with closeTask := .failed }

theorem stepped_of_step {action : Action} (stepped : before.step action = some after) :
    Stepped before action after := by
  cases action with
  | connection ref request csn =>
      simp only [step, Option.ite_none_right_eq_some] at stepped
      exact .handled stepped.1.1 (handled_of_handler stepped.2)
  | refused ref =>
      simp only [step] at stepped
      split at stepped
      · next code notifies refusing =>
        cases stepped
        cases notifies with
        | false => exact .refused refusing
        | true => exact .refusedEvent refusing
      · contradiction
  | act number action =>
      simp only [step, Option.ite_none_right_eq_some] at stepped
      obtain ⟨⟨created, inner⟩, acted⟩ := stepped
      rw [act, Option.map_eq_some_iff] at acted
      obtain ⟨onPath, stepped, rfl⟩ := acted
      dsimp only
      unfold clean
      dsimp only
      split
      · exact .acted created inner stepped (.inr ⟨_, rfl⟩)
      · exact .acted created inner stepped (.inl rfl)
  | registerEventCallback event callback =>
      cases stepped
      exact .registered
  | close =>
      simp only [step, Option.some_inj] at stepped
      subst stepped
      split
      · next absent => exact .closes absent
      · next closing => exact .closing closing
  | closeProtocols protocols =>
      simp only [step, Option.ite_none_right_eq_some, Option.some_inj] at stepped
      obtain ⟨⟨scheduled, enumerates⟩, rfl⟩ := stepped
      exact .closedProtocols scheduled enumerates
  | closeServer =>
      simp only [step] at stepped
      split at stepped
      · next protocols waiting =>
        rw [Option.ite_none_right_eq_some] at stepped
        obtain ⟨ended, same⟩ := stepped
        cases same
        exact .closedServer waiting ended
      · contradiction
  | closeFails =>
      simp only [step] at stepped
      split at stepped
      · next protocols waiting =>
        rw [Option.ite_none_right_eq_some] at stepped
        obtain ⟨fails, same⟩ := stepped
        cases same
        exact .failed waiting fails
      · contradiction

theorem foldl_raiseEvent (server : SignalingServer) (notices : List Notice) :
    notices.foldl raiseEvent server =
      { server with
        notices := server.notices ++ notices
        calls := server.calls ++
          notices.flatMap fun notice => (server.callbacks notice.event).map (·, notice) } := by
  induction notices generalizing server with
  | nil => simp
  | cons notice rest ih => simp [ih, raiseEvent]

/-- `get` creates the protocols of at most one path, the next one. -/
theorem get_onPath (server : SignalingServer) (key : List UInt8) (number : Nat) :
    (server.get key).1.onPath number = server.onPath number ∨
      number = server.number + 1 ∧ (server.get key).2 = number ∧
        (server.get key).1.onPath number = Server.created key number := by
  cases found : server.paths.get? (PathRegistry.storeKey key) with
  | some stored => exact .inl (by simp [get, found])
  | none =>
      by_cases fresh : number = server.number + 1
      · subst fresh
        exact .inr (by simp [get, found])
      · exact .inl (by simp [get, found, fresh])

/-- The runs of one path between two states of the whole server. -/
abbrev Follows (first last : Server) : Prop :=
  Server.machine.Continues (fun _ _ => True) first last

theorem follows_of_step {first last : Server} {action : Server.Action}
    (stepped : first.step action = some last) : Follows first last :=
  .single ⟨action, trivial, stepped⟩

theorem closeProtocol_onPath (server : SignalingServer) (protocol : Nat × ClientRef) :
    (server.closeProtocol protocol).onPath = Function.update server.onPath protocol.1
      ((server.onPath protocol.1).dropClient protocol.2 .goingAway) :=
  rfl

theorem closeProtocol_protocols (server : SignalingServer) (protocol : Nat × ClientRef)
    (number : Nat) :
    ((server.closeProtocol protocol).onPath number).protocols =
      (server.onPath number).protocols := by
  rw [closeProtocol_onPath]
  by_cases same : number = protocol.1
  · subst same
    simp [Server.dropClient, Server.drop, Server.log, Server.cancelTasks, Server.setTasks,
      Server.setJobs]
  · rw [Function.update_of_ne same]

theorem closeProtocol_step {server : SignalingServer} {protocol : Nat × ClientRef}
    (registered : protocol.2 ∈ (server.onPath protocol.1).protocols) :
    (server.onPath protocol.1).step (.closeProtocol protocol.2) =
      some ((server.onPath protocol.1).dropClient protocol.2 .goingAway) :=
  if_pos registered

theorem closeProtocols_follows (protocols : List (Nat × ClientRef)) (server : SignalingServer)
    (registered : ∀ protocol ∈ protocols, protocol.2 ∈ (server.onPath protocol.1).protocols)
    (number : Nat) :
    Follows (server.onPath number) ((protocols.foldl closeProtocol server).onPath number) := by
  induction protocols generalizing server with
  | nil => exact .refl
  | cons protocol rest ih =>
      rw [List.foldl_cons]
      refine .trans ?_ (ih _ fun other mem => ?_)
      · rw [closeProtocol_onPath]
        by_cases same : number = protocol.1
        · subst same
          rw [Function.update_self]
          exact follows_of_step (closeProtocol_step (registered protocol List.mem_cons_self))
        · rw [Function.update_of_ne same]
      · rw [closeProtocol_protocols]
        exact registered other (List.mem_cons_of_mem _ mem)

/-- On each path, a step of the whole server makes steps of its protocols, or none; the
path may be new. -/
theorem Stepped.follows {action : Action} (stepped : Stepped before action after)
    (number : Nat) :
    Follows (before.onPath number) (after.onPath number) ∨
      number = before.number + 1 ∧
        ∃ key, Follows (Server.created key number) (after.onPath number) := by
  cases stepped with
  | @handled ref request csn after _ handled =>
      cases handled with
      | closing | subprotocol | path => exact .inl .refl
      | @failed key =>
          obtain same | ⟨fresh, _, created⟩ := get_onPath before key number
          · exact .inl (same ▸ .refl)
          · exact .inr ⟨fresh, key, created ▸ .refl⟩
      | @served key onPath _ _ _ connected =>
          have connects : ((before.get key).1.onPath (before.get key).2).step (.connect ref csn) =
              some onPath := connected
          have follows : Follows ((before.get key).1.onPath number)
              (Function.update (before.get key).1.onPath (before.get key).2 onPath number) := by
            by_cases same : number = (before.get key).2
            · subst same
              rw [Function.update_self]
              exact follows_of_step connects
            · rw [Function.update_of_ne same]
              exact .refl
          obtain same | ⟨fresh, _, created⟩ := get_onPath before key number
          · rw [same] at follows
            exact .inl follows
          · rw [created] at follows
            exact .inr ⟨fresh, key, follows⟩
  | @acted other action onPath paths _ _ acted =>
      rw [foldl_raiseEvent]
      change Follows _ (Function.update before.onPath other onPath number) ∨ _
      by_cases same : number = other
      · subst same
        rw [Function.update_self]
        exact .inl (follows_of_step acted)
      · rw [Function.update_of_ne same]
        exact .inl .refl
  | closedProtocols _ enumerates =>
      exact .inl (closeProtocols_follows _ before
        (fun protocol mem => (enumerates.2.1 protocol mem).2) number)
  | refused | refusedEvent | registered | closes | closing | closedServer | failed =>
      exact .inl .refl

/-- Each path of the whole server is in a state that the protocols of one path reach. -/
theorem onPath_reachable (reachable : machine.Reachable server) (number : Nat) :
    Server.machine.Reachable (server.onPath number) := by
  refine reachable.invariant
    (fun server => ∀ number, Server.machine.Reachable (server.onPath number)) ?_ ?_ number
  · rintro server ⟨callbacks, rfl⟩ number
    exact .start (Server.initial_created [] number)
  · intro before after action _ _ reached stepped number
    obtain follows | ⟨_, key, follows⟩ := (stepped_of_step stepped).follows number
    · exact (reached number).continues follows
    · exact Machine.Reach.continues (.start (Server.initial_created key number)) follows

theorem onPath_sound (reachable : machine.Reachable server) (number : Nat) :
    (server.onPath number).Sound :=
  Server.sound_of_reachable (onPath_reachable reachable number)

theorem system_update (onPath : Nat → Server) (number : Nat) (next : Server) :
    (fun other => (Function.update onPath number next other).system) =
      Function.update (fun other => (onPath other).system) number next.system :=
  Function.comp_update Server.system onPath number next

/-- The calls that a step of a protocol makes on its path. -/
theorem system_follows {first last : Server} {action : Server.Action} (sound : first.Sound)
    (stepped : first.step action = some last) :
    Relation.ReflTransGen (fun first last => ∃ call, PathSystem.step first call = some last)
      first.system last.system := by
  have effects := sound.effects stepped
  clear stepped
  induction effects with
  | refl => exact .refl
  | tail _ effect ih =>
      obtain same | called := effect.system_step
      · rwa [same]
      · exact ih.tail called

theorem registry_get (server : SignalingServer) (key : List UInt8) :
    PathRegistry.step server.registry (.get key) = some (server.get key).1.registry ∧
      (server.get key).2 = (server.registry.get key).2 := by
  cases found : server.paths.get? (PathRegistry.storeKey key) with
  | some number => simp [PathRegistry.step, PathRegistry.get, registry, get, found]
  | none =>
      simp only [PathRegistry.step, PathRegistry.get, registry, get, found, system_update]
      exact ⟨rfl, trivial⟩

theorem closeProtocol_registry (server : SignalingServer) (protocol : Nat × ClientRef) :
    (server.closeProtocol protocol).registry = { server.registry with
      system := Function.update server.registry.system protocol.1
        ((server.onPath protocol.1).dropClient protocol.2 .goingAway).system } := by
  unfold registry
  rw [closeProtocol_onPath, system_update]
  rfl

theorem closeProtocols_registry (protocols : List (Nat × ClientRef)) (server : SignalingServer)
    (registered : ∀ protocol ∈ protocols, server.Registered protocol)
    (reachable : ∀ number, Server.machine.Reachable (server.onPath number))
    (reached : PathRegistry.machine.Reachable server.registry) :
    PathRegistry.machine.Continues (fun _ _ => True) server.registry
      (protocols.foldl closeProtocol server).registry := by
  induction protocols generalizing server with
  | nil => exact .refl
  | cons protocol rest ih =>
      obtain ⟨created, mem⟩ := registered protocol List.mem_cons_self
      have kept := PathRegistry.kept_of_reachable reached
      have continues := kept.follows created
        (system_follows (Server.sound_of_reachable (reachable _)) (closeProtocol_step mem))
      rw [← closeProtocol_registry] at continues
      rw [List.foldl_cons]
      refine continues.trans (ih _ (fun other mem => ?_) (fun number => ?_) ?_)
      · obtain ⟨otherCreated, otherMem⟩ := registered other (List.mem_cons_of_mem _ mem)
        exact ⟨otherCreated, by rwa [closeProtocol_protocols]⟩
      · exact (reachable number).continues (closeProtocols_follows [protocol] server
          (by simpa using mem) number)
      · exact reached.continues continues

theorem registry_gets (server : SignalingServer) (key : List UInt8) :
    (server.get key).1.registry.gets = (key, (server.get key).2) :: server.gets := by
  cases found : server.paths.get? (PathRegistry.storeKey key) with
  | some number => simp [get, found, registry]
  | none => simp [get, found, registry]

theorem Stepped.registry_follows {action : Action} (stepped : Stepped before action after)
    (reachable : machine.Reachable before)
    (reached : PathRegistry.machine.Reachable before.registry) :
    PathRegistry.machine.Continues (fun _ _ => True) before.registry after.registry := by
  have kept := PathRegistry.kept_of_reachable reached
  cases stepped with
  | @handled ref request csn after _ handled =>
      cases handled with
      | closing | subprotocol | path => exact .refl
      | @failed key => exact .single ⟨.get key, trivial, (registry_get before key).1⟩
      | @served key onPath _ _ _ connected =>
          have called := (registry_get before key).1
          have nextKept := kept.step called
          have created : (before.get key).1.registry.Created (before.get key).2 := by
            refine (nextKept.gets key _ ?_).1
            rw [registry_gets]
            exact List.mem_cons_self
          have sound : ((before.get key).1.onPath (before.get key).2).Sound := by
            obtain same | ⟨_, _, fresh⟩ := get_onPath before key (before.get key).2
            · rw [same]
              exact onPath_sound reachable _
            · rw [fresh]
              exact Server.sound_created _ _
          have connects : ((before.get key).1.onPath (before.get key).2).step (.connect ref csn) =
              some onPath := connected
          have continues := nextKept.follows created (system_follows sound connects)
          refine .head ⟨.get key, trivial, called⟩ ?_
          unfold registry at continues ⊢
          rw [setAdmission, system_update]
          exact continues
  | @acted number action onPath paths created _ acted same =>
      have paths_eq : paths = before.paths := by
        obtain same | ⟨key, same⟩ := same
        · exact same
        · rw [same]
          exact PythonDict.erase_of_get?_none (kept.bytes key)
      have continues := kept.follows created (system_follows (onPath_sound reachable number) acted)
      rw [foldl_raiseEvent]
      unfold registry at continues ⊢
      rw [paths_eq, system_update]
      exact continues
  | closedProtocols _ enumerates =>
      exact closeProtocols_registry _ before enumerates.2.1 (onPath_reachable reachable)
        reached
  | refused | refusedEvent | registered | closes | closing | closedServer | failed => exact .refl

/-- The registry of the whole server is in a state that the calls of `Paths` and of the
protocols reach. -/
theorem registry_reachable (reachable : machine.Reachable server) :
    PathRegistry.machine.Reachable server.registry := by
  induction reachable with
  | start initial =>
      obtain ⟨callbacks, rfl⟩ := initial
      exact .start ⟨rfl, rfl, rfl⟩
  | next action reached _ stepped ih =>
      exact ih.continues ((stepped_of_step stepped).registry_follows reached ih)

theorem kept_of_reachable (reachable : machine.Reachable server) : server.registry.Kept :=
  PathRegistry.kept_of_reachable (registry_reachable reachable)

/-- The whole server refines both of its parts: on each path it makes the steps of the
protocols of one path, and on the registry the calls of `Paths`. -/
theorem parts_reachable (reachable : machine.Reachable server) :
    (∀ number, Server.machine.Reachable (server.onPath number)) ∧
      PathRegistry.machine.Reachable server.registry :=
  ⟨onPath_reachable reachable, registry_reachable reachable⟩

set_option maxRecDepth 10000 in
/-- An initiator joins, and leaves a path that is detached but still stored. -/
theorem parts_reachable_detached :
    ∃ server : SignalingServer, server.registry.paths.length = 1 ∧
      (server.onPath 1).system.path.attached = false ∧
      (∀ number, Server.machine.Reachable (server.onPath number)) ∧
      PathRegistry.machine.Reachable server.registry := by
  have reachable : machine.Reachable _ := Machine.reachable_of_run (initial_created fun _ => [])
    (openPath 1 0 'a' Server.joinInitiator ++ ([.connectionLost 0 1001, .receiveClosed 0 1001,
      .loopReported 0, .result 0] : List Server.Action).map (.act 1)) rfl
  exact ⟨_, rfl, rfl, parts_reachable reachable⟩

end SignalingServer

end SaltyRtcServer
