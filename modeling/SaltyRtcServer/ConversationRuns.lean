import SaltyRtcServer.Conversation

/-!
# The server understands its client

Every step of a conversation keeps the session of the client and the packets in
flight in agreement: a packet that is sent gets the next number, one that is
delivered is the one expected, and the steps of others leave the session alone.
-/

namespace SaltyRtcServer

open StepMachine

namespace Conversation

variable {environment : Environment} {packages : environment.ClientPackages}
  {client : ProtocolClient} {ref : ClientRef} {before after state : Conversation}
  {action : Action}

section Steps

theorem sound_initial (initial : (machine packages client ref).initial state) :
    state.Sound packages client ref := by
  obtain ⟨⟨⟨initiatorKey, number, created⟩, _⟩, silent, isFirst, empty, path, known⟩ := initial
  have absent : state.handler ref = .absent := by
    rw [handler, created]
    rfl
  have unknown : (state.peer ref).state ≠ .authenticated := by
    rw [peer, PacketServer.client, created]
    simp [Server.created, PathSystem.created, PathClient.new]
  constructor
  case path => exact path
  case permanentKey => exact known
  case absent => exact fun _ => ⟨silent, empty, isFirst⟩
  case negotiated => exact fun present => absurd absent present
  case hears =>
    rintro (greeting | second | authenticated)
    · rw [absent] at greeting
      exact greeting.elim
    · rw [absent] at second
      contradiction
    · exact absurd authenticated unknown
  case greeting =>
    intro greeting
    rw [absent] at greeting
    exact greeting.elim
  case receivingAuth =>
    intro second
    rw [absent] at second
    contradiction
  case authenticated => exact fun authenticated => absurd authenticated unknown
  case boxed =>
    rintro (second | authenticated)
    · rw [absent] at second
      contradiction
    · exact absurd authenticated unknown
  case acquainted => exact fun authenticated => absurd authenticated unknown

theorem Sound.send (sound : before.Sound packages client ref) {request : ClientRequest}
    (reachable : (PacketServer.machine environment).Reachable before.server)
    (sent : before.send packages client ref request = some after) :
    after.Sound packages client ref := by
  unfold Conversation.send at sent
  split at sent
  · contradiction
  · next packet packed =>
    split at sent
    · next allowed =>
      cases sent
      obtain ⟨connected, allowed, small⟩ := allowed
      have early (handshaking : (before.handler ref).Greeting ∨
          before.handler ref = .receivingAuth) :
          (before.peer ref).state ≠ .authenticated := by
        simp [(restricted_of_handshake reachable handshaking).1]
      constructor
      case path => exact sound.path
      case permanentKey => exact sound.permanentKey
      case negotiated => exact sound.negotiated
      case boxed => exact sound.boxed
      case acquainted => exact sound.acquainted
      case absent => exact fun absent => absurd absent connected
      case hears =>
        intro listening
        obtain ⟨number, hears, numbered⟩ := sound.hears listening
        exact ⟨number, hears, numbered.append packed small⟩
      case greeting =>
        intro greeting
        have opening := sound.greeting greeting
        cases request with
        | clientHello =>
            obtain ⟨responds, silent, closed⟩ := allowed
            rw [opening.empty silent]
            exact ⟨responds, closed, .inl ⟨rfl, rfl⟩⟩
        | clientAuth => exact opening.authenticates packet allowed
        | dropResponder | relay => exact absurd allowed.1 (early (.inl greeting))
      case receivingAuth =>
        intro second
        obtain ⟨responds, waiting⟩ := sound.receivingAuth second
        refine ⟨responds, ?_⟩
        cases request with
        | clientHello =>
            simp [allowed.2.1] at waiting
        | clientAuth =>
            have due : before.progress = if client.isInitiator then .silent else .greeted := allowed
            simp only [responds, Bool.false_eq_true, if_false] at due
            simp only [due, true_and, reduceCtorEq, false_and, or_false] at waiting
            exact .inr ⟨rfl, by simp [waiting]⟩
        | dropResponder | relay => exact absurd allowed.1 (early (.inr second))
      case authenticated =>
        intro known
        obtain ⟨progress, sends⟩ := sound.authenticated known
        cases request with
        | clientHello =>
            simp [allowed.2.1] at progress
        | clientAuth =>
            have due : before.progress = if client.isInitiator then .silent else .greeted := allowed
            split at due <;> simp [due] at progress
        | dropResponder | relay =>
            refine ⟨progress, ?_⟩
            simp only [List.mem_append, List.mem_singleton]
            rintro entry (earlier | rfl)
            · exact sends entry earlier
            · exact allowed.2
    · contradiction

/-- The other steps leave the session of the client as it is. -/
theorem others_session {server : PacketServer} {action : PacketServer.Action}
    (others : Others client ref action)
    (stepped : PacketServer.step environment before.server action = some server) :
    (server.session ref = before.session ref ∧
        (∀ csn, before.server.serverAction environment action ≠ .connect ref csn) ∨
      ∃ drawn, server.session ref = Session.new drawn before.server.initiatorKey ∧
        client.cookie ≠ drawn.cookieOut ∧
        selectSubprotocol environment client.subprotocols environment.subprotocols =
          some SubProtocol.saltyrtcV1.value ∧
        before.handler ref = .absent ∧ server.server.handler ref = .created) ∧
      ∀ input, before.server.serverAction environment action ≠ .receive ref input := by
  cases action with
  | other action =>
      simp only [PacketServer.step] at stepped
      split at stepped
      · contradiction
      · next plain =>
        obtain ⟨_, _, rfl⟩ := Option.map_eq_some_iff.mp stepped
        refine ⟨.inl ⟨rfl, ?_⟩, ?_⟩ <;> intro _ same <;>
          rw [show before.server.serverAction environment (.other action) = action from rfl]
            at same <;>
          subst same <;> exact plain rfl
  | receive mover frame =>
      simp only [PacketServer.step, PacketServer.receive] at stepped
      obtain ⟨_, _, rfl⟩ := Option.map_eq_some_iff.mp stepped
      refine ⟨.inl ⟨Function.update_of_ne (Ne.symm others) .., by intro _ same; cases same⟩, ?_⟩
      intro input same
      injection same with same
      exact others same
  | connect mover drawn offered =>
      refine ⟨?_, by intro _ same; cases same⟩
      simp only [PacketServer.step, PacketServer.connect] at stepped
      split at stepped
      · next negotiated =>
        obtain ⟨server, connected, rfl⟩ := Option.map_eq_some_iff.mp stepped
        by_cases same : mover = ref
        · subst same
          obtain ⟨rfl, different⟩ := others rfl
          have created : server.handler mover = .created := Server.connect_handler connected
          have absent : before.server.server.handler mover = .absent := by
            simp only [Server.step, Server.connect] at connected
            split at connected
            · next free => exact free.1
            · contradiction
          exact .inr ⟨drawn, Function.update_self .., different, negotiated, absent, created⟩
        · refine .inl ⟨Function.update_of_ne (Ne.symm same) .., ?_⟩
          intro csn connects
          injection connects with mover
          exact same mover
      · contradiction

variable {server : PacketServer} {moved : PacketServer.Action}

/-- A client that is authenticated after a step that is not its own was so before. -/
theorem peer_kept (reachable : (PacketServer.machine environment).Reachable before.server)
    (stepped : PacketServer.step environment before.server moved = some server)
    (notReceive :
      before.server.serverAction environment moved ≠ .receive ref (.clientAuth (.ok ())))
    (known : (server.client ref).state = .authenticated) :
    server.client ref = before.peer ref := by
  have sound := PacketServer.sound_of_reachable reachable
  have steppedServer := PacketServer.step_server stepped
  have was : (before.peer ref).state = .authenticated := by
    by_contra unknown
    exact notReceive (sound.admitted steppedServer unknown known).1
  obtain ⟨id, type⟩ := sound.authenticated_kept steppedServer was known
  exact PathClient.eq_of_fields (known.trans was.symm) id type

theorem Sound.others (sound : before.Sound packages client ref)
    (reachable : (PacketServer.machine environment).Reachable before.server)
    (others : Others client ref moved)
    (stepped : PacketServer.step environment before.server moved = some server) :
    Sound packages client ref { before with server := server } := by
  have serverSound := PacketServer.sound_of_reachable reachable
  have steppedServer := PacketServer.step_server stepped
  have reached : (PacketServer.machine environment).Reachable server :=
    .next _ reachable trivial stepped
  have key : server.initiatorKey = before.server.initiatorKey :=
    Server.initiatorKey_eq serverSound steppedServer
  obtain ⟨connection, notReceive⟩ := others_session others stepped
  have kept (known : (server.client ref).state = .authenticated) :
      server.client ref = before.peer ref :=
    peer_kept reachable stepped (notReceive _) known
  obtain ⟨session, notConnect⟩ | ⟨drawn, session, different, negotiated, absent, created⟩ :=
    connection
  · have greeting (greeting : (server.server.handler ref).Greeting) :
        (before.handler ref).Greeting := by
      cases serverSound.handlerStep steppedServer ref with
      | kept same _ => rwa [handler, ← same]
      | connected csn connects => exact absurd connects (notConnect csn)
      | greeted earlier => exact earlier
      | hello receives => exact absurd receives (notReceive _)
      | past past => exact absurd greeting past.not_greeting
    have second (second : server.server.handler ref = .receivingAuth) :
        before.handler ref = .receivingAuth := by
      cases serverSound.handlerStep steppedServer ref with
      | kept same _ => rwa [handler, ← same]
      | connected csn connects => exact absurd connects (notConnect csn)
      | greeted _ later => simp [second, Handler.Greeting] at later
      | hello receives => exact absurd receives (notReceive _)
      | past past => simp [second, Handler.Past] at past
    have present : server.server.handler ref = .absent ↔ before.handler ref = .absent := by
      cases (serverSound.clientStep steppedServer ref).handlerMove with
      | kept same => rw [same]; rfl
      | connected connects => exact absurd connects (notConnect _)
      | moved was _ now => exact iff_of_false now was
      | finished was _ now =>
          refine iff_of_false (by simp [now]) fun absent => ?_
          rw [show before.server.server.handler ref = _ from absent] at was
          contradiction
    constructor
    case path => exact fun role => key.trans (sound.path role)
    case permanentKey => exact sound.permanentKey
    case absent => exact fun absent => sound.absent (present.mp absent)
    case negotiated => exact fun connected => sound.negotiated (mt present.mpr connected)
    case hears =>
      intro listening
      have unassigned (late : (server.server.handler ref).Greeting ∨
          server.server.handler ref = .receivingAuth) :
          (server.client ref).id = (before.peer ref).id := by
        have restricted : (peer ref { before with server := server }).state = .restricted ∧ _ :=
          restricted_of_handshake reached late
        exact restricted.2.trans
          (restricted_of_handshake reachable (late.imp greeting second)).2.symm
      have earlier : before.Listening ref ∧ (server.client ref).id = (before.peer ref).id := by
        obtain late | late | known := listening
        · exact ⟨.inl (greeting late), unassigned (.inl late)⟩
        · exact ⟨.inr (.inl (second late)), unassigned (.inr late)⟩
        · have same := kept known
          exact ⟨.inr (.inr (by rw [← same]; exact known)), by rw [same]⟩
      obtain ⟨number, hears, numbered⟩ := sound.hears earlier.1
      refine ⟨number, ?_, ?_⟩
      · change (server.session ref).Hears client number
        rwa [session]
      · change Numbered packages client (server.session ref).drawn (server.client ref).id _ _ _
        rwa [session, earlier.2]
    case greeting =>
      intro late
      change Opening _ _ (server.session ref).drawn server.initiatorKey _ _
      rw [session, key]
      exact sound.greeting (greeting late)
    case receivingAuth => exact fun late => sound.receivingAuth (second late)
    case authenticated =>
      intro known
      have same := kept known
      change _ ∧ ∀ entry ∈ before.inFlight, (server.client ref).Sends entry.1
      rw [same]
      exact sound.authenticated (by rw [← same]; exact known)
    case boxed =>
      intro either
      change (server.session ref).Boxed packages client
      rw [session]
      refine sound.boxed (either.imp second fun known => ?_)
      rw [← kept known]
      exact known
    case acquainted =>
      intro known
      change (server.session ref).Acquainted packages client
      rw [session]
      exact sound.acquainted (by rw [← kept known]; exact known)
  · have greeting : (server.server.handler ref).Greeting := by
      rw [created]
      trivial
    have unknown : (server.client ref).state ≠ .authenticated := by
      have restricted : (peer ref { before with server := server }).state = .restricted ∧ _ :=
        restricted_of_handshake reached (.inl greeting)
      simp [show (server.client ref).state = .restricted from restricted.1]
    obtain ⟨silent, empty, first⟩ := sound.absent absent
    constructor
    case path => exact fun role => key.trans (sound.path role)
    case permanentKey => exact sound.permanentKey
    case absent => exact fun _ => ⟨silent, empty, first⟩
    case negotiated => exact fun _ => negotiated
    case hears =>
      intro _
      refine ⟨client.firstNumber, ?_, ?_⟩
      · change (server.session ref).Hears client client.firstNumber
        rw [session]
        exact Session.hears_new _ different
      · change Numbered _ _ _ _ _ before.inFlight before.number
        rw [empty, first]
        rfl
    case greeting =>
      intro _
      change Opening _ _ _ _ before.progress before.inFlight
      rw [empty, silent]
      rfl
    case receivingAuth =>
      intro second
      rw [show server.server.handler ref = _ from second] at created
      contradiction
    case authenticated => exact fun known => absurd known unknown
    case boxed =>
      rintro (second | known)
      · rw [show server.server.handler ref = _ from second] at created
        contradiction
      · exact absurd known unknown
    case acquainted => exact fun known => absurd known unknown

/-- Where a handler is when it has received a message. -/
theorem handler_received {input : Received} {first second : Server} (sound : first.Sound)
    (stepped : first.step (.receive ref input) = some second) :
    first.handler ref = .receivingFirst ∧ input = .clientHello (.ok ()) ∧
        second.handler ref = .receivingAuth ∨
      ¬ (second.handler ref).Greeting ∧ second.handler ref ≠ .receivingAuth := by
  cases sound.handlerStep stepped ref with
  | kept same receives =>
      right
      rw [same, receives input rfl]
      simp [Handler.Greeting]
  | connected csn connects => contradiction
  | greeted _ _ notReceive => exact absurd rfl (notReceive input)
  | hello receives was now =>
      injection receives with _ hello
      exact .inl ⟨was, hello, now⟩
  | past past =>
      refine .inr ⟨past.not_greeting, fun receiving => ?_⟩
      rw [receiving] at past
      exact past.elim

/-- No messages of the handshake are left when the client is authenticated. -/
theorem Sound.admitted (sound : before.Sound packages client ref) {packet : List UInt8}
    {rest : List (ClientRequest × List UInt8)}
    (next : before.inFlight = (.clientAuth, packet) :: rest)
    (expecting : before.handler ref = .receivingFirst ∨ before.handler ref = .receivingAuth) :
    before.progress = .authenticating ∧ rest = [] := by
  obtain first | second := expecting
  · have opening := sound.greeting (greeting_of_receivingFirst first)
    rw [next] at opening
    exact opening.2
  · obtain ⟨_, ⟨_, empty⟩ | ⟨progress, waiting⟩⟩ := sound.receivingAuth second
    · rw [empty] at next
      contradiction
    · rw [next, List.map_cons, List.cons.injEq, List.map_eq_nil_iff] at waiting
      exact ⟨progress, waiting.2⟩

theorem Sound.deliver (sound : before.Sound packages client ref)
    (reachable : (PacketServer.machine environment).Reachable before.server)
    {request : ClientRequest} {packet : List UInt8} {rest : List (ClientRequest × List UInt8)}
    (next : before.inFlight = (request, packet) :: rest)
    (stepped : PacketServer.step environment before.server (.receive ref (.binary packet)) =
      some server) :
    Sound packages client ref { before with server := server, inFlight := rest } := by
  have serverSound := PacketServer.sound_of_reachable reachable
  have steppedServer := PacketServer.step_server stepped
  have reached : (PacketServer.machine environment).Reachable server :=
    .next (.receive ref (.binary packet)) reachable trivial stepped
  have key : server.initiatorKey = before.server.initiatorKey :=
    Server.initiatorKey_eq serverSound steppedServer
  have connected : before.handler ref ≠ .absent := by
    intro absent
    rw [(sound.absent absent).2.1] at next
    contradiction
  have present : server.server.handler ref ≠ .absent := by
    cases (serverSound.clientStep steppedServer ref).handlerMove with
    | kept same => rwa [same]
    | connected connects => contradiction
    | moved _ _ now => exact now
    | finished _ _ now => simp [now]
  have later := handler_received serverSound steppedServer
  by_cases receiving : before.Receiving ref
  · obtain ⟨after, number, accepted, interpreted, hears, drawn, boxed, acquainted, numbered⟩ :=
      sound.interpreted reachable receiving next
    have session : server.session ref = after := by
      simp only [PacketServer.step, PacketServer.receive, interpreted] at stepped
      obtain ⟨_, _, rfl⟩ := Option.map_eq_some_iff.mp stepped
      exact Function.update_self ..
    have input : (before.server.interpret environment ref (.binary packet)).2.1 =
        meaning packet request := by rw [interpreted]
    rw [input] at later
    -- Either the client was authenticated before, or the message has authenticated it.
    have known (known : (server.client ref).state = .authenticated) :
        before.progress = .authenticating ∧ (server.client ref = before.peer ref ∧
          (before.peer ref).state = .authenticated ∨ request = .clientAuth ∧ rest = []) := by
      by_cases was : (before.peer ref).state = .authenticated
      · obtain ⟨id, type⟩ := serverSound.authenticated_kept steppedServer was known
        exact ⟨(sound.authenticated was).1,
          .inl ⟨PathClient.eq_of_fields (known.trans was.symm) id type, was⟩⟩
      · obtain ⟨receives, role⟩ := serverSound.admitted steppedServer was known
        have isAuth : request = .clientAuth := by
          injection receives with _ auth
          rw [input] at auth
          cases request <;> simp [meaning] at auth ⊢
        subst isAuth
        obtain ⟨progress, empty⟩ := sound.admitted next (role.imp And.left And.left)
        exact ⟨progress, .inr ⟨rfl, empty⟩⟩
    constructor
    case path => exact fun role => key.trans (sound.path role)
    case permanentKey => exact sound.permanentKey
    case absent => exact fun absent => absurd absent present
    case negotiated => exact fun _ => sound.negotiated connected
    case hears =>
      intro listening
      refine ⟨numberAfter number request, by rwa [Conversation.session, session], ?_⟩
      change Numbered packages client (server.session ref).drawn (server.client ref).id _ rest _
      rw [session, drawn]
      obtain greeting | second | authenticated := listening
      · obtain ⟨_, _, now⟩ | ⟨notGreeting, _⟩ := later
        · simp [handler, now, Handler.Greeting] at greeting
        · exact absurd greeting notGreeting
      · obtain ⟨first, _, _⟩ | ⟨_, notSecond⟩ := later
        · have after : (peer ref { before with server := server, inFlight := rest }).state =
              .restricted ∧ _ := restricted_of_handshake reached (.inr second)
          have earlier := restricted_of_handshake reachable
            (.inl (greeting_of_receivingFirst first))
          rwa [show (server.client ref).id = _ from after.2, ← earlier.2]
        · exact absurd second notSecond
      · obtain ⟨_, ⟨same, _⟩ | ⟨_, empty⟩⟩ := known authenticated
        · rwa [same]
        · subst empty
          exact numbered
    case greeting =>
      intro greeting
      obtain ⟨_, _, now⟩ | ⟨notGreeting, _⟩ := later
      · simp [handler, now, Handler.Greeting] at greeting
      · exact absurd greeting notGreeting
    case receivingAuth =>
      intro second
      obtain ⟨first, isHello, _⟩ | ⟨_, notSecond⟩ := later
      · have opening := sound.greeting (greeting_of_receivingFirst first)
        rw [next] at opening
        cases request with
        | clientHello =>
            obtain ⟨responds, _, waiting⟩ := opening
            exact ⟨responds, waiting⟩
        | clientAuth => simp [meaning] at isHello
        | dropResponder | relay => exact opening.elim
      · exact absurd second notSecond
    case authenticated =>
      intro authenticated
      obtain ⟨progress, ⟨same, was⟩ | ⟨_, empty⟩⟩ := known authenticated
      · refine ⟨progress, fun entry mem => ?_⟩
        change (server.client ref).Sends entry.1
        rw [same]
        exact (sound.authenticated was).2 entry (by simp [next, show entry ∈ rest from mem])
      · exact ⟨progress, by simp [empty]⟩
    case boxed =>
      intro _
      change (server.session ref).Boxed packages client
      rwa [session]
    case acquainted =>
      intro authenticated
      change (server.session ref).Acquainted packages client
      rw [session]
      obtain ⟨_, ⟨_, was⟩ | ⟨isAuth, _⟩⟩ := known authenticated
      · exact acquainted (.inr (sound.acquainted was))
      · exact acquainted (.inl isAuth)
  · have unknown : (server.client ref).state ≠ .authenticated := by
      intro known
      have was : (before.peer ref).state ≠ .authenticated := fun was =>
        receiving (.inr (.inr was))
      obtain ⟨_, ⟨first, _⟩ | ⟨second, _⟩⟩ := serverSound.admitted steppedServer was known
      · exact receiving (.inl first)
      · exact receiving (.inr (.inl second))
    have late : ¬ (server.server.handler ref).Greeting ∧
        server.server.handler ref ≠ .receivingAuth :=
      later.resolve_left fun first => receiving (.inl first.1)
    constructor
    case path => exact fun role => key.trans (sound.path role)
    case permanentKey => exact sound.permanentKey
    case absent => exact fun absent => absurd absent present
    case negotiated => exact fun _ => sound.negotiated connected
    case hears =>
      rintro (greeting | second | known)
      · exact absurd greeting late.1
      · exact absurd second late.2
      · exact absurd known unknown
    case greeting => exact fun greeting => absurd greeting late.1
    case receivingAuth => exact fun second => absurd second late.2
    case authenticated => exact fun known => absurd known unknown
    case boxed =>
      rintro (second | known)
      · exact absurd second late.2
      · exact absurd known unknown
    case acquainted => exact fun known => absurd known unknown

theorem sound_of_reachable (reachable : (machine packages client ref).Reachable state) :
    state.Sound packages client ref := by
  refine reachable.invariant _ (fun state initial => sound_initial initial) ?_
  intro before after action reached _ sound stepped
  have reachable := server_reachable reached
  change step packages client ref before action = some after at stepped
  cases action with
  | others moved =>
      simp only [step] at stepped
      split at stepped
      · next others =>
        obtain ⟨server, moves, rfl⟩ := Option.map_eq_some_iff.mp stepped
        exact sound.others reachable others moves
      · contradiction
  | send request => exact sound.send reachable stepped
  | deliver =>
      simp only [step] at stepped
      split at stepped
      · contradiction
      · next next =>
        obtain ⟨server, received, rfl⟩ := Option.map_eq_some_iff.mp stepped
        exact sound.deliver reachable next received

/-- Whatever the others do, the server takes a packet of the client for what it was
sent as, and no packet of it is refused. -/
theorem understood (client : ProtocolClient) (ref : ClientRef) {packet : List UInt8}
    {request : ClientRequest} {rest : List (ClientRequest × List UInt8)}
    (reachable : (machine packages client ref).Reachable state) (receiving : state.Receiving ref)
    (next : state.inFlight = (request, packet) :: rest) :
    (state.server.interpret environment ref (.binary packet)).2.1 = meaning packet request := by
  obtain ⟨_, _, _, interpreted, _⟩ :=
    (sound_of_reachable reachable).interpreted (server_reachable reachable) receiving next
  rw [interpreted]

end Steps

/-- The bytes of an ASCII text. -/
def asciiBytes (text : String) : List UInt8 :=
  text.toList.map fun character => UInt8.ofNat character.toNat

/-- What the payloads of an example hold; `texts` is a list of one text. -/
inductive ExampleValue
  | text (value : String)
  | texts (value : String)
  | bytes (value : List UInt8)
  | bool (value : Bool)
  deriving DecidableEq

namespace ExampleValue

def value : ExampleValue → Value
  | .text value => .str value
  | .texts value => .list [.str value]
  | .bytes value => .bytes value
  | .bool value => .bool value

/-- Short values in the format of msgpack. -/
def packed : ExampleValue → List UInt8
  | .text value => UInt8.ofNat (0xa0 + value.length) :: asciiBytes value
  | .texts value => 0x91 :: UInt8.ofNat (0xa0 + value.length) :: asciiBytes value
  | .bytes value => 0xc4 :: UInt8.ofNat value.length :: value
  | .bool value => [if value then 0xc3 else 0xc2]

def ofValue? : Value → Option ExampleValue
  | .str value => some (.text value)
  | .list [.str value] => some (.texts value)
  | .bytes value => some (.bytes value)
  | .bool value => some (.bool value)
  | _ => none

theorem value_of_ofValue? {value : Value} {found : ExampleValue}
    (isFound : ofValue? value = some found) : found.value = value := by
  unfold ofValue? at isFound
  split at isFound <;> cases isFound <;> rfl

end ExampleValue

abbrev ExamplePayload := List (String × ExampleValue)

namespace ExamplePayload

def entries (payload : ExamplePayload) : List (Value × Value) :=
  payload.map fun field => (.str field.1, field.2.value)

/-- A payload with few entries in the format of msgpack. -/
def packed (payload : ExamplePayload) : List UInt8 :=
  UInt8.ofNat (0x80 + payload.length) ::
    payload.flatMap fun field => (ExampleValue.text field.1).packed ++ field.2.packed

def ofEntries? : List (Value × Value) → Option ExamplePayload
  | [] => some []
  | (.str name, value) :: rest =>
      match ExampleValue.ofValue? value, ofEntries? rest with
      | some value, some payload => some ((name, value) :: payload)
      | _, _ => none
  | _ => none

theorem entries_of_ofEntries? {found : List (Value × Value)} {payload : ExamplePayload}
    (isFound : ofEntries? found = some payload) : payload.entries = found := by
  induction found generalizing payload with
  | nil =>
      cases isFound
      rfl
  | cons first rest ih =>
      unfold ofEntries? at isFound
      split at isFound
      · contradiction
      · next is =>
        cases is
        split at isFound
        · next isValue isRest =>
          cases isFound
          change (_, _) :: entries _ = _
          rw [ih isRest, ExampleValue.value_of_ofValue? isValue]
        · contradiction
      · contradiction

end ExamplePayload

/-- The permanent key of the server, and the nonce of its second message. -/
def examplePermanentKey : SecretKey := [0x05]

def authNonce : List UInt8 := Nonce.pack zeroDrawn.cookieOut serverAddress ⟨0x02, by decide⟩ 1

/-- The payloads of the handshake of a responder with the secret key `0x03`. -/
def authPayloads : List ExamplePayload :=
  [[("type", .text "server-hello"), ("key", .bytes (examplePublicKey []))],
    [("type", .text "client-hello"), ("key", .bytes (examplePublicKey [0x03]))],
    [("type", .text "client-auth"), ("your_cookie", .bytes zeroDrawn.cookieOut.1),
      ("subprotocols", .texts "v1.saltyrtc.org")],
    [("type", .text "server-auth"), ("your_cookie", .bytes onesCookie.1),
      ("initiator_connected", .bool false),
      ("signed_keys", .bytes (sealPayload (examplePermanentKey, examplePublicKey [0x03]) authNonce
        (examplePublicKey [] ++ examplePublicKey [0x03])))]]

def unpackAuth (data : List UInt8) : Option Value :=
  (authPayloads.find? fun payload => payload.packed = data).map fun payload =>
    .dict payload.entries

def packAuth : Value → Option (List UInt8)
  | .dict entries => (ExamplePayload.ofEntries? entries).bind fun payload =>
      if payload ∈ authPayloads then some payload.packed else none
  | _ => none

theorem find_authPayloads : ∀ payload ∈ authPayloads,
    (authPayloads.find? fun other => other.packed = payload.packed) = some payload := by
  decide +kernel

/-- A server with a permanent key, which packs and unpacks these payloads. -/
def authEnvironment : Environment :=
  { Environment.keyless unpackAuth openPayload ["v1.saltyrtc.org"] with
    keys := [(examplePublicKey examplePermanentKey, examplePermanentKey)] }

theorem unpackAuth_packAuth (value : Value) (data : List UInt8)
    (packed : packAuth value = some data) : unpackAuth data = some value := by
  unfold packAuth at packed
  split at packed
  · next entries =>
    obtain ⟨payload, isPayload, packs⟩ := Option.bind_eq_some_iff.mp packed
    split at packs
    · next listed =>
      cases packs
      rw [unpackAuth, find_authPayloads payload listed, Option.map_some,
        ExamplePayload.entries_of_ofEntries? isPayload]
    · contradiction
  · contradiction

theorem packAuth_ne_nil (value : Value) : packAuth value ≠ some [] := by
  intro packed
  unfold packAuth at packed
  split at packed
  · obtain ⟨payload, _, packs⟩ := Option.bind_eq_some_iff.mp packed
    split at packs
    · simp [ExamplePayload.packed] at packs
    · contradiction
  · contradiction

def authPackages : authEnvironment.ClientPackages where
  packb := packAuth
  publicKey := examplePublicKey
  encrypt := sealPayload
  unpackb_packb := unpackAuth_packAuth
  packb_ne_nil := packAuth_ne_nil
  decrypt_encrypt := openPayload_sealPayload
  encrypt_ne_nil box nonce data := by simp [sealPayload]
  length_publicKey key := by simp [examplePublicKey, keyLength]
  accepts_publicKey key := by simp [authEnvironment, Environment.keyless, examplePublicKey]
  publicKey_keys pair mem := by rw [List.mem_singleton.mp mem]

def authClient : ProtocolClient where
  isInitiator := false
  key := [0x03]
  cookie := onesCookie
  firstNumber := ⟨0, by decide⟩
  subprotocols := ["v1.saltyrtc.org"]
  pingInterval := none
  permanentKey := none

def authStart : Conversation where
  server :=
    ⟨Server.created (examplePublicKey [0x02]) 1, fun _ => Session.new zeroDrawn [],
      fun _ => .saltyrtcV1, []⟩
  progress := .silent
  number := 0
  inFlight := []

theorem authStart_initial : (machine authPackages authClient 0).initial authStart :=
  ⟨⟨Server.initial_created _ 1, rfl⟩, rfl, rfl, rfl, by simp [authClient], by simp [authClient]⟩

/-- A responder connects, and sends its client-hello and its client-auth message. -/
def authSchedule : List Action :=
  [.others (.connect 0 zeroDrawn ["v1.saltyrtc.org"]), .others (.other (.begin 0)),
    .others (.other (.sent 0)), .send .clientHello, .deliver, .send .clientAuth]

set_option maxRecDepth 10000 in
theorem authSchedule_reaches : ∃ state packet,
    (machine authPackages authClient 0).run authStart authSchedule = some state ∧
      state.inFlight = [(.clientAuth, packet)] ∧ state.handler 0 = .receivingAuth ∧
      state.server.server.system.path.attached = true ∧
      0 ∈ state.server.server.system.path.pending ∧
      state.server.server.system.path.responders.length < 254 ∧
      ∃ after, step authPackages authClient 0 state .deliver = some after :=
  ⟨_, _, rfl, rfl, rfl, by decide +kernel, by decide +kernel, by decide +kernel, _, rfl⟩

theorem understood_clientAuth : ∃ (state : Conversation) (packet : List UInt8),
    state.inFlight = [(.clientAuth, packet)] ∧
      (state.server.interpret authEnvironment 0 (.binary packet)).2.1 =
        meaning packet .clientAuth := by
  obtain ⟨state, packet, runs, next, second, _⟩ := authSchedule_reaches
  exact ⟨state, packet, next, understood authClient 0
    (Machine.reachable_of_run authStart_initial authSchedule runs) (.inr (.inl second)) next⟩

end Conversation

end SaltyRtcServer
