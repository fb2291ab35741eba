import SaltyRtcServer.ClientMessages

/-!
# A client of the protocol

The client of the tests: it packs nonces and messages with `pack_nonce` and
`pack_message`, and its handshake is that of `_client_factory`.  What the
server has told it is taken from the session of the server; that it reads this
in the server-hello message is another matter.

Each of its packets is unpacked by the server to the message that was packed, if
the session expects the number and the cookie of the client.
-/

namespace SaltyRtcServer

/-- `umsgpack.packb`, which raises for some values, the public key of a secret key, and
`libnacl.public.Box.encrypt`. -/
structure Environment.ClientPackages (environment : Environment) where
  packb : Value → Option (List UInt8)
  publicKey : SecretKey → PublicKey
  encrypt : SecretKey × PublicKey → List UInt8 → List UInt8 → List UInt8
  unpackb_packb : ∀ value data, packb value = some data → environment.unpackb data = some value
  packb_ne_nil : ∀ value, packb value ≠ some []
  decrypt_encrypt : ∀ own other nonce data,
    environment.decrypt (own, publicKey other) nonce
      (encrypt (other, publicKey own) nonce data) = some data
  encrypt_ne_nil : ∀ box nonce data, encrypt box nonce data ≠ []
  length_publicKey : ∀ key, (publicKey key).length = keyLength
  accepts_publicKey : ∀ key, environment.accepts (publicKey key) = true
  publicKey_keys : ∀ pair ∈ environment.keys, publicKey pair.2 = pair.1

/-- What the handshake of `_client_factory` is called with: the role, and its key,
cookie, first number and options. -/
structure ProtocolClient where
  isInitiator : Bool
  key : SecretKey
  cookie : Cookie
  firstNumber : { number : Nat // number < 2 ^ 32 }
  subprotocols : List String
  pingInterval : Option Nat
  permanentKey : Option { key : PublicKey // key.length = keyLength }

/-- What the client sends.  A relayed message has a cookie and a number of its own. -/
inductive ClientRequest
  | clientHello
  | clientAuth
  | dropResponder (id : ResponderAddress) (reason : Option DropReason)
  | relay (destination : Address) (cookie : Cookie) (number : Nat) (data : List UInt8)

/-- The number that `validate_drop_reason` expects. -/
def DropReason.toInt (reason : DropReason) : Int := reason.closeCode.value

theorem DropReason.ofInt?_toInt (reason : DropReason) :
    DropReason.ofInt? reason.toInt = some reason := by
  cases reason <;> rfl

namespace ClientRequest

/-- The request belongs to the handshake. -/
def isHandshake : ClientRequest → Bool
  | .clientHello | .clientAuth => true
  | _ => false

/-- The request is a message to the server, which takes a number. -/
def isToServer : ClientRequest → Bool
  | .relay _ _ _ _ => false
  | _ => true

end ClientRequest

namespace ProtocolClient

variable {environment : Environment} (packages : environment.ClientPackages)
  (client : ProtocolClient)

/-- An entry of a payload that may be missing. -/
def optional (name : String) : Option Value → List (Value × Value)
  | none => []
  | some value => [(.str name, value)]

/-- The payload of a request, with the cookie that the server has sent. -/
def payload (serverCookie : Cookie) : ClientRequest → List (Value × Value)
  | .clientHello =>
      [(.str "type", .str "client-hello"), (.str "key", .bytes (packages.publicKey client.key))]
  | .clientAuth =>
      [(.str "type", .str "client-auth"), (.str "your_cookie", .bytes serverCookie.1),
        (.str "subprotocols", .list (client.subprotocols.map .str))] ++
      optional "ping_interval" (client.pingInterval.map fun interval => .int interval) ++
      optional "your_key" (client.permanentKey.map fun key => .bytes key.1)
  | .dropResponder id reason =>
      [(.str "type", .str "drop-responder"), (.str "id", .int id.1)] ++
      optional "reason" (reason.map fun reason => .int reason.toInt)
  | .relay _ _ _ _ => []

/-- The permanent key of the server with which the client checks signed keys: the one that it
asks for, or the first one. -/
def signingKey (environment : Environment) (client : ProtocolClient) : Option PublicKey :=
  match client.permanentKey with
  | some key => some key.1
  | none => environment.keys.head?.map Prod.fst

/-- `pack_message`, for a payload that `packb` packs. -/
def packMessage (nonce : List UInt8) (box : Option (SecretKey × PublicKey)) (payload : Value) :
    Option (List UInt8) :=
  (packages.packb payload).map fun data =>
    match box with
    | none => nonce ++ data
    | some box => nonce ++ packages.encrypt box nonce data

/-- The packet of a request, for a client with the id and the number. -/
def packet (drawn : Drawn) (id : Address) (number : Nat) : ClientRequest → Option (List UInt8)
  | .clientHello =>
      packMessage packages (Nonce.pack client.cookie id serverAddress number) none
        (.dict (client.payload packages drawn.cookieOut .clientHello))
  | .relay destination cookie number data =>
      some (Nonce.pack cookie id destination number ++ data)
  | request =>
      packMessage packages (Nonce.pack client.cookie id serverAddress number)
        (some (client.key, packages.publicKey drawn.serverKey))
        (.dict (client.payload packages drawn.cookieOut request))

/-- The nonce of a message to the server. -/
def nonce (id : Address) {number : Nat} (small : number < 2 ^ 48) : Nonce :=
  ⟨client.cookie, id, serverAddress, number, small⟩

/-- The message that the client means. -/
def message (drawn : Drawn) (id : Address) (packet : List UInt8) : ClientRequest → IncomingMessage
  | .clientHello => .clientHello (packages.publicKey client.key)
  | .clientAuth =>
      .clientAuth ⟨drawn.cookieOut, client.subprotocols, client.pingInterval,
        client.permanentKey.map Subtype.val⟩
  | .dropResponder responder reason =>
      .dropResponder responder (reason.getD .dropByInitiator)
  | .relay destination _ _ _ => .relay id destination packet

section Payloads

theorem clientHelloFromPayload_payload (serverCookie : Cookie) :
    clientHelloFromPayload (client.payload packages serverCookie .clientHello) =
      .ok (packages.publicKey client.key) := by
  simp [clientHelloFromPayload, payload, Value.get, Value.isStr, validatePublicKey,
    packages.length_publicKey]

theorem validateSubprotocols_list (subprotocols : List String) :
    validateSubprotocols (.list (subprotocols.map .str)) = .ok subprotocols := by
  rw [validateSubprotocols]
  induction subprotocols with
  | nil => rfl
  | cons first rest ih =>
      rw [List.map_cons, List.mapM_cons, ih]
      rfl

theorem clientAuthFromPayload_payload (serverCookie : Cookie) :
    ClientAuth.fromPayload (client.payload packages serverCookie .clientAuth) =
      .ok ⟨serverCookie, client.subprotocols, client.pingInterval,
        client.permanentKey.map Subtype.val⟩ := by
  have cookie : validateCookie (.bytes serverCookie.1) = .ok serverCookie := by
    rw [validateCookie, dif_pos serverCookie.2]
  have interval (interval : Nat) : validateOptional validatePingInterval (.int interval) =
      .ok (some interval) := by
    have natural : ¬ (interval : Int) < 0 := by omega
    simp [validateOptional, validatePingInterval, Value.toInt?, Except.map, natural]
  have key (key : { key : PublicKey // key.length = keyLength }) :
      validateOptional validatePublicKey (.bytes key.1) = .ok (some key.1) := by
    simp [validateOptional, validatePublicKey, key.2, Except.map]
  have none {Checked : Type} (validate : Value → Except PyException Checked) :
      validateOptional validate .none = .ok none := rfl
  cases pingInterval : client.pingInterval <;> cases permanentKey : client.permanentKey <;>
    simp [ClientAuth.fromPayload, payload, optional, pingInterval, permanentKey, Value.get,
      Value.isStr, cookie, validateSubprotocols_list, interval, key, none, bind, Except.bind,
      pure, Except.pure]

theorem dropResponderFromPayload_payload (serverCookie : Cookie) (id : ResponderAddress)
    (reason : Option DropReason) :
    dropResponderFromPayload (client.payload packages serverCookie (.dropResponder id reason)) =
      .ok (id, reason.getD .dropByInitiator) := by
  have validId : validateResponderId (.int id.1) = .ok id := by
    simp [validateResponderId, Value.toInt?, id.2]
  have validReason (reason : DropReason) : validateDropReason (.int reason.toInt) = .ok reason := by
    simp [validateDropReason, Value.toInt?, DropReason.ofInt?_toInt]
  cases reason with
  | none =>
      simp [dropResponderFromPayload, payload, optional, Value.get, Value.isStr, validId,
        validateDropReason, bind, Except.bind, pure, Except.pure]
  | some reason =>
      simp [dropResponderFromPayload, payload, optional, Value.get, Value.isStr, validId,
        validReason, bind, Except.bind, pure, Except.pure]

theorem payloadType_payload (serverCookie : Cookie) {request : ClientRequest}
    {type : MessageType} (named : (client.payload packages serverCookie request).head? =
      some (.str "type", .str type.value)) :
    IncomingMessage.payloadType (.dict (client.payload packages serverCookie request)) =
      .ok (client.payload packages serverCookie request, type) := by
  obtain ⟨rest, split⟩ := List.head?_eq_some_iff.mp named
  have known : MessageType.ofValue (.str type.value) = .ok type := by
    cases type <;> rfl
  rw [split, IncomingMessage.payloadType]
  simp [Value.get, Value.isStr, known, Except.map]

end Payloads

end ProtocolClient

namespace Session

/-- The two sessions encrypt and decrypt with the same keys. -/
structure SameKeys (before after : Session) : Prop where
  drawn : after.drawn = before.drawn
  clientKey : after.clientKey = before.clientKey
  box : after.readBox.2 = before.readBox.2

/-- The two sessions differ in nothing that decides how packets are read. -/
structure Alike (before after : Session) : Prop extends SameKeys before after where
  cookieIn : after.cookieIn = before.cookieIn
  csnIn : after.csnIn = before.csnIn

theorem SameKeys.refl (session : Session) : session.SameKeys session := ⟨rfl, rfl, rfl⟩

theorem SameKeys.trans {first second third : Session} (one : first.SameKeys second)
    (two : second.SameKeys third) : first.SameKeys third :=
  ⟨two.drawn.trans one.drawn, two.clientKey.trans one.clientKey, two.box.trans one.box⟩

theorem SameKeys.of_same {before after : Session} (drawn : after.drawn = before.drawn)
    (clientKey : after.clientKey = before.clientKey) (box : after.box = before.box) :
    before.SameKeys after := by
  refine ⟨drawn, clientKey, ?_⟩
  simp only [readBox, box, drawn, clientKey]
  cases before.box <;> rfl

theorem Alike.refl (session : Session) : session.Alike session := ⟨.refl session, rfl, rfl⟩

theorem Alike.trans {first second third : Session} (one : first.Alike second)
    (two : second.Alike third) : first.Alike third :=
  ⟨one.toSameKeys.trans two.toSameKeys, two.cookieIn.trans one.cookieIn,
    two.csnIn.trans one.csnIn⟩

theorem alike_readBox (session : Session) : session.Alike session.readBox.1 := by
  cases box : session.box <;> refine ⟨⟨?_, ?_, ?_⟩, ?_, ?_⟩ <;> simp [readBox, box]

theorem sameKeys_learn (session : Session) (nonce : Nonce) :
    session.SameKeys (session.learn nonce) := .of_same rfl rfl rfl

variable {environment : Environment} {packages : environment.ClientPackages} {session : Session}
  {client : ProtocolClient} {peer : PathClient} {number : Nat} {data : List UInt8}

/-- The session has the key of the client, and a box for it. -/
structure Boxed (packages : environment.ClientPackages) (session : Session)
    (client : ProtocolClient) : Prop where
  clientKey : session.clientKey = packages.publicKey client.key
  box : session.readBox.2 = (session.drawn.serverKey, packages.publicKey client.key)

theorem Boxed.same {after : Session} (boxed : session.Boxed packages client)
    (same : session.SameKeys after) : after.Boxed packages client := by
  refine ⟨same.clientKey.trans boxed.clientKey, ?_⟩
  rw [same.box, same.drawn]
  exact boxed.box

/-- What the session of an authenticated client holds: its cookie, and the secret key for which
it has asked. -/
structure Acquainted (packages : environment.ClientPackages) (session : Session)
    (client : ProtocolClient) : Prop where
  cookieIn : session.cookieIn = some client.cookie
  permanentKey : environment.keys ≠ [] → ∃ secretKey,
    session.serverPermanentKey = some secretKey ∧
      client.signingKey environment = some (packages.publicKey secretKey)

theorem Acquainted.of_same {after : Session} (acquainted : session.Acquainted packages client)
    (cookieIn : after.cookieIn = session.cookieIn)
    (key : after.serverPermanentKey = session.serverPermanentKey) :
    after.Acquainted packages client :=
  ⟨cookieIn.trans acquainted.cookieIn, by rw [key]; exact acquainted.permanentKey⟩

/-- The session expects the cookie of the client and the number, or has not been sent
any yet. -/
structure Hears (session : Session) (client : ProtocolClient) (number : Nat) : Prop where
  cookie : session.cookieIn = none ∧ client.cookie ≠ session.drawn.cookieOut ∨
    session.cookieIn = some client.cookie
  number : session.csnIn = none ∧ number < 2 ^ 32 ∨
    session.csnIn = some (if number < 2 ^ 48 then some number else none)

theorem hears_new {drawn : Drawn} (initiatorKey : PublicKey)
    (different : client.cookie ≠ drawn.cookieOut) :
    (Session.new drawn initiatorKey).Hears client client.firstNumber :=
  ⟨.inl ⟨rfl, different⟩, .inl ⟨rfl, client.firstNumber.2⟩⟩

theorem Hears.alike {after : Session} (hears : session.Hears client number)
    (alike : session.Alike after) : after.Hears client number := by
  constructor
  · rw [alike.cookieIn, alike.drawn]
    exact hears.cookie
  · rw [alike.csnIn]
    exact hears.number

theorem hears_learn (session : Session) (client : ProtocolClient) (id : Address)
    (small : number < 2 ^ 48) :
    (session.learn (client.nonce id small)).Hears client (number + 1) := by
  refine ⟨.inr rfl, .inr ?_⟩
  change some (SequenceNumber.increment (some number)) = _
  rw [SequenceNumber.increment_some small]
  by_cases last : number + 1 = 2 ^ 48
  · rw [if_pos last, if_neg (by omega)]
  · rw [if_neg last, if_pos (by omega)]

theorem Hears.expects (hears : session.Hears client number) (small : number < 2 ^ 48)
    (filled : data ≠ []) :
    session.Expects peer (Nonce.pack client.cookie peer.id serverAddress number ++ data)
      (client.nonce peer.id small) := by
  have length := Nonce.length_pack client.cookie peer.id serverAddress number
  have positive := List.length_pos_of_ne_nil filled
  refine ⟨?_, ?_, rfl, rfl, hears.cookie, ?_⟩
  · rw [List.length_append, length, dataLengthMin, nonceLength]
    omega
  · rw [List.take_left' length]
    exact Nonce.unpack_pack _ _ _ small
  · have number := hears.number
    rwa [if_pos small] at number

theorem chooseKey_alike (environment : Environment) (session : Session) (key : Option PublicKey) :
    session.Alike (session.chooseKey environment key).1 := by
  unfold chooseKey
  split
  · split
    · exact .refl session
    · split
      · exact .refl session
      · exact ⟨.of_same rfl rfl rfl, rfl, rfl⟩
  · split
    · exact .refl session
    · exact ⟨.of_same rfl rfl rfl, rfl, rfl⟩

theorem chooseKey_ok {key : Option PublicKey}
    (known : ∀ requested ∈ key, requested ∈ environment.keys.map Prod.fst) (session : Session) :
    (session.chooseKey environment key).2 = .ok () := by
  unfold chooseKey
  split
  · next requested =>
    obtain ⟨entry, mem, same⟩ := List.mem_map.mp (known requested rfl)
    have filled : environment.keys ≠ [] := List.ne_nil_of_mem mem
    obtain ⟨serverKey, found⟩ : ∃ serverKey, environment.keys.lookup requested = some serverKey :=
      Option.isSome_iff_exists.mp (List.lookup_isSome_iff.mpr ⟨entry, mem, by simp [same]⟩)
    rw [if_neg filled, found]
  · split <;> rfl

/-- The key that is chosen for the client is the one it checks signed keys with. -/
theorem chooseKey_signingKey
    (known : ∀ key ∈ client.permanentKey, key.1 ∈ environment.keys.map Prod.fst)
    (filled : environment.keys ≠ []) (session : Session) : ∃ secretKey,
    (session.chooseKey environment (client.permanentKey.map Subtype.val)).1.serverPermanentKey =
        some secretKey ∧
      client.signingKey environment = some (packages.publicKey secretKey) := by
  cases requested : client.permanentKey with
  | none =>
      obtain ⟨pair, rest, keys⟩ := List.exists_cons_of_ne_nil filled
      refine ⟨pair.2, ?_, ?_⟩
      · simp [chooseKey, keys]
      · rw [packages.publicKey_keys pair (by simp [keys]), ProtocolClient.signingKey, requested,
          keys]
        rfl
  | some key =>
      obtain ⟨entry, mem, same⟩ := List.mem_map.mp (known key requested)
      obtain ⟨secretKey, found⟩ : ∃ secretKey, environment.keys.lookup key.1 = some secretKey :=
        Option.isSome_iff_exists.mp (List.lookup_isSome_iff.mpr ⟨entry, mem, by simp [same]⟩)
      have pair : (key.1, secretKey) ∈ environment.keys := by
        obtain ⟨before, after, split, _⟩ := List.lookup_eq_some_iff.mp found
        simp [split]
      refine ⟨secretKey, ?_, ?_⟩
      · simp [chooseKey, filled, found]
      · rw [packages.publicKey_keys _ pair, ProtocolClient.signingKey, requested]

/-- A client-auth message that the client sends is found to be valid. -/
theorem handleClientAuth_client (packages : environment.ClientPackages) (session : Session)
    {subprotocol : SubProtocol}
    (negotiated : selectSubprotocol environment client.subprotocols environment.subprotocols =
      some subprotocol.value)
    (known : ∀ key ∈ client.permanentKey, key.1 ∈ environment.keys.map Prod.fst) :
    ∃ after, session.handleClientAuth environment subprotocol
        ⟨session.drawn.cookieOut, client.subprotocols, client.pingInterval,
          client.permanentKey.map Subtype.val⟩ = (after, .ok ()) ∧ session.Alike after ∧
      (session.cookieIn = some client.cookie → after.Acquainted packages client) := by
  have requested : ∀ key ∈ client.permanentKey.map Subtype.val,
      key ∈ environment.keys.map Prod.fst := by
    intro key mem
    obtain ⟨found, isFound, rfl⟩ := Option.map_eq_some_iff.mp mem
    exact known found isFound
  have interval (interval : Nat) : session.Alike (session.setKeepAliveInterval interval) := by
    unfold setKeepAliveInterval
    split
    · exact ⟨.of_same rfl rfl rfl, rfl, rfl⟩
    · exact .refl session
  have chosen (middle : Session) (alike : session.Alike middle) :
      session.Alike (middle.chooseKey environment (client.permanentKey.map Subtype.val)).1 ∧
        (session.cookieIn = some client.cookie →
          (middle.chooseKey environment (client.permanentKey.map Subtype.val)).1.Acquainted packages
            client) := by
    have both := alike.trans
      (chooseKey_alike environment middle (client.permanentKey.map Subtype.val))
    exact ⟨both, fun cookie => ⟨both.cookieIn.trans cookie,
      fun filled => chooseKey_signingKey known filled middle⟩⟩
  rw [handleClientAuth, if_neg (not_not.mpr rfl), if_neg (not_not.mpr negotiated)]
  cases client.pingInterval with
  | none => exact ⟨_, Prod.ext rfl (chooseKey_ok requested _), chosen session (.refl session)⟩
  | some seconds =>
      exact ⟨_, Prod.ext rfl (chooseKey_ok requested _), chosen _ (interval seconds)⟩

end Session

namespace IncomingMessage

/-- Unpacking a packet leaves the permanent key as it is. -/
theorem unpack_permanentKey {environment : Environment} {session after : Session}
    {peer : PathClient} {packet : List UInt8} {message : IncomingMessage}
    (unpacked : unpack environment session peer packet = .returned after message) :
    after.serverPermanentKey = session.serverPermanentKey := by
  have readBox (session : Session) :
      session.readBox.1.serverPermanentKey = session.serverPermanentKey := by
    cases box : session.box <;> simp [Session.readBox, box]
  obtain ⟨_, middle, nonce, passed, accepts⟩ := unpack_returned unpacked
  obtain ⟨_, _, ⟨_, _, same⟩ | ⟨_, accepted⟩⟩ := Session.unpackNonce_returned passed
  · subst same
    obtain ⟨_, rfl, _⟩ | ⟨_, rfl, _⟩ := accepts
    · exact readBox middle
    · rfl
  · have learned := (Session.acceptNonce_returned accepted).1
    subst learned
    obtain ⟨_, rfl, _⟩ | ⟨_, rfl, _⟩ := accepts
    · exact readBox _
    · rfl

variable {environment : Environment} {packages : environment.ClientPackages} {session : Session}
  {client : ProtocolClient} {peer : PathClient} {number : Nat} {packet : List UInt8}
  {nonce : Nonce}

theorem unpack_of_expects (expects : session.Expects peer packet nonce) :
    unpack environment session peer packet =
      unpackToServer environment (session.learn nonce) peer nonce packet := by
  have toServer : nonce.ToServer := by
    rw [Nonce.ToServer, expects.destination]
    rfl
  rw [unpack, if_neg (Nat.not_lt.mpr expects.long), expects.unpackNonce]
  exact if_pos toServer

/-- A payload that the session can decrypt is tried as a client-auth message. -/
theorem unpackGuessed_of_decrypted {payload : List UInt8} {entries : List (Value × Value)}
    (opened : decrypted environment session packet = some payload)
    (unpacked : environment.unpackb payload = some (.dict entries)) :
    unpackGuessed environment session (packet.take nonceLength) (packet.drop nonceLength) =
      .returned session.readBox.1 (.clientAuth, .dict entries) := by
  rw [unpackGuessed, decryptAndUnpack_eq, opened]
  simp [unpackPayload, unpacked, tagElements]

/-- A payload that it cannot decrypt is tried as a client-hello message. -/
theorem unpackGuessed_of_plain {entries : List (Value × Value)}
    (closed : decrypted environment session packet = none)
    (unpacked : environment.unpackb (packet.drop nonceLength) = some (.dict entries)) :
    unpackGuessed environment session (packet.take nonceLength) (packet.drop nonceLength) =
      .returned session.readBox.1 (.clientHello, .dict entries) := by
  rw [unpackGuessed, decryptAndUnpack_eq, closed]
  simp [unpackPayload, unpacked, tagElements]

section Requests

theorem unpackToServer_guessed {after : Session} {type : MessageType} {value : Value}
    {message : IncomingMessage} (restricted : peer.state ≠ .authenticated)
    (guessed : unpackGuessed environment session (packet.take nonceLength)
      (packet.drop nonceLength) = .returned after (type, value))
    (created : createGuessed type value = .ok message) :
    unpackToServer environment session peer nonce packet = .returned after message := by
  rw [unpackToServer, if_neg (fun known => restricted known.1), guessed]
  dsimp only
  rw [created]

theorem unpack_clientHello (hears : session.Hears client number) (small : number < 2 ^ 48)
    (restricted : peer.state ≠ .authenticated)
    (packed : client.packet packages session.drawn peer.id number .clientHello = some packet)
    (closed : decrypted environment session packet = none) :
    unpack environment session peer packet =
      .returned (session.learn (client.nonce peer.id small)).readBox.1
        (.clientHello (packages.publicKey client.key)) := by
  obtain ⟨data, isData, rfl⟩ := Option.map_eq_some_iff.mp packed
  have filled : data ≠ [] := fun empty => packages.packb_ne_nil _ (isData.trans (by rw [empty]))
  have type : payloadType (.dict (client.payload packages session.drawn.cookieOut .clientHello)) =
      .ok (_, .clientHello) := client.payloadType_payload packages _ rfl
  rw [unpack_of_expects (hears.expects small filled)]
  apply unpackToServer_guessed restricted
  · apply unpackGuessed_of_plain
    · rwa [Session.decrypted_learn]
    · rw [List.drop_left' (Nonce.length_pack ..)]
      exact packages.unpackb_packb _ _ isData
  · rw [createGuessed, type]
    simp [bind, Except.bind, client.clientHelloFromPayload_payload packages, Except.map]

theorem decrypted_packMessage {payload : Value} (boxed : session.Boxed packages client)
    {nonce : List UInt8} (length : nonce.length = nonceLength)
    (packed : ProtocolClient.packMessage packages nonce
      (some (client.key, packages.publicKey session.drawn.serverKey)) payload = some packet) :
    ∃ data encrypted, packet = nonce ++ encrypted ∧ encrypted ≠ [] ∧
      decrypted environment session packet = some data ∧
      environment.unpackb data = some payload := by
  obtain ⟨data, isData, rfl⟩ := Option.map_eq_some_iff.mp packed
  refine ⟨data, _, rfl, packages.encrypt_ne_nil _ _ _, ?_, packages.unpackb_packb _ _ isData⟩
  rw [decrypted, boxed.box, List.take_left' length, List.drop_left' length]
  exact packages.decrypt_encrypt _ _ _ _

theorem unpack_clientAuth (hears : session.Hears client number) (small : number < 2 ^ 48)
    (boxed : session.Boxed packages client) (restricted : peer.state ≠ .authenticated)
    (packed : client.packet packages session.drawn peer.id number .clientAuth = some packet) :
    unpack environment session peer packet =
      .returned (session.learn (client.nonce peer.id small)).readBox.1
        (client.message packages session.drawn peer.id packet .clientAuth) := by
  obtain ⟨data, encrypted, rfl, filled, opened, unpacked⟩ :=
    decrypted_packMessage boxed (Nonce.length_pack ..) packed
  have type : payloadType (.dict (client.payload packages session.drawn.cookieOut .clientAuth)) =
      .ok (_, .clientAuth) := client.payloadType_payload packages _ rfl
  rw [unpack_of_expects (hears.expects small filled)]
  apply unpackToServer_guessed restricted
  · apply unpackGuessed_of_decrypted _ unpacked
    rwa [Session.decrypted_learn]
  · rw [createGuessed, type]
    simp [bind, Except.bind, client.clientAuthFromPayload_payload packages, Except.map,
      ProtocolClient.message]

theorem unpack_dropResponder {id : ResponderAddress} {reason : Option DropReason}
    (hears : session.Hears client number) (small : number < 2 ^ 48)
    (boxed : session.Boxed packages client) (authenticated : peer.state = .authenticated)
    (initiator : peer.id = initiatorAddress ∧ peer.type = some .initiator)
    (packed : client.packet packages session.drawn peer.id number (.dropResponder id reason) =
      some packet) :
    unpack environment session peer packet =
      .returned (session.learn (client.nonce peer.id small)).readBox.1
        (client.message packages session.drawn peer.id packet (.dropResponder id reason)) := by
  obtain ⟨data, encrypted, rfl, filled, opened, unpacked⟩ :=
    decrypted_packMessage boxed (Nonce.length_pack ..) packed
  have type : payloadType (.dict (client.payload packages session.drawn.cookieOut
      (.dropResponder id reason))) = .ok (_, .dropResponder) :=
    client.payloadType_payload packages _ (by cases reason <;> rfl)
  rw [unpack_of_expects (hears.expects small filled), unpackToServer,
    if_pos ⟨authenticated, by simp [initiator.2]⟩, decryptAndUnpack_eq, Session.decrypted_learn,
    opened]
  dsimp only
  rw [unpackPayload, unpacked]
  dsimp only [tagElements]
  rw [create, type]
  simp [bind, Except.bind, ProtocolClient.nonce, initiator.1, Except.map,
    client.dropResponderFromPayload_payload packages, ProtocolClient.message]

theorem unpack_relayed {destination : Address} {cookie : Cookie} {data : List UInt8}
    (small : number < 2 ^ 48) (filled : data ≠ []) (assigned : peer.id ≠ serverAddress)
    (toClient : destination ≠ serverAddress) (allowed : peer.P2pAllowed destination.type) :
    unpack environment session peer (Nonce.pack cookie peer.id destination number ++ data) =
      .returned session (.relay peer.id destination
        (Nonce.pack cookie peer.id destination number ++ data)) := by
  have length := Nonce.length_pack cookie peer.id destination number
  have positive := List.length_pos_of_ne_nil filled
  have other : ¬ destination.type = .server := fun type =>
    toClient (Address.eq_serverAddress type)
  have passed : session.unpackNonce peer (Nonce.pack cookie peer.id destination number ++ data) =
      .returned session ⟨cookie, peer.id, destination, number, small⟩ := by
    rw [Session.unpackNonce, List.take_left' length, Nonce.unpack_pack _ _ _ small]
    simp [Nonce.ToServer, other, allowed]
  rw [unpack, if_neg, passed]
  · simp [Nonce.ToServer, other, createRelay_of_clients, assigned, toClient]
  · rw [List.length_append, length, dataLengthMin, nonceLength]
    omega

end Requests

end IncomingMessage

end SaltyRtcServer
