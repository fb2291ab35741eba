import SaltyRtcServer.IncomingNonces

/-!
# What is read from a packet to the server

`_unpack_payload` expects a dictionary, and indexes whatever it gets by what it
iterates over.  A list may therefore pass as well, or end the call by an
`IndexError` that is not caught.
-/

namespace SaltyRtcServer

theorem Address.eq_serverAddress {address : Address} (type : address.type = .server) :
    address = serverAddress := by
  unfold Address.type at type
  split at type
  · next zero => exact Subtype.ext zero
  · split at type <;> contradiction

namespace Value

/-- The value is an index of a list or a byte string of this length. -/
def Indexes (length : Nat) (element : Value) : Prop :=
  ∃ index ∈ element.toInt?, -(length : Int) ≤ index ∧ index < length

/-- The value is a number, but no index. -/
def Exceeds (length : Nat) (element : Value) : Prop :=
  ∃ index ∈ element.toInt?, ¬ (-(length : Int) ≤ index ∧ index < length)

/-- The value can be indexed by all that it is iterated over. -/
def IndexesItself : Value → Prop
  | .dict _ => True
  | .list elements => ∀ element ∈ elements, element.Indexes elements.length
  | .bytes content => content = []
  | .str value => value = ""
  | _ => False

/-- The first element that cannot be used as an index is a number. -/
def ExceedsItself : Value → Prop
  | .list elements => ∃ indexes element rest, elements = indexes ++ element :: rest ∧
      (∀ index ∈ indexes, index.Indexes elements.length) ∧ element.Exceeds elements.length
  | .bytes content => ∃ first ∈ content.head?, content.length ≤ first.toNat
  | _ => False

end Value

namespace IncomingMessage

theorem indexFailure_eq_none {length : Nat} {element : Value} :
    indexFailure length element = none ↔ element.Indexes length := by
  unfold indexFailure Value.Indexes
  cases element.toInt? with
  | none => simp
  | some index => simp

theorem indexFailure_eq_some {length : Nat} {element : Value} {exception : PyException}
    (failed : indexFailure length element = some exception) :
    exception.IsMessageError ∧ element.toInt? = none ∨
      (∃ text, exception = .indexError text) ∧ element.Exceeds length := by
  unfold indexFailure at failed
  split at failed
  · next notNumber =>
    cases failed
    exact .inl ⟨⟨_, rfl⟩, notNumber⟩
  · next index number =>
    split at failed
    · contradiction
    · next outside =>
      cases failed
      exact .inr ⟨⟨_, rfl⟩, index, number, outside⟩

theorem indexFailure_of_exceeds {length : Nat} {element : Value} (exceeds : element.Exceeds length) :
    ∃ text, indexFailure length element = some (.indexError text) := by
  obtain ⟨index, number, outside⟩ := exceeds
  rw [Option.mem_def] at number
  refine ⟨indexErrorText index, ?_⟩
  rw [indexFailure, number]
  exact if_neg outside

/-- The loop leaves a value as it is, or fails. -/
theorem tagElements_eq_ok {value tagged : Value} :
    tagElements value = .ok tagged ↔ tagged = value ∧ value.IndexesItself := by
  cases value with
  | dict entries => simp [tagElements, Value.IndexesItself, eq_comm]
  | list elements =>
      simp only [tagElements, Value.IndexesItself]
      cases failed : elements.findSome? (indexFailure elements.length) with
      | none =>
          rw [List.findSome?_eq_none_iff] at failed
          have indexes : ∀ element ∈ elements, element.Indexes elements.length :=
            fun element mem => indexFailure_eq_none.mp (failed element mem)
          constructor
          · intro same
            cases same
            exact ⟨rfl, indexes⟩
          · rintro ⟨rfl, _⟩
            rfl
      | some exception =>
          obtain ⟨element, mem, failed⟩ := List.exists_of_findSome?_eq_some failed
          simp only [reduceCtorEq, false_iff]
          rintro ⟨_, indexes⟩
          rw [indexFailure_eq_none.mpr (indexes element mem)] at failed
          contradiction
  | bytes bytes =>
      cases bytes with
      | nil => simp [tagElements, Value.IndexesItself, eq_comm]
      | cons first rest =>
          simp only [tagElements, Value.IndexesItself]
          split <;> simp
  | str value =>
      simp only [tagElements, Value.IndexesItself]
      split
      · next empty => simp [empty, eq_comm]
      · next nonempty => simp [nonempty]
  | none | bool | int | float | extension => simp [tagElements, Value.IndexesItself]

/-- An index that is out of range escapes. -/
theorem tagElements_exceedsItself {value : Value} (exceeds : value.ExceedsItself) :
    ∃ text, tagElements value = .error (.indexError text) := by
  cases value with
  | list elements =>
      obtain ⟨indexes, element, rest, split, areIndexes, exceeds⟩ := exceeds
      obtain ⟨text, fails⟩ := indexFailure_of_exceeds exceeds
      have failed : elements.findSome? (indexFailure elements.length) =
          some (.indexError text) := by
        rw [List.findSome?_eq_some_iff]
        exact ⟨indexes, element, rest, split, fails,
          fun index mem => indexFailure_eq_none.mpr (areIndexes index mem)⟩
      exact ⟨text, by rw [tagElements, failed]⟩
  | bytes content =>
      obtain ⟨first, mem, outside⟩ := exceeds
      cases content with
      | nil => contradiction
      | cons head rest =>
          cases mem
          exact ⟨_, if_neg (Nat.not_lt.mpr outside)⟩
  | none | bool | int | float | str | dict | extension => exact exceeds.elim

/-- Nothing else escapes. -/
theorem tagElements_raisesMessageError {value : Value} (inside : ¬ value.ExceedsItself) :
    RaisesMessageError (tagElements value) := by
  cases value with
  | dict entries => exact .ok _
  | list elements =>
      simp only [tagElements]
      cases failed : elements.findSome? (indexFailure elements.length) with
      | none => exact .ok _
      | some exception =>
          obtain ⟨before, element, rest, split, fails, passed⟩ :=
            List.findSome?_eq_some_iff.mp failed
          obtain ⟨messageError, _⟩ | ⟨_, exceeds⟩ := indexFailure_eq_some fails
          · exact .error messageError
          · have indexes (index : Value) (mem : index ∈ before) : index.Indexes elements.length :=
              indexFailure_eq_none.mp (passed index mem)
            exact absurd ⟨before, element, rest, split, indexes, exceeds⟩ inside
  | bytes content =>
      cases content with
      | nil => exact .ok _
      | cons first rest =>
          simp only [tagElements]
          split
          · exact raises_messageError _
          · next outside => exact absurd ⟨first, rfl, Nat.not_lt.mp outside⟩ inside
  | str value =>
      simp only [tagElements]
      split
      · exact .ok _
      · exact raises_messageError _
  | none | bool | int | float | extension => exact raises_messageError _

end IncomingMessage

namespace Environment

variable (environment : Environment)

/-- The payload is unpacked to a value. -/
def Yields (payload : List UInt8) : Prop :=
  ∃ value, environment.unpackb payload = some value ∧ value.IndexesItself

/-- The payload is a list or a byte string that is indexed beyond its end. -/
def Exceeds (payload : List UInt8) : Prop :=
  ∃ value, environment.unpackb payload = some value ∧ value.ExceedsItself

end Environment

namespace IncomingMessage

variable {environment : Environment} {session after : Session} {client : PathClient}
  {nonce : Nonce} {packet : List UInt8} {message : IncomingMessage}

theorem unpackPayload_eq_ok {payload : List UInt8} {value : Value} :
    unpackPayload environment payload = .ok value ↔
      environment.unpackb payload = some value ∧ value.IndexesItself := by
  unfold unpackPayload
  cases environment.unpackb payload with
  | none => simp
  | some unpacked =>
      simp only [tagElements_eq_ok, Option.some.injEq]
      constructor
      · rintro ⟨rfl, indexes⟩
        exact ⟨rfl, indexes⟩
      · rintro ⟨rfl, indexes⟩
        exact ⟨rfl, indexes⟩

theorem exists_unpackPayload_iff {payload : List UInt8} :
    (∃ value, unpackPayload environment payload = .ok value) ↔ environment.Yields payload :=
  exists_congr fun _ => unpackPayload_eq_ok

theorem unpackPayload_exceeds {payload : List UInt8} (exceeds : environment.Exceeds payload) :
    ∃ text, unpackPayload environment payload = .error (.indexError text) := by
  obtain ⟨value, unpacked, exceeds⟩ := exceeds
  rw [unpackPayload, unpacked]
  exact tagElements_exceedsItself exceeds

theorem unpackPayload_raisesMessageError {payload : List UInt8}
    (inside : ¬ environment.Exceeds payload) :
    RaisesMessageError (unpackPayload environment payload) := by
  unfold unpackPayload
  split
  · exact raises_messageError _
  · next value unpacked =>
    apply tagElements_raisesMessageError
    exact fun exceeds => inside ⟨value, unpacked, exceeds⟩

/-- The payload after decryption, if it can be decrypted. -/
def decrypted (environment : Environment) (session : Session) (packet : List UInt8) :
    Option (List UInt8) :=
  environment.decrypt session.readBox.2 (packet.take nonceLength) (packet.drop nonceLength)

/-- Decrypting and unpacking, by what is decrypted. -/
theorem decryptAndUnpack_eq (environment : Environment) (session : Session)
    (packet : List UInt8) :
    decryptAndUnpack environment session (packet.take nonceLength) (packet.drop nonceLength) =
      match decrypted environment session packet with
      | none => .raised session.readBox.1 (.messageError "Could not decrypt payload")
      | some payload =>
          match unpackPayload environment payload with
          | .error exception => .raised session.readBox.1 exception
          | .ok value => .returned session.readBox.1 value := by
  unfold decryptAndUnpack Session.decryptPayload decrypted
  cases session.readBox with
  | mk boxed box =>
      dsimp only
      cases environment.decrypt box (packet.take nonceLength) (packet.drop nonceLength) <;> rfl

theorem decryptAndUnpack_returned {value : Value}
    (returned : decryptAndUnpack environment session (packet.take nonceLength)
      (packet.drop nonceLength) = .returned after value) :
    ∃ payload, decrypted environment session packet = some payload ∧
      environment.unpackb payload = some value ∧ value.IndexesItself := by
  rw [decryptAndUnpack_eq] at returned
  split at returned
  · contradiction
  · next payload opened =>
    split at returned
    · contradiction
    · next unpacked =>
      cases returned
      exact ⟨payload, opened, unpackPayload_eq_ok.mp unpacked⟩

theorem decryptAndUnpack_raised {exception : PyException}
    (raised : decryptAndUnpack environment session (packet.take nonceLength)
      (packet.drop nonceLength) = .raised after exception) :
    ∀ payload ∈ decrypted environment session packet, ¬ environment.Yields payload := by
  intro payload opened yields
  obtain ⟨value, unpacked⟩ := exists_unpackPayload_iff.mpr yields
  rw [Option.mem_def] at opened
  rw [decryptAndUnpack_eq, opened] at raised
  dsimp only at raised
  rw [unpacked] at raised
  contradiction

theorem decryptAndUnpack_exceeds {payload : List UInt8}
    (opened : payload ∈ decrypted environment session packet)
    (exceeds : environment.Exceeds payload) :
    ∃ after text, decryptAndUnpack environment session (packet.take nonceLength)
      (packet.drop nonceLength) = .raised after (.indexError text) := by
  obtain ⟨text, failed⟩ := unpackPayload_exceeds exceeds
  rw [Option.mem_def] at opened
  refine ⟨session.readBox.1, text, ?_⟩
  rw [decryptAndUnpack_eq, opened]
  dsimp only
  rw [failed]

theorem decryptAndUnpack_isMessageError {exception : PyException}
    (inside : ∀ payload ∈ decrypted environment session packet, ¬ environment.Exceeds payload)
    (raised : decryptAndUnpack environment session (packet.take nonceLength)
      (packet.drop nonceLength) = .raised after exception) : exception.IsMessageError := by
  rw [decryptAndUnpack_eq] at raised
  split at raised
  · cases raised
    exact ⟨_, rfl⟩
  · next payload opened =>
    split at raised
    · next failed =>
      cases raised
      exact unpackPayload_raisesMessageError (inside payload opened) _ failed
    · contradiction

/-- What is read first of a packet to the server is indexed beyond its end. -/
def Misread (environment : Environment) (session : Session) (client : PathClient)
    (packet : List UInt8) : Prop :=
  (∃ payload ∈ decrypted environment session packet, environment.Exceeds payload) ∨
    ¬ (client.state = .authenticated ∧ client.type ≠ none) ∧
      (∀ payload ∈ decrypted environment session packet, ¬ environment.Yields payload) ∧
      environment.Exceeds (packet.drop nonceLength)

theorem not_isProtocolError_indexError (text : String) :
    ¬ (PyException.indexError text).IsProtocolError := by
  rintro ⟨other, same | same⟩ <;> contradiction

theorem not_isProtocolError_typeError (text : String) :
    ¬ (PyException.typeError text).IsProtocolError := by
  rintro ⟨other, same | same⟩ <;> contradiction

theorem unpackGuessed_misread
    (misread : (∃ payload ∈ decrypted environment session packet, environment.Exceeds payload) ∨
      (∀ payload ∈ decrypted environment session packet, ¬ environment.Yields payload) ∧
        environment.Exceeds (packet.drop nonceLength)) :
    ∃ after text, unpackGuessed environment session (packet.take nonceLength)
      (packet.drop nonceLength) = .raised after (.indexError text) := by
  by_cases inside : ∀ payload ∈ decrypted environment session packet,
      ¬ environment.Exceeds payload
  · obtain ⟨payload, opened, exceeds⟩ | ⟨silent, exceeds⟩ := misread
    · exact absurd exceeds (inside payload opened)
    · obtain ⟨text, failed⟩ := unpackPayload_exceeds exceeds
      cases first : decryptAndUnpack environment session (packet.take nonceLength)
          (packet.drop nonceLength) with
      | returned after value =>
          obtain ⟨payload, opened, unpacked⟩ := decryptAndUnpack_returned first
          exact absurd ⟨value, unpacked⟩ (silent payload opened)
      | raised after exception =>
          obtain ⟨_, rfl⟩ := decryptAndUnpack_isMessageError inside first
          exact ⟨after, text, by rw [unpackGuessed, first, failed]⟩
  · push Not at inside
    obtain ⟨payload, opened, exceeds⟩ := inside
    obtain ⟨after, text, raised⟩ := decryptAndUnpack_exceeds opened exceeds
    exact ⟨after, text, by rw [unpackGuessed, raised]⟩

theorem unpackGuessed_raises_of_inside {exception : PyException}
    (inside : ∀ payload ∈ decrypted environment session packet, ¬ environment.Exceeds payload)
    (later : (∀ payload ∈ decrypted environment session packet, ¬ environment.Yields payload) →
      ¬ environment.Exceeds (packet.drop nonceLength))
    (raised : unpackGuessed environment session (packet.take nonceLength)
      (packet.drop nonceLength) = .raised after exception) : exception.IsMessageError := by
  unfold unpackGuessed at raised
  split at raised
  · contradiction
  · next failed =>
    have outside := later (decryptAndUnpack_raised failed)
    split at raised
    · contradiction
    · cases raised
      exact ⟨_, rfl⟩
    · next failed =>
      cases raised
      exact unpackPayload_raisesMessageError outside _ failed
  · next failed =>
    cases raised
    exact decryptAndUnpack_isMessageError inside failed

/-- Exactly a misread payload makes a packet to the server raise another error. -/
theorem unpackToServer_raisesProtocolError_iff :
    (unpackToServer environment session client nonce packet).RaisesProtocolError ↔
      ¬ Misread environment session client packet := by
  unfold unpackToServer Misread
  dsimp only
  split
  · next authenticated =>
    rw [or_iff_left fun guessed => guessed.1 authenticated]
    constructor
    · rintro raises ⟨payload, opened, exceeds⟩
      obtain ⟨after, text, raised⟩ := decryptAndUnpack_exceeds opened exceeds
      refine not_isProtocolError_indexError text (raises after _ ?_)
      rw [raised]
    · intro inside
      push Not at inside
      split
      · next failed =>
        exact .raised _ (decryptAndUnpack_isMessageError inside failed).protocolError
      · split
        · next failed => exact .raised _ (create_raises _ _ _ failed)
        · exact .returned _ _
  · next unauthenticated =>
    simp only [unauthenticated, not_false_eq_true, true_and]
    constructor
    · intro raises misread
      obtain ⟨after, text, raised⟩ := unpackGuessed_misread misread
      refine not_isProtocolError_indexError text (raises after _ ?_)
      rw [raised]
    · intro inside
      rw [not_or, not_and] at inside
      obtain ⟨decryptedInside, later⟩ := inside
      push Not at decryptedInside
      split
      · next failed =>
        exact .raised _ (unpackGuessed_raises_of_inside decryptedInside later failed).protocolError
      · split
        · next failed => exact .raised _ (createGuessed_raises _ _ _ failed)
        · exact .returned _ _

theorem payloadType_ok {value : Value} {entries : List (Value × Value)} {type : MessageType}
    (typed : payloadType value = .ok (entries, type)) :
    value = .dict entries ∧ MessageType.ofValue (Value.get entries "type") = .ok type := by
  cases value with
  | dict found =>
      obtain ⟨other, ofValue, same⟩ := exceptMap_ok typed
      cases same
      exact ⟨rfl, ofValue⟩
  | none | bool | int | float | str | bytes | list | extension => contradiction

/-- The payload is a dictionary of this type. -/
structure IsTyped (environment : Environment) (payload : List UInt8) (type : MessageType)
    (entries : List (Value × Value)) : Prop where
  unpacked : environment.unpackb payload = some (.dict entries)
  type : MessageType.ofValue (Value.get entries "type") = .ok type

/-- What a client that is not authenticated may say, by what its payload is decrypted to
and by the payload as it is. -/
inductive Handshakes (environment : Environment) (opened : Option (List UInt8))
    (plain : List UInt8) : IncomingMessage → Prop
  | clientAuth {payload : List UInt8} {entries : List (Value × Value)} {message : ClientAuth} :
      payload ∈ opened → IsTyped environment payload .clientAuth entries →
      ClientAuth.fromPayload entries = .ok message →
      Handshakes environment opened plain (.clientAuth message)
  | clientHello {entries : List (Value × Value)} {key : PublicKey} :
      (∀ payload ∈ opened, ¬ environment.Yields payload) →
      IsTyped environment plain .clientHello entries →
      clientHelloFromPayload entries = .ok key →
      Handshakes environment opened plain (.clientHello key)

/-- What the initiator may ask of the server. -/
inductive Requests (environment : Environment) (opened : Option (List UInt8)) :
    IncomingMessage → Prop
  | dropResponder {payload : List UInt8} {entries : List (Value × Value)} {id : ResponderAddress}
      {reason : DropReason} : payload ∈ opened →
      IsTyped environment payload .dropResponder entries →
      dropResponderFromPayload entries = .ok (id, reason) →
      Requests environment opened (.dropResponder id reason)

/-- The guess decides which type is expected, and the type is checked. -/
theorem unpackGuessed_returned {expected : MessageType} {value : Value}
    (guessed : unpackGuessed environment session (packet.take nonceLength)
      (packet.drop nonceLength) = .returned after (expected, value)) :
    expected = .clientAuth ∧ (∃ payload ∈ decrypted environment session packet,
        environment.unpackb payload = some value) ∨
      expected = .clientHello ∧
        (∀ payload ∈ decrypted environment session packet, ¬ environment.Yields payload) ∧
        environment.unpackb (packet.drop nonceLength) = some value := by
  unfold unpackGuessed at guessed
  split at guessed
  · next returned =>
    cases guessed
    obtain ⟨payload, opened, unpacked, _⟩ := decryptAndUnpack_returned returned
    exact .inl ⟨rfl, payload, opened, unpacked⟩
  · next failed =>
    split at guessed
    · next plain =>
      cases guessed
      obtain ⟨unpacked, _⟩ := unpackPayload_eq_ok.mp plain
      exact .inr ⟨rfl, decryptAndUnpack_raised failed, unpacked⟩
    · contradiction
    · contradiction
  · contradiction

theorem unpackToServer_handshakes (unauthenticated : client.state ≠ .authenticated)
    (unpacked : unpackToServer environment session client nonce packet =
      .returned after message) :
    Handshakes environment (decrypted environment session packet) (packet.drop nonceLength)
      message := by
  unfold unpackToServer at unpacked
  dsimp only at unpacked
  rw [if_neg (fun authenticated => unauthenticated authenticated.1)] at unpacked
  split at unpacked
  · contradiction
  · next expected value guessed =>
    split at unpacked
    · contradiction
    · next created =>
      cases unpacked
      obtain ⟨⟨entries, type⟩, typed, checked⟩ := exceptBind_ok created
      obtain ⟨rfl, ofValue⟩ := payloadType_ok typed
      dsimp only at checked
      split at checked
      · contradiction
      · next same =>
        have same : type = expected := not_not.mp same
        subst same
        obtain ⟨rfl, payload, opened, unpacked⟩ | ⟨rfl, silent, unpacked⟩ :=
          unpackGuessed_returned guessed
        · obtain ⟨message, parsed, rfl⟩ := exceptMap_ok checked
          exact .clientAuth opened ⟨unpacked, ofValue⟩ parsed
        · obtain ⟨key, parsed, rfl⟩ := exceptMap_ok checked
          exact .clientHello silent ⟨unpacked, ofValue⟩ parsed

theorem unpackToServer_requests (authenticated : client.state = .authenticated)
    (typed : client.type ≠ none)
    (unpacked : unpackToServer environment session client nonce packet =
      .returned after message) :
    nonce.source = initiatorAddress ∧
      Requests environment (decrypted environment session packet) message := by
  unfold unpackToServer at unpacked
  dsimp only at unpacked
  rw [if_pos ⟨authenticated, typed⟩] at unpacked
  split at unpacked
  · contradiction
  · next value returned =>
    split at unpacked
    · contradiction
    · next created =>
      cases unpacked
      obtain ⟨⟨entries, type⟩, typed, checked⟩ := exceptBind_ok created
      obtain ⟨rfl, ofValue⟩ := payloadType_ok typed
      obtain ⟨payload, opened, unpacked, _⟩ := decryptAndUnpack_returned returned
      dsimp only at checked
      split at checked
      · next drops =>
        obtain ⟨rfl, initiator⟩ := drops
        obtain ⟨⟨id, reason⟩, parsed, rfl⟩ := exceptMap_ok checked
        exact ⟨initiator, .dropResponder opened ⟨unpacked, ofValue⟩ parsed⟩
      · contradiction

/-- Both ends of a packet that is to be relayed are clients. -/
theorem createRelay_eq_ok (created : createRelay nonce packet = .ok message) :
    nonce.source ≠ serverAddress ∧ nonce.destination ≠ serverAddress ∧
      message = .relay nonce.source nonce.destination packet := by
  have converts {address converted : Address} (ok : clientAddress address = .ok converted) :
      address ≠ serverAddress ∧ converted = address := by
    unfold clientAddress at ok
    split at ok
    · contradiction
    · next client =>
      cases ok
      exact ⟨client, rfl⟩
  obtain ⟨source, first, created⟩ := exceptBind_ok created
  obtain ⟨destination, second, created⟩ := exceptBind_ok created
  obtain ⟨fromClient, rfl⟩ := converts first
  obtain ⟨toClient, rfl⟩ := converts second
  cases created
  exact ⟨fromClient, toClient, rfl⟩

theorem createRelay_of_clients (fromClient : nonce.source ≠ serverAddress)
    (toClient : nonce.destination ≠ serverAddress) :
    createRelay nonce packet = .ok (.relay nonce.source nonce.destination packet) := by
  simp [createRelay, clientAddress, fromClient, toClient]
  rfl

end IncomingMessage

end SaltyRtcServer
