import SaltyRtcServer.ConversationRuns
import SaltyRtcServer.Packing

/-!
# The messages of the server

The messages that the server creates, in full: their addresses, their payloads,
and the keys that are signed when a server-auth message is packed.  The client of
the tests reads them with `unpack_message`.

What the client reads in a packet is the message that was packed, with the
cookie of the server and the number that `csn_out` had; and the keys that were
signed are those of this connection, under the permanent key that it knows.
-/

namespace SaltyRtcServer

/-- A message of the server as `create` makes it; the type comes first in its payload. -/
structure CreatedMessage where
  type : MessageType
  destination : Address
  content : List (Value × Value)

namespace CreatedMessage

def payload (message : CreatedMessage) : List (Value × Value) :=
  (.str "type", .str message.type.value) :: message.content

end CreatedMessage

/-- `create` of the class of a message, with the public key of the server and the cookie of
the client, without which there is no server-auth message.  A relayed message is not created. -/
def OutgoingMessage.create (serverKey : PublicKey) (cookieIn : Option Cookie) :
    OutgoingMessage → Option CreatedMessage
  | .serverHello => some ⟨.serverHello, serverAddress, [(.str "key", .bytes serverKey)]⟩
  | .serverAuthInitiator responders =>
      cookieIn.map fun cookie => ⟨.serverAuth, initiatorAddress,
        [(.str "your_cookie", .bytes cookie.1),
          (.str "responders", .list (responders.map fun id => .int id.1))]⟩
  | .serverAuthResponder destination initiatorConnected =>
      cookieIn.map fun cookie => ⟨.serverAuth, destination.toAddress,
        [(.str "your_cookie", .bytes cookie.1),
          (.str "initiator_connected", .bool initiatorConnected)]⟩
  | .newInitiator destination => some ⟨.newInitiator, destination.toAddress, []⟩
  | .newResponder id => some ⟨.newResponder, initiatorAddress, [(.str "id", .int id.1)]⟩
  | .sendError destination id => some ⟨.sendError, destination, [(.str "id", .bytes id)]⟩
  | .disconnected destination id => some ⟨.disconnected, destination, [(.str "id", .int id.1)]⟩
  | .relay _ => none

/-- The class of a created message is encrypted as the model of the handlers has it. -/
theorem OutgoingMessage.encrypted_create {serverKey : PublicKey} {cookieIn : Option Cookie}
    {message : OutgoingMessage} {created : CreatedMessage}
    (creates : message.create serverKey cookieIn = some created) :
    message.encrypted = true ↔ created.type ≠ .serverHello := by
  cases message with
  | relay packet => contradiction
  | serverAuthInitiator | serverAuthResponder =>
      obtain ⟨_, _, rfl⟩ := Option.map_eq_some_iff.mp creates
      exact ⟨fun _ => by simp, fun _ => rfl⟩
  | _ =>
      cases creates
      simp [encrypted]

namespace Session

variable {environment : Environment} (packages : environment.ClientPackages)

/-- `common.sign_keys`. -/
def signKeys (session : Session) (nonce : List UInt8) : Except PyException (List UInt8) :=
  match session.serverPermanentKey with
  | none => .error (.internalError "Server's permanent secret key instance not set")
  | some permanentKey =>
      .ok (packages.encrypt (permanentKey, session.clientKey) nonce
        (packages.publicKey session.drawn.serverKey ++ session.clientKey))

/-- `ServerAuthMessage.prepare_payload`, where keys are signed if the server has any; the
other classes leave their payload as it is. -/
def preparePayload (session : Session) (message : CreatedMessage) (nonce : List UInt8) :
    Except PyException (List (Value × Value)) :=
  if message.type = .serverAuth ∧ environment.keys ≠ [] then
    (session.signKeys packages nonce).map fun signed =>
      message.payload ++ [(.str "signed_keys", .bytes signed)]
  else .ok message.payload

/-- `_pack_payload`. -/
def packPayload (payload : List (Value × Value)) : Except PyException (List UInt8) :=
  match packages.packb (.dict payload) with
  | none => .error (.messageError "Could not pack msgpack payload")
  | some data => .ok data

/-- The message as `pack` sees it. -/
def cook (session : Session) (message : CreatedMessage) : CookedMessage where
  source := serverAddress
  destination := message.destination
  encrypted := message.type ≠ .serverHello
  packPayload nonce := session.preparePayload packages message nonce >>= packPayload packages
  encryptPayload nonce payload := .ok (packages.encrypt session.readBox.2 nonce payload)

/-- The packet of a message, where the counter of the session has the value given. -/
def packet (session : Session) (csnOut : SequenceNumber) (peer : PathClient) :
    OutgoingMessage → Option (List UInt8)
  | .relay packet => some packet
  | message =>
      (message.create (packages.publicKey session.drawn.serverKey) session.cookieIn).bind
        fun created => ({ session with csnOut := some csnOut }.pack
          (.cooked (session.cook packages created) peer)).2.packet.toOption

end Session

namespace ProtocolClient

variable {environment : Environment} (packages : environment.ClientPackages)

/-- The payload of a packet, which is decrypted if there is a box. -/
def openPacket (environment : Environment) (packet : List UInt8) :
    Option (SecretKey × PublicKey) → Option (List UInt8)
  | none => some (packet.drop nonceLength)
  | some box => environment.decrypt box (packet.take nonceLength) (packet.drop nonceLength)

/-- `unpack_message`. -/
def unpackMessage (environment : Environment) (box : Option (SecretKey × PublicKey))
    (packet : List UInt8) : Option (Value × Nonce) :=
  match Nonce.unpack (packet.take nonceLength) with
  | .error _ => none
  | .ok nonce =>
      ((openPacket environment packet box).bind environment.unpackb).map fun message =>
        (message, nonce)

/-- The box of the client, which it has after the server-hello message. -/
def box (client : ProtocolClient) (drawn : Drawn) (type : MessageType) :
    Option (SecretKey × PublicKey) :=
  if type = .serverHello then none else some (client.key, packages.publicKey drawn.serverKey)

/-- What is added to a payload when it is packed: signed keys, which the client opens with the
permanent key that it knows. -/
def Signed (client : ProtocolClient) (drawn : Drawn) (message : CreatedMessage)
    (nonce : List UInt8) (content : List (Value × Value)) : Prop :=
  if message.type = .serverAuth ∧ environment.keys ≠ [] then
    ∃ key ∈ client.signingKey environment, ∃ signed,
      content = [(.str "signed_keys", .bytes signed)] ∧
        environment.decrypt (client.key, key) nonce signed =
          some (packages.publicKey drawn.serverKey ++ packages.publicKey client.key)
  else content = []

/-- The payload of the message, with what is added to it, cannot be packed. -/
def Unpackable (client : ProtocolClient) (drawn : Drawn) (message : CreatedMessage)
    (number : Nat) : Prop :=
  ∃ content : List (Value × Value),
    client.Signed packages drawn message
      (Nonce.pack drawn.cookieOut serverAddress message.destination number) content ∧
      packages.packb (.dict (message.payload ++ content)) = none

/-- What the client finds in a packet. -/
def Reads (client : ProtocolClient) (drawn : Drawn) (message : CreatedMessage) (number : Nat)
    (packet : List UInt8) : Prop :=
  ∃ (small : number < 2 ^ 48) (content : List (Value × Value)),
    unpackMessage environment (client.box packages drawn message.type) packet =
      some (.dict (message.payload ++ content),
        ⟨drawn.cookieOut, serverAddress, message.destination, number, small⟩) ∧
      client.Signed packages drawn message (packet.take nonceLength) content

end ProtocolClient

namespace Session

variable {environment : Environment} {packages : environment.ClientPackages} {session : Session}
  {client : ProtocolClient} {message : CreatedMessage} {peer : PathClient}

theorem packPayload_ok {payload : List (Value × Value)} {data : List UInt8}
    (packed : packPayload packages payload = .ok data) :
    environment.unpackb data = some (.dict payload) := by
  unfold packPayload at packed
  split at packed
  · contradiction
  · next isData =>
    cases packed
    exact packages.unpackb_packb _ _ isData

/-- Preparing the payload of an acquainted client does not fail. -/
theorem preparePayload_ok (nonce : List UInt8)
    (known : message.type = .serverAuth →
      session.Boxed packages client ∧ session.Acquainted packages client) :
    ∃ content, session.preparePayload packages message nonce = .ok (message.payload ++ content) ∧
      client.Signed packages session.drawn message nonce content := by
  unfold preparePayload ProtocolClient.Signed
  by_cases signs : message.type = .serverAuth ∧ environment.keys ≠ []
  · obtain ⟨boxed, acquainted⟩ := known signs.1
    obtain ⟨secretKey, isKey, signing⟩ := acquainted.permanentKey signs.2
    rw [if_pos signs, signKeys, isKey]
    refine ⟨_, rfl, ?_⟩
    rw [if_pos signs]
    refine ⟨_, signing, _, rfl, ?_⟩
    rw [boxed.clientKey]
    exact packages.decrypt_encrypt _ _ _ _
  · rw [if_neg signs]
    exact ⟨[], by rw [List.append_nil], by rw [if_neg signs]⟩

/-- The rest of packing fails only if `packb` cannot pack the payload of the message; otherwise
the client reads the message as it was created. -/
theorem packRest_reads (session : Session) {number : Nat} (small : number < 2 ^ 48)
    (known : message.type ≠ .serverHello → peer.state = .authenticated ∧
      session.Boxed packages client ∧ session.Acquainted packages client) :
    (client.Unpackable packages session.drawn message number ∧
        ∃ exception, packRest (session.cook packages message) peer
          (Nonce.pack session.drawn.cookieOut serverAddress message.destination number) =
            .error exception) ∨
      ∃ packet, packRest (session.cook packages message) peer
          (Nonce.pack session.drawn.cookieOut serverAddress message.destination number) =
            .ok packet ∧
        client.Reads packages session.drawn message number packet := by
  let nonce := Nonce.pack session.drawn.cookieOut serverAddress message.destination number
  have length : nonce.length = nonceLength := Nonce.length_pack ..
  have unpacked : Nonce.unpack nonce =
      .ok ⟨session.drawn.cookieOut, serverAddress, message.destination, number, small⟩ :=
    Nonce.unpack_pack ..
  obtain ⟨content, prepared, signed⟩ := session.preparePayload_ok nonce
    fun isAuth => (known (by rw [isAuth]; decide)).2
  have packs : (session.cook packages message).packPayload nonce =
      packPayload packages (message.payload ++ content) := by
    change session.preparePayload packages message nonce >>= packPayload packages = _
    rw [prepared]
    rfl
  change (_ ∧ ∃ exception, packRest _ peer nonce = _) ∨ ∃ packet, packRest _ peer nonce = _ ∧ _
  rw [packRest, packs]
  cases isData : packPayload packages (message.payload ++ content) with
  | error exception =>
      refine .inl ⟨⟨content, signed, ?_⟩, exception, rfl⟩
      unfold packPayload at isData
      split at isData
      · assumption
      · contradiction
  | ok data =>
      right
      have readable := packPayload_ok isData
      by_cases hello : message.type = .serverHello
      · refine ⟨nonce ++ data, if_neg (by simp [cook, hello]), small, content, ?_, ?_⟩
        · rw [ProtocolClient.unpackMessage, ProtocolClient.box, if_pos hello,
            ProtocolClient.openPacket, List.take_left' length, List.drop_left' length, unpacked]
          simp [readable]
        · rwa [List.take_left' length]
      · obtain ⟨authenticated, boxed, _⟩ := known hello
        have opened : environment.decrypt (client.key, packages.publicKey session.drawn.serverKey)
            nonce (packages.encrypt session.readBox.2 nonce data) = some data := by
          rw [boxed.box]
          exact packages.decrypt_encrypt _ _ _ _
        refine ⟨nonce ++ packages.encrypt session.readBox.2 nonce data, ?_, small, content, ?_, ?_⟩
        · exact (if_pos (by simp [cook, hello])).trans (if_neg (not_not.mpr authenticated))
        · rw [ProtocolClient.unpackMessage, ProtocolClient.box, if_neg hello,
            ProtocolClient.openPacket, List.take_left' length, List.drop_left' length, unpacked,
            opened]
          simp [readable]
        · rwa [List.take_left' length]

/-- What the client gets for a message of the server. -/
theorem packet_reads {message : OutgoingMessage} {number : Nat} (small : number < 2 ^ 48)
    (own : message.isRelay = false)
    (known : message.encrypted = true → peer.state = .authenticated ∧
      session.Boxed packages client ∧ session.Acquainted packages client) :
    ∃ created, message.create (packages.publicKey session.drawn.serverKey) (some client.cookie) =
        some created ∧
      (client.Unpackable packages session.drawn created number ∧
          session.packet packages (some number) peer message = none ∨
        ∃ packet, session.packet packages (some number) peer message = some packet ∧
          client.Reads packages session.drawn created number packet) := by
  have creates : message.create (packages.publicKey session.drawn.serverKey) session.cookieIn =
      message.create (packages.publicKey session.drawn.serverKey) (some client.cookie) := by
    cases encrypted : message.encrypted with
    | true => rw [(known encrypted).2.2.cookieIn]
    | false =>
        cases message <;> first | rfl | contradiction
  obtain ⟨created, isCreated⟩ : ∃ created, message.create
      (packages.publicKey session.drawn.serverKey) (some client.cookie) = some created := by
    cases message <;> first | exact ⟨_, rfl⟩ | contradiction
  refine ⟨created, isCreated, ?_⟩
  have packs : session.packet packages (some number) peer message =
      (packRest (session.cook packages created) peer (Nonce.pack session.drawn.cookieOut
        serverAddress created.destination number)).toOption := by
    unfold packet
    split
    · contradiction
    · rw [creates, isCreated]
      rfl
  rw [packs]
  obtain ⟨unpackable, exception, failed⟩ | ⟨packet, packed, reads⟩ :=
    packRest_reads session small
      fun isPrivate => known ((OutgoingMessage.encrypted_create isCreated).mpr isPrivate)
  · exact .inl ⟨unpackable, by rw [failed]; rfl⟩
  · exact .inr ⟨packet, by rw [packed]; rfl, reads⟩

end Session

end SaltyRtcServer
