import SaltyRtcServer.Path

/-!
# Outgoing messages

The messages that the server creates or relays, and the part of packing them
that can fail: every message of the server takes a number from the combined
sequence number of its client, an address in its payload is compared with other
numbers, and an encrypted message can be packed only while the client is
authenticated.  Relayed messages are passed on as they are.
-/

namespace SaltyRtcServer

/-- The subclasses of `OutgoingMessage` and `RelayMessage`, with the address
they are sent to. -/
inductive OutgoingMessage
  | serverHello
  | serverAuthInitiator (responders : List ResponderAddress)
  | serverAuthResponder (destination : ResponderAddress) (initiatorConnected : Bool)
  | newInitiator (destination : ResponderAddress)
  | newResponder (id : ResponderAddress)
  | sendError (destination : Address) (id : List UInt8)
  | disconnected (destination id : Address)
  | relay (packet : List UInt8)
  deriving DecidableEq

namespace OutgoingMessage

/-- The class attribute `encrypted`; a relayed message has none. -/
def encrypted : OutgoingMessage → Bool
  | .serverHello | .relay _ => false
  | _ => true

def isRelay : OutgoingMessage → Bool
  | .relay _ => true
  | _ => false

/-- The address that the payload of a message holds by itself. -/
def payloadAddress? : OutgoingMessage → Option Address
  | .newResponder id => some id.toAddress
  | .disconnected _ id => some id
  | _ => none

/-- `_pack_payload`, as far as it is the work of the server: `umsgpack` compares an address with
numbers, which calls a method that a Splice class wraps. -/
def packPayload (message : OutgoingMessage) : Except PyException Unit :=
  match message.payloadAddress? with
  | none => .ok ()
  | some address => address.copy.map fun _ => ()

end OutgoingMessage

/-- The combined sequence number of a client's outgoing messages; `none` is the
overflow sentinel. -/
abbrev SequenceNumber := Option Nat

/-- `PathClient._increment_csn`. -/
def SequenceNumber.increment : SequenceNumber → SequenceNumber
  | none => none
  | some value => if (value + 1) &&& 0xf000000000000 ≠ 0 then none else some (value + 1)

/-- `message.pack(client)`: the sequence number it leaves, and whether it
raised. -/
def OutgoingMessage.pack (message : OutgoingMessage) (client : PathClient)
    (csnOut : SequenceNumber) : SequenceNumber × Except PyException Unit :=
  if message.isRelay then (csnOut, .ok ())
  else if csnOut = none then
    (none, .error (.messageFlowError
      "Cannot send any more messages, due to a sequence number counter overflow"))
  else
    match message.packPayload with
    | .error exception => (csnOut.increment, .error exception)
    | .ok _ =>
        if message.encrypted ∧ client.state ≠ .authenticated then
          (csnOut.increment, .error (.messageFlowError
            "Cannot encrypt payload, not authenticated"))
        else (csnOut.increment, .ok ())

/-- A relayed message is always packed and takes no number. -/
theorem OutgoingMessage.pack_relay (packet : List UInt8) (client : PathClient)
    (csnOut : SequenceNumber) :
    (OutgoingMessage.relay packet).pack client csnOut = (csnOut, .ok ()) :=
  rfl

theorem OutgoingMessage.packPayload_error {message : OutgoingMessage} {exception : PyException}
    (failed : message.packPayload = .error exception) : exception.isPacketError = true := by
  unfold packPayload at failed
  split at failed
  · contradiction
  · next address _ =>
    cases copied : address.copy with
    | error raised =>
        rw [copied] at failed
        cases failed
        exact (Address.copy_error copied).2
    | ok address =>
        rw [copied] at failed
        contradiction

theorem OutgoingMessage.pack_error {message : OutgoingMessage} {client : PathClient}
    {before after : SequenceNumber} {exception : PyException}
    (failed : message.pack client before = (after, .error exception)) :
    message.isRelay = false ∧ ∃ error : PacketError, exception = error.1 := by
  unfold pack at failed
  split at failed
  · simp at failed
  · next server =>
    refine ⟨Bool.eq_false_of_not_eq_true server, ?_⟩
    split at failed
    · injection failed with _ raised
      injection raised with same
      exact ⟨⟨exception, same ▸ rfl⟩, rfl⟩
    · split at failed
      · next unpacked =>
        injection failed with _ raised
        injection raised with same
        exact ⟨⟨exception, same ▸ packPayload_error unpacked⟩, rfl⟩
      · split at failed
        · injection failed with _ raised
          injection raised with same
          exact ⟨⟨exception, same ▸ rfl⟩, rfl⟩
        · simp at failed

end SaltyRtcServer
