import SaltyRtcServer.Session
import Mathlib.Data.List.Nodup
import Mathlib.Data.List.Range

/-!
# Packing messages

`OutgoingMessage.pack` in full.  The nonce is packed first, and from then on its
number counts as used, whatever happens to the rest of the message.  Hence no
two nonces of one client have the same number.
-/

namespace SaltyRtcServer

/-- A message of the server as `pack` sees it: the addresses, the flag of its
class, and the payload.  Preparing the payload (which may sign keys with the
nonce), packing it and encrypting it may each raise. -/
structure CookedMessage where
  source : Address
  destination : Address
  encrypted : Bool
  packPayload : List UInt8 → Except PyException (List UInt8)
  encryptPayload : List UInt8 → List UInt8 → Except PyException (List UInt8)

/-- A call of `pack`, with the client as it is at that time. -/
inductive PackCall
  | relay (packet : List UInt8)
  | cooked (message : CookedMessage) (client : PathClient)

def PackCall.isCooked : PackCall → Bool
  | .relay _ => false
  | .cooked _ _ => true

/-- What a call leaves in the `_nonce` of its message, and what it returns. -/
structure Packed where
  nonce : Option (List UInt8)
  packet : Except PyException (List UInt8)

/-- The error of packing when there are no numbers left. -/
def csnOutOverflow : PyException :=
  .messageFlowError "Cannot send any more messages, due to a sequence number counter overflow"

namespace Session

/-- `OutgoingMessage._pack_nonce`. -/
def packNonce (session : Session) (source destination : Address) : Call Session (List UInt8) :=
  match session.readCsnOut with
  | (session, none) => .raised session csnOutOverflow
  | (session, some number) =>
      .returned session.incrementCsnOut
        (Nonce.pack session.drawn.cookieOut source destination number)

/-- `OutgoingMessage.pack` after the nonce was packed. -/
def packRest (message : CookedMessage) (client : PathClient) (nonce : List UInt8) :
    Except PyException (List UInt8) :=
  match message.packPayload nonce with
  | .error exception => .error exception
  | .ok payload =>
      if message.encrypted then
        if client.state ≠ .authenticated then
          .error (.messageFlowError "Cannot encrypt payload, not authenticated")
        else
          match message.encryptPayload nonce payload with
          | .error exception => .error exception
          | .ok data => .ok (nonce ++ data)
      else .ok (nonce ++ payload)

/-- `message.pack(client)`. -/
def pack (session : Session) : PackCall → Session × Packed
  | .relay packet => (session, ⟨none, .ok packet⟩)
  | .cooked message client =>
      match session.packNonce message.source message.destination with
      | .raised session exception => (session, ⟨none, .error exception⟩)
      | .returned session nonce => (session, ⟨some nonce, packRest message client nonce⟩)

/-- Successive calls of `pack` for one client. -/
def packAll (session : Session) : List PackCall → Session × List Packed
  | [] => (session, [])
  | call :: calls =>
      let (session, packed) := session.pack call
      let (session, rest) := session.packAll calls
      (session, packed :: rest)

/-- The nonces that successive calls have packed. -/
def packedNonces (session : Session) (calls : List PackCall) : List (List UInt8) :=
  (session.packAll calls).2.filterMap Packed.nonce

end Session

/-- The numbers that the next messages of a client get. -/
def SequenceNumber.upcoming : SequenceNumber → Nat → List Nat
  | none, _ => []
  | some value, count => List.range' value (min count (2 ^ 48 - value))

namespace SequenceNumber

theorem upcoming_zero (csn : SequenceNumber) : csn.upcoming 0 = [] := by
  cases csn <;> simp [upcoming]

/-- One message takes the first number and leaves the incremented counter. -/
theorem upcoming_succ {value : Nat} (small : value < 2 ^ 48) (count : Nat) :
    upcoming (some value) (count + 1) =
      value :: (SequenceNumber.increment (some value)).upcoming count := by
  have left : min (count + 1) (2 ^ 48 - value) = min count (2 ^ 48 - (value + 1)) + 1 := by omega
  rw [upcoming, left, List.range'_succ, increment_some small]
  split
  · next last =>
      rw [last, upcoming]
      simp
  · rfl

theorem increment_small {csn : SequenceNumber} (small : ∀ value ∈ csn, value < 2 ^ 48) :
    ∀ value ∈ csn.increment, value < 2 ^ 48 := by
  intro value incremented
  cases csn with
  | none => contradiction
  | some before =>
      rw [increment_some (small before rfl)] at incremented
      split at incremented
      · contradiction
      · next inside =>
          have := small before rfl
          cases incremented
          omega

end SequenceNumber

namespace Session

/-- The counter is a 48-bit number or the sentinel. -/
def SmallCsnOut (session : Session) : Prop :=
  ∀ value ∈ session.readCsnOut.2, value < 2 ^ 48

theorem smallCsnOut_new (drawn : Drawn) (initiatorKey : PublicKey) :
    (Session.new drawn initiatorKey).SmallCsnOut := by
  intro value first
  cases first
  exact (initialNumber_lt _).trans (by decide)

theorem readCsnOut_incrementCsnOut (session : Session) :
    session.incrementCsnOut.readCsnOut.2 = session.readCsnOut.2.increment := by
  rfl

theorem readCsnOut_readCsnOut (session : Session) :
    session.readCsnOut.1.readCsnOut.2 = session.readCsnOut.2 := by
  cases csnOut : session.csnOut with
  | none => simp [readCsnOut, csnOut]
  | some csn => simp [readCsnOut, csnOut]

/-- What a message of the server does to the counter, and which nonce it
gets. -/
theorem pack_cooked (session : Session) (message : CookedMessage) (client : PathClient) :
    (session.readCsnOut.2 = none ∧
      (session.pack (.cooked message client)).1.readCsnOut.2 = none ∧
      (session.pack (.cooked message client)).2 = ⟨none, .error csnOutOverflow⟩) ∨
    ∃ value, session.readCsnOut.2 = some value ∧
      (session.pack (.cooked message client)).1.readCsnOut.2 =
        SequenceNumber.increment (some value) ∧
      (session.pack (.cooked message client)).2.nonce =
        some (Nonce.pack session.drawn.cookieOut message.source message.destination value) := by
  have kept := session.readCsnOut_readCsnOut
  cases read : session.readCsnOut with
  | mk after csn =>
    have cookie : after.drawn = session.drawn := by
      unfold readCsnOut at read
      split at read <;> cases read <;> rfl
    rw [read] at kept
    cases csn with
    | none => exact .inl ⟨rfl, by simp [pack, packNonce, read, kept], by simp [pack, packNonce, read]⟩
    | some value =>
        right
        refine ⟨value, rfl, ?_, ?_⟩
        · simp only [pack, packNonce, read]
          rw [readCsnOut_incrementCsnOut, kept]
        · simp only [pack, packNonce, read, cookie]

/-- Relayed messages are passed on, and nothing is taken from the counter. -/
theorem pack_relay (session : Session) (packet : List UInt8) :
    session.pack (.relay packet) = (session, ⟨none, .ok packet⟩) :=
  rfl

theorem SmallCsnOut.pack {session : Session} (small : session.SmallCsnOut) (call : PackCall) :
    (session.pack call).1.SmallCsnOut := by
  cases call with
  | relay packet => exact small
  | cooked message client =>
      obtain ⟨_, after, _⟩ | ⟨value, before, after, _⟩ := session.pack_cooked message client
      · intro value some
        rw [after] at some
        contradiction
      · intro next some
        rw [after, ← before] at some
        exact SequenceNumber.increment_small small next some

/-- The numbers in the nonces of successive calls. -/
theorem numbers_packedNonces {session : Session} (small : session.SmallCsnOut)
    (calls : List PackCall) :
    (session.packedNonces calls).map Nonce.encodedNumber =
      session.readCsnOut.2.upcoming (calls.countP PackCall.isCooked) := by
  induction calls generalizing session with
  | nil => simp [packedNonces, packAll, SequenceNumber.upcoming_zero]
  | cons call calls ih =>
      have rest := ih (small.pack call)
      have first : session.packedNonces (call :: calls) =
          (session.pack call).2.nonce.toList ++ (session.pack call).1.packedNonces calls := by
        cases nonce : (session.pack call).2.nonce <;> simp [packedNonces, packAll, nonce]
      rw [first, List.map_append, rest]
      cases call with
      | relay packet => simp [pack_relay, PackCall.isCooked]
      | cooked message client =>
          rw [List.countP_cons_of_pos (by rfl)]
          obtain ⟨before, after, packed⟩ | ⟨value, before, after, packed⟩ :=
            session.pack_cooked message client
          · rw [after, packed, before]
            rfl
          · rw [after, packed, before, SequenceNumber.upcoming_succ (small value before)]
            simp [Nonce.encodedNumber_pack _ _ _ (small value before)]

/-- The sentinel stays. -/
theorem packAll_exhausted {session : Session} (exhausted : session.readCsnOut.2 = none)
    (calls : List PackCall) : (session.packAll calls).1.readCsnOut.2 = none := by
  induction calls generalizing session with
  | nil => exact exhausted
  | cons call calls ih =>
      apply ih
      cases call with
      | relay packet => exact exhausted
      | cooked message client =>
          obtain ⟨_, after, _⟩ | ⟨value, before, _, _⟩ := session.pack_cooked message client
          · exact after
          · rw [exhausted] at before
            contradiction

/-- After the last number there is only the sentinel. -/
theorem packAll_last {session : Session} (small : session.SmallCsnOut) (calls : List PackCall)
    (used : 2 ^ 48 - 1 ∈ (session.packedNonces calls).map Nonce.encodedNumber) :
    (session.packAll calls).1.readCsnOut.2 = none := by
  induction calls generalizing session with
  | nil => simp [packedNonces, packAll] at used
  | cons call calls ih =>
      have rest (later : 2 ^ 48 - 1 ∈
          ((session.pack call).1.packedNonces calls).map Nonce.encodedNumber) :
          (session.packAll (call :: calls)).1.readCsnOut.2 = none :=
        ih (small.pack call) later
      cases call with
      | relay packet => exact rest (by simpa [packedNonces, packAll, pack_relay] using used)
      | cooked message client =>
          obtain ⟨_, after, _⟩ | ⟨value, before, after, packed⟩ :=
            session.pack_cooked message client
          · exact packAll_exhausted after calls
          · by_cases last : value = 2 ^ 48 - 1
            · rw [SequenceNumber.increment_some (small value before), last] at after
              exact packAll_exhausted after calls
            · apply rest
              rw [packedNonces, packAll, List.filterMap_cons_some packed, List.map_cons,
                Nonce.encodedNumber_pack _ _ _ (small value before), List.mem_cons] at used
              exact used.resolve_left (Ne.symm last)

/-- How the calls of `pack` for one client use the combined sequence number. -/
structure NeverRepeats (session : Session) (calls : List PackCall) : Prop where
  first : session.initialNumber < 2 ^ 32
  numbers : (session.packedNonces calls).map Nonce.encodedNumber =
    List.range' session.initialNumber
      (min (calls.countP PackCall.isCooked) (2 ^ 48 - session.initialNumber))
  distinct : (session.packedNonces calls).Nodup
  exhausted : ∀ before message client after, calls = before ++ .cooked message client :: after →
    2 ^ 48 - 1 ∈ (session.packedNonces before).map Nonce.encodedNumber →
    ((session.packAll before).1.pack (.cooked message client)).2 = ⟨none, .error csnOutOverflow⟩
  relayed : ∀ before packet after, calls = before ++ .relay packet :: after →
    (session.packAll before).1.pack (.relay packet) =
      ((session.packAll before).1, ⟨none, .ok packet⟩)

/-- No nonce of the server is used twice, and when the numbers are used up no
more messages of the server are packed. -/
theorem never_repeats (drawn : Drawn) (initiatorKey : PublicKey) (calls : List PackCall) :
    (Session.new drawn initiatorKey).NeverRepeats calls := by
  have small := smallCsnOut_new drawn initiatorKey
  have numbers := numbers_packedNonces small calls
  constructor
  case first => exact initialNumber_lt _
  case numbers => exact numbers
  case distinct =>
    apply List.Nodup.of_map Nonce.encodedNumber
    rw [numbers]
    exact List.nodup_range'
  case exhausted =>
    intro before message client after _ used
    have none := packAll_last small before used
    obtain ⟨_, _, packed⟩ | ⟨value, some, _, _⟩ := pack_cooked _ message client
    · exact packed
    · rw [none] at some
      contradiction
  case relayed =>
    intro before packet after _
    exact pack_relay _ packet

/-- The counter is that of the model of the handlers, and packing raises where it does there, if
payloads are packed where they are there and can be encrypted. -/
theorem pack_server (session : Session) (client : PathClient) (message : OutgoingMessage)
    (cooked : CookedMessage) (csn : SequenceNumber) (own : message.isRelay = false)
    (flag : cooked.encrypted = message.encrypted) (current : session.csnOut = some csn)
    (packs : ∀ nonce, (cooked.packPayload nonce).toOption.isSome =
      message.packPayload.toOption.isSome)
    (encrypts : ∀ nonce payload, ∃ data, cooked.encryptPayload nonce payload = .ok data) :
    (session.pack (.cooked cooked client)).1.csnOut = some (message.pack client csn).1 ∧
      ((session.pack (.cooked cooked client)).2.packet.toOption.isSome =
        (message.pack client csn).2.toOption.isSome) := by
  have read : session.readCsnOut = (session, csn) := by
    rw [readCsnOut, current]
  cases csn with
  | none => simp [pack, packNonce, read, OutgoingMessage.pack, own, current, Except.toOption]
  | some value =>
      let nonce := Nonce.pack session.drawn.cookieOut cooked.source cooked.destination value
      have alike := packs nonce
      have cooks : session.pack (.cooked cooked client) =
          (session.incrementCsnOut, ⟨some nonce, packRest cooked client nonce⟩) := by
        simp only [pack, packNonce, read]
        rfl
      have incremented : session.incrementCsnOut.csnOut =
          some (SequenceNumber.increment (some value)) := by
        simp only [incrementCsnOut, read]
      rw [cooks]
      cases packed : cooked.packPayload nonce with
      | error exception =>
          cases server : message.packPayload with
          | error raised =>
              simp [OutgoingMessage.pack, own, server, packRest, packed, incremented,
                Except.toOption]
          | ok _ => simp [packed, server, Except.toOption] at alike
      | ok payload =>
          cases server : message.packPayload with
          | error raised => simp [packed, server, Except.toOption] at alike
          | ok _ =>
              obtain ⟨data, encrypted⟩ := encrypts nonce payload
              by_cases refused : message.encrypted ∧ client.state ≠ .authenticated
              · simp [OutgoingMessage.pack, own, server, packRest, packed, incremented, flag,
                  refused, Except.toOption]
              · cases flagged : message.encrypted with
                | false =>
                    simp [OutgoingMessage.pack, own, server, packRest, packed, incremented, flag,
                      flagged, Except.toOption]
                | true =>
                    have state : client.state = .authenticated := by simpa [flagged] using refused
                    simp [OutgoingMessage.pack, own, server, packRest, packed, incremented,
                      encrypted, flag, flagged, state, Except.toOption]

end Session

end SaltyRtcServer
