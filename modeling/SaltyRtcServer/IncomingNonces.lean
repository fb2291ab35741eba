import SaltyRtcServer.IncomingMessage
import Mathlib.Data.List.Range

/-!
# The nonces of incoming packets

The first packet that a client sends to the server fixes its cookie and the
first number; from then on every packet to the server has to carry that cookie
and the next number.  Packets to other clients do not count.
-/

namespace SaltyRtcServer

/-- A call of `unpack`, with the client as it is at that time and what the rest
of the code has made of its session. -/
structure UnpackCall where
  client : PathClient
  packet : List UInt8
  rest : Session

namespace UnpackCall

/-- The session at the time of the call: the cookie and the number of the client
are as the previous call has left them. -/
def resume (call : UnpackCall) (session : Session) : Session :=
  { call.rest with
    drawn := session.drawn
    cookieIn := session.cookieIn
    csnIn := session.csnIn }

/-- The nonce of a packet to the server. -/
def serverNonce? (call : UnpackCall) : Option Nonce :=
  match Nonce.unpack (call.packet.take nonceLength) with
  | .error _ => none
  | .ok nonce => if nonce.ToServer then some nonce else none

def unpack (call : UnpackCall) (environment : Environment) (session : Session) :
    Call Session IncomingMessage :=
  IncomingMessage.unpack environment (call.resume session) call.client call.packet

theorem serverNonce?_eq_some {call : UnpackCall} {nonce : Nonce} :
    call.serverNonce? = some nonce ↔
      Nonce.unpack (call.packet.take nonceLength) = .ok nonce ∧ nonce.ToServer := by
  unfold serverNonce?
  split
  · next found => simp [found]
  · next other found =>
    rw [found]
    by_cases toServer : other.ToServer
    · rw [if_pos toServer]
      constructor
      · intro same
        cases same
        exact ⟨rfl, toServer⟩
      · intro same
        injection same.1 with same
        rw [same]
    · rw [if_neg toServer]
      constructor
      · intro absurd
        contradiction
      · intro same
        injection same.1 with equal
        exact absurd (equal ▸ same.2) toServer

end UnpackCall

/-- Successive calls of `unpack`, all of which return. -/
def Session.unpackAll (environment : Environment) (session : Session) :
    List UnpackCall → Option Session
  | [] => some session
  | call :: calls =>
      match call.unpack environment session with
      | .raised _ _ => none
      | .returned session _ => session.unpackAll environment calls

/-- The nonces of the packets to the server. -/
def serverNonces (calls : List UnpackCall) : List Nonce := calls.filterMap UnpackCall.serverNonce?

/-- One cookie, which is not that of the server, and consecutive numbers of 48
bits from one with leading zeros on. -/
structure Consecutive (cookieOut : Cookie) (nonces : List Nonce) : Prop where
  cookie : ∀ nonce ∈ nonces, ∀ other ∈ nonces, nonce.cookie = other.cookie
  foreign : ∀ nonce ∈ nonces, nonce.cookie ≠ cookieOut
  numbers : ∃ first < 2 ^ 32, nonces.map Nonce.number = List.range' first nonces.length ∧
    first + nonces.length ≤ 2 ^ 48

namespace Session

/-- The counter after the numbers below `next`. -/
def expecting (next : Nat) : SequenceNumber := if next = 2 ^ 48 then none else some next

/-- What a session knows after packets with these nonces were accepted. -/
inductive Learned (session : Session) (nonces : List Nonce) : Prop
  | nothing : nonces = [] → session.cookieIn = none → session.csnIn = none → Learned session nonces
  | expects (cookie : Cookie) (first : Nat)
      (known : session.cookieIn = some cookie) (foreign : cookie ≠ session.drawn.cookieOut)
      (same : ∀ nonce ∈ nonces, nonce.cookie = cookie)
      (number : session.csnIn = some (expecting (first + nonces.length)))
      (low : first < 2 ^ 32) (bound : first + nonces.length ≤ 2 ^ 48)
      (numbers : nonces.map Nonce.number = List.range' first nonces.length) :
      Learned session nonces

variable {environment : Environment} {session after : Session} {nonces : List Nonce}
  {nonce : Nonce} {call : UnpackCall} {calls : List UnpackCall}

theorem learned_new (drawn : Drawn) (initiatorKey : PublicKey) :
    (Session.new drawn initiatorKey).Learned [] :=
  .nothing rfl rfl rfl

theorem Learned.consecutive (learned : session.Learned nonces) :
    Consecutive session.drawn.cookieOut nonces := by
  cases learned with
  | nothing empty _ _ =>
      subst empty
      exact ⟨by simp, by simp, 0, by decide, by simp, by simp⟩
  | expects cookie first _ foreign same _ small bound numbers =>
      constructor
      · intro nonce member other otherMember
        rw [same nonce member, same other otherMember]
      · intro nonce member
        rw [same nonce member]
        exact foreign
      · exact ⟨first, small, numbers, bound⟩

theorem Learned.of_same (learned : session.Learned nonces) (drawn : after.drawn = session.drawn)
    (cookieIn : after.cookieIn = session.cookieIn) (csnIn : after.csnIn = session.csnIn) :
    after.Learned nonces := by
  cases learned with
  | nothing empty cookie number => exact .nothing empty (cookieIn.trans cookie) (csnIn.trans number)
  | expects cookie first known foreign same number small bound numbers =>
      exact .expects cookie first (cookieIn.trans known) (drawn ▸ foreign) same
        (csnIn.trans number) small bound numbers

/-- An accepted nonce continues the list. -/
theorem Learned.accept (learned : session.Learned nonces)
    (accepted : session.acceptNonce nonce = .returned after ()) :
    after.Learned (nonces ++ [nonce]) := by
  obtain ⟨rfl, cookieFits, numberFits⟩ := acceptNonce_returned accepted
  have small := nonce.number_lt
  have increment : SequenceNumber.increment (some nonce.number) = expecting (nonce.number + 1) :=
    SequenceNumber.increment_some small
  cases learned with
  | nothing empty noCookie noNumber =>
      subst empty
      rw [noCookie] at cookieFits
      rw [noNumber] at numberFits
      obtain ⟨_, foreign⟩ | impossible := cookieFits
      · obtain ⟨_, low⟩ | impossible := numberFits
        · exact .expects nonce.cookie nonce.number rfl foreign (by simp)
            (congrArg some increment) low small (by simp)
        · contradiction
      · contradiction
  | expects cookie first known foreign same number low bound numbers =>
      rw [known] at cookieFits
      rw [number] at numberFits
      obtain ⟨impossible, _⟩ | fits := cookieFits
      · contradiction
      · injection fits with fits
        obtain ⟨impossible, _⟩ | next := numberFits
        · contradiction
        · injection next with next
          unfold expecting at next
          split at next
          · contradiction
          · injection next with next
            apply Learned.expects cookie first
            case known => exact congrArg some fits.symm
            case foreign => exact foreign
            case same =>
              intro other member
              obtain old | new := List.mem_append.mp member
              · exact same other old
              · rw [List.mem_singleton.mp new, fits]
            case number =>
              rw [List.length_append, List.length_singleton, ← Nat.add_assoc, next]
              exact congrArg some increment
            case low => exact low
            case bound =>
              rw [List.length_append, List.length_singleton]
              omega
            case numbers =>
              rw [List.map_append, numbers, List.length_append, List.length_singleton,
                List.range'_concat, List.map_singleton, Nat.one_mul, next]

@[simp]
theorem readBox_drawn (session : Session) : session.readBox.1.drawn = session.drawn := by
  unfold readBox
  split <;> rfl

@[simp]
theorem readBox_cookieIn (session : Session) : session.readBox.1.cookieIn = session.cookieIn := by
  unfold readBox
  split <;> rfl

@[simp]
theorem readBox_csnIn (session : Session) : session.readBox.1.csnIn = session.csnIn := by
  unfold readBox
  split <;> rfl

theorem Learned.resume (learned : session.Learned nonces) (call : UnpackCall) :
    (call.resume session).Learned nonces :=
  learned.of_same rfl rfl rfl

/-- The calls that return add their nonces. -/
theorem Learned.unpackAll (learned : session.Learned nonces)
    (returned : session.unpackAll environment calls = some after) :
    after.drawn = session.drawn ∧ after.Learned (nonces ++ serverNonces calls) := by
  induction calls generalizing session nonces with
  | nil =>
      cases returned
      exact ⟨rfl, by simpa [serverNonces] using learned⟩
  | cons call calls ih =>
      unfold Session.unpackAll at returned
      split at returned
      · contradiction
      · next next message unpacked =>
        obtain ⟨_, middle, nonce, passed, later⟩ := IncomingMessage.unpack_returned unpacked
        obtain ⟨packed, _, checked⟩ := unpackNonce_returned passed
        obtain ⟨toServer, rfl, _⟩ | ⟨toClient, rfl, _⟩ := later
        · obtain ⟨toClient, _⟩ | ⟨_, accepted⟩ := checked
          · contradiction
          · have one := (learned.resume call).accept accepted
            have drawn : middle.drawn = session.drawn := by
              obtain ⟨rfl, _⟩ := acceptNonce_returned accepted
              rfl
            have boxed : middle.readBox.1.Learned (nonces ++ [nonce]) :=
              one.of_same (by simp) (by simp) (by simp)
            obtain ⟨kept, rest⟩ := ih boxed returned
            have found := UnpackCall.serverNonce?_eq_some.mpr ⟨packed, toServer⟩
            refine ⟨by rw [kept, readBox_drawn, drawn], ?_⟩
            rw [serverNonces, List.filterMap_cons_some found]
            simpa [serverNonces] using rest
        · obtain ⟨_, _, rfl⟩ | ⟨toServer, _⟩ := checked
          · have none : call.serverNonce? = none := by
              rw [Option.eq_none_iff_forall_ne_some]
              intro other some
              obtain ⟨same, toServer⟩ := UnpackCall.serverNonce?_eq_some.mp some
              rw [packed] at same
              injection same with same
              exact toClient (same ▸ toServer)
            obtain ⟨kept, rest⟩ := ih (learned.resume call) returned
            refine ⟨kept, ?_⟩
            rw [serverNonces, List.filterMap_cons_none none]
            exact rest
          · contradiction

/-- A client whose packets were all accepted, and what its next packet can do. -/
structure NoReplay (environment : Environment) (session : Session) (calls : List UnpackCall) :
    Prop where
  accepted : Consecutive session.drawn.cookieOut (serverNonces calls)
  next : ∀ (call : UnpackCall) (after : Session) (nonce : Nonce),
    (call.resume session).unpackNonce call.client call.packet = .returned after nonce →
    nonce.ToServer → Consecutive session.drawn.cookieOut (serverNonces calls ++ [nonce])
  relayed : ∀ call : UnpackCall, call.serverNonce? = none →
    (call.unpack environment session).state.cookieIn = session.cookieIn ∧
      (call.unpack environment session).state.csnIn = session.csnIn
  exhausted : 2 ^ 48 - 1 ∈ (serverNonces calls).map Nonce.number →
    ∀ (call : UnpackCall) (nonce : Nonce), call.serverNonce? = some nonce →
      ∃ after exception, call.unpack environment session = .raised after exception ∧
        (dataLengthMin ≤ call.packet.length → nonce.source = call.client.id →
          (∀ other ∈ serverNonces calls, nonce.cookie = other.cookie) →
          exception = .messageFlowError
            "Cannot receive any more messages, due to a sequence number counter overflow")

theorem unpackNonce_raised {exception : PyException} (relayed : call.serverNonce? = none)
    (raised : session.unpackNonce call.client call.packet = .raised after exception) :
    after = session := by
  unfold unpackNonce at raised
  split at raised
  · cases raised
    rfl
  · next nonce packed =>
    split at raised
    · cases raised
      rfl
    · split at raised
      · split at raised <;> cases raised <;> rfl
      · split at raised
        · next toServer =>
          rw [UnpackCall.serverNonce?_eq_some.mpr ⟨packed, toServer⟩] at relayed
          contradiction
        · contradiction

/-- A packet that is not for the server leaves what was learned. -/
theorem unpack_relayed (session : Session) (relayed : call.serverNonce? = none) :
    (call.unpack environment session).state.cookieIn = session.cookieIn ∧
      (call.unpack environment session).state.csnIn = session.csnIn := by
  have same : (call.unpack environment session).state = call.resume session := by
    unfold UnpackCall.unpack IncomingMessage.unpack
    split
    · rfl
    · cases passed : (call.resume session).unpackNonce call.client call.packet with
      | raised after exception => exact unpackNonce_raised relayed passed
      | returned after nonce =>
          obtain ⟨packed, _, ⟨toClient, _, rfl⟩ | ⟨toServer, _⟩⟩ := unpackNonce_returned passed
          · dsimp only
            rw [if_neg toClient]
            cases IncomingMessage.createRelay nonce call.packet <;> rfl
          · rw [UnpackCall.serverNonce?_eq_some.mpr ⟨packed, toServer⟩] at relayed
            contradiction
  rw [same]
  exact ⟨rfl, rfl⟩

/-- After the last number the counter is the sentinel. -/
theorem Learned.exhausted (learned : session.Learned nonces)
    (used : 2 ^ 48 - 1 ∈ nonces.map Nonce.number) :
    ∃ cookie, session.cookieIn = some cookie ∧ (∀ nonce ∈ nonces, nonce.cookie = cookie) ∧
      nonces ≠ [] ∧ session.csnIn = some none := by
  cases learned with
  | nothing empty _ _ =>
      subst empty
      contradiction
  | expects cookie first known _ same number _ bound numbers =>
      rw [numbers, List.mem_range'_1] at used
      have last : first + nonces.length = 2 ^ 48 := by omega
      refine ⟨cookie, known, same, ?_, ?_⟩
      · intro empty
        subst empty
        simp at used
        omega
      · rw [number, expecting, if_pos last]

/-- With the sentinel no packet to the server is accepted. -/
theorem unpack_exhausted {cookie : Cookie} (known : session.cookieIn = some cookie)
    (sentinel : session.csnIn = some none) (found : call.serverNonce? = some nonce) :
    ∃ after exception, call.unpack environment session = .raised after exception ∧
      (dataLengthMin ≤ call.packet.length → nonce.source = call.client.id →
        nonce.cookie = cookie → exception = .messageFlowError
          "Cannot receive any more messages, due to a sequence number counter overflow") := by
  obtain ⟨packed, toServer⟩ := UnpackCall.serverNonce?_eq_some.mp found
  unfold UnpackCall.unpack IncomingMessage.unpack
  by_cases short : call.packet.length < dataLengthMin
  · rw [if_pos short]
    exact ⟨_, _, rfl, fun long => absurd short (Nat.not_lt.mpr long)⟩
  · rw [if_neg short]
    unfold Session.unpackNonce
    rw [packed]
    dsimp only
    rw [if_neg (fun refused => refused.1 toServer)]
    by_cases source : nonce.source = call.client.id
    · rw [if_neg (not_not.mpr source), if_pos toServer]
      by_cases right : nonce.cookie = cookie
      · simp [Session.acceptNonce, Session.validCookie, UnpackCall.resume, known, right,
          Session.validateCsnIn, Session.learnCsnIn, sentinel]
      · simp [Session.acceptNonce, Session.validCookie, UnpackCall.resume, known, right]
    · rw [if_pos source]
      cases call.client.id.format <;> exact ⟨_, _, rfl, fun _ same => absurd same source⟩

/-- No packet to the server is accepted twice. -/
theorem no_replay (environment : Environment) (drawn : Drawn) (initiatorKey : PublicKey)
    (calls : List UnpackCall) (session : Session)
    (returned : (Session.new drawn initiatorKey).unpackAll environment calls = some session) :
    session.NoReplay environment calls := by
  obtain ⟨_, learned⟩ := (learned_new drawn initiatorKey).unpackAll returned
  rw [List.nil_append] at learned
  constructor
  case accepted => exact learned.consecutive
  case next =>
    intro call after nonce passed toServer
    obtain ⟨_, _, ⟨toClient, _⟩ | ⟨_, accepted⟩⟩ := unpackNonce_returned passed
    · contradiction
    · have continued := ((learned.resume call).accept accepted).consecutive
      obtain ⟨rfl, _⟩ := acceptNonce_returned accepted
      exact continued
  case relayed =>
    intro call relayed
    exact unpack_relayed session relayed
  case exhausted =>
    intro used call nonce found
    obtain ⟨cookie, known, same, nonempty, sentinel⟩ := learned.exhausted used
    obtain ⟨after, exception, raised, overflow⟩ := unpack_exhausted known sentinel found
    refine ⟨after, exception, raised, fun long source matches_ => ?_⟩
    obtain ⟨first, member⟩ := List.exists_mem_of_ne_nil _ nonempty
    exact overflow long source ((matches_ first member).trans (same first member))

/-- Conversely, the right cookie and the next number are accepted. -/
theorem acceptNonce_fits (cookie : session.cookieIn = none ∧ nonce.cookie ≠ session.drawn.cookieOut ∨
      session.cookieIn = some nonce.cookie)
    (number : session.csnIn = none ∧ nonce.number &&& 0xffff00000000 = 0 ∨
      session.csnIn = some (some nonce.number)) :
    session.acceptNonce nonce = .returned (session.learn nonce) () := by
  have valid : session.validCookie nonce.cookie =
      ({ session with cookieIn := some nonce.cookie }, true) := by
    obtain ⟨unknown, foreign⟩ | known := cookie
    · simp [validCookie, unknown, foreign]
    · have same : ({ session with cookieIn := some nonce.cookie } : Session) = session := by
        rw [← known]
      rw [same]
      simp [validCookie, known]
  have validated : ({ session with cookieIn := some nonce.cookie } : Session).validateCsnIn
      nonce.number =
        .returned { session with cookieIn := some nonce.cookie, csnIn := some (some nonce.number) }
          () := by
    obtain ⟨unknown, zeros⟩ | known := number
    · simp [validateCsnIn, learnCsnIn, unknown, zeros]
    · have same : ({ session with
          cookieIn := some nonce.cookie, csnIn := some (some nonce.number) } : Session) =
            { session with cookieIn := some nonce.cookie } := by
        rw [← known]
      rw [same]
      simp [validateCsnIn, learnCsnIn, known]
  rw [acceptNonce, valid]
  dsimp only
  rw [validated]
  rfl

theorem unpackNonce_fits {client : PathClient} {packet : List UInt8}
    (packed : Nonce.unpack (packet.take nonceLength) = .ok nonce) (toServer : nonce.ToServer)
    (source : nonce.source = client.id) (accepted : session.acceptNonce nonce = .returned after ()) :
    session.unpackNonce client packet = .returned after nonce := by
  rw [unpackNonce, packed]
  dsimp only
  rw [if_neg (fun refused => refused.1 toServer), if_neg (not_not.mpr source), if_pos toServer,
    accepted]

end Session

/-- Every payload is a request to drop responder 2. -/
def droppingEnvironment : Environment :=
  .keyless
    (fun _ => some (.dict [(.str "type", .str "drop-responder"), (.str "id", .int 2)]))
    (fun _ _ _ => some []) []

/-- The initiator sends such a request. -/
def dropCall (cookie : Cookie) (number : Nat) : UnpackCall where
  client := ⟨.authenticated, initiatorAddress, some .initiator⟩
  packet := Nonce.pack cookie initiatorAddress serverAddress number ++ [0]
  rest := Session.new zeroDrawn []

theorem dropCall_nonce (cookie : Cookie) {number : Nat} (small : number < 2 ^ 48) :
    Nonce.unpack ((dropCall cookie number).packet.take nonceLength) =
      .ok ⟨cookie, initiatorAddress, serverAddress, number, small⟩ := by
  rw [dropCall, List.take_left' (Nonce.length_pack ..), Nonce.unpack_pack _ _ _ small]

theorem dropCall_serverNonce? (cookie : Cookie) {number : Nat} (small : number < 2 ^ 48) :
    (dropCall cookie number).serverNonce? =
      some ⟨cookie, initiatorAddress, serverAddress, number, small⟩ :=
  UnpackCall.serverNonce?_eq_some.mpr ⟨dropCall_nonce cookie small, rfl⟩

theorem dropCall_accepted {session : Session} {cookie : Cookie} {number : Nat}
    (small : number < 2 ^ 48)
    (cookieFits : session.cookieIn = none ∧ cookie ≠ session.drawn.cookieOut ∨
      session.cookieIn = some cookie)
    (numberFits : session.csnIn = none ∧ number &&& 0xffff00000000 = 0 ∨
      session.csnIn = some (some number)) :
    ∃ after message, (dropCall cookie number).unpack droppingEnvironment session =
        .returned after message ∧ after.drawn = session.drawn ∧
      after.cookieIn = some cookie ∧ after.csnIn = some (Session.expecting (number + 1)) := by
  have accepted : ((dropCall cookie number).resume session).acceptNonce
      ⟨cookie, initiatorAddress, serverAddress, number, small⟩ =
        .returned (((dropCall cookie number).resume session).learn
          ⟨cookie, initiatorAddress, serverAddress, number, small⟩) () :=
    Session.acceptNonce_fits cookieFits numberFits
  have passed : ((dropCall cookie number).resume session).unpackNonce
      (dropCall cookie number).client (dropCall cookie number).packet =
        .returned (((dropCall cookie number).resume session).learn
          ⟨cookie, initiatorAddress, serverAddress, number, small⟩)
          ⟨cookie, initiatorAddress, serverAddress, number, small⟩ :=
    Session.unpackNonce_fits (dropCall_nonce cookie small) rfl rfl accepted
  have long : ¬ (dropCall cookie number).packet.length < dataLengthMin := by
    simp [dropCall, dataLengthMin, nonceLength]
  have returned : (dropCall cookie number).unpack droppingEnvironment session =
      .returned (((dropCall cookie number).resume session).learn
        ⟨cookie, initiatorAddress, serverAddress, number, small⟩).readBox.1
        (.dropResponder .lowest .dropByInitiator) := by
    rw [UnpackCall.unpack, IncomingMessage.unpack, if_neg long, passed]
    rfl
  refine ⟨_, _, returned, ?_, ?_, ?_⟩
  · simp [Session.learn, UnpackCall.resume]
  · simp [Session.learn]
  · rw [Session.readBox_csnIn]
    exact congrArg some (SequenceNumber.increment_some small)

theorem Session.unpackAll_append (environment : Environment) (session : Session)
    (calls : List UnpackCall) (call : UnpackCall) :
    session.unpackAll environment (calls ++ [call]) =
      (session.unpackAll environment calls).bind fun middle =>
        middle.unpackAll environment [call] := by
  induction calls generalizing session with
  | nil => rfl
  | cons first calls ih =>
      rw [List.cons_append, Session.unpackAll, Session.unpackAll]
      cases first.unpack environment session with
      | raised after exception => rfl
      | returned after message => exact ih after

theorem Session.unpackAll_singleton {environment : Environment} {session after : Session}
    {call : UnpackCall} {message : IncomingMessage}
    (returned : call.unpack environment session = .returned after message) :
    session.unpackAll environment [call] = some after := by
  rw [Session.unpackAll, returned]
  rfl

/-- The requests with the numbers below a bound, all of which are accepted. -/
def dropCalls (count : Nat) : List UnpackCall := (List.range count).map (dropCall onesCookie)

theorem dropCalls_accepted {count : Nat} (bound : count ≤ 2 ^ 48) :
    ∃ session, (Session.new zeroDrawn []).unpackAll droppingEnvironment (dropCalls count) =
        some session ∧ session.drawn = zeroDrawn ∧
      (count = 0 ∧ session.cookieIn = none ∧ session.csnIn = none ∨
        session.cookieIn = some onesCookie ∧
          session.csnIn = some (Session.expecting count)) := by
  induction count with
  | zero => exact ⟨_, rfl, rfl, .inl ⟨rfl, rfl, rfl⟩⟩
  | succ count ih =>
      obtain ⟨session, ran, drawn, learned⟩ := ih (by omega)
      have small : count < 2 ^ 48 := by omega
      have cookieFits : session.cookieIn = none ∧ onesCookie ≠ session.drawn.cookieOut ∨
          session.cookieIn = some onesCookie := by
        obtain ⟨_, unknown, _⟩ | ⟨known, _⟩ := learned
        · rw [drawn]
          exact .inl ⟨unknown, by decide⟩
        · exact .inr known
      have numberFits : session.csnIn = none ∧ count &&& 0xffff00000000 = 0 ∨
          session.csnIn = some (some count) := by
        obtain ⟨rfl, _, unknown⟩ | ⟨_, known⟩ := learned
        · exact .inl ⟨unknown, rfl⟩
        · rw [known, Session.expecting, if_neg (by omega)]
          exact .inr rfl
      obtain ⟨after, message, returned, kept, cookie, number⟩ :=
        dropCall_accepted small cookieFits numberFits
      refine ⟨after, ?_, kept.trans drawn, .inr ⟨cookie, number⟩⟩
      rw [dropCalls, List.range_succ, List.map_append, List.map_singleton,
        Session.unpackAll_append]
      rw [dropCalls] at ran
      rw [ran, Option.bind_some]
      exact Session.unpackAll_singleton returned

theorem serverNonces_dropCalls {count : Nat} (bound : count ≤ 2 ^ 48) :
    (serverNonces (dropCalls count)).map Nonce.number = List.range count := by
  induction count with
  | zero => rfl
  | succ count ih =>
      have small : count < 2 ^ 48 := by omega
      rw [dropCalls, List.range_succ, List.map_append, serverNonces, List.filterMap_append,
        List.map_append]
      have earlier := ih (by omega)
      rw [dropCalls, serverNonces] at earlier
      rw [earlier]
      simp [dropCall_serverNonce? onesCookie small]

namespace Session

theorem no_replay_three_packets : ∃ session,
    (Session.new zeroDrawn []).unpackAll droppingEnvironment (dropCalls 3) = some session ∧
      (serverNonces (dropCalls 3)).map Nonce.number = [0, 1, 2] ∧
      session.NoReplay droppingEnvironment (dropCalls 3) := by
  obtain ⟨session, ran, _⟩ := dropCalls_accepted (by decide : 3 ≤ 2 ^ 48)
  exact ⟨session, ran, serverNonces_dropCalls (by decide),
    no_replay droppingEnvironment zeroDrawn [] (dropCalls 3) session ran⟩

/-- After the last number, a packet with another cookie is rejected for its
cookie. -/
theorem wrong_cookie_after_overflow : ∃ session,
    (Session.new zeroDrawn []).unpackAll droppingEnvironment (dropCalls (2 ^ 48)) = some session ∧
      2 ^ 48 - 1 ∈ (serverNonces (dropCalls (2 ^ 48))).map Nonce.number ∧
      ∃ after, (dropCall zeroDrawn.cookieOut 0).unpack droppingEnvironment session =
        .raised after (.messageError ("Invalid cookie: " ++ bytesStr zeroDrawn.cookieOut.1)) := by
  obtain ⟨session, ran, _, learned⟩ := dropCalls_accepted (le_refl (2 ^ 48))
  obtain ⟨impossible, _⟩ | ⟨known, _⟩ := learned
  · simp at impossible
  · refine ⟨session, ran, ?_, ?_⟩
    · rw [serverNonces_dropCalls (le_refl _)]
      exact List.mem_range.mpr (by decide)
    · have different : zeroDrawn.cookieOut ≠ onesCookie := by decide
      have long : ¬ (dropCall zeroDrawn.cookieOut 0).packet.length < dataLengthMin := by
        simp [dropCall, dataLengthMin, nonceLength]
      refine ⟨(dropCall zeroDrawn.cookieOut 0).resume session, ?_⟩
      rw [UnpackCall.unpack, IncomingMessage.unpack, if_neg long, Session.unpackNonce,
        dropCall_nonce zeroDrawn.cookieOut (by decide)]
      simp [Session.acceptNonce, Session.validCookie, UnpackCall.resume, known, different,
        dropCall, Nonce.ToServer, Address.type, serverAddress]

end Session

end SaltyRtcServer
