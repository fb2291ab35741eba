import SaltyRtcServer.HandedNumbers
import SaltyRtcServer.ServerMessages
import SaltyRtcServer.SessionDraws

/-!
# What the client is sent

The packets that are handed to the connection of a client, from its opening on.
Whichever coroutine sends a message, the client can read it, and the numbers of
the messages of the server only grow.
-/

namespace SaltyRtcServer

open StepMachine

/-- A message that was handed to the connection, the value of `csn_out` before, and its packet,
if it could be packed. -/
structure HandedPacket where
  message : OutgoingMessage
  number : SequenceNumber
  packet : Option (List UInt8)

/-- A conversation with what was handed to the connection of the client. -/
structure Downlink where
  conversation : Conversation
  packets : List HandedPacket

namespace HandedPacket

variable {environment : Environment} (packages : environment.ClientPackages)

/-- A relayed packet is passed on as it is.  A message of the server is read by the client as it
was created, unless its own payload cannot be packed. -/
def Faithful (client : ProtocolClient) (drawn : Drawn) (handed : HandedPacket) : Prop :=
  match handed.message with
  | .relay packet => handed.packet = some packet
  | message => ∃ created number,
      message.create (packages.publicKey drawn.serverKey) (some client.cookie) = some created ∧
      handed.number = some number ∧
      (client.Unpackable packages drawn created number ∧ handed.packet = none ∨
        ∃ packet, handed.packet = some packet ∧
          client.Reads packages drawn created number packet)

/-- The number that a message of the server takes. -/
def number? (handed : HandedPacket) : Option Nat :=
  if handed.message.isRelay then none else handed.number

end HandedPacket

namespace Downlink

variable {environment : Environment} (packages : environment.ClientPackages)
  (client : ProtocolClient) (ref : ClientRef)

/-- The numbers of the messages of the server, in the order in which they were handed over. -/
def numbers (state : Downlink) : List Nat := state.packets.filterMap HandedPacket.number?

/-- What a step hands to the connection. -/
def handedBy (before after : Conversation) : List HandedPacket :=
  let number := before.server.server.csnOut ref
  let earlier := before.server.server.handedTo ref
  ((after.server.server.handedTo ref).drop earlier.length).map fun message =>
    ⟨message, number, (after.session ref).packet packages number (after.peer ref) message⟩

/-- Before the connection is opened, nothing belongs to it. -/
def step (state : Downlink) (action : Conversation.Action) : Option Downlink :=
  (Conversation.step packages client ref state.conversation action).map fun after =>
    { conversation := after
      packets :=
        (if state.conversation.handler ref = .absent then [] else state.packets) ++
          handedBy packages ref state.conversation after }

def machine : Machine Downlink Conversation.Action where
  initial state :=
    (Conversation.machine packages client ref).initial state.conversation ∧ state.packets = []
  step := step packages client ref

variable {packages client ref} {before after state : Downlink} {action : Conversation.Action}

theorem conversation_reachable (reachable : (machine packages client ref).Reachable state) :
    (Conversation.machine packages client ref).Reachable state.conversation := by
  apply reachable.project Downlink.conversation
  · intro state initial
    exact initial.1
  · intro before after action _ _ stepped
    obtain ⟨conversation, moved, rfl⟩ := Option.map_eq_some_iff.mp stepped
    refine ⟨[action], ?_⟩
    rw [Machine.run_cons]
    change (Conversation.step packages client ref before.conversation action).bind _ = _
    rw [moved]
    rfl

/-- The numbers so far are below the counter, and every packet is faithful. -/
structure Sound (packages : environment.ClientPackages) (client : ProtocolClient)
    (ref : ClientRef) (state : Downlink) : Prop where
  small : ∀ value ∈ state.conversation.server.server.csnOut ref, value < 2 ^ 48
  below : ∀ number ∈ state.numbers,
    ∀ value ∈ state.conversation.server.server.csnOut ref, number < value
  increasing : state.numbers.Pairwise (· < ·)
  faithful : ∀ handed ∈ state.packets,
    handed.Faithful packages client (state.conversation.session ref).drawn

theorem sound_initial (initial : (machine packages client ref).initial state) :
    state.Sound packages client ref := by
  obtain ⟨⟨⟨⟨initiatorKey, number, created⟩, _⟩, _⟩, empty⟩ := initial
  have numbers : state.numbers = [] := by rw [Downlink.numbers, empty]; rfl
  constructor
  case small =>
    intro value first
    rw [created] at first
    cases first
    decide
  case below => simp [numbers]
  case increasing => simp [numbers]
  case faithful => simp [empty]

end Downlink

/-- What packing a message of the server does to the counter. -/
theorem OutgoingMessage.pack_own {message : OutgoingMessage} (own : message.isRelay = false)
    (peer : PathClient) (csnOut : SequenceNumber) :
    (message.pack peer csnOut).1 = csnOut.increment ∧
      ((message.pack peer csnOut).2 = .ok () → ∃ number, csnOut = some number ∧
        (message.encrypted = true → peer.state = .authenticated)) := by
  unfold OutgoingMessage.pack
  rw [if_neg (by simp [own])]
  cases csnOut with
  | none => exact ⟨rfl, by simp⟩
  | some number =>
      rw [if_neg (by simp)]
      split
      · exact ⟨rfl, by simp⟩
      · split
        · exact ⟨rfl, by simp⟩
        · next allowed =>
          refine ⟨rfl, fun _ => ⟨number, rfl, fun encrypted => ?_⟩⟩
          by_contra unauthenticated
          exact allowed ⟨encrypted, unauthenticated⟩

/-- A counter that was incremented is higher. -/
theorem SequenceNumber.increment_above {csn : SequenceNumber}
    (small : ∀ value ∈ csn, value < 2 ^ 48) :
    ∀ next ∈ csn.increment, ∃ value, csn = some value ∧ next = value + 1 := by
  intro next incremented
  cases csn with
  | none => contradiction
  | some value =>
      rw [increment_some (small value rfl)] at incremented
      split at incremented
      · contradiction
      · cases incremented
        exact ⟨value, rfl, rfl⟩

namespace Downlink

variable {environment : Environment} {packages : environment.ClientPackages}
  {client : ProtocolClient} {ref : ClientRef}

section Steps

variable {before after : Conversation} {action : Conversation.Action}

theorem conversation_packs
    (stepped : Conversation.step packages client ref before action = some after) :
    ∃ action, Server.Packs before.server.server action after.server.server := by
  cases action with
  | others action =>
      simp only [Conversation.step] at stepped
      split at stepped
      · obtain ⟨server, moved, rfl⟩ := Option.map_eq_some_iff.mp stepped
        exact ⟨_, Server.packs_of_step (PacketServer.step_server moved)⟩
      · contradiction
  | send request =>
      simp only [Conversation.step, Conversation.send] at stepped
      split at stepped
      · contradiction
      · split at stepped
        · cases stepped
          exact ⟨.taskStart, .quiet (.refl _)⟩
        · contradiction
  | deliver =>
      simp only [Conversation.step] at stepped
      split at stepped
      · contradiction
      · next packet rest _ =>
        obtain ⟨server, received, rfl⟩ := Option.map_eq_some_iff.mp stepped
        have moved : PacketServer.step environment before.server (.receive ref (.binary packet)) =
            some server := received
        exact ⟨_, Server.packs_of_step (PacketServer.step_server moved)⟩

theorem handedBy_of_same (same : after.server.server.handedTo ref =
    before.server.server.handedTo ref) : handedBy packages ref before after = [] := by
  simp [handedBy, same]

theorem handedBy_of_appended (packages : environment.ClientPackages) {message : OutgoingMessage}
    (appended :
      after.server.server.handedTo ref = before.server.server.handedTo ref ++ [message]) :
    handedBy packages ref before after =
      [⟨message, before.server.server.csnOut ref, (after.session ref).packet packages
        (before.server.server.csnOut ref) (after.peer ref) message⟩] := by
  simp [handedBy, appended]

/-- What one step does to the counter of the connection and hands to it. -/
inductive HandStep (packages : environment.ClientPackages) (ref : ClientRef)
    (before after : Conversation) : Prop
  | quiet : after.server.server.csnOut ref = before.server.server.csnOut ref →
      handedBy packages ref before after = [] → HandStep packages ref before after
  | opened {csn : Nat} : before.handler ref = .absent → csn < 2 ^ 32 →
      after.server.server.csnOut ref = some csn → handedBy packages ref before after = [] →
      HandStep packages ref before after
  | failed : after.server.server.csnOut ref = (before.server.server.csnOut ref).increment →
      handedBy packages ref before after = [] → HandStep packages ref before after
  | relayed (packet : List UInt8) :
      after.server.server.csnOut ref = before.server.server.csnOut ref →
      handedBy packages ref before after =
        [⟨.relay packet, before.server.server.csnOut ref, some packet⟩] →
      HandStep packages ref before after
  | sent {message : OutgoingMessage} {number : Nat} : message.isRelay = false →
      before.server.server.csnOut ref = some number →
      (message.encrypted = true → (after.peer ref).state = .authenticated) →
      after.server.server.csnOut ref = SequenceNumber.increment (some number) →
      handedBy packages ref before after =
        [⟨message, some number, (after.session ref).packet packages (some number) (after.peer ref)
          message⟩] →
      HandStep packages ref before after

theorem handStep_of_step
    (stepped : Conversation.step packages client ref before action = some after) :
    HandStep packages ref before after := by
  obtain ⟨action, packs⟩ := conversation_packs stepped
  cases packs with
  | quiet quiet =>
      exact .quiet (congrFun quiet.csnOut ref) (handedBy_of_same (quiet.handedTo ref))
  | @connected mover csn connects absent small csnOut history =>
      have same : after.server.server.handedTo ref = before.server.server.handedTo ref :=
        congrArg (List.filterMap (Event.sent? ref)) history
      by_cases isRef : mover = ref
      · subst isRef
        exact .opened absent small (by rw [csnOut, Function.update_self]) (handedBy_of_same same)
      · exact .quiet (by rw [csnOut, Function.update_of_ne (Ne.symm isRef)])
          (handedBy_of_same same)
  | @packed mover message packed =>
      have appended := packed.handedTo ref
      by_cases isRef : mover = ref
      · subst isRef
        have csnOut := congrFun packed.csnOut mover
        rw [Function.update_self] at csnOut
        cases own : message.isRelay with
        | true =>
            obtain ⟨packet, rfl⟩ : ∃ packet, message = .relay packet := by
              cases message <;> first | exact ⟨_, rfl⟩ | contradiction
            rw [OutgoingMessage.pack_relay] at csnOut appended
            rw [if_pos ⟨rfl, rfl⟩] at appended
            exact .relayed packet csnOut (handedBy_of_appended packages appended)
        | false =>
            obtain ⟨increments, number⟩ := OutgoingMessage.pack_own own (after.peer mover)
              (before.server.server.csnOut mover)
            by_cases packs : (message.pack (after.peer mover)
                (before.server.server.csnOut mover)).2 = .ok ()
            · obtain ⟨number, isNumber, encrypted⟩ := number packs
              rw [if_pos ⟨rfl, packs⟩] at appended
              have handed := handedBy_of_appended packages appended
              rw [isNumber] at handed
              exact .sent own isNumber encrypted
                (csnOut.trans (increments.trans (by rw [isNumber]))) handed
            · rw [if_neg fun both => packs both.2, List.append_nil] at appended
              exact .failed (csnOut.trans increments) (handedBy_of_same appended)
      · rw [if_neg fun both => isRef both.1.symm, List.append_nil] at appended
        refine .quiet ?_ (handedBy_of_same appended)
        rw [packed.csnOut, Function.update_of_ne (Ne.symm isRef)]

end Steps

section Runs

variable {before after state : Downlink} {action : Conversation.Action}

/-- The message of a step is read by the client. -/
theorem faithful_sent {conversation : Conversation} {message : OutgoingMessage} {number : Nat}
    (sound : conversation.Sound packages client ref) (small : number < 2 ^ 48)
    (own : message.isRelay = false)
    (known : message.encrypted = true → (conversation.peer ref).state = .authenticated) :
    HandedPacket.Faithful packages client (conversation.session ref).drawn
      ⟨message, some number, (conversation.session ref).packet packages (some number)
        (conversation.peer ref) message⟩ := by
  obtain ⟨created, isCreated, outcome⟩ := Session.packet_reads small own fun encrypted =>
    have authenticated := known encrypted
    ⟨authenticated, sound.boxed (.inr authenticated), sound.acquainted authenticated⟩
  unfold HandedPacket.Faithful
  split
  · next isRelay =>
    rw [show message = _ from isRelay] at own
    contradiction
  · exact ⟨created, number, isCreated, rfl, outcome⟩

/-- What was handed to the connection before a step. -/
def kept (ref : ClientRef) (state : Downlink) : List HandedPacket :=
  if state.conversation.handler ref = .absent then [] else state.packets

theorem kept_sublist (ref : ClientRef) (state : Downlink) :
    (state.kept ref).Sublist state.packets := by
  unfold kept
  split
  · exact List.nil_sublist _
  · exact .refl _

theorem Sound.step (sound : before.Sound packages client ref)
    (conversation : after.conversation.Sound packages client ref)
    (stepped : step packages client ref before action = some after) :
    after.Sound packages client ref := by
  obtain ⟨next, moved, rfl⟩ := Option.map_eq_some_iff.mp stepped
  have keptNumbers : ((before.kept ref).filterMap HandedPacket.number?).Sublist before.numbers :=
    (before.kept_sublist ref).filterMap _
  have increasing := sound.increasing.sublist keptNumbers
  have below (number : Nat) (mem : number ∈ (before.kept ref).filterMap HandedPacket.number?) :=
    sound.below number (keptNumbers.mem mem)
  have faithful (handed : HandedPacket) (mem : handed ∈ before.kept ref) :
      handed.Faithful packages client (next.session ref).drawn := by
    have connected : before.conversation.handler ref ≠ .absent := by
      intro absent
      simp [kept, absent] at mem
    rw [Conversation.drawn_kept moved connected]
    exact sound.faithful handed ((before.kept_sublist ref).mem mem)
  have above := SequenceNumber.increment_above sound.small
  cases handStep_of_step moved with
  | quiet csnOut handed =>
      constructor <;> simp only [Downlink.numbers, handed, List.append_nil, csnOut]
      case small => exact sound.small
      case below => exact below
      case increasing => exact increasing
      case faithful => exact faithful
  | opened absent small csnOut handed =>
      have empty : before.kept ref = [] := if_pos absent
      constructor <;> simp only [Downlink.numbers, handed, List.append_nil, csnOut]
      case small =>
        intro value isFirst
        cases isFirst
        exact small.trans (by decide)
      case below =>
        change ∀ number ∈ (before.kept ref).filterMap _, _
        simp [empty]
      case increasing => exact increasing
      case faithful => exact faithful
  | failed csnOut handed =>
      constructor <;> simp only [Downlink.numbers, handed, List.append_nil, csnOut]
      case small => exact SequenceNumber.increment_small sound.small
      case below =>
        intro number mem value incremented
        obtain ⟨previous, was, rfl⟩ := above value incremented
        exact Nat.lt_succ_of_lt (below number mem previous was)
      case increasing => exact increasing
      case faithful => exact faithful
  | relayed packet csnOut handed =>
      constructor <;> simp only [Downlink.numbers, handed, csnOut, List.filterMap_append,
        HandedPacket.number?, List.filterMap_cons, OutgoingMessage.isRelay, if_true,
        List.filterMap_nil, List.append_nil]
      case small => exact sound.small
      case below => exact below
      case increasing => exact increasing
      case faithful =>
        intro handed mem
        obtain mem | isLast := List.mem_append.mp mem
        · exact faithful handed mem
        · rw [List.mem_singleton.mp isLast]
          rfl
  | @sent message number own was known csnOut handed =>
      have small : number < 2 ^ 48 := sound.small number was
      constructor <;> simp only [Downlink.numbers, handed, csnOut, List.filterMap_append,
        HandedPacket.number?, List.filterMap_cons, own, Bool.false_eq_true, if_false,
        List.filterMap_nil]
      case small => exact SequenceNumber.increment_small (by rintro _ ⟨⟩; exact small)
      case below =>
        intro earlier mem value incremented
        obtain ⟨_, ⟨⟩, rfl⟩ := SequenceNumber.increment_above (by rintro _ ⟨⟩; exact small) value
          incremented
        obtain mem | isLast := List.mem_append.mp mem
        · exact Nat.lt_succ_of_lt (below earlier mem number was)
        · rw [List.mem_singleton.mp isLast]
          exact Nat.lt_succ_self number
      case increasing =>
        rw [List.pairwise_append]
        refine ⟨increasing, List.pairwise_singleton .., fun earlier mem last isLast => ?_⟩
        rw [List.mem_singleton.mp isLast]
        exact below earlier mem number was
      case faithful =>
        intro handed mem
        obtain mem | isLast := List.mem_append.mp mem
        · exact faithful handed mem
        · rw [List.mem_singleton.mp isLast]
          exact faithful_sent conversation small own known

theorem sound_of_reachable (reachable : (machine packages client ref).Reachable state) :
    state.Sound packages client ref := by
  refine reachable.invariant _ (fun state initial => sound_initial initial) ?_
  intro before after action reached _ sound stepped
  have reachedAfter : (machine packages client ref).Reachable after :=
    .next action reached trivial stepped
  exact sound.step (Conversation.sound_of_reachable (conversation_reachable reachedAfter)) stepped

/-- Whatever all others do: every packet that was handed to the connection of the client is the
packet that was relayed to it, or the client reads it as the message of the server that was
created, and the numbers of these messages grow. -/
theorem delivered (client : ProtocolClient) (ref : ClientRef)
    (reachable : (machine packages client ref).Reachable state) :
    state.numbers.Pairwise (· < ·) ∧ ∀ handed ∈ state.packets,
      handed.Faithful packages client (state.conversation.session ref).drawn :=
  ⟨(sound_of_reachable reachable).increasing, (sound_of_reachable reachable).faithful⟩

def authStart : Downlink := ⟨Conversation.authStart, []⟩

/-- A responder is greeted and authenticated. -/
def authSchedule : List Conversation.Action := Conversation.authSchedule ++ [.deliver]

set_option maxRecDepth 10000 in
theorem authSchedule_reaches : ∃ state hello auth,
    (machine Conversation.authPackages Conversation.authClient 0).run authStart authSchedule =
        some state ∧
      state.packets = [⟨.serverHello, some 0, some hello⟩,
        ⟨.serverAuthResponder ⟨0x02, by decide⟩ false, some 1, some auth⟩] :=
  ⟨_, _, _, rfl, rfl⟩

/-- The client reads the server-hello message, and then the server-auth message, which is
encrypted and has signed keys. -/
theorem delivered_serverAuth : ∃ (state : Downlink) (hello auth : List UInt8),
    state.packets = [⟨.serverHello, some 0, some hello⟩,
        ⟨.serverAuthResponder ⟨0x02, by decide⟩ false, some 1, some auth⟩] ∧
      state.numbers.Pairwise (· < ·) ∧ ∀ handed ∈ state.packets,
        HandedPacket.Faithful Conversation.authPackages Conversation.authClient
          (state.conversation.session 0).drawn handed := by
  obtain ⟨state, hello, auth, runs, packets⟩ := authSchedule_reaches
  have initial : (machine Conversation.authPackages Conversation.authClient 0).initial authStart :=
    ⟨Conversation.authStart_initial, rfl⟩
  exact ⟨state, hello, auth, packets, delivered Conversation.authClient 0
    (Machine.reachable_of_run initial authSchedule runs)⟩

end Runs

end Downlink

end SaltyRtcServer
