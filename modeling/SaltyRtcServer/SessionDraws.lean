import SaltyRtcServer.ConversationRuns

/-!
# What is drawn for a connection

The session key, the cookie and the first number of the server are drawn once.
No message that is received, valid or not, changes them.
-/

namespace SaltyRtcServer

namespace Session

variable (environment : Environment) (session : Session)

theorem incrementCsnIn_drawn : session.incrementCsnIn.state.drawn = session.drawn := by
  unfold incrementCsnIn
  split <;> rfl

theorem validCookie_drawn (cookie : Cookie) :
    (session.validCookie cookie).1.drawn = session.drawn := by
  unfold validCookie
  split
  · split <;> rfl
  · rfl

theorem validateCsnIn_drawn (number : Nat) :
    (session.validateCsnIn number).state.drawn = session.drawn := by
  have learns : ∀ after csn, session.learnCsnIn number = .ok (after, csn) →
      after.drawn = session.drawn := by
    intro after csn learned
    unfold learnCsnIn at learned
    split at learned
    · cases learned
      rfl
    · split at learned
      · contradiction
      · cases learned
        rfl
  unfold validateCsnIn
  split
  · rfl
  · next learned => exact learns _ _ learned
  · next learned => split <;> exact learns _ _ learned

theorem acceptNonce_drawn (nonce : Nonce) :
    (session.acceptNonce nonce).state.drawn = session.drawn := by
  have cookie := session.validCookie_drawn nonce.cookie
  unfold acceptNonce
  split
  · next found =>
    rw [found] at cookie
    exact cookie
  · next middle found =>
    rw [found] at cookie
    have number := middle.validateCsnIn_drawn nonce.number
    split
    · next validated =>
      rw [validated] at number
      exact number.trans cookie
    · next last _ validated =>
      rw [validated] at number
      exact (last.incrementCsnIn_drawn.trans number).trans cookie

theorem unpackNonce_drawn (client : PathClient) (packet : List UInt8) :
    (session.unpackNonce client packet).state.drawn = session.drawn := by
  unfold unpackNonce
  split
  · rfl
  · next nonce _ =>
    have accepts := session.acceptNonce_drawn nonce
    split
    · rfl
    · split
      · split <;> rfl
      · split
        · split
          · next accepted =>
            rw [accepted] at accepts
            exact accepts
          · next accepted =>
            rw [accepted] at accepts
            exact accepts
        · rfl

theorem setClientKey_drawn (accepts : PublicKey → Bool) (key : PublicKey) :
    (session.setClientKey accepts key).1.drawn = session.drawn := by
  unfold setClientKey
  dsimp only
  split <;> rfl

theorem unpack_drawn (client : PathClient) (packet : List UInt8) :
    (IncomingMessage.unpack environment session client packet).state.drawn = session.drawn := by
  have passes := session.unpackNonce_drawn client packet
  unfold IncomingMessage.unpack
  split
  · rfl
  · split
    · next passed =>
      rw [passed] at passes
      exact passes
    · next middle nonce passed =>
      rw [passed] at passes
      split
      · rw [IncomingMessage.unpackToServer_state, readBox_drawn]
        exact passes
      · split <;> exact passes

theorem setKeepAliveInterval_drawn (interval : Nat) :
    (session.setKeepAliveInterval interval).drawn = session.drawn := by
  unfold setKeepAliveInterval
  split <;> rfl

theorem receive_drawn (client : PathClient) (frame : Frame) :
    (session.receive environment client frame).state.drawn = session.drawn := by
  cases frame with
  | text => rfl
  | binary packet => exact unpack_drawn ..

theorem handleMessage_drawn (subprotocol : SubProtocol) (handler : Handler)
    (message : IncomingMessage) :
    (session.handleMessage environment subprotocol handler message).1.drawn = session.drawn := by
  have chooses (session : Session) (key : Option PublicKey) :
      (session.chooseKey environment key).1.drawn = session.drawn :=
    (chooseKey_alike environment session key).drawn
  cases message with
  | clientHello key =>
      simp only [handleMessage]
      split
      · exact session.setClientKey_drawn ..
      · rfl
  | clientAuth message =>
      simp only [handleMessage]
      split
      · unfold handleClientAuth
        split
        · rfl
        · split
          · rfl
          · cases message.pingInterval with
            | none => exact chooses ..
            | some interval =>
                exact (chooses ..).trans (session.setKeepAliveInterval_drawn interval)
      · rfl
  | dropResponder | relay => rfl

end Session

theorem PacketServer.interpret_drawn (environment : Environment) (state : PacketServer)
    (ref : ClientRef) (frame : Frame) :
    (state.interpret environment ref frame).1.drawn = (state.session ref).drawn := by
  have receives := (state.session ref).receive_drawn environment (state.client ref) frame
  unfold PacketServer.interpret
  split
  · next received =>
    rw [received] at receives
    exact receives
  · next received =>
    rw [received] at receives
    exact (Session.handleMessage_drawn ..).trans receives

/-- What the server draws for the connection stays the same. -/
theorem Conversation.drawn_kept {environment : Environment}
    {packages : environment.ClientPackages} {client : ProtocolClient} {ref : ClientRef}
    {before after : Conversation} {action : Conversation.Action}
    (stepped : Conversation.step packages client ref before action = some after)
    (connected : before.handler ref ≠ .absent) :
    (after.session ref).drawn = (before.session ref).drawn := by
  cases action with
  | others action =>
      simp only [Conversation.step] at stepped
      split at stepped
      · next others =>
        obtain ⟨server, moved, rfl⟩ := Option.map_eq_some_iff.mp stepped
        obtain ⟨⟨same, _⟩ | ⟨_, _, _, _, absent, _⟩, _⟩ := Conversation.others_session others moved
        · exact congrArg Session.drawn same
        · exact absurd absent connected
      · contradiction
  | send request =>
      simp only [Conversation.step, Conversation.send] at stepped
      split at stepped
      · contradiction
      · split at stepped
        · cases stepped
          rfl
        · contradiction
  | deliver =>
      simp only [Conversation.step] at stepped
      split at stepped
      · contradiction
      · next packet rest _ =>
        obtain ⟨server, received, rfl⟩ := Option.map_eq_some_iff.mp stepped
        simp only [PacketServer.receive] at received
        obtain ⟨_, _, rfl⟩ := Option.map_eq_some_iff.mp received
        exact (congrArg Session.drawn (Function.update_self ..)).trans
          (PacketServer.interpret_drawn environment before.server ref (.binary packet))

end SaltyRtcServer
