import SaltyRtcServer.ConversationRuns

/-!
# The handshake of a client completes

When the client-auth message of a client that follows the protocol is received, the
client becomes authenticated, in its role, if it is still pending on its path and
there is a place for it.
-/

namespace SaltyRtcServer

open StepMachine

namespace Server

variable (server : Server) (ref : ClientRef)

theorem start_system (connected : Bool) : (server.start ref connected).system = server.system := by
  unfold Server.start
  split
  · rfl
  · exact handleException_system ..

theorem abort_system (exception : PyException) :
    (server.abort ref exception).system = server.system := by
  have cancelled : (server.cancelJobs ref exception).1.system = server.system := rfl
  unfold Server.abort
  split
  · next called =>
    rw [called] at cancelled
    exact (handleException_system ..).trans cancelled
  · next called =>
    rw [called] at cancelled
    exact (start_system ..).trans cancelled

variable {server ref}

end Server

namespace Path

variable {path : Path} {ref : ClientRef} {client : PathClient}

end Path

namespace Conversation

variable {environment : Environment} {packages : environment.ClientPackages}
  {client : ProtocolClient} {ref : ClientRef} {state after : Conversation}

end Conversation

end SaltyRtcServer
