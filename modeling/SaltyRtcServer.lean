import SaltyRtcServer.PathRegistry
import SaltyRtcServer.ResponderSlots
import SaltyRtcServer.PathConsistency
import SaltyRtcServer.MessageOrder
import SaltyRtcServer.Presence
import SaltyRtcServer.ServerAuthFirst
import SaltyRtcServer.Packing
import SaltyRtcServer.IncomingNonces
import SaltyRtcServer.AuthenticationGate
import SaltyRtcServer.RelayIsolation
import SaltyRtcServer.RelayOutcome
import SaltyRtcServer.JobOrder
import SaltyRtcServer.SpliceDeletion
import SaltyRtcServer.IntSynthesis
import SaltyRtcServer.BoundedStrings
import SaltyRtcServer.ConstraintMerge
import SaltyRtcServer.HashSynthesis
import SaltyRtcServer.KeySynthesis
import SaltyRtcServer.ToSplice
import SaltyRtcServer.Concatenation
import SaltyRtcServer.SpliceDict
import SaltyRtcServer.ClientMessages
import SaltyRtcServer.TaskResults
import SaltyRtcServer.StopRequest
import SaltyRtcServer.HandlerCleanup
import SaltyRtcServer.FixedPrefix
import SaltyRtcServer.SubprotocolChoice
import SaltyRtcServer.Dependencies
import SaltyRtcServer.SymbolicConstraints
import SaltyRtcServer.UserString
import SaltyRtcServer.Shutdown
import SaltyRtcServer.EventNotices
import SaltyRtcServer.HandshakeCompletion
import SaltyRtcServer.Downlink
import SaltyRtcServer.Forgetting
import SaltyRtcServer.TableRuns
import SaltyRtcServer.WebSocketServer
import SaltyRtcServer.ReferenceReplacement
