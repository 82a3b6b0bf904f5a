import TurnBasedGame.Kernel.Slice
import TurnBasedGame.Kernel.View
import TurnBasedGame.Kernel.Word
import TurnBasedGame.Kernel.Transition
import TurnBasedGame.Kernel.Composition
import TurnBasedGame.Kernel.Progress
import TurnBasedGame.Kernel.Framing
import TurnBasedGame.Kernel.Log
import TurnBasedGame.Kernel.Loop
import TurnBasedGame.Server.Errors
import TurnBasedGame.Server.Packet
import TurnBasedGame.Server.Framer
import TurnBasedGame.Server.FramerRuns
import TurnBasedGame.Server.PushTermination
import TurnBasedGame.Server.StreamReassembly
import TurnBasedGame.Server.PacketIntegrity
import TurnBasedGame.Server.Game
import TurnBasedGame.Server.Server
import TurnBasedGame.Server.ServerMoves
import TurnBasedGame.Server.ServerInvariant
import TurnBasedGame.Server.PacketSafety
import TurnBasedGame.Server.Membership
import TurnBasedGame.Server.MembershipRace
import TurnBasedGame.Server.SessionRefinement
import TurnBasedGame.Server.GameCreation
import TurnBasedGame.Server.GameChannel
import TurnBasedGame.Server.GameStateSend
import TurnBasedGame.Server.BroadcastLoop
import TurnBasedGame.Server.Authentication
import TurnBasedGame.Server.AfterDisconnect
import TurnBasedGame.Server.Teardown
import TurnBasedGame.Server.Injection
import TurnBasedGame.Server.Broadcast
import TurnBasedGame.Server.Identifiers
import TurnBasedGame.Server.SplitServer
import TurnBasedGame.Server.MembershipReplies
import TurnBasedGame.Server.Connection
import TurnBasedGame.Server.RejectedHeader
import TurnBasedGame.Server.FramerBounds
import TurnBasedGame.Server.RoundTrip
import TurnBasedGame.Server.EndOfStream
import TurnBasedGame.Server.Goroutines
import TurnBasedGame.Server.Process
import TurnBasedGame.Server.StreamRuns
import TurnBasedGame.Server.Pipeline
import TurnBasedGame.Server.Wire
import TurnBasedGame.Server.Conversation
import TurnBasedGame.Server.ReaderEnd
import TurnBasedGame.Server.Quiescence
import TurnBasedGame.Server.Settling
import TurnBasedGame.Server.Crashes
import TurnBasedGame.Server.Delivery
import TurnBasedGame.Server.Registry
import TurnBasedGame.Server.Shutdown
import TurnBasedGame.Web.DisplayDriver
import TurnBasedGame.Web.StageCoverage
import TurnBasedGame.Web.Screen
import TurnBasedGame.Web.Game
