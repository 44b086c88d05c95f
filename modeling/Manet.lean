import Manet.Flow.Prog
import Manet.Flow.Consumer
import Manet.Bytes.Network
import Manet.Bytes.Percent
import Manet.Utils.Hexdump
import Manet.Net.Dial
import Manet.Net.Script
import Manet.Net.Tape
import Manet.Net.Registry
import Manet.Net.Epoll
import Manet.Net.ScriptedLinux
import Manet.Net.FStack
import Manet.Net.ScriptedFStack
import Manet.Reactor.Buffer
import Manet.Transport.Endpoint
import Manet.Transport.Tls
import Manet.Protocol.Handlers
import Manet.Protocol.WebSocketFrame
import Manet.Protocol.Fragmentation
import Manet.Protocol.WebSocketHandshake
import Manet.Protocol.Base64
import Manet.Protocol.WebSocketSession
import Manet.Protocol.ClientFrames
import Manet.Protocol.ResponseLines
import Manet.Protocol.ResponseFraming
import Manet.Protocol.ResponseBounds
import Manet.Protocol.HeaderCase
import Manet.Protocol.HandshakeAgreement
import Manet.Protocol.ServerFrames
import Manet.Protocol.WebSocketStream
import Manet.Protocol.WebSocketMessages
import Manet.Protocol.ServerStream
import Manet.Protocol.ControlFrames
import Manet.Reactor.Connection
import Manet.Reactor.Turns
import Manet.Reactor.History
import Manet.Reactor.Step
import Manet.Reactor.Windows
import Manet.Reactor.Paths
import Manet.Reactor.Machine
import Manet.Reactor.Lifecycle
import Manet.Reactor.Phase
import Manet.Reactor.Ownership
import Manet.Reactor.Interest
import Manet.Reactor.Settling
import Manet.Reactor.Quiet
import Manet.Reactor.Resuming
import Manet.Reactor.Calls
import Manet.Reactor.Retry
import Manet.Reactor.Flushing
import Manet.Reactor.Overflow
import Manet.Reactor.Draining
import Manet.Reactor.Termination
import Manet.Reactor.Streams
import Manet.Reactor.Upgrade
import Manet.Reactor.ClosingHandshake
import Manet.Reactor.Loop
import Manet.Reactor.Staleness
import Manet.Reactor.Shutdown
import Manet.Reactor.Tracking
import Manet.Reactor.Worlds
import Manet.Reactor.Registration
import Manet.Reactor.EpollLoop
import Manet.Reactor.FStackLoop
import Manet.Reactor.Conservation
import Manet.Reactor.Delivery
