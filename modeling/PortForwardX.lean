import PortForwardX.Transition.Machine
import PortForwardX.Transition.Observed
import PortForwardX.Transition.Latest
import PortForwardX.Transition.Rank
import PortForwardX.Transition.Fairness
import PortForwardX.Transition.Component
import PortForwardX.Conduit.Path
import PortForwardX.Conduit.Pipe
import PortForwardX.Conduit.Slot
import PortForwardX.Conduit.Ledger
import PortForwardX.Conduit.Bag
import PortForwardX.Selection.Fallback
import PortForwardX.Platform.Socket
import PortForwardX.Net.Endpoint
import PortForwardX.Net.Resolver
import PortForwardX.Net.Refresh
import PortForwardX.Net.Candidates
import PortForwardX.Net.Targets
import PortForwardX.Tcp.Session
import PortForwardX.Tcp.Control
import PortForwardX.Tcp.Fidelity
import PortForwardX.Tcp.Teardown
import PortForwardX.Tcp.Pending
import PortForwardX.Tcp.Progress
import PortForwardX.Tcp.HalfClose
import PortForwardX.Tcp.Chain
import PortForwardX.Tcp.ChainProgress
import PortForwardX.Tcp.Process
import PortForwardX.Tcp.Completion
import PortForwardX.Tcp.Object
import PortForwardX.Tcp.Lifetime
import PortForwardX.TcpForwarder.State
import PortForwardX.TcpForwarder.Step
import PortForwardX.TcpForwarder.Move
import PortForwardX.TcpForwarder.Table
import PortForwardX.TcpForwarder.Sessions
import PortForwardX.TcpForwarder.Reaping
import PortForwardX.TcpForwarder.Sockets
import PortForwardX.TcpForwarder.Conservation
import PortForwardX.TcpForwarder.Rollback
import PortForwardX.TcpForwarder.Resolution
import PortForwardX.TcpForwarder.Shutdown
import PortForwardX.TcpForwarder.Waiting
import PortForwardX.TcpForwarder.Termination
import PortForwardX.TcpForwarder.Stop
import PortForwardX.TcpForwarder.Availability
import PortForwardX.TcpForwarder.Pairing
import PortForwardX.Udp.State
import PortForwardX.Udp.Step
import PortForwardX.Udp.Move
import PortForwardX.Udp.Frame
import PortForwardX.Udp.Table
import PortForwardX.Udp.Threads
import PortForwardX.Udp.Descriptors
import PortForwardX.Udp.Ownership
import PortForwardX.Udp.Relay
import PortForwardX.Udp.Attribution
import PortForwardX.Udp.Resolution
import PortForwardX.Udp.Identity
import PortForwardX.Udp.Isolation
import PortForwardX.Udp.Transparency
import PortForwardX.Udp.Reuse
import PortForwardX.Udp.Authenticity
import PortForwardX.Udp.Survival
import PortForwardX.Udp.DeadSession
import PortForwardX.Udp.IdleTest
import PortForwardX.Udp.Cleanups
import PortForwardX.Udp.Staleness
import PortForwardX.Udp.Custody
import PortForwardX.Udp.Conservation
import PortForwardX.Udp.Rollback
import PortForwardX.Udp.Shutdown
import PortForwardX.Udp.Termination
import PortForwardX.Udp.Availability
import PortForwardX.Udp.Voices
import PortForwardX.Chain.Step
import PortForwardX.Chain.Accounts
import PortForwardX.Chain.Replies
import PortForwardX.Forwarder.Atomicity
import PortForwardX.Forwarder.Resolution
import PortForwardX.Forwarder.Calls
import PortForwardX.Forwarder.Lifecycle
import PortForwardX.Forwarder.Outcomes
import PortForwardX.Forwarder.Termination
import PortForwardX.Forwarder.Refreshing
import PortForwardX.Program.Options
import PortForwardX.Program.Main
import PortForwardX.Program.Lifecycle
import PortForwardX.Program.Families
import PortForwardX.Program.Shutdown
