import FairMQ.Channels.Compatibility
import FairMQ.Channels.Endpoints
import FairMQ.Channels.Wire
import FairMQ.Data.Binary64
import FairMQ.Data.FirstMax
import FairMQ.Data.Keys
import FairMQ.Data.Ledger
import FairMQ.Data.MachineInt
import FairMQ.Data.MsgPack
import FairMQ.Data.Mutex
import FairMQ.Data.OrderedMap
import FairMQ.Data.Pattern
import FairMQ.Data.PropertyTree
import FairMQ.Data.Ranges
import FairMQ.Data.Rounding
import FairMQ.Data.Trace
import FairMQ.Data.TransitionSystem
import FairMQ.Data.UnorderedMap
import FairMQ.Data.Writes
import FairMQ.Device.Attach
import FairMQ.Device.Attempts
import FairMQ.Device.Binding
import FairMQ.Device.Delivery
import FairMQ.Device.Homogeneous
import FairMQ.Device.InputLoop
import FairMQ.Device.MultiTransport
import FairMQ.Device.Naming
import FairMQ.Device.PollIndex
import FairMQ.Device.Poller
import FairMQ.Device.Registry
import FairMQ.Device.Retry
import FairMQ.Device.SocketRates
import FairMQ.Devices.Multiplier
import FairMQ.Devices.SplitMerge
import FairMQ.EventManager.Subscriptions
import FairMQ.Ofi.Address
import FairMQ.Ofi.Pair
import FairMQ.Ofi.Socket
import FairMQ.Ofi.Waiting
import FairMQ.Options.Coherence
import FairMQ.Options.Inheritance
import FairMQ.Options.Parser
import FairMQ.Options.ProgOptions
import FairMQ.Options.Subopt
import FairMQ.Plugins.Control
import FairMQ.Plugins.DDS
import FairMQ.Plugins.Itinerary
import FairMQ.Plugins.Loading
import FairMQ.Plugins.Manager
import FairMQ.Plugins.Services
import FairMQ.Plugins.Settling
import FairMQ.Plugins.Shutdown
import FairMQ.Plugins.StaticEnd
import FairMQ.Plugins.StaticMode
import FairMQ.Plugins.StaticRun
import FairMQ.SchedulerFlpEpn.ConfGen
import FairMQ.SchedulerFlpEpn.EndToEnd
import FairMQ.SchedulerFlpEpn.Facility
import FairMQ.SchedulerFlpEpn.History
import FairMQ.SchedulerFlpEpn.NodeSplit
import FairMQ.SchedulerFlpEpn.Ranking
import FairMQ.SchedulerFlpEpn.Rounds
import FairMQ.SchedulerFlpEpn.Schedule
import FairMQ.SchedulerFlpEpn.Selection
import FairMQ.SchedulerFlpEpn.Sender
import FairMQ.SchedulerFlpEpn.Slots
import FairMQ.SchedulerFlpEpn.Statistics
import FairMQ.SchedulerFlpEpn.TimeFrame
import FairMQ.SchedulerFlpEpn.Trim
import FairMQ.SchedulerFlpEpn.View
import FairMQ.SchedulerFlpEpn.Wiring
import FairMQ.Shmem.Acknowledge
import FairMQ.Shmem.Cleanup
import FairMQ.Shmem.Message
import FairMQ.Shmem.Monitor
import FairMQ.Shmem.Ownership
import FairMQ.Shmem.Pointers
import FairMQ.Shmem.Rebuild
import FairMQ.Shmem.RegionIds
import FairMQ.Shmem.Regions
import FairMQ.Shmem.RoundTrip
import FairMQ.Shmem.Session
import FairMQ.Shmem.Socket
import FairMQ.Shmem.Transfer
import FairMQ.Shmem.World
import FairMQ.StateMachine.Callbacks
import FairMQ.StateMachine.Consistent
import FairMQ.StateMachine.Deadlock
import FairMQ.StateMachine.Machine
import FairMQ.StateMachine.Mailbox
import FairMQ.StateMachine.Subscribers
import FairMQ.StateMachine.Transitions
import FairMQ.StateQueue.Errors
import FairMQ.StateQueue.Machine
import FairMQ.StateQueue.Notifications
import FairMQ.Tools.RateLimit
import FairMQ.Transports.Framing
import FairMQ.Transports.Multipart
import FairMQ.Transports.Nanomsg
import FairMQ.Transports.RegionCallback
import FairMQ.Transports.Timeout
import FairMQ.Transports.UsedSize
import FairMQ.Transports.Zeromq
