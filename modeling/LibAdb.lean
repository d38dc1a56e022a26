import LibAdb.Execution.Activity
import LibAdb.Execution.Async
import LibAdb.Execution.Auth
import LibAdb.Execution.Batch
import LibAdb.Execution.Client
import LibAdb.Execution.Deadline
import LibAdb.Execution.Decoder
import LibAdb.Execution.DeviceAddress
import LibAdb.Execution.Encoder
import LibAdb.Execution.EventLoop
import LibAdb.Execution.Events
import LibAdb.Execution.FdConnection
import LibAdb.Execution.Fdevent
import LibAdb.Execution.FileSync
import LibAdb.Execution.Forward
import LibAdb.Execution.HandlePacket
import LibAdb.Execution.HostRequest
import LibAdb.Execution.HostService
import LibAdb.Execution.IOVector
import LibAdb.Execution.Incremental
import LibAdb.Execution.IncrementalUtils
import LibAdb.Execution.Install
import LibAdb.Execution.Lifecycle
import LibAdb.Execution.Listeners
import LibAdb.Execution.Loop
import LibAdb.Execution.Operation
import LibAdb.Execution.Outputs
import LibAdb.Execution.PriorityBlocks
import LibAdb.Execution.ProtocolString
import LibAdb.Execution.Registry
import LibAdb.Execution.Selection
import LibAdb.Execution.Server
import LibAdb.Execution.Session
import LibAdb.Execution.SmartSocket
import LibAdb.Execution.SocketSpec
import LibAdb.Execution.Sockets
import LibAdb.Execution.WeakPtr
import LibAdb.Library.Backlinks
import LibAdb.Library.BoundedQueue
import LibAdb.Library.Fragments
import LibAdb.Library.Programs
import LibAdb.Library.Reach
import LibAdb.Library.ShellWords
import LibAdb.Library.Store
import LibAdb.Library.Threads
import LibAdb.Library.Traces
import LibAdb.Library.Window
import LibAdb.Machine.Activity
import LibAdb.Machine.Allowed
import LibAdb.Machine.Async
import LibAdb.Machine.Basic
import LibAdb.Machine.Beliefs
import LibAdb.Machine.Binding
import LibAdb.Machine.Bundle
import LibAdb.Machine.Calls
import LibAdb.Machine.Client
import LibAdb.Machine.Close
import LibAdb.Machine.CloseAll
import LibAdb.Machine.Closing
import LibAdb.Machine.Decimal
import LibAdb.Machine.Decoder
import LibAdb.Machine.Devices
import LibAdb.Machine.Dispatch
import LibAdb.Machine.Environment
import LibAdb.Machine.Events
import LibAdb.Machine.FdConnection
import LibAdb.Machine.FileSync
import LibAdb.Machine.History
import LibAdb.Machine.IOVector
import LibAdb.Machine.Incremental
import LibAdb.Machine.Install
import LibAdb.Machine.Invariant
import LibAdb.Machine.Listeners
import LibAdb.Machine.Operation
import LibAdb.Machine.Packets
import LibAdb.Machine.ProtocolString
import LibAdb.Machine.Reconnect
import LibAdb.Machine.Refinement
import LibAdb.Machine.Registry
import LibAdb.Machine.Server
import LibAdb.Machine.Sessions
import LibAdb.Machine.Shell
import LibAdb.Machine.ShellPackets
import LibAdb.Machine.SmartSocket
import LibAdb.Machine.Stream
import LibAdb.Machine.Tasks
import LibAdb.Machine.Transfer
import LibAdb.Machine.Transports
import LibAdb.Objects.Client
import LibAdb.Objects.Events
import LibAdb.Objects.FileSync
import LibAdb.Objects.Install
import LibAdb.Objects.Looper
import LibAdb.Objects.Operation
import LibAdb.Objects.Packet
import LibAdb.Objects.Server
import LibAdb.Objects.Transport
import LibAdb.Theorems.Abort
import LibAdb.Theorems.Acknowledge
import LibAdb.Theorems.Address
import LibAdb.Theorems.Async
import LibAdb.Theorems.Banner
import LibAdb.Theorems.Batch
import LibAdb.Theorems.Closed
import LibAdb.Theorems.Connect
import LibAdb.Theorems.Copy
import LibAdb.Theorems.Credit
import LibAdb.Theorems.Dangling
import LibAdb.Theorems.Deadline
import LibAdb.Theorems.Deferred
import LibAdb.Theorems.Dispatch
import LibAdb.Theorems.Encoder
import LibAdb.Theorems.EventLoop
import LibAdb.Theorems.Exclusive
import LibAdb.Theorems.Expansion
import LibAdb.Theorems.Fdevent
import LibAdb.Theorems.FlowMode
import LibAdb.Theorems.Forwards
import LibAdb.Theorems.GiveUp
import LibAdb.Theorems.HostRequest
import LibAdb.Theorems.HostService
import LibAdb.Theorems.IOVector
import LibAdb.Theorems.Incoming
import LibAdb.Theorems.Incremental
import LibAdb.Theorems.IncrementalUtils
import LibAdb.Theorems.Isolation
import LibAdb.Theorems.KeyOrder
import LibAdb.Theorems.Lifecycle
import LibAdb.Theorems.Listeners
import LibAdb.Theorems.OfferedKey
import LibAdb.Theorems.Offline
import LibAdb.Theorems.Online
import LibAdb.Theorems.Open
import LibAdb.Theorems.Outgoing
import LibAdb.Theorems.Outputs
import LibAdb.Theorems.Overflow
import LibAdb.Theorems.Passthrough
import LibAdb.Theorems.Permission
import LibAdb.Theorems.PriorityBlocks
import LibAdb.Theorems.ProtocolString
import LibAdb.Theorems.Pull
import LibAdb.Theorems.Quoting
import LibAdb.Theorems.Registry
import LibAdb.Theorems.Request
import LibAdb.Theorems.Retire
import LibAdb.Theorems.Reverse
import LibAdb.Theorems.RoundTrip
import LibAdb.Theorems.Selection
import LibAdb.Theorems.SendWindow
import LibAdb.Theorems.Sessions
import LibAdb.Theorems.Shell
import LibAdb.Theorems.ShellStream
import LibAdb.Theorems.Slots
import LibAdb.Theorems.Stale
import LibAdb.Theorems.Stall
import LibAdb.Theorems.Streams
import LibAdb.Theorems.Subscribers
import LibAdb.Theorems.Table
import LibAdb.Theorems.Teardown
import LibAdb.Theorems.Vsock
import LibAdb.Theorems.WeakPtr
