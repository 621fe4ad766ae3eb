import LinuxNet.Lib.Machine
import LinuxNet.Lib.Ledger
import LinuxNet.Lib.OrderedSet
import LinuxNet.Lib.SlotTable
import LinuxNet.Lib.Window
import LinuxNet.Lib.Search
import LinuxNet.Lib.CopyBackward
import LinuxNet.Lib.BigEndian
import LinuxNet.Lib.Pipe
import LinuxNet.Buffer.Model
import LinuxNet.Buffer.Fifo
import LinuxNet.Buffer.Growth
import LinuxNet.Buffer.Framing
import LinuxNet.Buffer.Compaction
import LinuxNet.Buffer.Lines
import LinuxNet.Poller.Model
import LinuxNet.Poller.Registry
import LinuxNet.Poller.Failures
import LinuxNet.Poller.Active
import LinuxNet.Poller.Growth
import LinuxNet.Connection.Model
import LinuxNet.Connection.Stream
import LinuxNet.Connection.Close
import LinuxNet.Connection.Interest
import LinuxNet.Connection.Shutdown
import LinuxNet.Connection.Senders
import LinuxNet.Connection.Attached
import LinuxNet.Connection.Callbacks
import LinuxNet.Connection.WriteComplete
import LinuxNet.Connection.Receive
import LinuxNet.Connection.Link
import LinuxNet.Connection.Delivery
import LinuxNet.Connection.HalfClose
import LinuxNet.Connection.Refinement
import LinuxNet.Connection.Values
import LinuxNet.Connection.Overstock
import LinuxNet.Timer.Model
import LinuxNet.Timer.Ownership
import LinuxNet.Timer.Cancel
import LinuxNet.Timer.Stale
import LinuxNet.Timer.Calls
import LinuxNet.Timer.Arming
import LinuxNet.Timer.Pass
import LinuxNet.Timer.Schedule
import LinuxNet.Timer.Lateness
import LinuxNet.Timer.Rate
import LinuxNet.Server.Model
import LinuxNet.Server.Placement
import LinuxNet.Server.Life
import LinuxNet.Server.LifeCycle
import LinuxNet.Server.Table
import LinuxNet.Server.Stop
import LinuxNet.Server.Destructor
import LinuxNet.Server.Acceptor
import LinuxNet.Server.Backlog
import LinuxNet.Server.Settling
import LinuxNet.Udp.Model
import LinuxNet.Udp.Workers
import LinuxNet.Udp.Recovery
import LinuxNet.Udp.Pipeline
import LinuxNet.Connector.Model
import LinuxNet.Connector.Dispatch
import LinuxNet.Connector.Descriptors
import LinuxNet.Connector.Client
import LinuxNet.Connector.Reset
import LinuxNet.Connector.Silence
import LinuxNet.Connector.Backoff
import LinuxNet.Connector.Persistence
import LinuxNet.Connector.Disconnect
import LinuxNet.Loop.Model
import LinuxNet.Loop.Tasks
import LinuxNet.Loop.Wakeup
import LinuxNet.Loop.Thread
import LinuxNet.Loop.Drain
import LinuxNet.Loop.Pool
import LinuxNet.Address.GetList
import LinuxNet.Address.Equality
import LinuxNet.Address.Text
import LinuxNet.Udp.Socket
import LinuxNet.Udp.Service
