import AviNet.Lib.Machine
import AviNet.Lib.PathDoc
import AviNet.Json
import AviNet.DeepMerge
import AviNet.Context
import AviNet.Lib.Knowledge
import AviNet.Replication.Network
import AviNet.ClockHistory
import AviNet.MergeOrder
import AviNet.Replication.Convergence
import AviNet.Error
import AviNet.Lib.PathEdit
import AviNet.Path
import AviNet.ContextApi
import AviNet.Replication.Deletion
import AviNet.Runtime.Handlers
import AviNet.Runtime.StreamIsolation
import AviNet.Runtime.StreamTable
import AviNet.PathWrites
import AviNet.Runtime.LocalClients
import AviNet.Runtime.StreamPair
import AviNet.Lib.Program
import AviNet.Protocol
import AviNet.Bridge.Uplink
import AviNet.Runtime.Subscriptions
import AviNet.Bridge.Backing
import AviNet.Runtime.Pipeline
import AviNet.Runtime.Frames
import AviNet.Runtime.StreamTurn
import AviNet.Runtime.Connections
import AviNet.Runtime.StreamProtocol
import AviNet.Runtime.StreamEnds
import AviNet.Bridge.ContextTopic
import AviNet.Lib.Broadcast
import AviNet.Bridge.Downlink
import AviNet.Bridge.SessionStreams
import AviNet.Bridge.Isolation
import AviNet.Bridge.MeshStreams
import AviNet.Device.StreamDispatcher
import AviNet.Device.StreamHandlers
import AviNet.Lib.Exchange
import AviNet.Replication.ContextPair
import AviNet.Lib.SharedQueue
import AviNet.Embedded.CApi
import AviNet.Embedded.Instances
import AviNet.ClockLattice
import AviNet.MergeLaws
import AviNet.PathLens
import AviNet.Runtime.ContextCalls
import AviNet.Runtime.OpenRequests
import AviNet.Lib.Reader
import AviNet.Wire
import AviNet.Embedded.Client
import AviNet.Embedded.Packets
import AviNet.Runtime.StreamCodec
import AviNet.Embedded.Arguments
import AviNet.Embedded.Deliveries
import AviNet.Embedded.Borrows
import AviNet.Device.StreamReplies
import AviNet.Bridge.SensorEntries
import AviNet.Serde
import AviNet.Device.Capability
import AviNet.Device.Query
import AviNet.Bridge.Datagrams
import AviNet.Device.SubscriptionHandlers
import AviNet.MergeLookup
import AviNet.Lib.Guards
import AviNet.Device.Callbacks
import AviNet.Lib.History
import AviNet.Runtime.ContextTurns
import AviNet.Replication.Mesh
import AviNet.Replication.GrowOnly
import AviNet.Replication.PathCalls
import AviNet.Runtime.Turns
import AviNet.Runtime.NodeTasks
import AviNet.Lib.OncePer
import AviNet.Runtime.Discovery
import AviNet.Bridge.EndToEnd
import AviNet.Replication.Documents
import AviNet.Replication.Provenance
import AviNet.Lib.Replicas
import AviNet.Replication.AntiEntropy
import AviNet.Lib.Asks
import AviNet.Device.EventLoops
import AviNet.Device.CoreId
import AviNet.Device.Announcements
import AviNet.Device.StreamNetwork
import AviNet.Device.StreamCalls
