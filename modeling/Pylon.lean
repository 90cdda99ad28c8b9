import Pylon.Lib.Edge
import Pylon.Redis.Scripts
import Pylon.Redis.PresenceEdges
import Pylon.Lib.Roster
import Pylon.Redis.PresenceRoster
import Pylon.Redis.PresenceRefcount
import Pylon.Channel.State
import Pylon.Redis.PresenceRefine
import Pylon.Redis.Sweeper
import Pylon.Redis.Lease
import Pylon.Redis.Capacity
import Pylon.Redis.CapacityHeal
import Pylon.Redis.ChannelEdges
import Pylon.Redis.UserEdges
import Pylon.Channel.Registry
import Pylon.Cluster.Core
import Pylon.Cluster.Reconcile
import Pylon.Cluster.SelfHeal
import Pylon.Cluster.PubSub
import Pylon.Cluster.Watch
import Pylon.Cluster.Admission
import Pylon.Lib.Framing
import Pylon.Transport.Conn
import Pylon.Transport.Outbound
import Pylon.Transport.Read
import Pylon.Transport.TlsRead
import Pylon.Transport.Establish
import Pylon.Transport.NodeCeiling
import Pylon.Transport.AppCapacity
import Pylon.Transport.Billing
import Pylon.Auth.Token
import Pylon.Channel.Kind
import Pylon.Protocol.Event
import Pylon.Ws.Context
import Pylon.Ws.Dispatch
import Pylon.Transport.Session
import Pylon.Transport.Worker
import Pylon.Transport.Accounting
import Pylon.Transport.SingleNode
import Pylon.Lib.Timeline
import Pylon.Transport.Timer
import Pylon.Transport.Wire
import Pylon.Transport.Loop
import Pylon.Transport.LoopMoves
import Pylon.Transport.WireOrder
import Pylon.Transport.Deadlines
import Pylon.Transport.Armed
import Pylon.Cluster.Presence
import Pylon.Transport.Delivery
import Pylon.Transport.Purge
import Pylon.Lib.Reassembly
import Pylon.Transport.Reassembly
import Pylon.Cluster.PresenceViews
import Pylon.Channel.Users
import Pylon.Lib.Deferred
import Pylon.Transport.PresenceOrder
import Pylon.Auth.Rest
import Pylon.Transport.Saturation
import Pylon.Transport.Shedding
import Pylon.Lib.Generation
import Pylon.Transport.Parking
import Pylon.Transport.ParkGuard
import Pylon.Webhook.Delivery
import Pylon.Webhook.Canonical
import Pylon.Ws.Separation
import Pylon.App.Cache
import Pylon.Lib.Grouping
import Pylon.Webhook.Debounce
import Pylon.Transport.Codec
import Pylon.Transport.DropHead
import Pylon.Lib.RunningMin
import Pylon.Lib.KeepLast
import Pylon.Transport.CodelLog
import Pylon.Transport.Drained
import Pylon.Transport.Coalesce
import Pylon.Lib.Sharded
import Pylon.Channel.Consistency
import Pylon.Channel.RegistryEdges
import Pylon.Channel.UserCalls
import Pylon.Channel.WatchEdges
import Pylon.Lib.Incremental
import Pylon.Transport.Inbound
import Pylon.Transport.Segmentation
import Pylon.Lib.Reservoir
import Pylon.Rate.TokenBucket
import Pylon.Rate.RestLimits
import Pylon.App.Validate
import Pylon.Redis.Keys
import Pylon.Webhook.Target
import Pylon.Webhook.Transport
import Pylon.Webhook.Retry
import Pylon.Transport.RestWrite
import Pylon.Transport.RestRead
