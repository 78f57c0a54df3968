import OxiMqtt.Lib.Collections
import OxiMqtt.Lib.Gather
import OxiMqtt.Lib.Trie
import OxiMqtt.Lib.Framing
import OxiMqtt.Lib.AtMostOnce
import OxiMqtt.Lib.Machine
import OxiMqtt.Lib.Newest
import OxiMqtt.Lib.Process
import OxiMqtt.Lib.PriorityQueue
import OxiMqtt.Lib.Trace
import OxiMqtt.Lib.TwoPhase
import OxiMqtt.Topic
import OxiMqtt.TopicRules
import OxiMqtt.Trie
import OxiMqtt.TrieMatch
import OxiMqtt.TopicMatch
import OxiMqtt.Retain
import OxiMqtt.RetainPurge
import OxiMqtt.RetainLimit
import OxiMqtt.TrieExact
import OxiMqtt.RetainStorage
import OxiMqtt.RetainCap
import OxiMqtt.RetainDedup
import OxiMqtt.RetainPages
import OxiMqtt.Acl
import OxiMqtt.AclSubscribe
import OxiMqtt.AclLive
import OxiMqtt.AclPlaceholders
import OxiMqtt.Router.Forward
import OxiMqtt.Router.Concurrent
import OxiMqtt.Router.FilterText
import OxiMqtt.Codec.Stream
import OxiMqtt.Session.Inbound
import OxiMqtt.Session.Inflight
import OxiMqtt.Session.IdAllocation
import OxiMqtt.Session.Timeouts
import OxiMqtt.Session.DeliverSignals
import OxiMqtt.Session.Outbound
import OxiMqtt.Session.Takeover
import OxiMqtt.Session.TakeoverBalance
import OxiMqtt.Session.TakeoverRuns
import OxiMqtt.Session.Lockers
import OxiMqtt.Session.PublishPath
import OxiMqtt.Session.ClientAliases
import OxiMqtt.Session.Subscriptions
import OxiMqtt.Session.SubscriptionStats
import OxiMqtt.Session.FilterGrammar
import OxiMqtt.Session.SubscriptionAgreement
import OxiMqtt.Session.TopicAliases
import OxiMqtt.Session.Window
import OxiMqtt.Session.Handshake
import OxiMqtt.Codec.Reencode
import OxiMqtt.Codec.V5.Limit
import OxiMqtt.Codec.V5.Arithmetic
import OxiMqtt.Codec.Failures
import OxiMqtt.Codec.VersionAgreement
import OxiMqtt.Delayed
import OxiMqtt.Session.Arms
import OxiMqtt.Session.Reconnect
import OxiMqtt.Session.Acks
import OxiMqtt.Session.Rerelease
import OxiMqtt.Session.PacketIds
import OxiMqtt.Session.Resumption
import OxiMqtt.Session.ResumeOrder
import OxiMqtt.Session.PacketLoop
import OxiMqtt.Session.Will
import OxiMqtt.Bench.Types
import OxiMqtt.Bench.Encode
import OxiMqtt.Bench.ClientPackets
import OxiMqtt.Bench.Decode
import OxiMqtt.Bench.ServerPackets
import OxiMqtt.Router.Rotation
import OxiMqtt.Session.Expiry
import OxiMqtt.AclLiteral
import OxiMqtt.AclUsers
import OxiMqtt.Utils.CircuitBreaker
import OxiMqtt.Bench.Stats
import OxiMqtt.Bench.Packets
import OxiMqtt.Bench.Window
import OxiMqtt.Bench.Outbound
import OxiMqtt.Bench.LateAcks
import OxiMqtt.Bench.Client
import OxiMqtt.Bench.Gauges
import OxiMqtt.Bench.Qos2Inbound
import OxiMqtt.Session.InflightStats
import OxiMqtt.Utils.Bytesize
import OxiMqtt.Net.Dispatcher
import OxiMqtt.Net.WebSocket
import OxiMqtt.Lib.OrdMap
import OxiMqtt.Hook
import OxiMqtt.AuthJwt
import OxiMqtt.Authorization
import OxiMqtt.Session.Replies
import OxiMqtt.Bench.EndToEnd
import OxiMqtt.Lib.Ledger
import OxiMqtt.Delivery.Machine
import OxiMqtt.Delivery.Accounting
import OxiMqtt.Delivery.Store
import OxiMqtt.Delivery.Retained
import OxiMqtt.Delivery.Subscribers
import OxiMqtt.Lib.Listing
import OxiMqtt.Router.Queries
import OxiMqtt.Lib.Conveyor
import OxiMqtt.Bench.Subscriber
