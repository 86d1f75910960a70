import LeaseRegistry.AccessGate
import LeaseRegistry.Binary.Codec
import LeaseRegistry.Channel.Basic
import LeaseRegistry.Channel.Interleaving
import LeaseRegistry.Channel.Operation
import LeaseRegistry.Cluster.Act
import LeaseRegistry.Cluster.Basic
import LeaseRegistry.Cluster.Link
import LeaseRegistry.Cluster.Task
import LeaseRegistry.Config.Address
import LeaseRegistry.Config.Arguments
import LeaseRegistry.Config.CommandLine
import LeaseRegistry.Config.ServerConfig
import LeaseRegistry.Data.SortedSet
import LeaseRegistry.Decimal.Binary64
import LeaseRegistry.Decimal.Numeral
import LeaseRegistry.Decimal.Shortest
import LeaseRegistry.Eviction.Pass
import LeaseRegistry.Eviction.Queue
import LeaseRegistry.Instance.Binary
import LeaseRegistry.Instance.Delta
import LeaseRegistry.Instance.Json
import LeaseRegistry.Instance.Record
import LeaseRegistry.Json.Fields
import LeaseRegistry.Json.Number
import LeaseRegistry.Json.Token
import LeaseRegistry.Json.Value
import LeaseRegistry.Lease
import LeaseRegistry.Link.Frame
import LeaseRegistry.Link.Heartbeat
import LeaseRegistry.Link.Session
import LeaseRegistry.Main
import LeaseRegistry.Message.Client
import LeaseRegistry.Message.Handshake
import LeaseRegistry.Message.PeerJson
import LeaseRegistry.Message.Replication
import LeaseRegistry.Peer.Backoff
import LeaseRegistry.Peer.Client
import LeaseRegistry.Preservation
import LeaseRegistry.Proofs.Binary.Codec
import LeaseRegistry.Proofs.Binary.Message
import LeaseRegistry.Proofs.Channel.Acknowledgement
import LeaseRegistry.Proofs.Channel.Cancellation
import LeaseRegistry.Proofs.Channel.ClientVersion
import LeaseRegistry.Proofs.Channel.Failure
import LeaseRegistry.Proofs.Channel.Frames
import LeaseRegistry.Proofs.Channel.History
import LeaseRegistry.Proofs.Channel.Host
import LeaseRegistry.Proofs.Channel.Identity
import LeaseRegistry.Proofs.Channel.Intrusion
import LeaseRegistry.Proofs.Channel.Lifecycle
import LeaseRegistry.Proofs.Channel.LostWrite
import LeaseRegistry.Proofs.Channel.Node
import LeaseRegistry.Proofs.Channel.Numbering
import LeaseRegistry.Proofs.Channel.Office
import LeaseRegistry.Proofs.Channel.Operation
import LeaseRegistry.Proofs.Channel.Rise
import LeaseRegistry.Proofs.Channel.Script
import LeaseRegistry.Proofs.Channel.Service
import LeaseRegistry.Proofs.Channel.Turn
import LeaseRegistry.Proofs.Channel.Undertaking
import LeaseRegistry.Proofs.Channel.Underway
import LeaseRegistry.Proofs.Channel.Unregister
import LeaseRegistry.Proofs.Channel.Write
import LeaseRegistry.Proofs.Config.Address
import LeaseRegistry.Proofs.Config.Authority
import LeaseRegistry.Proofs.Config.Delay
import LeaseRegistry.Proofs.Data.List
import LeaseRegistry.Proofs.Eviction.Exact
import LeaseRegistry.Proofs.Eviction.Pass
import LeaseRegistry.Proofs.Instance.Difference
import LeaseRegistry.Proofs.Instance.Json
import LeaseRegistry.Proofs.Instance.Layout
import LeaseRegistry.Proofs.Instance.Size
import LeaseRegistry.Proofs.Json.Fields
import LeaseRegistry.Proofs.Json.Length
import LeaseRegistry.Proofs.Json.Literal
import LeaseRegistry.Proofs.Json.Number
import LeaseRegistry.Proofs.Json.Reader
import LeaseRegistry.Proofs.Json.Token
import LeaseRegistry.Proofs.Json.Value
import LeaseRegistry.Proofs.Link.Frame
import LeaseRegistry.Proofs.Link.Heartbeat
import LeaseRegistry.Proofs.Link.Session
import LeaseRegistry.Proofs.Message.Json
import LeaseRegistry.Proofs.Message.Size
import LeaseRegistry.Proofs.Peer.Backoff
import LeaseRegistry.Proofs.Peer.Dialogue
import LeaseRegistry.Proofs.Peer.Numbering
import LeaseRegistry.Proofs.Peer.Pairing
import LeaseRegistry.Proofs.Peer.Wire
import LeaseRegistry.Proofs.Preservation.Windows
import LeaseRegistry.Proofs.Replication.Adoption
import LeaseRegistry.Proofs.Replication.Announcement
import LeaseRegistry.Proofs.Replication.Delivery
import LeaseRegistry.Proofs.Replication.Departure
import LeaseRegistry.Proofs.Replication.FanOut
import LeaseRegistry.Proofs.Replication.Lockstep
import LeaseRegistry.Proofs.Replication.Loss
import LeaseRegistry.Proofs.Replication.Merge
import LeaseRegistry.Proofs.Replication.Partners
import LeaseRegistry.Proofs.Replication.Repair
import LeaseRegistry.Proofs.Replication.Reply
import LeaseRegistry.Proofs.Replication.Slot
import LeaseRegistry.Proofs.Replication.Station
import LeaseRegistry.Proofs.Replication.Synchronization
import LeaseRegistry.Proofs.Replication.Volume
import LeaseRegistry.Proofs.Server.Access
import LeaseRegistry.Proofs.Server.Headroom
import LeaseRegistry.Proofs.Server.OwnLease
import LeaseRegistry.Proofs.Server.Rise
import LeaseRegistry.Proofs.Server.Section
import LeaseRegistry.Proofs.Server.SelfRegistration
import LeaseRegistry.Proofs.Server.Stage
import LeaseRegistry.Proofs.Server.Task
import LeaseRegistry.Proofs.Store.Deltas
import LeaseRegistry.Proofs.Store.Invariant
import LeaseRegistry.Proofs.Store.Life
import LeaseRegistry.Proofs.Store.Listing
import LeaseRegistry.Proofs.Store.Mutation
import LeaseRegistry.Proofs.Store.Slot
import LeaseRegistry.Proofs.Store.Versions
import LeaseRegistry.Proofs.Text.Trim
import LeaseRegistry.Proofs.Text.Utf8
import LeaseRegistry.Registry
import LeaseRegistry.Replication.Coordinator
import LeaseRegistry.Replication.Snapshot
import LeaseRegistry.Script.Channel
import LeaseRegistry.Script.Cluster
import LeaseRegistry.Script.Frame
import LeaseRegistry.Script.Network
import LeaseRegistry.Script.Peer
import LeaseRegistry.Script.Reading
import LeaseRegistry.Script.Report
import LeaseRegistry.Script.Run
import LeaseRegistry.Script.Store
import LeaseRegistry.Script.Timing
import LeaseRegistry.Script.Value
import LeaseRegistry.Server.Activity
import LeaseRegistry.Server.Basic
import LeaseRegistry.Server.Run
import LeaseRegistry.Server.Talk
import LeaseRegistry.Server.Traffic
import LeaseRegistry.ServerId
import LeaseRegistry.Source
import LeaseRegistry.Store
import LeaseRegistry.Text.Blank
import LeaseRegistry.Text.Extender
import LeaseRegistry.Text.Hex
import LeaseRegistry.Text.Quoted
import LeaseRegistry.Text.Unassigned
