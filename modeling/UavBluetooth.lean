import UavBluetooth.Lib.Allotment
import UavBluetooth.Lib.Run
import UavBluetooth.Lib.Mailbox
import UavBluetooth.Lib.Custody
import UavBluetooth.Lib.Strip
import UavBluetooth.Lib.Window
import UavBluetooth.Lib.Paths
import UavBluetooth.Util.Text
import UavBluetooth.Util.Topics
import UavBluetooth.Util.CanonicalTopics
import UavBluetooth.Config.Models
import UavBluetooth.Config.OverlayConfigManager
import UavBluetooth.Config.OverlaySwitch
import UavBluetooth.Config.OverlayLease
import UavBluetooth.Config.OverlayRestart
import UavBluetooth.Mesh.Wire
import UavBluetooth.Mesh.State
import UavBluetooth.Mesh.Maintain
import UavBluetooth.Mesh.Send
import UavBluetooth.Mesh.Receive
import UavBluetooth.Mesh.Station
import UavBluetooth.Mesh.Sweep
import UavBluetooth.Mesh.Stack
import UavBluetooth.Mesh.Bookkeeping
import UavBluetooth.Mesh.Network
import UavBluetooth.Mesh.Publications
import UavBluetooth.Mesh.Receipts
import UavBluetooth.Mesh.Handles
import UavBluetooth.Bridge.TransportBridgeManager
import UavBluetooth.Bridge.NewestExport
import UavBluetooth.Bridge.Receive
import UavBluetooth.Bridge.Configure
import UavBluetooth.Bridge.Operations
import UavBluetooth.Bridge.Replay
import UavBluetooth.Mesh.Retention
import UavBluetooth.Bridge.PeerTopics
import UavBluetooth.Lib.Election
import UavBluetooth.Mesh.SwarmCoordinator
import UavBluetooth.Mesh.Routing
import UavBluetooth.Peer.Arbitration
import UavBluetooth.Config.Scalars
import UavBluetooth.Util.Uuid
import UavBluetooth.Config.NodeConfig
import UavBluetooth.Config.SharedTopics
import UavBluetooth.Config.Loader
import UavBluetooth.Config.AutoMesh
import UavBluetooth.Bridge.Validation
import UavBluetooth.Lib.Templates
import UavBluetooth.Gatt.BridgeNames
import UavBluetooth.Gatt.BridgeMetadata
import UavBluetooth.Bridge.MemberPath
import UavBluetooth.Bridge.PayloadCodec
import UavBluetooth.Lib.Relocation
import UavBluetooth.Bridge.Introspection
import UavBluetooth.Bridge.GenericMessageBridge
import UavBluetooth.Bridge.LeafBindings
import UavBluetooth.Mesh.AutoUuid
import UavBluetooth.Mesh.UavNumbers
import UavBluetooth.Mesh.Bootstrap
import UavBluetooth.Mesh.Enrollment
import UavBluetooth.Lib.Epochs
import UavBluetooth.Mesh.Departure
import UavBluetooth.Peer.DeviceReset
import UavBluetooth.Lib.ChangeLog
import UavBluetooth.Bluez.ManagedObjects
import UavBluetooth.Bluez.ObjectManagerCache
import UavBluetooth.Bluez.CacheUpdates
import UavBluetooth.Bluez.CacheObservers
import UavBluetooth.Bluez.ConnectionHandoff
import UavBluetooth.Bluez.DiscoverySession
import UavBluetooth.Network.NetplanDocument
import UavBluetooth.Network.NetplanManager
import UavBluetooth.Network.WifiRequests
import UavBluetooth.Lib.Pipe
import UavBluetooth.Serial.SerialLink
import UavBluetooth.Serial.LinkManager
import UavBluetooth.Lib.OpenRecursion
import UavBluetooth.Bridge.MathExpression
import UavBluetooth.Bridge.IntegerParser
import UavBluetooth.Bridge.ExpressionGrammar
import UavBluetooth.Bridge.ExactExpressions
import UavBluetooth.Bridge.IntegerEvaluation
import UavBluetooth.Bridge.StructCodec
import UavBluetooth.Bridge.SelectionCount
import UavBluetooth.Bridge.Recollection
import UavBluetooth.Bridge.BridgeRoundTrip
import UavBluetooth.Bridge.MemberPathGrammar
import UavBluetooth.Mesh.FrameRoundTrip
import UavBluetooth.Bridge.ExportRate
import UavBluetooth.Network.NetplanEdit
import UavBluetooth.Network.NetplanRewrite
import UavBluetooth.Config.OverlayActivation
import UavBluetooth.Config.OverlayHold
import UavBluetooth.Peer.TimeBridge
import UavBluetooth.Peer.Handshake
import UavBluetooth.Mesh.RepairCharges
import UavBluetooth.Mesh.RepairBudget
import UavBluetooth.Lib.Blocks
import UavBluetooth.Util.Md5
import UavBluetooth.Util.ResolveUuid
import UavBluetooth.Config.IntegerBounds
import UavBluetooth.Config.YamlMemory
import UavBluetooth.Config.SharedNodes
import UavBluetooth.Config.DeepMerge
import UavBluetooth.Config.MergeLaws
import UavBluetooth.App.AdvertisementPacking
import UavBluetooth.Mesh.Heartbeat
import UavBluetooth.Mesh.UnicastCursor
import UavBluetooth.Mesh.EnrollmentStages
import UavBluetooth.Mesh.EnrollmentUuid
import UavBluetooth.Mesh.UuidText
import UavBluetooth.Mesh.QueueBounds
import UavBluetooth.Lib.InOrder
import UavBluetooth.Mesh.Calls
import UavBluetooth.Mesh.ChannelOrder
import UavBluetooth.Gatt.NotifiedValue
import UavBluetooth.Mesh.SwarmStateFile
import UavBluetooth.Mesh.NetworkEntry
import UavBluetooth.Bridge.ImportSubscriptions
