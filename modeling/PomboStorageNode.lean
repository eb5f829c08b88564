import PomboStorageNode.Library.Transition
import PomboStorageNode.Library.OrderedMap
import PomboStorageNode.Library.Selection
import PomboStorageNode.Library.Delimited
import PomboStorageNode.Storage.SetMembershipSynchronizer
import PomboStorageNode.Storage.BatchManager
import PomboStorageNode.Storage.Tables
import PomboStorageNode.Storage.Bucket
import PomboStorageNode.Storage.FetchRange
import PomboStorageNode.Library.JsNumber
import PomboStorageNode.Utils
import PomboStorageNode.Utils.Heap
import PomboStorageNode.Library.Chunks
import PomboStorageNode.Utils.LengthPrefixedFrame
import PomboStorageNode.Storage.SignedRequest
import PomboStorageNode.Storage.PomboGates
import PomboStorageNode.Storage.PurgeEndpoint
import PomboStorageNode.Storage.SignedRequestMessage
import PomboStorageNode.Storage.BucketManager
import PomboStorageNode.Storage.BucketDates
import PomboStorageNode.Storage.BucketPlacement
import PomboStorageNode.Storage.BucketUpdates
import PomboStorageNode.Storage.Retention
import PomboStorageNode.Storage.IngestValidator
import PomboStorageNode.Storage.StoragePlugin
import PomboStorageNode.Storage.StoredEndpoint
import PomboStorageNode.Sdk.OrderedMessageChain
import PomboStorageNode.Sdk.GapFiller
import PomboStorageNode.TrackerlessNetwork.DuplicateMessageDetector
import PomboStorageNode.TrackerlessNetwork.FifoMapWithTTL
import PomboStorageNode.TrackerlessNetwork.Handshaker
import PomboStorageNode.TrackerlessNetwork.NodeList
import PomboStorageNode.TrackerlessNetwork.Plumtree
import PomboStorageNode.TrackerlessNetwork.PlumtreeAgreement
import PomboStorageNode.TrackerlessNetwork.Propagation
import PomboStorageNode.Library.Throwing
import PomboStorageNode.Sdk.MessageFactory
import PomboStorageNode.Library.Least
import PomboStorageNode.Dht.Identifiers
import PomboStorageNode.Dht.SortedContactList
import PomboStorageNode.Dht.ContactIds
import PomboStorageNode.Dht.RoutingTablesCache
import PomboStorageNode.Sdk.ProviderHealth
import PomboStorageNode.Sdk.FailoverProvider
import PomboStorageNode.Dht.RoutingSession
import PomboStorageNode.Library.Binary64
import PomboStorageNode.Dht.RingContactList
import PomboStorageNode.Dht.PeerManager
import PomboStorageNode.Dht.LocalDataStore
import PomboStorageNode.Dht.RecursiveOperationSession
import PomboStorageNode.ProtoRpc.ResultParts
import PomboStorageNode.ProtoRpc.RpcCommunicator
import PomboStorageNode.ProtoRpc.RpcSettlement
import PomboStorageNode.Sdk.ChainEventPoller
import PomboStorageNode.Dht.ConnectionManager
import PomboStorageNode.Dht.ConnectionBooks
import PomboStorageNode.Dht.ConnectionReports
import PomboStorageNode.Dht.ConnectionBuffers
import PomboStorageNode.Dht.CrossingEvents
import PomboStorageNode.Dht.CrossingConnections
import PomboStorageNode.Dht.CrossingAgreement
import PomboStorageNode.Sdk.GroupKeyQueue
import PomboStorageNode.Sdk.StreamMessage
import PomboStorageNode.Sdk.SignaturePayload
import PomboStorageNode.Sdk.StreamMessageTranslator
import PomboStorageNode.Sdk.Mapping
import PomboStorageNode.Storage.AccessDeciders
import PomboStorageNode.Sdk.LocalGroupKeyStore
import PomboStorageNode.Sdk.ValidateStreamMessage
import PomboStorageNode.Sdk.PublisherKeyExchange
import PomboStorageNode.Sdk.SubscriberKeyExchange
import PomboStorageNode.Sdk.GroupKeyManager
import PomboStorageNode.Operator.MaintainTopologyHelper
import PomboStorageNode.Operator.ConsistentHashRing
import PomboStorageNode.Operator.StreamPartAssignments
import PomboStorageNode.TrackerlessNetwork.NeighborUpdate
import PomboStorageNode.TrackerlessNetwork.ProxyClient
import PomboStorageNode.Storage.BatchStages
import PomboStorageNode.Storage.BatchCallbacks
import PomboStorageNode.Storage.RequestLast
import PomboStorageNode.Storage.BucketSearch
import PomboStorageNode.Storage.StreamMetadata
import PomboStorageNode.Storage.StreamEnds
import PomboStorageNode.Storage.OrphanSweep
import PomboStorageNode.Library.Budget
import PomboStorageNode.Storage.RowSweep
import PomboStorageNode.Storage.BucketRetention
import PomboStorageNode.TrackerlessNetwork.PlumtreeResume
import PomboStorageNode.TrackerlessNetwork.InterleavingFloor
import PomboStorageNode.Library.LeastKeys
import PomboStorageNode.Dht.RingSides
import PomboStorageNode.Dht.StoreManager
import PomboStorageNode.Dht.DiscoverySession
import PomboStorageNode.Library.ProportionalShares
import PomboStorageNode.Autostaker.PayoutProportionalStrategy
import PomboStorageNode.Autostaker.StakeLegality
import PomboStorageNode.Operator.InspectOverTime
import PomboStorageNode.Library.GreatestValues
import PomboStorageNode.Operator.OperatorValue
import PomboStorageNode.Library.Pagination
import PomboStorageNode.Sdk.StakeQueries
import PomboStorageNode.TrackerlessNetwork.FifoMapHistory
import PomboStorageNode.Sdk.MsgChainUtil
import PomboStorageNode.Library.NumberText
import PomboStorageNode.Utils.StreamPartID
import PomboStorageNode.Sdk.Gate
import PomboStorageNode.Sdk.PushBuffer
import PomboStorageNode.Sdk.PushBufferWaits
import PomboStorageNode.Utils.IndexingState
import PomboStorageNode.Sdk.Scaffold
import PomboStorageNode.Library.StableOrder
import PomboStorageNode.Autostaker.AppliedActions
import PomboStorageNode.Autostaker.LeftOutStakings
import PomboStorageNode.Autostaker.SecondSelection
import PomboStorageNode.Autostaker.StakeStability
import PomboStorageNode.TrackerlessNetwork.ContentDeliveryLayerNode
import PomboStorageNode.TrackerlessNetwork.Dissemination
import PomboStorageNode.Storage.ReadableMessages
import PomboStorageNode.Dht.StoreRpcLocal
import PomboStorageNode.Dht.ReplicationNetwork
import PomboStorageNode.Library.IntegerText
import PomboStorageNode.Utils.UserID
import PomboStorageNode.Storage.DataQueryEndpoint
import PomboStorageNode.Sdk.Resends
