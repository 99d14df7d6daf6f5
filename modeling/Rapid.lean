import Rapid.Consensus.FastAgreement
import Rapid.View.HistoryIndependence
import Rapid.View.ObserverCache
import Rapid.CutDetector.MultiNodeCutDetector
import Rapid.Foundations.Watermark
import Rapid.CutDetector.WatermarkLaw
import Rapid.Service.ViewChange
import Rapid.Consensus.FastRecovery
import Rapid.Consensus.Validity
import Rapid.Service.ProposalOrder
import Rapid.Foundations.EffectPath
import Rapid.Service.Frames
import Rapid.Service.Decision
import Rapid.Service.Moves
import Rapid.Service.ServiceSystem
import Rapid.Service.ViewDelta
import Rapid.CutDetector.ImplicitDetection
import Rapid.Service.StaleAlerts
import Rapid.Foundations.LastMention
import Rapid.Service.Admission
import Rapid.Service.JoinRequests
import Rapid.Service.WelcomedJoiner
import Rapid.Shard.ShardIndex
import Rapid.Shard.ShardOrder
import Rapid.Service.KeptView
import Rapid.Service.Configurations
import Rapid.Shard.Subscriber
import Rapid.Shard.ShardDirectory
import Rapid.Shard.LagRecovery
import Rapid.Service.JoinProtocol
import Rapid.Service.AwaitedReports
import Rapid.Service.CompleteAlerts
import Rapid.Foundations.EpochLog
import Rapid.Service.OneDecision
import Rapid.Service.StaleClassicRound
import Rapid.Service.JoinResponses
import Rapid.Service.ApplyAgreement
import Rapid.Foundations.History
import Rapid.Foundations.Poll
import Rapid.Foundations.NumberText
import Rapid.Net.SocketAddr
import Rapid.Consensus.Instance
import Rapid.Consensus.Promises
import Rapid.Consensus.AtMostOnce
import Rapid.Consensus.CoordinatorQuorum
import Rapid.Consensus.FastQuorum
import Rapid.Net.Addresses
import Rapid.View.NoRecurrence
import Rapid.View.RingKeys
import Rapid.View.Representation
import Rapid.Foundations.Streak
import Rapid.Foundations.Drain
import Rapid.CutDetector.ImplicitCut
import Rapid.Shard.AdvertisedShards
import Rapid.Foundations.Checked
import Rapid.CutDetector.RingNumbers
import Rapid.Monitoring.PingPong
import Rapid.Service.RealRings
import Rapid.Consensus.OneConfiguration
import Rapid.CutDetector.Marking
import Rapid.Foundations.Swarm
import Rapid.Service.DecisionDetail
import Rapid.Cluster.ClusterSystem
import Rapid.Cluster.Grounds
import Rapid.Foundations.Bag
import Rapid.Foundations.Debounce
import Rapid.Service.AlertQueue
import Rapid.Service.Detectors
import Rapid.Service.Recipients
import Rapid.Service.Replies
import Rapid.Foundations.Retry
import Rapid.Foundations.Sextets
import Rapid.Foundations.TextSearch
import Rapid.Messaging.Traits
import Rapid.Net.AddressText
import Rapid.Service.JoinLoop
import Rapid.Service.Rejoin
import Rapid.Trace.Base64
import Rapid.Trace.Ndjson
import Rapid.Cluster.Agreement
import Rapid.Cluster.OneLine
import Rapid.Foundations.Mailbox
import Rapid.Service.Handle
import Rapid.Foundations.AccessTable
import Rapid.Messaging.GrpcPool
