import Restate.Lib.KeyMap
import Restate.Lib.ListCount
import Restate.Lib.OrdMap
import Restate.Lib.Run
import Restate.Lib.ListInsert
import Restate.Replication.Types
import Restate.Replication.Checker
import Restate.Replication.CheckerInvariant
import Restate.Replication.CheckerQuorum
import Restate.Replication.CheckerSpec
import Restate.Logs.Metadata
import Restate.Logs.Builder
import Restate.Logs.ChainInvariant
import Restate.Logs.LookupIndex
import Restate.Partitions.PartitionTable
import Restate.Partitions.PartitionLookup
import Restate.Clock.Hlc
import Restate.Clock.HlcMonotonic
import Restate.Lib.ByteReader
import Restate.Lib.Varint
import Restate.Storage.KeyKind
import Restate.Storage.KeyCodec
import Restate.Storage.TableKey
import Restate.Storage.KeyRoundTrip
import Restate.Storage.KeyPrefix
import Restate.Replication.FMajoritySpec
import Restate.Replication.CheckerPlacement
import Restate.Replication.ReplicationProperty
import Restate.Lib.Base62
import Restate.Lib.Base64
import Restate.Lib.StrBytes
import Restate.Ids.IdUtil
import Restate.Ids.Identifiers
import Restate.Journal.FutureSemantics
import Restate.Lib.Simulation
import Restate.Protocol.Framing
import Restate.LogServer.LogletWorker
import Restate.LogServer.WorkerInvariants
import Restate.Logs.BuilderErrors
import Restate.Metadata.ModifiedFlag
import Restate.Lib.Spans
import Restate.Logs.FindSegment
import Restate.Lib.CeilDiv
import Restate.Sharding.ShardPlanSpec
import Restate.Lib.LexCompare
import Restate.Storage.EntryKeyOrder
import Restate.Ids.DeterministicIds
import Restate.Lib.Tiles
import Restate.Sharding.SplitSpec
import Restate.FuturesUtil.WaiterQueue
import Restate.FuturesUtil.WaiterQueueSpec
import Restate.LogServer.Replies
import Restate.LogServer.ReplyTruth
import Restate.Bifrost.Digests
import Restate.Bifrost.DigestsInvariant
import Restate.Lib.StrSplit
import Restate.Lib.VecOps
import Restate.Limiter.Rule
import Restate.Limiter.RuleStore
import Restate.Limiter.RuleParse
import Restate.Limiter.RuleSpec
import Restate.Limiter.RuleStoreSpec
import Restate.Limiter.LookupSpec
import Restate.Lib.ExtFloat
import Restate.Lib.StdDuration
import Restate.Types.Retries
import Restate.Types.RetriesSpec
import Restate.Bifrost.Trim
import Restate.Bifrost.TrimSpec
import Restate.Journal.RestartAsNew
import Restate.Journal.RestartAsNewSpec
import Restate.Lib.HeapPop
import Restate.Replication.NodeSetSelector
import Restate.Replication.NodeSetSelectorLoop
import Restate.Replication.NodeSetSelectorSpec
import Restate.Limiter.UserLimiter
import Restate.Limiter.UserLimiterTrie
import Restate.Limiter.UserLimiterSpec
import Restate.Memory.Pool
import Restate.Memory.PoolSpec
import Restate.Memory.Accounting
import Restate.Memory.Conservation
import Restate.Lib.PriorityQueue
import Restate.Timer.Service
import Restate.Timer.ServiceSpec
import Restate.Timer.Invariant
import Restate.Timer.Properties
import Restate.Timer.Completeness
