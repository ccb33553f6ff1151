import Cache2.Index.WarmImage
import Cache2.Index.Occupancy
import Cache2.Index.Heat
import Cache2.Index.Reinsertion
import Cache2.Index.PartitionLayout
import Cache2.Index.LazyValidation
import Cache2.Region.AppendSpace
import Cache2.Region.Reader
import Cache2.Region.Rebind
import Cache2.Region.FreezeRestore
import Cache2.Region.Rotation
import Cache2.Region.StoreRuns
import Cache2.Recovery.ControlPages
import Cache2.Recovery.RunningBarrier
import Cache2.Runtime.MutationGate
import Cache2.Runtime.Startup
import Cache2.Io.Background
import Cache2.Io.FillCredit
import Cache2.Io.CreditWord
import Cache2.Io.UringWake
import Cache2.Memory.Accounting
import Cache2.Memory.DirectoryRoom
import Cache2.Memory.Ghost
import Cache2.Memory.BoundedMap
import Cache2.Config.Representable
import Cache2.Lib.Framing
import Cache2.Region.RecordCodec
import Cache2.Region.StagingShard
import Cache2.Region.ReclaimScan
import Cache2.Region.ShardSections
import Cache2.Region.DataPath
import Cache2.Region.PathInvariant
import Cache2.Region.PathSteps
import Cache2.Region.PathReclaim
import Cache2.Region.PathRuns
import Cache2.Region.PathManager
