import Laredo.Engine.PauseResume
import Laredo.Client.Handoff
import Laredo.Snapshotter.Coverage
import Laredo.Engine.Snapshot
import Laredo.Engine.Restart
import Laredo.Engine.PerTarget
import Laredo.Target.Redelivery
import Laredo.Agreement
import Laredo.Snapshotter.Contention
import Laredo.Source.PgPositions
import Laredo.Engine.GivenUp
import Laredo.Snapshotter.Resubscribe
import Laredo.Source.ArchiveResume
import Laredo.Target.HttpSync
import Laredo.Target.CompiledImage
import Laredo.Engine.PartialDelete
import Laredo.Replication.Sessions
import Laredo.Replication.FilteredReplay
import Laredo.Engine.SharedTracker
import Laredo.Fanout.Pinned
import Laredo.Engine.Validation
import Laredo.Engine.RowCount
import Laredo.Engine.Admin
import Laredo.Engine.Isolation
import Laredo.Client.Identity
import Laredo.Client.LocalSnapshot
import Laredo.Replication.Comparison
import Laredo.Replication.Conversion
import Laredo.Replication.Fetch
import Laredo.Snapshotter.FailedCommit
import Laredo.Snapshotter.Formats
import Laredo.Snapshotter.Remerge
import Laredo.Deadletter
import Laredo.Engine.DropOldest
import Laredo.Engine.Replay
import Laredo.Snapshot.Tables
import Laredo.Snapshotter.ObjectKeys
import Laredo.Source.ArchiveExport
import Laredo.Source.FanoutQueue
import Laredo.Target.NumericKeys
import Laredo.Target.Subscription
import Laredo.Engine.Readiness
import Laredo.Snapshotter.CompositeKeys
import Laredo.Source.Lsn
import Laredo.Target.Keys
