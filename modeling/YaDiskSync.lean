import YaDiskSync.SepPath
import YaDiskSync.Batching
import YaDiskSync.Text
import YaDiskSync.PathMapping
import YaDiskSync.Models
import YaDiskSync.LivePlan
import YaDiskSync.DeletedSubtrees
import YaDiskSync.Exclusions
import YaDiskSync.Config
import YaDiskSync.DeletePlan
import YaDiskSync.DeleteCoverage
import YaDiskSync.StateRecords
import YaDiskSync.Scanner
import YaDiskSync.DeleteSafety
import YaDiskSync.RootIsolation
import YaDiskSync.LegacyDeletes
import YaDiskSync.ScanSafety
import YaDiskSync.MissingPath
import YaDiskSync.RemoteDisk
import YaDiskSync.SyncPlan
import YaDiskSync.Mirror
import YaDiskSync.Prog
import YaDiskSync.Table
import YaDiskSync.Repository
import YaDiskSync.SubtreeDelete
import YaDiskSync.World
import YaDiskSync.StateFrame
import YaDiskSync.DeadRows
import YaDiskSync.Journal
import YaDiskSync.SyncJournal
import YaDiskSync.SyncCounters
import YaDiskSync.RunFrame
import YaDiskSync.RunLock
import YaDiskSync.SyncEngine
import YaDiskSync.SyncRun
import YaDiskSync.SyncFrame
import YaDiskSync.Counters
import YaDiskSync.MockClient
import YaDiskSync.Trace
import YaDiskSync.FaultIsolation
import YaDiskSync.FaultRun
import YaDiskSync.CreateOrder
import YaDiskSync.MigrationEngine
import YaDiskSync.MigrationModel
import YaDiskSync.MigrationRun
import YaDiskSync.RootProtection
import YaDiskSync.MigrationFrame
import YaDiskSync.MigrationJournal
import YaDiskSync.MigrationEnds
import YaDiskSync.MigrationCounters
import YaDiskSync.JournalRun
import YaDiskSync.CountersRun
import YaDiskSync.UploadBatches
import YaDiskSync.DeletePartition
import YaDiskSync.LegacyPartition
import YaDiskSync.Quota
import YaDiskSync.SyncAsks
import YaDiskSync.PhaseFrame
import YaDiskSync.SyncQuota
import YaDiskSync.MigrationWork
import YaDiskSync.MigrationQuota
import YaDiskSync.QuotaRun
import YaDiskSync.LockRelease
import YaDiskSync.ServiceRuntime
import YaDiskSync.Scheduler
import YaDiskSync.Listing
import YaDiskSync.ListingTree
import YaDiskSync.ListingWalk
import YaDiskSync.PathComposition
import YaDiskSync.StrictRemote
import YaDiskSync.TypeConflicts
import YaDiskSync.ParentExistence
import YaDiskSync.Staging
import YaDiskSync.StagingRun
import YaDiskSync.Projection
import YaDiskSync.PrunedWalk
import YaDiskSync.LockProtocol
import YaDiskSync.StagedUploads
import YaDiskSync.RemoteCache
import YaDiskSync.InventoryRecords
import YaDiskSync.HttpClient
import YaDiskSync.TokenRefresh
import YaDiskSync.UploadRetry
import YaDiskSync.ResumedFiles
import YaDiskSync.AbsoluteExcludes
import YaDiskSync.Interleavings
import YaDiskSync.ScanOrder
import YaDiskSync.AdoptedRows
import YaDiskSync.Asks
import YaDiskSync.ParentsRun
import YaDiskSync.Obeys
import YaDiskSync.Provenance
import YaDiskSync.SyncProvenance
import YaDiskSync.MigrationProvenance
import YaDiskSync.DigestHistory
import YaDiskSync.Typestate
import YaDiskSync.SyncInner
import YaDiskSync.MigrationInner
import YaDiskSync.RunPhase
import YaDiskSync.RunTables
import YaDiskSync.Fleet
import YaDiskSync.FleetRows
import YaDiskSync.RemoteWrites
import YaDiskSync.MirrorScan
import YaDiskSync.MirrorWrites
import YaDiskSync.MirrorPhases
import YaDiskSync.MirrorRun
