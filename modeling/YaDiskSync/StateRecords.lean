import YaDiskSync.Models

/-! Records of the state database, with the texts their enumerations are stored as. -/
namespace YaDiskSync

inductive SyncRunTrigger
  | scheduled | manual | cli | migration
  deriving DecidableEq, Repr

inductive SyncRunStatus
  | running | succeeded | partialFailed | failed | cancelled
  deriving DecidableEq, Repr

inductive FileStateStatus
  | synced | failed | skipped | deleted | syncedChangedDuringUpload
  deriving DecidableEq, Repr

inductive DirectoryStateStatus
  | synced | failed | skipped | deleted
  deriving DecidableEq, Repr

inductive OperationStatus
  | running | succeeded | failed | cancelled
  deriving DecidableEq, Repr

/-- `RemoteResourceType` has the same two values as `ResourceType`. -/
abbrev RemoteResourceType := ResourceType

structure SyncRunSummary where
  scannedFiles : Int := 0
  uploadedFiles : Int := 0
  updatedFiles : Int := 0
  deletedFiles : Int := 0
  skippedFiles : Int := 0
  failedFiles : Int := 0
  bytesUploaded : Int := 0
  errorSummary : Option Str := none
  deriving DecidableEq, Repr

/-- Timestamps are stored as texts; the code only ever compares the expiry with the clock,
so a snapshot's times are kept as seconds. -/
structure RootRemoteInventoryStatus where
  rootId : Str
  isComplete : Bool
  snapshotCompletedAt : Option Int
  snapshotExpiresAt : Option Int
  resourceCount : Int
  lastError : Option Str
  deriving DecidableEq, Repr

structure FileStateRecord where
  rootId : Str
  localPath : Str
  relativePath : Str
  remotePath : Str
  normalizedRemotePath : Str
  sizeBytes : Int
  mtimeNs : Option Int
  ctimeNs : Option Int
  fingerprintKind : Str
  fingerprintValue : Option Str
  fullSha256 : Option Str
  remoteEtag : Option Str
  remoteMd5 : Option Str
  lastRunId : Option Int
  status : FileStateStatus
  lastError : Option Str
  deriving DecidableEq, Repr

structure DirectoryStateRecord where
  rootId : Str
  localPath : Str
  relativePath : Str
  remotePath : Str
  normalizedRemotePath : Str
  lastRunId : Option Int
  status : DirectoryStateStatus
  lastError : Option Str
  deriving DecidableEq, Repr

structure RemoteResourceRecord where
  rootId : Str
  remotePath : Str
  resourceType : RemoteResourceType
  sizeBytes : Option Int
  mtimeRemote : Option Str
  remoteMd5 : Option Str
  deriving DecidableEq, Repr

structure SkippedItemRecord where
  rootId : Str
  localPath : Str
  relativePath : Option Str
  remotePath : Option Str
  reasonCode : Str
  reasonDetails : Option Str
  sizeBytes : Option Int
  deriving DecidableEq, Repr

structure FailedItemRecord where
  rootId : Str
  localPath : Option Str
  remotePath : Option Str
  operation : Str
  errorKind : Str
  errorMessage : Str
  retryCount : Int := 0
  nextRetryAtUtc : Option Str := none
  deriving DecidableEq, Repr

structure OperationRecord where
  runId : Int
  operation : Str
  localPath : Option Str
  remotePath : Option Str
  deriving DecidableEq, Repr

inductive MigrationMapStatus
  | moved | merged | adopted | uploaded | deleted | skipped | failed
  deriving DecidableEq, Repr

structure MigrationMapRecord where
  rootId : Str
  legacyRemotePath : Str
  canonicalRemotePath : Str
  status : MigrationMapStatus
  lastError : Option Str
  deriving DecidableEq, Repr

structure DeletedSubtreeRecord where
  rootId : Str
  relativePrefix : Str
  remotePrefix : Str
  lastRunId : Option Int
  deriving DecidableEq, Repr

structure SyncRootRecord where
  id : Str
  localPath : Str
  remoteRoot : Str
  canonicalRemotePath : Str
  enabled : Bool
  lastStatus : Option Str := none
  lastError : Option Str := none
  deriving DecidableEq, Repr

structure SyncRunRecord where
  id : Int
  trigger : SyncRunTrigger
  status : SyncRunStatus
  /-- `finished_at_utc` is set -/
  finished : Bool := false
  summary : SyncRunSummary := {}
  deriving DecidableEq, Repr

structure OperationJournalRecord where
  id : Int
  record : OperationRecord
  status : OperationStatus
  errorKind : Option Str := none
  errorMessage : Option Str := none
  deriving DecidableEq, Repr

/-- A row of `state_locks`. -/
structure StateLock where
  name : Str
  owner : Str
  heartbeatUnixSeconds : Int
  deriving DecidableEq, Repr

structure RunLockGuard where
  name : Str
  owner : Str
  deriving DecidableEq, Repr

inductive StateError
  /-- what the database reports: busy, full, a broken constraint -/
  | sqlite (text : Str)
  | timeFormat (text : Str)
  | unknownEnumValue (text : Str)
  | notFound (entity : Str) (id : Int)
  | notFoundText (entity id : Str)
  deriving DecidableEq, Repr

def StateError.message : StateError → Str
  | .sqlite text => "SQLite error: ".toList ++ text
  | .timeFormat text => "time formatting error: ".toList ++ text
  | .unknownEnumValue text => text
  | .notFound entity id => entity ++ " not found: ".toList ++ (toString id).toList
  | .notFoundText entity id => entity ++ " not found: ".toList ++ id

def i64Max : Int := 2^63-1

/-- `i64::try_from(value).unwrap_or(i64::MAX)` of an unsigned value. -/
def u64ToI64 (value : Nat) : Int := if (value : Int) ≤ i64Max then value else i64Max

/-- `value as i64` of an unsigned 64-bit value. -/
def asI64 (value : Nat) : Int := if (value : Int) ≤ i64Max then value else value-2^64

/-- Below the largest signed value both conversions keep the size. -/
theorem u64ToI64_of_lt {value : Nat} (h : value < 2^63) : u64ToI64 value = value := by
  unfold u64ToI64 i64Max
  split <;> omega

theorem asI64_of_lt {value : Nat} (h : value < 2^63) : asI64 value = value := by
  unfold asI64 i64Max
  split <;> omega

/-- `a += b` of signed 64-bit values, which wraps around. -/
def i64Add (a b : Int) : Int := (a+b).bmod (2^64)

theorem i64Add_of_lt {a b : Int} (hnonneg : 0 ≤ a+b) (hlt : a+b < 2^63) : i64Add a b = a+b := by
  unfold i64Add
  rw [Int.bmod_eq_emod_of_lt] <;> omega

end YaDiskSync
