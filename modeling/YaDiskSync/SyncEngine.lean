import YaDiskSync.World
import Mathlib.Algebra.Order.Group.Int
import Mathlib.Algebra.Order.Monoid.Prod
import Mathlib.Data.List.SplitBy

/-! The sync engine. Its functions are programs over the effects of the world; the variables
the source passes by mutable reference live in the engine's memory. -/
namespace YaDiskSync

inductive SyncError
  | configInvalid (errors : Str)
  | alreadyRunning
  | pathMapping (rootId : Str) (source : PathMappingError)
  | scanner (error : ScannerError)
  | state (error : StateError)
  | yandexDisk (error : YandexDiskError)
  | migration (message : Str)
  deriving DecidableEq

def SyncError.message : SyncError → Str
  | .configInvalid errors => "config validation failed: ".toList ++ errors
  | .alreadyRunning => "sync run is already running".toList
  | .pathMapping rootId source =>
    "path mapping error for root ".toList ++ rootId ++ ": ".toList ++ source.message
  | .scanner error => "scanner error: ".toList ++ error.message
  | .state error => "state error: ".toList ++ error.message
  | .yandexDisk error => "Yandex Disk error: ".toList ++ error.display
  | .migration message => "migration error: ".toList ++ message

def rootStatusSucceeded : Str := "succeeded".toList
def rootStatusSkipped : Str := "skipped".toList
def rootStatusPartialFailed : Str := "partial_failed".toList
def rootStatusFailed : Str := "failed".toList
def rootStatusCancelled : Str := "cancelled".toList

structure RootSyncSummary where
  rootId : Str := []
  localPath : Str := []
  canonicalRemotePath : Str := []
  status : Str := []
  scannedFiles : Int := 0
  uploadedFiles : Int := 0
  updatedFiles : Int := 0
  deletedFiles : Int := 0
  skippedFiles : Int := 0
  failedFiles : Int := 0
  bytesUploaded : Int := 0
  errorSummary : Option Str := none
  deriving DecidableEq

structure SyncRunReport where
  runId : Int
  status : SyncRunStatus := .running
  summary : SyncRunSummary := {}
  roots : List RootSyncSummary := []
  plan : List SyncPlanOperation := []
  deriving DecidableEq

def addRootSummary (total : SyncRunSummary) (root : RootSyncSummary) : SyncRunSummary :=
  { scannedFiles := total.scannedFiles+root.scannedFiles
    uploadedFiles := total.uploadedFiles+root.uploadedFiles
    updatedFiles := total.updatedFiles+root.updatedFiles
    deletedFiles := total.deletedFiles+root.deletedFiles
    skippedFiles := total.skippedFiles+root.skippedFiles
    failedFiles := total.failedFiles+root.failedFiles
    bytesUploaded := i64Add total.bytesUploaded root.bytesUploaded
    errorSummary := total.errorSummary.or root.errorSummary }

/-- Uploaded, updated, deleted, skipped and failed files, then the bytes uploaded; one is at most
another if it is in each component. -/
abbrev Counts := Int × Int × Int × Int × Int × Int

def SyncRunSummary.counts (summary : SyncRunSummary) : Counts :=
  (summary.uploadedFiles,summary.updatedFiles,summary.deletedFiles,summary.skippedFiles,
    summary.failedFiles,summary.bytesUploaded)

def RootSyncSummary.counts (summary : RootSyncSummary) : Counts :=
  (summary.uploadedFiles,summary.updatedFiles,summary.deletedFiles,summary.skippedFiles,
    summary.failedFiles,summary.bytesUploaded)

def Counts.bytes (counts : Counts) : Int := counts.2.2.2.2.2

@[simp] theorem Counts.bytes_add (a b : Counts) : (a+b).bytes = a.bytes+b.bytes := rfl

@[simp] theorem Counts.bytes_zero : (0 : Counts).bytes = 0 := rfl

/-- Counts that have grown without further bytes. -/
def Counts.Grows (before after : Counts) : Prop := before ≤ after ∧ after.bytes = before.bytes

theorem Counts.Grows.refl (counts : Counts) : counts.Grows counts := ⟨le_rfl,rfl⟩

theorem Counts.Grows.add_left {before after : Counts} (h : before.Grows after) (counts : Counts) :
    (counts+before).Grows (counts+after) :=
  ⟨add_le_add le_rfl h.1,by rw [Counts.bytes_add,Counts.bytes_add,h.2]⟩

/-- The counts add up as long as the bytes do not wrap around. -/
theorem counts_addRootSummary {total : SyncRunSummary} {root : RootSyncSummary}
    (hnonneg : 0 ≤ (total.counts+root.counts).bytes)
    (hlt : (total.counts+root.counts).bytes < 2^63) :
    (addRootSummary total root).counts = total.counts+root.counts := by
  have hbytes : i64Add total.bytesUploaded root.bytesUploaded =
      total.bytesUploaded+root.bytesUploaded := i64Add_of_lt hnonneg hlt
  simp only [addRootSummary,SyncRunSummary.counts,hbytes]
  rfl

def statusFromSummary (summary : SyncRunSummary) (roots : List RootSyncSummary) :
    SyncRunStatus :=
  if roots.any fun root => root.status == rootStatusFailed then .failed
  else if roots.any fun root =>
      root.status == rootStatusSkipped || root.status == rootStatusPartialFailed then
    .partialFailed
  else if summary.failedFiles > 0 then
    if summary.uploadedFiles > 0 ∨ summary.updatedFiles > 0 ∨ summary.deletedFiles > 0 then
      .partialFailed
    else .failed
  else .succeeded

/-- The variables of a run that outlive a step. -/
structure SyncMemory where
  report : SyncRunReport
  rootSummary : RootSyncSummary := {}
  /-- the plan while it is made from the root's scan -/
  scanPlan : Option LiveScanPlan := none
  /-- set once the root's scan has been turned into a plan -/
  livePlan : Option LiveScanPlan := none
  deriving DecidableEq

structure RootExecutionResult where
  shouldStop : Bool
  bytesUploaded : Option Nat := none
  deriving DecidableEq

structure UploadPhaseResult where
  shouldStop : Bool
  bytesUploaded : Nat
  deriving DecidableEq

structure RemoteInventorySnapshot where
  resources : Inventory
  fromCache : Bool

/-- `u64::saturating_add`. -/
def saturatingAdd (a b : Nat) : Nat := min (a+b) (2^64-1)

section Records

def remoteResourceRecord (rootId : Str) (resource : ResourceMetadata) : RemoteResourceRecord :=
  { rootId
    remotePath := resource.path
    resourceType := resource.resourceType
    sizeBytes := resource.sizeBytes.bind fun size =>
      if (size : Int) ≤ i64Max then some size else none
    mtimeRemote := resource.modified
    remoteMd5 := resource.md5 }

/-- The cached record of a resource; records outside the root are left out. -/
def cachedResourceToMetadata (canonicalRemotePath : Str) (record : RemoteResourceRecord) :
    Option ResourceMetadata :=
  if record.remotePath ≠ canonicalRemotePath ∧
      (stripPrefix (trimEndMatches slash canonicalRemotePath ++ [slash]) record.remotePath).isNone
  then none
  else some {
    path := record.remotePath
    name := lastRemoteSegment record.remotePath
    resourceType := record.resourceType
    sizeBytes := record.sizeBytes.bind fun size => if 0 ≤ size then some size.toNat else none
    md5 := record.remoteMd5
    modified := record.mtimeRemote }

def isRemoteInventoryExpired (status : RootRemoteInventoryStatus) (now : Int) : Bool :=
  match status.snapshotExpiresAt with
  | none => true
  | some expiresAt => decide (expiresAt ≤ now)

def fileStateRecord (file : LocalFileEntry) (runId : Int) (status : FileStateStatus)
    (lastError : Option Str) : FileStateRecord :=
  { rootId := file.rootId
    localPath := pathToStableString file.localPath
    relativePath := file.relativePath
    remotePath := file.remotePath
    normalizedRemotePath := file.normalizedRemotePath
    sizeBytes := u64ToI64 file.sizeBytes
    mtimeNs := file.mtimeNs
    ctimeNs := file.ctimeNs
    fingerprintKind := file.fingerprint.kind.asStr
    fingerprintValue := some file.fingerprint.value
    fullSha256 := file.fingerprint.fullSha256
    remoteEtag := none
    remoteMd5 := file.fingerprint.localMd5
    lastRunId := some runId
    status, lastError }

def directoryStateRecord (directory : LocalDirectoryEntry) (runId : Int) : DirectoryStateRecord :=
  { rootId := directory.rootId
    localPath := pathToStableString directory.localPath
    relativePath := directory.relativePath
    remotePath := directory.remotePath
    normalizedRemotePath := directory.normalizedRemotePath
    lastRunId := some runId
    status := .synced
    lastError := none }

def createdResourceRecord (directory : LocalDirectoryEntry) : RemoteResourceRecord :=
  { rootId := directory.rootId, remotePath := directory.remotePath, resourceType := .directory
    sizeBytes := none, mtimeRemote := none, remoteMd5 := none }

def uploadedResourceRecord (file : LocalFileEntry) : RemoteResourceRecord :=
  { rootId := file.rootId, remotePath := file.remotePath, resourceType := .file
    sizeBytes := some (u64ToI64 file.sizeBytes), mtimeRemote := none
    remoteMd5 := file.fingerprint.localMd5 }

def uploadOperationName (isUpdate : Bool) : Str :=
  if isUpdate then "update_file".toList else "upload_file".toList

/-- The directories of a plan, level by level. -/
def byDepth (directories : List LocalDirectoryEntry) : List (List LocalDirectoryEntry) :=
  (sortByKey (fun directory => relativeDepth directory.relativePath) directories).splitBy
    fun a b => relativeDepth a.relativePath == relativeDepth b.relativePath

end Records

/-- A program of the sync engine. -/
abbrev Engine := ExceptT SyncError (Prog (Effect SyncMemory) Effect.Answer)

namespace SyncEngine

section Steps

def perform (e : Effect SyncMemory) : Engine e.Answer := liftM (Prog.perform e)

def client (call : ClientCall) : Engine (Except YandexDiskError call.Result) :=
  perform (.client call)

/-- A repository call; its error ends the run. -/
def state (call : StateCall) : Engine call.Result := do
  match ← perform (.state call) with
  | .ok result => return result
  | .error error => throw (.state error)

def isCancelled : Engine Bool := perform .isCancelled

def memory : Engine SyncMemory := perform .readMemory

def modifySummary (f : RootSyncSummary → RootSyncSummary) : Engine Unit :=
  perform (.updateMemory fun memory => { memory with rootSummary := f memory.rootSummary })

def modifyReport (f : SyncRunReport → SyncRunReport) : Engine Unit :=
  perform (.updateMemory fun memory => { memory with report := f memory.report })

def setScanPlan (plan : LiveScanPlan) : Engine Unit :=
  perform (.updateMemory fun memory => { memory with scanPlan := some plan })

def setLivePlan (plan : LiveScanPlan) : Engine Unit :=
  perform (.updateMemory fun memory => { memory with livePlan := some plan })

def livePlan : Engine LiveScanPlan := do
  let memory ← memory
  return memory.livePlan.getD { rootId := [], rootLocalPath := [] }

/-- `LiveScanPlan::register_missing_local_path` on the plan in memory. -/
def registerMissingLocalPath (localPath : LocalPath) (relativePath remotePath : Str) :
    Engine (Option DeletedLocalSubtree) := do
  let plan ← livePlan
  let (plan,subtree) ← plan.registerMissingLocalPath (fun path => perform (.isDir path))
    (fun path => perform (.pathExists path)) localPath relativePath remotePath
  setLivePlan plan
  return subtree

end Steps

variable (ext : Externals) (config : AppConfig)

section Progress

def persistRootProgress (runId : Int) (baseSummary : SyncRunSummary) : Engine Unit := do
  let memory ← memory
  state (.updateRunProgress runId (addRootSummary baseSummary memory.rootSummary))

def failRootWith (rootStatus : Str) (root : SyncRootConfig)
    (operation errorKind errorMessage : Str) : Engine Unit := do
  let memory ← memory
  state (.markFailed {
    rootId := root.id, localPath := some root.localPath
    remotePath := some memory.rootSummary.canonicalRemotePath
    operation, errorKind, errorMessage })
  state (.updateSyncRootStatus root.id rootStatus (some errorMessage))
  modifySummary fun summary => { summary with
    status := rootStatus
    failedFiles := summary.failedFiles+1
    errorSummary := some errorMessage }

def failRoot := failRootWith rootStatusFailed

def partialFailRoot := failRootWith rootStatusPartialFailed

def recordDeletedSubtree (runId : Int) (subtree : DeletedLocalSubtree) : Engine Unit := do
  state (.markSubtreeDeleted subtree.rootId subtree.relativePrefix subtree.remotePrefix runId)
  state (.markSkipped {
    rootId := subtree.rootId, localPath := subtree.relativePrefix
    relativePath := some subtree.relativePrefix, remotePath := some subtree.remotePrefix
    reasonCode := "local_subtree_deleted".toList
    reasonDetails := some "local subtree deleted during sync preparation or execution".toList
    sizeBytes := none })
  state (.appendOperationsSucceeded [{
    runId, operation := "skipped_local_subtree_deleted".toList
    localPath := some subtree.relativePrefix, remotePath := some subtree.remotePrefix }])
  modifySummary fun summary => { summary with skippedFiles := summary.skippedFiles+1 }

def recordDeletedSubtrees (runId : Int) : List DeletedLocalSubtree → Engine Unit
  | [] => pure ()
  | subtree :: subtrees => do
    recordDeletedSubtree runId subtree
    recordDeletedSubtrees runId subtrees

/-- `record_scan_findings`. -/
def recordScanFindings (report : ScanReport) : Engine Unit := do
  recordSkipped report.skipped
  recordFailed report.failed
where
  recordSkipped : List SkippedScanItem → Engine Unit
    | [] => pure ()
    | item :: items => do
      state (.markSkipped {
        rootId := item.rootId, localPath := pathToStableString item.localPath
        relativePath := some item.relativePath, remotePath := item.remotePath
        reasonCode := item.reasonCode, reasonDetails := item.reasonDetails
        sizeBytes := item.sizeBytes.bind fun size =>
          if (size : Int) ≤ i64Max then some size else none })
      recordSkipped items
  recordFailed : List FailedScanItem → Engine Unit
    | [] => pure ()
    | item :: items => do
      state (.markFailed {
        rootId := item.rootId, localPath := item.localPath.map pathToStableString
        remotePath := item.remotePath, operation := "scan".toList
        errorKind := item.errorKind, errorMessage := item.errorMessage })
      recordFailed items

/-- `cleanup_staging_files`. -/
def cleanupStagingFiles : List LocalFileEntry → Engine Unit
  | [] => pure ()
  | file :: files => do
    match file.sqliteBackupStagingPath with
    | none => cleanupStagingFiles files
    | some stagingPath =>
      match ← perform (.removeFile stagingPath) with
      | .ok _ => cleanupStagingFiles files
      | .error error =>
        if error.kind = .notFound then cleanupStagingFiles files
        else throw (.scanner (.io stagingPath error))

def finishRootCancelledOrFailed (root : SyncRootConfig) : Engine Unit := do
  if ← isCancelled then
    modifySummary fun summary => { summary with
      status := rootStatusCancelled, errorSummary := some "sync run cancelled".toList }
    let memory ← memory
    state (.updateSyncRootStatus root.id rootStatusCancelled memory.rootSummary.errorSummary)
  else
    let memory ← memory
    if memory.rootSummary.status = rootStatusFailed then
      state (.updateSyncRootStatus root.id rootStatusFailed memory.rootSummary.errorSummary)
    else if memory.rootSummary.failedFiles > 0 then
      modifySummary fun summary => { summary with status := rootStatusPartialFailed }
      state (.updateSyncRootStatus root.id rootStatusPartialFailed
        memory.rootSummary.errorSummary)
    else
      modifySummary fun summary => { summary with status := rootStatusSucceeded }
      state (.updateSyncRootStatus root.id rootStatusSucceeded none)

end Progress

end SyncEngine

end YaDiskSync
