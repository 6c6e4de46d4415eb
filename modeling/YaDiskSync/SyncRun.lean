import YaDiskSync.RunLock
import YaDiskSync.SyncEngine

/-! One run of the sync engine: the phases of a root, the root, all roots. Batches are spawned
and joined as the source does it; the fuel of a loop is the number of entries it works off. -/
namespace YaDiskSync

namespace SyncEngine

variable (ext : Externals) (config : AppConfig) (root : SyncRootConfig) (runId : Int)
  (baseSummary : SyncRunSummary)

section RemoteInventory

/-- `remote_inventory` reports its own errors as errors of the client. -/
abbrev Inventorying := ExceptT YandexDiskError (Prog (Effect SyncMemory) Effect.Answer)

def ask (e : Effect SyncMemory) : Inventorying e.Answer := liftM (Prog.perform e)

def inventoryState (describe : StateError → Str) (call : StateCall) :
    Inventorying call.Result := do
  match ← ask (.state call) with
  | .ok result => return result
  | .error error => throw (.critical (describe error))

def inventoryClient (call : ClientCall) : Inventorying (Except YandexDiskError call.Result) :=
  ask (.client call)

def cachedInventory (canonicalRemotePath : Str) (records : List RemoteResourceRecord) :
    Inventory :=
  .ofResources (records.filterMap (cachedResourceToMetadata canonicalRemotePath))

/-- The cached inventory of a root, unless a fresh one is asked for or the cache is too old. -/
def cachedRemoteInventory (canonicalRemotePath : Str) (forceRemoteRescan : Bool) :
    Inventorying (Option RemoteInventorySnapshot) := do
  if forceRemoteRescan then return none
  else
    match ← inventoryState StateError.message (.getRootRemoteInventoryStatus root.id) with
    | none => return none
    | some status =>
      let now ← ask .now
      if status.isComplete && !isRemoteInventoryExpired status now then
        let cached ← inventoryState StateError.message (.listRemoteResourcesForRoot root.id)
        return some { resources := cachedInventory canonicalRemotePath cached, fromCache := true }
      else return none

/-- The status of a snapshot of `count` resources taken at `now`. -/
def completeInventoryStatus (now : Int) (count : Nat) : RootRemoteInventoryStatus :=
  { rootId := root.id
    isComplete := true
    snapshotCompletedAt := some now
    snapshotExpiresAt := some (now+config.sync.remoteInventoryCacheTtlHours*3600)
    resourceCount := if (count : Int) ≤ i64Max then count else i64Max
    lastError := none }

def persistRemoteInventorySnapshot (resources : List ResourceMetadata) : Inventorying Unit := do
  let describe := fun error => (SyncError.state error).message
  inventoryState describe (.replaceRemoteResourcesForRoot root.id
    (resources.map (remoteResourceRecord root.id)))
  let now ← ask .now
  inventoryState describe
    (.setRootRemoteInventoryStatus (completeInventoryStatus config root now resources.length))

def listRemoteInventory (canonicalRemotePath : Str) (pruneRemotePrefixes : List Str) :
    Inventorying RemoteInventorySnapshot := do
  match ← inventoryClient (.metadata canonicalRemotePath) with
  | .error error =>
    if error.kind = .notFound then return { resources := ∅, fromCache := false }
    else throw error
  | .ok rootMetadata =>
    match ← inventoryClient (.listRecursive canonicalRemotePath pruneRemotePrefixes) with
    | .error error =>
      if error.kind = .notFound then
        return { resources := .ofResources [rootMetadata], fromCache := false }
      else throw error
    | .ok listed =>
      let resources := Inventory.ofResources (rootMetadata :: listed)
      persistRemoteInventorySnapshot config root resources.resources
      return { resources, fromCache := false }

def remoteInventory (canonicalRemotePath : Str) (livePlan : LiveScanPlan)
    (forceRemoteRescan : Bool) : Inventorying RemoteInventorySnapshot := do
  match ← cachedRemoteInventory root canonicalRemotePath forceRemoteRescan with
  | some snapshot => return snapshot
  | none => listRemoteInventory config root canonicalRemotePath livePlan.pruneRemotePrefixes

end RemoteInventory

section Failures

/-- A failed operation: its journal entry, its failed item, the counter, the progress. -/
def recordOperationFailure (operationId : Int) (record : FailedItemRecord) : Engine Unit := do
  state (.finishOperation operationId .failed (some record.errorKind) (some record.errorMessage))
  state (.markFailed record)
  modifySummary fun summary => { summary with
    failedFiles := summary.failedFiles+1, errorSummary := some record.errorMessage }
  persistRootProgress runId baseSummary

def stopRoot (errorSummary : Str) : Engine Unit :=
  modifySummary fun summary => { summary with
    status := rootStatusFailed, errorSummary := some errorSummary }

/-- The failure of a client call; the answer is whether the run has to stop. -/
def recordClientFailure (operationId : Int) (operation : Str) (localPath : Option Str)
    (remotePath : Str) (error : YandexDiskError) : Engine Bool := do
  recordOperationFailure runId baseSummary operationId {
    rootId := root.id, localPath, remotePath := some remotePath, operation
    errorKind := error.kind.asStr, errorMessage := error.message }
  if isStopError error.kind then
    stopRoot error.display
    return true
  else return false

/-- Whether an entry is skipped because it has gone missing with a subtree. -/
def skipMissing (localPath : LocalPath) (relativePath remotePath : Str) : Engine Bool := do
  match ← registerMissingLocalPath localPath relativePath remotePath with
  | some subtree =>
    recordDeletedSubtree runId subtree
    persistRootProgress runId baseSummary
    return true
  | none => return false

end Failures

section CreateDirectories

/-- The next batch of directories, then what stays pending. -/
def nextCreateBatch : Nat → List LocalDirectoryEntry →
    Engine (List LocalDirectoryEntry × List LocalDirectoryEntry)
  | _, [] => return ([],[])
  | 0, directory :: pending => return ([],directory :: pending)
  | slots+1, directory :: pending => do
    let plan ← livePlan
    if plan.isDeletedRelativePath directory.relativePath then
      nextCreateBatch (slots+1) pending
    else
      let skipped ← skipMissing runId baseSummary directory.localPath directory.relativePath
        directory.remotePath
      if skipped then nextCreateBatch (slots+1) pending
      else
        let result ← nextCreateBatch slots pending
        return (directory :: result.1,result.2)

def spawnCreates : List LocalDirectoryEntry → Engine Unit
  | [] => pure ()
  | directory :: batch => do
    let operationId ← state (.appendOperationStarted {
      runId, operation := "create_directory".toList
      localPath := some (pathToStableString directory.localPath)
      remotePath := some directory.remotePath })
    perform (.spawn (.createDirectory directory operationId))
    spawnCreates batch

def recordCreated (directory : LocalDirectoryEntry) (operationId : Int) : Engine Unit := do
  state (.finishOperation operationId .succeeded none none)
  state (.upsertDirectoryState (directoryStateRecord directory runId))
  state (.upsertRemoteResource (createdResourceRecord directory))

def joinCreates : Nat → Engine Bool
  | 0 => return false
  | fuel+1 => do
    match ← perform .joinNext with
    | some (.created directory operationId (.ok _)) =>
      recordCreated runId directory operationId
      joinCreates fuel
    | some (.created directory operationId (.error error)) =>
      let stop ← recordClientFailure root runId baseSummary operationId
        "create_directory".toList (some (pathToStableString directory.localPath))
        directory.remotePath error
      if stop then
        perform .dropTasks
        return true
      else joinCreates fuel
    | _ => return false

/-- The directories of one depth, a batch at a time. -/
def createLevel (concurrency : Nat) : Nat → List LocalDirectoryEntry → Engine Bool
  | 0, _ => return false
  | fuel+1, pending => do
    if pending.isEmpty then return false
    else
      let cancelled ← isCancelled
      if cancelled then return true
      else
        let next ← nextCreateBatch runId baseSummary concurrency pending
        if next.1.isEmpty then createLevel concurrency fuel next.2
        else
          spawnCreates runId next.1
          let stop ← joinCreates root runId baseSummary (next.1.length+1)
          if stop then return true
          else createLevel concurrency fuel next.2

def createLevels (concurrency : Nat) : List (List LocalDirectoryEntry) → Engine Bool
  | [] => return false
  | level :: levels => do
    let stop ← createLevel root runId baseSummary concurrency level.length level
    if stop then return true
    else createLevels concurrency levels

def applyCreateDirectories (rootPlan : RootPlan) : Engine Bool := do
  let plan ← livePlan
  let directories := rootPlan.createDirectories.filter fun directory =>
    !plan.isDeletedRelativePath directory.relativePath
  createLevels root runId baseSummary (max config.sync.createDirectoryConcurrency 1)
    (byDepth directories)

end CreateDirectories

section Uploads

def cancelledText : Str := "sync run cancelled".toList

def spawnUploads : List (LocalFileEntry × Bool) → Engine Unit
  | [] => pure ()
  | (file,isUpdate) :: batch => do
    let plan ← livePlan
    if plan.isDeletedRelativePath file.relativePath then spawnUploads batch
    else
      let skipped ← skipMissing runId baseSummary file.localPath file.relativePath file.remotePath
      if skipped then spawnUploads batch
      else
        let operationId ← state (.appendOperationStarted {
          runId, operation := uploadOperationName isUpdate
          localPath := some (pathToStableString file.localPath)
          remotePath := some file.remotePath })
        perform (.spawn (.upload operationId file isUpdate cancelledText))
        spawnUploads batch

/-- `file_status_after_upload`. -/
def fileStatusAfterUpload (file : LocalFileEntry) : Engine FileStateStatus := do
  match ← perform (.fileMetadata file.localPath) with
  | none => return .syncedChangedDuringUpload
  | some (size,mtimeNs) =>
    if size ≠ file.sizeBytes ∨ mtimeNs ≠ file.mtimeNs then return .syncedChangedDuringUpload
    else return .synced

def countUpload (file : LocalFileEntry) (isUpdate : Bool) (summary : RootSyncSummary) :
    RootSyncSummary :=
  let summary := if isUpdate then { summary with updatedFiles := summary.updatedFiles+1 }
    else { summary with uploadedFiles := summary.uploadedFiles+1 }
  { summary with bytesUploaded := i64Add summary.bytesUploaded (u64ToI64 file.sizeBytes) }

def recordUploaded (operationId : Int) (file : LocalFileEntry) (isUpdate : Bool) :
    Engine Unit := do
  state (.finishOperation operationId .succeeded none none)
  let status ← fileStatusAfterUpload file
  state (.upsertFileState (fileStateRecord file runId status none))
  state (.upsertRemoteResource (uploadedResourceRecord file))
  modifySummary (countUpload file isUpdate)
  persistRootProgress runId baseSummary

/-- An upload given up for a reason that skips the file. -/
def recordSkippedUpload (operationId : Int) (file : LocalFileEntry) (reasonCode errorMessage : Str) :
    Engine Unit := do
  state (.finishOperation operationId .cancelled (some reasonCode) (some errorMessage))
  state (.markSkipped {
    rootId := file.rootId, localPath := pathToStableString file.localPath
    relativePath := some file.relativePath, remotePath := some file.remotePath
    reasonCode, reasonDetails := some errorMessage
    sizeBytes := some (u64ToI64 file.sizeBytes) })
  state (.upsertFileState (fileStateRecord file runId .skipped (some errorMessage)))
  modifySummary fun summary => { summary with skippedFiles := summary.skippedFiles+1 }
  persistRootProgress runId baseSummary

/-- A failed upload; the answer is whether the run has to stop. -/
def recordUploadFailure (outcome : UploadTaskOutcome) (failure : UploadTaskFailure) :
    Engine Bool := do
  let file := outcome.file
  match ← registerMissingLocalPath file.localPath file.relativePath file.remotePath with
  | some subtree =>
    state (.finishOperation outcome.operationId .cancelled (some "local_subtree_deleted".toList)
      (some "local subtree deleted during sync run".toList))
    recordDeletedSubtree runId subtree
    persistRootProgress runId baseSummary
    return false
  | none =>
    match failure.skipReasonCode with
    | some reasonCode =>
      recordSkippedUpload runId baseSummary outcome.operationId file reasonCode
        failure.errorMessage
      return false
    | none =>
      recordOperationFailure runId baseSummary outcome.operationId {
        rootId := root.id, localPath := some (pathToStableString file.localPath)
        remotePath := some file.remotePath, operation := uploadOperationName outcome.isUpdate
        errorKind := failure.errorKind, errorMessage := failure.errorMessage }
      if failure.shouldStop then
        stopRoot failure.errorMessage
        return true
      else return false

def joinUploads : Nat → Nat → Engine UploadPhaseResult
  | 0, bytesUploaded => return { shouldStop := false, bytesUploaded }
  | fuel+1, bytesUploaded => do
    match ← perform .joinNext with
    | some (.uploaded outcome) =>
      match outcome.result with
      | .ok _ =>
        recordUploaded runId baseSummary outcome.operationId outcome.file outcome.isUpdate
        joinUploads fuel (saturatingAdd bytesUploaded outcome.file.sizeBytes)
      | .error failure =>
        let stop ← recordUploadFailure root runId baseSummary outcome failure
        if stop then
          perform .dropTasks
          return { shouldStop := true, bytesUploaded }
        else joinUploads fuel bytesUploaded
    | _ => return { shouldStop := false, bytesUploaded }

def uploadBatches (limit largeThreshold : Nat) :
    Nat → List (LocalFileEntry × Bool) → Nat → Engine UploadPhaseResult
  | 0, _, bytesUploaded => return { shouldStop := false, bytesUploaded }
  | fuel+1, pending, bytesUploaded => do
    if pending.isEmpty then return { shouldStop := false, bytesUploaded }
    else
      let cancelled ← isCancelled
      if cancelled then return { shouldStop := true, bytesUploaded }
      else
        let next := takeUploadBatch limit largeThreshold pending 0 false
        if next.1.isEmpty then return { shouldStop := false, bytesUploaded }
        else
          spawnUploads runId baseSummary next.1
          let result ← joinUploads root runId baseSummary (next.1.length+1) bytesUploaded
          if result.shouldStop then return result
          else uploadBatches limit largeThreshold fuel next.2 result.bytesUploaded

def applyUploads (rootPlan : RootPlan) : Engine UploadPhaseResult :=
  uploadBatches root runId baseSummary (max config.sync.uploadConcurrency 1)
    config.sync.largeFileNameSizeOnlyMinBytes rootPlan.uploads.length rootPlan.uploads 0

end Uploads

section Deletes

/-- The state writes after a resource was deleted or found gone by the delete itself. -/
def recordDeleted (operationId : Int) (delete : RemoteDeleteOperation) : Engine Unit := do
  state (.finishOperation operationId .succeeded none none)
  match delete.resourceType with
  | .file => state (.markDeleted delete.rootId delete.relativePath delete.remotePath (some runId))
  | .directory =>
    state (.markDirectoryDeleted delete.rootId delete.relativePath delete.remotePath (some runId))
  state (.deleteRemoteResourceSubtree delete.rootId delete.remotePath)

/-- The delete itself; the answer is whether the run has to stop. -/
def deleteRemote (operationId : Int) (delete : RemoteDeleteOperation) : Engine Bool := do
  match ← client (.deletePermanently delete.remotePath) with
  | .ok _ =>
    recordDeleted runId operationId delete
    modifySummary fun summary => { summary with deletedFiles := summary.deletedFiles+1 }
    persistRootProgress runId baseSummary
    return false
  | .error error =>
    if error.kind = .notFound then
      recordDeleted runId operationId delete
      return false
    else
      recordClientFailure root runId baseSummary operationId "delete_remote".toList none
        delete.remotePath error

/-- One planned delete. A resource known from the cache is looked up before. -/
def applyDelete (inventoryFromCache : Bool) (delete : RemoteDeleteOperation) : Engine Bool := do
  let operationId ← state (.appendOperationStarted {
    runId, operation := "delete_remote".toList, localPath := none
    remotePath := some delete.remotePath })
  if inventoryFromCache then
    match ← client (.metadata delete.remotePath) with
    | .ok _ => deleteRemote root runId baseSummary operationId delete
    | .error error =>
      if error.kind = .notFound then
        state (.finishOperation operationId .succeeded none none)
        state (.deleteRemoteResourceSubtree delete.rootId delete.remotePath)
        return false
      else
        recordClientFailure root runId baseSummary operationId
          "delete_remote_metadata_check".toList none delete.remotePath error
  else deleteRemote root runId baseSummary operationId delete

def deleteEach (inventoryFromCache : Bool) : List RemoteDeleteOperation → Engine Bool
  | [] => return false
  | delete :: deletes => do
    let cancelled ← isCancelled
    if cancelled then return true
    else
      let stop ← applyDelete root runId baseSummary inventoryFromCache delete
      if stop then return true
      else deleteEach inventoryFromCache deletes

def applyDeletes (canonicalRemotePath : Str) (remoteInventory : Inventory)
    (inventoryFromCache : Bool) : Engine Bool := do
  let plan ← livePlan
  deleteEach root runId baseSummary inventoryFromCache
    (collectCoalescedDeleteOperations root canonicalRemotePath plan remoteInventory)

end Deletes

section Root

def scanRootOf (canonicalRemotePath : Str) : ScanRoot :=
  { id := root.id, pathText := root.localPath, canonicalRemotePath, excludes := root.excludes }

/-- `scan_root_with_repository`. -/
def scanRootWithRepository (options : ScanOptions) (scanRoot : ScanRoot) :
    Engine (Except ScannerError ScanReport) := do
  match ← perform (.state (.listFileStatesForRoot scanRoot.id)) with
  | .ok previousStates => perform (.scan options scanRoot previousStates)
  | .error error => return .error (.state error)

def incompleteInventoryStatus (error : YandexDiskError) : RootRemoteInventoryStatus :=
  { rootId := root.id, isComplete := false, snapshotCompletedAt := none
    snapshotExpiresAt := none, resourceCount := 0, lastError := some error.message }

def quotaMessage (uploadBytes available : Nat) : Str :=
  "planned upload size ".toList ++ (toString uploadBytes).toList ++
    " bytes exceeds available Yandex Disk quota ".toList ++ (toString available).toList ++
    " bytes".toList

/-- Turns a scan into the live plan of the root. -/
def planScan (scanReport : ScanReport) : Engine LiveScanPlan := do
  recordScanFindings scanReport
  let plan ← LiveScanPlan.fromScanReport (fun path => perform (.isDir path)) setScanPlan
    (pathComponents root.localPath) scanReport
  setLivePlan plan
  modifySummary fun summary => { summary with
    scannedFiles := plan.files.length, skippedFiles := scanReport.skipped.length
    failedFiles := scanReport.failed.length }
  recordDeletedSubtrees runId plan.deletedSubtrees
  persistRootProgress runId baseSummary
  return plan

/-- Creates, uploads, then deletes. -/
def applyPlan (canonicalRemotePath : Str) (scanReport : ScanReport) (rootPlan : RootPlan)
    (snapshot : RemoteInventorySnapshot) : Engine RootExecutionResult := do
  let stopAfterCreate ← applyCreateDirectories config root runId baseSummary rootPlan
  let cancelled ← isCancelled
  if stopAfterCreate || cancelled then
    cleanupStagingFiles scanReport.files
    finishRootCancelledOrFailed root
    return { shouldStop := true }
  else
    let uploaded ← applyUploads config root runId baseSummary rootPlan
    cleanupStagingFiles scanReport.files
    let cancelled ← isCancelled
    if uploaded.shouldStop || cancelled then
      finishRootCancelledOrFailed root
      return { shouldStop := true, bytesUploaded := some uploaded.bytesUploaded }
    else
      let stopAfterDelete ← applyDeletes root runId baseSummary canonicalRemotePath
        snapshot.resources snapshot.fromCache
      finishRootCancelledOrFailed root
      persistRootProgress runId baseSummary
      return { shouldStop := stopAfterDelete, bytesUploaded := some uploaded.bytesUploaded }

/-- The quota check, then the phases of the plan. -/
def executePlan (canonicalRemotePath : Str) (scanReport : ScanReport) (plan : LiveScanPlan)
    (snapshot : RemoteInventorySnapshot) (availableRemoteBytes : Option Nat) :
    Engine RootExecutionResult := do
  let rootPlan := buildRootPlan ext root canonicalRemotePath plan snapshot.resources
  match availableRemoteBytes.filter fun available => available < rootPlan.uploadBytes with
  | some available =>
    let message := quotaMessage rootPlan.uploadBytes available
    failRoot root "quota_check".toList YandexDiskErrorKind.quotaExceeded.asStr message
    modifyReport fun report => { report with
      summary := { report.summary with errorSummary := some message } }
    return { shouldStop := true }
  | none =>
    modifyReport fun report => { report with plan := report.plan ++ rootPlan.operations }
    applyPlan config root runId baseSummary canonicalRemotePath scanReport rootPlan snapshot

def executeScanned (canonicalRemotePath : Str) (scanReport : ScanReport)
    (availableRemoteBytes : Option Nat) (forceRemoteRescan : Bool) :
    Engine RootExecutionResult := do
  let plan ← planScan root runId baseSummary scanReport
  match localRemoteCollision plan.directories plan.files with
  | some message =>
    failRoot root "plan".toList "path_collision".toList message
    return { shouldStop := false }
  | none =>
    match ← (liftM (remoteInventory config root canonicalRemotePath plan forceRemoteRescan).run :
        Engine (Except YandexDiskError RemoteInventorySnapshot)) with
    | .error error =>
      state (.setRootRemoteInventoryStatus (incompleteInventoryStatus root error))
      if isStopError error.kind then
        failRoot root "remote_inventory".toList error.kind.asStr error.message
        return { shouldStop := true }
      else
        partialFailRoot root "remote_inventory".toList error.kind.asStr error.message
        return { shouldStop := false }
    | .ok snapshot =>
      executePlan ext config root runId baseSummary canonicalRemotePath scanReport plan snapshot
        availableRemoteBytes

def executeRoot (options : ScanOptions) (canonicalRemotePath : Str)
    (availableRemoteBytes : Option Nat) (forceRemoteRescan : Bool) :
    Engine RootExecutionResult := do
  match ← scanRootWithRepository options (scanRootOf root canonicalRemotePath) with
  | .error error =>
    failRoot root "scan".toList "scanner".toList error.message
    return { shouldStop := false }
  | .ok scanReport =>
    executeScanned ext config root runId baseSummary canonicalRemotePath scanReport
      availableRemoteBytes forceRemoteRescan

end Root

section Run

def availableRemoteBytes : Engine (Option Nat) := do
  match ← client .diskInfo with
  | .ok quota => return quota.totalSpace.bind fun total => quota.usedSpace.map (total - ·)
  | .error error =>
    modifyReport fun report => { report with
      summary := { report.summary with errorSummary := some error.display } }
    return none

def initialRootSummary (canonicalRemotePath : Str) : RootSyncSummary :=
  { rootId := root.id, localPath := root.localPath, canonicalRemotePath
    status := rootStatusSucceeded }

def missingRootMessage : Str :=
  "local root is missing or not a directory: ".toList ++ root.localPath

def recordMissingRoot (canonicalRemotePath : Str) : Engine Unit := do
  state (.markSkipped {
    rootId := root.id, localPath := root.localPath, relativePath := none
    remotePath := some canonicalRemotePath, reasonCode := "missing_root".toList
    reasonDetails := some (missingRootMessage root), sizeBytes := none })
  state (.updateSyncRootStatus root.id rootStatusSkipped (some (missingRootMessage root)))
  modifySummary fun summary => { summary with
    status := rootStatusSkipped, skippedFiles := 1
    errorSummary := some (missingRootMessage root) }

/-- Adds the summary of a root that is done to the report. -/
def finishRootSummary : Engine Unit := do
  let memory ← memory
  modifyReport fun report => { report with
    summary := addRootSummary report.summary memory.rootSummary
    roots := report.roots ++ [memory.rootSummary] }

/-- One round of the loop over the roots: whether it goes on, with what quota. -/
def executeRunRoot (options : ScanOptions) (availableRemoteBytes : Option Nat)
    (forceRemoteRescan : Bool) : Engine (Bool × Option Nat) := do
  match canonicalRemotePath config.instanceConfig.remoteRoot root.localPath
      root.remotePathOverride with
  | .error error => throw (.pathMapping root.id error)
  | .ok canonical =>
    state (.upsertSyncRoot root.id root.localPath config.instanceConfig.remoteRoot canonical
      root.enabled)
    perform (.updateMemory fun memory => { memory with
      rootSummary := initialRootSummary root canonical, scanPlan := none, livePlan := none })
    let isDir ← perform (.isDir (pathComponents root.localPath))
    if !isDir then
      recordMissingRoot root canonical
      finishRootSummary
      return (true,availableRemoteBytes)
    else
      let before ← memory
      let result ← executeRoot ext config root runId before.report.summary options canonical
        availableRemoteBytes forceRemoteRescan
      finishRootSummary
      let available := match result.bytesUploaded with
        | some consumed => availableRemoteBytes.map (· - consumed)
        | none => availableRemoteBytes
      if result.shouldStop then return (false,available)
      else
        let cancelled ← isCancelled
        return (!cancelled,available)

def executeRoots (options : ScanOptions) (forceRemoteRescan : Bool) :
    List SyncRootConfig → Option Nat → Engine Unit
  | [], _ => pure ()
  | root :: roots, availableRemoteBytes => do
    let cancelled ← isCancelled
    if cancelled then
      modifyReport fun report => { report with
        summary := { report.summary with errorSummary := some cancelledText } }
    else
      let next ← executeRunRoot ext config root runId options availableRemoteBytes
        forceRemoteRescan
      if next.1 then executeRoots options forceRemoteRescan roots next.2
      else pure ()

def enabledRoots : List SyncRootConfig := config.roots.filter SyncRootConfig.enabled

def executeRun (forceRemoteRescan : Bool) : Engine Unit := do
  let available ← availableRemoteBytes
  executeRoots ext config runId
    (ScanOptions.fromConfig config.sync config.globalExcludes config.absoluteExcludes
      config.paths.stagingDir)
    forceRemoteRescan (enabledRoots config) available

end Run

section RunOnce

def shouldMigrateAny : List SyncRootConfig → Engine Bool
  | [] => return false
  | root :: roots => do
    let isDir ← perform (.isDir (pathComponents root.localPath))
    if isDir then
      let snapshot ← state (.hasSnapshotForRoot root.id)
      if snapshot then shouldMigrateAny roots
      else return true
    else shouldMigrateAny roots

def shouldAutoMigrate : Engine Bool := shouldMigrateAny (enabledRoots config)

/-- Runs that a migration starts itself never ask for one. -/
def wantsMigration (trigger : SyncRunTrigger) : Engine Bool :=
  if trigger = .migration then pure false else shouldAutoMigrate config

/-- How an execution ends: the status and the counters of the report. -/
def concludeRun (execution : Except SyncError Unit) : Engine Unit := do
  match execution with
  | .error error =>
    modifyReport fun report => { report with
      status := .failed
      summary := { report.summary with
        failedFiles := report.summary.failedFiles+1, errorSummary := some error.message } }
  | .ok _ =>
    let cancelled ← isCancelled
    if cancelled then
      modifyReport fun report => { report with
        status := .cancelled
        summary := { report.summary with
          errorSummary := some (report.summary.errorSummary.getD cancelledText) } }
    else
      modifyReport fun report => { report with
        status := statusFromSummary report.summary report.roots }

/-- Stores the report of a run and releases the lock, even if storing fails. -/
def closeRun (runId : Int) (guard : RunLockGuard) : Engine SyncRunReport := do
  let memory ← memory
  let finished ← perform (.state (.finishRun runId memory.report.status memory.report.summary))
  let released ← perform (.state (.releaseRunLock guard))
  match finished, released with
  | .error error, _ => throw (.state error)
  | _, .error error => throw (.state error)
  | .ok _, .ok _ => return memory.report

/-- A run between taking the lock and releasing it. -/
def runLocked (trigger : SyncRunTrigger) (forceRemoteRescan : Bool) (guard : RunLockGuard) :
    Engine SyncRunReport := do
  state .repairInterruptedRuns
  let runId ← state (.beginRun trigger)
  perform (.updateMemory fun _ => { report := { runId } })
  let execution ← (liftM (executeRun ext config runId
    (forceRemoteRescan || config.sync.forceRemoteRescan)).run : Engine (Except SyncError Unit))
  concludeRun execution
  closeRun runId guard

structure SyncRunOptions where
  trigger : SyncRunTrigger := .cli
  lockOwner : Str
  /-- the whole seconds of the duration; the lock goes by nothing finer -/
  staleLockAfter : Int
  forceRemoteRescan : Bool := false

inductive RunOnceResult
  /-- the run is handed to the migration engine -/
  | migrate
  | ran (report : SyncRunReport)

def ensureValidConfig : Engine Unit :=
  if (validateConfig ext config).isValid then pure ()
  else throw (.configInvalid ("; ".toList.intercalate
    ((validateConfig ext config).map ConfigValidationError.message)))

def acquireRunLock (owner : Str) (staleAfter : Int) :
    Engine (Except StateError (Option RunLockGuard)) :=
  liftM (RunLock.tryAcquireRunLock owner staleAfter :
    Locking SyncMemory (Option RunLockGuard)).run

def runOnce (options : SyncRunOptions) : Engine RunOnceResult := do
  ensureValidConfig ext config
  let migrate ← wantsMigration config options.trigger
  if migrate then return .migrate
  else
    match ← acquireRunLock options.lockOwner options.staleLockAfter with
    | .error error => throw (.state error)
    | .ok none => throw .alreadyRunning
    | .ok (some guard) =>
      let report ← runLocked ext config options.trigger options.forceRemoteRescan guard
      return .ran report

end RunOnce

end SyncEngine

end YaDiskSync
