import YaDiskSync.MigrationModel
import YaDiskSync.SyncRun

/-! The steps of a migration and what it records of them. -/
namespace YaDiskSync

/-- A program of the migration engine. -/
abbrev Migrator := ExceptT MigrationError (Prog (Effect MigrationMemory) Effect.Answer)

namespace MigrationEngine

section Steps

def perform (e : Effect MigrationMemory) : Migrator e.Answer := liftM (Prog.perform e)

def client (call : ClientCall) : Migrator (Except YandexDiskError call.Result) :=
  perform (.client call)

/-- A repository call; its error ends the run. -/
def state (call : StateCall) : Migrator call.Result := do
  match ← perform (.state call) with
  | .ok result => return result
  | .error error => throw (.state error)

def isCancelled : Migrator Bool := perform .isCancelled

def memory : Migrator MigrationMemory := perform .readMemory

def modifySummary (f : MigrationRootSummary → MigrationRootSummary) : Migrator Unit :=
  perform (.updateMemory fun memory => { memory with rootSummary := f memory.rootSummary })

def modifyReport (f : MigrationRunReport → MigrationRunReport) : Migrator Unit :=
  perform (.updateMemory fun memory => { memory with report := f memory.report })

def planned (operation : MigrationPlanOperation) : Migrator Unit :=
  modifyReport fun report => { report with plan := report.plan ++ [operation] }

def setScanPlan (plan : LiveScanPlan) : Migrator Unit :=
  perform (.updateMemory fun memory => { memory with scanPlan := some plan })

def setLivePlan (plan : LiveScanPlan) : Migrator Unit :=
  perform (.updateMemory fun memory => { memory with livePlan := some plan })

def livePlan : Migrator LiveScanPlan := do
  let memory ← memory
  return memory.livePlan.getD { rootId := [], rootLocalPath := [] }

def modifySets (f : RemoteSets → RemoteSets) : Migrator Unit :=
  perform (.updateMemory fun memory => { memory with remoteSets := f memory.remoteSets })

def insertCanonical (resource : ResourceMetadata) : Migrator Unit :=
  modifySets fun sets => { sets with canonical := sets.canonical.insert resource.path resource }

def setUploadBatch (batch : List MigrationUploadCandidate) : Migrator Unit :=
  perform (.updateMemory fun memory => { memory with uploadBatch := batch })

/-- `LiveScanPlan::register_missing_local_path` on the plan in memory. -/
def registerMissingLocalPath (localPath : LocalPath) (relativePath remotePath : Str) :
    Migrator (Option DeletedLocalSubtree) := do
  let plan ← livePlan
  let (plan,subtree) ← plan.registerMissingLocalPath (fun path => perform (.isDir path))
    (fun path => perform (.pathExists path)) localPath relativePath remotePath
  setLivePlan plan
  return subtree

/-- A program whose error the caller looks at. -/
def attempt {α : Type} (program : Migrator α) : Migrator (Except MigrationError α) :=
  liftM program.run

end Steps

variable (config : AppConfig) (root : SyncRootConfig) (runId : Int) (baseSummary : SyncRunSummary)

section Records

def persistRootProgress : Migrator Unit := do
  let memory ← memory
  state (.updateRunProgress runId (addMigrationRootSummary baseSummary memory.rootSummary))

def failRootWith (rootStatus operation errorKind errorMessage : Str) : Migrator Unit := do
  let memory ← memory
  state (.markFailed {
    rootId := root.id, localPath := some root.localPath
    remotePath := some memory.rootSummary.canonicalRemotePath
    operation, errorKind, errorMessage })
  state (.updateSyncRootStatus root.id rootStatus (some errorMessage))
  modifySummary fun summary => { summary with
    status := rootStatus
    failedFiles := summary.failedFiles+1
    errorSummary := some errorMessage }

def failRoot := failRootWith root rootStatusFailed

def partialFailRoot := failRootWith root rootStatusPartialFailed

def recordDeletedSubtree (subtree : DeletedLocalSubtree) : Migrator Unit := do
  state (.markSubtreeDeleted subtree.rootId subtree.relativePrefix subtree.remotePrefix runId)
  state (.markSkipped {
    rootId := subtree.rootId, localPath := subtree.relativePrefix
    relativePath := some subtree.relativePrefix, remotePath := some subtree.remotePrefix
    reasonCode := "local_subtree_deleted".toList
    reasonDetails :=
      some "local subtree deleted during migration preparation or execution".toList
    sizeBytes := none })
  state (.appendOperationsSucceeded [{
    runId, operation := "skipped_local_subtree_deleted".toList
    localPath := some subtree.relativePrefix, remotePath := some subtree.remotePrefix }])
  modifySummary fun summary => { summary with skippedFiles := summary.skippedFiles+1 }

def recordDeletedSubtrees : List DeletedLocalSubtree → Migrator Unit
  | [] => pure ()
  | subtree :: subtrees => do
    recordDeletedSubtree runId subtree
    recordDeletedSubtrees subtrees

/-- `record_scan_findings`. -/
def recordScanFindings (report : ScanReport) : Migrator Unit := do
  recordSkipped report.skipped
  recordFailed report.failed
where
  recordSkipped : List SkippedScanItem → Migrator Unit
    | [] => pure ()
    | item :: items => do
      state (.markSkipped {
        rootId := item.rootId, localPath := pathToStableString item.localPath
        relativePath := some item.relativePath, remotePath := item.remotePath
        reasonCode := item.reasonCode, reasonDetails := item.reasonDetails
        sizeBytes := item.sizeBytes.bind fun size =>
          if (size : Int) ≤ i64Max then some size else none })
      recordSkipped items
  recordFailed : List FailedScanItem → Migrator Unit
    | [] => pure ()
    | item :: items => do
      state (.markFailed {
        rootId := item.rootId, localPath := item.localPath.map pathToStableString
        remotePath := item.remotePath, operation := "scan".toList
        errorKind := item.errorKind, errorMessage := item.errorMessage })
      recordFailed items

/-- `cleanup_staging_files`. -/
def cleanupStagingFiles : List LocalFileEntry → Migrator Unit
  | [] => pure ()
  | file :: files => do
    match file.sqliteBackupStagingPath with
    | none => cleanupStagingFiles files
    | some stagingPath =>
      match ← perform (.removeFile stagingPath) with
      | .ok _ => cleanupStagingFiles files
      | .error error =>
        if error.kind = .notFound then cleanupStagingFiles files
        else throw (.scanner (.io stagingPath error))

/-- `record_migration_failure` for a pair of paths. -/
def recordMigrationFailure (legacyRemotePath canonicalRemotePath operation : Str)
    (error : YandexDiskError) : Migrator Unit := do
  state (.markFailed {
    rootId := root.id, localPath := none, remotePath := some canonicalRemotePath, operation
    errorKind := error.kind.asStr, errorMessage := error.message })
  state (.upsertMigrationMap {
    rootId := root.id, legacyRemotePath, canonicalRemotePath, status := .failed
    lastError := some error.message })

/-- A failed client call: its journal entry, then the failure and the counter. -/
def recordCallFailure (operationId : Int) (legacyRemotePath canonicalRemotePath operation : Str)
    (error : YandexDiskError) : Migrator Unit := do
  state (.finishOperation operationId .failed (some error.kind.asStr) (some error.message))
  recordMigrationFailure root legacyRemotePath canonicalRemotePath operation error
  modifySummary fun summary => { summary with
    failedFiles := summary.failedFiles+1, errorSummary := some error.display }

/-- What is recorded of one file whose comparison failed. -/
def recordFileProcessingFailure (file : LocalFileEntry) (operation operationRemotePath : Str)
    (error : MigrationError) : Migrator Unit := do
  match perFileProcessingError error with
  | none =>
    throw (.yandexDisk (.critical
      ("non per-file error passed to file failure recorder: ".toList ++ error.message)))
  | some (errorKind,errorMessage) =>
    let operationId ← state (.appendOperationStarted {
      runId, operation, localPath := some (pathToStableString file.localPath)
      remotePath := some operationRemotePath })
    match skippableLocalProcessingError error with
    | some (reasonCode,reasonDetails) =>
      state (.finishOperation operationId .cancelled (some reasonCode) (some reasonDetails))
      state (.markSkipped {
        rootId := root.id, localPath := pathToStableString file.localPath
        relativePath := some file.relativePath, remotePath := some file.remotePath
        reasonCode, reasonDetails := some reasonDetails
        sizeBytes := some (u64ToI64 file.sizeBytes) })
      state (.upsertFileState
        (migrationFileStateRecord file runId .skipped (some reasonDetails) none))
      state (.upsertMigrationMap {
        rootId := root.id, legacyRemotePath := operationRemotePath
        canonicalRemotePath := file.remotePath, status := .skipped
        lastError := some reasonDetails })
      modifySummary fun summary => { summary with skippedFiles := summary.skippedFiles+1 }
    | none =>
      state (.finishOperation operationId .failed (some errorKind) (some errorMessage))
      state (.markFailed {
        rootId := root.id, localPath := some (pathToStableString file.localPath)
        remotePath := some file.remotePath, operation, errorKind, errorMessage })
      state (.upsertFileState
        (migrationFileStateRecord file runId .failed (some errorMessage) none))
      state (.upsertMigrationMap {
        rootId := root.id, legacyRemotePath := operationRemotePath
        canonicalRemotePath := file.remotePath, status := .failed
        lastError := some errorMessage })
      modifySummary fun summary => { summary with
        failedFiles := summary.failedFiles+1, errorSummary := some errorMessage }

def migrationCancelledText : Str := "migration run cancelled".toList

def finishRootCancelledOrFailed : Migrator Unit := do
  let cancelled ← isCancelled
  if cancelled then
    modifySummary fun summary => { summary with
      status := rootStatusCancelled, errorSummary := some migrationCancelledText }
    let memory ← memory
    state (.updateSyncRootStatus root.id rootStatusCancelled memory.rootSummary.errorSummary)
  else
    let memory ← memory
    if memory.rootSummary.status = rootStatusFailed then
      state (.updateSyncRootStatus root.id rootStatusFailed memory.rootSummary.errorSummary)
    else if memory.rootSummary.failedFiles > 0 then
      modifySummary fun summary => { summary with status := rootStatusPartialFailed }
      state (.updateSyncRootStatus root.id rootStatusPartialFailed
        memory.rootSummary.errorSummary)
    else
      modifySummary fun summary => { summary with status := rootStatusSucceeded }
      state (.updateSyncRootStatus root.id rootStatusSucceeded none)

end Records

section Inventories

/-- The inventories of a migration report their own errors as errors of the client. -/
abbrev Listing := ExceptT YandexDiskError (Prog (Effect MigrationMemory) Effect.Answer)

def ask (e : Effect MigrationMemory) : Listing e.Answer := liftM (Prog.perform e)

def listingState (call : StateCall) : Listing call.Result := do
  match ← ask (.state call) with
  | .ok result => return result
  | .error error => throw (.critical error.message)

/-- `remote_inventory`: a resource that is not found has an empty inventory. -/
def migrationInventory (remotePath : Str) (pruneRemotePrefixes : List Str) : Listing Inventory := do
  match ← ask (.client (.metadata remotePath)) with
  | .error error => if error.kind = .notFound then return ∅ else throw error
  | .ok rootMetadata =>
    match ← ask (.client (.listRecursive remotePath pruneRemotePrefixes)) with
    | .error error =>
      if error.kind = .notFound then return .ofResources [rootMetadata] else throw error
    | .ok listed => return .ofResources (rootMetadata :: listed)

def legacyInventories (livePlan : LiveScanPlan) : List Str → Listing (List LegacyInventory)
  | [] => return []
  | legacyRoot :: legacyRoots => do
    let resources ← migrationInventory legacyRoot
      (livePlan.deletedSubtrees.map fun subtree => joinRemotePath legacyRoot subtree.relativePrefix)
    let rest ← legacyInventories livePlan legacyRoots
    return { rootPath := legacyRoot, resources } :: rest

/-- The cached sets of a root, unless fresh ones are asked for or the cache is too old. -/
def cachedRemoteSets (canonicalRemotePath : Str) (forceRemoteRescan : Bool) :
    Listing (Option RemoteSets) := do
  if forceRemoteRescan then return none
  else
    match ← listingState (.getRootRemoteInventoryStatus root.id) with
    | none => return none
    | some status =>
      let now ← ask .now
      if status.isComplete && !isRemoteInventoryExpired status now then
        let cached ← listingState (.listRemoteResourcesForRoot root.id)
        return some (splitCachedRemoteSets root canonicalRemotePath cached true)
      else return none

def loadRemoteSets (canonicalRemotePath : Str) (livePlan : LiveScanPlan)
    (forceRemoteRescan : Bool) : Listing RemoteSets := do
  match ← cachedRemoteSets root canonicalRemotePath forceRemoteRescan with
  | some sets => return sets
  | none =>
    let canonical ← migrationInventory canonicalRemotePath livePlan.pruneRemotePrefixes
    let legacy ← legacyInventories livePlan root.legacyRemotePaths
    return { canonical, legacy, fromCache := false }

/-- Every set goes to the database as a complete snapshot. -/
def recordRemoteResources (sets : RemoteSets) : Migrator Unit := do
  let records := (sets.canonical.resources ++
    sets.legacy.flatMap fun legacy => legacy.resources.resources).map (remoteResourceRecord root.id)
  state (.replaceRemoteResourcesForRoot root.id records)
  let now ← perform .now
  state (.setRootRemoteInventoryStatus
    (SyncEngine.completeInventoryStatus config root now records.length))

end Inventories

section Directories

def createDirectoryOperation (remotePath : Str) : Migrator Unit := do
  let operationId ← state (.appendOperationStarted {
    runId, operation := "migration_create_directory".toList, localPath := none
    remotePath := some remotePath })
  match ← client (.createDirectory remotePath) with
  | .ok _ =>
    state (.finishOperation operationId .succeeded none none)
    planned (.createCanonicalDirectory remotePath)
  | .error error =>
    state (.finishOperation operationId .failed (some error.kind.asStr) (some error.message))
    modifySummary fun summary => { summary with
      failedFiles := summary.failedFiles+1, errorSummary := some error.display }
    throw (.yandexDisk error)

def ensureParents : List Str → Migrator Unit
  | [] => pure ()
  | parent :: parents => do
    let cancelled ← isCancelled
    if cancelled then pure ()
    else
      let memory ← memory
      if memory.remoteSets.canonical.holds parent .directory then ensureParents parents
      else
        createDirectoryOperation runId parent
        insertCanonical (.ofDirectory parent)
        ensureParents parents

def ensureParentDirectories (remotePath : Str) : Migrator Unit :=
  ensureParents runId (parentRemotePaths remotePath)

def ensureDirectory (remotePath : Str) : Migrator Unit := do
  let memory ← memory
  if memory.remoteSets.canonical.holds remotePath .directory then pure ()
  else
    ensureParentDirectories runId remotePath
    let cancelled ← isCancelled
    if cancelled then pure ()
    else
      createDirectoryOperation runId remotePath
      insertCanonical (.ofDirectory remotePath)

end Directories

end MigrationEngine

end YaDiskSync
