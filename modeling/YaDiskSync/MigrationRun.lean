import YaDiskSync.MigrationEngine

/-! One run of the migration engine: moves of what a legacy layout holds, adoption or upload of
each live file, deletes of what is left. The fuel of a loop is the number of entries it works
off. -/
namespace YaDiskSync

namespace MigrationEngine

variable (ext : Externals) (config : AppConfig) (root : SyncRootConfig) (runId : Int)
  (baseSummary : SyncRunSummary)

section Moves

/-- `legacy.resources.contains_key(&legacy.root_path)`. -/
def LegacyInventory.isPresent (legacy : LegacyInventory) : Bool :=
  legacy.resources.contains legacy.rootPath

def clearLegacy (index : Nat) (sets : RemoteSets) : RemoteSets :=
  { sets with legacy := sets.legacy.modify index LegacyInventory.clear }

def forgetLegacy (index : Nat) (path : Str) (sets : RemoteSets) : RemoteSets :=
  { sets with legacy := sets.legacy.modify index (LegacyInventory.forget path) }

/-- The move of a whole legacy root to the place of a canonical root that holds nothing. -/
def moveLegacyRoot (index : Nat) (source target : Str) : Migrator Bool := do
  let operationId ← state (.appendOperationStarted {
    runId, operation := "migration_move_legacy_root".toList, localPath := none
    remotePath := some source })
  match ← client (.moveResource source target false) with
  | .ok _ =>
    state (.finishOperation operationId .succeeded none none)
    state (.upsertMigrationMap {
      rootId := root.id, legacyRemotePath := source, canonicalRemotePath := target
      status := .moved, lastError := none })
    planned (.moveLegacyResource source target)
    modifySummary fun summary => { summary with movedResources := summary.movedResources+1 }
    match ← (liftM (migrationInventory target []).run :
        Migrator (Except YandexDiskError Inventory)) with
    | .error error => throw (.yandexDisk error)
    | .ok canonical =>
      modifySets fun sets => { sets with canonical }
      modifySets (clearLegacy index)
      return false
  | .error error =>
    recordCallFailure root operationId source target "migration_move_legacy_root".toList error
    return isStopError error.kind

def tryTopLevelMove : Migrator Bool := do
  let cancelled ← isCancelled
  let memory ← memory
  if cancelled || !memory.remoteSets.canonical.isEmpty then return false
  else
    match memory.remoteSets.legacy.findIdx? LegacyInventory.isPresent with
    | none => return false
    | some index =>
      let source := ((memory.remoteSets.legacy[index]?).map LegacyInventory.rootPath).getD []
      let target := memory.rootSummary.canonicalRemotePath
      ensureParentDirectories runId target
      let cancelled ← isCancelled
      if cancelled then return true
      else moveLegacyRoot root runId index source target

/-- `remote_matches_local`. -/
def remoteMatchesLocal (file : LocalFileEntry) (remote : ResourceMetadata) :
    Migrator AdoptionDecision := do
  if remote.resourceType ≠ .file ∨ remote.sizeBytes ≠ some file.sizeBytes then
    return { isMatch := false, method := "type_or_size_mismatch".toList }
  else if file.sizeBytes ≤ config.sync.fullHashMaxBytes then
    match remote.md5 with
    | some remoteMd5 =>
      return {
        isMatch := file.fingerprint.localMd5.any fun localMd5 => eqIgnoreAsciiCase localMd5 remoteMd5
        method := "md5".toList }
    | none =>
      match ← perform (.readFile file.uploadSource) with
      | .error error => throw (.io file.uploadSource error)
      | .ok localContent =>
        match ← client (.download remote.path) with
        | .error error => throw (.yandexDisk error)
        | .ok remoteContent =>
          return { isMatch := localContent == remoteContent
                   method := "download_full_compare".toList }
  else return { isMatch := true, method := "path_name_size".toList }

/-- The move of one legacy file; the answer is whether the run has to stop. -/
def moveLegacyFile (file : LocalFileEntry) (index : Nat) (legacyPath : Str)
    (legacyResource : ResourceMetadata) : Migrator Bool := do
  let operationId ← state (.appendOperationStarted {
    runId, operation := "migration_move_legacy_file".toList
    localPath := some (pathToStableString file.localPath), remotePath := some legacyPath })
  match ← client (.moveResource legacyPath file.remotePath false) with
  | .ok _ =>
    state (.finishOperation operationId .succeeded none none)
    state (.upsertMigrationMap {
      rootId := root.id, legacyRemotePath := legacyPath, canonicalRemotePath := file.remotePath
      status := .merged, lastError := none })
    insertCanonical { legacyResource with
      path := file.remotePath, name := lastRemoteSegment file.remotePath }
    modifySets (forgetLegacy index legacyPath)
    planned (.moveLegacyResource legacyPath file.remotePath)
    modifySummary fun summary => { summary with movedResources := summary.movedResources+1 }
    return false
  | .error error =>
    recordCallFailure root operationId legacyPath file.remotePath
      "migration_move_legacy_file".toList error
    return isStopError error.kind

/-- One round of the loop that moves legacy files; the answer is whether the run has to stop. -/
def mergeFile (file : LocalFileEntry) : Migrator Bool := do
  let memory ← memory
  if memory.remoteSets.canonical.holds file.remotePath .file then return false
  else
    match findLegacyFile file.relativePath 0 memory.remoteSets.legacy with
    | none => return false
    | some (index,legacyPath,legacyResource) =>
      match ← attempt (remoteMatchesLocal config file legacyResource) with
      | .error error =>
        if (perFileProcessingError error).isSome then
          recordFileProcessingFailure root runId file "migration_compare_legacy_file".toList
            legacyPath error
          return false
        else throw error
      | .ok decision =>
        if !decision.isMatch then return false
        else
          ensureParentDirectories runId file.remotePath
          let cancelled ← isCancelled
          if cancelled then return true
          else moveLegacyFile root runId file index legacyPath legacyResource

def mergeFiles : List LocalFileEntry → Migrator Bool
  | [] => return false
  | file :: files => do
    let cancelled ← isCancelled
    if cancelled then return true
    else
      let stop ← mergeFile config root runId file
      if stop then return true
      else mergeFiles files

def mergeDirectories : List LocalDirectoryEntry → Migrator Bool
  | [] => return false
  | directory :: directories => do
    ensureDirectory runId directory.remotePath
    state (.upsertDirectoryState (directoryStateRecord directory runId))
    let cancelled ← isCancelled
    if cancelled then return true
    else
      persistRootProgress runId baseSummary
      mergeDirectories directories

def applyMergeMoves : Migrator Bool := do
  let start ← memory
  ensureDirectory runId start.rootSummary.canonicalRemotePath
  let cancelled ← isCancelled
  if cancelled then return true
  else
    state (.upsertDirectoryState (directoryStateRecord
      (rootDirectory ext root start.rootSummary.canonicalRemotePath) runId))
    let plan ← livePlan
    let stop ← mergeDirectories runId baseSummary plan.directories
    if stop then return true
    else mergeFiles config root runId plan.files

end Moves

section Adoption

def flushAdoptions : Migrator Unit := do
  let memory ← memory
  let batch := memory.adoptionBatch
  if batch.fileStates.isEmpty then pure ()
  else
    state (.upsertFileStates batch.fileStates)
    state (.upsertRemoteResources batch.remoteResources)
    state (.upsertMigrationMaps batch.migrationMaps)
    state (.appendOperationsSucceeded batch.operations)
    perform (.updateMemory fun memory => { memory with adoptionBatch := {} })

def adoptionBatchSize : Nat := 1000

/-- A file whose remote copy is taken over as it is. -/
def adoptFile (file : LocalFileEntry) (remote : ResourceMetadata) (method : Str) :
    Migrator Unit := do
  perform (.updateMemory fun memory => { memory with adoptionBatch := {
    operations := memory.adoptionBatch.operations ++ [{
      runId, operation := "migration_adopt_remote_file".toList
      localPath := some (pathToStableString file.localPath)
      remotePath := some file.remotePath }]
    fileStates := memory.adoptionBatch.fileStates ++
      [migrationFileStateRecord file runId .synced none remote.md5]
    remoteResources := memory.adoptionBatch.remoteResources ++
      [remoteResourceRecord root.id remote]
    migrationMaps := memory.adoptionBatch.migrationMaps ++ [{
      rootId := root.id, legacyRemotePath := file.remotePath
      canonicalRemotePath := file.remotePath, status := .adopted, lastError := none }] } })
  planned (.adoptRemoteFile file.relativePath file.remotePath method)
  modifySummary fun summary => { summary with adoptedFiles := summary.adoptedFiles+1 }
  let memory ← memory
  if adoptionBatchSize ≤ memory.adoptionBatch.fileStates.length then
    flushAdoptions
    persistRootProgress runId baseSummary
  else persistRootProgress runId baseSummary

/-- A file left out for an error of its own. -/
def leaveOut (file : LocalFileEntry) (operation : Str) (error : MigrationError) :
    Migrator Unit := do
  flushAdoptions
  recordFileProcessingFailure root runId file operation file.remotePath error
  persistRootProgress runId baseSummary

def disappearedError (path : LocalPath) : MigrationError :=
  .io path { kind := .notFound, text := "local file disappeared after scan".toList }

/-- Whether a file is left out because it is not there any more. -/
def leaveOutMissing (file : LocalFileEntry) : Migrator Bool := do
  let plan ← livePlan
  if plan.isDeletedRelativePath file.relativePath then return true
  else
    match ← registerMissingLocalPath file.localPath file.relativePath file.remotePath with
    | some subtree =>
      flushAdoptions
      recordDeletedSubtree runId subtree
      persistRootProgress runId baseSummary
      return true
    | none =>
      let isFile ← perform (.isFile file.localPath)
      if isFile then return false
      else
        leaveOut root runId baseSummary file "migration_adopt_remote_file".toList
          (disappearedError file.localPath)
        return true

/-- Whether a file is settled by what its canonical path holds. -/
def tryAdopt (previous : Str → Option FileStateRecord) (file : LocalFileEntry)
    (remote : ResourceMetadata) : Migrator Bool := do
  if (previous file.relativePath).any fun record =>
      canResumeSyncedFile record file remote config then
    modifySummary fun summary => { summary with adoptedFiles := summary.adoptedFiles+1 }
    return true
  else
    match ← attempt (remoteMatchesLocal config file remote) with
    | .error error =>
      if (perFileProcessingError error).isSome then
        leaveOut root runId baseSummary file "migration_adopt_remote_file".toList error
        return true
      else throw error
    | .ok decision =>
      if decision.isMatch then
        adoptFile root runId baseSummary file remote decision.method
        return true
      else return false

end Adoption

section Uploads

/-- Starts the uploads of a batch; what has gone missing is cancelled. -/
def spawnCandidates : List MigrationUploadCandidate → Migrator Unit
  | [] => pure ()
  | candidate :: batch => do
    let plan ← livePlan
    if plan.isDeletedRelativePath candidate.file.relativePath then spawnCandidates batch
    else
      match ← registerMissingLocalPath candidate.file.localPath candidate.file.relativePath
          candidate.file.remotePath with
      | some subtree =>
        state (.finishOperation candidate.operationId .cancelled
          (some "local_subtree_deleted".toList)
          (some "local subtree deleted during migration run".toList))
        recordDeletedSubtree runId subtree
        persistRootProgress runId baseSummary
        spawnCandidates batch
      | none =>
        perform (.spawn (.upload candidate.operationId candidate.file candidate.isUpdate
          migrationCancelledText))
        spawnCandidates batch

/-- The map entry of a file uploaded, skipped or failed. -/
def fileMap (file : LocalFileEntry) (status : MigrationMapStatus) (lastError : Option Str) :
    MigrationMapRecord :=
  { rootId := root.id, legacyRemotePath := file.remotePath
    canonicalRemotePath := file.remotePath, status, lastError }

/-- `file_status_after_upload`. -/
def fileStatusAfterUpload (file : LocalFileEntry) : Migrator FileStateStatus := do
  match ← perform (.fileMetadata file.localPath) with
  | none => return .syncedChangedDuringUpload
  | some (size,mtimeNs) =>
    if size ≠ file.sizeBytes ∨ mtimeNs ≠ file.mtimeNs then return .syncedChangedDuringUpload
    else return .synced

def countUpload (file : LocalFileEntry) (isUpdate : Bool) (summary : MigrationRootSummary) :
    MigrationRootSummary :=
  let summary := if isUpdate then { summary with updatedFiles := summary.updatedFiles+1 }
    else { summary with uploadedFiles := summary.uploadedFiles+1 }
  { summary with bytesUploaded := i64Add summary.bytesUploaded (u64ToI64 file.sizeBytes) }

def recordMigrationUploaded (operationId : Int) (file : LocalFileEntry) (isUpdate : Bool) :
    Migrator Unit := do
  state (.finishOperation operationId .succeeded none none)
  let status ← fileStatusAfterUpload file
  state (.upsertFileState
    (migrationFileStateRecord file runId status none file.fingerprint.localMd5))
  insertCanonical (uploadedMetadata file)
  state (.upsertRemoteResource (remoteResourceRecord root.id (uploadedMetadata file)))
  state (.upsertMigrationMap (fileMap root file .uploaded none))
  modifySummary (countUpload file isUpdate)
  persistRootProgress runId baseSummary

def recordMigrationSkipped (operationId : Int) (file : LocalFileEntry)
    (reasonCode errorMessage : Str) : Migrator Unit := do
  state (.finishOperation operationId .cancelled (some reasonCode) (some errorMessage))
  state (.markSkipped {
    rootId := root.id, localPath := pathToStableString file.localPath
    relativePath := some file.relativePath, remotePath := some file.remotePath
    reasonCode, reasonDetails := some errorMessage
    sizeBytes := some (u64ToI64 file.sizeBytes) })
  state (.upsertFileState
    (migrationFileStateRecord file runId .skipped (some errorMessage) none))
  state (.upsertMigrationMap (fileMap root file .skipped (some errorMessage)))
  modifySummary fun summary => { summary with skippedFiles := summary.skippedFiles+1 }
  persistRootProgress runId baseSummary

/-- A failed upload; the answer is whether the run has to stop after the batches. -/
def recordMigrationUploadFailure (outcome : UploadTaskOutcome) (failure : UploadTaskFailure) :
    Migrator Bool := do
  let file := outcome.file
  match ← registerMissingLocalPath file.localPath file.relativePath file.remotePath with
  | some subtree =>
    state (.finishOperation outcome.operationId .cancelled (some "local_subtree_deleted".toList)
      (some "local subtree deleted during migration run".toList))
    recordDeletedSubtree runId subtree
    persistRootProgress runId baseSummary
    return false
  | none =>
    match failure.skipReasonCode with
    | some reasonCode =>
      recordMigrationSkipped root runId baseSummary outcome.operationId file reasonCode
        failure.errorMessage
      return false
    | none =>
      state (.finishOperation outcome.operationId .failed (some failure.errorKind)
        (some failure.errorMessage))
      state (.markFailed {
        rootId := root.id, localPath := none, remotePath := some file.remotePath
        operation := migrationOperationName outcome.isUpdate, errorKind := failure.errorKind
        errorMessage := failure.errorMessage })
      state (.upsertMigrationMap (fileMap root file .failed (some failure.errorMessage)))
      modifySummary fun summary => { summary with
        failedFiles := summary.failedFiles+1, errorSummary := some failure.errorMessage }
      persistRootProgress runId baseSummary
      return failure.shouldStop

/-- All tasks of a batch are joined, whatever their outcomes. -/
def joinMigrationUploads : Nat → MigrationUploadResult → Migrator MigrationUploadResult
  | 0, result => return result
  | fuel+1, result => do
    match ← perform .joinNext with
    | some (.uploaded outcome) =>
      match outcome.result with
      | .ok _ =>
        recordMigrationUploaded root runId baseSummary outcome.operationId outcome.file
          outcome.isUpdate
        joinMigrationUploads fuel { result with
          bytesUploaded := saturatingAdd result.bytesUploaded outcome.file.sizeBytes }
      | .error failure =>
        let stop ← recordMigrationUploadFailure root runId baseSummary outcome failure
        joinMigrationUploads fuel { result with shouldStop := result.shouldStop || stop }
    | _ => return result

/-- The rounds that work off the candidates, as many at a time as may run together. -/
def uploadRounds : Nat → MigrationUploadResult → Migrator MigrationUploadResult
  | 0, result => return result
  | fuel+1, result => do
    let memory ← memory
    if memory.uploadBatch.isEmpty then return result
    else
      let next := takeMigrationUploadBatch (max config.sync.uploadConcurrency 1)
        config.sync.largeFileNameSizeOnlyMinBytes memory.uploadBatch 0 false
      setUploadBatch next.2
      spawnCandidates runId baseSummary next.1
      let result ← joinMigrationUploads root runId baseSummary (next.1.length+1) result
      uploadRounds fuel result

def applyMigrationUploadBatch : Migrator MigrationUploadResult := do
  let memory ← memory
  uploadRounds config root runId baseSummary memory.uploadBatch.length
    { shouldStop := false, bytesUploaded := 0 }

def migrationQuotaMessage (available : Nat) : Str :=
  "planned migration upload size exceeds available Yandex Disk quota ".toList ++
    (toString available).toList ++ " bytes".toList

/-- What has been uploaded, what is pending and the file do not fit in. -/
def exceedsQuota (available bytesUploaded : Nat) (pending : List MigrationUploadCandidate)
    (file : LocalFileEntry) : Bool :=
  decide (available < saturatingAdd
    (saturatingAdd bytesUploaded
      (pending.foldl (fun total candidate => saturatingAdd total candidate.file.sizeBytes) 0))
    file.sizeBytes)

/-- Opens the journal entry of an upload and keeps it as a candidate. -/
def queueUpload (file : LocalFileEntry) (isUpdate : Bool) : Migrator Unit := do
  let operationId ← state (.appendOperationStarted {
    runId, operation := migrationOperationName isUpdate
    localPath := some (pathToStableString file.localPath), remotePath := some file.remotePath })
  planned (.uploadFile file.relativePath file.remotePath isUpdate)
  perform (.updateMemory fun memory => { memory with
    uploadBatch := memory.uploadBatch ++ [{ operationId, file, isUpdate }] })

/-- Whether a file needs no upload: it is gone, or its canonical path holds it. -/
def settleFile (previous : Str → Option FileStateRecord) (file : LocalFileEntry) :
    Migrator Bool := do
  let leftOut ← leaveOutMissing root runId baseSummary file
  if leftOut then return true
  else
    let memory ← memory
    match (memory.remoteSets.canonical[file.remotePath]?).filter fun resource =>
        resource.resourceType == .file with
    | some remote => tryAdopt config root runId baseSummary previous file remote
    | none => return false

def adoptOrUploadEach (previous : Str → Option FileStateRecord)
    (availableRemoteBytes : Option Nat) :
    List LocalFileEntry → Nat → Migrator MigrationUploadResult
  | [], bytesUploaded => do
    flushAdoptions
    let memory ← memory
    if memory.uploadBatch.isEmpty then return { shouldStop := false, bytesUploaded }
    else
      let result ← applyMigrationUploadBatch config root runId baseSummary
      return { result with bytesUploaded := saturatingAdd bytesUploaded result.bytesUploaded }
  | file :: files, bytesUploaded => do
    let cancelled ← isCancelled
    if cancelled then
      flushAdoptions
      return { shouldStop := true, bytesUploaded }
    else
      let settled ← settleFile config root runId baseSummary previous file
      if settled then adoptOrUploadEach previous availableRemoteBytes files bytesUploaded
      else
        flushAdoptions
        let memory ← memory
        match availableRemoteBytes.filter fun available =>
            exceedsQuota available bytesUploaded memory.uploadBatch file with
        | some available =>
          failRoot root "migration_quota_check".toList YandexDiskErrorKind.quotaExceeded.asStr
            (migrationQuotaMessage available)
          return { shouldStop := true, bytesUploaded }
        | none =>
          queueUpload runId file (memory.remoteSets.canonical.holds file.remotePath .file)
          if max config.sync.uploadConcurrency 1 ≤ memory.uploadBatch.length+1 then
            let result ← applyMigrationUploadBatch config root runId baseSummary
            let bytesUploaded := saturatingAdd bytesUploaded result.bytesUploaded
            if result.shouldStop then return { shouldStop := true, bytesUploaded }
            else adoptOrUploadEach previous availableRemoteBytes files bytesUploaded
          else adoptOrUploadEach previous availableRemoteBytes files bytesUploaded

def applyAdoptOrUpload (availableRemoteBytes : Option Nat) : Migrator MigrationUploadResult := do
  let states ← state (.listFileStatesForRoot root.id)
  let plan ← livePlan
  adoptOrUploadEach config root runId baseSummary (previousStateMap states) availableRemoteBytes
    plan.files 0

end Uploads

section Deletes

/-- The state writes after a resource was deleted or found gone by the delete itself. -/
def recordMigrationDeleted (operationId : Int) (delete : DeleteCandidate) : Migrator Unit := do
  state (.finishOperation operationId .succeeded none none)
  match delete.resourceType with
  | .file => state (.markDeleted root.id delete.relativePath delete.remotePath (some runId))
  | .directory =>
    state (.markDirectoryDeleted root.id delete.relativePath delete.remotePath (some runId))
  state (.deleteRemoteResourceSubtree root.id delete.remotePath)
  state (.upsertMigrationMap {
    rootId := root.id, legacyRemotePath := delete.remotePath
    canonicalRemotePath := delete.canonicalPath, status := .deleted, lastError := none })

/-- A delete that failed; the answer is whether the run has to stop. -/
def recordDeleteFailure (operationId : Int) (delete : DeleteCandidate) (operation : Str)
    (error : YandexDiskError) : Migrator Bool := do
  recordCallFailure root operationId delete.remotePath delete.canonicalPath operation error
  persistRootProgress runId baseSummary
  return isStopError error.kind

/-- The delete itself; the answer is whether the run has to stop. -/
def deleteCandidate (operationId : Int) (delete : DeleteCandidate) : Migrator Bool := do
  match ← client (.deletePermanently delete.remotePath) with
  | .ok _ =>
    recordMigrationDeleted root runId operationId delete
    planned (.deleteRemote delete.remotePath delete.resourceType)
    modifySummary fun summary => { summary with deletedFiles := summary.deletedFiles+1 }
    persistRootProgress runId baseSummary
    return false
  | .error error =>
    if error.kind = .notFound then
      recordMigrationDeleted root runId operationId delete
      persistRootProgress runId baseSummary
      return false
    else
      recordDeleteFailure root runId baseSummary operationId delete
        "migration_delete_remote_extra".toList error

/-- One planned delete. A resource known from the cache is looked up before. -/
def applyDeleteCandidate (fromCache : Bool) (delete : DeleteCandidate) : Migrator Bool := do
  let operationId ← state (.appendOperationStarted {
    runId, operation := "migration_delete_remote_extra".toList, localPath := none
    remotePath := some delete.remotePath })
  if fromCache then
    match ← client (.metadata delete.remotePath) with
    | .ok _ => deleteCandidate root runId baseSummary operationId delete
    | .error error =>
      if error.kind = .notFound then
        state (.finishOperation operationId .succeeded none none)
        state (.deleteRemoteResourceSubtree root.id delete.remotePath)
        return false
      else
        recordDeleteFailure root runId baseSummary operationId delete
          "migration_delete_remote_metadata_check".toList error
  else deleteCandidate root runId baseSummary operationId delete

def deleteCandidates (fromCache : Bool) : List DeleteCandidate → Migrator Bool
  | [] => return false
  | delete :: deletes => do
    let cancelled ← isCancelled
    if cancelled then return true
    else
      let stop ← applyDeleteCandidate root runId baseSummary fromCache delete
      if stop then return true
      else deleteCandidates fromCache deletes

def applyDeletes : Migrator Bool := do
  let memory ← memory
  let plan ← livePlan
  deleteCandidates root runId baseSummary memory.remoteSets.fromCache
    (migrationDeletes root memory.rootSummary.canonicalRemotePath plan memory.remoteSets)

end Deletes

section Root

/-- `scan_root_with_repository`. -/
def scanRootWithRepository (options : ScanOptions) (scanRoot : ScanRoot) :
    Migrator (Except ScannerError ScanReport) := do
  match ← perform (.state (.listFileStatesForRoot scanRoot.id)) with
  | .ok previousStates => perform (.scan options scanRoot previousStates)
  | .error error => return .error (.state error)

/-- Turns a scan into the live plan of the root. -/
def planScan (scanReport : ScanReport) : Migrator LiveScanPlan := do
  recordScanFindings scanReport
  let plan ← LiveScanPlan.fromScanReport (fun path => perform (.isDir path)) setScanPlan
    (pathComponents root.localPath) scanReport
  setLivePlan plan
  modifySummary fun summary => { summary with
    scannedFiles := plan.files.length, skippedFiles := scanReport.skipped.length
    failedFiles := scanReport.failed.length }
  recordDeletedSubtrees runId plan.deletedSubtrees
  persistRootProgress runId baseSummary
  return plan

/-- A root that is given up between two phases. -/
def giveUpRoot (scanReport : ScanReport) : Migrator MigrationRootResult := do
  cleanupStagingFiles scanReport.files
  finishRootCancelledOrFailed root
  return { shouldStop := true }

/-- Uploads and deletes, once the legacy layout has been moved. -/
def settleRoot (scanReport : ScanReport) (availableRemoteBytes : Option Nat) :
    Migrator MigrationRootResult := do
  let uploaded ← applyAdoptOrUpload config root runId baseSummary availableRemoteBytes
  cleanupStagingFiles scanReport.files
  let cancelled ← isCancelled
  if uploaded.shouldStop || cancelled then
    finishRootCancelledOrFailed root
    return { shouldStop := true, bytesUploaded := some uploaded.bytesUploaded }
  else
    let stopAfterDelete ← applyDeletes root runId baseSummary
    finishRootCancelledOrFailed root
    persistRootProgress runId baseSummary
    return { shouldStop := stopAfterDelete, bytesUploaded := some uploaded.bytesUploaded }

/-- The phases of a root whose remote sets are known. -/
def migrateRoot (scanReport : ScanReport) (sets : RemoteSets) (availableRemoteBytes : Option Nat) :
    Migrator MigrationRootResult := do
  modifySets fun _ => sets
  recordRemoteResources config root sets
  let stop ← tryTopLevelMove root runId
  let cancelled ← isCancelled
  if stop || cancelled then giveUpRoot root scanReport
  else
    let stop ← applyMergeMoves ext config root runId baseSummary
    let cancelled ← isCancelled
    if stop || cancelled then giveUpRoot root scanReport
    else settleRoot config root runId baseSummary scanReport availableRemoteBytes

def executeScanned (canonicalRemotePath : Str) (scanReport : ScanReport)
    (availableRemoteBytes : Option Nat) (forceRemoteRescan : Bool) :
    Migrator MigrationRootResult := do
  let plan ← planScan root runId baseSummary scanReport
  match localRemoteCollision plan.directories plan.files with
  | some message =>
    failRoot root "plan".toList "path_collision".toList message
    cleanupStagingFiles scanReport.files
    return { shouldStop := false }
  | none =>
    match ← (liftM (loadRemoteSets root canonicalRemotePath plan forceRemoteRescan).run :
        Migrator (Except YandexDiskError RemoteSets)) with
    | .error error =>
      state (.setRootRemoteInventoryStatus (SyncEngine.incompleteInventoryStatus root error))
      if isStopError error.kind then
        failRoot root "remote_inventory".toList error.kind.asStr error.message
        cleanupStagingFiles scanReport.files
        return { shouldStop := true }
      else
        partialFailRoot root "remote_inventory".toList error.kind.asStr error.message
        cleanupStagingFiles scanReport.files
        return { shouldStop := false }
    | .ok sets =>
      migrateRoot ext config root runId baseSummary scanReport sets availableRemoteBytes

def executeRoot (options : ScanOptions) (canonicalRemotePath : Str)
    (availableRemoteBytes : Option Nat) (forceRemoteRescan : Bool) :
    Migrator MigrationRootResult := do
  match ← scanRootWithRepository options (SyncEngine.scanRootOf root canonicalRemotePath) with
  | .error error =>
    failRoot root "scan".toList "scanner".toList error.message
    return { shouldStop := false }
  | .ok scanReport =>
    executeScanned ext config root runId baseSummary canonicalRemotePath scanReport
      availableRemoteBytes forceRemoteRescan

end Root

section Run

def availableRemoteBytes : Migrator (Option Nat) := do
  match ← client .diskInfo with
  | .ok quota => return quota.totalSpace.bind fun total => quota.usedSpace.map (total - ·)
  | .error error =>
    modifyReport fun report => { report with
      summary := { report.summary with errorSummary := some error.display } }
    return none

def initialRootSummary (canonicalRemotePath : Str) : MigrationRootSummary :=
  { rootId := root.id, localPath := root.localPath, canonicalRemotePath
    legacyRemotePaths := root.legacyRemotePaths, status := rootStatusSucceeded }

def skipLegacyRoots (canonicalRemotePath : Str) : List Str → Migrator Unit
  | [] => pure ()
  | legacyRoot :: legacyRoots => do
    state (.upsertMigrationMap {
      rootId := root.id, legacyRemotePath := legacyRoot, canonicalRemotePath, status := .skipped
      lastError := some (SyncEngine.missingRootMessage root) })
    skipLegacyRoots canonicalRemotePath legacyRoots

def recordMissingRoot (canonicalRemotePath : Str) : Migrator Unit := do
  state (.markSkipped {
    rootId := root.id, localPath := root.localPath, relativePath := none
    remotePath := some canonicalRemotePath, reasonCode := "missing_root".toList
    reasonDetails := some (SyncEngine.missingRootMessage root), sizeBytes := none })
  state (.updateSyncRootStatus root.id rootStatusSkipped
    (some (SyncEngine.missingRootMessage root)))
  skipLegacyRoots root canonicalRemotePath root.legacyRemotePaths
  modifySummary fun summary => { summary with
    status := rootStatusSkipped, skippedFiles := 1
    errorSummary := some (SyncEngine.missingRootMessage root) }

/-- Adds the summary of a root that is done to the report. -/
def finishRootSummary : Migrator Unit := do
  let memory ← memory
  modifyReport fun report => { report with
    summary := addMigrationRootSummary report.summary memory.rootSummary
    roots := report.roots ++ [memory.rootSummary] }

/-- The variables of a root before anything is done for it. -/
def startRoot (canonicalRemotePath : Str) (memory : MigrationMemory) : MigrationMemory :=
  { report := memory.report, rootSummary := initialRootSummary root canonicalRemotePath }

/-- One round of the loop over the roots: whether it goes on, with what quota. -/
def executeRunRoot (options : ScanOptions) (availableRemoteBytes : Option Nat)
    (forceRemoteRescan : Bool) : Migrator (Bool × Option Nat) := do
  match canonicalRemotePath config.instanceConfig.remoteRoot root.localPath
      root.remotePathOverride with
  | .error error => throw (.pathMapping root.id error)
  | .ok canonical =>
    perform (.updateMemory (startRoot root canonical))
    state (.upsertSyncRoot root.id root.localPath config.instanceConfig.remoteRoot canonical
      root.enabled)
    let isDir ← perform (.isDir (pathComponents root.localPath))
    if !isDir then
      recordMissingRoot root canonical
      finishRootSummary
      return (true,availableRemoteBytes)
    else
      let before ← memory
      let result ← executeRoot ext config root runId before.report.summary options canonical
        availableRemoteBytes forceRemoteRescan
      finishRootSummary
      let available := match result.bytesUploaded with
        | some consumed => availableRemoteBytes.map (· - consumed)
        | none => availableRemoteBytes
      if result.shouldStop then return (false,available)
      else
        let cancelled ← isCancelled
        return (!cancelled,available)

def executeRoots (options : ScanOptions) (forceRemoteRescan : Bool) :
    List SyncRootConfig → Option Nat → Migrator Unit
  | [], _ => pure ()
  | root :: roots, availableRemoteBytes => do
    let cancelled ← isCancelled
    if cancelled then
      modifyReport fun report => { report with
        summary := { report.summary with errorSummary := some migrationCancelledText } }
    else
      let next ← executeRunRoot ext config root runId options availableRemoteBytes
        forceRemoteRescan
      if next.1 then executeRoots options forceRemoteRescan roots next.2
      else pure ()

def executeRun (forceRemoteRescan : Bool) : Migrator Unit := do
  let available ← availableRemoteBytes
  executeRoots ext config runId
    (ScanOptions.fromConfig config.sync config.globalExcludes config.absoluteExcludes
      config.paths.stagingDir)
    forceRemoteRescan (SyncEngine.enabledRoots config) available

end Run

section RunOnce

/-- How an execution ends: the status and the counters of the report. -/
def concludeRun (execution : Except MigrationError Unit) : Migrator Unit := do
  match execution with
  | .error error =>
    modifyReport fun report => { report with
      status := .failed
      summary := { report.summary with
        failedFiles := report.summary.failedFiles+1, errorSummary := some error.message } }
  | .ok _ =>
    let cancelled ← isCancelled
    if cancelled then
      modifyReport fun report => { report with
        status := .cancelled
        summary := { report.summary with
          errorSummary := some (report.summary.errorSummary.getD migrationCancelledText) } }
    else
      modifyReport fun report => { report with
        status := migrationStatusFromSummary report.summary report.roots }

/-- Stores the report of a run and releases the lock, even if storing fails. -/
def closeRun (guard : RunLockGuard) : Migrator MigrationRunReport := do
  let memory ← memory
  let finished ← perform (.state (.finishRun runId memory.report.status memory.report.summary))
  let released ← perform (.state (.releaseRunLock guard))
  match finished, released with
  | .error error, _ => throw (.state error)
  | _, .error error => throw (.state error)
  | .ok _, .ok _ => return memory.report

/-- A run between taking the lock and releasing it. -/
def runLocked (forceRemoteRescan : Bool) (guard : RunLockGuard) : Migrator MigrationRunReport := do
  state .repairInterruptedRuns
  let runId ← state (.beginRun .migration)
  perform (.updateMemory fun _ => { report := { runId } })
  let execution ← attempt (executeRun ext config runId
    (forceRemoteRescan || config.sync.forceRemoteRescan))
  concludeRun execution
  closeRun runId guard

structure MigrationRunOptions where
  lockOwner : Str
  /-- the whole seconds of the duration; the lock goes by nothing finer -/
  staleLockAfter : Int
  forceRemoteRescan : Bool := false

def ensureValidConfig : Migrator Unit :=
  if (validateConfig ext config).isValid then pure ()
  else throw (.configInvalid ("; ".toList.intercalate
    ((validateConfig ext config).map ConfigValidationError.message)))

def acquireRunLock (owner : Str) (staleAfter : Int) :
    Migrator (Except StateError (Option RunLockGuard)) :=
  liftM (RunLock.tryAcquireRunLock owner staleAfter :
    Locking MigrationMemory (Option RunLockGuard)).run

def runOnce (options : MigrationRunOptions) : Migrator MigrationRunReport := do
  ensureValidConfig ext config
  match ← acquireRunLock options.lockOwner options.staleLockAfter with
  | .error error => throw (.state error)
  | .ok none => throw .alreadyRunning
  | .ok (some guard) => runLocked ext config options.forceRemoteRescan guard

end RunOnce

end MigrationEngine

end YaDiskSync
