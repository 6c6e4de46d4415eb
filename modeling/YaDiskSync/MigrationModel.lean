import YaDiskSync.LegacyDeletes
import YaDiskSync.SyncEngine

/-! The migration engine: its errors, its variables, its records, and what it decides without a
step: the sets read from a cached snapshot, adoption, batches. -/
namespace YaDiskSync

inductive MigrationError
  | configInvalid (errors : Str)
  | alreadyRunning
  | io (path : LocalPath) (source : IoError)
  | pathMapping (rootId : Str) (source : PathMappingError)
  | scanner (error : ScannerError)
  | state (error : StateError)
  | yandexDisk (error : YandexDiskError)
  deriving DecidableEq

def MigrationError.message : MigrationError → Str
  | .configInvalid errors => "config validation failed: ".toList ++ errors
  | .alreadyRunning => "migration run is already running".toList
  | .io path source => "I/O error at ".toList ++ displayPath path ++ ": ".toList ++ source.text
  | .pathMapping rootId source =>
    "path mapping error for root ".toList ++ rootId ++ ": ".toList ++ source.message
  | .scanner error => "scanner error: ".toList ++ error.message
  | .state error => "state error: ".toList ++ error.message
  | .yandexDisk error => "Yandex Disk error: ".toList ++ error.display

inductive MigrationPlanOperation
  | createCanonicalDirectory (remotePath : Str)
  | moveLegacyResource (source target : Str)
  | adoptRemoteFile (relativePath remotePath method : Str)
  | uploadFile (relativePath remotePath : Str) (isUpdate : Bool)
  | deleteRemote (remotePath : Str) (resourceType : ResourceType)
  deriving DecidableEq

structure MigrationRootSummary where
  rootId : Str := []
  localPath : Str := []
  canonicalRemotePath : Str := []
  legacyRemotePaths : List Str := []
  status : Str := []
  scannedFiles : Int := 0
  adoptedFiles : Int := 0
  movedResources : Int := 0
  uploadedFiles : Int := 0
  updatedFiles : Int := 0
  deletedFiles : Int := 0
  skippedFiles : Int := 0
  failedFiles : Int := 0
  bytesUploaded : Int := 0
  errorSummary : Option Str := none
  deriving DecidableEq

structure MigrationRunReport where
  runId : Int
  status : SyncRunStatus := .running
  summary : SyncRunSummary := {}
  roots : List MigrationRootSummary := []
  plan : List MigrationPlanOperation := []
  deriving DecidableEq

/-- What a migration's summary of a root is to a sync report. -/
def MigrationRootSummary.toSync (root : MigrationRootSummary) : RootSyncSummary :=
  { rootId := root.rootId
    localPath := root.localPath
    canonicalRemotePath := root.canonicalRemotePath
    status := root.status
    scannedFiles := root.scannedFiles
    uploadedFiles := root.uploadedFiles
    updatedFiles := root.updatedFiles
    deletedFiles := root.deletedFiles
    skippedFiles := root.skippedFiles
    failedFiles := root.failedFiles
    bytesUploaded := root.bytesUploaded
    errorSummary := root.errorSummary }

def syncReportFromMigration (report : MigrationRunReport) : SyncRunReport :=
  { runId := report.runId
    status := report.status
    summary := report.summary
    roots := report.roots.map MigrationRootSummary.toSync
    plan := [] }

/-- An upload whose journal entry is open. -/
structure MigrationUploadCandidate where
  operationId : Int
  file : LocalFileEntry
  isUpdate : Bool

/-- Adopted files that are not recorded yet. -/
structure AdoptionBatch where
  operations : List OperationRecord := []
  fileStates : List FileStateRecord := []
  remoteResources : List RemoteResourceRecord := []
  migrationMaps : List MigrationMapRecord := []

/-- The variables of a migration run that outlive a step. -/
structure MigrationMemory where
  report : MigrationRunReport
  rootSummary : MigrationRootSummary := {}
  /-- the plan while it is made from the root's scan -/
  scanPlan : Option LiveScanPlan := none
  /-- set once the root's scan has been turned into a plan -/
  livePlan : Option LiveScanPlan := none
  remoteSets : RemoteSets := { canonical := ∅, legacy := [], fromCache := false }
  adoptionBatch : AdoptionBatch := {}
  uploadBatch : List MigrationUploadCandidate := []

structure MigrationRootResult where
  shouldStop : Bool
  bytesUploaded : Option Nat := none
  deriving DecidableEq

structure MigrationUploadResult where
  shouldStop : Bool
  bytesUploaded : Nat
  deriving DecidableEq

section Snapshot

/-- Whether a path is a root or lies below it. -/
def underRoot (rootPath path : Str) : Bool :=
  path == rootPath || (trimEndMatches slash rootPath ++ [slash]).isPrefixOf path

def recordedMetadata (record : RemoteResourceRecord) : ResourceMetadata :=
  { path := record.remotePath
    name := lastRemoteSegment record.remotePath
    resourceType := record.resourceType
    sizeBytes := record.sizeBytes.bind fun size => if 0 ≤ size then some size.toNat else none
    md5 := record.remoteMd5
    modified := record.mtimeRemote }

/-- A resource goes to the first legacy root that it is or that it lies below. -/
def insertLegacy (resource : ResourceMetadata) : List LegacyInventory → List LegacyInventory
  | [] => []
  | inventory :: rest =>
    if underRoot inventory.rootPath resource.path then
      { inventory with resources := inventory.resources.insert resource.path resource } :: rest
    else inventory :: insertLegacy resource rest

/-- One round of the loop over the cached records. -/
def splitStep (canonicalRemotePath : Str) (sets : RemoteSets) (record : RemoteResourceRecord) :
    RemoteSets :=
  let resource := (cachedResourceToMetadata canonicalRemotePath record).getD
    (recordedMetadata record)
  if underRoot canonicalRemotePath resource.path then
    { sets with canonical := sets.canonical.insert resource.path resource }
  else { sets with legacy := insertLegacy resource sets.legacy }

def splitCachedRemoteSets (root : SyncRootConfig) (canonicalRemotePath : Str)
    (records : List RemoteResourceRecord) (fromCache : Bool) : RemoteSets :=
  records.foldl (splitStep canonicalRemotePath) {
    canonical := ∅
    legacy := root.legacyRemotePaths.map fun rootPath => { rootPath, resources := ∅ }
    fromCache }

/-- `find_legacy_file`: the first legacy root that holds a file at the relative path, counted
from `index` on. -/
def findLegacyFile (relativePath : Str) :
    Nat → List LegacyInventory → Option (Nat × Str × ResourceMetadata)
  | _, [] => none
  | index, legacy :: rest =>
    let remotePath := joinRemotePath legacy.rootPath relativePath
    match (legacy.resources[remotePath]?).filter fun resource => resource.resourceType == .file with
    | some resource => some (index,remotePath,resource)
    | none => findLegacyFile relativePath (index+1) rest

def LegacyInventory.forget (path : Str) (legacy : LegacyInventory) : LegacyInventory :=
  { legacy with resources := legacy.resources.erase path }

def LegacyInventory.clear (legacy : LegacyInventory) : LegacyInventory :=
  { legacy with resources := ∅ }

end Snapshot

section Decisions

structure AdoptionDecision where
  isMatch : Bool
  method : Str
  deriving DecidableEq

/-- `can_resume_synced_file`, which never fails. -/
def canResumeSyncedFile (previous : FileStateRecord) (file : LocalFileEntry)
    (remote : ResourceMetadata) (config : AppConfig) : Bool :=
  if previous.status ≠ .synced then false
  else if previous.remotePath ≠ file.remotePath ∨
      previous.normalizedRemotePath ≠ file.normalizedRemotePath ∨
      previous.sizeBytes ≠ u64ToI64 file.sizeBytes ∨ previous.mtimeNs ≠ file.mtimeNs ∨
      previous.fingerprintKind ≠ file.fingerprint.kind.asStr ∨
      previous.fingerprintValue ≠ some file.fingerprint.value ∨
      previous.fullSha256 ≠ file.fingerprint.fullSha256 then false
  else if remote.resourceType ≠ .file ∨ remote.sizeBytes ≠ some file.sizeBytes then false
  else if file.sizeBytes ≤ config.sync.fullHashMaxBytes then
    match remote.md5 with
    | some remoteMd5 =>
      match file.fingerprint.localMd5 with
      | some localMd5 => eqIgnoreAsciiCase localMd5 remoteMd5
      | none =>
        match previous.remoteMd5 with
        | some previousRemoteMd5 => eqIgnoreAsciiCase previousRemoteMd5 remoteMd5
        | none => false
    | none => false
  else true

/-- `per_file_processing_error`: errors that concern one file only. -/
def perFileProcessingError : MigrationError → Option (Str × Str)
  | .io path source => some ("local_io".toList,(MigrationError.io path source).message)
  | .yandexDisk error =>
    if isStopError error.kind then none else some (error.kind.asStr,error.message)
  | _ => none

def skippableLocalProcessingError : MigrationError → Option (Str × Str)
  | .io path source =>
    if isSkippableLocalIoError source then
      some ("local_file_unavailable".toList,(MigrationError.io path source).message)
    else none
  | .yandexDisk error =>
    if error.isLocalUploadSourceUnavailable then
      some ("local_file_unavailable".toList,error.message)
    else none
  | _ => none

/-- `take_migration_upload_batch`: the batch, then what stays pending. -/
def takeMigrationUploadBatch (limit largeThreshold : Nat) :
    List MigrationUploadCandidate → Nat → Bool →
      List MigrationUploadCandidate × List MigrationUploadCandidate
  | [], _, _ => ([],[])
  | candidate :: pending, selected, largeUsed =>
    let isLarge := decide (largeThreshold ≤ candidate.file.sizeBytes)
    if selected < limit && (!isLarge || !largeUsed) then
      let (batch,deferred) :=
        takeMigrationUploadBatch limit largeThreshold pending (selected+1) (isLarge || largeUsed)
      (candidate :: batch,deferred)
    else
      let (batch,deferred) :=
        takeMigrationUploadBatch limit largeThreshold pending selected largeUsed
      (batch,candidate :: deferred)

theorem takeMigrationUploadBatch_eq (limit largeThreshold : Nat)
    (pending : List MigrationUploadCandidate) (selected : Nat) (largeUsed : Bool) :
    takeMigrationUploadBatch limit largeThreshold pending selected largeUsed =
      Batching.takeBatch limit (fun candidate => decide (largeThreshold ≤ candidate.file.sizeBytes))
        pending selected largeUsed := by
  induction pending generalizing selected largeUsed with
  | nil => rfl
  | cons candidate pending ih => simp only [takeMigrationUploadBatch,Batching.takeBatch,ih]

theorem takeMigrationUploadBatch_perm (limit largeThreshold : Nat)
    (pending : List MigrationUploadCandidate) (selected : Nat) (largeUsed : Bool) :
    let result := takeMigrationUploadBatch limit largeThreshold pending selected largeUsed
    (result.1 ++ result.2).Perm pending := by
  rw [takeMigrationUploadBatch_eq]
  exact Batching.takeBatch_perm

/-- `parent_remote_paths`, from the top down. -/
def parentRemotePaths (path : Str) : List Str :=
  match stripPrefix remotePrefix path with
  | none => []
  | some body =>
    let segments := (body.splitOn slash).filter (· ≠ [])
    (List.range segments.length).tail.map fun index =>
      remotePrefix ++ [slash].intercalate (segments.take index)

/-- The deletes of a migration: canonical extras, then what is left of each legacy root. -/
def migrationDeletes (root : SyncRootConfig) (canonicalRemotePath : Str) (livePlan : LiveScanPlan)
    (sets : RemoteSets) : List DeleteCandidate :=
  sortByKey (fun delete : DeleteCandidate =>
      toLex (OrderDual.toDual (delete.remotePath.count slash),delete.remotePath))
    ((collectCoalescedDeleteOperations root canonicalRemotePath livePlan sets.canonical).map
        (fun delete => {
          remotePath := delete.remotePath, relativePath := delete.relativePath
          resourceType := delete.resourceType, canonicalPath := delete.remotePath }) ++
      sets.legacy.flatMap fun legacy => collectLegacyDeleteCandidates legacy canonicalRemotePath)

end Decisions

section Records

def migrationFileStateRecord (file : LocalFileEntry) (runId : Int) (status : FileStateStatus)
    (lastError remoteMd5 : Option Str) : FileStateRecord :=
  { fileStateRecord file runId status lastError with remoteMd5 }

/-- The resource an upload leaves behind. -/
def uploadedMetadata (file : LocalFileEntry) : ResourceMetadata :=
  { ResourceMetadata.ofFile file.remotePath file.sizeBytes with md5 := file.fingerprint.localMd5 }

def migrationOperationName (isUpdate : Bool) : Str :=
  if isUpdate then "migration_update_file".toList else "migration_upload_file".toList

def addMigrationRootSummary (total : SyncRunSummary) (root : MigrationRootSummary) :
    SyncRunSummary :=
  addRootSummary total root.toSync

def MigrationRootSummary.counts (summary : MigrationRootSummary) : Counts := summary.toSync.counts

def migrationStatusFromSummary (summary : SyncRunSummary) (roots : List MigrationRootSummary) :
    SyncRunStatus :=
  statusFromSummary summary (roots.map MigrationRootSummary.toSync)

end Records

end YaDiskSync
