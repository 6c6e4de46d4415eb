import YaDiskSync.SyncInner
import YaDiskSync.MigrationFrame

/-! A migration asks no statement that begins or ends a run while it works on its roots. -/
namespace YaDiskSync

open Prog

namespace MigrationEngine

variable {ext : Externals} {config : AppConfig} {root : SyncRootConfig} {runId : Int}
  {baseSummary : SyncRunSummary}

section Records

theorem perform_inner {e : Effect MigrationMemory} (he : e.bracketsRun = false) :
    Inner (perform e) :=
  Inner.perform he

theorem memory_inner : Inner memory := perform_inner rfl

theorem isCancelled_inner : Inner isCancelled := perform_inner rfl

theorem modifySummary_inner (f : MigrationRootSummary → MigrationRootSummary) :
    Inner (modifySummary f) :=
  perform_inner rfl

theorem client_inner (call : ClientCall) : Inner (client call) := perform_inner rfl

theorem state_inner {call : StateCall} (h : call.bracketsRun = false) : Inner (state call) := by
  refine (perform_inner (e := .state call) h).bind fun answer => ?_
  cases answer with
  | ok result => exact Inner.pure result
  | error error => exact Inner.throw _

theorem reporting_inner : Reporting (@Inner MigrationMemory MigrationError) where
  toComposable := sequential_inner.toComposable
  report {call} h := state_inner (by cases call <;> first | rfl | cases h)
  readMemory := memory_inner
  modifySummary _ _ _ := modifySummary_inner _
  isCancelled := isCancelled_inner

theorem register_inner (localPath : LocalPath) (relativePath remotePath : Str) :
    Inner (registerMissingLocalPath localPath relativePath remotePath) :=
  reporting_inner.register_of (fun _ => perform_inner rfl) (fun _ => perform_inner rfl)
    (fun _ => perform_inner rfl) localPath relativePath remotePath

theorem persistRootProgress_inner : Inner (persistRootProgress runId baseSummary) :=
  memory_inner.bind fun _ => state_inner rfl

theorem cleanupStagingFiles_inner (files : List LocalFileEntry) :
    Inner (cleanupStagingFiles files) := by
  induction files with
  | nil => exact Inner.pure ()
  | cons file files ih =>
    unfold cleanupStagingFiles
    cases file.sqliteBackupStagingPath with
    | none => exact ih
    | some path =>
      refine (perform_inner (e := .removeFile path) rfl).bind fun answer => ?_
      cases answer with
      | ok _ => exact ih
      | error error =>
        exact iteInduction (motive := fun p => Inner p) (fun _ => ih) fun _ => Inner.throw _

theorem recordCallFailure_inner (operationId : Int)
    (legacyRemotePath canonicalRemotePath operation : Str) (error : YandexDiskError) :
    Inner (recordCallFailure root operationId legacyRemotePath canonicalRemotePath operation
      error) :=
  (state_inner rfl).bind fun _ =>
    ((state_inner rfl).bind fun _ => state_inner rfl).bind fun _ => modifySummary_inner _

theorem recordFileProcessingFailure_inner (file : LocalFileEntry)
    (operation operationRemotePath : Str) (error : MigrationError) :
    Inner (recordFileProcessingFailure root runId file operation operationRemotePath error) := by
  unfold recordFileProcessingFailure
  cases perFileProcessingError error with
  | none => exact Inner.throw _
  | some kindAndMessage =>
    obtain ⟨errorKind,errorMessage⟩ := kindAndMessage
    refine (state_inner rfl).bind fun operationId => ?_
    cases skippableLocalProcessingError error with
    | some reason =>
      obtain ⟨reasonCode,reasonDetails⟩ := reason
      exact (state_inner rfl).bind fun _ => (state_inner rfl).bind fun _ =>
        (state_inner rfl).bind fun _ => (state_inner rfl).bind fun _ => modifySummary_inner _
    | none =>
      exact (state_inner rfl).bind fun _ => (state_inner rfl).bind fun _ =>
        (state_inner rfl).bind fun _ => (state_inner rfl).bind fun _ => modifySummary_inner _

end Records

section Inventories

theorem inventoryCalls_inner : InventoryCalls (@Inner MigrationMemory YandexDiskError) where
  toSequential := sequential_inner
  now := Inner.perform rfl
  status _ := Inner.perform rfl
  cached _ := Inner.perform rfl
  metadata _ := Inner.perform rfl
  list _ _ := Inner.perform rfl

theorem loadRemoteSets_inner (canonicalRemotePath : Str) (plan : LiveScanPlan)
    (forceRemoteRescan : Bool) :
    Inner (liftM (loadRemoteSets root canonicalRemotePath plan forceRemoteRescan).run :
      Migrator (Except YandexDiskError RemoteSets)) :=
  (loadRemoteSets_of inventoryCalls_inner root canonicalRemotePath plan forceRemoteRescan).catch

theorem recordRemoteResources_inner (sets : RemoteSets) :
    Inner (recordRemoteResources config root sets) :=
  (state_inner rfl).bind fun _ => (perform_inner (e := .now) rfl).bind fun _ => state_inner rfl

end Inventories

section Moves

theorem createDirectoryOperation_inner (remotePath : Str) :
    Inner (createDirectoryOperation runId remotePath) := by
  refine (state_inner rfl).bind fun operationId => (client_inner _).bind fun answer => ?_
  cases answer with
  | ok _ => exact (state_inner rfl).bind fun _ => perform_inner rfl
  | error error =>
    exact (state_inner rfl).bind fun _ => (modifySummary_inner _).bind fun _ => Inner.throw _

theorem ensureParentDirectories_inner (remotePath : Str) :
    Inner (ensureParentDirectories runId remotePath) := by
  unfold ensureParentDirectories
  induction parentRemotePaths remotePath with
  | nil => exact Inner.pure ()
  | cons parent parents ih =>
    refine isCancelled_inner.bind fun cancelled => ?_
    refine iteInduction (motive := fun p => Inner p) (fun _ => Inner.pure _) fun _ => ?_
    refine memory_inner.bind fun memory => ?_
    refine iteInduction (motive := fun p => Inner p) (fun _ => ih) fun _ => ?_
    exact (createDirectoryOperation_inner parent).bind fun _ => (perform_inner rfl).bind fun _ => ih

theorem ensureDirectory_inner (remotePath : Str) : Inner (ensureDirectory runId remotePath) := by
  refine memory_inner.bind fun memory => ?_
  refine iteInduction (motive := fun p => Inner p) (fun _ => Inner.pure _) fun _ => ?_
  refine (ensureParentDirectories_inner remotePath).bind fun _ => isCancelled_inner.bind
    fun cancelled => ?_
  refine iteInduction (motive := fun p => Inner p) (fun _ => Inner.pure _) fun _ => ?_
  exact (createDirectoryOperation_inner remotePath).bind fun _ => perform_inner rfl

theorem moveLegacyRoot_inner (index : Nat) (source target : Str) :
    Inner (moveLegacyRoot root runId index source target) := by
  refine (state_inner rfl).bind fun operationId => (client_inner _).bind fun answer => ?_
  cases answer with
  | error error => exact (recordCallFailure_inner ..).bind fun _ => Inner.pure _
  | ok _ =>
    refine (state_inner rfl).bind fun _ => (state_inner rfl).bind fun _ =>
      (perform_inner rfl).bind fun _ => (modifySummary_inner _).bind fun _ => ?_
    refine ((migrationInventory_of inventoryCalls_inner target []).catch).bind fun answer => ?_
    cases answer with
    | error error => exact Inner.throw _
    | ok canonical =>
      exact (perform_inner rfl).bind fun _ => (perform_inner rfl).bind fun _ => Inner.pure _

theorem tryTopLevelMove_inner : Inner (tryTopLevelMove root runId) := by
  refine isCancelled_inner.bind fun cancelled => memory_inner.bind fun memory => ?_
  refine iteInduction (motive := fun p => Inner p) (fun _ => Inner.pure _) fun _ => ?_
  cases memory.remoteSets.legacy.findIdx? LegacyInventory.isPresent with
  | none => exact Inner.pure _
  | some index =>
    refine (ensureParentDirectories_inner _).bind fun _ => isCancelled_inner.bind
      fun cancelled => ?_
    exact iteInduction (motive := fun p => Inner p) (fun _ => Inner.pure _)
      fun _ => moveLegacyRoot_inner _ _ _

theorem remoteMatchesLocal_inner (file : LocalFileEntry) (remote : ResourceMetadata) :
    Inner (remoteMatchesLocal config file remote) := by
  refine iteInduction (motive := fun p => Inner p) (fun _ => Inner.pure _) fun _ => ?_
  refine iteInduction (motive := fun p => Inner p) (fun _ => ?_) fun _ => Inner.pure _
  cases remote.md5 with
  | some remoteMd5 => exact Inner.pure _
  | none =>
    refine (perform_inner (e := .readFile file.uploadSource) rfl).bind fun content => ?_
    cases content with
    | error error => exact Inner.throw _
    | ok localContent =>
      refine (client_inner (.download remote.path)).bind fun answer => ?_
      cases answer with
      | error error => exact Inner.throw _
      | ok remoteContent => exact Inner.pure _

theorem moveLegacyFile_inner (file : LocalFileEntry) (index : Nat) (legacyPath : Str)
    (legacyResource : ResourceMetadata) :
    Inner (moveLegacyFile root runId file index legacyPath legacyResource) := by
  refine (state_inner rfl).bind fun operationId => (client_inner _).bind fun answer => ?_
  cases answer with
  | error error => exact (recordCallFailure_inner ..).bind fun _ => Inner.pure _
  | ok _ =>
    exact (state_inner rfl).bind fun _ => (state_inner rfl).bind fun _ =>
      (perform_inner rfl).bind fun _ => (perform_inner rfl).bind fun _ =>
      (perform_inner rfl).bind fun _ => (modifySummary_inner _).bind fun _ => Inner.pure _

theorem mergeFile_inner (file : LocalFileEntry) : Inner (mergeFile config root runId file) := by
  refine memory_inner.bind fun memory => ?_
  refine iteInduction (motive := fun p => Inner p) (fun _ => Inner.pure _) fun _ => ?_
  cases findLegacyFile file.relativePath 0 memory.remoteSets.legacy with
  | none => exact Inner.pure _
  | some found =>
    obtain ⟨index,legacyPath,legacyResource⟩ := found
    refine ((remoteMatchesLocal_inner file legacyResource).catch).bind fun answer => ?_
    cases answer with
    | error error =>
      exact iteInduction (motive := fun p => Inner p)
        (fun _ => (recordFileProcessingFailure_inner ..).bind fun _ => Inner.pure _)
        fun _ => Inner.throw _
    | ok decision =>
      refine iteInduction (motive := fun p => Inner p) (fun _ => Inner.pure _) fun _ => ?_
      refine (ensureParentDirectories_inner _).bind fun _ => isCancelled_inner.bind
        fun cancelled => ?_
      exact iteInduction (motive := fun p => Inner p) (fun _ => Inner.pure _)
        fun _ => moveLegacyFile_inner ..

theorem mergeFiles_inner (files : List LocalFileEntry) :
    Inner (mergeFiles config root runId files) := by
  induction files with
  | nil => exact Inner.pure _
  | cons file files ih =>
    refine isCancelled_inner.bind fun cancelled => ?_
    refine iteInduction (motive := fun p => Inner p) (fun _ => Inner.pure _) fun _ => ?_
    refine (mergeFile_inner file).bind fun stop => ?_
    exact iteInduction (motive := fun p => Inner p) (fun _ => Inner.pure _) fun _ => ih

theorem mergeDirectories_inner (directories : List LocalDirectoryEntry) :
    Inner (mergeDirectories runId baseSummary directories) := by
  induction directories with
  | nil => exact Inner.pure _
  | cons directory directories ih =>
    refine (ensureDirectory_inner _).bind fun _ => (state_inner rfl).bind fun _ =>
      isCancelled_inner.bind fun cancelled => ?_
    exact iteInduction (motive := fun p => Inner p) (fun _ => Inner.pure _)
      fun _ => persistRootProgress_inner.bind fun _ => ih

theorem applyMergeMoves_inner : Inner (applyMergeMoves ext config root runId baseSummary) := by
  refine memory_inner.bind fun start => (ensureDirectory_inner _).bind fun _ =>
    isCancelled_inner.bind fun cancelled => ?_
  refine iteInduction (motive := fun p => Inner p) (fun _ => Inner.pure _) fun _ => ?_
  refine (state_inner rfl).bind fun _ => reporting_inner.livePlan.bind fun plan =>
    (mergeDirectories_inner _).bind fun stop => ?_
  exact iteInduction (motive := fun p => Inner p) (fun _ => Inner.pure _)
    fun _ => mergeFiles_inner _

end Moves

section Adoption

theorem flushAdoptions_inner : Inner flushAdoptions := by
  refine memory_inner.bind fun memory => ?_
  exact iteInduction (motive := fun p => Inner p) (fun _ => Inner.pure _) fun _ =>
    (state_inner rfl).bind fun _ => (state_inner rfl).bind fun _ => (state_inner rfl).bind fun _ =>
    (state_inner rfl).bind fun _ => perform_inner rfl

theorem adoptFile_inner (file : LocalFileEntry) (remote : ResourceMetadata) (method : Str) :
    Inner (adoptFile root runId baseSummary file remote method) := by
  refine (perform_inner rfl).bind fun _ => (perform_inner rfl).bind fun _ =>
    (modifySummary_inner _).bind fun _ => memory_inner.bind fun memory => ?_
  exact iteInduction (motive := fun p => Inner p)
    (fun _ => flushAdoptions_inner.bind fun _ => persistRootProgress_inner)
    fun _ => persistRootProgress_inner

theorem leaveOut_inner (file : LocalFileEntry) (operation : Str) (error : MigrationError) :
    Inner (leaveOut root runId baseSummary file operation error) :=
  flushAdoptions_inner.bind fun _ => (recordFileProcessingFailure_inner ..).bind fun _ =>
    persistRootProgress_inner

theorem leaveOutMissing_inner (file : LocalFileEntry) :
    Inner (leaveOutMissing root runId baseSummary file) := by
  refine reporting_inner.livePlan.bind fun plan => ?_
  refine iteInduction (motive := fun p => Inner p) (fun _ => Inner.pure _) fun _ => ?_
  refine (register_inner _ _ _).bind fun found => ?_
  cases found with
  | some subtree =>
    exact flushAdoptions_inner.bind fun _ =>
      (reporting_inner.recordDeletedSubtree runId subtree).bind fun _ =>
        persistRootProgress_inner.bind fun _ => Inner.pure _
  | none =>
    refine (perform_inner (e := .isFile file.localPath) rfl).bind fun isFile => ?_
    exact iteInduction (motive := fun p => Inner p) (fun _ => Inner.pure _)
      fun _ => (leaveOut_inner ..).bind fun _ => Inner.pure _

theorem tryAdopt_inner (previous : Str → Option FileStateRecord) (file : LocalFileEntry)
    (remote : ResourceMetadata) :
    Inner (tryAdopt config root runId baseSummary previous file remote) := by
  refine iteInduction (motive := fun p => Inner p)
    (fun _ => (modifySummary_inner _).bind fun _ => Inner.pure _) fun _ => ?_
  refine ((remoteMatchesLocal_inner file remote).catch).bind fun answer => ?_
  cases answer with
  | error error =>
    exact iteInduction (motive := fun p => Inner p)
      (fun _ => (leaveOut_inner ..).bind fun _ => Inner.pure _) fun _ => Inner.throw _
  | ok decision =>
    exact iteInduction (motive := fun p => Inner p)
      (fun _ => (adoptFile_inner ..).bind fun _ => Inner.pure _) fun _ => Inner.pure _

theorem settleFile_inner (previous : Str → Option FileStateRecord) (file : LocalFileEntry) :
    Inner (settleFile config root runId baseSummary previous file) := by
  refine (leaveOutMissing_inner file).bind fun leftOut => ?_
  refine iteInduction (motive := fun p => Inner p) (fun _ => Inner.pure _) fun _ => ?_
  refine memory_inner.bind fun memory => ?_
  split
  · exact tryAdopt_inner ..
  · exact Inner.pure _

end Adoption

section Uploads

theorem spawnCandidates_inner (batch : List MigrationUploadCandidate) :
    Inner (spawnCandidates runId baseSummary batch) := by
  induction batch with
  | nil => exact Inner.pure _
  | cons candidate batch ih =>
    refine reporting_inner.livePlan.bind fun plan => ?_
    refine iteInduction (motive := fun p => Inner p) (fun _ => ih) fun _ => ?_
    refine (register_inner _ _ _).bind fun found => ?_
    cases found with
    | some subtree =>
      exact (state_inner rfl).bind fun _ =>
        (reporting_inner.recordDeletedSubtree runId subtree).bind fun _ =>
          persistRootProgress_inner.bind fun _ => ih
    | none => exact (perform_inner rfl).bind fun _ => ih

theorem recordMigrationUploaded_inner (operationId : Int) (file : LocalFileEntry)
    (isUpdate : Bool) :
    Inner (recordMigrationUploaded root runId baseSummary operationId file isUpdate) := by
  have hstatus : Inner (fileStatusAfterUpload file) := by
    refine (perform_inner (e := .fileMetadata file.localPath) rfl).bind fun found => ?_
    cases found with
    | none => exact Inner.pure _
    | some found =>
      exact iteInduction (motive := fun p => Inner p) (fun _ => Inner.pure _)
        fun _ => Inner.pure _
  exact (state_inner rfl).bind fun _ => hstatus.bind fun _ => (state_inner rfl).bind fun _ =>
    (perform_inner rfl).bind fun _ => (state_inner rfl).bind fun _ => (state_inner rfl).bind fun _ =>
    (modifySummary_inner _).bind fun _ => persistRootProgress_inner

theorem recordMigrationSkipped_inner (operationId : Int) (file : LocalFileEntry)
    (reasonCode errorMessage : Str) :
    Inner (recordMigrationSkipped root runId baseSummary operationId file reasonCode
      errorMessage) :=
  (state_inner rfl).bind fun _ => (state_inner rfl).bind fun _ => (state_inner rfl).bind fun _ =>
    (state_inner rfl).bind fun _ => (modifySummary_inner _).bind fun _ => persistRootProgress_inner

theorem recordMigrationUploadFailure_inner (outcome : UploadTaskOutcome)
    (failure : UploadTaskFailure) :
    Inner (recordMigrationUploadFailure root runId baseSummary outcome failure) := by
  refine (register_inner _ _ _).bind fun found => ?_
  cases found with
  | some subtree =>
    exact (state_inner rfl).bind fun _ =>
      (reporting_inner.recordDeletedSubtree runId subtree).bind fun _ =>
        persistRootProgress_inner.bind fun _ => Inner.pure _
  | none =>
    dsimp only
    cases failure.skipReasonCode with
    | some reasonCode => exact (recordMigrationSkipped_inner ..).bind fun _ => Inner.pure _
    | none =>
      exact (state_inner rfl).bind fun _ => (state_inner rfl).bind fun _ =>
        (state_inner rfl).bind fun _ => (modifySummary_inner _).bind fun _ =>
        persistRootProgress_inner.bind fun _ => Inner.pure _

theorem joinMigrationUploads_inner (fuel : Nat) (result : MigrationUploadResult) :
    Inner (joinMigrationUploads root runId baseSummary fuel result) := by
  induction fuel generalizing result with
  | zero => exact Inner.pure _
  | succ fuel ih =>
    refine (perform_inner (e := .joinNext) rfl).bind fun joined => ?_
    rcases joined with _ | ⟨directory,operationId,created⟩ | outcome
    · exact Inner.pure _
    · exact Inner.pure _
    · dsimp only
      cases outcome.result with
      | ok _ => exact (recordMigrationUploaded_inner ..).bind fun _ => ih _
      | error failure => exact (recordMigrationUploadFailure_inner ..).bind fun _ => ih _

theorem applyMigrationUploadBatch_inner :
    Inner (applyMigrationUploadBatch config root runId baseSummary) := by
  have hrounds : ∀ fuel result, Inner (uploadRounds config root runId baseSummary fuel result) := by
    intro fuel
    induction fuel with
    | zero => exact fun _ => Inner.pure _
    | succ fuel ih =>
      intro result
      refine memory_inner.bind fun memory => ?_
      refine iteInduction (motive := fun p => Inner p) (fun _ => Inner.pure _) fun _ => ?_
      exact (perform_inner rfl).bind fun _ => (spawnCandidates_inner _).bind fun _ =>
        (joinMigrationUploads_inner _ _).bind fun _ => ih _
  exact memory_inner.bind fun _ => hrounds _ _

theorem adoptOrUploadEach_inner (previous : Str → Option FileStateRecord)
    (availableRemoteBytes : Option Nat) (files : List LocalFileEntry) (bytesUploaded : Nat) :
    Inner (adoptOrUploadEach config root runId baseSummary previous availableRemoteBytes files
      bytesUploaded) := by
  induction files generalizing bytesUploaded with
  | nil =>
    refine flushAdoptions_inner.bind fun _ => memory_inner.bind fun memory => ?_
    exact iteInduction (motive := fun p => Inner p) (fun _ => Inner.pure _)
      fun _ => applyMigrationUploadBatch_inner.bind fun _ => Inner.pure _
  | cons file files ih =>
    refine isCancelled_inner.bind fun cancelled => ?_
    refine iteInduction (motive := fun p => Inner p)
      (fun _ => flushAdoptions_inner.bind fun _ => Inner.pure _) fun _ => ?_
    refine (settleFile_inner previous file).bind fun settled => ?_
    refine iteInduction (motive := fun p => Inner p) (fun _ => ih _) fun _ => ?_
    refine flushAdoptions_inner.bind fun _ => memory_inner.bind fun memory => ?_
    split
    · exact (reporting_inner.failRootWith ..).bind fun _ => Inner.pure _
    · refine Inner.bind ((state_inner rfl).bind fun _ => (perform_inner rfl).bind fun _ =>
        perform_inner rfl) fun _ => ?_
      refine iteInduction (motive := fun p => Inner p) (fun _ => ?_) fun _ => ih _
      refine applyMigrationUploadBatch_inner.bind fun result => ?_
      exact iteInduction (motive := fun p => Inner p) (fun _ => Inner.pure _) fun _ => ih _

theorem applyAdoptOrUpload_inner (availableRemoteBytes : Option Nat) :
    Inner (applyAdoptOrUpload config root runId baseSummary availableRemoteBytes) :=
  (state_inner rfl).bind fun _ => reporting_inner.livePlan.bind fun _ =>
    adoptOrUploadEach_inner _ _ _ _

end Uploads

section Deletes

theorem recordMigrationDeleted_inner (operationId : Int) (delete : DeleteCandidate) :
    Inner (recordMigrationDeleted root runId operationId delete) := by
  have hlast : Inner (do
      state (.deleteRemoteResourceSubtree root.id delete.remotePath)
      state (.upsertMigrationMap {
        rootId := root.id, legacyRemotePath := delete.remotePath
        canonicalRemotePath := delete.canonicalPath, status := .deleted, lastError := none })) :=
    (state_inner rfl).bind fun _ => state_inner rfl
  refine (state_inner rfl).bind fun _ => ?_
  cases delete.resourceType with
  | file => exact (state_inner rfl).bind fun _ => hlast
  | directory => exact (state_inner rfl).bind fun _ => hlast

theorem recordDeleteFailure_inner (operationId : Int) (delete : DeleteCandidate)
    (operation : Str) (error : YandexDiskError) :
    Inner (recordDeleteFailure root runId baseSummary operationId delete operation error) :=
  (recordCallFailure_inner ..).bind fun _ => persistRootProgress_inner.bind fun _ => Inner.pure _

theorem deleteCandidate_inner (operationId : Int) (delete : DeleteCandidate) :
    Inner (deleteCandidate root runId baseSummary operationId delete) := by
  refine (client_inner (.deletePermanently delete.remotePath)).bind fun answer => ?_
  cases answer with
  | ok _ =>
    exact (recordMigrationDeleted_inner ..).bind fun _ => (perform_inner rfl).bind fun _ =>
      (modifySummary_inner _).bind fun _ => persistRootProgress_inner.bind fun _ => Inner.pure _
  | error error =>
    exact iteInduction (motive := fun p => Inner p)
      (fun _ => (recordMigrationDeleted_inner ..).bind fun _ =>
        persistRootProgress_inner.bind fun _ => Inner.pure _)
      fun _ => recordDeleteFailure_inner ..

theorem applyDeleteCandidate_inner (fromCache : Bool) (delete : DeleteCandidate) :
    Inner (applyDeleteCandidate root runId baseSummary fromCache delete) := by
  refine (state_inner rfl).bind fun operationId => ?_
  refine iteInduction (motive := fun p => Inner p) (fun _ => ?_) fun _ => deleteCandidate_inner ..
  refine (client_inner (.metadata delete.remotePath)).bind fun answer => ?_
  cases answer with
  | ok _ => exact deleteCandidate_inner ..
  | error error =>
    exact iteInduction (motive := fun p => Inner p)
      (fun _ => (state_inner rfl).bind fun _ => (state_inner rfl).bind fun _ => Inner.pure _)
      fun _ => recordDeleteFailure_inner ..

theorem applyDeletes_inner : Inner (applyDeletes root runId baseSummary) := by
  have heach : ∀ fromCache deletes,
      Inner (deleteCandidates root runId baseSummary fromCache deletes) := by
    intro fromCache deletes
    induction deletes with
    | nil => exact Inner.pure _
    | cons delete deletes ih =>
      refine isCancelled_inner.bind fun cancelled => ?_
      refine iteInduction (motive := fun p => Inner p) (fun _ => Inner.pure _) fun _ => ?_
      refine (applyDeleteCandidate_inner fromCache delete).bind fun stop => ?_
      exact iteInduction (motive := fun p => Inner p) (fun _ => Inner.pure _) fun _ => ih
  exact memory_inner.bind fun _ => reporting_inner.livePlan.bind fun _ => heach _ _

end Deletes

section Run

theorem planScan_inner (scanReport : ScanReport) :
    Inner (planScan root runId baseSummary scanReport) := by
  refine (reporting_inner.recordScanFindings _).bind fun _ => ?_
  refine Inner.bind (fromScanReport_of sequential_inner.toComposable
    (fun path => perform_inner rfl) (fun plan => perform_inner rfl) _ _) fun plan => ?_
  refine (perform_inner rfl).bind fun _ => (modifySummary_inner _).bind fun _ => ?_
  refine (reporting_inner.recordDeletedSubtrees runId _).bind fun _ => ?_
  exact persistRootProgress_inner.bind fun _ => Inner.pure _

theorem giveUpRoot_inner (scanReport : ScanReport) : Inner (giveUpRoot root scanReport) :=
  (cleanupStagingFiles_inner _).bind fun _ =>
    (reporting_inner.finishRootCancelledOrFailed root).bind fun _ => Inner.pure _

theorem settleRoot_inner (scanReport : ScanReport) (availableRemoteBytes : Option Nat) :
    Inner (settleRoot config root runId baseSummary scanReport availableRemoteBytes) := by
  refine (applyAdoptOrUpload_inner _).bind fun uploaded =>
    (cleanupStagingFiles_inner _).bind fun _ => isCancelled_inner.bind fun cancelled => ?_
  refine iteInduction (motive := fun p => Inner p)
    (fun _ => (reporting_inner.finishRootCancelledOrFailed root).bind fun _ => Inner.pure _)
    fun _ => ?_
  exact applyDeletes_inner.bind fun _ =>
    (reporting_inner.finishRootCancelledOrFailed root).bind fun _ =>
      persistRootProgress_inner.bind fun _ => Inner.pure _

theorem migrateRoot_inner (scanReport : ScanReport) (sets : RemoteSets)
    (availableRemoteBytes : Option Nat) :
    Inner (migrateRoot ext config root runId baseSummary scanReport sets
      availableRemoteBytes) := by
  refine (perform_inner rfl).bind fun _ => (recordRemoteResources_inner sets).bind fun _ =>
    tryTopLevelMove_inner.bind fun stop => isCancelled_inner.bind fun cancelled => ?_
  refine iteInduction (motive := fun p => Inner p) (fun _ => giveUpRoot_inner _) fun _ => ?_
  refine applyMergeMoves_inner.bind fun stop => isCancelled_inner.bind fun cancelled => ?_
  exact iteInduction (motive := fun p => Inner p) (fun _ => giveUpRoot_inner _)
    fun _ => settleRoot_inner _ _

theorem executeScanned_inner (canonicalRemotePath : Str) (scanReport : ScanReport)
    (availableRemoteBytes : Option Nat) (forceRemoteRescan : Bool) :
    Inner (executeScanned ext config root runId baseSummary canonicalRemotePath scanReport
      availableRemoteBytes forceRemoteRescan) := by
  have hgive : ∀ (result : MigrationRootResult), Inner (do
      cleanupStagingFiles scanReport.files
      return result) :=
    fun _ => (cleanupStagingFiles_inner _).bind fun _ => Inner.pure _
  refine (planScan_inner scanReport).bind fun plan => ?_
  cases localRemoteCollision plan.directories plan.files with
  | some message => exact (reporting_inner.failRootWith ..).bind fun _ => hgive _
  | none =>
    refine (loadRemoteSets_inner canonicalRemotePath plan forceRemoteRescan).bind fun answer => ?_
    cases answer with
    | ok sets => exact migrateRoot_inner _ _ _
    | error error =>
      refine (state_inner rfl).bind fun _ => ?_
      exact iteInduction (motive := fun p => Inner p)
        (fun _ => (reporting_inner.failRootWith ..).bind fun _ => hgive _)
        fun _ => (reporting_inner.failRootWith ..).bind fun _ => hgive _

theorem executeRoot_inner (options : ScanOptions) (canonicalRemotePath : Str)
    (availableRemoteBytes : Option Nat) (forceRemoteRescan : Bool) :
    Inner (executeRoot ext config root runId baseSummary options canonicalRemotePath
      availableRemoteBytes forceRemoteRescan) := by
  have hscan : Inner (scanRootWithRepository options
      (SyncEngine.scanRootOf root canonicalRemotePath)) := by
    refine (perform_inner rfl).bind fun answer => ?_
    cases answer with
    | ok previousStates => exact perform_inner rfl
    | error error => exact Inner.pure _
  refine hscan.bind fun answer => ?_
  cases answer with
  | error error => exact (reporting_inner.failRootWith ..).bind fun _ => Inner.pure _
  | ok scanReport => exact executeScanned_inner _ _ _ _

theorem executeRunRoot_inner (options : ScanOptions) (availableRemoteBytes : Option Nat)
    (forceRemoteRescan : Bool) :
    Inner (executeRunRoot ext config root runId options availableRemoteBytes
      forceRemoteRescan) := by
  have hfinish : Inner finishRootSummary := memory_inner.bind fun _ => perform_inner rfl
  have hskip : ∀ canonical paths, Inner (skipLegacyRoots root canonical paths) := by
    intro canonical paths
    induction paths with
    | nil => exact Inner.pure _
    | cons path paths ih => exact (state_inner rfl).bind fun _ => ih
  unfold executeRunRoot
  cases canonicalRemotePath config.instanceConfig.remoteRoot root.localPath
      root.remotePathOverride with
  | error error => exact Inner.throw _
  | ok canonical =>
    refine (perform_inner rfl).bind fun _ => (state_inner rfl).bind fun _ => ?_
    refine (perform_inner rfl).bind fun isDir => ?_
    refine iteInduction (motive := fun p => Inner p) (fun _ => ?_) fun _ => ?_
    · exact ((state_inner rfl).bind fun _ => (state_inner rfl).bind fun _ =>
        (hskip canonical _).bind fun _ => modifySummary_inner _).bind fun _ =>
          hfinish.bind fun _ => Inner.pure _
    · refine memory_inner.bind fun before => (executeRoot_inner _ _ _ _).bind fun result => ?_
      refine hfinish.bind fun _ => ?_
      refine iteInduction (motive := fun p => Inner p) (fun _ => Inner.pure _) fun _ => ?_
      exact isCancelled_inner.bind fun _ => Inner.pure _

/-- The work of a migration on its roots. -/
theorem executeRun_inner (runId : Int) (forceRemoteRescan : Bool) :
    Inner (executeRun ext config runId forceRemoteRescan) := by
  have hroots : ∀ options roots available,
      Inner (executeRoots ext config runId options forceRemoteRescan roots available) := by
    intro options roots
    induction roots with
    | nil => exact fun _ => Inner.pure _
    | cons root roots ih =>
      intro available
      refine isCancelled_inner.bind fun cancelled => ?_
      refine iteInduction (motive := fun p => Inner p) (fun _ => perform_inner rfl) fun _ => ?_
      refine (executeRunRoot_inner options available _).bind fun next => ?_
      exact iteInduction (motive := fun p => Inner p) (fun _ => ih _) fun _ => Inner.pure _
  have havailable : Inner availableRemoteBytes := by
    refine (client_inner .diskInfo).bind fun answer => ?_
    cases answer with
    | ok quota => exact Inner.pure _
    | error error => exact (perform_inner rfl).bind fun _ => Inner.pure _
  exact havailable.bind fun _ => hroots _ _ _

end Run

end MigrationEngine

end YaDiskSync
