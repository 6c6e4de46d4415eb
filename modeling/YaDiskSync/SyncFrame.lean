import YaDiskSync.SyncRun

/-! What the helpers of a run may do. A property of programs that sequencing keeps holds of a
helper as soon as it holds of the few commands the helper asks. -/
namespace YaDiskSync

open Prog

section LivePlan

variable {E : Type} {A : E → Type} {ε : Type} {K : ⦃α : Type⦄ → ExceptT ε (Prog E A) α → Prop}
  (hk : Composable K) {isDir pathExists : LocalPath → ExceptT ε (Prog E A) Bool}
  (hisDir : ∀ path, K (isDir path)) (hexists : ∀ path, K (pathExists path))

include hk hexists

theorem nearestMissingLoop_of (root : LocalPath) (fuel : Nat) (candidate : LocalPath)
    (nearest : Option LocalPath) : K (nearestMissingLoop pathExists root fuel candidate nearest) := by
  induction fuel generalizing candidate nearest with
  | zero => exact hk.pure _
  | succ fuel ih =>
    unfold nearestMissingLoop
    refine iteInduction (motive := fun p => K p) (fun _ => hk.pure _) fun _ => ?_
    refine hk.bind (hexists _) fun found => ?_
    refine iteInduction (motive := fun p => K p) (fun _ => hk.pure _) fun _ => ?_
    cases parent? candidate with
    | none => exact hk.pure _
    | some parent =>
      refine iteInduction (motive := fun p => K p) (fun _ => hk.pure _) fun _ => ?_
      refine hk.bind (hexists _) fun found => ?_
      exact iteInduction (motive := fun p => K p) (fun _ => hk.pure _) fun _ => ih _ _

include hisDir

theorem detectDeletedLocalSubtree_of (rootId : Str) (rootLocalPath localPath : LocalPath)
    (relativePath remotePath : Str) :
    K (detectDeletedLocalSubtree isDir pathExists rootId rootLocalPath localPath relativePath
      remotePath) := by
  have hnearest : K (nearestMissingDirectory isDir pathExists rootLocalPath localPath) := by
    refine hk.bind (hisDir _) fun found => ?_
    refine iteInduction (motive := fun p => K p)
      (fun _ => nearestMissingLoop_of hk hexists _ _ _ _) fun _ => ?_
    cases parent? localPath with
    | none => exact hk.pure _
    | some parent => exact nearestMissingLoop_of hk hexists _ _ _ _
  refine hk.bind hnearest fun missing => ?_
  cases missing with
  | none => exact hk.pure _
  | some missing =>
    dsimp only
    cases missingRelativePrefix rootLocalPath missing with
    | none => exact hk.pure _
    | some relativePrefix =>
      exact iteInduction (motive := fun p => K p) (fun _ => hk.pure _) fun _ => hk.pure _

theorem registerMissingLocalPath_of (plan : LiveScanPlan) (localPath : LocalPath)
    (relativePath remotePath : Str) :
    K (plan.registerMissingLocalPath isDir pathExists localPath relativePath remotePath) := by
  refine hk.bind (detectDeletedLocalSubtree_of hk hisDir hexists _ _ _ _ _) fun subtree => ?_
  cases subtree with
  | none => exact hk.pure _
  | some subtree => exact hk.pure _

omit hexists

theorem pushScannedDirectories_of {keep : LiveScanPlan → ExceptT ε (Prog E A) Unit}
    (hkeep : ∀ plan, K (keep plan)) (directories : List LocalDirectoryEntry) (plan : LiveScanPlan) :
    K (LiveScanPlan.pushScannedDirectories isDir keep directories plan) := by
  induction directories generalizing plan with
  | nil => exact hk.pure _
  | cons directory directories ih =>
    refine hk.bind ?_ fun plan => hk.bind (hkeep plan) fun _ => ih plan
    refine iteInduction (motive := fun p => K p) (fun _ => hk.pure _) fun _ => ?_
    refine hk.bind (hisDir _) fun found => ?_
    exact iteInduction (motive := fun p => K p) (fun _ => hk.pure _) fun _ => hk.pure _

theorem fromScanReport_of {keep : LiveScanPlan → ExceptT ε (Prog E A) Unit}
    (hkeep : ∀ plan, K (keep plan)) (rootLocalPath : LocalPath) (report : ScanReport) :
    K (LiveScanPlan.fromScanReport isDir keep rootLocalPath report) :=
  hk.bind (pushScannedDirectories_of hk hisDir hkeep _ _) fun _ => hk.pure _

omit hk hisDir in
/-- Subtrees are taken off a plan, never files. -/
theorem registerMissingLocalPath_files (plan : LiveScanPlan) (localPath : LocalPath)
    (relativePath remotePath : Str) :
    TryResults (fun result => result.1.files = plan.files)
      (plan.registerMissingLocalPath isDir pathExists localPath relativePath remotePath) := by
  refine TryResults.bind (tryResults_true _) fun subtree _ => ?_
  cases subtree with
  | none => exact TryResults.pure rfl
  | some subtree => exact TryResults.pure (LiveScanPlan.addDeletedSubtree_entries plan subtree).2.1

omit hk hisDir in
/-- The files of a plan are files of the scan it is made from. -/
theorem fromScanReport_files {keep : LiveScanPlan → ExceptT ε (Prog E A) Unit}
    (rootLocalPath : LocalPath) (report : ScanReport) :
    TryResults (fun plan => ∀ file ∈ plan.files, file ∈ report.files)
      (LiveScanPlan.fromScanReport isDir keep rootLocalPath report) :=
  TryResults.bind (tryResults_true _) fun _ _ => TryResults.pure fun _ hfile =>
    List.mem_of_mem_filter hfile

end LivePlan

theorem RunLock.tryAcquireRunLock_of {μ : Type} {K : ⦃α : Type⦄ → Locking μ α → Prop}
    (hk : Sequential K) {owner : Str} {staleAfter : Int} (hnow : K (RunLock.perform .now))
    (hinsert : ∀ now, K (RunLock.perform (.state (.insertRunLock owner now))))
    (hreplace : ∀ now staleBefore,
      K (RunLock.perform (.state (.replaceStaleRunLock owner now staleBefore)))) :
    K (RunLock.tryAcquireRunLock owner staleAfter : Locking μ (Option RunLockGuard)) := by
  have hstate : ∀ {call : StateCall}, K (RunLock.perform (.state call)) →
      K (RunLock.state (μ := μ) call) := by
    intro call hcall
    refine hk.bind hcall fun answer => ?_
    cases answer with
    | ok result => exact hk.pure _
    | error error => exact hk.throw _
  refine hk.bind hnow fun now => hk.bind (hstate (hinsert now)) fun inserted => ?_
  refine iteInduction (motive := fun p => K p) (fun _ => hk.pure _) fun _ => ?_
  refine hk.bind (hstate (hreplace now _)) fun replaced => ?_
  exact iteInduction (motive := fun p => K p) (fun _ => hk.pure _) fun _ => hk.pure _

namespace SyncEngine

variable {K : ⦃α : Type⦄ → Engine α → Prop}

/-- Changes of a root's summary that take nothing back and upload nothing. -/
def Grows (f : RootSyncSummary → RootSyncSummary) : Prop :=
  ∀ summary : RootSyncSummary, summary.counts.Grows (f summary).counts

/-- Properties the steps that only report have. -/
structure Reporting (K : ⦃α : Type⦄ → Engine α → Prop) : Prop extends Composable K where
  report : ∀ {call : StateCall}, call.isReport = true → K (SyncEngine.state call)
  readMemory : K (perform .readMemory)
  modifySummary : ∀ f, Grows f → K (modifySummary f)
  isCancelled : K isCancelled

/-- Properties the steps that only keep books of a root have. -/
structure Quiet (runId : Int) (baseSummary : SyncRunSummary)
    (K : ⦃α : Type⦄ → Engine α → Prop) : Prop extends Reporting K where
  state : ∀ {call : StateCall}, call.isBookkeeping = true → K (SyncEngine.state call)
  persistRootProgress : K (persistRootProgress runId baseSummary)
  cleanupStagingFiles : ∀ files, K (cleanupStagingFiles files)
  fileMetadata : ∀ path, K (perform (.fileMetadata path))

theorem sequential_state (hk : Sequential K) {call : StateCall}
    (h : K (perform (.state call))) : K (state call) := by
  refine hk.bind h fun answer => ?_
  cases answer with
  | ok result => exact hk.pure result
  | error error => exact hk.throw _

theorem cleanupStagingFiles_of (hk : Sequential K) (hremove : ∀ path, K (perform (.removeFile path)))
    (files : List LocalFileEntry) : K (cleanupStagingFiles files) := by
  induction files with
  | nil => exact hk.pure ()
  | cons file files ih =>
    unfold SyncEngine.cleanupStagingFiles
    cases file.sqliteBackupStagingPath with
    | none => exact ih
    | some path =>
      refine hk.bind (hremove path) fun answer => ?_
      cases answer with
      | ok _ => exact ih
      | error error =>
        dsimp only
        split
        · exact ih
        · exact hk.throw _

namespace Reporting

variable (hk : Reporting K)

include hk

theorem livePlan : K livePlan :=
  hk.bind hk.readMemory fun _ => hk.pure _

theorem failRootWith (rootStatus : Str) (root : SyncRootConfig)
    (operation errorKind errorMessage : Str) :
    K (failRootWith rootStatus root operation errorKind errorMessage) :=
  hk.bind hk.readMemory fun _ => hk.bind (hk.report rfl) fun _ =>
    hk.bind (hk.report rfl) fun _ =>
      hk.modifySummary _ fun _ => by simp [Counts.Grows,Counts.bytes,RootSyncSummary.counts]

theorem recordDeletedSubtree (runId : Int) (subtree : DeletedLocalSubtree) :
    K (recordDeletedSubtree runId subtree) :=
  hk.bind (hk.report rfl) fun _ => hk.bind (hk.report rfl) fun _ =>
    hk.bind (hk.report rfl) fun _ =>
      hk.modifySummary _ fun _ => by simp [Counts.Grows,Counts.bytes,RootSyncSummary.counts]

theorem recordDeletedSubtrees (runId : Int) (subtrees : List DeletedLocalSubtree) :
    K (recordDeletedSubtrees runId subtrees) := by
  induction subtrees with
  | nil => exact hk.pure ()
  | cons subtree subtrees ih => exact hk.bind (hk.recordDeletedSubtree runId subtree) fun _ => ih

theorem recordScanFindings (report : ScanReport) : K (recordScanFindings report) := by
  refine hk.bind ?_ fun _ => ?_
  · induction report.skipped with
    | nil => exact hk.pure ()
    | cons item items ih => exact hk.bind (hk.report rfl) fun _ => ih
  · induction report.failed with
    | nil => exact hk.pure ()
    | cons item items ih => exact hk.bind (hk.report rfl) fun _ => ih

theorem finishRootCancelledOrFailed (root : SyncRootConfig) :
    K (finishRootCancelledOrFailed root) := by
  refine hk.bind hk.isCancelled fun cancelled => ?_
  split
  · exact hk.bind (hk.modifySummary _ fun _ => .refl _) fun _ =>
      hk.bind hk.readMemory fun _ => hk.report rfl
  · refine hk.bind hk.readMemory fun memory => ?_
    refine iteInduction (motive := fun p => K p) (fun _ => hk.report rfl) fun _ => ?_
    exact iteInduction (motive := fun p => K p)
      (fun _ => hk.bind (hk.modifySummary _ fun _ => .refl _) fun _ => hk.report rfl)
      fun _ => hk.bind (hk.modifySummary _ fun _ => .refl _) fun _ => hk.report rfl

theorem stopRoot (errorSummary : Str) : K (stopRoot errorSummary) :=
  hk.modifySummary _ fun _ => .refl _

end Reporting

namespace Quiet

variable {runId : Int} {baseSummary : SyncRunSummary} (hk : Quiet runId baseSummary K)

include hk

theorem recordOperationFailure (operationId : Int) (record : FailedItemRecord) :
    K (recordOperationFailure runId baseSummary operationId record) :=
  hk.bind (hk.state rfl) fun _ => hk.bind (hk.state rfl) fun _ =>
    hk.bind (hk.modifySummary _ fun _ => by
      simp [Counts.Grows,Counts.bytes,RootSyncSummary.counts]) fun _ =>
      hk.persistRootProgress

theorem recordClientFailure (root : SyncRootConfig) (operationId : Int) (operation : Str)
    (localPath : Option Str) (remotePath : Str) (error : YandexDiskError) :
    K (recordClientFailure root runId baseSummary operationId operation localPath remotePath
      error) := by
  refine hk.bind (hk.recordOperationFailure operationId _) fun _ => ?_
  split
  · exact hk.bind (hk.stopRoot _) fun _ => hk.pure _
  · exact hk.pure _

end Quiet

section Phases

variable {runId : Int} {baseSummary : SyncRunSummary} (hk : Quiet runId baseSummary K)
  (root : SyncRootConfig)

include hk

theorem skipMissing_of
    (hregister : ∀ localPath relativePath remotePath,
      K (registerMissingLocalPath localPath relativePath remotePath))
    (localPath : LocalPath) (relativePath remotePath : Str) :
    K (skipMissing runId baseSummary localPath relativePath remotePath) := by
  refine hk.bind (hregister _ _ _) fun found => ?_
  cases found with
  | none => exact hk.pure _
  | some subtree =>
    exact hk.bind (hk.recordDeletedSubtree runId subtree) fun _ =>
      hk.bind hk.persistRootProgress fun _ => hk.pure _

theorem nextCreateBatch_of
    (hskip : ∀ localPath relativePath remotePath,
      K (skipMissing runId baseSummary localPath relativePath remotePath))
    (slots : Nat) (pending : List LocalDirectoryEntry) :
    K (nextCreateBatch runId baseSummary slots pending) := by
  induction pending generalizing slots with
  | nil => cases slots <;> exact hk.pure _
  | cons directory pending ih =>
    cases slots with
    | zero => exact hk.pure _
    | succ slots =>
      unfold nextCreateBatch
      refine hk.bind hk.livePlan fun plan => ?_
      split
      · exact ih _
      · refine hk.bind (hskip _ _ _) fun skipped => ?_
        cases skipped with
        | true => exact ih _
        | false => exact hk.bind (ih _) fun _ => hk.pure _

theorem spawnCreates_of
    (hspawn : ∀ directory operationId, K (perform (.spawn (.createDirectory directory operationId))))
    (batch : List LocalDirectoryEntry) : K (spawnCreates runId batch) := by
  induction batch with
  | nil => exact hk.pure ()
  | cons directory batch ih =>
    exact hk.bind (hk.state rfl) fun operationId =>
      hk.bind (hspawn directory operationId) fun _ => ih

theorem recordCreated_of (hdirectory : ∀ record, K (state (.upsertDirectoryState record)))
    (hresource : ∀ record, K (state (.upsertRemoteResource record)))
    (directory : LocalDirectoryEntry) (operationId : Int) :
    K (recordCreated runId directory operationId) :=
  hk.bind (hk.state rfl) fun _ => hk.bind (hdirectory _) fun _ => hresource _

theorem joinCreates_of (hjoin : K (perform .joinNext)) (hdrop : K (perform .dropTasks))
    (hcreated : ∀ directory operationId, K (recordCreated runId directory operationId))
    (fuel : Nat) : K (joinCreates root runId baseSummary fuel) := by
  induction fuel with
  | zero => exact hk.pure _
  | succ fuel ih =>
    refine hk.bind hjoin fun joined => ?_
    match joined with
    | some (.created directory operationId (.ok _)) =>
      exact hk.bind (hcreated directory operationId) fun _ => ih
    | some (.created directory operationId (.error error)) =>
      refine hk.bind (hk.recordClientFailure ..) fun stop => ?_
      cases stop with
      | true => exact hk.bind hdrop fun _ => hk.pure _
      | false => exact ih
    | none => exact hk.pure _
    | some (.uploaded outcome) => exact hk.pure _

theorem createLevel_of
    (hbatch : ∀ slots pending, K (nextCreateBatch runId baseSummary slots pending))
    (hspawn : ∀ batch, K (spawnCreates runId batch))
    (hjoin : ∀ fuel, K (joinCreates root runId baseSummary fuel)) (concurrency fuel : Nat)
    (pending : List LocalDirectoryEntry) :
    K (createLevel root runId baseSummary concurrency fuel pending) := by
  induction fuel generalizing pending with
  | zero => exact hk.pure _
  | succ fuel ih =>
    unfold createLevel
    split
    · exact hk.pure _
    · refine hk.bind hk.isCancelled fun cancelled => ?_
      cases cancelled with
      | true => exact hk.pure _
      | false =>
        refine hk.bind (hbatch _ _) fun next => ?_
        split
        · exact ih _
        · refine hk.bind (hspawn _) fun _ => hk.bind (hjoin _) fun stop => ?_
          cases stop with
          | true => exact hk.pure _
          | false => exact ih _

theorem createLevels_of
    (hlevel : ∀ concurrency fuel pending,
      K (createLevel root runId baseSummary concurrency fuel pending)) (concurrency : Nat)
    (levels : List (List LocalDirectoryEntry)) :
    K (createLevels root runId baseSummary concurrency levels) := by
  induction levels with
  | nil => exact hk.pure _
  | cons level levels ih =>
    refine hk.bind (hlevel _ _ _) fun stop => ?_
    cases stop with
    | true => exact hk.pure _
    | false => exact ih

theorem applyCreateDirectories_of (config : AppConfig)
    (hlevel : ∀ concurrency fuel pending,
      K (createLevel root runId baseSummary concurrency fuel pending)) (rootPlan : RootPlan) :
    K (applyCreateDirectories config root runId baseSummary rootPlan) :=
  hk.bind hk.livePlan fun _ => createLevels_of hk root hlevel _ _

theorem spawnUploads_of
    (hskip : ∀ localPath relativePath remotePath,
      K (skipMissing runId baseSummary localPath relativePath remotePath))
    (batch : List (LocalFileEntry × Bool))
    (hspawn : ∀ upload ∈ batch, ∀ operationId,
      K (perform (.spawn (.upload operationId upload.1 upload.2 cancelledText)))) :
    K (spawnUploads runId baseSummary batch) := by
  induction batch with
  | nil => exact hk.pure ()
  | cons upload batch ih =>
    have hrest := ih fun u hu => hspawn u (List.mem_cons_of_mem _ hu)
    unfold spawnUploads
    refine hk.bind hk.livePlan fun plan => ?_
    split
    · exact hrest
    · refine hk.bind (hskip _ _ _) fun skipped => ?_
      cases skipped with
      | true => exact hrest
      | false =>
        exact hk.bind (hk.state rfl) fun operationId =>
          hk.bind (hspawn upload List.mem_cons_self operationId) fun _ => hrest

theorem fileStatusAfterUpload_of (file : LocalFileEntry) : K (fileStatusAfterUpload file) := by
  refine hk.bind (hk.fileMetadata _) fun found => ?_
  cases found with
  | none => exact hk.pure _
  | some found =>
    exact iteInduction (motive := fun p => K p) (fun _ => hk.pure _) fun _ => hk.pure _

theorem recordUploaded_of {file : LocalFileEntry} {isUpdate : Bool}
    (hcount : K (modifySummary (countUpload file isUpdate)))
    (hfile : ∀ status, K (state (.upsertFileState (fileStateRecord file runId status none))))
    (hresource : ∀ record, K (state (.upsertRemoteResource record))) (operationId : Int) :
    K (recordUploaded runId baseSummary operationId file isUpdate) :=
  hk.bind (hk.state rfl) fun _ => hk.bind (fileStatusAfterUpload_of hk file) fun _ =>
    hk.bind (hfile _) fun _ => hk.bind (hresource _) fun _ => hk.bind hcount fun _ =>
      hk.persistRootProgress

theorem recordSkippedUpload_of {file : LocalFileEntry} {errorMessage : Str}
    (hfile : K (state (.upsertFileState
      (fileStateRecord file runId .skipped (some errorMessage)))))
    (operationId : Int) (reasonCode : Str) :
    K (recordSkippedUpload runId baseSummary operationId file reasonCode errorMessage) :=
  hk.bind (hk.state rfl) fun _ => hk.bind (hk.state rfl) fun _ => hk.bind hfile fun _ =>
    hk.bind (hk.modifySummary _ fun _ => by
      simp [Counts.Grows,Counts.bytes,RootSyncSummary.counts]) fun _ =>
      hk.persistRootProgress

theorem recordUploadFailure_of
    (hregister : ∀ localPath relativePath remotePath,
      K (registerMissingLocalPath localPath relativePath remotePath))
    (outcome : UploadTaskOutcome) (failure : UploadTaskFailure)
    (hskipped : ∀ reasonCode, K (recordSkippedUpload runId baseSummary outcome.operationId
      outcome.file reasonCode failure.errorMessage)) :
    K (recordUploadFailure root runId baseSummary outcome failure) := by
  refine hk.bind (hregister _ _ _) fun found => ?_
  cases found with
  | some subtree =>
    exact hk.bind (hk.state rfl) fun _ => hk.bind (hk.recordDeletedSubtree runId subtree) fun _ =>
      hk.bind hk.persistRootProgress fun _ => hk.pure _
  | none =>
    dsimp only
    cases failure.skipReasonCode with
    | some reasonCode => exact hk.bind (hskipped reasonCode) fun _ => hk.pure _
    | none =>
      refine hk.bind (hk.recordOperationFailure ..) fun _ => ?_
      split
      · exact hk.bind (hk.stopRoot _) fun _ => hk.pure _
      · exact hk.pure _

theorem joinUploads_of (hjoin : K (perform .joinNext)) (hdrop : K (perform .dropTasks))
    (huploaded : ∀ operationId file isUpdate,
      K (recordUploaded runId baseSummary operationId file isUpdate))
    (hfailed : ∀ outcome failure,
      K (recordUploadFailure root runId baseSummary outcome failure))
    (fuel bytesUploaded : Nat) : K (joinUploads root runId baseSummary fuel bytesUploaded) := by
  induction fuel generalizing bytesUploaded with
  | zero => exact hk.pure _
  | succ fuel ih =>
    refine hk.bind hjoin fun joined => ?_
    match joined with
    | some (.uploaded outcome) =>
      dsimp only
      cases outcome.result with
      | ok _ => exact hk.bind (huploaded _ _ _) fun _ => ih _
      | error failure =>
        refine hk.bind (hfailed _ _) fun stop => ?_
        cases stop with
        | true => exact hk.bind hdrop fun _ => hk.pure _
        | false => exact ih _
    | none => exact hk.pure _
    | some (.created directory operationId result) => exact hk.pure _

/-- The batches are made of uploads of the plan. -/
theorem applyUploads_of (config : AppConfig) (rootPlan : RootPlan)
    (hspawn : ∀ batch ⊆ rootPlan.uploads, K (spawnUploads runId baseSummary batch))
    (hjoin : ∀ fuel bytesUploaded, K (joinUploads root runId baseSummary fuel bytesUploaded)) :
    K (applyUploads config root runId baseSummary rootPlan) := by
  unfold applyUploads
  suffices h : ∀ fuel pending bytesUploaded, pending ⊆ rootPlan.uploads →
      K (uploadBatches root runId baseSummary (max config.sync.uploadConcurrency 1)
        config.sync.largeFileNameSizeOnlyMinBytes fuel pending bytesUploaded) from
    h _ _ _ (List.Subset.refl _)
  intro fuel
  induction fuel with
  | zero => exact fun _ _ _ => hk.pure _
  | succ fuel ih =>
    intro pending bytesUploaded hpending
    have hperm := takeUploadBatch_perm (max config.sync.uploadConcurrency 1)
      config.sync.largeFileNameSizeOnlyMinBytes pending 0 false
    unfold uploadBatches
    refine iteInduction (motive := fun p => K p) (fun _ => hk.pure _) fun _ => ?_
    refine hk.bind hk.isCancelled fun cancelled => ?_
    refine iteInduction (motive := fun p => K p) (fun _ => hk.pure _) fun _ => ?_
    refine iteInduction (motive := fun p => K p) (fun _ => hk.pure _) fun _ => ?_
    refine hk.bind (hspawn _ fun upload hu =>
      hpending (hperm.subset (List.mem_append_left _ hu))) fun _ => hk.bind (hjoin _ _) fun result => ?_
    refine iteInduction (motive := fun p => K p) (fun _ => hk.pure _) fun _ => ih _ _ fun upload hu =>
      hpending (hperm.subset (List.mem_append_right _ hu))

theorem recordDeleted_of
    (hmark : ∀ delete : RemoteDeleteOperation,
      K (state (.markDeleted delete.rootId delete.relativePath delete.remotePath
        (some runId))) ∧
      K (state (.markDirectoryDeleted delete.rootId delete.relativePath delete.remotePath
        (some runId))))
    (hsubtree : ∀ rootId remotePath, K (state (.deleteRemoteResourceSubtree rootId remotePath)))
    (operationId : Int) (delete : RemoteDeleteOperation) :
    K (recordDeleted runId operationId delete) := by
  refine hk.bind (hk.state rfl) fun _ => ?_
  cases delete.resourceType with
  | file =>
    exact hk.bind (hmark delete).1 fun _ => hsubtree _ _
  | directory =>
    exact hk.bind (hmark delete).2 fun _ => hsubtree _ _

theorem applyDelete_of {delete : RemoteDeleteOperation}
    (hclient : K (client (.deletePermanently delete.remotePath)))
    (hmetadata : K (client (.metadata delete.remotePath)))
    (hdeleted : ∀ operationId, K (recordDeleted runId operationId delete))
    (hsubtree : K (state (.deleteRemoteResourceSubtree delete.rootId delete.remotePath)))
    (inventoryFromCache : Bool) :
    K (applyDelete root runId baseSummary inventoryFromCache delete) := by
  have hremote : ∀ operationId, K (deleteRemote root runId baseSummary operationId delete) := by
    intro operationId
    refine hk.bind hclient fun answer => ?_
    cases answer with
    | ok _ =>
      exact hk.bind (hdeleted _) fun _ => hk.bind (hk.modifySummary _ fun _ => by
        simp [Counts.Grows,Counts.bytes,RootSyncSummary.counts]) fun _ =>
        hk.bind hk.persistRootProgress fun _ => hk.pure _
    | error error =>
      dsimp only
      split
      · exact hk.bind (hdeleted _) fun _ => hk.pure _
      · exact hk.recordClientFailure ..
  refine hk.bind (hk.state rfl) fun operationId => ?_
  split
  · refine hk.bind hmetadata fun answer => ?_
    cases answer with
    | ok _ => exact hremote operationId
    | error error =>
      dsimp only
      split
      · exact hk.bind (hk.state rfl) fun _ =>
          hk.bind hsubtree fun _ => hk.pure _
      · exact hk.recordClientFailure ..
  · exact hremote operationId

theorem deleteEach_of (inventoryFromCache : Bool) (deletes : List RemoteDeleteOperation)
    (hdelete : ∀ delete ∈ deletes,
      K (applyDelete root runId baseSummary inventoryFromCache delete)) :
    K (deleteEach root runId baseSummary inventoryFromCache deletes) := by
  induction deletes with
  | nil => exact hk.pure _
  | cons delete deletes ih =>
    refine hk.bind hk.isCancelled fun cancelled => ?_
    cases cancelled with
    | true => exact hk.pure _
    | false =>
      refine hk.bind (hdelete delete (by simp)) fun stop => ?_
      cases stop with
      | true => exact hk.pure _
      | false => exact ih fun d hd => hdelete d (by simp [hd])

end Phases

/-- Properties that creates and uploads have in any order. -/
structure Phases (runId : Int) (baseSummary : SyncRunSummary)
    (K : ⦃α : Type⦄ → Engine α → Prop) : Prop extends Quiet runId baseSummary K where
  register : ∀ localPath relativePath remotePath,
    K (registerMissingLocalPath localPath relativePath remotePath)
  spawn : ∀ task, K (perform (.spawn task))
  joinNext : K (perform .joinNext)
  dropTasks : K (perform .dropTasks)
  upsertDirectoryState : ∀ record, K (SyncEngine.state (.upsertDirectoryState record))
  upsertFileState : ∀ record, K (SyncEngine.state (.upsertFileState record))
  upsertRemoteResource : ∀ record, K (SyncEngine.state (.upsertRemoteResource record))

namespace Phases

variable {runId : Int} {baseSummary : SyncRunSummary} (hk : Phases runId baseSummary K)
  (config : AppConfig) (root : SyncRootConfig) (rootPlan : RootPlan)

include hk

theorem skipMissing (localPath : LocalPath) (relativePath remotePath : Str) :
    K (skipMissing runId baseSummary localPath relativePath remotePath) :=
  skipMissing_of hk.toQuiet hk.register _ _ _

theorem applyCreateDirectories :
    K (applyCreateDirectories config root runId baseSummary rootPlan) := by
  refine applyCreateDirectories_of hk.toQuiet root config ?_ rootPlan
  exact createLevel_of hk.toQuiet root (nextCreateBatch_of hk.toQuiet hk.skipMissing)
    (spawnCreates_of hk.toQuiet fun _ _ => hk.spawn _)
    (joinCreates_of hk.toQuiet root hk.joinNext hk.dropTasks
      (recordCreated_of hk.toQuiet hk.upsertDirectoryState hk.upsertRemoteResource))

theorem recordSkippedUpload (operationId : Int) (file : LocalFileEntry)
    (reasonCode errorMessage : Str) :
    K (recordSkippedUpload runId baseSummary operationId file reasonCode errorMessage) :=
  recordSkippedUpload_of hk.toQuiet (hk.upsertFileState _) operationId reasonCode

theorem recordUploadFailure (outcome : UploadTaskOutcome) (failure : UploadTaskFailure) :
    K (recordUploadFailure root runId baseSummary outcome failure) :=
  recordUploadFailure_of hk.toQuiet root hk.register outcome failure
    fun _ => hk.recordSkippedUpload _ _ _ _

theorem applyUploads_of_join
    (hjoin : ∀ fuel bytesUploaded, K (joinUploads root runId baseSummary fuel bytesUploaded)) :
    K (applyUploads config root runId baseSummary rootPlan) :=
  applyUploads_of hk.toQuiet root config rootPlan
    (fun batch _ => spawnUploads_of hk.toQuiet hk.skipMissing batch fun _ _ _ => hk.spawn _) hjoin

theorem applyUploads (hcount : ∀ file isUpdate, K (modifySummary (countUpload file isUpdate))) :
    K (applyUploads config root runId baseSummary rootPlan) :=
  hk.applyUploads_of_join config root rootPlan
    (joinUploads_of hk.toQuiet root hk.joinNext hk.dropTasks
      (fun operationId file isUpdate => recordUploaded_of hk.toQuiet (hcount file isUpdate)
        (fun _ => hk.upsertFileState _) hk.upsertRemoteResource operationId)
      (hk.recordUploadFailure root))

end Phases

section Root

variable {runId : Int} {baseSummary : SyncRunSummary} (hk : Quiet runId baseSummary K)
  (ext : Externals) (config : AppConfig) (root : SyncRootConfig) {canonicalRemotePath : Str}

include hk

theorem applyPlan_of {rootPlan : RootPlan} {snapshot : RemoteInventorySnapshot}
    (hcreate : K (applyCreateDirectories config root runId baseSummary rootPlan))
    (hupload : K (applyUploads config root runId baseSummary rootPlan))
    (hdelete : K (applyDeletes root runId baseSummary canonicalRemotePath snapshot.resources
      snapshot.fromCache)) (scanReport : ScanReport) :
    K (applyPlan config root runId baseSummary canonicalRemotePath scanReport rootPlan
      snapshot) := by
  refine hk.bind hcreate fun stop => hk.bind hk.isCancelled fun cancelled => ?_
  refine iteInduction (motive := fun p => K p) (fun _ => ?_) fun _ => ?_
  · exact hk.bind (hk.cleanupStagingFiles _) fun _ =>
      hk.bind (hk.finishRootCancelledOrFailed root) fun _ => hk.pure _
  · refine hk.bind hupload fun uploaded => hk.bind (hk.cleanupStagingFiles _) fun _ =>
      hk.bind hk.isCancelled fun cancelled => ?_
    refine iteInduction (motive := fun p => K p) (fun _ => ?_) fun _ => ?_
    · exact hk.bind (hk.finishRootCancelledOrFailed root) fun _ => hk.pure _
    · exact hk.bind hdelete fun _ => hk.bind (hk.finishRootCancelledOrFailed root) fun _ =>
        hk.bind hk.persistRootProgress fun _ => hk.pure _

theorem executePlan_of {plan : LiveScanPlan} {snapshot : RemoteInventorySnapshot}
    {scanReport : ScanReport}
    (happly : K (applyPlan config root runId baseSummary canonicalRemotePath scanReport
      (buildRootPlan ext root canonicalRemotePath plan snapshot.resources) snapshot))
    (hreport : ∀ f, (∀ report, (f report).summary.counts = report.summary.counts) →
      K (modifyReport f)) (availableRemoteBytes : Option Nat) :
    K (executePlan ext config root runId baseSummary canonicalRemotePath scanReport plan snapshot
      availableRemoteBytes) := by
  unfold executePlan
  dsimp only
  split
  · exact hk.bind (hk.failRootWith ..) fun _ =>
      hk.bind (hreport _ fun _ => rfl) fun _ => hk.pure _
  · exact hk.bind (hreport _ fun _ => rfl) fun _ => happly

/-- What follows once a snapshot was asked for. -/
theorem executeInventory_of {plan : LiveScanPlan} {scanReport : ScanReport}
    (hset : ∀ error, K (state (.setRootRemoteInventoryStatus
      (incompleteInventoryStatus root error))))
    (happly : ∀ snapshot, K (applyPlan config root runId baseSummary canonicalRemotePath scanReport
      (buildRootPlan ext root canonicalRemotePath plan snapshot.resources) snapshot))
    (hreport : ∀ f, (∀ report, (f report).summary.counts = report.summary.counts) →
      K (modifyReport f)) (availableRemoteBytes : Option Nat)
    (answer : Except YandexDiskError RemoteInventorySnapshot) :
    K (match answer with
      | .error error => do
        state (.setRootRemoteInventoryStatus (incompleteInventoryStatus root error))
        if isStopError error.kind then
          failRoot root "remote_inventory".toList error.kind.asStr error.message
          return { shouldStop := true }
        else
          partialFailRoot root "remote_inventory".toList error.kind.asStr error.message
          return { shouldStop := false }
      | .ok snapshot =>
        executePlan ext config root runId baseSummary canonicalRemotePath scanReport plan snapshot
          availableRemoteBytes) := by
  cases answer with
  | ok snapshot =>
    exact executePlan_of hk ext config root (happly snapshot) hreport availableRemoteBytes
  | error error =>
    refine hk.bind (hset error) fun _ => ?_
    exact iteInduction (motive := fun p => K p)
      (fun _ => hk.bind (hk.failRootWith ..) fun _ => hk.pure _)
      fun _ => hk.bind (hk.failRootWith ..) fun _ => hk.pure _

end Root

theorem recordMissingRoot_of (hk : Reporting K) (root : SyncRootConfig) {canonicalRemotePath : Str}
    (hset : ∀ f, K (modifySummary f)) : K (recordMissingRoot root canonicalRemotePath) :=
  hk.bind (hk.report rfl) fun _ => hk.bind (hk.report rfl) fun _ => hset _

theorem finishRootSummary_of (hk : Reporting K) (hreport : ∀ f, K (modifyReport f)) :
    K finishRootSummary :=
  hk.bind hk.readMemory fun _ => hreport _

section Inventory

variable {K : ⦃α : Type⦄ → Inventorying α → Prop}

theorem inventoryState_of (hk : Sequential K) {call : StateCall} (h : K (ask (.state call)))
    (describe : StateError → Str) : K (inventoryState describe call) := by
  refine hk.bind h fun answer => ?_
  cases answer with
  | ok result => exact hk.pure result
  | error error => exact hk.throw _

/-- What a property has to allow for the inventory of a root to have it. -/
structure InventoryCalls (K : ⦃α : Type⦄ → Inventorying α → Prop) : Prop extends Sequential K where
  now : K (ask .now)
  status : ∀ rootId, K (ask (.state (.getRootRemoteInventoryStatus rootId)))
  cached : ∀ rootId, K (ask (.state (.listRemoteResourcesForRoot rootId)))
  metadata : ∀ path, K (ask (.client (.metadata path)))
  list : ∀ path pruned, K (ask (.client (.listRecursive path pruned)))
  replace : ∀ rootId records, K (ask (.state (.replaceRemoteResourcesForRoot rootId records)))
  setStatus : ∀ status, K (ask (.state (.setRootRemoteInventoryStatus status)))

theorem cachedRemoteInventory_of (hk : InventoryCalls K) (root : SyncRootConfig)
    (canonicalRemotePath : Str) (forceRemoteRescan : Bool) :
    K (cachedRemoteInventory root canonicalRemotePath forceRemoteRescan) := by
  refine iteInduction (motive := fun p => K p) (fun _ => hk.pure _) fun _ => ?_
  refine hk.bind (inventoryState_of hk.toSequential (hk.status _) _) fun status => ?_
  cases status with
  | none => exact hk.pure _
  | some status =>
    refine hk.bind hk.now fun now => ?_
    refine iteInduction (motive := fun p => K p) (fun _ => ?_) fun _ => hk.pure _
    exact hk.bind (inventoryState_of hk.toSequential (hk.cached _) _) fun _ => hk.pure _

theorem remoteInventory_of (hk : InventoryCalls K) (config : AppConfig) (root : SyncRootConfig)
    (canonicalRemotePath : Str) (livePlan : LiveScanPlan) (forceRemoteRescan : Bool) :
    K (remoteInventory config root canonicalRemotePath livePlan forceRemoteRescan) := by
  refine hk.bind (cachedRemoteInventory_of hk root _ _) fun cached => ?_
  cases cached with
  | some snapshot => exact hk.pure _
  | none =>
    refine hk.bind (hk.metadata _) fun answer => ?_
    cases answer with
    | error error =>
      exact iteInduction (motive := fun p => K p) (fun _ => hk.pure _) fun _ => hk.throw _
    | ok rootMetadata =>
      refine hk.bind (hk.list _ _) fun answer => ?_
      cases answer with
      | error error =>
        exact iteInduction (motive := fun p => K p) (fun _ => hk.pure _) fun _ => hk.throw _
      | ok listed =>
        refine hk.bind ?_ fun _ => hk.pure _
        refine hk.bind (inventoryState_of hk.toSequential (hk.replace _ _) _) fun _ => ?_
        exact hk.bind hk.now fun now => inventoryState_of hk.toSequential (hk.setStatus _) _

end Inventory

end SyncEngine

end YaDiskSync
