import YaDiskSync.MigrationFrame

/-! What the work on a root of a migration may ask, its uploads apart, and which part of it stores
no file as synced. -/
namespace YaDiskSync

open Prog

namespace MigrationEngine

/-- Changes of the variables that leave the plan and the open uploads alone. -/
def KeepsWork (f : MigrationMemory → MigrationMemory) : Prop :=
  ∀ memory, (f memory).livePlan = memory.livePlan ∧ (f memory).uploadBatch = memory.uploadBatch

/-- Steps that neither assign anything nor touch the tasks. -/
def isCalm : Effect MigrationMemory → Bool
  | .updateMemory _ => false
  | e => !e.onTasks

/-- Calls that may store the row of a file as synced. -/
def storesSynced : Effect MigrationMemory → Bool
  | .state (.upsertFileState record) => record.status == .synced
  | .state (.upsertFileStates _) => true
  | _ => false

/-- Calm steps that store neither a file as synced nor a digest of one. -/
def isSparing (e : Effect MigrationMemory) : Bool :=
  isCalm e && !storesSynced e && match e with
    | .state (.upsertFileState record) => record.remoteMd5.isNone
    | _ => true

theorem isCalm_of_isSparing {e : Effect MigrationMemory} (h : isSparing e = true) :
    isCalm e = true := by
  simp only [isSparing,Bool.and_eq_true] at h
  exact h.1.1

theorem storesSynced_of_isSparing {e : Effect MigrationMemory} (h : isSparing e = true) :
    storesSynced e = false := by
  simp only [isSparing,Bool.and_eq_true,Bool.not_eq_true'] at h
  exact h.1.2

/-- Those of them that only read what the client has. -/
def isReading (e : Effect MigrationMemory) : Bool :=
  isSparing e && match e with
    | .client call => call.isRead
    | _ => true

theorem isSparing_of_isReading {e : Effect MigrationMemory} (h : isReading e = true) :
    isSparing e = true := by
  simp only [isReading,Bool.and_eq_true] at h
  exact h.1

theorem inventory_reading : InventoryCalls fun ⦃α⦄ (p : Listing α) =>
    Only (fun e => isReading e = true) p.run where
  toSequential := sequential_only
  now := ⟨rfl,fun _ => trivial⟩
  status _ := ⟨rfl,fun _ => trivial⟩
  cached _ := ⟨rfl,fun _ => trivial⟩
  metadata _ := ⟨rfl,fun _ => trivial⟩
  list _ _ := ⟨rfl,fun _ => trivial⟩

/-- Changes of the variables that leave the adoptions alone as well. -/
def SparesWork (f : MigrationMemory → MigrationMemory) : Prop :=
  ∀ memory, (f memory).livePlan = memory.livePlan ∧
    (f memory).uploadBatch = memory.uploadBatch ∧
    (f memory).adoptionBatch = memory.adoptionBatch

/-- Properties the steps have that read and record. -/
structure Recording (K : ⦃α : Type⦄ → Migrator α → Prop) : Prop extends Sequential K where
  reading : ∀ {α : Type} {p : Prog (Effect MigrationMemory) Effect.Answer α},
    Only (fun e => isReading e = true) p → K (liftM p : Migrator α)
  recordSummary : ∀ f, KeepsPath f → K (modifySummary f)

/-- Properties the work on a single file has that moves and plans nothing. -/
structure Handling (K : ⦃α : Type⦄ → Migrator α → Prop) : Prop extends Recording K where
  modifySummary : ∀ f, K (modifySummary f)
  modifySets : ∀ f, K (modifySets f)
  register : ∀ localPath relativePath remotePath,
    K (registerMissingLocalPath localPath relativePath remotePath)
  attempt : ∀ {α : Type} {p : Migrator α}, K p → K (attempt p)
  recordSummary := fun f _ => modifySummary f

/-- Properties the work on a root has that stores no file as synced. -/
structure Sparing (K : ⦃α : Type⦄ → Migrator α → Prop) : Prop extends Handling K where
  sparing : ∀ {α : Type} {p : Prog (Effect MigrationMemory) Effect.Answer α},
    Only (fun e => isSparing e = true) p → K (liftM p : Migrator α)
  update : ∀ f, SparesWork f → K (perform (.updateMemory f))
  reading := fun h => sparing (h.mono fun _ he => isSparing_of_isReading he)
  modifySummary := fun _ => update _ fun _ => ⟨rfl,rfl,rfl⟩
  modifySets := fun _ => update _ fun _ => ⟨rfl,rfl,rfl⟩

/-- Properties the work on a root has, its uploads apart. -/
structure Working (K : ⦃α : Type⦄ → Migrator α → Prop) : Prop extends Sparing K where
  calm : ∀ {α : Type} {p : Prog (Effect MigrationMemory) Effect.Answer α},
    Only (fun e => isCalm e = true) p → K (liftM p : Migrator α)
  work : ∀ f, KeepsWork f → K (perform (.updateMemory f))
  sparing := fun h => calm (h.mono fun _ he => isCalm_of_isSparing he)
  update := fun f hf => work f fun memory => ⟨(hf memory).1,(hf memory).2.1⟩

namespace Recording

variable {K : ⦃α : Type⦄ → Migrator α → Prop} (hk : Recording K)

include hk

theorem perform (e : Effect MigrationMemory) (he : isReading e = true) :
    K (MigrationEngine.perform e) :=
  hk.reading ⟨he,fun _ => trivial⟩

theorem state {call : StateCall} (hcall : isReading (.state call) = true) :
    K (MigrationEngine.state call) := by
  refine hk.bind (hk.perform (.state call) hcall) fun answer => ?_
  cases answer with
  | ok result => exact hk.pure result
  | error error => exact hk.throw _

theorem client {call : ClientCall} (hcall : call.isRead = true) : K (MigrationEngine.client call) :=
  hk.perform (.client call) hcall

theorem memory : K MigrationEngine.memory := hk.perform .readMemory rfl

theorem isCancelled : K MigrationEngine.isCancelled := hk.perform .isCancelled rfl

theorem persistRootProgress (runId : Int) (baseSummary : SyncRunSummary) :
    K (persistRootProgress runId baseSummary) :=
  hk.bind hk.memory fun _ => hk.state rfl

theorem cleanupStagingFiles (files : List LocalFileEntry) : K (cleanupStagingFiles files) := by
  induction files with
  | nil => exact hk.pure ()
  | cons file files ih =>
    unfold MigrationEngine.cleanupStagingFiles
    cases file.sqliteBackupStagingPath with
    | none => exact ih
    | some path =>
      refine hk.bind (hk.perform (.removeFile path) rfl) fun answer => ?_
      cases answer with
      | ok _ => exact ih
      | error error =>
        exact iteInduction (motive := fun p => K p) (fun _ => ih) fun _ => hk.throw _

theorem recordCallFailure (root : SyncRootConfig) (operationId : Int)
    (legacyRemotePath canonicalRemotePath operation : Str) (error : YandexDiskError) :
    K (recordCallFailure root operationId legacyRemotePath canonicalRemotePath operation error) :=
  hk.bind (hk.state rfl) fun _ => hk.bind (hk.bind (hk.state rfl) fun _ => hk.state rfl) fun _ =>
    hk.recordSummary _ fun _ => rfl

theorem recordFileProcessingFailure (root : SyncRootConfig) (runId : Int) (file : LocalFileEntry)
    (operation operationRemotePath : Str) (error : MigrationError) :
    K (recordFileProcessingFailure root runId file operation operationRemotePath error) := by
  unfold MigrationEngine.recordFileProcessingFailure
  cases perFileProcessingError error with
  | none => exact hk.throw _
  | some kindAndMessage =>
    obtain ⟨errorKind,errorMessage⟩ := kindAndMessage
    refine hk.bind (hk.state rfl) fun operationId => ?_
    cases skippableLocalProcessingError error with
    | some reason =>
      obtain ⟨reasonCode,reasonDetails⟩ := reason
      exact hk.bind (hk.state rfl) fun _ => hk.bind (hk.state rfl) fun _ => hk.bind (hk.state rfl) fun _ =>
        hk.bind (hk.state rfl) fun _ => hk.recordSummary _ fun _ => rfl
    | none =>
      exact hk.bind (hk.state rfl) fun _ => hk.bind (hk.state rfl) fun _ => hk.bind (hk.state rfl) fun _ =>
        hk.bind (hk.state rfl) fun _ => hk.recordSummary _ fun _ => rfl

theorem remoteMatchesLocal (config : AppConfig) (file : LocalFileEntry)
    (remote : ResourceMetadata) : K (remoteMatchesLocal config file remote) := by
  refine iteInduction (motive := fun p => K p) (fun _ => hk.pure _) fun _ => ?_
  refine iteInduction (motive := fun p => K p) (fun _ => ?_) fun _ => hk.pure _
  cases remote.md5 with
  | some remoteMd5 => exact hk.pure _
  | none =>
    refine hk.bind (hk.perform (.readFile file.uploadSource) rfl) fun content => ?_
    cases content with
    | error error => exact hk.throw _
    | ok localContent =>
      refine hk.bind (hk.client rfl) fun answer => ?_
      cases answer with
      | error error => exact hk.throw _
      | ok remoteContent => exact hk.pure _

theorem recordRemoteResources (config : AppConfig) (root : SyncRootConfig) (sets : RemoteSets) :
    K (recordRemoteResources config root sets) :=
  hk.bind (hk.state rfl) fun _ => hk.bind (hk.perform .now rfl) fun _ => hk.state rfl

theorem loadRemoteSets (root : SyncRootConfig) (canonicalRemotePath : Str) (plan : LiveScanPlan)
    (forceRemoteRescan : Bool) :
    K (liftM (loadRemoteSets root canonicalRemotePath plan forceRemoteRescan).run :
      Migrator (Except YandexDiskError RemoteSets)) :=
  hk.reading (loadRemoteSets_of inventory_reading root canonicalRemotePath plan forceRemoteRescan)

theorem reporting : Reporting K where
  toComposable := hk.toComposable
  report {call} h := hk.state (by cases call <;> first | rfl | cases h)
  readMemory := hk.memory
  modifySummary f _ hf := hk.recordSummary f hf
  isCancelled := hk.isCancelled

theorem giveUpRoot (root : SyncRootConfig) (scanReport : ScanReport) :
    K (giveUpRoot root scanReport) :=
  hk.bind (hk.cleanupStagingFiles _) fun _ =>
    hk.bind (hk.reporting.finishRootCancelledOrFailed root) fun _ => hk.pure _

/-- The rounds over the live files. -/
theorem adoptOrUploadEach (config : AppConfig) (root : SyncRootConfig) (runId : Int)
    (baseSummary : SyncRunSummary) (previous : Str → Option FileStateRecord)
    (availableRemoteBytes : Option Nat) {files : List LocalFileEntry}
    (hflush : K flushAdoptions)
    (hsettle : ∀ file ∈ files,
      K (MigrationEngine.settleFile config root runId baseSummary previous file))
    (hqueue : ∀ file ∈ files, ∀ isUpdate, K (queueUpload runId file isUpdate))
    (hbatch : K (applyMigrationUploadBatch config root runId baseSummary)) (bytesUploaded : Nat) :
    K (adoptOrUploadEach config root runId baseSummary previous availableRemoteBytes files
      bytesUploaded) := by
  induction files generalizing bytesUploaded with
  | nil =>
    refine hk.bind hflush fun _ => hk.bind hk.memory fun memory => ?_
    exact iteInduction (motive := fun p => K p) (fun _ => hk.pure _) fun _ =>
      hk.bind hbatch fun _ => hk.pure _
  | cons file files ih =>
    have ih := ih (fun other ho => hsettle other (List.mem_cons_of_mem _ ho)) fun other ho =>
      hqueue other (List.mem_cons_of_mem _ ho)
    refine hk.bind hk.isCancelled fun cancelled => ?_
    refine iteInduction (motive := fun p => K p)
      (fun _ => hk.bind hflush fun _ => hk.pure _) fun _ => ?_
    refine hk.bind (hsettle file List.mem_cons_self) fun settled => ?_
    refine iteInduction (motive := fun p => K p) (fun _ => ih _) fun _ => ?_
    refine hk.bind hflush fun _ => hk.bind hk.memory fun memory => ?_
    split
    · exact hk.bind (hk.reporting.failRootWith ..) fun _ => hk.pure _
    · refine hk.bind (hqueue file List.mem_cons_self _) fun _ => ?_
      refine iteInduction (motive := fun p => K p) (fun _ => ?_) fun _ => ih _
      refine hk.bind hbatch fun result => ?_
      exact iteInduction (motive := fun p => K p) (fun _ => hk.pure _) fun _ => ih _

end Recording

namespace Handling

variable {K : ⦃α : Type⦄ → Migrator α → Prop} (hk : Handling K)

include hk

theorem flushAdoptions (hstate : ∀ call, K (MigrationEngine.state call))
    (hclear : K (MigrationEngine.perform
      (.updateMemory fun memory => { memory with adoptionBatch := {} }))) : K MigrationEngine.flushAdoptions := by
  refine hk.bind hk.memory fun memory => ?_
  exact iteInduction (motive := fun p => K p) (fun _ => hk.pure _) fun _ =>
    hk.bind (hstate _) fun _ => hk.bind (hstate _) fun _ => hk.bind (hstate _) fun _ =>
    hk.bind (hstate _) fun _ => hclear

section Adoption

variable (config : AppConfig) (root : SyncRootConfig) (runId : Int) (baseSummary : SyncRunSummary)
  (hflush : K MigrationEngine.flushAdoptions)

include hflush

theorem leaveOut (file : LocalFileEntry) (operation : Str) (error : MigrationError) :
    K (leaveOut root runId baseSummary file operation error) :=
  hk.bind hflush fun _ => hk.bind (hk.recordFileProcessingFailure root runId file _ _ _) fun _ =>
    hk.persistRootProgress runId baseSummary

theorem adoptFile {file : LocalFileEntry} {remote : ResourceMetadata}
    (hadopt : ∀ f, KeepsWork f → (∀ memory, (f memory).adoptionBatch.fileStates =
        memory.adoptionBatch.fileStates ++
          [migrationFileStateRecord file runId .synced none remote.md5]) →
      K (MigrationEngine.perform (.updateMemory f)))
    (hplanned : ∀ operation, K (planned operation)) (method : Str) :
    K (adoptFile root runId baseSummary file remote method) := by
  refine hk.bind (hadopt _ (fun _ => ⟨rfl,rfl⟩) fun _ => rfl) fun _ =>
    hk.bind (hplanned _) fun _ => hk.bind (hk.modifySummary _) fun _ =>
    hk.bind hk.memory fun memory => ?_
  exact iteInduction (motive := fun p => K p)
    (fun _ => hk.bind hflush fun _ => hk.persistRootProgress runId baseSummary)
    fun _ => hk.persistRootProgress runId baseSummary

theorem tryAdopt {file : LocalFileEntry} {remote : ResourceMetadata}
    (hadopt : ∀ method, K (MigrationEngine.adoptFile root runId baseSummary file remote method))
    (previous : Str → Option FileStateRecord) :
    K (tryAdopt config root runId baseSummary previous file remote) := by
  refine iteInduction (motive := fun p => K p)
    (fun _ => hk.bind (hk.modifySummary _) fun _ => hk.pure _) fun _ => ?_
  refine hk.bind (hk.attempt (hk.remoteMatchesLocal config file remote)) fun answer => ?_
  cases answer with
  | error error =>
    refine iteInduction (motive := fun p => K p) (fun _ => ?_) fun _ => hk.throw _
    exact hk.bind (hk.leaveOut root runId baseSummary hflush file _ _) fun _ => hk.pure _
  | ok decision =>
    refine iteInduction (motive := fun p => K p) (fun _ => ?_) fun _ => hk.pure _
    exact hk.bind (hadopt _) fun _ => hk.pure _

/-- What settles a file, the adoption itself apart. -/
theorem settleFile (previous : Str → Option FileStateRecord) (file : LocalFileEntry)
    (hadopt : ∀ remote, K (MigrationEngine.tryAdopt config root runId baseSummary previous file
      remote)) :
    K (settleFile config root runId baseSummary previous file) := by
  have hmissing : K (leaveOutMissing root runId baseSummary file) := by
    refine hk.bind hk.reporting.livePlan fun plan => ?_
    refine iteInduction (motive := fun p => K p) (fun _ => hk.pure _) fun _ =>
      hk.bind (hk.register _ _ _) fun found => ?_
    cases found with
    | some subtree =>
      exact hk.bind hflush fun _ =>
        hk.bind (hk.reporting.recordDeletedSubtree runId subtree) fun _ =>
          hk.bind (hk.persistRootProgress runId baseSummary) fun _ => hk.pure _
    | none =>
      refine hk.bind (hk.perform (.isFile file.localPath) rfl) fun isFile => ?_
      exact iteInduction (motive := fun p => K p) (fun _ => hk.pure _)
        fun _ => hk.bind (hk.leaveOut root runId baseSummary hflush file _ _) fun _ => hk.pure _
  refine hk.bind hmissing fun leftOut => ?_
  refine iteInduction (motive := fun p => K p) (fun _ => hk.pure _) fun _ =>
    hk.bind hk.memory fun memory => ?_
  split
  · exact hadopt _
  · exact hk.pure _

end Adoption

section Uploads

variable (config : AppConfig) (root : SyncRootConfig) (runId : Int) (baseSummary : SyncRunSummary)

theorem recordMigrationUploaded (operationId : Int) (file : LocalFileEntry) (isUpdate : Bool)
    (hstate : ∀ status, K (MigrationEngine.state (.upsertFileState (migrationFileStateRecord file
      runId status none file.fingerprint.localMd5)))) :
    K (recordMigrationUploaded root runId baseSummary operationId file isUpdate) := by
  have hstatus : K (fileStatusAfterUpload file) := by
    refine hk.bind (hk.perform (.fileMetadata file.localPath) rfl) fun found => ?_
    cases found with
    | none => exact hk.pure _
    | some found =>
      exact iteInduction (motive := fun p => K p) (fun _ => hk.pure _) fun _ => hk.pure _
  exact hk.bind (hk.state rfl) fun _ => hk.bind hstatus fun _ => hk.bind (hstate _) fun _ =>
    hk.bind (hk.modifySets _) fun _ => hk.bind (hk.state rfl) fun _ => hk.bind (hk.state rfl) fun _ =>
    hk.bind (hk.modifySummary _) fun _ => hk.persistRootProgress runId baseSummary

theorem recordMigrationUploadFailure (outcome : UploadTaskOutcome) (failure : UploadTaskFailure) :
    K (recordMigrationUploadFailure root runId baseSummary outcome failure) := by
  refine hk.bind (hk.register _ _ _) fun found => ?_
  cases found with
  | some subtree =>
    exact hk.bind (hk.state rfl) fun _ =>
      hk.bind (hk.reporting.recordDeletedSubtree runId subtree) fun _ =>
        hk.bind (hk.persistRootProgress runId baseSummary) fun _ => hk.pure _
  | none =>
    dsimp only
    cases failure.skipReasonCode with
    | some reasonCode =>
      exact hk.bind (hk.bind (hk.state rfl) fun _ => hk.bind (hk.state rfl) fun _ =>
        hk.bind (hk.state rfl) fun _ => hk.bind (hk.state rfl) fun _ =>
        hk.bind (hk.modifySummary _) fun _ => hk.persistRootProgress runId baseSummary)
        fun _ => hk.pure _
    | none =>
      exact hk.bind (hk.state rfl) fun _ => hk.bind (hk.state rfl) fun _ => hk.bind (hk.state rfl) fun _ =>
        hk.bind (hk.modifySummary _) fun _ =>
        hk.bind (hk.persistRootProgress runId baseSummary) fun _ => hk.pure _

theorem spawnCandidates {batch : List MigrationUploadCandidate}
    (hspawn : ∀ candidate ∈ batch, K (MigrationEngine.perform (.spawn (.upload candidate.operationId
      candidate.file candidate.isUpdate migrationCancelledText)))) :
    K (spawnCandidates runId baseSummary batch) := by
  induction batch with
  | nil => exact hk.pure _
  | cons candidate batch ih =>
    have ih := ih fun other ho => hspawn other (List.mem_cons_of_mem _ ho)
    refine hk.bind hk.reporting.livePlan fun plan => ?_
    refine iteInduction (motive := fun p => K p) (fun _ => ih) fun _ =>
      hk.bind (hk.register _ _ _) fun found => ?_
    cases found with
    | some subtree =>
      exact hk.bind (hk.state rfl) fun _ =>
        hk.bind (hk.reporting.recordDeletedSubtree runId subtree) fun _ =>
          hk.bind (hk.persistRootProgress runId baseSummary) fun _ => ih
    | none => exact hk.bind (hspawn candidate List.mem_cons_self) fun _ => ih

theorem joinMigrationUploads (hjoin : K (MigrationEngine.perform .joinNext))
    (huploaded : ∀ operationId file isUpdate, K (MigrationEngine.recordMigrationUploaded root runId
      baseSummary operationId file isUpdate)) (fuel : Nat) (result : MigrationUploadResult) :
    K (joinMigrationUploads root runId baseSummary fuel result) := by
  induction fuel generalizing result with
  | zero => exact hk.pure _
  | succ fuel ih =>
    refine hk.bind hjoin fun joined => ?_
    match joined with
    | none => exact hk.pure _
    | some (.created ..) => exact hk.pure _
    | some (.uploaded outcome) =>
      dsimp only
      cases outcome.result with
      | ok _ => exact hk.bind (huploaded _ _ _) fun _ => ih _
      | error failure =>
        exact hk.bind (hk.recordMigrationUploadFailure root runId baseSummary outcome failure)
          fun _ => ih _

/-- The uploads of a batch, the record of a file that went through apart. -/
theorem applyMigrationUploadBatch (hbatch : ∀ batch, K (setUploadBatch batch))
    (hspawn : ∀ operationId file isUpdate, K (MigrationEngine.perform
      (.spawn (.upload operationId file isUpdate migrationCancelledText))))
    (hjoin : K (MigrationEngine.perform .joinNext))
    (huploaded : ∀ operationId file isUpdate, K (MigrationEngine.recordMigrationUploaded root runId
      baseSummary operationId file isUpdate)) :
    K (applyMigrationUploadBatch config root runId baseSummary) := by
  have hrounds : ∀ fuel result, K (uploadRounds config root runId baseSummary fuel result) := by
    intro fuel
    induction fuel with
    | zero => exact fun result => hk.pure _
    | succ fuel ih =>
      intro result
      refine hk.bind hk.memory fun memory => ?_
      refine iteInduction (motive := fun p => K p) (fun _ => hk.pure _) fun _ =>
        hk.bind (hbatch _) fun _ => ?_
      exact hk.bind (hk.spawnCandidates runId baseSummary fun _ _ => hspawn _ _ _) fun _ =>
        hk.bind (hk.joinMigrationUploads root runId baseSummary hjoin huploaded _ _) fun _ => ih _
  exact hk.bind hk.memory fun memory => hrounds _ _

end Uploads

section Deletes

variable (root : SyncRootConfig) (runId : Int) (baseSummary : SyncRunSummary)

theorem applyDeletes
    (hremove : ∀ path, K (MigrationEngine.client (.deletePermanently path)))
    (hplanned : ∀ operation, K (planned operation)) :
    K (applyDeletes root runId baseSummary) := by
  have hdeleted : ∀ operationId delete, K (recordMigrationDeleted root runId operationId delete) := by
    intro operationId delete
    refine hk.bind (hk.state rfl) fun _ => ?_
    cases delete.resourceType with
    | file =>
      exact hk.bind (hk.state rfl) fun _ => hk.bind (hk.state rfl) fun _ => hk.state rfl
    | directory =>
      exact hk.bind (hk.state rfl) fun _ => hk.bind (hk.state rfl) fun _ => hk.state rfl
  have hfailed : ∀ operationId delete operation error,
      K (recordDeleteFailure root runId baseSummary operationId delete operation error) :=
    fun _ _ _ _ => hk.bind (hk.recordCallFailure root _ _ _ _ _) fun _ =>
      hk.bind (hk.persistRootProgress runId baseSummary) fun _ => hk.pure _
  have hdelete : ∀ operationId delete, K (deleteCandidate root runId baseSummary operationId delete) := by
    intro operationId delete
    refine hk.bind (hremove _) fun answer => ?_
    cases answer with
    | ok _ =>
      exact hk.bind (hdeleted _ _) fun _ => hk.bind (hplanned _) fun _ =>
        hk.bind (hk.modifySummary _) fun _ =>
        hk.bind (hk.persistRootProgress runId baseSummary) fun _ => hk.pure _
    | error error =>
      exact iteInduction (motive := fun p => K p)
        (fun _ => hk.bind (hdeleted _ _) fun _ =>
          hk.bind (hk.persistRootProgress runId baseSummary) fun _ => hk.pure _)
        fun _ => hfailed _ _ _ _
  have hcandidate : ∀ fromCache delete,
      K (applyDeleteCandidate root runId baseSummary fromCache delete) := by
    intro fromCache delete
    refine hk.bind (hk.state rfl) fun operationId => ?_
    refine iteInduction (motive := fun p => K p) (fun _ => ?_) fun _ => hdelete _ _
    refine hk.bind (hk.client rfl) fun answer => ?_
    cases answer with
    | ok _ => exact hdelete _ _
    | error error =>
      exact iteInduction (motive := fun p => K p)
        (fun _ => hk.bind (hk.state rfl) fun _ => hk.bind (hk.state rfl) fun _ => hk.pure _)
        fun _ => hfailed _ _ _ _
  have heach : ∀ fromCache deletes,
      K (deleteCandidates root runId baseSummary fromCache deletes) := by
    intro fromCache deletes
    induction deletes with
    | nil => exact hk.pure _
    | cons delete deletes ih =>
      refine hk.bind hk.isCancelled fun cancelled => ?_
      refine iteInduction (motive := fun p => K p) (fun _ => hk.pure _) fun _ =>
        hk.bind (hcandidate fromCache delete) fun stop => ?_
      exact iteInduction (motive := fun p => K p) (fun _ => hk.pure _) fun _ => ih
  exact hk.bind hk.memory fun memory => hk.bind hk.reporting.livePlan fun plan => heach _ _

end Deletes

end Handling

namespace Sparing

variable {K : ⦃α : Type⦄ → Migrator α → Prop} (hk : Sparing K)

include hk

theorem client (call : ClientCall) : K (MigrationEngine.client call) :=
  hk.sparing ⟨rfl,fun _ => trivial⟩

theorem modifyReport (f : MigrationRunReport → MigrationRunReport) :
    K (MigrationEngine.modifyReport f) :=
  hk.update _ fun _ => ⟨rfl,rfl,rfl⟩

section Moves

theorem createDirectoryOperation (runId : Int) (remotePath : Str) :
    K (createDirectoryOperation runId remotePath) := by
  refine hk.bind (hk.state rfl) fun operationId => hk.bind (hk.client _) fun answer => ?_
  cases answer with
  | ok _ => exact hk.bind (hk.state rfl) fun _ => hk.modifyReport _
  | error error =>
    exact hk.bind (hk.state rfl) fun _ => hk.bind (hk.modifySummary _) fun _ => hk.throw _

theorem ensureParentDirectories (runId : Int) (remotePath : Str) :
    K (ensureParentDirectories runId remotePath) := by
  unfold MigrationEngine.ensureParentDirectories
  induction parentRemotePaths remotePath with
  | nil => exact hk.pure ()
  | cons parent parents ih =>
    refine hk.bind hk.isCancelled fun cancelled => ?_
    refine iteInduction (motive := fun p => K p) (fun _ => hk.pure _) fun _ => ?_
    refine hk.bind hk.memory fun memory => ?_
    exact iteInduction (motive := fun p => K p) (fun _ => ih) fun _ =>
      hk.bind (hk.createDirectoryOperation runId parent) fun _ =>
        hk.bind (hk.modifySets _) fun _ => ih

theorem ensureDirectory (runId : Int) (remotePath : Str) : K (ensureDirectory runId remotePath) := by
  refine hk.bind hk.memory fun memory => ?_
  refine iteInduction (motive := fun p => K p) (fun _ => hk.pure _) fun _ => ?_
  refine hk.bind (hk.ensureParentDirectories runId remotePath) fun _ =>
    hk.bind hk.isCancelled fun cancelled => ?_
  exact iteInduction (motive := fun p => K p) (fun _ => hk.pure _) fun _ =>
    hk.bind (hk.createDirectoryOperation runId remotePath) fun _ => hk.modifySets _

theorem tryTopLevelMove (root : SyncRootConfig) (runId : Int) : K (tryTopLevelMove root runId) := by
  have hmove : ∀ index source target, K (moveLegacyRoot root runId index source target) := by
    intro index source target
    refine hk.bind (hk.state rfl) fun operationId => hk.bind (hk.client _) fun answer => ?_
    cases answer with
    | ok _ =>
      refine hk.bind (hk.state rfl) fun _ => hk.bind (hk.state rfl) fun _ =>
        hk.bind (hk.modifyReport _) fun _ => hk.bind (hk.modifySummary _) fun _ =>
        hk.bind (hk.reading (migrationInventory_of inventory_reading target [])) fun answer => ?_
      cases answer with
      | ok canonical =>
        exact hk.bind (hk.modifySets _) fun _ => hk.bind (hk.modifySets _) fun _ => hk.pure _
      | error error => exact hk.throw _
    | error error => exact hk.bind (hk.recordCallFailure root _ _ _ _ _) fun _ => hk.pure _
  refine hk.bind hk.isCancelled fun cancelled => hk.bind hk.memory fun memory => ?_
  refine iteInduction (motive := fun p => K p) (fun _ => hk.pure _) fun _ => ?_
  split
  · exact hk.pure _
  · refine hk.bind (hk.ensureParentDirectories runId _) fun _ =>
      hk.bind hk.isCancelled fun cancelled => ?_
    exact iteInduction (motive := fun p => K p) (fun _ => hk.pure _) fun _ => hmove _ _ _

theorem mergeFile (config : AppConfig) (root : SyncRootConfig) (runId : Int)
    (file : LocalFileEntry) : K (mergeFile config root runId file) := by
  have hmove : ∀ index legacyPath legacyResource,
      K (moveLegacyFile root runId file index legacyPath legacyResource) := by
    intro index legacyPath legacyResource
    refine hk.bind (hk.state rfl) fun operationId => hk.bind (hk.client _) fun answer => ?_
    cases answer with
    | ok _ =>
      exact hk.bind (hk.state rfl) fun _ => hk.bind (hk.state rfl) fun _ =>
        hk.bind (hk.modifySets _) fun _ => hk.bind (hk.modifySets _) fun _ =>
        hk.bind (hk.modifyReport _) fun _ => hk.bind (hk.modifySummary _) fun _ => hk.pure _
    | error error => exact hk.bind (hk.recordCallFailure root _ _ _ _ _) fun _ => hk.pure _
  refine hk.bind hk.memory fun memory => ?_
  refine iteInduction (motive := fun p => K p) (fun _ => hk.pure _) fun _ => ?_
  cases findLegacyFile file.relativePath 0 memory.remoteSets.legacy with
  | none => exact hk.pure _
  | some found =>
    obtain ⟨index,legacyPath,legacyResource⟩ := found
    refine hk.bind (hk.attempt (hk.remoteMatchesLocal config file legacyResource)) fun answer => ?_
    cases answer with
    | error error =>
      exact iteInduction (motive := fun p => K p)
        (fun _ => hk.bind (hk.recordFileProcessingFailure root runId file _ _ _) fun _ => hk.pure _)
        fun _ => hk.throw _
    | ok decision =>
      refine iteInduction (motive := fun p => K p) (fun _ => hk.pure _) fun _ => ?_
      refine hk.bind (hk.ensureParentDirectories runId _) fun _ =>
        hk.bind hk.isCancelled fun cancelled => ?_
      exact iteInduction (motive := fun p => K p) (fun _ => hk.pure _) fun _ => hmove _ _ _

theorem applyMergeMoves (ext : Externals) (config : AppConfig) (root : SyncRootConfig) (runId : Int)
    (baseSummary : SyncRunSummary) :
    K (applyMergeMoves ext config root runId baseSummary) := by
  have hdirectories : ∀ directories, K (mergeDirectories runId baseSummary directories) := by
    intro directories
    induction directories with
    | nil => exact hk.pure _
    | cons directory directories ih =>
      refine hk.bind (hk.ensureDirectory runId _) fun _ => hk.bind (hk.state rfl) fun _ =>
        hk.bind hk.isCancelled fun cancelled => ?_
      exact iteInduction (motive := fun p => K p) (fun _ => hk.pure _) fun _ =>
        hk.bind (hk.persistRootProgress runId baseSummary) fun _ => ih
  have hfiles : ∀ files, K (mergeFiles config root runId files) := by
    intro files
    induction files with
    | nil => exact hk.pure _
    | cons file files ih =>
      refine hk.bind hk.isCancelled fun cancelled => ?_
      refine iteInduction (motive := fun p => K p) (fun _ => hk.pure _) fun _ => ?_
      refine hk.bind (hk.mergeFile config root runId file) fun stop => ?_
      exact iteInduction (motive := fun p => K p) (fun _ => hk.pure _) fun _ => ih
  refine hk.bind hk.memory fun start => hk.bind (hk.ensureDirectory runId _) fun _ =>
    hk.bind hk.isCancelled fun cancelled => ?_
  refine iteInduction (motive := fun p => K p) (fun _ => hk.pure _) fun _ => ?_
  refine hk.bind (hk.state rfl) fun _ => hk.bind hk.reporting.livePlan fun plan =>
    hk.bind (hdirectories _) fun stop => ?_
  exact iteInduction (motive := fun p => K p) (fun _ => hk.pure _) fun _ => hfiles _

end Moves

theorem applyDeletes (root : SyncRootConfig) (runId : Int) (baseSummary : SyncRunSummary) :
    K (applyDeletes root runId baseSummary) :=
  hk.toHandling.applyDeletes root runId baseSummary (fun _ => hk.client _) fun _ => hk.modifyReport _

/-- How a run ends, after an error or not. -/
theorem endRun (runId : Int) (guard : RunLockGuard) (execution : Except MigrationError Unit) :
    K (do concludeRun execution; closeRun runId guard) := by
  have hconclude : K (concludeRun execution) := by
    unfold concludeRun
    cases execution with
    | error error => exact hk.modifyReport _
    | ok _ =>
      refine hk.bind hk.isCancelled fun cancelled => ?_
      exact iteInduction (motive := fun p => K p) (fun _ => hk.modifyReport _)
        fun _ => hk.modifyReport _
  refine hk.bind hconclude fun _ => hk.bind hk.memory fun memory => ?_
  refine hk.bind (hk.perform _ rfl) fun finished => hk.bind (hk.perform _ rfl) fun released => ?_
  cases finished with
  | error error => exact hk.throw _
  | ok _ =>
    cases released with
    | error error => exact hk.throw _
    | ok _ => exact hk.pure _

end Sparing

namespace Working

variable {K : ⦃α : Type⦄ → Migrator α → Prop} (hk : Working K)

include hk

theorem perform (e : Effect MigrationMemory) (he : isCalm e = true) :
    K (MigrationEngine.perform e) :=
  hk.calm ⟨he,fun _ => trivial⟩

theorem state (call : StateCall) : K (MigrationEngine.state call) := by
  refine hk.bind (hk.perform (.state call) rfl) fun answer => ?_
  cases answer with
  | ok result => exact hk.pure result
  | error error => exact hk.throw _

section Adoption

variable (config : AppConfig) (root : SyncRootConfig) (runId : Int) (baseSummary : SyncRunSummary)

theorem flushAdoptions : K flushAdoptions :=
  hk.toHandling.flushAdoptions hk.state (hk.work _ fun _ => ⟨rfl,rfl⟩)

theorem settleFile (previous : Str → Option FileStateRecord) (file : LocalFileEntry) :
    K (settleFile config root runId baseSummary previous file) :=
  hk.toHandling.settleFile config root runId baseSummary hk.flushAdoptions previous file fun _ =>
    hk.tryAdopt config root runId baseSummary hk.flushAdoptions
      (hk.adoptFile root runId baseSummary hk.flushAdoptions (fun f hf _ => hk.work f hf)
        fun _ => hk.modifyReport _) previous

end Adoption

section Uploads

variable (root : SyncRootConfig) (runId : Int) (baseSummary : SyncRunSummary)

theorem recordMigrationUploaded (operationId : Int) (file : LocalFileEntry) (isUpdate : Bool) :
    K (recordMigrationUploaded root runId baseSummary operationId file isUpdate) :=
  hk.toHandling.recordMigrationUploaded root runId baseSummary operationId file isUpdate
    fun _ => hk.state _

end Uploads

end Working

end MigrationEngine

end YaDiskSync
