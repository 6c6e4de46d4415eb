import YaDiskSync.Provenance
import YaDiskSync.MigrationQuota

/-! The digests of a migration. Up to the smaller of two limits, its own one and the one that is
asked about, the rows of adopted files have known digests; beyond its own limit they have those of
the remote files. -/
namespace YaDiskSync

open Prog

/-- The digests a migration has in its variables. -/
structure KeepsDigests (limit adoptionLimit : Nat) (hashed : Set HashedVersion)
    (memory : MigrationMemory) : Prop where
  plan : ∀ plan, memory.livePlan = some plan → ∀ file ∈ plan.files, file.Sourced hashed limit
  uploads : ∀ candidate ∈ memory.uploadBatch, candidate.file.Sourced hashed limit
  adoptions : ∀ record ∈ memory.adoptionBatch.fileStates, record.Sourced hashed adoptionLimit

theorem keepsDigests_monotone (limit adoptionLimit : Nat) (memory : MigrationMemory) :
    Monotone fun hashed => KeepsDigests limit adoptionLimit hashed memory :=
  fun _ _ hle h => {
    plan := fun plan hplan file hfile => (h.plan plan hplan file hfile).mono hle
    uploads := fun candidate hcandidate => (h.uploads candidate hcandidate).mono hle
    adoptions := fun record hrecord => (h.adoptions record hrecord).mono hle }

namespace MigrationEngine

section Asks

/-- Parts of a run that see to what is owed. -/
def Minds (limit adoptionLimit : Nat) (hashed : Set HashedVersion) ⦃α : Type⦄ (p : Migrator α) :
    Prop :=
  TryObeys (Relied (KeepsDigests limit adoptionLimit) limit hashed)
    (Owed (KeepsDigests limit adoptionLimit) limit adoptionLimit hashed) (fun _ => True) p

variable {limit adoptionLimit : Nat} {hashed : Set HashedVersion}

theorem owed_of_isSparing (e : Effect MigrationMemory) (he : isSparing e = true) :
    Owed (KeepsDigests limit adoptionLimit) limit adoptionLimit hashed e := by
  cases e with
  | state call =>
    cases call with
    | upsertFileState record =>
      simp only [isSparing,Bool.and_eq_true,Option.isNone_iff_eq_none] at he
      exact FileStateRecord.sourced_of_none he.2
    | upsertFileStates records => cases he
    | _ => trivial
  | updateMemory _ => cases he
  | spawn _ => cases he
  | _ => trivial

theorem minds_only {α : Type} {p : Migrator α}
    (h : Only (Owed (KeepsDigests limit adoptionLimit) limit adoptionLimit hashed) p.run) :
    Minds limit adoptionLimit hashed p :=
  Obeys.mono (h.obeys fun _ he => he) fun _ _ _ _ => trivial

theorem minds_ask {e : Effect MigrationMemory}
    (he : Owed (KeepsDigests limit adoptionLimit) limit adoptionLimit hashed e) :
    Minds limit adoptionLimit hashed (perform e) :=
  TryObeys.mono (TryObeys.perform he) fun _ _ => trivial

theorem minds_state {call : StateCall}
    (hcall : Owed (KeepsDigests limit adoptionLimit) limit adoptionLimit hashed (.state call)) :
    Minds limit adoptionLimit hashed (state call) := by
  refine TryObeys.bind (minds_ask hcall) fun answer _ => ?_
  cases answer with
  | ok result => exact TryObeys.pure trivial
  | error error => exact TryObeys.throw

/-- What is read of the variables has known digests. -/
theorem minds_memory {α : Type} {f : MigrationMemory → Migrator α}
    (hf : ∀ memory, KeepsDigests limit adoptionLimit hashed memory →
      Minds limit adoptionLimit hashed (f memory)) :
    Minds limit adoptionLimit hashed (memory >>= f) := by
  have hread : TryObeys (Relied (KeepsDigests limit adoptionLimit) limit hashed)
      (Owed (KeepsDigests limit adoptionLimit) limit adoptionLimit hashed)
      (KeepsDigests limit adoptionLimit hashed) memory := TryObeys.perform trivial
  exact TryObeys.bind hread hf

theorem minds_livePlan {α : Type} {f : LiveScanPlan → Migrator α}
    (hf : ∀ plan, (∀ file ∈ plan.files, file.Sourced hashed limit) →
      Minds limit adoptionLimit hashed (f plan)) :
    Minds limit adoptionLimit hashed (livePlan >>= f) := by
  have hread : TryObeys (Relied (KeepsDigests limit adoptionLimit) limit hashed)
      (Owed (KeepsDigests limit adoptionLimit) limit adoptionLimit hashed)
      (KeepsDigests limit adoptionLimit hashed) memory := TryObeys.perform trivial
  refine TryObeys.bind (TryObeys.bind hread fun memory hmemory => TryObeys.pure (a := _) ?_) hf
  cases hplan : memory.livePlan with
  | none => exact fun file hfile => nomatch hfile
  | some plan => exact hmemory.plan plan hplan

theorem minds_update {f : MigrationMemory → MigrationMemory}
    (hf : ∀ memory, KeepsDigests limit adoptionLimit hashed memory →
      KeepsDigests limit adoptionLimit hashed (f memory)) :
    Minds limit adoptionLimit hashed (perform (.updateMemory f)) :=
  minds_ask hf

theorem minds_setLivePlan {plan : LiveScanPlan}
    (h : ∀ file ∈ plan.files, file.Sourced hashed limit) :
    Minds limit adoptionLimit hashed (setLivePlan plan) :=
  minds_update fun _ hmemory => { hmemory with
    plan := by
      rintro plan' ⟨⟩
      exact h }

theorem minds_setUploadBatch {batch : List MigrationUploadCandidate}
    (h : ∀ candidate ∈ batch, candidate.file.Sourced hashed limit) :
    Minds limit adoptionLimit hashed (setUploadBatch batch) :=
  minds_update fun _ hmemory => { hmemory with uploads := h }

/-- Files are taken off a plan, not put into it. -/
theorem minds_register (localPath : LocalPath) (relativePath remotePath : Str) :
    Minds limit adoptionLimit hashed
      (registerMissingLocalPath localPath relativePath remotePath) := by
  refine minds_livePlan fun plan hplan => ?_
  have hisDir : ∀ path, Minds limit adoptionLimit hashed (perform (.isDir path)) :=
    fun _ => minds_ask trivial
  have hexists : ∀ path, Minds limit adoptionLimit hashed (perform (.pathExists path)) :=
    fun _ => minds_ask trivial
  have hasks : Minds limit adoptionLimit hashed (plan.registerMissingLocalPath
      (fun path => perform (.isDir path)) (fun path => perform (.pathExists path)) localPath
      relativePath remotePath) :=
    registerMissingLocalPath_of sequential_obeys.toComposable hisDir hexists plan localPath
      relativePath remotePath
  refine TryObeys.bind (hasks.results (registerMissingLocalPath_files plan localPath
    relativePath remotePath)) fun result hresult => ?_
  refine TryObeys.bind (minds_setLivePlan fun file hfile => ?_) fun _ _ => TryObeys.pure trivial
  rw [hresult.2] at hfile
  exact hplan file hfile

theorem sparing_minds : Sparing (Minds limit adoptionLimit hashed) where
  toSequential := sequential_obeys
  register := minds_register
  attempt h := TryObeys.mono (TryObeys.catch h) fun _ _ => trivial
  sparing h := minds_only ((h.mono fun e he => owed_of_isSparing e he).lift)
  update f hf := minds_update fun memory hmemory => by
    obtain ⟨hplan,huploads,hadoptions⟩ := hf memory
    exact {
      plan := fun plan h => hmemory.plan plan (hplan ▸ h)
      uploads := huploads ▸ hmemory.uploads
      adoptions := hadoptions ▸ hmemory.adoptions }

end Asks

section Adoption

variable {limit : Nat} {hashed : Set HashedVersion} {config : AppConfig} {root : SyncRootConfig}
  {runId : Int} {baseSummary : SyncRunSummary} {file : LocalFileEntry} {remote : ResourceMetadata}

/-- Up to a run's own limit, a remote file is only taken for a local one by a digest that is equal
to its own, or if it has none. -/
theorem remoteMatchesLocal_digest (config : AppConfig) (file : LocalFileEntry)
    (remote : ResourceMetadata) :
    TryResults (fun decision => decision.isMatch = true →
        file.sizeBytes ≤ config.sync.fullHashMaxBytes → ∀ md5, remote.md5 = some md5 →
          ∃ own, file.fingerprint.localMd5 = some own ∧ eqIgnoreAsciiCase own md5 = true)
      (remoteMatchesLocal config file remote) := by
  refine iteInduction (motive := fun p => TryResults _ p)
    (fun _ => TryResults.pure fun h => nomatch h) fun _ => ?_
  refine iteInduction (motive := fun p => TryResults _ p) (fun _ => ?_)
    fun hlarge => TryResults.pure fun _ hle => absurd hle hlarge
  cases hmd5 : remote.md5 with
  | some md5 =>
    refine TryResults.pure fun hmatch _ md5' hsome => ?_
    rw [← Option.some.inj hsome]
    exact (Option.any_eq_true ..).mp hmatch
  | none => exact (tryResults_true _).mono fun _ _ _ _ md5 hsome => nomatch hsome

theorem adoptedRecord_sourced (h : file.Sourced hashed limit)
    (hdigest : file.sizeBytes ≤ config.sync.fullHashMaxBytes → ∀ md5, remote.md5 = some md5 →
      ∃ own, file.fingerprint.localMd5 = some own ∧ eqIgnoreAsciiCase own md5 = true) :
    (migrationFileStateRecord file runId .synced none remote.md5).Sourced hashed
      (min limit config.sync.fullHashMaxBytes) :=
  (h.weaken (min_le_left _ _)).row rfl rfl rfl rfl fun md5 hmd5 hle =>
    hdigest (le_trans hle (min_le_right _ _)) md5 hmd5

abbrev adopting (limit : Nat) (config : AppConfig) : Nat := min limit config.sync.fullHashMaxBytes

theorem flushAdoptions_minds : Minds limit (adopting limit config) hashed flushAdoptions := by
  have hk : Sparing (Minds limit (adopting limit config) hashed) := sparing_minds
  refine minds_memory fun memory hmemory => ?_
  refine iteInduction (motive := fun p => Minds _ _ _ p) (fun _ => hk.pure _) fun _ => ?_
  refine hk.bind (minds_state hmemory.adoptions) fun _ => ?_
  refine hk.bind (minds_state trivial) fun _ => hk.bind (minds_state trivial) fun _ =>
    hk.bind (minds_state trivial) fun _ => minds_update fun memory hmemory => ?_
  exact { hmemory with adoptions := fun record h => nomatch h }

theorem adoptFile_minds (h : (migrationFileStateRecord file runId .synced none remote.md5).Sourced
    hashed (adopting limit config)) (method : Str) :
    Minds limit (adopting limit config) hashed
      (adoptFile root runId baseSummary file remote method) := by
  have hk : Sparing (Minds limit (adopting limit config) hashed) := sparing_minds
  refine hk.adoptFile root runId baseSummary flushAdoptions_minds (fun f hf hstates => ?_)
    (fun _ => hk.modifyReport _) method
  refine minds_update fun memory hmemory => {
    plan := fun plan hplan => hmemory.plan plan ((hf memory).1 ▸ hplan)
    uploads := (hf memory).2 ▸ hmemory.uploads
    adoptions := fun record hrecord => ?_ }
  rw [hstates memory,List.mem_append,List.mem_singleton] at hrecord
  rcases hrecord with hold | rfl
  · exact hmemory.adoptions record hold
  · exact h

theorem tryAdopt_minds (h : file.Sourced hashed limit) (previous : Str → Option FileStateRecord) :
    Minds limit (adopting limit config) hashed
      (tryAdopt config root runId baseSummary previous file remote) := by
  have hk : Sparing (Minds limit (adopting limit config) hashed) := sparing_minds
  refine iteInduction (motive := fun p => Minds _ _ _ p)
    (fun _ => hk.bind (hk.modifySummary _) fun _ => hk.pure _) fun _ => ?_
  have hmatches : Minds limit (adopting limit config) hashed
      (remoteMatchesLocal config file remote) := hk.remoteMatchesLocal config file remote
  refine TryObeys.bind (TryObeys.catch (hmatches.results
    (remoteMatchesLocal_digest config file remote))) fun answer hanswer => ?_
  cases answer with
  | error error =>
    refine iteInduction (motive := fun p => Minds _ _ _ p) (fun _ => ?_) fun _ => hk.throw _
    exact hk.bind (hk.leaveOut root runId baseSummary flushAdoptions_minds file _ _) fun _ =>
      hk.pure _
  | ok decision =>
    refine iteInduction (motive := fun p => Minds _ _ _ p) (fun hmatch => ?_) fun _ => hk.pure _
    exact hk.bind (adoptFile_minds (adoptedRecord_sourced h
      ((hanswer decision rfl).2 hmatch)) _) fun _ => hk.pure _

theorem settleFile_minds (h : file.Sourced hashed limit)
    (previous : Str → Option FileStateRecord) :
    Minds limit (adopting limit config) hashed
      (settleFile config root runId baseSummary previous file) :=
  sparing_minds.settleFile config root runId baseSummary flushAdoptions_minds previous file
    fun _ => tryAdopt_minds h previous

end Adoption

section Uploads

variable {limit : Nat} {hashed : Set HashedVersion} {config : AppConfig} {root : SyncRootConfig}
  {runId : Int} {baseSummary : SyncRunSummary}

/-- The row of an uploaded file has the digest of the file. -/
theorem recordMigrationUploaded_minds {file : LocalFileEntry} (h : file.Sourced hashed limit)
    (operationId : Int) (isUpdate : Bool) :
    Minds limit (adopting limit config) hashed
      (recordMigrationUploaded root runId baseSummary operationId file isUpdate) :=
  sparing_minds.recordMigrationUploaded root runId baseSummary operationId file isUpdate
    fun _ => minds_state (h.row rfl rfl rfl rfl fun md5 hmd5 _ =>
      ⟨md5,hmd5,by simp [eqIgnoreAsciiCase]⟩)

theorem joinMigrationUploads_minds (fuel : Nat) (result : MigrationUploadResult) :
    Minds limit (adopting limit config) hashed
      (joinMigrationUploads root runId baseSummary fuel result) := by
  have hk : Sparing (Minds limit (adopting limit config) hashed) := sparing_minds
  induction fuel generalizing result with
  | zero => exact hk.pure _
  | succ fuel ih =>
    have hjoin : TryObeys (Relied (KeepsDigests limit (adopting limit config)) limit hashed)
        (Owed (KeepsDigests limit (adopting limit config)) limit (adopting limit config) hashed)
        (Relied (KeepsDigests limit (adopting limit config)) limit hashed .joinNext)
        (perform .joinNext) := TryObeys.perform trivial
    refine TryObeys.bind hjoin fun joined hjoined => ?_
    match joined, hjoined with
    | none, _ => exact hk.pure _
    | some (.created ..), _ => exact hk.pure _
    | some (.uploaded outcome), hfile =>
      dsimp only
      cases outcome.result with
      | ok _ => exact hk.bind (recordMigrationUploaded_minds hfile _ _) fun _ => ih _
      | error failure =>
        exact hk.bind (hk.recordMigrationUploadFailure root runId baseSummary outcome failure)
          fun _ => ih _

theorem applyMigrationUploadBatch_minds :
    Minds limit (adopting limit config) hashed
      (applyMigrationUploadBatch config root runId baseSummary) := by
  have hk : Sparing (Minds limit (adopting limit config) hashed) := sparing_minds
  have hrounds : ∀ fuel result, Minds limit (adopting limit config) hashed
      (uploadRounds config root runId baseSummary fuel result) := by
    intro fuel
    induction fuel with
    | zero => exact fun result => hk.pure _
    | succ fuel ih =>
      intro result
      refine minds_memory fun memory hmemory => ?_
      refine iteInduction (motive := fun p => Minds _ _ _ p) (fun _ => hk.pure _) fun _ => ?_
      have hperm := takeMigrationUploadBatch_perm (max config.sync.uploadConcurrency 1)
        config.sync.largeFileNameSizeOnlyMinBytes memory.uploadBatch 0 false
      generalize takeMigrationUploadBatch (max config.sync.uploadConcurrency 1)
        config.sync.largeFileNameSizeOnlyMinBytes memory.uploadBatch 0 false = next at hperm ⊢
      have hnext : ∀ candidate ∈ next.1 ++ next.2, candidate.file.Sourced hashed limit :=
        fun candidate h => hmemory.uploads candidate (hperm.mem_iff.mp h)
      refine hk.bind (minds_setUploadBatch fun candidate h =>
        hnext candidate (List.mem_append_right _ h)) fun _ => ?_
      refine hk.bind (hk.spawnCandidates runId baseSummary fun candidate h =>
        minds_ask (hnext candidate (List.mem_append_left _ h))) fun _ => ?_
      exact hk.bind (joinMigrationUploads_minds _ _) fun _ => ih _
  exact hk.bind hk.memory fun memory => hrounds _ _

theorem queueUpload_minds {file : LocalFileEntry} (h : file.Sourced hashed limit)
    (isUpdate : Bool) :
    Minds limit (adopting limit config) hashed (queueUpload runId file isUpdate) := by
  have hk : Sparing (Minds limit (adopting limit config) hashed) := sparing_minds
  refine hk.bind (hk.state rfl) fun operationId => hk.bind (hk.modifyReport _) fun _ => ?_
  refine minds_update fun memory hmemory => { hmemory with uploads := fun candidate hc => ?_ }
  rw [List.mem_append,List.mem_singleton] at hc
  rcases hc with hold | rfl
  · exact hmemory.uploads candidate hold
  · exact h

theorem applyAdoptOrUpload_minds (availableRemoteBytes : Option Nat) :
    Minds limit (adopting limit config) hashed
      (applyAdoptOrUpload config root runId baseSummary availableRemoteBytes) := by
  have hk : Sparing (Minds limit (adopting limit config) hashed) := sparing_minds
  refine hk.bind (hk.state rfl) fun states => minds_livePlan fun plan hplan => ?_
  exact hk.adoptOrUploadEach config root runId baseSummary _ availableRemoteBytes
    flushAdoptions_minds (fun file hfile => settleFile_minds (hplan file hfile) _)
    (fun file hfile isUpdate => queueUpload_minds (hplan file hfile) isUpdate)
    applyMigrationUploadBatch_minds 0

end Uploads

section Run

variable {limit : Nat} {hashed : Set HashedVersion} (ext : Externals) (config : AppConfig)
  {root : SyncRootConfig} {runId : Int} {baseSummary : SyncRunSummary}

theorem migrateRoot_minds (scanReport : ScanReport) (sets : RemoteSets)
    (availableRemoteBytes : Option Nat) :
    Minds limit (adopting limit config) hashed (migrateRoot ext config root runId baseSummary
      scanReport sets availableRemoteBytes) := by
  have hk : Sparing (Minds limit (adopting limit config) hashed) := sparing_minds
  refine hk.bind (hk.modifySets _) fun _ =>
    hk.bind (hk.recordRemoteResources config root sets) fun _ => ?_
  refine hk.bind (hk.tryTopLevelMove root runId) fun stop =>
    hk.bind hk.isCancelled fun cancelled => ?_
  refine iteInduction (motive := fun p => Minds _ _ _ p)
    (fun _ => hk.giveUpRoot root scanReport) fun _ => ?_
  refine hk.bind (hk.applyMergeMoves ext config root runId baseSummary) fun stop =>
    hk.bind hk.isCancelled fun cancelled => ?_
  refine iteInduction (motive := fun p => Minds _ _ _ p)
    (fun _ => hk.giveUpRoot root scanReport) fun _ => ?_
  refine hk.bind (applyAdoptOrUpload_minds availableRemoteBytes) fun uploaded =>
    hk.bind (hk.cleanupStagingFiles _) fun _ => hk.bind hk.isCancelled fun cancelled => ?_
  refine iteInduction (motive := fun p => Minds _ _ _ p)
    (fun _ => hk.bind (hk.reporting.finishRootCancelledOrFailed root) fun _ => hk.pure _)
    fun _ => ?_
  exact hk.bind (hk.applyDeletes root runId baseSummary) fun stop =>
    hk.bind (hk.reporting.finishRootCancelledOrFailed root) fun _ =>
      hk.bind (hk.persistRootProgress runId baseSummary) fun _ => hk.pure _

/-- The plan of a root has files of its scan. -/
theorem planScan_minds {α : Type} {scanReport : ScanReport}
    (h : ∀ file ∈ scanReport.files, file.Sourced hashed limit) {f : LiveScanPlan → Migrator α}
    (hf : ∀ plan, Minds limit (adopting limit config) hashed (f plan)) :
    Minds limit (adopting limit config) hashed
      (planScan root runId baseSummary scanReport >>= f) := by
  have hk : Sparing (Minds limit (adopting limit config) hashed) := sparing_minds
  have hisDir : ∀ path, Minds limit (adopting limit config) hashed (perform (.isDir path)) :=
    fun _ => minds_ask trivial
  have hset : ∀ plan, Minds limit (adopting limit config) hashed (setScanPlan plan) :=
    fun _ => hk.update _ fun _ => ⟨rfl,rfl,rfl⟩
  have hplan : Minds limit (adopting limit config) hashed
      (LiveScanPlan.fromScanReport (fun path => perform (.isDir path)) setScanPlan
        (pathComponents root.localPath) scanReport) :=
    fromScanReport_of hk.toComposable hisDir hset _ _
  refine hk.bind (hk.bind (hk.reporting.recordScanFindings scanReport) fun _ => ?_) hf
  refine TryObeys.bind (hplan.results (fromScanReport_files _ scanReport)) fun plan hfiles => ?_
  refine hk.bind (minds_setLivePlan fun file hfile => h file (hfiles.2 file hfile)) fun _ => ?_
  refine hk.bind (hk.modifySummary _) fun _ =>
    hk.bind (hk.reporting.recordDeletedSubtrees runId _) fun _ => ?_
  exact hk.bind (hk.persistRootProgress runId baseSummary) fun _ => hk.pure _

theorem executeScanned_minds {scanReport : ScanReport}
    (h : ∀ file ∈ scanReport.files, file.Sourced hashed limit) (canonicalRemotePath : Str)
    (availableRemoteBytes : Option Nat) (forceRemoteRescan : Bool) :
    Minds limit (adopting limit config) hashed (executeScanned ext config root runId baseSummary
      canonicalRemotePath scanReport availableRemoteBytes forceRemoteRescan) := by
  have hk : Sparing (Minds limit (adopting limit config) hashed) := sparing_minds
  refine planScan_minds config h fun plan => ?_
  cases localRemoteCollision plan.directories plan.files with
  | some message =>
    exact hk.bind (hk.reporting.failRootWith ..) fun _ =>
      hk.bind (hk.cleanupStagingFiles _) fun _ => hk.pure _
  | none =>
    refine hk.bind (hk.loadRemoteSets root canonicalRemotePath plan forceRemoteRescan)
      fun answer => ?_
    cases answer with
    | error error =>
      refine hk.bind (hk.state rfl) fun _ => ?_
      exact iteInduction (motive := fun p => Minds _ _ _ p)
        (fun _ => hk.bind (hk.reporting.failRootWith ..) fun _ =>
          hk.bind (hk.cleanupStagingFiles _) fun _ => hk.pure _)
        fun _ => hk.bind (hk.reporting.failRootWith ..) fun _ =>
          hk.bind (hk.cleanupStagingFiles _) fun _ => hk.pure _
    | ok sets => exact migrateRoot_minds ext config scanReport sets availableRemoteBytes

theorem executeRoot_minds (options : ScanOptions) (canonicalRemotePath : Str)
    (availableRemoteBytes : Option Nat) (forceRemoteRescan : Bool) :
    Minds limit (adopting limit config) hashed (executeRoot ext config root runId baseSummary
      options canonicalRemotePath availableRemoteBytes forceRemoteRescan) := by
  have hk : Sparing (Minds limit (adopting limit config) hashed) := sparing_minds
  have hscan : TryObeys (Relied (KeepsDigests limit (adopting limit config)) limit hashed)
      (Owed (KeepsDigests limit (adopting limit config)) limit (adopting limit config) hashed)
      (fun answer => ∀ report, answer = .ok report →
        ∀ file ∈ report.files, file.Sourced hashed limit)
      (scanRootWithRepository options (SyncEngine.scanRootOf root canonicalRemotePath)) := by
    refine TryObeys.bind (TryObeys.perform trivial) fun answer hrows => ?_
    cases answer with
    | ok previousStates =>
      refine TryObeys.mono (TryObeys.perform trivial) fun answer hanswer report hreport => ?_
      subst hreport
      exact hanswer hashed le_rfl hrows
    | error error => exact TryObeys.pure fun report hreport => nomatch hreport
  refine TryObeys.bind hscan fun answer hfiles => ?_
  cases answer with
  | error error => exact hk.bind (hk.reporting.failRootWith ..) fun _ => hk.pure _
  | ok scanReport => exact executeScanned_minds ext config (hfiles scanReport rfl) _ _ _

end Run

section Whole

variable {limit adoptionLimit : Nat} {hashed : Set HashedVersion}

theorem attempt_minds {α : Type} {p : Migrator α} (h : Minds limit adoptionLimit hashed p) :
    Minds limit adoptionLimit hashed (attempt p) :=
  sparing_minds.attempt h

theorem repair_minds : Minds limit adoptionLimit hashed (state .repairInterruptedRuns) :=
  minds_state trivial

theorem owed_of_isRoutine (e : Effect MigrationMemory) (he : isRoutine e = true) :
    Owed (KeepsDigests limit adoptionLimit) limit adoptionLimit hashed e := by
  cases e with
  | state call => cases call <;> trivial
  | updateMemory _ => cases he
  | spawn _ => cases he
  | _ => trivial

theorem rounds_minds : Rounds (Minds limit adoptionLimit hashed) where
  toSequential := sequential_obeys
  routine _ he := minds_ask (owed_of_isRoutine _ he)
  call he := minds_state (owed_of_isRoutine _ he)
  modifySummary := sparing_minds.modifySummary
  modifyReport := sparing_minds.modifyReport
  restart f hf := minds_update fun memory _ => by
    obtain ⟨report,rootSummary,hmemory⟩ := hf memory
    rw [hmemory]
    exact {
      plan := fun plan hplan => nomatch hplan
      uploads := fun candidate hcandidate => nomatch hcandidate
      adoptions := fun record hrecord => nomatch hrecord }
  acquire owner staleAfter := by
    have htake : Only (Owed (KeepsDigests limit adoptionLimit) limit adoptionLimit hashed)
        (RunLock.tryAcquireRunLock owner staleAfter :
          Locking MigrationMemory (Option RunLockGuard)).run :=
      RunLock.tryAcquireRunLock_of sequential_only ⟨trivial,fun _ => trivial⟩
        (fun _ => ⟨trivial,fun _ => trivial⟩) fun _ _ => ⟨trivial,fun _ => trivial⟩
    exact minds_only htake.lift

-- only the parts of a run are looked into, never the run as a whole
attribute [local irreducible] Minds

theorem runOnce_minds (ext : Externals) (config : AppConfig) (options : MigrationRunOptions) :
    Minds limit (adopting limit config) hashed (runOnce ext config options) := by
  have hr : Rounds (Minds limit (adopting limit config) hashed) := rounds_minds
  exact hr.runOnce ext config attempt_minds repair_minds
    (fun _ _ _ options canonical available force =>
      executeRoot_minds ext config options canonical available force) options

end Whole

end MigrationEngine

end YaDiskSync
