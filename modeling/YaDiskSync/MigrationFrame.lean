import YaDiskSync.MigrationRun
import YaDiskSync.RunFrame

/-! What whole runs of the migration engine keep; the phases of a root are left to the property at
hand. -/
namespace YaDiskSync

open Prog

namespace MigrationEngine

/-- Changes of a root's summary that take nothing back and upload nothing. -/
def Grows (f : MigrationRootSummary → MigrationRootSummary) : Prop :=
  ∀ summary : MigrationRootSummary, summary.counts.Grows (f summary).counts

/-- Changes of a root's summary that leave it at its place. -/
def KeepsPath (f : MigrationRootSummary → MigrationRootSummary) : Prop :=
  ∀ summary, (f summary).canonicalRemotePath = summary.canonicalRemotePath

/-- Properties the steps that only report have. -/
structure Reporting (K : ⦃α : Type⦄ → Migrator α → Prop) : Prop extends Composable K where
  report : ∀ {call : StateCall}, call.isReport = true → K (state call)
  readMemory : K (perform .readMemory)
  modifySummary : ∀ f, Grows f → KeepsPath f → K (modifySummary f)
  isCancelled : K isCancelled

namespace Reporting

variable {K : ⦃α : Type⦄ → Migrator α → Prop} (hk : Reporting K)

include hk

theorem livePlan : K livePlan := hk.bind hk.readMemory fun _ => hk.pure _

theorem failRootWith (root : SyncRootConfig)
    (rootStatus operation errorKind errorMessage : Str) :
    K (failRootWith root rootStatus operation errorKind errorMessage) :=
  hk.bind hk.readMemory fun _ => hk.bind (hk.report rfl) fun _ => hk.bind (hk.report rfl) fun _ =>
    hk.modifySummary _ (fun _ => by simp [Counts.Grows,Counts.bytes,MigrationRootSummary.counts,
      MigrationRootSummary.toSync,RootSyncSummary.counts]) fun _ => rfl

theorem recordDeletedSubtree (runId : Int) (subtree : DeletedLocalSubtree) :
    K (recordDeletedSubtree runId subtree) :=
  hk.bind (hk.report rfl) fun _ => hk.bind (hk.report rfl) fun _ => hk.bind (hk.report rfl) fun _ =>
    hk.modifySummary _ (fun _ => by simp [Counts.Grows,Counts.bytes,MigrationRootSummary.counts,
      MigrationRootSummary.toSync,RootSyncSummary.counts]) fun _ => rfl

theorem recordDeletedSubtrees (runId : Int) (subtrees : List DeletedLocalSubtree) :
    K (recordDeletedSubtrees runId subtrees) := by
  induction subtrees with
  | nil => exact hk.pure ()
  | cons subtree subtrees ih => exact hk.bind (hk.recordDeletedSubtree runId subtree) fun _ => ih

theorem recordScanFindings (report : ScanReport) : K (recordScanFindings report) := by
  refine hk.bind ?_ fun _ => ?_
  · induction report.skipped with
    | nil => exact hk.pure ()
    | cons item items ih => exact hk.bind (hk.report rfl) fun _ => ih
  · induction report.failed with
    | nil => exact hk.pure ()
    | cons item items ih => exact hk.bind (hk.report rfl) fun _ => ih

theorem finishRootCancelledOrFailed (root : SyncRootConfig) :
    K (finishRootCancelledOrFailed root) := by
  refine hk.bind hk.isCancelled fun cancelled => ?_
  refine iteInduction (motive := fun p => K p) (fun _ => ?_) fun _ => ?_
  · exact hk.bind (hk.modifySummary _ (fun _ => .refl _) fun _ => rfl) fun _ =>
      hk.bind hk.readMemory fun _ => hk.report rfl
  · refine hk.bind hk.readMemory fun memory => ?_
    refine iteInduction (motive := fun p => K p) (fun _ => hk.report rfl) fun _ => ?_
    exact iteInduction (motive := fun p => K p)
      (fun _ => hk.bind (hk.modifySummary _ (fun _ => .refl _) fun _ => rfl) fun _ => hk.report rfl)
      fun _ => hk.bind (hk.modifySummary _ (fun _ => .refl _) fun _ => rfl) fun _ => hk.report rfl

theorem register_of (hisDir : ∀ path, K (perform (.isDir path)))
    (hexists : ∀ path, K (perform (.pathExists path))) (hset : ∀ plan, K (setLivePlan plan))
    (localPath : LocalPath) (relativePath remotePath : Str) :
    K (registerMissingLocalPath localPath relativePath remotePath) := by
  refine hk.bind hk.livePlan fun plan => ?_
  refine hk.bind (registerMissingLocalPath_of hk.toComposable hisDir hexists plan localPath
    relativePath remotePath) fun result => ?_
  exact hk.bind (hset _) fun _ => hk.pure _

end Reporting

/-- Changes of the variables that leave the open uploads alone. -/
def KeepsBatch (f : MigrationMemory → MigrationMemory) : Prop :=
  ∀ memory, (f memory).uploadBatch = memory.uploadBatch

/-- The steps of a run outside of its inventories, moves, uploads and deletes. -/
def isRoutine : Effect MigrationMemory → Bool
  | .client call => call == .diskInfo
  | .state call => call.isReport || match call with
    | .updateRunProgress .. | .beginRun _ | .finishRun .. | .upsertSyncRoot ..
    | .listFileStatesForRoot _ | .upsertMigrationMap _ | .upsertMigrationMaps _
    | .upsertDirectoryState _ | .insertRunLock .. | .replaceStaleRunLock .. | .releaseRunLock _ =>
      true
    | _ => false
  | .spawn _ | .joinNext | .dropTasks | .updateMemory _ => false
  | _ => true

/-- Properties the routine steps of a run have. -/
structure Routine (K : ⦃α : Type⦄ → Migrator α → Prop) : Prop extends Composable K where
  routine : ∀ e, isRoutine e = true → K (perform e)
  call : ∀ {call : StateCall}, isRoutine (.state call) = true → K (state call)
  update : ∀ f, KeepsBatch f → K (perform (.updateMemory f))

/-- The variables of a run or of a root before anything is done for it. -/
def Restarts (f : MigrationMemory → MigrationMemory) : Prop :=
  ∀ memory, ∃ report rootSummary, f memory = { report, rootSummary }

/-- Properties a run has outside of its roots. -/
structure Rounds (K : ⦃α : Type⦄ → Migrator α → Prop) : Prop extends Sequential K where
  routine : ∀ e, isRoutine e = true → K (perform e)
  call : ∀ {call : StateCall}, isRoutine (.state call) = true → K (state call)
  modifySummary : ∀ f, K (modifySummary f)
  modifyReport : ∀ f, K (modifyReport f)
  restart : ∀ f, Restarts f → K (perform (.updateMemory f))
  acquire : ∀ owner staleAfter, K (acquireRunLock owner staleAfter)

/-- Properties a run has outside of the phases of a root. -/
structure Running (K : ⦃α : Type⦄ → Migrator α → Prop) : Prop extends Routine K, Sequential K where
  acquire : ∀ owner staleAfter, K (acquireRunLock owner staleAfter)
  /-- the variables of a run and of a root before anything is done -/
  restart : ∀ f, (∀ memory, (f memory).uploadBatch = []) → K (perform (.updateMemory f))

section Upholds

variable {σ : Type} {step : σ → (e : Effect MigrationMemory) → e.Answer → σ → Prop}
  {env : σ → σ → Prop} {I D : σ → Prop}

/-- From `P` to `Q`, or to `D` by an error. -/
abbrev Leads (step : σ → (e : Effect MigrationMemory) → e.Answer → σ → Prop) (env : σ → σ → Prop)
    (D P : σ → Prop) {α : Type} (p : Migrator α) (Q : α → σ → Prop) : Prop :=
  TryTriple step env P p Q D fun _ => True

theorem state_leads {P : σ → Prop} {call : StateCall} {Q : call.Result → σ → Prop}
    (hstable : Stable env P)
    (hok : ∀ s result s', P s → step s (.state call) (.ok result) s' → Q result s')
    (herror : ∀ s error s', P s → step s (.state call) (.error error) s' → D s') :
    Leads step env D P (state call) Q := by
  refine TryTriple.bind (Q := After Q fun _ => D)
    (TryTriple.perform hstable (fun _ _ => trivial) fun s answer s' h hstep => ?_) fun answer => ?_
  · cases answer with
    | ok result => exact hok s result s' h hstep
    | error error => exact herror s error s' h hstep
  · cases answer with
    | ok result => exact TryTriple.pure fun _ h => h
    | error error => exact TryTriple.throw fun _ h => h

theorem routine_upholds (hstable : Stable env I)
    (hroutine : ∀ e, isRoutine e = true → ∀ s answer s', I s → step s e answer s' → I s')
    (hupdate : ∀ f, KeepsBatch f → ∀ s answer s', I s → step s (.updateMemory f) answer s' → I s')
    (herror : ∀ call : StateCall, isRoutine (.state call) = true → ∀ s error s', I s →
      step s (.state call) (.error error) s' → D s') :
    Routine fun ⦃α⦄ (p : Migrator α) => Upholds step env I D p where
  pure _ := TryTriple.pure fun _ h => h
  bind hp hf := TryTriple.bind hp hf
  routine e he := Upholds.perform hstable (hroutine e he)
  call he := state_leads hstable (fun s _ s' h hstep => hroutine _ he s _ s' h hstep)
    (herror _ he)
  update f hf := Upholds.perform hstable (hupdate f hf)

theorem running_upholds (hstable : Stable env I)
    (hroutine : ∀ e, isRoutine e = true → ∀ s answer s', I s → step s e answer s' → I s')
    (hupdate : ∀ f, KeepsBatch f → ∀ s answer s', I s → step s (.updateMemory f) answer s' → I s')
    (hrestart : ∀ f, (∀ memory, (f memory).uploadBatch = []) → ∀ s answer s', I s →
      step s (.updateMemory f) answer s' → I s')
    (herror : ∀ s, I s → D s) : Running fun ⦃α⦄ (p : Migrator α) => Upholds step env I D p where
  toRoutine := routine_upholds hstable hroutine hupdate fun _ he s error s' h hstep =>
    herror s' (hroutine _ he s _ s' h hstep)
  throw _ := TryTriple.throw herror
  acquire owner staleAfter := by
    have hseq : Sequential fun ⦃α⦄ (p : Locking MigrationMemory α) => Upholds step env I I p :=
      sequential_upholds fun _ h => h
    have hacquire : Upholds step env I I (RunLock.tryAcquireRunLock owner staleAfter :
        Locking MigrationMemory (Option RunLockGuard)) :=
      RunLock.tryAcquireRunLock_of hseq (Upholds.perform hstable (hroutine .now rfl))
        (fun _ => Upholds.perform hstable (hroutine _ rfl))
        fun _ _ => Upholds.perform hstable (hroutine _ rfl)
    exact hacquire.catch fun _ h => h
  restart f hf := Upholds.perform hstable (hrestart f hf)

end Upholds

namespace Routine

variable {K : ⦃α : Type⦄ → Migrator α → Prop} (hk : Routine K)

include hk

theorem memory : K memory := hk.routine .readMemory rfl

theorem isCancelled : K isCancelled := hk.routine .isCancelled rfl

theorem reporting : Reporting K where
  toComposable := hk.toComposable
  report h := hk.call (by simp [isRoutine,h])
  readMemory := hk.memory
  modifySummary _ _ _ := hk.update _ fun _ => rfl
  isCancelled := hk.isCancelled

theorem livePlan : K livePlan := hk.reporting.livePlan

theorem modifySummary (f : MigrationRootSummary → MigrationRootSummary) : K (modifySummary f) :=
  hk.update _ fun _ => rfl

theorem modifyReport (f : MigrationRunReport → MigrationRunReport) : K (modifyReport f) :=
  hk.update _ fun _ => rfl

theorem modifySets (f : RemoteSets → RemoteSets) : K (modifySets f) := hk.update _ fun _ => rfl

theorem setScanPlan (plan : LiveScanPlan) : K (setScanPlan plan) := hk.update _ fun _ => rfl

theorem setLivePlan (plan : LiveScanPlan) : K (setLivePlan plan) := hk.update _ fun _ => rfl

theorem persistRootProgress (runId : Int) (baseSummary : SyncRunSummary) :
    K (persistRootProgress runId baseSummary) :=
  hk.bind hk.memory fun _ => hk.call rfl

theorem register (localPath : LocalPath) (relativePath remotePath : Str) :
    K (registerMissingLocalPath localPath relativePath remotePath) :=
  hk.reporting.register_of (fun path => hk.routine (.isDir path) rfl)
    (fun path => hk.routine (.pathExists path) rfl) hk.setLivePlan localPath relativePath remotePath

theorem planScan (root : SyncRootConfig) (runId : Int) (baseSummary : SyncRunSummary)
    (scanReport : ScanReport) : K (planScan root runId baseSummary scanReport) := by
  refine hk.bind (hk.reporting.recordScanFindings _) fun _ => ?_
  refine hk.bind (fromScanReport_of hk.toComposable (fun path => hk.routine (.isDir path) rfl)
    hk.setScanPlan _ _) fun plan => ?_
  refine hk.bind (hk.setLivePlan _) fun _ => hk.bind (hk.modifySummary _) fun _ => ?_
  refine hk.bind (hk.reporting.recordDeletedSubtrees runId _) fun _ => ?_
  exact hk.bind (hk.persistRootProgress runId baseSummary) fun _ => hk.pure _

end Routine

section Inventories

/-- What the inventories of a root ask. -/
structure InventoryCalls (K : ⦃α : Type⦄ → Listing α → Prop) : Prop extends Sequential K where
  now : K (ask .now)
  status : ∀ rootId, K (ask (.state (.getRootRemoteInventoryStatus rootId)))
  cached : ∀ rootId, K (ask (.state (.listRemoteResourcesForRoot rootId)))
  metadata : ∀ path, K (ask (.client (.metadata path)))
  list : ∀ path prefixes, K (ask (.client (.listRecursive path prefixes)))

variable {K : ⦃α : Type⦄ → Listing α → Prop} (hk : InventoryCalls K)

include hk

theorem migrationInventory_of (remotePath : Str) (pruneRemotePrefixes : List Str) :
    K (migrationInventory remotePath pruneRemotePrefixes) := by
  refine hk.bind (hk.metadata remotePath) fun answer => ?_
  cases answer with
  | error error =>
    exact iteInduction (motive := fun p => K p) (fun _ => hk.pure _) fun _ => hk.throw _
  | ok rootMetadata =>
    refine hk.bind (hk.list remotePath pruneRemotePrefixes) fun answer => ?_
    cases answer with
    | error error =>
      exact iteInduction (motive := fun p => K p) (fun _ => hk.pure _) fun _ => hk.throw _
    | ok listed => exact hk.pure _

theorem loadRemoteSets_of (root : SyncRootConfig) (canonicalRemotePath : Str) (plan : LiveScanPlan)
    (forceRemoteRescan : Bool) :
    K (loadRemoteSets root canonicalRemotePath plan forceRemoteRescan) := by
  have hstate : ∀ {call : StateCall}, K (ask (.state call)) → K (listingState call) := by
    intro call hcall
    refine hk.bind hcall fun answer => ?_
    cases answer with
    | ok result => exact hk.pure _
    | error error => exact hk.throw _
  have hlegacy : ∀ paths, K (legacyInventories plan paths) := by
    intro paths
    induction paths with
    | nil => exact hk.pure _
    | cons path paths ih =>
      exact hk.bind (migrationInventory_of hk _ _) fun _ => hk.bind ih fun _ => hk.pure _
  have hcached : K (cachedRemoteSets root canonicalRemotePath forceRemoteRescan) := by
    refine iteInduction (motive := fun p => K p) (fun _ => hk.pure _) fun _ => ?_
    refine hk.bind (hstate (hk.status _)) fun status => ?_
    cases status with
    | none => exact hk.pure _
    | some status =>
      refine hk.bind hk.now fun now => ?_
      refine iteInduction (motive := fun p => K p) (fun _ => ?_) fun _ => hk.pure _
      exact hk.bind (hstate (hk.cached _)) fun _ => hk.pure _
  refine hk.bind hcached fun sets => ?_
  cases sets with
  | some sets => exact hk.pure _
  | none =>
    exact hk.bind (migrationInventory_of hk _ _) fun _ =>
      hk.bind (hlegacy _) fun _ => hk.pure _

end Inventories

section Run

namespace Rounds

variable {K : ⦃α : Type⦄ → Migrator α → Prop} (hk : Rounds K) (ext : Externals)
  (config : AppConfig)

include hk

theorem memory : K MigrationEngine.memory := hk.routine .readMemory rfl

theorem isCancelled : K MigrationEngine.isCancelled := hk.routine .isCancelled rfl

theorem finishRootSummary : K finishRootSummary := hk.bind hk.memory fun _ => hk.modifyReport _

theorem recordMissingRoot (root : SyncRootConfig) (canonicalRemotePath : Str) :
    K (recordMissingRoot root canonicalRemotePath) := by
  have hskip : ∀ paths, K (skipLegacyRoots root canonicalRemotePath paths) := by
    intro paths
    induction paths with
    | nil => exact hk.pure ()
    | cons path paths ih => exact hk.bind (hk.call rfl) fun _ => ih
  exact hk.bind (hk.call rfl) fun _ => hk.bind (hk.call rfl) fun _ => hk.bind (hskip _) fun _ =>
    hk.modifySummary _

/-- The rounds of a run over its roots. -/
theorem executeRun_of
    (hround : ∀ root ∈ SyncEngine.enabledRoots config, ∀ runId options availableRemoteBytes
      forceRemoteRescan, K (MigrationEngine.executeRunRoot ext config root runId options
        availableRemoteBytes forceRemoteRescan)) (runId : Int) (forceRemoteRescan : Bool) :
    K (executeRun ext config runId forceRemoteRescan) := by
  have hroots : ∀ options roots available, (∀ root ∈ roots, root ∈ SyncEngine.enabledRoots config) →
      K (executeRoots ext config runId options forceRemoteRescan roots available) := by
    intro options roots
    induction roots with
    | nil => exact fun _ _ => hk.pure _
    | cons root roots ih =>
      intro available hroots
      refine hk.bind hk.isCancelled fun cancelled => ?_
      refine iteInduction (motive := fun p => K p) (fun _ => hk.modifyReport _) fun _ => ?_
      refine hk.bind (hround root (hroots root List.mem_cons_self) runId options available _)
        fun next => ?_
      exact iteInduction (motive := fun p => K p)
        (fun _ => ih _ fun other ho => hroots other (List.mem_cons_of_mem _ ho)) fun _ => hk.pure _
  have havailable : K availableRemoteBytes := by
    refine hk.bind (hk.routine (.client .diskInfo) rfl) fun answer => ?_
    cases answer with
    | ok quota => exact hk.pure _
    | error error => exact hk.bind (hk.modifyReport _) fun _ => hk.pure _
  exact hk.bind havailable fun _ => hroots _ _ _ fun _ h => h

section

variable (hroot : ∀ root runId baseSummary options canonicalRemotePath availableRemoteBytes
    forceRemoteRescan, K (MigrationEngine.executeRoot ext config root runId baseSummary options
      canonicalRemotePath availableRemoteBytes forceRemoteRescan))

include hroot

theorem executeRunRoot (root : SyncRootConfig) (runId : Int) (options : ScanOptions)
    (availableRemoteBytes : Option Nat) (forceRemoteRescan : Bool) :
    K (executeRunRoot ext config root runId options availableRemoteBytes forceRemoteRescan) := by
  unfold MigrationEngine.executeRunRoot
  cases canonicalRemotePath config.instanceConfig.remoteRoot root.localPath
      root.remotePathOverride with
  | error error => exact hk.throw _
  | ok canonical =>
    refine hk.bind (hk.restart _ fun _ => ⟨_,_,rfl⟩) fun _ => hk.bind (hk.call rfl) fun _ => ?_
    refine hk.bind (hk.routine _ rfl) fun isDir => ?_
    refine iteInduction (motive := fun p => K p) (fun _ => ?_) fun _ => ?_
    · exact hk.bind (hk.recordMissingRoot root canonical) fun _ => hk.bind hk.finishRootSummary fun _ =>
        hk.pure _
    · refine hk.bind hk.memory fun before => ?_
      refine hk.bind (hroot root runId _ _ _ _ _) fun result => ?_
      refine hk.bind hk.finishRootSummary fun _ => ?_
      refine iteInduction (motive := fun p => K p) (fun _ => hk.pure _) fun _ => ?_
      exact hk.bind hk.isCancelled fun _ => hk.pure _

theorem executeRun (runId : Int) (forceRemoteRescan : Bool) :
    K (executeRun ext config runId forceRemoteRescan) :=
  hk.executeRun_of ext config (fun root _ => hk.executeRunRoot ext config hroot root) runId
    forceRemoteRescan

end

/-- How a run ends, after an error or not. -/
theorem endRun (runId : Int) (guard : RunLockGuard) (execution : Except MigrationError Unit) :
    K (do concludeRun execution; closeRun runId guard) := by
  have hconclude : K (concludeRun execution) := by
    unfold concludeRun
    cases execution with
    | error error => exact hk.modifyReport _
    | ok _ =>
      refine hk.bind hk.isCancelled fun cancelled => ?_
      exact iteInduction (motive := fun p => K p) (fun _ => hk.modifyReport _)
        fun _ => hk.modifyReport _
  refine hk.bind hconclude fun _ => hk.bind hk.memory fun memory => ?_
  refine hk.bind (hk.routine _ rfl) fun finished => hk.bind (hk.routine _ rfl) fun released => ?_
  cases finished with
  | error error => exact hk.throw _
  | ok _ =>
    cases released with
    | error error => exact hk.throw _
    | ok _ => exact hk.pure _

/-- A whole run has a property that its phases have and that a caught error does not break. -/
theorem runOnce (hattempt : ∀ {α : Type} {p : Migrator α}, K p → K (attempt p))
    (hrepair : K (state .repairInterruptedRuns))
    (hroot : ∀ root runId baseSummary options canonicalRemotePath availableRemoteBytes
      forceRemoteRescan, K (MigrationEngine.executeRoot ext config root runId baseSummary options
        canonicalRemotePath availableRemoteBytes forceRemoteRescan))
    (options : MigrationRunOptions) : K (runOnce ext config options) := by
  have hlocked : ∀ guard, K (runLocked ext config options.forceRemoteRescan guard) := by
    intro guard
    refine hk.bind hrepair fun _ => hk.bind (hk.call rfl) fun runId => ?_
    refine hk.bind (hk.restart _ fun _ => ⟨_,_,rfl⟩) fun _ => ?_
    exact hk.bind (hattempt (hk.executeRun ext config hroot runId _)) fun execution =>
      hk.endRun runId guard execution
  refine hk.bind (iteInduction (motive := fun p => K p) (fun _ => hk.pure _) fun _ => hk.throw _)
    fun _ => hk.bind (hk.acquire _ _) fun acquired => ?_
  match acquired with
  | .error error => exact hk.throw _
  | .ok none => exact hk.throw _
  | .ok (some guard) => exact hlocked guard

end Rounds

namespace Running

variable {K : ⦃α : Type⦄ → Migrator α → Prop} (hk : Running K) (ext : Externals)
  (config : AppConfig)

include hk

theorem cleanupStagingFiles (files : List LocalFileEntry) : K (cleanupStagingFiles files) := by
  induction files with
  | nil => exact hk.pure ()
  | cons file files ih =>
    unfold MigrationEngine.cleanupStagingFiles
    cases file.sqliteBackupStagingPath with
    | none => exact ih
    | some path =>
      refine hk.bind (hk.routine (.removeFile path) rfl) fun answer => ?_
      cases answer with
      | ok _ => exact ih
      | error error =>
        exact iteInduction (motive := fun p => K p) (fun _ => ih) fun _ => hk.throw _

theorem giveUpRoot (root : SyncRootConfig) (scanReport : ScanReport) :
    K (giveUpRoot root scanReport) :=
  hk.bind (hk.cleanupStagingFiles _) fun _ =>
    hk.bind (hk.reporting.finishRootCancelledOrFailed root) fun _ => hk.pure _

/-- The phases of a root one after another. -/
theorem migrateRoot {root : SyncRootConfig} {runId : Int} {baseSummary : SyncRunSummary}
    {sets : RemoteSets} {availableRemoteBytes : Option Nat}
    (hrecord : K (recordRemoteResources config root sets))
    (hmove : K (tryTopLevelMove root runId))
    (hmerge : K (applyMergeMoves ext config root runId baseSummary))
    (hadopt : K (applyAdoptOrUpload config root runId baseSummary availableRemoteBytes))
    (hdelete : K (applyDeletes root runId baseSummary)) (scanReport : ScanReport) :
    K (migrateRoot ext config root runId baseSummary scanReport sets availableRemoteBytes) := by
  refine hk.bind (hk.modifySets _) fun _ => hk.bind hrecord fun _ => hk.bind hmove fun stop => ?_
  refine hk.bind hk.isCancelled fun cancelled => ?_
  refine iteInduction (motive := fun p => K p) (fun _ => hk.giveUpRoot root scanReport) fun _ => ?_
  refine hk.bind hmerge fun stop => hk.bind hk.isCancelled fun cancelled => ?_
  refine iteInduction (motive := fun p => K p) (fun _ => hk.giveUpRoot root scanReport) fun _ => ?_
  refine hk.bind hadopt fun uploaded => hk.bind (hk.cleanupStagingFiles _) fun _ => ?_
  refine hk.bind hk.isCancelled fun cancelled => ?_
  refine iteInduction (motive := fun p => K p)
    (fun _ => hk.bind (hk.reporting.finishRootCancelledOrFailed root) fun _ => hk.pure _) fun _ => ?_
  exact hk.bind hdelete fun stop => hk.bind (hk.reporting.finishRootCancelledOrFailed root) fun _ =>
    hk.bind (hk.persistRootProgress runId baseSummary) fun _ => hk.pure _

/-- What follows the scan of a root, its inventory and its phases apart. -/
theorem executeScanned
    (hinventory : ∀ root canonicalRemotePath plan forceRemoteRescan,
      K (liftM (loadRemoteSets root canonicalRemotePath plan forceRemoteRescan).run :
        Migrator (Except YandexDiskError RemoteSets)))
    (hset : ∀ root error, K (MigrationEngine.state (.setRootRemoteInventoryStatus
      (SyncEngine.incompleteInventoryStatus root error))))
    (hmigrate : ∀ root runId baseSummary scanReport sets availableRemoteBytes,
      K (MigrationEngine.migrateRoot ext config root runId baseSummary scanReport sets
        availableRemoteBytes))
    (root : SyncRootConfig) (runId : Int) (baseSummary : SyncRunSummary)
    (canonicalRemotePath : Str) (scanReport : ScanReport) (availableRemoteBytes : Option Nat)
    (forceRemoteRescan : Bool) :
    K (executeScanned ext config root runId baseSummary canonicalRemotePath scanReport
      availableRemoteBytes forceRemoteRescan) := by
  refine hk.bind (hk.planScan _ _ _ _) fun plan => ?_
  cases localRemoteCollision plan.directories plan.files with
  | some message =>
    exact hk.bind (hk.reporting.failRootWith ..) fun _ => hk.bind (hk.cleanupStagingFiles _) fun _ => hk.pure _
  | none =>
    refine hk.bind (hinventory root canonicalRemotePath plan forceRemoteRescan) fun answer => ?_
    cases answer with
    | error error =>
      refine hk.bind (hset root error) fun _ => ?_
      exact iteInduction (motive := fun p => K p)
        (fun _ => hk.bind (hk.reporting.failRootWith ..) fun _ =>
          hk.bind (hk.cleanupStagingFiles _) fun _ => hk.pure _)
        fun _ => hk.bind (hk.reporting.failRootWith ..) fun _ =>
          hk.bind (hk.cleanupStagingFiles _) fun _ => hk.pure _
    | ok sets => exact hmigrate root runId baseSummary scanReport sets availableRemoteBytes

theorem executeRoot
    (hscanned : ∀ root runId baseSummary canonicalRemotePath scanReport availableRemoteBytes
      forceRemoteRescan, K (MigrationEngine.executeScanned ext config root runId baseSummary
        canonicalRemotePath scanReport availableRemoteBytes forceRemoteRescan))
    (root : SyncRootConfig) (runId : Int) (baseSummary : SyncRunSummary) (options : ScanOptions)
    (canonicalRemotePath : Str) (availableRemoteBytes : Option Nat) (forceRemoteRescan : Bool) :
    K (executeRoot ext config root runId baseSummary options canonicalRemotePath
      availableRemoteBytes forceRemoteRescan) := by
  have hscan : K (scanRootWithRepository options
      (SyncEngine.scanRootOf root canonicalRemotePath)) := by
    refine hk.bind (hk.routine _ rfl) fun answer => ?_
    cases answer with
    | ok previousStates => exact hk.routine _ rfl
    | error error => exact hk.pure _
  refine hk.bind hscan fun answer => ?_
  cases answer with
  | error error => exact hk.bind (hk.reporting.failRootWith ..) fun _ => hk.pure _
  | ok scanReport => exact hscanned _ _ _ _ _ _ _

theorem rounds : Rounds K where
  toSequential := hk.toSequential
  routine := hk.routine
  call := hk.call
  modifySummary := hk.modifySummary
  modifyReport := hk.modifyReport
  restart f hf := hk.restart f fun memory => by
    obtain ⟨report,rootSummary,hmemory⟩ := hf memory
    rw [hmemory]
  acquire := hk.acquire

/-- A whole run has a property that its phases have and that a caught error does not break. -/
theorem runOnce (hattempt : ∀ {α : Type} {p : Migrator α}, K p → K (attempt p))
    (hrepair : K (state .repairInterruptedRuns))
    (hscanned : ∀ root runId baseSummary canonicalRemotePath scanReport availableRemoteBytes
      forceRemoteRescan, K (MigrationEngine.executeScanned ext config root runId baseSummary
        canonicalRemotePath scanReport availableRemoteBytes forceRemoteRescan))
    (options : MigrationRunOptions) : K (runOnce ext config options) :=
  hk.rounds.runOnce ext config hattempt hrepair (hk.executeRoot ext config hscanned) options

end Running

variable {σ : Type} {step : σ → (e : Effect MigrationMemory) → e.Answer → σ → Prop}
  {env : σ → σ → Prop} {I D : σ → Prop}

/-- While a run goes on `I` holds; `D` is what an error leaves, and what holds at the end. -/
theorem runOnce_upholds
    (hi : Running fun ⦃α⦄ (p : Migrator α) => Upholds step env I D p)
    (hd : Running fun ⦃α⦄ (p : Migrator α) => Upholds step env D D p) (herror : ∀ s, I s → D s)
    (hrepair : Upholds step env I D (perform (.state .repairInterruptedRuns)))
    (ext : Externals) (config : AppConfig)
    (hscanned : ∀ root runId baseSummary canonicalRemotePath scanReport availableRemoteBytes
      forceRemoteRescan, Upholds step env I D (executeScanned ext config root runId baseSummary
        canonicalRemotePath scanReport availableRemoteBytes forceRemoteRescan))
    (options : MigrationRunOptions) :
    TryTriple step env I (runOnce ext config options) (fun _ => D) D fun _ => True := by
  have hrepaired : Upholds step env I D (state .repairInterruptedRuns) := by
    refine TryTriple.bind hrepair fun answer => ?_
    cases answer with
    | ok result => exact hi.pure _
    | error error => exact hi.throw _
  have hlocked : ∀ guard, TryTriple step env I
      (runLocked ext config options.forceRemoteRescan guard) (fun _ => D) D fun _ => True := by
    intro guard
    have hbegin : Upholds step env I D (state (.beginRun .migration)) := hi.call rfl
    refine TryTriple.bind hrepaired fun _ => TryTriple.bind hbegin fun runId => ?_
    refine TryTriple.bind (hi.restart _ fun _ => rfl) fun _ => ?_
    have hexecute := hi.rounds.executeRun ext config (hi.executeRoot ext config hscanned) runId
      (options.forceRemoteRescan || config.sync.forceRemoteRescan)
    exact TryTriple.bind (hexecute.catch herror) fun execution =>
      hd.rounds.endRun runId guard execution
  have hvalid : Upholds step env I D (ensureValidConfig ext config) :=
    iteInduction (motive := fun p => Upholds step env I D p) (fun _ => hi.pure _)
      fun _ => hi.throw _
  refine TryTriple.bind hvalid fun _ => TryTriple.bind (hi.acquire _ _) fun acquired => ?_
  match acquired with
  | .error error => exact TryTriple.throw herror
  | .ok none => exact TryTriple.throw herror
  | .ok (some guard) => exact hlocked guard

end Run

end MigrationEngine

end YaDiskSync
