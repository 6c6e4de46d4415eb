import YaDiskSync.MigrationEnds
import YaDiskSync.Staging
import YaDiskSync.SyncCounters
import YaDiskSync.MockClient

/-! What both engines leave of the copies a scan has made. A sync run cleans them up on two of its
ways through a root, a migration on every one; an error takes them by it. -/
namespace YaDiskSync

open Prog

namespace SyncEngine

/-- The failures with which a root is left before its plan is carried out. -/
def earlyExits : List Str :=
  ["plan".toList,"remote_inventory".toList,"quota_check".toList]

/-- The steps with which the work on a root is given up without the cleanup. -/
def givesUp {ρ : Type} (s : Traced ρ SyncMemory) : (e : Effect SyncMemory) → e.Answer → Bool
  | .state (.markFailed record), .ok _ => earlyExits.contains record.operation
  | e, answer => endsRoot s e answer

/-- What a step of a root has to meet for its copies to be cleaned up. -/
def CleansUp {ρ : Type} (ext : Externals) (scan : StagedScan) (s : Traced ρ SyncMemory)
    (e : Effect SyncMemory) (answer : e.Answer) : Prop :=
  scan.Seen ext e answer ∧ scan.Tidy ext givesUp s e answer

end SyncEngine

namespace MigrationEngine

/-- What a step of a root has to meet for its copies to be cleaned up. -/
def CleansUp {ρ : Type} (ext : Externals) (scan : StagedScan) (s : Traced ρ MigrationMemory)
    (e : Effect MigrationMemory) (answer : e.Answer) : Prop :=
  scan.Seen ext e answer ∧ scan.Tidy ext (fun s => endsWhile (movingRoot s.trace)) s e answer

end MigrationEngine

namespace SyncStaging

variable {ρ : Type} {env : Environment ρ} {ext : Externals} {scan : StagedScan}
  {paths : List LocalPath}

abbrev Runs (env : Environment ρ) (ext : Externals) (scan : StagedScan)
    (P : Traced ρ SyncMemory → Prop) {ε α : Type}
    (p : ExceptT ε (Prog (Effect SyncMemory) Effect.Answer) α)
    (Q : α → Traced ρ SyncMemory → Prop) : Prop :=
  TryTriple (env.TraceStep (SyncEngine.CleansUp ext scan)) env.TraceDrift P p Q
    (StagedIn ext scan []) fun _ => True

/-- Properties of programs that make no copies. -/
abbrev Works (env : Environment ρ) (ext : Externals) (scan : StagedScan) (paths : List LocalPath)
    ⦃α : Type⦄ (p : Engine α) : Prop :=
  Runs env ext scan (StagedIn ext scan paths) p fun _ => StagedIn ext scan paths

theorem composable : Composable (Works env ext scan paths) :=
  ⟨fun _ => TryTriple.pure fun _ h => h,fun hp hf => TryTriple.bind hp hf⟩

theorem ask {ε : Type} {D : Traced ρ SyncMemory → Prop} {e : Effect SyncMemory}
    (he : ∀ options root previousStates, e ≠ .scan options root previousStates) :
    TryTriple (env.TraceStep (SyncEngine.CleansUp ext scan)) env.TraceDrift (StagedIn ext scan paths)
      (asking ε e) (fun _ => StagedIn ext scan paths) D fun _ => True :=
  TryTriple.perform stable_stagedIn (fun _ _ => trivial) fun _ _ _ h hstep => h.keep he hstep

/-- A repository call that fails gives the root up. -/
theorem call {call : StateCall} (hinventory : call.isInventory = false) :
    Works env ext scan paths (SyncEngine.state call) := by
  refine SyncEngine.state_leads stable_stagedIn (fun _ _ _ h hstep => h.keep (fun _ => by simp) hstep)
    fun s error s' _ hstep => ?_
  have hgiven : SyncEngine.givesUp s (.state call) (.error error) = true := by
    cases call <;> simp [SyncEngine.givesUp,SyncEngine.endsRoot,hinventory]
  have hnone : StagedIn ext scan [] s := StagedIn.nil_iff.mpr (hstep.1.2.2 hgiven)
  exact hnone.keep (fun _ => by simp) hstep

theorem removes {path : LocalPath} :
    Runs env ext scan (StagedIn ext scan (path :: paths)) (SyncEngine.perform (.removeFile path))
      fun answer s => removed answer = true ∧ StagedIn ext scan paths s :=
  TryTriple.perform stable_stagedIn (fun _ _ => trivial) fun _ _ _ h hstep =>
    ⟨hstep.1.1,h.remove hstep.1.1 hstep⟩

/-- The cleanup leaves none of the copies of these files. -/
theorem cleanup_runs (files : List LocalFileEntry) :
    Runs env ext scan (StagedIn ext scan (LocalFileEntry.stagingPaths files ++ paths))
      (SyncEngine.cleanupStagingFiles files) fun _ => StagedIn ext scan paths := by
  induction files with
  | nil => exact TryTriple.pure fun _ h => h
  | cons file files ih =>
    unfold SyncEngine.cleanupStagingFiles
    cases hpath : file.sqliteBackupStagingPath with
    | none => rwa [LocalFileEntry.stagingPaths,List.filterMap_cons_none hpath]
    | some path =>
      rw [LocalFileEntry.stagingPaths,List.filterMap_cons_some hpath]
      refine TryTriple.bind removes fun answer => ?_
      cases answer with
      | ok _ => exact ih.pre fun _ h => h.2
      | error error =>
        refine TryTriple.of_pure (fun _ h => h.1) fun hremoved => ?_
        have hgone : error.kind = .notFound := by simpa [removed] using hremoved
        dsimp only
        rw [if_pos hgone]
        exact ih.pre fun _ h => h.2

theorem cleanup (files : List LocalFileEntry) :
    Runs env ext scan (StagedIn ext scan (LocalFileEntry.stagingPaths files))
      (SyncEngine.cleanupStagingFiles files) fun _ => StagedIn ext scan [] := by
  have hrun := @cleanup_runs ρ env ext scan [] files
  rwa [List.append_nil] at hrun

theorem quiet (runId : Int) (baseSummary : SyncRunSummary) :
    SyncEngine.Quiet runId baseSummary (Works env ext scan paths) where
  toComposable := composable
  report {call} h := SyncStaging.call (by cases call <;> first | rfl | cases h)
  readMemory := ask fun _ => by simp
  modifySummary _ _ := ask fun _ => by simp
  isCancelled := ask fun _ => by simp
  state {call} h := SyncStaging.call (by cases call <;> first | rfl | cases h)
  persistRootProgress := TryTriple.bind (ask fun _ => by simp) fun _ => call rfl
  cleanupStagingFiles files := (cleanup_runs files).pre fun _ h =>
    List.Subset.trans h (List.subset_append_right _ _)
  fileMetadata _ := ask fun _ => by simp

theorem phases (runId : Int) (baseSummary : SyncRunSummary) :
    SyncEngine.Phases runId baseSummary (Works env ext scan paths) where
  toQuiet := quiet runId baseSummary
  register localPath relativePath remotePath := by
    have hk : SyncEngine.Quiet runId baseSummary (Works env ext scan paths) :=
      quiet runId baseSummary
    refine hk.bind hk.livePlan fun plan => ?_
    refine hk.bind (registerMissingLocalPath_of hk.toComposable (fun _ => ask fun _ => by simp)
      (fun _ => ask fun _ => by simp) plan localPath relativePath remotePath) fun result => ?_
    exact hk.bind (ask fun _ => by simp) fun _ => hk.pure _
  spawn _ := ask fun _ => by simp
  joinNext := ask fun _ => by simp
  dropTasks := ask fun _ => by simp
  upsertDirectoryState _ := call rfl
  upsertFileState _ := call rfl
  upsertRemoteResource _ := call rfl

variable (config : AppConfig) (root : SyncRootConfig) (runId : Int)
  (baseSummary : SyncRunSummary)

/-- A root is failed early only with no copies left. -/
theorem failRootWith_runs (operation : Str) (hexit : operation ∈ SyncEngine.earlyExits)
    (rootStatus errorKind errorMessage : Str) :
    Runs env ext scan (StagedIn ext scan paths)
      (SyncEngine.failRootWith rootStatus root operation errorKind errorMessage)
      fun _ => StagedIn ext scan [] := by
  have hk : SyncEngine.Quiet 0 {} (Works env ext scan []) := quiet 0 {}
  refine TryTriple.bind (ask fun _ => by simp) fun memory => ?_
  have hfailed : ∀ record : FailedItemRecord, record.operation = operation →
      Runs env ext scan (StagedIn ext scan paths) (SyncEngine.state (.markFailed record))
        fun _ => StagedIn ext scan [] := by
    rintro record rfl
    refine SyncEngine.state_leads stable_stagedIn (fun s result s' _ hstep => ?_)
      fun s error s' _ hstep => ?_
    all_goals
      have hnone : StagedIn ext scan [] s := StagedIn.nil_iff.mpr (hstep.1.2.2
        (by simp [SyncEngine.givesUp,SyncEngine.endsRoot,StateCall.isInventory,hexit]))
      exact hnone.keep (fun _ => by simp) hstep
  exact TryTriple.bind (hfailed _ rfl) fun _ => hk.bind (hk.report rfl) fun _ =>
    ask fun _ => by simp

theorem planScan_works (scanReport : ScanReport) :
    Works env ext scan paths (SyncEngine.planScan root runId baseSummary scanReport) := by
  have hk : SyncEngine.Quiet runId baseSummary (Works env ext scan paths) :=
    quiet runId baseSummary
  refine hk.bind (hk.recordScanFindings _) fun _ => ?_
  refine hk.bind (fromScanReport_of hk.toComposable (fun _ => ask fun _ => by simp)
    (fun _ => ask fun _ => by simp) _ _) fun plan => ?_
  refine hk.bind (ask fun _ => by simp) fun _ => hk.bind (ask fun _ => by simp) fun _ => ?_
  exact hk.bind (hk.recordDeletedSubtrees runId _) fun _ =>
    hk.bind hk.persistRootProgress fun _ => hk.pure _

theorem remoteInventory_works (canonicalRemotePath : Str) (plan : LiveScanPlan)
    (forceRemoteRescan : Bool) :
    Works env ext scan paths (liftM (SyncEngine.remoteInventory config root canonicalRemotePath plan
      forceRemoteRescan).run : Engine (Except YandexDiskError RemoteInventorySnapshot)) := by
  have hcalls : SyncEngine.InventoryCalls fun ⦃α⦄ (p : SyncEngine.Inventorying α) =>
      TryTriple (env.TraceStep (SyncEngine.CleansUp ext scan)) env.TraceDrift
        (StagedIn ext scan paths) p (fun _ => StagedIn ext scan paths) (StagedIn ext scan paths)
        fun _ => True := {
    toSequential := sequential_try fun _ h => h
    now := ask fun _ => by simp
    status := fun _ => ask fun _ => by simp
    cached := fun _ => ask fun _ => by simp
    metadata := fun _ => ask fun _ => by simp
    list := fun _ _ => ask fun _ => by simp
    replace := fun _ _ => ask fun _ => by simp
    setStatus := fun _ => ask fun _ => by simp }
  refine (TryTriple.catch (SyncEngine.remoteInventory_of hcalls config root canonicalRemotePath
    plan forceRemoteRescan)).post fun answer s h => ?_
  cases answer with
  | ok _ => exact h
  | error _ => exact h

theorem applyDeletes_works (canonicalRemotePath : Str) (inventory : Inventory)
    (inventoryFromCache : Bool) :
    Works env ext scan paths (SyncEngine.applyDeletes root runId baseSummary canonicalRemotePath
      inventory inventoryFromCache) := by
  have hk : SyncEngine.Quiet runId baseSummary (Works env ext scan paths) :=
    quiet runId baseSummary
  refine hk.bind hk.livePlan fun plan => ?_
  refine SyncEngine.deleteEach_of hk root inventoryFromCache _ fun delete _ => ?_
  refine SyncEngine.applyDelete_of hk root (ask fun _ => by simp) (ask fun _ => by simp)
    (fun operationId => ?_) (call rfl) inventoryFromCache
  exact SyncEngine.recordDeleted_of hk (fun _ => ⟨call rfl,call rfl⟩) (fun _ _ => call rfl)
    operationId delete

/-- Whatever becomes of the plan, the copies are cleaned up. -/
theorem applyPlan_runs (canonicalRemotePath : Str) (scanReport : ScanReport) (rootPlan : RootPlan)
    (snapshot : RemoteInventorySnapshot) :
    Runs env ext scan (StagedIn ext scan (LocalFileEntry.stagingPaths scanReport.files))
      (SyncEngine.applyPlan config root runId baseSummary canonicalRemotePath scanReport rootPlan
        snapshot) fun _ => StagedIn ext scan [] := by
  have hp : SyncEngine.Phases runId baseSummary
      (Works env ext scan (LocalFileEntry.stagingPaths scanReport.files)) :=
    phases runId baseSummary
  have ha : SyncEngine.Quiet runId baseSummary (Works env ext scan []) := quiet runId baseSummary
  refine TryTriple.bind (hp.applyCreateDirectories config root rootPlan) fun stop =>
    TryTriple.bind hp.isCancelled fun cancelled => ?_
  refine iteInduction (motive := fun p => Runs env ext scan _ p _) (fun _ => ?_) fun _ => ?_
  · exact TryTriple.bind (cleanup _) fun _ =>
      ha.bind (ha.finishRootCancelledOrFailed root) fun _ => ha.pure _
  · refine TryTriple.bind (hp.applyUploads config root rootPlan fun _ _ => ask fun _ => by simp)
      fun uploaded =>
      TryTriple.bind (cleanup _) fun _ => ha.bind ha.isCancelled fun cancelled => ?_
    refine iteInduction (motive := fun p => Works env ext scan [] p) (fun _ => ?_) fun _ => ?_
    · exact ha.bind (ha.finishRootCancelledOrFailed root) fun _ => ha.pure _
    · exact ha.bind (applyDeletes_works root runId baseSummary _ _ _) fun _ =>
        ha.bind (ha.finishRootCancelledOrFailed root) fun _ =>
          ha.bind ha.persistRootProgress fun _ => ha.pure _

theorem executeScanned_runs (canonicalRemotePath : Str) (scanReport : ScanReport)
    (availableRemoteBytes : Option Nat) (forceRemoteRescan : Bool) :
    Runs env ext scan (StagedIn ext scan (LocalFileEntry.stagingPaths scanReport.files))
      (SyncEngine.executeScanned ext config root runId baseSummary canonicalRemotePath scanReport
        availableRemoteBytes forceRemoteRescan) fun _ => StagedIn ext scan [] := by
  have hfail : ∀ {α : Type} (result : α) (operation : Str), operation ∈ SyncEngine.earlyExits →
      ∀ rootStatus errorKind errorMessage,
        Runs env ext scan (StagedIn ext scan (LocalFileEntry.stagingPaths scanReport.files)) (do
          SyncEngine.failRootWith rootStatus root operation errorKind errorMessage
          return result) fun _ => StagedIn ext scan [] := fun _ operation hexit _ _ _ =>
    TryTriple.bind (failRootWith_runs root operation hexit _ _ _) fun _ =>
      TryTriple.pure fun _ h => h
  refine TryTriple.bind (planScan_works root runId baseSummary scanReport) fun plan => ?_
  cases localRemoteCollision plan.directories plan.files with
  | some message => exact hfail _ _ (by decide) _ _ _
  | none =>
    refine TryTriple.bind (remoteInventory_works config root canonicalRemotePath plan
      forceRemoteRescan) fun answer => ?_
    cases answer with
    | error error =>
      refine TryTriple.bind (call rfl) fun _ => ?_
      exact iteInduction (motive := fun p => Runs env ext scan _ p _)
        (fun _ => hfail _ _ (by decide) _ _ _) fun _ => hfail _ _ (by decide) _ _ _
    | ok snapshot =>
      unfold SyncEngine.executePlan
      dsimp only
      split
      · exact TryTriple.bind (failRootWith_runs root _ (by decide) _ _ _) fun _ =>
          TryTriple.bind (ask fun _ => by simp) fun _ => TryTriple.pure fun _ h => h
      · exact TryTriple.bind (ask fun _ => by simp) fun _ =>
          applyPlan_runs config root runId baseSummary canonicalRemotePath scanReport _ snapshot

theorem scanRoot_runs (options : ScanOptions) (scanRoot : ScanRoot) :
    Runs env ext scan (StagedIn ext scan [])
      (SyncEngine.scanRootWithRepository options scanRoot)
      fun answer => StagedIn ext scan (scannedPaths answer) := by
  refine TryTriple.bind (ask fun _ => by simp) fun answer => ?_
  cases answer with
  | error error => exact TryTriple.pure fun _ h => h
  | ok previousStates =>
    exact TryTriple.perform stable_stagedIn (fun _ _ => trivial) fun _ _ _ h hstep =>
      h.scanned hstep.1.1 (hstep.1.2.1 _ _ _ rfl) hstep

theorem executeRoot_runs (options : ScanOptions) (canonicalRemotePath : Str)
    (availableRemoteBytes : Option Nat) (forceRemoteRescan : Bool) :
    Runs env ext scan (StagedIn ext scan [])
      (SyncEngine.executeRoot ext config root runId baseSummary options canonicalRemotePath
        availableRemoteBytes forceRemoteRescan) fun _ => StagedIn ext scan [] := by
  have hk : SyncEngine.Quiet runId baseSummary (Works env ext scan []) := quiet runId baseSummary
  refine TryTriple.bind (scanRoot_runs options _) fun answer => ?_
  cases answer with
  | error error => exact hk.bind (hk.failRootWith _ _ _ _ _) fun _ => hk.pure _
  | ok scanReport =>
    exact executeScanned_runs config root runId baseSummary canonicalRemotePath scanReport
      availableRemoteBytes forceRemoteRescan

end SyncStaging

namespace MigrationStaging

variable {ρ : Type} {env : Environment ρ} {ext : Externals} {scan : StagedScan}
  {paths : List LocalPath}

abbrev Runs (env : Environment ρ) (ext : Externals) (scan : StagedScan)
    (P : Traced ρ MigrationMemory → Prop) {ε α : Type}
    (p : ExceptT ε (Prog (Effect MigrationMemory) Effect.Answer) α)
    (Q : α → Traced ρ MigrationMemory → Prop) : Prop :=
  MigrationEngine.Ends env (MigrationEngine.CleansUp ext scan) (fun _ => True) P p Q
    (StagedIn ext scan [])

theorem keptPlain : MigrationEngine.KeptPlain env (MigrationEngine.CleansUp ext scan)
    (fun _ => True) (StagedIn ext scan paths) where
  stable := stable_stagedIn
  cut _ _ := trivial
  keep he h hstep := h.keep (by rintro _ _ _ rfl; cases he) hstep
  assign _ h hstep := h.keep (fun _ => by simp) hstep

/-- A call that ends the work on a root finds no copies left. -/
theorem ends_state {call : StateCall} (hcache : call.readsCache = false) :
    Runs env ext scan (StagedIn ext scan paths) (MigrationEngine.state call)
      fun _ => StagedIn ext scan paths := by
  refine MigrationEngine.state_leads stable_stagedIn
    (fun _ _ _ h hstep => h.keep (fun _ => by simp) hstep) fun s error s' _ hstep => ?_
  have hends : MigrationEngine.endsWhile (MigrationEngine.movingRoot s.trace) (.state call)
      (.error error) = true := by simp [MigrationEngine.endsWhile,hcache]
  exact (StagedIn.nil_iff.mpr (hstep.1.2.2 hends)).keep (fun _ => by simp) hstep

theorem endRules (runId : Int) (baseSummary : SyncRunSummary) :
    MigrationEngine.EndRules runId baseSummary env (MigrationEngine.CleansUp ext scan)
      (fun _ => True) (StagedIn ext scan paths) (StagedIn ext scan []) where
  toKeptPlain := keptPlain
  lost := keptPlain
  ended he hends _ hstep :=
    (StagedIn.nil_iff.mpr (hstep.1.2.2 hends)).keep (by rintro _ _ _ rfl; cases he) hstep
  persist := TryTriple.bind (keptPlain.ask rfl) fun _ => ends_state rfl

theorem removes {path : LocalPath} :
    Runs env ext scan (StagedIn ext scan (path :: paths)) (MigrationEngine.perform (.removeFile path))
      fun answer s => removed answer = true ∧ StagedIn ext scan paths s :=
  TryTriple.perform stable_stagedIn (fun _ _ => trivial) fun _ _ _ h hstep =>
    ⟨hstep.1.1,h.remove hstep.1.1 hstep⟩

/-- The cleanup leaves none of the copies of these files. -/
theorem cleanup_runs (files : List LocalFileEntry) :
    Runs env ext scan (StagedIn ext scan (LocalFileEntry.stagingPaths files))
      (MigrationEngine.cleanupStagingFiles files) fun _ => StagedIn ext scan [] := by
  induction files with
  | nil => exact TryTriple.pure fun _ h => h
  | cons file files ih =>
    unfold MigrationEngine.cleanupStagingFiles
    cases hpath : file.sqliteBackupStagingPath with
    | none => rwa [LocalFileEntry.stagingPaths,List.filterMap_cons_none hpath]
    | some path =>
      rw [LocalFileEntry.stagingPaths,List.filterMap_cons_some hpath]
      refine TryTriple.bind removes fun answer => ?_
      cases answer with
      | ok _ => exact ih.pre fun _ h => h.2
      | error error =>
        refine TryTriple.of_pure (fun _ h => h.1) fun hremoved => ?_
        have hgone : error.kind = .notFound := by simpa [removed] using hremoved
        dsimp only
        rw [if_pos hgone]
        exact ih.pre fun _ h => h.2

variable (config : AppConfig) (root : SyncRootConfig) (runId : Int)
  (baseSummary : SyncRunSummary)

theorem planScan_works (scanReport : ScanReport) :
    Runs env ext scan (StagedIn ext scan paths)
      (MigrationEngine.planScan root runId baseSummary scanReport)
      fun _ => StagedIn ext scan paths := by
  have rules : MigrationEngine.EndRules runId baseSummary env _ _ _ _ :=
    @endRules ρ env ext scan paths runId baseSummary
  have hk : MigrationEngine.Reporting (MigrationEngine.Works env (MigrationEngine.CleansUp ext scan)
      (fun _ => True) (StagedIn ext scan paths) (StagedIn ext scan [])) := rules.reporting
  have hassign : ∀ f, MigrationEngine.Works env (MigrationEngine.CleansUp ext scan)
      (fun _ => True) (StagedIn ext scan paths) (StagedIn ext scan [])
      (MigrationEngine.perform (.updateMemory f)) := fun _ =>
    TryTriple.perform stable_stagedIn (fun _ _ => trivial) fun _ _ _ h hstep =>
      h.keep (fun _ => by simp) hstep
  refine hk.bind (hk.recordScanFindings _) fun _ => ?_
  refine hk.bind (fromScanReport_of hk.toComposable (fun _ => rules.ask rfl) (fun _ => hassign _)
    _ _) fun plan => ?_
  refine hk.bind (hassign _) fun _ => hk.bind (hassign _) fun _ => ?_
  exact hk.bind (hk.recordDeletedSubtrees runId _) fun _ =>
    hk.bind rules.persist fun _ => hk.pure _

theorem scanRoot_runs (options : ScanOptions) (scanRoot : ScanRoot) :
    Runs env ext scan (StagedIn ext scan [])
      (MigrationEngine.scanRootWithRepository options scanRoot)
      fun answer => StagedIn ext scan (scannedPaths answer) := by
  refine TryTriple.bind (keptPlain.ask rfl) fun answer => ?_
  cases answer with
  | error error => exact TryTriple.pure fun _ h => h
  | ok previousStates =>
    exact TryTriple.perform stable_stagedIn (fun _ _ => trivial) fun _ _ _ h hstep =>
      h.scanned hstep.1.1 (hstep.1.2.1 _ _ _ rfl) hstep

theorem executeRoot_runs (options : ScanOptions) (canonicalRemotePath : Str)
    (availableRemoteBytes : Option Nat) (forceRemoteRescan : Bool) :
    Runs env ext scan (StagedIn ext scan [])
      (MigrationEngine.executeRoot ext config root runId baseSummary options canonicalRemotePath
        availableRemoteBytes forceRemoteRescan) fun _ => StagedIn ext scan [] := by
  have after : MigrationEngine.EndRules runId baseSummary env _ _ _ _ :=
    @endRules ρ env ext scan [] runId baseSummary
  refine TryTriple.bind (scanRoot_runs options _) fun answer => ?_
  cases answer with
  | error error =>
    exact TryTriple.bind (after.reporting.failRootWith _ _ _ _ _) fun _ => TryTriple.pure fun _ h => h
  | ok scanReport =>
    have rules : MigrationEngine.EndRules runId baseSummary env _ _ _ _ :=
      @endRules ρ env ext scan (LocalFileEntry.stagingPaths scanReport.files) runId baseSummary
    exact rules.executeScanned ext config root after (cleanup_runs _)
      (rules.joinMigrationUploads root fun _ _ => TryTriple.perform stable_stagedIn
        (fun _ _ => trivial) fun _ _ _ h hstep => h.keep (fun _ => by simp) hstep)
      canonicalRemotePath availableRemoteBytes forceRemoteRescan
      (planScan_works root runId baseSummary scanReport)

end MigrationStaging

section Cleaned

variable {ρ μ : Type}

/-- Run to its end with no copies left before it, a program leaves none behind. -/
def LeavesNoCopies (env : Environment ρ)
    (allowed : Traced ρ μ → (e : Effect μ) → e.Answer → Prop) (scan : StagedScan) {α : Type}
    (p : Prog (Effect μ) Effect.Answer α) : Prop :=
  ∀ (s s' : Traced ρ μ) (result : α), stagingLeft env.ext scan s.trace = [] →
    Exec (env.TraceStep allowed) env.TraceDrift p s (some result) s' →
      stagingLeft env.ext scan s'.trace = []

end Cleaned

/-- A root of either engine: if no file fails once it has been copied, and while copies are left no
step gives the root up, then whichever way the root is left no copy remains. -/
theorem executeRoot_leavesNoCopies {ρ : Type} (env : Environment ρ) (scan : StagedScan)
    (config : AppConfig) (root : SyncRootConfig) (runId : Int) (baseSummary : SyncRunSummary)
    (options : ScanOptions) (canonicalRemotePath : Str) (availableRemoteBytes : Option Nat)
    (forceRemoteRescan : Bool) :
    LeavesNoCopies env (SyncEngine.CleansUp env.ext scan) scan
      (SyncEngine.executeRoot env.ext config root runId baseSummary options canonicalRemotePath
        availableRemoteBytes forceRemoteRescan).run ∧
    LeavesNoCopies env (MigrationEngine.CleansUp env.ext scan) scan
      (MigrationEngine.executeRoot env.ext config root runId baseSummary options
        canonicalRemotePath availableRemoteBytes forceRemoteRescan).run := by
  refine ⟨fun s s' result hnone hrun => ?_,fun s s' result hnone hrun => ?_⟩
  · have hend := SyncStaging.executeRoot_runs config root runId baseSummary options
      canonicalRemotePath availableRemoteBytes forceRemoteRescan s (some result) s'
      (StagedIn.nil_iff.mpr hnone) hrun
    match result with
    | .ok _ => exact StagedIn.nil_iff.mp hend
    | .error _ => exact StagedIn.nil_iff.mp hend
  · have hend := MigrationStaging.executeRoot_runs config root runId baseSummary options
      canonicalRemotePath availableRemoteBytes forceRemoteRescan s (some result) s'
      (StagedIn.nil_iff.mpr hnone) hrun
    match result with
    | .ok _ => exact StagedIn.nil_iff.mp hend
    | .error _ => exact StagedIn.nil_iff.mp hend

section Copied

/-! A database of one byte. -/

variable {μ : Type}

private def copiedRoot : SyncRootConfig :=
  { id := "r".toList, name := "r".toList, enabled := true, localPath := "/r".toList }

private def copiedItems : List LocalItem :=
  [{ components := ["r".toList], fileType := .dir, sizeBytes_lt := emptySize_lt },
    { components := ["r".toList,"a.db".toList], fileType := .file, sizeBytes := 1
      sizeBytes_lt := byteSize_lt }]

private def copiedDisk : LocalTree where
  items := copiedItems
  names_ne := by decide
  nodup := by decide
  closed := by decide +kernel

private def copiedScan : StagedScan where
  oracle := ⟨id,id,fun _ => ["staging".toList,"a.db".toList],fun _ => "copy".toList⟩
  faults := {}
  tree := copiedDisk

private def copiedOptions : ScanOptions :=
  .fromConfig defaultConfig.sync [] [] "/staging".toList

private def copiedStart (memory : μ) : Traced RemoteDisk μ where
  world := {
    disk := copiedDisk
    remote := { resources := Inventory.ofResources [.ofDirectory "disk:/Backup/r".toList] }
    repository := (({} : Repository).beginRun .manual).2.upsertSyncRoot "r".toList "/r".toList
      "disk:/Backup".toList "disk:/Backup/r".toList true
    tasks := []
    cancelled := false
    now := 0
    memory }

private def copiedEnvironment : Environment RemoteDisk :=
  mockEnvironment asciiExternals ⟨none,none⟩ fun _ _ => False

private def copiedScenario : Scenario RemoteDisk μ :=
  { respond := mockResponder ⟨none,none⟩, oracle := copiedScan.oracle }

private theorem copiedScenario_allowed :
    (copiedScenario : Scenario RemoteDisk μ).Allowed copiedEnvironment where
  admits := mockEnvironment_admits asciiExternals ⟨none,none⟩ fun _ _ => False
  cancels _ _ hc := by simp [copiedScenario] at hc

/-- The scan is this one, none of its files fails, and files are removed. -/
private def copiedSeen : Happening μ → Bool
  | .step (.scan options root previousStates) answer =>
    decide (answer = copiedScan.answer asciiExternals options root previousStates) &&
      copiedScan.losesNone asciiExternals options root previousStates
  | .step (.removeFile _) answer => removed answer
  | _ => true

/-- Nothing is recorded as failed, and nothing but an inventory meets an error. -/
private def copiedGoesOn : Happening μ → Bool
  | .step (.state (.markFailed _)) _ => false
  | .step (.state _) (.error _) => false
  | .step (.client (.metadata _)) (.error error) => error.kind == .notFound
  | .step (.client (.listRecursive ..)) (.error error) => error.kind == .notFound
  | .step (.client _) (.error _) => false
  | _ => true

private theorem seen_of_copied {e : Effect μ} {answer : e.Answer}
    (h : copiedSeen (.step e answer) = true) : copiedScan.Seen asciiExternals e answer := by
  cases e with
  | scan options root previousStates =>
    have hanswer : answer = copiedScan.answer asciiExternals options root previousStates := by
      simpa using (Bool.and_eq_true_iff.mp h).1
    exact hanswer
  | removeFile path => exact h
  | _ => trivial

private theorem losesNone_of_copied {e : Effect μ} {answer : e.Answer}
    (h : copiedSeen (.step e answer) = true) : ∀ options root previousStates,
      e = .scan options root previousStates →
        copiedScan.losesNone asciiExternals options root previousStates = true := by
  rintro options root previousStates rfl
  exact (Bool.and_eq_true_iff.mp h).2

private theorem goesOn_sync {s : Traced RemoteDisk SyncMemory} {e : Effect SyncMemory}
    {answer : e.Answer} (hseen : copiedSeen (.step e answer) = true)
    (h : copiedGoesOn (.step e answer) = true) : SyncEngine.givesUp s e answer = false := by
  cases e with
  | state call => cases call <;> cases answer <;> first | rfl | cases h
  | removeFile path =>
    cases answer with
    | ok _ => rfl
    | error error => simpa [SyncEngine.givesUp,SyncEngine.endsRoot,copiedSeen,removed] using hseen
  | _ => rfl

private theorem goesOn_migration {moving : Bool} {e : Effect MigrationMemory}
    {answer : e.Answer} (hseen : copiedSeen (.step e answer) = true)
    (h : copiedGoesOn (.step e answer) = true) :
    MigrationEngine.endsWhile moving e answer = false := by
  cases e with
  | state call => cases call <;> cases answer <;> first | rfl | cases h
  | client call =>
    cases call with
    | metadata path =>
      cases answer with
      | ok _ => rfl
      | error error =>
        have hfound : error.kind = .notFound := by simpa [copiedGoesOn] using h
        simp [MigrationEngine.endsWhile,hfound]
    | listRecursive path prefixes =>
      cases answer with
      | ok _ => rfl
      | error error =>
        have hfound : error.kind = .notFound := by simpa [copiedGoesOn] using h
        simp [MigrationEngine.endsWhile,hfound]
    | _ => cases answer <;> first | rfl | cases h
  | removeFile path =>
    cases answer with
    | ok _ => rfl
    | error error => simpa [MigrationEngine.endsWhile,copiedSeen,removed] using hseen
  | _ => rfl

private def copiedRun {ε α : Type} (memory : μ)
    (p : ExceptT ε (Prog (Effect μ) Effect.Answer) α) : Except ε α × Traced RemoteDisk μ :=
  (copiedStart memory).play copiedScenario asciiExternals p.run

/-- A run of whose trace something can be said. -/
private theorem exec_copiedRun {ε α : Type} {memory : μ}
    {p : ExceptT ε (Prog (Effect μ) Effect.Answer) α} {good : Happening μ → Bool}
    (h : (copiedRun memory p).2.trace.all good = true) :
    Exec (copiedEnvironment.TraceStep fun _ e answer => good (.step e answer) = true)
      copiedEnvironment.TraceDrift p.run (copiedStart memory) (some (copiedRun memory p).1)
      (copiedRun memory p).2 := by
  have hplay : Exec (copiedEnvironment.TraceStep fun _ _ _ => True) copiedEnvironment.TraceDrift
      p.run (copiedStart memory) (some (copiedRun memory p).1) (copiedRun memory p).2 :=
    Scenario.exec_play copiedScenario_allowed (J := fun _ => True) (fun _ _ _ => trivial)
      (fun _ _ _ => trivial) _ trivial
  refine (Environment.exec_of_trace (C := fun trace => trace.all good = true)
    (fun trace trace' hfront hall => ?_) hplay h).mono fun s e answer s' hstep => ⟨?_,hstep.2⟩
  · obtain ⟨rest,rfl⟩ := hfront
    rw [List.all_append] at hall
    exact (Bool.and_eq_true_iff.mp hall).1
  · have hall : (s.trace ++ [Happening.step e answer]).all good = true := hstep.1
    rw [List.all_append] at hall
    simpa using (Bool.and_eq_true_iff.mp hall).2

private def copiedSync (availableRemoteBytes : Option Nat) :
    Except SyncError RootExecutionResult × Traced RemoteDisk SyncMemory :=
  copiedRun { report := { runId := 1 } } (SyncEngine.executeRoot asciiExternals defaultConfig
    copiedRoot 1 {} copiedOptions "disk:/Backup/r".toList availableRemoteBytes false)

private def copiedMigration :
    Except MigrationError MigrationRootResult × Traced RemoteDisk MigrationMemory :=
  copiedRun { report := { runId := 1 } } (MigrationEngine.executeRoot asciiExternals defaultConfig
    copiedRoot 1 {} copiedOptions "disk:/Backup/r".toList none false)

private def removals (trace : List (Happening μ)) : Nat :=
  trace.countP fun
    | .step (.removeFile _) _ => true
    | _ => false

/-- Either engine uploads the database and removes the copy. -/
theorem copiedDatabase_removed :
    (removals (copiedSync none).2.trace = 1 ∧
      stagingLeft asciiExternals copiedScan (copiedSync none).2.trace = []) ∧
    removals copiedMigration.2.trace = 1 ∧
      stagingLeft asciiExternals copiedScan copiedMigration.2.trace = [] := by
  have hclean := executeRoot_leavesNoCopies copiedEnvironment copiedScan defaultConfig copiedRoot 1
    {} copiedOptions "disk:/Backup/r".toList none false
  have hsync := exec_copiedRun (show (copiedSync none).2.trace.all
    (fun happening => copiedSeen happening && copiedGoesOn happening) = true by decide +kernel)
  have hmigration := exec_copiedRun (show copiedMigration.2.trace.all
    (fun happening => copiedSeen happening && copiedGoesOn happening) = true by decide +kernel)
  refine ⟨⟨by decide +kernel,hclean.1 _ _ _ rfl (hsync.mono fun s e answer s' hstep => ?_)⟩,
    by decide +kernel,hclean.2 _ _ _ rfl (hmigration.mono fun s e answer s' hstep => ?_)⟩
  · obtain ⟨hseen,hgoes⟩ := Bool.and_eq_true_iff.mp hstep.1
    exact ⟨⟨seen_of_copied hseen,losesNone_of_copied hseen,fun hgives =>
      absurd hgives (by simp [goesOn_sync hseen hgoes])⟩,hstep.2⟩
  · obtain ⟨hseen,hgoes⟩ := Bool.and_eq_true_iff.mp hstep.1
    exact ⟨⟨seen_of_copied hseen,losesNone_of_copied hseen,fun hends =>
      absurd hends (by simp [goesOn_migration hseen hgoes])⟩,hstep.2⟩

/-- There is no room for the database: its copy stays behind. -/
theorem copiedDatabase_left : ¬ ∀ (ext : Externals) (quota : QuotaInfo) (scan : StagedScan)
    (config : AppConfig) (root : SyncRootConfig) (runId : Int) (baseSummary : SyncRunSummary)
    (options : ScanOptions) (canonicalRemotePath : Str) (availableRemoteBytes : Option Nat)
    (forceRemoteRescan : Bool),
    LeavesNoCopies (mockEnvironment ext quota fun _ _ => False)
      (fun _ e answer => scan.Seen ext e answer) scan
      (SyncEngine.executeRoot ext config root runId baseSummary options canonicalRemotePath
        availableRemoteBytes forceRemoteRescan).run := by
  intro h
  have hrun := exec_copiedRun (show (copiedSync (some 0)).2.trace.all copiedSeen = true by
    decide +kernel)
  have hleft : stagingLeft asciiExternals copiedScan (copiedSync (some 0)).2.trace ≠ [] := by
    decide +kernel
  exact hleft (h asciiExternals ⟨none,none⟩ copiedScan defaultConfig copiedRoot 1 {} copiedOptions
    "disk:/Backup/r".toList (some 0) false _ _ _ rfl (hrun.mono fun s e answer s' hstep =>
      ⟨seen_of_copied hstep.1,hstep.2⟩))

end Copied

end YaDiskSync
