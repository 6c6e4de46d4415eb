import YaDiskSync.Counters
import YaDiskSync.MigrationEnds

/-! The counters a migration stores. -/
namespace YaDiskSync

open Prog

def MigrationMemory.ledger : Ledger MigrationMemory where
  report memory := memory.report.summary.counts
  root memory := memory.rootSummary.counts

namespace MigrationEngine

/-- What a step of a migration has to meet. -/
abbrev Lossless {ρ : Type} (s : Traced ρ MigrationMemory) (e : Effect MigrationMemory)
    (answer : e.Answer) : Prop :=
  MigrationMemory.ledger.Lossless (fun s => endsWhile (movingRoot s.trace)) s e answer

end MigrationEngine

namespace MigrationCounters

variable {ρ : Type} {env : Environment ρ} {base : Counts} {room : Nat}

abbrev Runs (env : Environment ρ) (P : Traced ρ MigrationMemory → Prop) {ε α : Type}
    (p : ExceptT ε (Prog (Effect MigrationMemory) Effect.Answer) α)
    (Q : α → Traced ρ MigrationMemory → Prop) (D : Traced ρ MigrationMemory → Prop) : Prop :=
  Climbs MigrationEngine.Lossless env P p Q D

abbrev Within (base : Counts) (room : Nat) : Traced ρ MigrationMemory → Prop :=
  MigrationMemory.ledger.Within base room

abbrev Fresh (base : Counts) : Traced ρ MigrationMemory → Prop := MigrationMemory.ledger.Fresh base

abbrev Between : Traced ρ MigrationMemory → Prop := MigrationMemory.ledger.Between

abbrev Lost : Traced ρ MigrationMemory → Prop := MigrationMemory.ledger.Lost

/-- A repository call that stores nothing. -/
theorem state_runs {φ : MigrationMemory → Prop} {bound : MigrationMemory → Counts}
    {D : Traced ρ MigrationMemory → Prop} {call : StateCall}
    (he : (Effect.state call : Effect MigrationMemory).stores = false)
    (herror : ∀ s error s', Told room φ bound s →
      env.TraceStep MigrationEngine.Lossless s (.state call) (.error error) s' → D s') :
    Runs env (Told room φ bound) (MigrationEngine.state call) (fun _ => Told room φ bound) D := by
  refine TryTriple.bind (ask_climbs he herror) fun answer => ?_
  cases answer with
  | ok result => exact TryTriple.pure fun _ h => h
  | error error => exact TryTriple.throw fun _ h => h

section Root

variable (ext : Externals) (config : AppConfig) (root : SyncRootConfig) (runId : Int)
  (baseSummary : SyncRunSummary)

theorem stores_of_isPlain {e : Effect MigrationMemory} (he : MigrationEngine.isPlain e = true) :
    e.stores = false ∧ ∀ f, e ≠ .updateMemory f := by
  cases e with
  | state call => cases call <;> first | exact ⟨rfl,fun _ => by simp⟩ | cases he
  | updateMemory f => cases he
  | _ => exact ⟨rfl,fun _ => by simp⟩

theorem keptPlain_told {φ : MigrationMemory → Prop} {bound : MigrationMemory → Counts}
    (hassign : ∀ f, MigrationEngine.KeepsCounts f → ∀ memory, φ memory →
      φ (f memory) ∧ (bound memory).Grows (bound (f memory))) :
    MigrationEngine.KeptPlain env MigrationEngine.Lossless CountersClimb (Told room φ bound) where
  stable := stable_told
  cut _ h := h.climb
  keep he h hstep := by
    obtain ⟨hstores,hupdate⟩ := stores_of_isPlain he
    exact h.pass (Happening.stored_step hstores _) hupdate hstep
  assign hf h hstep := by
    obtain ⟨hholds,hgrows⟩ := hassign _ hf _ h.holds
    exact h.assign hholds hgrows.1 (by rw [hgrows.2]) hstep

/-- What a root has come to is stored with the base it is counted from. -/
theorem persistRootProgress_runs : Runs env (Within baseSummary.counts room)
    (MigrationEngine.persistRootProgress runId baseSummary)
    (fun _ => Within baseSummary.counts room) Lost := by
  refine TryTriple.bind memory_climbs fun memory => ?_
  refine TryTriple.bind (store_climbs (fun hmemory hlt result runId' counts hs => ?_)
    fun s error s' h hstep => ?_) fun answer => ?_
  · simp only [Happening.stored,Option.ite_none_right_eq_some,Option.some.injEq] at hs
    rw [← hs.2]
    exact counts_addRootSummary (Ledger.Within.total hmemory) hlt
  · exact Ledger.Within.ended h rfl (Happening.stored_error error) (fun _ => by simp) hstep
  · cases answer with
    | ok result => exact TryTriple.pure fun _ h => h
    | error error => exact TryTriple.throw fun _ h => h

/-- An answer that ends the work on a root leaves the counters lost. -/
theorem endRules_within : MigrationEngine.EndRules runId baseSummary env
    MigrationEngine.Lossless CountersClimb (Within baseSummary.counts room) Lost where
  toKeptPlain := keptPlain_told fun _ hf memory h =>
    ⟨⟨h.1,(hf memory).1.trans h.2.1,(hf memory).2.2 ▸ h.2.2⟩,(hf memory).2.add_left _⟩
  lost := keptPlain_told fun _ hf memory h => by
    simp only [MigrationMemory.ledger,(hf memory).1] at h ⊢
    exact ⟨h,.refl _⟩
  ended he hends h hstep := by
    obtain ⟨hstores,hupdate⟩ := stores_of_isPlain he
    exact Ledger.Within.ended h hends (Happening.stored_step hstores _) hupdate hstep
  persist := persistRootProgress_runs runId baseSummary

theorem counts_countUpload {file : LocalFileEntry} (isUpdate : Bool)
    {summary : MigrationRootSummary} (hnonneg : 0 ≤ summary.counts.bytes)
    (hlt : summary.counts.bytes+file.sizeBytes < 2^63) :
    (MigrationEngine.countUpload file isUpdate summary).counts =
      summary.counts+Ledger.uploadCounts isUpdate file.sizeBytes := by
  have hsum : i64Add summary.bytesUploaded (u64ToI64 file.sizeBytes) =
      summary.bytesUploaded+file.sizeBytes := by
    have hbytes : summary.counts.bytes = summary.bytesUploaded := rfl
    rw [u64ToI64_of_lt (by omega)]
    exact i64Add_of_lt (add_nonneg hnonneg (Int.natCast_nonneg _)) hlt
  cases isUpdate <;> simp [MigrationEngine.countUpload,MigrationRootSummary.counts,
    MigrationRootSummary.toSync,RootSyncSummary.counts,Ledger.uploadCounts,hsum]

/-- A finished upload is counted with the bytes there is room for. -/
theorem recordMigrationUploaded_runs (operationId : Int) (file : LocalFileEntry)
    (isUpdate : Bool) :
    Runs env (Within baseSummary.counts file.sizeBytes)
      (MigrationEngine.recordMigrationUploaded root runId baseSummary operationId file isUpdate)
      (fun _ => Within baseSummary.counts 0) Lost := by
  have rules := @endRules_within ρ env file.sizeBytes runId baseSummary
  have hcount : Runs env (Within baseSummary.counts file.sizeBytes)
      (MigrationEngine.modifySummary (MigrationEngine.countUpload file isUpdate))
      (fun _ => Within baseSummary.counts 0) Lost :=
    Ledger.count_climbs isUpdate (fun _ => rfl) fun _ => counts_countUpload isUpdate
  refine TryTriple.bind (rules.call rfl rfl) fun _ =>
    TryTriple.bind (rules.fileStatusAfterUpload file) fun status => ?_
  refine TryTriple.bind (rules.call rfl rfl) fun _ => TryTriple.bind (rules.modifySets _) fun _ => ?_
  refine TryTriple.bind (rules.call rfl rfl) fun _ => TryTriple.bind (rules.call rfl rfl) fun _ => ?_
  exact TryTriple.bind hcount fun _ => persistRootProgress_runs runId baseSummary

theorem joinMigrationUploads_runs (fuel : Nat) (result : MigrationUploadResult) :
    Runs env (Within baseSummary.counts 0)
      (MigrationEngine.joinMigrationUploads root runId baseSummary fuel result)
      (fun _ => Within baseSummary.counts 0) Lost := by
  have rules := @endRules_within ρ env 0 runId baseSummary
  induction fuel generalizing result with
  | zero => exact TryTriple.pure fun _ h => h
  | succ fuel ih =>
    refine TryTriple.bind Ledger.joinNext_climbs fun joined => ?_
    match joined with
    | none => exact TryTriple.pure fun _ h => h
    | some (.created ..) => exact TryTriple.pure fun _ h => h
    | some (.uploaded outcome) =>
      dsimp only
      cases outcome.result with
      | ok _ =>
        exact TryTriple.bind (recordMigrationUploaded_runs root runId baseSummary _ _ _)
          fun _ => ih _
      | error failure =>
        exact TryTriple.bind (rules.recordMigrationUploadFailure root outcome failure)
          fun _ => ih _

theorem call_fresh {call : StateCall}
    (he : (Effect.state call : Effect MigrationMemory).stores = false) :
    Runs env (Fresh base) (MigrationEngine.state call) (fun _ => Fresh base) Lost :=
  state_runs he fun _ error _ h hstep =>
    (Ledger.Fresh.lost h).pass (Happening.stored_error error) (fun _ => by simp) hstep

theorem grows_of_fresh {summary : MigrationRootSummary} (h : summary.counts = 0) (status : Str)
    (scanned : Int) {skipped failed : Int} (hskipped : 0 ≤ skipped) (hfailed : 0 ≤ failed)
    (error : Option Str) :
    (0 : Counts).Grows ({ summary with
      status, scannedFiles := scanned, skippedFiles := skipped, failedFiles := failed
      errorSummary := error } : MigrationRootSummary).counts := by
  simp only [MigrationRootSummary.counts,MigrationRootSummary.toSync,RootSyncSummary.counts,
    Prod.ext_iff,Prod.fst_zero,Prod.snd_zero] at h
  simp [Counts.Grows,Counts.bytes,MigrationRootSummary.counts,MigrationRootSummary.toSync,
    RootSyncSummary.counts,Prod.le_def,h,hskipped,hfailed]

/-- The findings of a scan are the first that is counted for a root. -/
theorem planScan_runs (scanReport : ScanReport) :
    Runs env (Fresh baseSummary.counts)
      (MigrationEngine.planScan root runId baseSummary scanReport)
      (fun _ => Within baseSummary.counts 0) Lost := by
  have rules := @endRules_within ρ env 0 runId baseSummary
  have hfresh : Composable fun ⦃α⦄ (p : Migrator α) =>
      Runs env (Fresh baseSummary.counts) p (fun _ => Fresh baseSummary.counts) Lost :=
    ⟨fun _ => TryTriple.pure fun _ h => h,fun hp hf => TryTriple.bind hp hf⟩
  have hfindings : Runs env (Fresh baseSummary.counts)
      (MigrationEngine.recordScanFindings scanReport)
      (fun _ => Fresh baseSummary.counts) Lost := by
    refine hfresh.bind ?_ fun _ => ?_
    · induction scanReport.skipped with
      | nil => exact hfresh.pure ()
      | cons item items ih => exact hfresh.bind (call_fresh rfl) fun _ => ih
    · induction scanReport.failed with
      | nil => exact hfresh.pure ()
      | cons item items ih => exact hfresh.bind (call_fresh rfl) fun _ => ih
  have hscan : ∀ plan, Runs env (Fresh baseSummary.counts) (MigrationEngine.setScanPlan plan)
      (fun _ => Fresh baseSummary.counts) Lost := fun _ => assign_climbs fun _ h => ⟨h,.refl _⟩
  have hlive : ∀ plan, Runs env (Fresh baseSummary.counts) (MigrationEngine.setLivePlan plan)
      (fun _ => Fresh baseSummary.counts) Lost := fun _ => assign_climbs fun _ h => ⟨h,.refl _⟩
  refine TryTriple.bind hfindings fun _ => ?_
  refine TryTriple.bind (fromScanReport_of hfresh
    (fun path => perform_climbs (e := .isDir path) rfl fun _ => by simp) hscan _ _) fun plan => ?_
  refine TryTriple.bind (hlive plan) fun _ => ?_
  have hcount : Runs env (Fresh baseSummary.counts)
      (MigrationEngine.modifySummary fun summary => { summary with
        scannedFiles := plan.files.length, skippedFiles := scanReport.skipped.length
        failedFiles := scanReport.failed.length })
      (fun _ => Within baseSummary.counts 0) Lost :=
    Ledger.begin_climbs (fun _ => rfl) fun memory hzero =>
      grows_of_fresh hzero memory.rootSummary.status _ (Int.natCast_nonneg _)
        (Int.natCast_nonneg _) _
  refine TryTriple.bind hcount fun _ => ?_
  exact TryTriple.bind (rules.reporting.recordDeletedSubtrees runId plan.deletedSubtrees) fun _ =>
    TryTriple.bind rules.persist fun _ => TryTriple.pure fun _ h => h

theorem executeRoot_runs (options : ScanOptions) (canonicalRemotePath : Str)
    (availableRemoteBytes : Option Nat) (forceRemoteRescan : Bool) :
    Runs env (Fresh baseSummary.counts)
      (MigrationEngine.executeRoot ext config root runId baseSummary options canonicalRemotePath
        availableRemoteBytes forceRemoteRescan) (fun _ => Within baseSummary.counts 0) Lost := by
  have rules := @endRules_within ρ env 0 runId baseSummary
  have hscan : Runs env (Fresh baseSummary.counts) (MigrationEngine.scanRootWithRepository options
      (SyncEngine.scanRootOf root canonicalRemotePath)) (fun _ => Fresh baseSummary.counts)
      Lost := by
    refine TryTriple.bind (perform_climbs rfl fun _ => by simp) fun answer => ?_
    cases answer with
    | ok previousStates => exact perform_climbs rfl fun _ => by simp
    | error error => exact TryTriple.pure fun _ h => h
  refine TryTriple.bind hscan fun answer => ?_
  cases answer with
  | error error =>
    exact TryTriple.bind ((rules.reporting.failRootWith _ _ _ _ _).pre fun _ h => h.within)
      fun _ => TryTriple.pure fun _ h => h
  | ok scanReport =>
    exact rules.executeScanned ext config root rules (rules.cleanupStagingFiles _)
      (joinMigrationUploads_runs root runId baseSummary)
      canonicalRemotePath availableRemoteBytes forceRemoteRescan
      (planScan_runs root runId baseSummary scanReport)

end Root

section Run

variable (ext : Externals) (config : AppConfig) (runId : Int)

theorem isCancelled_between {D : Traced ρ MigrationMemory → Prop} :
    Runs env Between MigrationEngine.isCancelled (fun _ => Between) D :=
  perform_climbs rfl fun _ => by simp

theorem modifyReport_between {D : Traced ρ MigrationMemory → Prop}
    {f : MigrationRunReport → MigrationRunReport}
    (hf : ∀ report, (f report).summary.counts = report.summary.counts) :
    Runs env Between (MigrationEngine.modifyReport f) (fun _ => Between) D :=
  assign_climbs fun memory h => by
    simp only [MigrationMemory.ledger,hf] at h ⊢
    exact ⟨h,.refl _⟩

/-- The report takes over what the root has come to. -/
theorem finishRootSummary_runs :
    Runs env (Within base 0) MigrationEngine.finishRootSummary (fun _ => Between) Lost := by
  refine TryTriple.bind memory_climbs fun memory => assign_read_climbs fun h hlt => ?_
  have hbase : memory.report.summary.counts = base := h.2.1
  have htotal : (addMigrationRootSummary memory.report.summary memory.rootSummary).counts =
      base+memory.rootSummary.counts := by
    rw [← hbase]
    exact counts_addRootSummary (hbase ▸ Ledger.Within.total h) (hbase ▸ hlt)
  simp only [MigrationMemory.ledger,htotal]
  exact ⟨Ledger.Within.total h,.refl _⟩

theorem recordMissingRoot_runs (root : SyncRootConfig) (canonicalRemotePath : Str) :
    Runs env (Fresh base) (MigrationEngine.recordMissingRoot root canonicalRemotePath)
      (fun _ => Within base 0) Lost := by
  have hskip : ∀ paths, Runs env (Fresh base)
      (MigrationEngine.skipLegacyRoots root canonicalRemotePath paths) (fun _ => Fresh base)
      Lost := by
    intro paths
    induction paths with
    | nil => exact TryTriple.pure fun _ h => h
    | cons path paths ih => exact TryTriple.bind (call_fresh rfl) fun _ => ih
  refine TryTriple.bind (call_fresh rfl) fun _ => TryTriple.bind (call_fresh rfl) fun _ =>
    TryTriple.bind (hskip _) fun _ => Ledger.begin_climbs (fun _ => rfl) fun memory hzero => ?_
  have hfailed : 0 ≤ memory.rootSummary.failedFiles := by
    simp only [MigrationMemory.ledger,MigrationRootSummary.counts,MigrationRootSummary.toSync,
      RootSyncSummary.counts,Prod.ext_iff,Prod.fst_zero,Prod.snd_zero] at hzero
    exact hzero.2.2.2.2.1.ge
  exact grows_of_fresh hzero _ memory.rootSummary.scannedFiles (by simp) hfailed _

/-- The counters of a root begin with nothing. -/
abbrev Starting : Traced ρ MigrationMemory → Prop :=
  Told 0 (fun memory => 0 ≤ memory.report.summary.counts.bytes ∧ memory.rootSummary.counts = 0)
    MigrationMemory.ledger.report

theorem fresh_of_starting {s : Traced ρ MigrationMemory} (h : Starting s) :
    Fresh s.world.memory.report.summary.counts s :=
  ⟨⟨h.holds.1,rfl,h.holds.2⟩,h.stored,h.counted,h.fits⟩

theorem executeRunRoot_runs (root : SyncRootConfig) (options : ScanOptions)
    (availableRemoteBytes : Option Nat) (forceRemoteRescan : Bool) :
    Runs env Between (MigrationEngine.executeRunRoot ext config root runId options
      availableRemoteBytes forceRemoteRescan) (fun _ => Between) Lost := by
  unfold MigrationEngine.executeRunRoot
  cases canonicalRemotePath config.instanceConfig.remoteRoot root.localPath
      root.remotePathOverride with
  | error error => exact TryTriple.throw fun _ h => h.lost
  | ok canonical =>
    have hstart : Runs env Between
        (MigrationEngine.perform (.updateMemory (MigrationEngine.startRoot root canonical)))
        (fun _ => Starting) Lost := assign_climbs fun memory h => ⟨⟨h,rfl⟩,.refl _⟩
    refine TryTriple.bind hstart fun _ => ?_
    -- the base of the root is what the report has come to
    have hfresh : ∀ {α : Type} {p : Migrator α} {Q : α → Traced ρ MigrationMemory → Prop},
        (∀ base, Runs env (Fresh base) p Q Lost) → Runs env Starting p Q Lost :=
      fun hp s o s' h hrun =>
        hp (MigrationMemory.ledger.report s.world.memory) s o s' (fresh_of_starting h) hrun
    refine TryTriple.bind (state_runs rfl fun _ error _ h hstep => ?_) fun _ => ?_
    · have hbetween : Between _ := h.weaken h.holds.1 (.refl _) le_rfl
      exact (Ledger.Between.lost hbetween).pass (Happening.stored_error error) (fun _ => by simp)
        hstep
    refine TryTriple.bind (perform_climbs (e := .isDir (pathComponents root.localPath)) rfl
      fun _ => by simp) fun isDir => ?_
    refine iteInduction (motive := fun p => Runs env _ p _ _) (fun _ => ?_) fun _ => ?_
    · refine hfresh fun base => TryTriple.bind (recordMissingRoot_runs root canonical) fun _ => ?_
      exact TryTriple.bind finishRootSummary_runs fun _ => TryTriple.pure fun _ h => h
    · refine TryTriple.bind memory_climbs fun before => ?_
      have hroot : Runs env (Fresh before.report.summary.counts)
          (MigrationEngine.executeRoot ext config root runId before.report.summary options canonical
            availableRemoteBytes forceRemoteRescan)
          (fun _ => Within before.report.summary.counts 0) Lost :=
        executeRoot_runs ext config root runId before.report.summary options canonical _ _
      refine TryTriple.bind (hroot.pre fun s h => ?_) fun result => ?_
      · obtain ⟨hstarting,rfl⟩ := h
        exact fresh_of_starting hstarting
      refine TryTriple.bind finishRootSummary_runs fun _ => ?_
      refine iteInduction (motive := fun p => Runs env _ p _ _) (fun _ => TryTriple.pure fun _ h => h)
        fun _ => ?_
      exact TryTriple.bind isCancelled_between fun _ => TryTriple.pure fun _ h => h

theorem executeRun_runs (forceRemoteRescan : Bool) :
    Runs env Between (MigrationEngine.executeRun ext config runId forceRemoteRescan)
      (fun _ => Between) Lost := by
  have hroots : ∀ options roots available, Runs env Between
      (MigrationEngine.executeRoots ext config runId options forceRemoteRescan roots available)
      (fun _ => Between) Lost := by
    intro options roots
    induction roots with
    | nil => exact fun _ => TryTriple.pure fun _ h => h
    | cons root roots ih =>
      intro available
      refine TryTriple.bind isCancelled_between fun cancelled => ?_
      refine iteInduction (motive := fun p => Runs env _ p _ _)
        (fun _ => modifyReport_between fun _ => rfl) fun _ => ?_
      refine TryTriple.bind (executeRunRoot_runs ext config runId root options available _)
        fun next => ?_
      exact iteInduction (motive := fun p => Runs env _ p _ _) (fun _ => ih _)
        fun _ => TryTriple.pure fun _ h => h
  have havailable : Runs env Between MigrationEngine.availableRemoteBytes (fun _ => Between)
      Lost := by
    refine TryTriple.bind (perform_climbs rfl fun _ => by simp) fun answer => ?_
    cases answer with
    | ok quota => exact TryTriple.pure fun _ h => h
    | error error =>
      exact TryTriple.bind (modifyReport_between fun _ => rfl) fun _ => TryTriple.pure fun _ h => h
  exact TryTriple.bind havailable fun _ => hroots _ _ _

/-- A failed execution is counted as one failure. -/
theorem concludeRun_runs (execution : Except MigrationError Unit) :
    Runs env (match execution with
      | .ok _ => Between
      | .error _ => Lost) (MigrationEngine.concludeRun execution) (fun _ => Between)
      CountersClimb := by
  cases execution with
  | error error =>
    refine assign_climbs fun memory h => ⟨h,?_⟩
    have hcounts : memory.report.summary.counts+oneFailure =
        ({ memory.report.summary with
          failedFiles := memory.report.summary.failedFiles+1 } : SyncRunSummary).counts := by
      simp [SyncRunSummary.counts,oneFailure]
    simp only [MigrationMemory.ledger,hcounts]
    exact .refl _
  | ok _ =>
    refine TryTriple.bind isCancelled_between fun cancelled => ?_
    exact iteInduction (motive := fun p => Runs env _ p _ _)
      (fun _ => modifyReport_between fun _ => rfl) fun _ => modifyReport_between fun _ => rfl

theorem closeRun_runs (guard : RunLockGuard) :
    Runs env Between (MigrationEngine.closeRun runId guard) (fun _ => CountersClimb)
      CountersClimb := by
  refine TryTriple.bind memory_climbs fun memory => ?_
  have hfinish : Runs env (fun s => Between s ∧ s.world.memory = memory)
      (MigrationEngine.perform
        (.state (.finishRun runId memory.report.status memory.report.summary)))
      (fun _ => Between) CountersClimb := by
    refine (store_climbs (fun _ _ result runId' counts hs => ?_) fun s error s' h hstep =>
      h.pass (Happening.stored_error error) (fun _ => by simp) hstep).weaken (fun _ h => h)
        (fun answer s h => ?_) (fun _ h => h.climb) fun _ h => h
    · simp only [Happening.stored,Option.ite_none_right_eq_some,Option.some.injEq] at hs
      exact hs.2.symm
    · cases answer with
      | ok _ => exact h
      | error _ => exact h
  refine TryTriple.bind hfinish fun finished => ?_
  refine TryTriple.bind (perform_climbs rfl fun _ => by simp) fun released => ?_
  cases finished with
  | error error => exact TryTriple.throw fun _ h => h.climb
  | ok _ =>
    cases released with
    | error error => exact TryTriple.throw fun _ h => h.climb
    | ok _ => exact TryTriple.pure fun _ h => h.climb

theorem runLocked_runs (forceRemoteRescan : Bool) (guard : RunLockGuard) :
    Runs env Ledger.Untold (MigrationEngine.runLocked ext config forceRemoteRescan guard)
      (fun _ => CountersClimb) CountersClimb := by
  have hcall : ∀ call : StateCall, (Effect.state call : Effect MigrationMemory).stores = false →
      Runs env Ledger.Untold (MigrationEngine.state call) (fun _ => Ledger.Untold)
        CountersClimb := by
    intro call he
    refine TryTriple.bind (perform_untold he) fun answer => ?_
    cases answer with
    | ok result => exact TryTriple.pure fun _ h => h
    | error error => exact TryTriple.throw fun _ h => h.climb
  refine TryTriple.bind (hcall _ rfl) fun _ => TryTriple.bind (hcall _ rfl) fun runId => ?_
  have hstart : Runs env Ledger.Untold (MigrationEngine.perform (.updateMemory fun _ =>
      { report := { runId } })) (fun _ => Between) CountersClimb :=
    TryTriple.perform Ledger.stable_untold (fun _ h => h.climb) fun _ _ _ h hstep =>
      h.between rfl (by rw [hstep.2.1.memory_update]; rfl) hstep
  refine TryTriple.bind hstart fun _ => ?_
  refine TryTriple.bind (TryTriple.catch (executeRun_runs ext config runId _)) fun execution => ?_
  exact TryTriple.bind ((concludeRun_runs execution).pre fun s h => by cases execution <;> exact h)
    fun _ => closeRun_runs runId guard

/-- No component of the counters a migration stores ever decreases. -/
theorem runOnce_climbs (options : MigrationEngine.MigrationRunOptions) :
    Runs env Ledger.Untold (MigrationEngine.runOnce ext config options) (fun _ => CountersClimb)
      CountersClimb := by
  have hk : Sequential fun ⦃α⦄ (p : Migrator α) =>
      Runs env Ledger.Untold p (fun _ => Ledger.Untold) CountersClimb :=
    sequential_try fun _ h => h.climb
  have hlock : Sequential fun ⦃α⦄ (p : Locking MigrationMemory α) =>
      Runs env Ledger.Untold p (fun _ => Ledger.Untold) Ledger.Untold :=
    sequential_try fun _ h => h
  have hvalid : Runs env Ledger.Untold (MigrationEngine.ensureValidConfig ext config)
      (fun _ => Ledger.Untold) CountersClimb :=
    iteInduction (motive := fun p => Runs env Ledger.Untold p (fun _ => Ledger.Untold)
      CountersClimb) (fun _ => hk.pure _) fun _ => hk.throw _
  have hacquire : Runs env Ledger.Untold
      (MigrationEngine.acquireRunLock options.lockOwner options.staleLockAfter)
      (fun _ => Ledger.Untold) CountersClimb := by
    have htake : Runs env Ledger.Untold (RunLock.tryAcquireRunLock options.lockOwner
        options.staleLockAfter : Locking MigrationMemory (Option RunLockGuard))
        (fun _ => Ledger.Untold) Ledger.Untold :=
      RunLock.tryAcquireRunLock_of hlock (perform_untold rfl) (fun _ => perform_untold rfl)
        fun _ _ => perform_untold rfl
    refine htake.catch.post fun result s h => ?_
    cases result with
    | ok _ => exact h
    | error _ => exact h
  refine TryTriple.bind hvalid fun _ => TryTriple.bind hacquire fun acquired => ?_
  match acquired with
  | .error error => exact TryTriple.throw fun _ h => h.climb
  | .ok none => exact TryTriple.throw fun _ h => h.climb
  | .ok (some guard) => exact runLocked_runs ext config _ guard

end Run

end MigrationCounters

end YaDiskSync
