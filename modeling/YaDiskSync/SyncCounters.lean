import YaDiskSync.Counters
import YaDiskSync.RunFrame

/-! The counters a sync run stores. -/
namespace YaDiskSync

open Prog

def SyncMemory.ledger : Ledger SyncMemory where
  report memory := memory.report.summary.counts
  root memory := memory.rootSummary.counts

/-- Calls whose errors the inventory of a root keeps to itself. -/
def StateCall.isInventory : StateCall → Bool
  | .getRootRemoteInventoryStatus _ | .listRemoteResourcesForRoot _
  | .replaceRemoteResourcesForRoot .. => true
  | .setRootRemoteInventoryStatus status => status.isComplete
  | _ => false

/-- The answers that end the work on a root of a sync run by an error. -/
def SyncEngine.endsRoot {ρ : Type} (_ : Traced ρ SyncMemory) : (e : Effect SyncMemory) →
    e.Answer → Bool
  | .state call, .error _ => !call.isInventory
  | .removeFile _, .error error => error.kind != .notFound
  | _, _ => false

/-- What a step of a sync run has to meet. -/
abbrev SyncEngine.Lossless {ρ : Type} (s : Traced ρ SyncMemory) (e : Effect SyncMemory)
    (answer : e.Answer) : Prop :=
  SyncMemory.ledger.Lossless SyncEngine.endsRoot s e answer

namespace SyncCounters

variable {ρ : Type} {env : Environment ρ} {base : Counts} {room : Nat}

abbrev Runs (env : Environment ρ) (P : Traced ρ SyncMemory → Prop) {ε α : Type}
    (p : ExceptT ε (Prog (Effect SyncMemory) Effect.Answer) α)
    (Q : α → Traced ρ SyncMemory → Prop) (D : Traced ρ SyncMemory → Prop) : Prop :=
  Climbs SyncEngine.Lossless env P p Q D

abbrev Within (base : Counts) (room : Nat) : Traced ρ SyncMemory → Prop :=
  SyncMemory.ledger.Within base room

abbrev Lost : Traced ρ SyncMemory → Prop := SyncMemory.ledger.Lost

/-- A repository call that stores nothing. -/
theorem state_runs {φ : SyncMemory → Prop} {bound : SyncMemory → Counts}
    {D : Traced ρ SyncMemory → Prop} {call : StateCall}
    (he : (Effect.state call : Effect SyncMemory).stores = false)
    (herror : ∀ s error s', Told room φ bound s →
      env.TraceStep SyncEngine.Lossless s (.state call) (.error error) s' → D s') :
    Runs env (Told room φ bound) (SyncEngine.state call) (fun _ => Told room φ bound) D := by
  refine TryTriple.bind (ask_climbs he herror) fun answer => ?_
  cases answer with
  | ok result => exact TryTriple.pure fun _ h => h
  | error error => exact TryTriple.throw fun _ h => h

section Root

/-- Properties of programs that work on a root. -/
abbrev Works (env : Environment ρ) (base : Counts) (room : Nat) ⦃α : Type⦄ (p : Engine α) : Prop :=
  Runs env (Within base room) p (fun _ => Within base room) Lost

theorem call_works {call : StateCall}
    (he : (Effect.state call : Effect SyncMemory).stores = false)
    (hinventory : call.isInventory = false) : Works env base room (SyncEngine.state call) :=
  state_runs he fun _ error _ h hstep =>
    Ledger.Within.ended h (by simp [SyncEngine.endsRoot,hinventory]) (Happening.stored_error error)
      (fun _ => by simp) hstep

theorem modifySummary_works {f : RootSyncSummary → RootSyncSummary} (hf : SyncEngine.Grows f) :
    Works env base room (SyncEngine.modifySummary f) :=
  assign_climbs fun memory h =>
    ⟨⟨h.1,h.2.1,(hf memory.rootSummary).2 ▸ h.2.2⟩,(hf memory.rootSummary).add_left base⟩

theorem assign_works {f : SyncMemory → SyncMemory}
    (hreport : ∀ memory, (f memory).report.summary.counts = memory.report.summary.counts)
    (hroot : ∀ memory, (f memory).rootSummary = memory.rootSummary) :
    Works env base room (SyncEngine.perform (.updateMemory f)) :=
  assign_climbs fun memory h => by
    simp only [SyncMemory.ledger,hroot,hreport] at h ⊢
    exact ⟨h,.refl _⟩

/-- What a root has come to is stored with the base it is counted from. -/
theorem persistRootProgress_works (runId : Int) (baseSummary : SyncRunSummary) :
    Works env baseSummary.counts room (SyncEngine.persistRootProgress runId baseSummary) := by
  refine TryTriple.bind memory_climbs fun memory => ?_
  refine TryTriple.bind (store_climbs (fun hmemory hlt result runId' counts hs => ?_)
    fun s error s' h hstep => ?_) fun answer => ?_
  · simp only [Happening.stored,Option.ite_none_right_eq_some,Option.some.injEq] at hs
    rw [← hs.2]
    exact counts_addRootSummary (Ledger.Within.total hmemory) hlt
  · exact Ledger.Within.ended h rfl (Happening.stored_error error) (fun _ => by simp) hstep
  · cases answer with
    | ok result => exact TryTriple.pure fun _ h => h
    | error error => exact TryTriple.throw fun _ h => h

theorem cleanupStagingFiles_works (files : List LocalFileEntry) :
    Works env base room (SyncEngine.cleanupStagingFiles files) := by
  induction files with
  | nil => exact TryTriple.pure fun _ h => h
  | cons file files ih =>
    unfold SyncEngine.cleanupStagingFiles
    cases file.sqliteBackupStagingPath with
    | none => exact ih
    | some path =>
      have hremove : Runs env (Within base room) (SyncEngine.perform (.removeFile path))
          (fun answer s => (∀ error, answer = .error error → error.kind ≠ .notFound → Lost s) ∧
            Within base room s) Lost := by
        refine TryTriple.perform stable_told (fun _ h => h.climb) fun s answer s' h hstep =>
          ⟨fun error he hkind => ?_,h.pass (fun _ => rfl) (fun _ => by simp) hstep⟩
        subst he
        exact Ledger.Within.ended h (by simpa [SyncEngine.endsRoot] using hkind) (fun _ => rfl)
          (fun _ => by simp) hstep
      refine TryTriple.bind hremove fun answer => ?_
      cases answer with
      | ok _ => exact ih.pre fun _ h => h.2
      | error error =>
        exact iteInduction (motive := fun p => Runs env _ p _ _) (fun _ => ih.pre fun _ h => h.2)
          fun hne => TryTriple.throw fun _ h => h.1 error rfl hne

theorem reporting_works : SyncEngine.Reporting (Works env base room) where
  pure _ := TryTriple.pure fun _ h => h
  bind hp hf := TryTriple.bind hp hf
  report {call} h := call_works (by cases call <;> first | rfl | cases h)
    (by cases call <;> first | rfl | cases h)
  readMemory := perform_climbs rfl fun _ => by simp
  modifySummary _ hf := modifySummary_works hf
  isCancelled := perform_climbs rfl fun _ => by simp

theorem quiet_works (runId : Int) (baseSummary : SyncRunSummary) :
    SyncEngine.Quiet runId baseSummary (Works env baseSummary.counts room) where
  toReporting := reporting_works
  state {call} h := call_works (by cases call <;> first | rfl | cases h)
    (by cases call <;> first | rfl | cases h)
  persistRootProgress := persistRootProgress_works runId baseSummary
  cleanupStagingFiles := cleanupStagingFiles_works
  fileMetadata _ := perform_climbs rfl fun _ => by simp

theorem register_works (localPath : LocalPath) (relativePath remotePath : Str) :
    Works env base room (SyncEngine.registerMissingLocalPath localPath relativePath remotePath) := by
  have hk : SyncEngine.Reporting (Works env base room) := reporting_works
  refine hk.bind hk.livePlan fun plan => ?_
  refine hk.bind (registerMissingLocalPath_of hk.toComposable
    (fun _ => perform_climbs rfl fun _ => by simp) (fun _ => perform_climbs rfl fun _ => by simp)
    plan localPath relativePath remotePath) fun result => ?_
  exact hk.bind (assign_works (fun _ => rfl) fun _ => rfl) fun _ => hk.pure _

theorem phases_works (runId : Int) (baseSummary : SyncRunSummary) :
    SyncEngine.Phases runId baseSummary (Works env baseSummary.counts room) where
  toQuiet := quiet_works runId baseSummary
  register := register_works
  spawn _ := perform_climbs rfl fun _ => by simp
  joinNext := perform_climbs rfl fun _ => by simp
  dropTasks := perform_climbs rfl fun _ => by simp
  upsertDirectoryState _ := call_works rfl rfl
  upsertFileState _ := call_works rfl rfl
  upsertRemoteResource _ := call_works rfl rfl

theorem counts_countUpload {file : LocalFileEntry} (isUpdate : Bool) {summary : RootSyncSummary}
    (hnonneg : 0 ≤ summary.counts.bytes) (hlt : summary.counts.bytes+file.sizeBytes < 2^63) :
    (SyncEngine.countUpload file isUpdate summary).counts =
      summary.counts+Ledger.uploadCounts isUpdate file.sizeBytes := by
  have hsum : i64Add summary.bytesUploaded (u64ToI64 file.sizeBytes) =
      summary.bytesUploaded+file.sizeBytes := by
    rw [u64ToI64_of_lt (by omega)]
    exact i64Add_of_lt (add_nonneg hnonneg (Int.natCast_nonneg _)) hlt
  cases isUpdate <;>
    simp [SyncEngine.countUpload,RootSyncSummary.counts,Ledger.uploadCounts,hsum]

/-- A finished upload is counted with the bytes there is room for. -/
theorem countUpload_runs (file : LocalFileEntry) (isUpdate : Bool) :
    Runs env (Within base file.sizeBytes)
      (SyncEngine.modifySummary (SyncEngine.countUpload file isUpdate))
      (fun _ => Within base 0) Lost :=
  Ledger.count_climbs isUpdate (fun _ => rfl) fun _ => counts_countUpload isUpdate

variable (ext : Externals) (config : AppConfig) (root : SyncRootConfig) (runId : Int)
  (baseSummary : SyncRunSummary)

theorem applyDeletes_works (canonicalRemotePath : Str) (inventory : Inventory)
    (inventoryFromCache : Bool) :
    Works env baseSummary.counts 0 (SyncEngine.applyDeletes root runId baseSummary
      canonicalRemotePath inventory inventoryFromCache) := by
  have hk : SyncEngine.Quiet runId baseSummary (Works env baseSummary.counts 0) :=
    quiet_works runId baseSummary
  refine hk.bind hk.livePlan fun plan => ?_
  refine SyncEngine.deleteEach_of hk root inventoryFromCache _ fun delete _ => ?_
  refine SyncEngine.applyDelete_of hk root (perform_climbs rfl fun _ => by simp)
    (perform_climbs rfl fun _ => by simp) (fun operationId => ?_) (call_works rfl rfl)
      inventoryFromCache
  exact SyncEngine.recordDeleted_of hk (fun _ => ⟨call_works rfl rfl,call_works rfl rfl⟩)
    (fun _ _ => call_works rfl rfl) operationId delete

/-- An upload that has finished is counted before the next one is looked at. -/
theorem recordUploaded_runs (operationId : Int) (file : LocalFileEntry) (isUpdate : Bool) :
    Runs env (Within baseSummary.counts file.sizeBytes)
      (SyncEngine.recordUploaded runId baseSummary operationId file isUpdate)
      (fun _ => Within baseSummary.counts 0) Lost := by
  have hk : SyncEngine.Quiet runId baseSummary (Works env baseSummary.counts file.sizeBytes) :=
    quiet_works runId baseSummary
  refine TryTriple.bind (hk.state rfl) fun _ =>
    TryTriple.bind (SyncEngine.fileStatusAfterUpload_of hk file) fun status => ?_
  refine TryTriple.bind (call_works rfl rfl) fun _ => TryTriple.bind (call_works rfl rfl) fun _ => ?_
  exact TryTriple.bind (countUpload_runs file isUpdate) fun _ =>
    persistRootProgress_works runId baseSummary

theorem joinUploads_works (fuel bytesUploaded : Nat) :
    Works env baseSummary.counts 0
      (SyncEngine.joinUploads root runId baseSummary fuel bytesUploaded) := by
  have hp : SyncEngine.Phases runId baseSummary (Works env baseSummary.counts 0) :=
    phases_works runId baseSummary
  induction fuel generalizing bytesUploaded with
  | zero => exact hp.pure _
  | succ fuel ih =>
    refine TryTriple.bind Ledger.joinNext_climbs fun joined => ?_
    match joined with
    | none => exact hp.pure _
    | some (.created ..) => exact hp.pure _
    | some (.uploaded outcome) =>
      dsimp only
      cases outcome.result with
      | ok _ => exact TryTriple.bind (recordUploaded_runs runId baseSummary _ _ _) fun _ => ih _
      | error failure =>
        refine hp.bind (hp.recordUploadFailure root outcome failure) fun stop => ?_
        cases stop with
        | true => exact hp.bind hp.dropTasks fun _ => hp.pure _
        | false => exact ih _

theorem remoteInventory_works (canonicalRemotePath : Str) (plan : LiveScanPlan)
    (forceRemoteRescan : Bool) :
    Works env base room (liftM (SyncEngine.remoteInventory config root canonicalRemotePath plan
      forceRemoteRescan).run : Engine (Except YandexDiskError RemoteInventorySnapshot)) := by
  have hask : ∀ e : Effect SyncMemory, e.stores = false → (∀ f, e ≠ .updateMemory f) →
      Runs env (Within base room) (SyncEngine.ask e) (fun _ => Within base room)
        (Within base room) :=
    fun _ he hassign => perform_climbs he hassign
  have hcalls : SyncEngine.InventoryCalls fun ⦃α⦄ (p : SyncEngine.Inventorying α) =>
      Runs env (Within base room) p (fun _ => Within base room) (Within base room) := {
    toSequential := sequential_try fun _ h => h
    now := hask _ rfl fun _ => by simp
    status := fun _ => hask _ rfl fun _ => by simp
    cached := fun _ => hask _ rfl fun _ => by simp
    metadata := fun _ => hask _ rfl fun _ => by simp
    list := fun _ _ => hask _ rfl fun _ => by simp
    replace := fun _ _ => hask _ rfl fun _ => by simp
    setStatus := fun _ => hask _ rfl fun _ => by simp }
  refine (TryTriple.catch (SyncEngine.remoteInventory_of hcalls config root canonicalRemotePath
    plan forceRemoteRescan)).post fun answer s h => ?_
  cases answer with
  | ok _ => exact h
  | error _ => exact h

theorem call_fresh {call : StateCall}
    (he : (Effect.state call : Effect SyncMemory).stores = false) :
    Runs env (SyncMemory.ledger.Fresh base) (SyncEngine.state call)
      (fun _ => SyncMemory.ledger.Fresh base) Lost :=
  state_runs he fun _ error _ h hstep =>
    (Ledger.Fresh.lost h).pass (Happening.stored_error error) (fun _ => by simp) hstep

theorem grows_of_fresh {summary : RootSyncSummary} (h : summary.counts = 0) (status : Str)
    (scanned : Int) {skipped failed : Int} (hskipped : 0 ≤ skipped) (hfailed : 0 ≤ failed)
    (error : Option Str) :
    (0 : Counts).Grows ({ summary with
      status, scannedFiles := scanned, skippedFiles := skipped, failedFiles := failed
      errorSummary := error } : RootSyncSummary).counts := by
  simp only [RootSyncSummary.counts,Prod.ext_iff,Prod.fst_zero,Prod.snd_zero] at h
  simp [Counts.Grows,Counts.bytes,RootSyncSummary.counts,Prod.le_def,h,hskipped,hfailed]

/-- The findings of a scan are the first that is counted for a root. -/
theorem planScan_works (scanReport : ScanReport) :
    Runs env (SyncMemory.ledger.Fresh baseSummary.counts)
      (SyncEngine.planScan root runId baseSummary scanReport)
      (fun _ => Within baseSummary.counts 0) Lost := by
  have hk : SyncEngine.Quiet runId baseSummary (Works env baseSummary.counts 0) :=
    quiet_works runId baseSummary
  have hcomposable : Composable fun ⦃α⦄ (p : Engine α) =>
      Runs env (SyncMemory.ledger.Fresh baseSummary.counts) p
        (fun _ => SyncMemory.ledger.Fresh baseSummary.counts) Lost :=
    ⟨fun _ => TryTriple.pure fun _ h => h,fun hp hf => TryTriple.bind hp hf⟩
  have hfindings : Runs env (SyncMemory.ledger.Fresh baseSummary.counts)
      (SyncEngine.recordScanFindings scanReport)
      (fun _ => SyncMemory.ledger.Fresh baseSummary.counts) Lost := by
    refine hcomposable.bind ?_ fun _ => ?_
    · induction scanReport.skipped with
      | nil => exact hcomposable.pure ()
      | cons item items ih => exact hcomposable.bind (call_fresh rfl) fun _ => ih
    · induction scanReport.failed with
      | nil => exact hcomposable.pure ()
      | cons item items ih => exact hcomposable.bind (call_fresh rfl) fun _ => ih
  refine TryTriple.bind hfindings fun _ => ?_
  have hscan : ∀ plan, Runs env (SyncMemory.ledger.Fresh baseSummary.counts)
      (SyncEngine.setScanPlan plan) (fun _ => SyncMemory.ledger.Fresh baseSummary.counts) Lost :=
    fun _ => assign_climbs fun _ h => ⟨h,.refl _⟩
  have hlive : ∀ plan, Runs env (SyncMemory.ledger.Fresh baseSummary.counts)
      (SyncEngine.setLivePlan plan) (fun _ => SyncMemory.ledger.Fresh baseSummary.counts) Lost :=
    fun _ => assign_climbs fun _ h => ⟨h,.refl _⟩
  refine TryTriple.bind (fromScanReport_of hcomposable
    (fun path => perform_climbs (e := .isDir path) rfl fun _ => by simp) hscan _ _) fun plan => ?_
  refine TryTriple.bind (hlive plan) fun _ => ?_
  have hcount : Runs env (SyncMemory.ledger.Fresh baseSummary.counts)
      (SyncEngine.modifySummary fun summary => { summary with
        scannedFiles := plan.files.length, skippedFiles := scanReport.skipped.length
        failedFiles := scanReport.failed.length })
      (fun _ => Within baseSummary.counts 0) Lost := by
    exact Ledger.begin_climbs (fun _ => rfl) fun memory hzero =>
      grows_of_fresh hzero memory.rootSummary.status _ (Int.natCast_nonneg _)
        (Int.natCast_nonneg _) _
  refine TryTriple.bind hcount fun _ => ?_
  exact hk.bind (hk.recordDeletedSubtrees runId plan.deletedSubtrees) fun _ =>
    hk.bind hk.persistRootProgress fun _ => hk.pure _

theorem executeScanned_works (canonicalRemotePath : Str) (scanReport : ScanReport)
    (availableRemoteBytes : Option Nat) (forceRemoteRescan : Bool) :
    Runs env (SyncMemory.ledger.Fresh baseSummary.counts)
      (SyncEngine.executeScanned ext config root runId baseSummary canonicalRemotePath scanReport
        availableRemoteBytes forceRemoteRescan) (fun _ => Within baseSummary.counts 0) Lost := by
  have hp : SyncEngine.Phases runId baseSummary (Works env baseSummary.counts 0) :=
    phases_works runId baseSummary
  refine TryTriple.bind (planScan_works root runId baseSummary scanReport) fun plan => ?_
  cases localRemoteCollision plan.directories plan.files with
  | some message => exact hp.bind (hp.failRootWith _ _ _ _ _) fun _ => hp.pure _
  | none =>
    refine hp.bind (remoteInventory_works config root canonicalRemotePath plan forceRemoteRescan)
      fun answer => ?_
    exact SyncEngine.executeInventory_of hp.toQuiet ext config root (fun _ => call_works rfl rfl)
      (fun snapshot => SyncEngine.applyPlan_of hp.toQuiet config root
        (hp.applyCreateDirectories config root _)
        (hp.applyUploads_of_join config root _ fun _ _ => joinUploads_works root runId baseSummary _ _)
        (applyDeletes_works root runId baseSummary _ _ _) scanReport)
      (fun _ hf => assign_works (fun memory => hf memory.report) fun _ => rfl) availableRemoteBytes
      answer

theorem executeRoot_works (options : ScanOptions) (canonicalRemotePath : Str)
    (availableRemoteBytes : Option Nat) (forceRemoteRescan : Bool) :
    Runs env (SyncMemory.ledger.Fresh baseSummary.counts)
      (SyncEngine.executeRoot ext config root runId baseSummary options canonicalRemotePath
        availableRemoteBytes forceRemoteRescan) (fun _ => Within baseSummary.counts 0) Lost := by
  have hk : SyncEngine.Reporting (Works env baseSummary.counts 0) := reporting_works
  have hscan : Runs env (SyncMemory.ledger.Fresh baseSummary.counts)
      (SyncEngine.scanRootWithRepository options (SyncEngine.scanRootOf root canonicalRemotePath))
      (fun _ => SyncMemory.ledger.Fresh baseSummary.counts) Lost := by
    refine TryTriple.bind (perform_climbs rfl fun _ => by simp) fun answer => ?_
    cases answer with
    | ok previousStates => exact perform_climbs rfl fun _ => by simp
    | error error => exact TryTriple.pure fun _ h => h
  refine TryTriple.bind hscan fun answer => ?_
  cases answer with
  | error error =>
    exact TryTriple.bind ((hk.failRootWith _ _ _ _ _).pre fun _ h => h.within) fun _ => hk.pure _
  | ok scanReport =>
    exact executeScanned_works ext config root runId baseSummary canonicalRemotePath scanReport
      availableRemoteBytes forceRemoteRescan

end Root

section Run

variable (ext : Externals) (config : AppConfig) (runId : Int)

abbrev Between : Traced ρ SyncMemory → Prop := SyncMemory.ledger.Between

theorem call_between {call : StateCall}
    (he : (Effect.state call : Effect SyncMemory).stores = false) :
    Runs env Between (SyncEngine.state call) (fun _ => Between) Lost :=
  state_runs he fun _ error _ h hstep =>
    (Ledger.Between.lost h).keep (Happening.stored_error error) (fun f hf => by cases hf) hstep

theorem isCancelled_between {D : Traced ρ SyncMemory → Prop} :
    Runs env Between SyncEngine.isCancelled (fun _ => Between) D :=
  perform_climbs rfl fun _ => by simp

theorem modifyReport_between {D : Traced ρ SyncMemory → Prop} {f : SyncRunReport → SyncRunReport}
    (hf : ∀ report, (f report).summary.counts = report.summary.counts) :
    Runs env Between (SyncEngine.modifyReport f) (fun _ => Between) D :=
  assign_climbs fun memory h => by
    simp only [SyncMemory.ledger,hf] at h ⊢
    exact ⟨h,.refl _⟩

/-- The report takes over what the root has come to. -/
theorem finishRootSummary_runs :
    Runs env (Within base 0) SyncEngine.finishRootSummary (fun _ => Between) Lost := by
  refine TryTriple.bind memory_climbs fun memory => assign_read_climbs fun h hlt => ?_
  have hbase : memory.report.summary.counts = base := h.2.1
  have htotal : (addRootSummary memory.report.summary memory.rootSummary).counts =
      base+memory.rootSummary.counts := by
    rw [← hbase]
    exact counts_addRootSummary (hbase ▸ Ledger.Within.total h) (hbase ▸ hlt)
  simp only [SyncMemory.ledger,htotal]
  exact ⟨Ledger.Within.total h,.refl _⟩

theorem recordMissingRoot_runs (root : SyncRootConfig) (canonicalRemotePath : Str) :
    Runs env (SyncMemory.ledger.Fresh base)
      (SyncEngine.recordMissingRoot root canonicalRemotePath) (fun _ => Within base 0) Lost := by
  refine TryTriple.bind (call_fresh rfl) fun _ => TryTriple.bind (call_fresh rfl) fun _ => ?_
  refine Ledger.begin_climbs (fun _ => rfl) fun memory hzero => ?_
  have hfailed : 0 ≤ memory.rootSummary.failedFiles := by
    simp only [SyncMemory.ledger,RootSyncSummary.counts,Prod.ext_iff,Prod.fst_zero,
      Prod.snd_zero] at hzero
    exact hzero.2.2.2.2.1.ge
  exact grows_of_fresh hzero _ memory.rootSummary.scannedFiles (by simp) hfailed _

/-- The counters of a root begin with nothing. -/
abbrev Starting : Traced ρ SyncMemory → Prop :=
  Told 0 (fun memory => 0 ≤ memory.report.summary.counts.bytes ∧ memory.rootSummary.counts = 0)
    SyncMemory.ledger.report

theorem fresh_of_starting {s : Traced ρ SyncMemory} (h : Starting s) :
    SyncMemory.ledger.Fresh s.world.memory.report.summary.counts s :=
  ⟨⟨h.holds.1,rfl,h.holds.2⟩,h.stored,h.counted,h.fits⟩

theorem executeRunRoot_runs (root : SyncRootConfig) (options : ScanOptions)
    (availableRemoteBytes : Option Nat) (forceRemoteRescan : Bool) :
    Runs env Between (SyncEngine.executeRunRoot ext config root runId options availableRemoteBytes
      forceRemoteRescan) (fun _ => Between) Lost := by
  unfold SyncEngine.executeRunRoot
  cases canonicalRemotePath config.instanceConfig.remoteRoot root.localPath
      root.remotePathOverride with
  | error error => exact TryTriple.throw fun _ h => h.lost
  | ok canonical =>
    refine TryTriple.bind (call_between rfl) fun _ => ?_
    have hstart : Runs env Between (SyncEngine.perform (.updateMemory fun memory => { memory with
        rootSummary := SyncEngine.initialRootSummary root canonical, scanPlan := none
        livePlan := none }))
        (fun _ => Starting) Lost := assign_climbs fun memory h => ⟨⟨h,rfl⟩,.refl _⟩
    refine TryTriple.bind hstart fun _ => ?_
    refine TryTriple.bind (perform_climbs (e := .isDir (pathComponents root.localPath)) rfl
      fun _ => by simp) fun isDir => ?_
    -- the base of the root is what the report has come to
    have hfresh : ∀ {α : Type} {p : Engine α} {Q : α → Traced ρ SyncMemory → Prop},
        (∀ base, Runs env (SyncMemory.ledger.Fresh base) p Q Lost) →
          Runs env Starting p Q Lost := fun hp s o s' h hrun =>
      hp (SyncMemory.ledger.report s.world.memory) s o s' (fresh_of_starting h) hrun
    refine iteInduction (motive := fun p => Runs env _ p _ _) (fun _ => ?_) fun _ => ?_
    · refine hfresh fun base => TryTriple.bind (recordMissingRoot_runs root canonical) fun _ => ?_
      exact TryTriple.bind finishRootSummary_runs fun _ => TryTriple.pure fun _ h => h
    · refine TryTriple.bind memory_climbs fun before => ?_
      have hroot : Runs env (SyncMemory.ledger.Fresh before.report.summary.counts)
          (SyncEngine.executeRoot ext config root runId before.report.summary options canonical
            availableRemoteBytes forceRemoteRescan)
          (fun _ => Within before.report.summary.counts 0) Lost :=
        executeRoot_works ext config root runId before.report.summary options canonical
          availableRemoteBytes forceRemoteRescan
      refine TryTriple.bind (hroot.pre fun s h => ?_) fun result => ?_
      · obtain ⟨hstarting,rfl⟩ := h
        exact fresh_of_starting hstarting
      refine TryTriple.bind finishRootSummary_runs fun _ => ?_
      refine iteInduction (motive := fun p => Runs env _ p _ _) (fun _ => TryTriple.pure fun _ h => h)
        fun _ => ?_
      exact TryTriple.bind isCancelled_between fun _ => TryTriple.pure fun _ h => h

theorem executeRun_runs (forceRemoteRescan : Bool) :
    Runs env Between (SyncEngine.executeRun ext config runId forceRemoteRescan)
      (fun _ => Between) Lost := by
  have hroots : ∀ options roots available, Runs env Between
      (SyncEngine.executeRoots ext config runId options forceRemoteRescan roots available)
      (fun _ => Between) Lost := by
    intro options roots
    induction roots with
    | nil => exact fun _ => TryTriple.pure fun _ h => h
    | cons root roots ih =>
      intro available
      refine TryTriple.bind isCancelled_between fun cancelled => ?_
      refine iteInduction (motive := fun p => Runs env _ p _ _)
        (fun _ => modifyReport_between fun _ => rfl) fun _ => ?_
      refine TryTriple.bind (executeRunRoot_runs ext config runId root options available _)
        fun next => ?_
      exact iteInduction (motive := fun p => Runs env _ p _ _) (fun _ => ih _)
        fun _ => TryTriple.pure fun _ h => h
  have havailable : Runs env Between SyncEngine.availableRemoteBytes (fun _ => Between) Lost := by
    refine TryTriple.bind (perform_climbs rfl fun _ => by simp) fun answer => ?_
    cases answer with
    | ok quota => exact TryTriple.pure fun _ h => h
    | error error =>
      exact TryTriple.bind (modifyReport_between fun _ => rfl) fun _ => TryTriple.pure fun _ h => h
  exact TryTriple.bind havailable fun _ => hroots _ _ _

theorem state_untold {call : StateCall}
    (he : (Effect.state call : Effect SyncMemory).stores = false) :
    Runs env Ledger.Untold (SyncEngine.state call) (fun _ => Ledger.Untold) CountersClimb :=
  SyncEngine.sequential_state (sequential_try fun _ h => h.climb) (perform_untold he)

/-- A failed execution is counted as one failure. -/
theorem concludeRun_runs (execution : Except SyncError Unit) :
    Runs env (match execution with
      | .ok _ => Between
      | .error _ => Lost) (SyncEngine.concludeRun execution) (fun _ => Between)
      CountersClimb := by
  cases execution with
  | error error =>
    refine assign_climbs fun memory h => ⟨h,?_⟩
    have hcounts : memory.report.summary.counts+oneFailure =
        ({ memory.report.summary with
          failedFiles := memory.report.summary.failedFiles+1 } : SyncRunSummary).counts := by
      simp [SyncRunSummary.counts,oneFailure]
    simp only [SyncMemory.ledger,hcounts]
    exact .refl _
  | ok _ =>
    refine TryTriple.bind isCancelled_between fun cancelled => ?_
    exact iteInduction (motive := fun p => Runs env _ p _ _)
      (fun _ => modifyReport_between fun _ => rfl) fun _ => modifyReport_between fun _ => rfl

theorem closeRun_runs (guard : RunLockGuard) :
    Runs env Between (SyncEngine.closeRun runId guard) (fun _ => CountersClimb)
      CountersClimb := by
  refine TryTriple.bind memory_climbs fun memory => ?_
  have hfinish : Runs env (fun s => Between s ∧ s.world.memory = memory)
      (SyncEngine.perform (.state (.finishRun runId memory.report.status memory.report.summary)))
      (fun _ => Between) CountersClimb := by
    refine (store_climbs (fun _ _ result runId' counts hs => ?_) fun s error s' h hstep =>
      h.pass (Happening.stored_error error) (fun _ => by simp) hstep).weaken (fun _ h => h)
        (fun answer s h => ?_) (fun _ h => h.climb) fun _ h => h
    · simp only [Happening.stored,Option.ite_none_right_eq_some,Option.some.injEq] at hs
      exact hs.2.symm
    · cases answer with
      | ok _ => exact h
      | error _ => exact h
  refine TryTriple.bind hfinish fun finished => ?_
  refine TryTriple.bind (perform_climbs rfl fun _ => by simp) fun released => ?_
  cases finished with
  | error error => exact TryTriple.throw fun _ h => h.climb
  | ok _ =>
    cases released with
    | error error => exact TryTriple.throw fun _ h => h.climb
    | ok _ => exact TryTriple.pure fun _ h => h.climb

theorem runLocked_runs (trigger : SyncRunTrigger) (forceRemoteRescan : Bool)
    (guard : RunLockGuard) :
    Runs env Ledger.Untold (SyncEngine.runLocked ext config trigger forceRemoteRescan guard)
      (fun _ => CountersClimb) CountersClimb := by
  refine TryTriple.bind (state_untold rfl) fun _ => TryTriple.bind (state_untold rfl) fun runId => ?_
  have hstart : Runs env Ledger.Untold (SyncEngine.perform (.updateMemory fun _ =>
      { report := { runId } })) (fun _ => Between) CountersClimb :=
    TryTriple.perform Ledger.stable_untold (fun _ h => h.climb) fun _ _ _ h hstep =>
      h.between rfl (by rw [hstep.2.1.memory_update]; rfl) hstep
  refine TryTriple.bind hstart fun _ => ?_
  refine TryTriple.bind (TryTriple.catch (executeRun_runs ext config runId _)) fun execution => ?_
  exact TryTriple.bind ((concludeRun_runs execution).pre fun s h => by cases execution <;> exact h)
    fun _ => closeRun_runs runId guard

/-- No component of the counters a sync run stores ever decreases. -/
theorem runOnce_climbs (options : SyncEngine.SyncRunOptions) :
    Runs env Ledger.Untold (SyncEngine.runOnce ext config options) (fun _ => CountersClimb)
      CountersClimb := by
  have hk : Sequential fun ⦃α⦄ (p : Engine α) =>
      Runs env Ledger.Untold p (fun _ => Ledger.Untold) CountersClimb :=
    sequential_try fun _ h => h.climb
  have hlock : Sequential fun ⦃α⦄ (p : Locking SyncMemory α) =>
      Runs env Ledger.Untold p (fun _ => Ledger.Untold) Ledger.Untold :=
    sequential_try fun _ h => h
  have hvalid : Runs env Ledger.Untold (SyncEngine.ensureValidConfig ext config)
      (fun _ => Ledger.Untold) CountersClimb :=
    iteInduction (motive := fun p => Runs env Ledger.Untold p (fun _ => Ledger.Untold)
      CountersClimb) (fun _ => hk.pure _) fun _ => hk.throw _
  have hacquire : Runs env Ledger.Untold
      (SyncEngine.acquireRunLock options.lockOwner options.staleLockAfter)
      (fun _ => Ledger.Untold) CountersClimb := by
    have htake : Runs env Ledger.Untold (RunLock.tryAcquireRunLock options.lockOwner
        options.staleLockAfter : Locking SyncMemory (Option RunLockGuard))
        (fun _ => Ledger.Untold) Ledger.Untold :=
      RunLock.tryAcquireRunLock_of hlock (perform_untold rfl) (fun _ => perform_untold rfl)
        fun _ _ => perform_untold rfl
    refine htake.catch.post fun result s h => ?_
    cases result with
    | ok _ => exact h
    | error _ => exact h
  refine TryTriple.bind hvalid fun _ => ?_
  refine TryTriple.bind (SyncEngine.wantsMigration_of hk.toComposable
    (fun _ => perform_untold rfl) (fun _ => state_untold rfl) config _) fun migrate => ?_
  refine iteInduction (motive := fun p => Runs env _ p _ _)
    (fun _ => TryTriple.pure fun _ h => h.climb) fun _ => ?_
  refine TryTriple.bind hacquire fun acquired => ?_
  match acquired with
  | .error error => exact TryTriple.throw fun _ h => h.climb
  | .ok none => exact TryTriple.throw fun _ h => h.climb
  | .ok (some guard) =>
    exact TryTriple.bind (runLocked_runs ext config _ _ guard) fun report =>
      TryTriple.pure fun _ h => h

end Run

end SyncCounters

end YaDiskSync
