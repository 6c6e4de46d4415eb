import YaDiskSync.SyncAsks

/-! The statements that begin and end a run. What lies between them asks none of them. -/
namespace YaDiskSync

open Prog

/-- Statements on the run lock or on the runs as a whole, or that make an operation run again. -/
def StateCall.bracketsRun : StateCall → Bool
  | .repairInterruptedRuns | .beginRun _ | .finishRun .. | .insertRunLock ..
  | .replaceStaleRunLock .. | .heartbeatRunLock .. | .releaseRunLock _ => true
  | .finishOperation _ status .. => status == .running
  | _ => false

theorem StateCall.bracketsRun_of_bookkeeping {call : StateCall} (h : call.isBookkeeping = true) :
    call.bracketsRun = false := by
  cases call with
  | finishOperation id status errorKind errorMessage => simpa [isBookkeeping,bracketsRun] using h
  | _ => first | rfl | cases h

def Effect.bracketsRun {μ : Type} : Effect μ → Bool
  | .state call => call.bracketsRun
  | _ => false

/-- A part of a run that neither begins nor ends it. -/
def Inner {μ ε : Type} ⦃α : Type⦄ (p : ExceptT ε (Prog (Effect μ) Effect.Answer) α) : Prop :=
  Only (fun e => e.bracketsRun = false) p.run

section Inner

variable {μ ε ε' α β : Type}

theorem sequential_inner : Sequential (@Inner μ ε) := sequential_only

theorem Inner.pure (a : α) : Inner (Pure.pure a : ExceptT ε (Prog (Effect μ) Effect.Answer) α) :=
  sequential_inner.pure a

theorem Inner.throw (error : ε) :
    Inner (throw error : ExceptT ε (Prog (Effect μ) Effect.Answer) α) :=
  sequential_inner.throw error

theorem Inner.bind {p : ExceptT ε (Prog (Effect μ) Effect.Answer) α}
    {f : α → ExceptT ε (Prog (Effect μ) Effect.Answer) β} (hp : Inner p)
    (hf : ∀ a, Inner (f a)) : Inner (p >>= f) :=
  sequential_inner.bind hp hf

theorem Inner.perform {e : Effect μ} (he : e.bracketsRun = false) :
    Inner (liftM (Prog.perform e) : ExceptT ε (Prog (Effect μ) Effect.Answer) e.Answer) :=
  ⟨he,fun _ => trivial⟩

/-- An error that is caught is a result. -/
theorem Inner.catch {p : ExceptT ε' (Prog (Effect μ) Effect.Answer) α} (h : Inner p) :
    Inner (liftM p.run : ExceptT ε (Prog (Effect μ) Effect.Answer) (Except ε' α)) :=
  Only.lift h

end Inner

namespace SyncEngine

variable {ext : Externals} {config : AppConfig} {root : SyncRootConfig} {runId : Int}
  {baseSummary : SyncRunSummary}

theorem perform_inner {e : Effect SyncMemory} (he : e.bracketsRun = false) :
    Inner (perform e) :=
  Inner.perform he

theorem state_inner {call : StateCall} (h : call.bracketsRun = false) : Inner (state call) :=
  sequential_state sequential_inner (perform_inner h)

theorem reporting_inner : Reporting (@Inner SyncMemory SyncError) where
  toComposable := sequential_inner.toComposable
  report {call} h := state_inner (by cases call <;> first | rfl | cases h)
  readMemory := perform_inner rfl
  modifySummary _ _ := perform_inner rfl
  isCancelled := perform_inner rfl

theorem register_inner (localPath : LocalPath) (relativePath remotePath : Str) :
    Inner (registerMissingLocalPath localPath relativePath remotePath) := by
  refine reporting_inner.livePlan.bind fun plan => ?_
  refine sequential_inner.bind (registerMissingLocalPath_of sequential_inner.toComposable
    (fun path => perform_inner rfl) (fun path => perform_inner rfl) plan localPath relativePath
    remotePath) fun result => ?_
  exact (perform_inner rfl).bind fun _ => Inner.pure _

theorem persistRootProgress_inner : Inner (persistRootProgress runId baseSummary) :=
  (perform_inner rfl).bind fun _ => state_inner rfl

theorem phases_inner : Phases runId baseSummary (@Inner SyncMemory SyncError) where
  toReporting := reporting_inner
  state h := state_inner (StateCall.bracketsRun_of_bookkeeping h)
  persistRootProgress := persistRootProgress_inner
  cleanupStagingFiles := cleanupStagingFiles_of sequential_inner fun _ => perform_inner rfl
  fileMetadata _ := perform_inner rfl
  register := register_inner
  spawn _ := perform_inner rfl
  joinNext := perform_inner rfl
  dropTasks := perform_inner rfl
  upsertDirectoryState _ := state_inner rfl
  upsertFileState _ := state_inner rfl
  upsertRemoteResource _ := state_inner rfl

theorem applyDeletes_inner (canonicalRemotePath : Str) (inventory : Inventory)
    (inventoryFromCache : Bool) :
    Inner (applyDeletes root runId baseSummary canonicalRemotePath inventory
      inventoryFromCache) := by
  have hq : Quiet runId baseSummary (@Inner SyncMemory SyncError) := phases_inner.toQuiet
  refine reporting_inner.livePlan.bind fun plan => ?_
  refine deleteEach_of hq root inventoryFromCache _ fun delete _ => ?_
  exact applyDelete_of hq root (perform_inner rfl) (perform_inner rfl)
    (fun operationId => recordDeleted_of hq (fun _ => ⟨state_inner rfl,state_inner rfl⟩)
      (fun _ _ => state_inner rfl) operationId delete) (state_inner rfl) inventoryFromCache

theorem planScan_inner (scanReport : ScanReport) :
    Inner (planScan root runId baseSummary scanReport) := by
  refine (reporting_inner.recordScanFindings _).bind fun _ => ?_
  refine sequential_inner.bind (fromScanReport_of sequential_inner.toComposable
    (fun path => perform_inner rfl) (fun plan => perform_inner rfl) _ _) fun plan => ?_
  refine (perform_inner rfl).bind fun _ =>
    (perform_inner rfl).bind fun _ => ?_
  refine (reporting_inner.recordDeletedSubtrees runId _).bind fun _ => ?_
  exact persistRootProgress_inner.bind fun _ => Inner.pure _

theorem remoteInventory_inner (canonicalRemotePath : Str) (plan : LiveScanPlan)
    (forceRemoteRescan : Bool) :
    Inner (liftM (remoteInventory config root canonicalRemotePath plan forceRemoteRescan).run :
      Engine (Except YandexDiskError RemoteInventorySnapshot)) := by
  have hcalls : InventoryCalls (@Inner SyncMemory YandexDiskError) := {
    toSequential := sequential_inner
    now := Inner.perform rfl
    status := fun _ => Inner.perform rfl
    cached := fun _ => Inner.perform rfl
    metadata := fun _ => Inner.perform rfl
    list := fun _ _ => Inner.perform rfl
    replace := fun _ _ => Inner.perform rfl
    setStatus := fun _ => Inner.perform rfl }
  exact (remoteInventory_of hcalls config root canonicalRemotePath plan forceRemoteRescan).catch

theorem executeScanned_inner (canonicalRemotePath : Str) (scanReport : ScanReport)
    (availableRemoteBytes : Option Nat) (forceRemoteRescan : Bool) :
    Inner (executeScanned ext config root runId baseSummary canonicalRemotePath scanReport
      availableRemoteBytes forceRemoteRescan) := by
  refine (planScan_inner scanReport).bind fun plan => ?_
  cases localRemoteCollision plan.directories plan.files with
  | some message =>
    exact (reporting_inner.failRootWith ..).bind fun _ => Inner.pure _
  | none =>
    refine sequential_inner.bind (remoteInventory_inner canonicalRemotePath plan forceRemoteRescan)
      fun answer => ?_
    exact executeInventory_of phases_inner.toQuiet ext config root (fun _ => state_inner rfl)
      (fun snapshot => applyPlan_of phases_inner.toQuiet config root
        (phases_inner.applyCreateDirectories config root _)
        (phases_inner.applyUploads config root _ fun _ _ => perform_inner rfl)
        (applyDeletes_inner _ _ _) scanReport)
      (fun _ _ => perform_inner rfl) availableRemoteBytes answer

theorem executeRoot_inner (options : ScanOptions) (canonicalRemotePath : Str)
    (availableRemoteBytes : Option Nat) (forceRemoteRescan : Bool) :
    Inner (executeRoot ext config root runId baseSummary options canonicalRemotePath
      availableRemoteBytes forceRemoteRescan) := by
  have hscan : Inner (scanRootWithRepository options (scanRootOf root canonicalRemotePath)) := by
    refine (perform_inner rfl).bind fun answer => ?_
    cases answer with
    | ok previousStates => exact perform_inner rfl
    | error error => exact Inner.pure _
  refine hscan.bind fun answer => ?_
  cases answer with
  | error error =>
    exact (reporting_inner.failRootWith ..).bind fun _ => Inner.pure _
  | ok scanReport => exact executeScanned_inner _ _ _ _

theorem executeRunRoot_inner (options : ScanOptions) (availableRemoteBytes : Option Nat)
    (forceRemoteRescan : Bool) :
    Inner (executeRunRoot ext config root runId options availableRemoteBytes
      forceRemoteRescan) := by
  have hfinish : Inner finishRootSummary :=
    finishRootSummary_of reporting_inner fun _ => perform_inner rfl
  unfold executeRunRoot
  cases canonicalRemotePath config.instanceConfig.remoteRoot root.localPath
      root.remotePathOverride with
  | error error => exact Inner.throw _
  | ok canonical =>
    refine (state_inner rfl).bind fun _ =>
      (perform_inner rfl).bind fun _ => ?_
    refine (perform_inner rfl).bind fun isDir => ?_
    refine iteInduction (motive := fun p => Inner p) (fun _ => ?_) fun _ => ?_
    · exact sequential_inner.bind
        (recordMissingRoot_of reporting_inner root fun _ => perform_inner rfl) fun _ =>
          hfinish.bind fun _ => Inner.pure _
    · refine reporting_inner.readMemory.bind fun before => ?_
      refine (executeRoot_inner _ _ _ _).bind fun result => ?_
      refine hfinish.bind fun _ => ?_
      refine iteInduction (motive := fun p => Inner p) (fun _ => Inner.pure _)
        fun _ => ?_
      exact reporting_inner.isCancelled.bind fun _ => Inner.pure _

/-- The work of a sync run on its roots. -/
theorem executeRun_inner (runId : Int) (forceRemoteRescan : Bool) :
    Inner (executeRun ext config runId forceRemoteRescan) := by
  have hroots : ∀ options roots available,
      Inner (executeRoots ext config runId options forceRemoteRescan roots available) := by
    intro options roots
    induction roots with
    | nil => exact fun _ => Inner.pure _
    | cons root roots ih =>
      intro available
      refine reporting_inner.isCancelled.bind fun cancelled => ?_
      refine iteInduction (motive := fun p => Inner p) (fun _ => perform_inner rfl) fun _ => ?_
      refine (executeRunRoot_inner options available _).bind fun next => ?_
      exact iteInduction (motive := fun p => Inner p) (fun _ => ih _)
        fun _ => Inner.pure _
  have havailable : Inner availableRemoteBytes := by
    refine (perform_inner rfl).bind fun answer => ?_
    cases answer with
    | ok quota => exact Inner.pure _
    | error error => exact (perform_inner rfl).bind fun _ => Inner.pure _
  exact havailable.bind fun _ => hroots _ _ _

end SyncEngine

end YaDiskSync
