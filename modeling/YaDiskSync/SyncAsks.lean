import YaDiskSync.RunFrame

/-! What the parts of a sync run may ask, the uploads of a plan apart. -/
namespace YaDiskSync

open Prog

namespace SyncEngine

theorem ensureValidConfig_of {K : ⦃α : Type⦄ → Engine α → Prop} (hk : Sequential K)
    (ext : Externals) (config : AppConfig) : K (ensureValidConfig ext config) :=
  iteInduction (motive := fun p => K p) (fun _ => hk.pure _) fun _ => hk.throw _

/-- Steps that neither touch the tasks nor store the rows of files. -/
def isPlain (e : Effect SyncMemory) : Bool :=
  !e.onTasks && match e with
    | .state (.upsertFileState _) | .state (.upsertFileStates _) => false
    | _ => true

theorem onTasks_of_isPlain (e : Effect SyncMemory) (h : isPlain e = true) :
    e.onTasks = false := by
  simp only [isPlain,Bool.and_eq_true,Bool.not_eq_true'] at h
  exact h.1

theorem isPlain_of_isRoutine {e : Effect SyncMemory} (h : isRoutine e = true) :
    isPlain e = true := by
  cases e with
  | state call => cases call <;> first | rfl | cases h
  | _ => first | rfl | cases h

section Asks

variable {S : Effect SyncMemory → Prop}

theorem state_asks {call : StateCall} (h : S (.state call)) :
    Only S (state call).run :=
  sequential_state (sequential_only (ε := SyncError)) (K := fun ⦃_⦄ p => Only S p.run)
    ⟨h,fun _ => trivial⟩

variable (hS : ∀ e : Effect SyncMemory, isPlain e = true → S e)

include hS

theorem running_asks : Running fun ⦃α⦄ (p : Engine α) => Only S p.run where
  toSequential := sequential_only
  routine e he := ⟨hS e (isPlain_of_isRoutine he),fun _ => trivial⟩
  call he := state_asks (hS _ (isPlain_of_isRoutine he))
  acquire owner staleAfter := by
    have htake : Only S (RunLock.tryAcquireRunLock owner staleAfter :
        Locking SyncMemory (Option RunLockGuard)).run :=
      RunLock.tryAcquireRunLock_of sequential_only ⟨hS _ rfl,fun _ => trivial⟩
        (fun _ => ⟨hS _ rfl,fun _ => trivial⟩) fun _ _ => ⟨hS _ rfl,fun _ => trivial⟩
    exact htake.lift

theorem quiet_asks (runId : Int) (baseSummary : SyncRunSummary) :
    Quiet runId baseSummary fun ⦃α⦄ (p : Engine α) => Only S p.run where
  toReporting := (running_asks hS).reporting
  state {call} h := state_asks (hS _ (by cases call <;> first | rfl | cases h))
  persistRootProgress := (running_asks hS).persistRootProgress runId baseSummary
  cleanupStagingFiles := (running_asks hS).cleanupStagingFiles
  fileMetadata _ := ⟨hS _ rfl,fun _ => trivial⟩

variable (config : AppConfig) (root : SyncRootConfig) (runId : Int)
  (baseSummary : SyncRunSummary)

theorem applyDeletes_asks (canonicalRemotePath : Str) (inventory : Inventory)
    (inventoryFromCache : Bool) :
    Only S (applyDeletes root runId baseSummary canonicalRemotePath inventory
      inventoryFromCache).run := by
  have hq : Quiet runId baseSummary fun ⦃α⦄ (p : Engine α) => Only S p.run :=
    quiet_asks hS runId baseSummary
  refine (running_asks hS).applyDeletes root runId baseSummary inventoryFromCache (fun delete => ?_)
    canonicalRemotePath inventory
  exact applyDelete_of hq root ⟨hS _ rfl,fun _ => trivial⟩ ⟨hS _ rfl,fun _ => trivial⟩
    (fun operationId => recordDeleted_of hq (fun _ => ⟨state_asks (hS _ rfl),state_asks (hS _ rfl)⟩)
      (fun _ _ => state_asks (hS _ rfl)) operationId delete) (state_asks (hS _ rfl))
    inventoryFromCache

theorem remoteInventory_asks (canonicalRemotePath : Str) (plan : LiveScanPlan)
    (forceRemoteRescan : Bool) :
    Only S (liftM (remoteInventory config root canonicalRemotePath plan forceRemoteRescan).run :
      Engine (Except YandexDiskError RemoteInventorySnapshot)).run := by
  have hcalls : InventoryCalls fun ⦃α⦄ (p : Inventorying α) => Only S p.run := {
    toSequential := sequential_only
    now := ⟨hS _ rfl,fun _ => trivial⟩
    status := fun _ => ⟨hS _ rfl,fun _ => trivial⟩
    cached := fun _ => ⟨hS _ rfl,fun _ => trivial⟩
    metadata := fun _ => ⟨hS _ rfl,fun _ => trivial⟩
    list := fun _ _ => ⟨hS _ rfl,fun _ => trivial⟩
    replace := fun _ _ => ⟨hS _ rfl,fun _ => trivial⟩
    setStatus := fun _ => ⟨hS _ rfl,fun _ => trivial⟩ }
  exact (remoteInventory_of hcalls config root canonicalRemotePath plan forceRemoteRescan).lift

/-- The creates of a plan start nothing but creates. -/
theorem applyCreateDirectories_asks
    (hspawn : ∀ directory operationId, S (.spawn (.createDirectory directory operationId)))
    (hjoin : S .joinNext) (hdrop : S .dropTasks) (rootPlan : RootPlan) :
    Only S (applyCreateDirectories config root runId baseSummary rootPlan).run := by
  have hq : Quiet runId baseSummary fun ⦃α⦄ (p : Engine α) => Only S p.run :=
    quiet_asks hS runId baseSummary
  refine applyCreateDirectories_of hq root config ?_ rootPlan
  refine createLevel_of hq root
    (nextCreateBatch_of hq ((running_asks hS).skipMissing runId baseSummary))
    (spawnCreates_of hq fun _ _ => ⟨hspawn _ _,fun _ => trivial⟩)
    (joinCreates_of hq root ⟨hjoin,fun _ => trivial⟩ ⟨hdrop,fun _ => trivial⟩ ?_)
  exact recordCreated_of hq (fun _ => state_asks (hS _ rfl)) fun _ => state_asks (hS _ rfl)

end Asks

end SyncEngine

end YaDiskSync
