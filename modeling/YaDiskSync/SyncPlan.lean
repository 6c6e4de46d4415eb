import YaDiskSync.Batching
import YaDiskSync.DeleteCoverage
import YaDiskSync.Scanner

/-! The plan of one root: directories to create, files to upload, remote extras to delete. -/
namespace YaDiskSync

inductive SyncPlanOperation
  | createDirectory (directory : LocalDirectoryEntry)
  | uploadFile (file : LocalFileEntry) (isUpdate : Bool)
  | deleteRemote (delete : RemoteDeleteOperation)
  deriving DecidableEq

structure RootPlan where
  operations : List SyncPlanOperation
  deriving DecidableEq

namespace RootPlan

variable (plan : RootPlan)

def createDirectories : List LocalDirectoryEntry :=
  plan.operations.filterMap fun
    | .createDirectory directory => some directory
    | _ => none

def uploads : List (LocalFileEntry × Bool) :=
  plan.operations.filterMap fun
    | .uploadFile file isUpdate => some (file,isUpdate)
    | _ => none

def deletes : List RemoteDeleteOperation :=
  plan.operations.filterMap fun
    | .deleteRemote delete => some delete
    | _ => none

def uploadBytes : Nat := (plan.uploads.map fun upload => upload.1.sizeBytes).sum

end RootPlan

/-- `matches!` on the type of an inventory entry. -/
def Inventory.holds (inventory : Inventory) (path : Str) (resourceType : ResourceType) : Bool :=
  (inventory[path]?).any fun resource => resource.resourceType == resourceType

section Build

variable (ext : Externals) (root : SyncRootConfig) (canonicalRemotePath : Str)

/-- The entry of the root itself. -/
def rootDirectory : LocalDirectoryEntry :=
  { rootId := root.id
    localPath := pathComponents root.localPath
    relativePath := []
    remotePath := canonicalRemotePath
    normalizedRemotePath := ext.toLowercase canonicalRemotePath }

def plannedCreates (livePlan : LiveScanPlan) (remoteInventory : Inventory) :
    List LocalDirectoryEntry :=
  (rootDirectory ext root canonicalRemotePath :: livePlan.directories).filter fun directory =>
    !remoteInventory.holds directory.remotePath .directory

def shouldUpload (remoteInventory : Inventory) (file : LocalFileEntry) : Bool :=
  !file.fingerprint.reusedFromState || !remoteInventory.holds file.remotePath .file

def plannedUploads (livePlan : LiveScanPlan) (remoteInventory : Inventory) :
    List (LocalFileEntry × Bool) :=
  (livePlan.files.filter (shouldUpload remoteInventory)).map fun file =>
    (file,remoteInventory.holds file.remotePath .file)

def buildRootPlan (livePlan : LiveScanPlan) (remoteInventory : Inventory) : RootPlan :=
  let deletes := sortByKey deleteOrder
    (collectCoalescedDeleteOperations root canonicalRemotePath livePlan remoteInventory)
  { operations :=
      (plannedCreates ext root canonicalRemotePath livePlan remoteInventory).map
          .createDirectory ++
        (plannedUploads livePlan remoteInventory).map (fun upload =>
          .uploadFile upload.1 upload.2) ++
        deletes.map .deleteRemote }

variable {ext root canonicalRemotePath} {livePlan : LiveScanPlan} {remoteInventory : Inventory}

@[simp] theorem createDirectories_buildRootPlan :
    (buildRootPlan ext root canonicalRemotePath livePlan remoteInventory).createDirectories =
      plannedCreates ext root canonicalRemotePath livePlan remoteInventory := by
  simp [buildRootPlan,RootPlan.createDirectories,List.filterMap_map]

@[simp] theorem uploads_buildRootPlan :
    (buildRootPlan ext root canonicalRemotePath livePlan remoteInventory).uploads =
      plannedUploads livePlan remoteInventory := by
  simp [buildRootPlan,RootPlan.uploads,List.filterMap_map]

theorem mem_deletes_buildRootPlan {delete : RemoteDeleteOperation} :
    delete ∈ (buildRootPlan ext root canonicalRemotePath livePlan remoteInventory).deletes ↔
      delete ∈ collectCoalescedDeleteOperations root canonicalRemotePath livePlan
        remoteInventory := by
  simp [buildRootPlan,RootPlan.deletes,List.filterMap_map]

end Build

def relativeDepth (relativePath : Str) : Nat :=
  if relativePath.isEmpty then 0 else relativePath.count slash+1

/-- `take_upload_batch`: the batch, then what stays pending. -/
def takeUploadBatch (limit largeThreshold : Nat) :
    List (LocalFileEntry × Bool) → Nat → Bool →
      List (LocalFileEntry × Bool) × List (LocalFileEntry × Bool)
  | [], _, _ => ([],[])
  | candidate :: pending, selected, largeUsed =>
    let isLarge := decide (largeThreshold ≤ candidate.1.sizeBytes)
    if selected < limit && (!isLarge || !largeUsed) then
      let (batch,deferred) :=
        takeUploadBatch limit largeThreshold pending (selected+1) (isLarge || largeUsed)
      (candidate :: batch,deferred)
    else
      let (batch,deferred) := takeUploadBatch limit largeThreshold pending selected largeUsed
      (batch,candidate :: deferred)

theorem takeUploadBatch_eq (limit largeThreshold : Nat) (pending : List (LocalFileEntry × Bool))
    (selected : Nat) (largeUsed : Bool) :
    takeUploadBatch limit largeThreshold pending selected largeUsed =
      Batching.takeBatch limit (fun candidate => decide (largeThreshold ≤ candidate.1.sizeBytes))
        pending selected largeUsed := by
  induction pending generalizing selected largeUsed with
  | nil => rfl
  | cons candidate pending ih => simp only [takeUploadBatch,Batching.takeBatch,ih]

theorem takeUploadBatch_perm (limit largeThreshold : Nat)
    (pending : List (LocalFileEntry × Bool)) (selected : Nat) (largeUsed : Bool) :
    let result := takeUploadBatch limit largeThreshold pending selected largeUsed
    (result.1 ++ result.2).Perm pending := by
  rw [takeUploadBatch_eq]
  exact Batching.takeBatch_perm

/-- The first path that two entries map to, compared without case. -/
def firstCollision : List (Str × Str) → List (Str × Str) → Option (Str × Str)
  | _, [] => none
  | seen, (normalized,relative) :: rest =>
    match seen.lookup normalized with
    | some previous => some (previous,relative)
    | none => firstCollision ((normalized,relative) :: seen) rest

def localRemoteCollision (directories : List LocalDirectoryEntry)
    (files : List LocalFileEntry) : Option Str :=
  (firstCollision []
    (directories.map (fun d => (d.normalizedRemotePath,d.relativePath)) ++
      files.map fun f => (f.normalizedRemotePath,f.relativePath))).map
    fun (previous,relative) =>
      "canonical remote path collision between ".toList ++ previous ++ " and ".toList ++ relative

end YaDiskSync
