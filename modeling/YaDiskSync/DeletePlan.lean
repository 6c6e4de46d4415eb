import YaDiskSync.Config
import YaDiskSync.LivePlan

/-! The delete planner. Resources of the inventory that no live path names are removed;
a whole missing directory is removed by one recursive delete of its top-most missing parent. -/
namespace YaDiskSync

open SepPath

structure RemoteDeleteOperation where
  rootId : Str
  remotePath : Str
  relativePath : Str
  resourceType : ResourceType
  deriving DecidableEq, Repr

def relativeRemotePath (canonicalRemotePath remotePath : Str) : Str :=
  trimStartMatches slash
    ((stripPrefix (trimEndMatches slash canonicalRemotePath) remotePath).getD remotePath)

def hasPhantomDiskSegment (relativePath : Str) : Bool :=
  (relativePath.splitOn slash).any fun segment => eqIgnoreAsciiCase segment "disk:".toList

def remoteDeleteCandidateRelativePath (managedRoot remotePath : Str) : Except Str Str :=
  let managedRoot := trimEndMatches slash managedRoot
  if remotePath = managedRoot then .error "empty_relative_path".toList
  else
    match stripPrefix (managedRoot ++ [slash]) remotePath with
    | none => .error "outside_managed_root".toList
    | some relativePath =>
      if relativePath.isEmpty then .error "empty_relative_path".toList
      else if hasPhantomDiskSegment relativePath then .error "phantom_disk_segment".toList
      else .ok relativePath

/-- The set of live remote paths; only membership and searches are asked of it. -/
def knownLiveRemotePaths (canonicalRemotePath : Str) (directories : List LocalDirectoryEntry)
    (files : List LocalFileEntry) (deletedSubtrees : List DeletedLocalSubtree) : List Str :=
  canonicalRemotePath ::
    ((directories.filter fun directory =>
      !isRelativePathDeleted directory.relativePath deletedSubtrees).map
        LocalDirectoryEntry.remotePath ++
    (files.filter fun file => !isRelativePathDeleted file.relativePath deletedSubtrees).map
      LocalFileEntry.remotePath)

/-- Some known path starts with `childPrefix`. -/
def hasLiveDescendants (known : List Str) (childPrefix : Str) : Bool :=
  known.any fun path => decide (childPrefix <+: path)

/-- The loop of `top_missing_remote_directory_prefix`. -/
def firstMissingPrefix (known : List Str) : Str → List Str → Option Str
  | _, [] => none
  | base, segment :: segments =>
    let pre := base ++ slash :: segment
    if known.contains pre then firstMissingPrefix known pre segments
    else if hasLiveDescendants known (pre ++ [slash]) then firstMissingPrefix known pre segments
    else some pre

def topMissingRemoteDirectoryPrefix (canonicalRemotePath remotePath : Str) (known : List Str) :
    Option Str :=
  let segments := ((relativeRemotePath canonicalRemotePath remotePath).splitOn slash).filter
    fun segment => !segment.isEmpty
  if segments.length < 2 then none
  else firstMissingPrefix known (trimEndMatches slash canonicalRemotePath) segments.dropLast

structure DeletePlanState where
  suppressedPrefixes : List Str := []
  operations : List RemoteDeleteOperation := []

namespace DeletePlanState

def suppresses (state : DeletePlanState) (path : Str) : Bool :=
  state.suppressedPrefixes.any fun pre => isAtOrBelow pre path

def push (state : DeletePlanState) (operation : RemoteDeleteOperation) : DeletePlanState :=
  { state with operations := state.operations ++ [operation] }

def suppress (state : DeletePlanState) (pre : Str) : DeletePlanState :=
  { state with suppressedPrefixes := state.suppressedPrefixes ++ [pre] }

end DeletePlanState

section Collect

variable (root : SyncRootConfig) (canonicalRemotePath : Str) (known : List Str)

def deleteOperation (path : Str) (resourceType : ResourceType) : RemoteDeleteOperation :=
  { rootId := root.id, remotePath := path
    relativePath := relativeRemotePath canonicalRemotePath path, resourceType }

/-- One round of the planner's loop. -/
def collectStep (state : DeletePlanState) (resource : ResourceMetadata) : DeletePlanState :=
  match remoteDeleteCandidateRelativePath canonicalRemotePath resource.path with
  | .error _ => state
  | .ok _ =>
    if state.suppresses resource.path then state
    else if known.contains resource.path then state
    else
      match topMissingRemoteDirectoryPrefix canonicalRemotePath resource.path known with
      | some directoryPath =>
        if state.suppresses directoryPath then state
        else (state.suppress directoryPath).push
          (deleteOperation root canonicalRemotePath directoryPath .directory)
      | none =>
        if resource.resourceType = .directory ∧
            hasLiveDescendants known (trimEndMatches slash resource.path ++ [slash]) = false then
          (state.suppress resource.path).push
            (deleteOperation root canonicalRemotePath resource.path .directory)
        -- a directory with live descendants reaches this push too
        else state.push
          (deleteOperation root canonicalRemotePath resource.path resource.resourceType)

/-- Directories before files, shallow before deep. -/
def collectKey (resource : ResourceMetadata) : Bool ×ₗ ℕ ×ₗ Str :=
  toLex (decide (resource.resourceType ≠ .directory),
    toLex (resource.path.count slash,resource.path))

def collectResources (inventory : Inventory) : List ResourceMetadata :=
  sortByKey collectKey
    (inventory.resources.filter fun resource => decide (resource.path ≠ canonicalRemotePath))

/-- Deletes run deepest first. -/
def deleteOrder (operation : RemoteDeleteOperation) : ℕᵒᵈ ×ₗ Str :=
  toLex (OrderDual.toDual (operation.remotePath.count slash),operation.remotePath)

def collectCoalescedDeleteOperations (livePlan : LiveScanPlan) (remoteInventory : Inventory) :
    List RemoteDeleteOperation :=
  let known := knownLiveRemotePaths canonicalRemotePath livePlan.directories livePlan.files
    livePlan.deletedSubtrees
  let state := (collectResources canonicalRemotePath remoteInventory).foldl
    (collectStep root canonicalRemotePath known) {}
  sortByKey deleteOrder state.operations

end Collect

end YaDiskSync
