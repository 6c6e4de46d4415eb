import YaDiskSync.RemoteDisk
import YaDiskSync.World

/-! The recursive listing of the HTTP client: a walk over directories whose tasks complete in
any order, each of them a loop over the pages of one directory. -/
namespace YaDiskSync

open SepPath

/-- The fields of an item are those of a `ResourceMetadata`; what is embedded in an item is not
read. -/
structure ApiEmbeddedResources where
  items : List ResourceMetadata
  total : Option Nat
  deriving DecidableEq

structure ApiResource where
  resource : ResourceMetadata
  embedded : Option ApiEmbeddedResources
  deriving DecidableEq

def normalizedPrunePrefixes (prefixes : List Str) : List Str :=
  (prefixes.map (trimEndMatches slash)).filter fun pruned => !pruned.isEmpty

def isPrunedRemotePath (path : Str) (prunePrefixes : List Str) : Bool :=
  prunePrefixes.any fun pruned =>
    path == pruned || (stripPrefix pruned path).any fun suffix => suffix.head? == some slash

/-- The service and the task set as the listing meets them: the answer to a request for a page,
what makes the task of a directory fail besides, such as its timeout, and which of the tasks in
progress is the next to complete, after so many. -/
structure ListingEnvironment where
  getResourcePage : Str → Nat → Except YandexDiskError ApiResource
  taskFailure : Str → Option YandexDiskError := fun _ => none
  order : Nat → Nat := fun _ => 0

namespace Listing

def collectItem (prunePrefixes : List Str) (found : List Str × List ResourceMetadata)
    (item : ResourceMetadata) : List Str × List ResourceMetadata :=
  (if item.resourceType = .directory ∧ ¬ isPrunedRemotePath item.path prunePrefixes then
      found.1 ++ [item.path] else found.1,
    found.2 ++ [item])

def collectEmbeddedPage (page : ApiResource) (found : List Str × List ResourceMetadata)
    (prunePrefixes : List Str) : List Str × List ResourceMetadata :=
  match page.embedded with
  | none => found
  | some embedded => embedded.items.foldl (collectItem prunePrefixes) found

section Client

variable (env : ListingEnvironment) (prunePrefixes : List Str)

/-- The loop over the pages. It has no answer when the fuel runs out. -/
def listPages (path : Str) : Nat → Nat → List Str × List ResourceMetadata →
    Option (Except YandexDiskError (List Str × List ResourceMetadata))
  | 0, _, _ => none
  | fuel+1, offset, found =>
    match env.getResourcePage path offset with
    | .error error => some (.error error)
    | .ok page =>
      let total := (page.embedded.bind (·.total)).getD 0
      let returned := (page.embedded.map (·.items.length)).getD 0
      let found := collectEmbeddedPage page found prunePrefixes
      let offset := offset+returned
      if returned = 0 ∨ offset ≥ total then some (.ok found)
      else listPages path fuel offset found

def listDirectoryChildren (fuel : Nat) (path : Str) :
    Option (Except YandexDiskError (List Str × List ResourceMetadata)) :=
  listPages env prunePrefixes path fuel 0 ([],[])

/-- The task of a directory. -/
def directoryTask (fuel : Nat) (path : Str) :
    Option (Except YandexDiskError (List Str × List ResourceMetadata)) :=
  match env.taskFailure path with
  | some error => some (.error error)
  | none => listDirectoryChildren env prunePrefixes fuel path

def listDirectoryConcurrency : Nat := 8

/-- Take directories from the stack until enough tasks are active. The top of the stack comes
first. -/
def spawnTasks : List Str → List Str → List Str × List Str
  | [], active => ([],active)
  | path :: pending, active =>
    if active.length < listDirectoryConcurrency then
      if isPrunedRemotePath path prunePrefixes then spawnTasks pending active
      else spawnTasks pending (active ++ [path])
    else (path :: pending,active)

/-- The loop of the walk, when so many directories have completed. -/
def walk (pageFuel : Nat) : Nat → Nat → List Str → List Str → List ResourceMetadata →
    Option (Except YandexDiskError (List ResourceMetadata))
  | 0, _, _, _, _ => none
  | fuel+1, completed, pending, active, listed =>
    if active = [] ∧ pending = [] then some (.ok listed)
    else
      let (pending,active) := spawnTasks prunePrefixes pending active
      let next := env.order completed % active.length
      match active[next]? with
      | none => some (.ok listed)
      | some path =>
        match directoryTask env prunePrefixes pageFuel path with
        | none => none
        | some (.error error) => some (.error error)
        | some (.ok (childDirectories,childResources)) =>
          walk pageFuel fuel (completed+1) (childDirectories.reverse ++ pending)
            (active.eraseIdx next) (listed ++ childResources)

end Client

end Listing

open Listing

/-- `sort_by` on the paths. -/
def sortByPath (listed : List ResourceMetadata) : List ResourceMetadata :=
  sortByKey ResourceMetadata.path listed

def listRecursiveByDirectoryWalk (env : ListingEnvironment) (fuel : Nat) (rootPath : Str)
    (pruneRemotePrefixes : List Str) :
    Option (Except YandexDiskError (List ResourceMetadata)) :=
  (walk env (normalizedPrunePrefixes pruneRemotePrefixes) fuel fuel 0 [rootPath] [] []).map
    (Except.map sortByPath)

/-- `list_recursive_with_options` of the HTTP client. -/
def listRecursiveInner (env : ListingEnvironment) (fuel : Nat) (remotePath : Str)
    (pruneRemotePrefixes : List Str) :
    Option (Except YandexDiskError (List ResourceMetadata)) :=
  match env.getResourcePage remotePath 0 with
  | .error error => some (.error error)
  | .ok root =>
    if root.resource.resourceType ≠ .directory then some (.ok [root.resource])
    else
      (listRecursiveByDirectoryWalk env fuel remotePath pruneRemotePrefixes).map
        (Except.map sortByPath)

end YaDiskSync
