import YaDiskSync.PathMapping
import Mathlib.Data.Char
import Mathlib.Data.List.Lex
import Mathlib.Data.List.Pairwise
import Mathlib.Data.List.Sort
import Mathlib.Data.Prod.Lex
import Mathlib.Order.OrderDual
import Std.Data.TreeMap.Lemmas

/-! Records shared by the scanner, the planner and the remote client. -/
namespace YaDiskSync

/-- A local path as its sequence of components below the file-system root. -/
abbrev LocalPath := List Str

/-- `path_to_stable_string`. -/
def pathToStableString (path : LocalPath) : Str :=
  replaceChar '\\' slash (slash :: [slash].intercalate path)

inductive ResourceType
  | file | directory
  deriving DecidableEq, Repr

structure ResourceMetadata where
  path : Str
  name : Option Str := none
  resourceType : ResourceType
  sizeBytes : Option Nat := none
  md5 : Option Str := none
  revision : Option Nat := none
  created : Option Str := none
  modified : Option Str := none
  deriving DecidableEq, Repr

/-- `last_remote_segment`. -/
def lastRemoteSegment (path : Str) : Option Str :=
  (path.splitOn slash).getLast?.filter fun segment => !segment.isEmpty

def ResourceMetadata.ofFile (path : Str) (sizeBytes : Nat) : ResourceMetadata :=
  { path, name := lastRemoteSegment path, resourceType := .file, sizeBytes := some sizeBytes }

def ResourceMetadata.ofDirectory (path : Str) : ResourceMetadata :=
  { path, name := lastRemoteSegment path, resourceType := .directory }

/-- `BTreeMap<String, ResourceMetadata>`, keyed by remote path. -/
abbrev Inventory := Std.TreeMap Str ResourceMetadata

namespace Inventory

/-- `BTreeMap::values`, in key order. -/
def resources (inventory : Inventory) : List ResourceMetadata := inventory.toList.map Prod.snd

theorem mem_resources {inventory : Inventory} {resource : ResourceMetadata} :
    resource ∈ inventory.resources ↔ ∃ key : Str, inventory[key]? = some resource := by
  simp only [resources,List.mem_map,Prod.exists,exists_eq_right,
    Std.TreeMap.mem_toList_iff_getElem?_eq_some]

/-- A map built by inserting every resource under its own path. -/
def Keyed (inventory : Inventory) : Prop :=
  ∀ (key : Str) (resource : ResourceMetadata),
    inventory[key]? = some resource → resource.path = key

/-- The map the client's answers are collected into. -/
def ofResources (resources : List ResourceMetadata) : Inventory :=
  resources.foldl (fun m resource => m.insert resource.path resource) ∅

theorem getElem?_foldl_insert {resources : List ResourceMetadata} {inventory : Inventory}
    {key : Str} {resource : ResourceMetadata}
    (h : (resources.foldl (fun m r => m.insert r.path r) inventory)[key]? = some resource) :
    inventory[key]? = some resource ∨ (resource ∈ resources ∧ resource.path = key) := by
  induction resources generalizing inventory with
  | nil => exact Or.inl h
  | cons next resources ih =>
    rcases ih h with h | ⟨hm,hk⟩
    · rw [Std.TreeMap.getElem?_insert] at h
      split at h
      · rename_i he
        cases h
        exact Or.inr ⟨by simp,Std.LawfulEqCmp.eq_of_compare he⟩
      · exact Or.inl h
    · exact Or.inr ⟨by simp [hm],hk⟩

/-- Inserting resources that a function names adds its values at their paths. -/
theorem getElem?_foldl_insert_of (f : Str → Option ResourceMetadata) (inventory : Inventory)
    (resources : List ResourceMetadata) (hf : ∀ r ∈ resources, f r.path = some r) (key : Str) :
    (resources.foldl (fun m r => m.insert r.path r) inventory)[key]? =
      if ∃ r ∈ resources, r.path = key then f key else inventory[key]? := by
  induction resources generalizing inventory with
  | nil => simp
  | cons next resources ih =>
    rw [List.foldl_cons,ih _ fun r hr => hf r (by simp [hr])]
    by_cases hk : ∃ r ∈ resources, r.path = key
    · rw [if_pos hk,if_pos]
      obtain ⟨r,hr,he⟩ := hk
      exact ⟨r,by simp [hr],he⟩
    · rw [if_neg hk,Std.TreeMap.getElem?_insert]
      by_cases hn : next.path = key
      · have hex : ∃ r ∈ next :: resources, r.path = key := ⟨next,by simp,hn⟩
        rw [if_pos hex,← hn,hf next (by simp)]
        simp
      · have hnone : ¬ ∃ r ∈ next :: resources, r.path = key := by
          rintro ⟨r,hr,he⟩
          rcases List.mem_cons.mp hr with rfl | hr
          · exact hn he
          · exact hk ⟨r,hr,he⟩
        rw [if_neg hnone,if_neg fun he => hn (Std.LawfulEqCmp.eq_of_compare he)]

theorem keyed_ofResources (resources : List ResourceMetadata) : (ofResources resources).Keyed := by
  intro key resource h
  rcases getElem?_foldl_insert h with h | h
  · simp at h
  · exact h.2

theorem mem_of_mem_ofResources {resources : List ResourceMetadata} {resource : ResourceMetadata}
    (h : resource ∈ (ofResources resources).resources) : resource ∈ resources := by
  obtain ⟨key,h⟩ := mem_resources.mp h
  rcases getElem?_foldl_insert h with h | h
  · simp at h
  · exact h.1

section Paths

variable {inventory : Inventory} (h : inventory.Keyed)

include h

/-- The paths of the resources are the keys. -/
theorem map_path_resources : inventory.resources.map ResourceMetadata.path = inventory.keys := by
  rw [← Std.TreeMap.map_fst_toList_eq_keys,Inventory.resources,List.map_map]
  apply List.map_congr_left
  intro entry he
  exact h _ _ (Std.TreeMap.mem_toList_iff_getElem?_eq_some.1 he)

theorem nodup_paths : (inventory.resources.map ResourceMetadata.path).Nodup := by
  rw [map_path_resources h]
  exact Std.TreeMap.nodup_keys

theorem mem_paths {path : Str} :
    path ∈ inventory.resources.map ResourceMetadata.path ↔ path ∈ inventory := by
  rw [map_path_resources h]
  exact Std.TreeMap.mem_keys

theorem mem_resources_iff {resource : ResourceMetadata} :
    resource ∈ inventory.resources ↔ inventory[resource.path]? = some resource := by
  rw [mem_resources]
  constructor
  · rintro ⟨key,hkey⟩
    rwa [h key resource hkey]
  · intro hkey
    exact ⟨_,hkey⟩

end Paths

end Inventory

inductive FingerprintKind
  | sha256 | metadata | deleted | unknown
  deriving DecidableEq, Repr

namespace FingerprintKind

def asStr : FingerprintKind → Str
  | .sha256 => "sha256".toList
  | .metadata => "metadata".toList
  | .deleted => "deleted".toList
  | .unknown => "unknown".toList

def fromState (value : Str) : FingerprintKind :=
  if value = "sha256".toList then .sha256
  else if value = "metadata".toList then .metadata
  else if value = "deleted".toList then .deleted
  else .unknown

@[simp] theorem fromState_asStr (kind : FingerprintKind) : fromState kind.asStr = kind := by
  cases kind <;> decide

end FingerprintKind

structure Fingerprint where
  kind : FingerprintKind
  value : Str
  fullSha256 : Option Str
  localMd5 : Option Str
  reusedFromState : Bool
  deriving DecidableEq, Repr

structure LocalFileEntry where
  rootId : Str
  localPath : LocalPath
  relativePath : Str
  remotePath : Str
  normalizedRemotePath : Str
  uploadSource : LocalPath
  sizeBytes : Nat
  mtimeNs : Option Int
  ctimeNs : Option Int
  fingerprint : Fingerprint
  sqliteBackupStagingPath : Option LocalPath
  deriving DecidableEq, Repr

structure LocalDirectoryEntry where
  rootId : Str
  localPath : LocalPath
  relativePath : Str
  remotePath : Str
  normalizedRemotePath : Str
  deriving DecidableEq, Repr

structure SkippedScanItem where
  rootId : Str
  localPath : LocalPath
  relativePath : Str
  remotePath : Option Str
  reasonCode : Str
  reasonDetails : Option Str
  sizeBytes : Option Nat
  deriving DecidableEq, Repr

structure FailedScanItem where
  rootId : Str
  localPath : Option LocalPath
  relativePath : Str
  remotePath : Option Str
  errorKind : Str
  errorMessage : Str
  deriving DecidableEq, Repr

structure ScanReport where
  rootId : Str
  files : List LocalFileEntry := []
  directories : List LocalDirectoryEntry := []
  skipped : List SkippedScanItem := []
  failed : List FailedScanItem := []
  deriving DecidableEq, Repr

/-- A stable sort by a key, as `sort_by_key` performs it. -/
def sortByKey {α κ : Type*} [LinearOrder κ] (key : α → κ) (xs : List α) : List α :=
  xs.insertionSort fun a b => key a ≤ key b

@[simp] theorem mem_sortByKey {α κ : Type*} [LinearOrder κ] {key : α → κ} {xs : List α} {a : α} :
    a ∈ sortByKey key xs ↔ a ∈ xs :=
  (List.perm_insertionSort _ xs).mem_iff

theorem sortByKey_perm {α κ : Type*} [LinearOrder κ] (key : α → κ) (xs : List α) :
    (sortByKey key xs).Perm xs :=
  List.perm_insertionSort _ xs

theorem sortByKey_pairwise {α κ : Type*} [LinearOrder κ] (key : α → κ) (xs : List α) :
    (sortByKey key xs).Pairwise fun a b => key a ≤ key b :=
  List.pairwise_insertionSort (fun a b => key a ≤ key b) xs

/-- `sort_deterministically`. -/
def ScanReport.sortDeterministically (report : ScanReport) : ScanReport :=
  { report with
    files := sortByKey LocalFileEntry.relativePath report.files
    directories := sortByKey LocalDirectoryEntry.relativePath report.directories
    skipped := sortByKey SkippedScanItem.relativePath report.skipped
    failed := sortByKey FailedScanItem.relativePath report.failed }

end YaDiskSync
