import YaDiskSync.DeleteCoverage

/-! The remote disk as `MockYandexDiskClient` keeps it: resources by path, and the contents
of files that were uploaded. -/
namespace YaDiskSync

open SepPath

structure RemoteDisk where
  resources : Inventory := ∅
  contents : Std.TreeMap Str Str := ∅

section EraseAll

variable {β : Type*}

def eraseAll (m : Std.TreeMap Str β) (paths : List Str) : Std.TreeMap Str β :=
  paths.foldl (fun m path => m.erase path) m

theorem getElem?_eraseAll (m : Std.TreeMap Str β) (paths : List Str) (q : Str) :
    (eraseAll m paths)[q]? = if q ∈ paths then none else m[q]? := by
  unfold eraseAll
  induction paths generalizing m with
  | nil => simp
  | cons path paths ih =>
    rw [List.foldl_cons,ih,Std.TreeMap.getElem?_erase]
    by_cases hp : path = q
    · simp [hp]
    · have hq : q ≠ path := fun h => hp h.symm
      simp [hp,hq]

end EraseAll

namespace RemoteDisk

variable (disk : RemoteDisk) (path : Str)

def metadata : Option ResourceMetadata := disk.resources[path]?

/-- `format!("{}/", remote_path.trim_end_matches('/'))`. -/
def childPrefix (path : Str) : Str := trimEndMatches slash path ++ [slash]

def listRecursive (pruneRemotePrefixes : List Str) : List ResourceMetadata :=
  (disk.resources.resources.filter fun resource =>
    (childPrefix path).isPrefixOf resource.path).filter fun resource =>
      !(pruneRemotePrefixes.map (trimEndMatches slash)).any fun pruned =>
        resource.path ≠ pruned &&
          (stripPrefix pruned resource.path).any fun suffix => suffix.head? == some slash

def createDirectory : RemoteDisk :=
  { disk with resources := disk.resources.insert path (.ofDirectory path) }

def uploadSource (content : Str) : RemoteDisk :=
  { resources := disk.resources.insert path (.ofFile path content.length)
    contents := disk.contents.insert path content }

def isDirectory : Bool := (disk.resources[path]?).any fun r => r.resourceType == .directory

def childPaths : List Str :=
  if disk.isDirectory path then
    disk.resources.keys.filter fun key => (childPrefix path).isPrefixOf key
  else []

def deletePermanently : RemoteDisk :=
  { resources := (eraseAll disk.resources (disk.childPaths path)).erase path
    contents := (eraseAll disk.contents (disk.childPaths path)).erase path }

/-- The inventory of a fresh listing: the root's metadata, then what lies below it. -/
def freshInventory (pruneRemotePrefixes : List Str) : Inventory :=
  match disk.metadata path with
  | none => ∅
  | some root => (disk.listRecursive path pruneRemotePrefixes).foldl
      (fun m resource => m.insert resource.path resource) ((∅ : Inventory).insert root.path root)

variable {disk path}

theorem mem_childPaths {q : Str} : q ∈ disk.childPaths path ↔
    disk.isDirectory path = true ∧ q ∈ disk.resources ∧
      Beneath slash (trimEndMatches slash path) q := by
  unfold childPaths childPrefix Beneath
  split
  · rename_i h
    simp [h]
  · rename_i h
    simp [h]

theorem getElem?_deletePermanently (q : Str) :
    (disk.deletePermanently path).resources[q]? =
      if q = path ∨ q ∈ disk.childPaths path then none else disk.resources[q]? := by
  unfold deletePermanently
  rw [Std.TreeMap.getElem?_erase,getElem?_eraseAll]
  by_cases hp : path = q
  · simp [hp]
  · have hq : q ≠ path := fun h => hp h.symm
    simp [hp,hq]

theorem contents_deletePermanently (q : Str) :
    (disk.deletePermanently path).contents[q]? =
      if q = path ∨ q ∈ disk.childPaths path then none else disk.contents[q]? := by
  unfold deletePermanently
  rw [Std.TreeMap.getElem?_erase,getElem?_eraseAll]
  by_cases hp : path = q
  · simp [hp]
  · have hq : q ≠ path := fun h => hp h.symm
    simp [hp,hq]

theorem getElem?_createDirectory (q : Str) : (disk.createDirectory path).resources[q]? =
    if path = q then some (.ofDirectory path) else disk.resources[q]? := by
  simp [createDirectory,Std.TreeMap.getElem?_insert]

theorem getElem?_uploadSource (content q : Str) : (disk.uploadSource path content).resources[q]? =
    if path = q then some (.ofFile path content.length) else disk.resources[q]? := by
  simp [uploadSource,Std.TreeMap.getElem?_insert]

theorem contents_uploadSource (content q : Str) : (disk.uploadSource path content).contents[q]? =
    if path = q then some content else disk.contents[q]? := by
  simp [uploadSource,Std.TreeMap.getElem?_insert]

/-- What an operation leaves alone at a path. -/
def SameAt (disk disk' : RemoteDisk) (q : Str) : Prop :=
  disk'.resources[q]? = disk.resources[q]? ∧ disk'.contents[q]? = disk.contents[q]?

theorem SameAt.refl (disk : RemoteDisk) (q : Str) : SameAt disk disk q := ⟨rfl,rfl⟩

theorem SameAt.trans {d d' d'' : RemoteDisk} {q : Str} (h : SameAt d d' q)
    (h' : SameAt d' d'' q) : SameAt d d'' q :=
  ⟨h'.1.trans h.1,h'.2.trans h.2⟩

theorem sameAt_createDirectory {q : Str} (h : q ≠ path) :
    SameAt disk (disk.createDirectory path) q := by
  refine ⟨?_,rfl⟩
  rw [getElem?_createDirectory,if_neg (fun he => h he.symm)]

theorem sameAt_uploadSource {q content : Str} (h : q ≠ path) :
    SameAt disk (disk.uploadSource path content) q := by
  refine ⟨?_,?_⟩
  · rw [getElem?_uploadSource,if_neg (fun he => h he.symm)]
  · rw [contents_uploadSource,if_neg (fun he => h he.symm)]

theorem sameAt_deletePermanently {q : Str} (h : ¬ Covers slash path q)
    (ht : trimEndMatches slash path = path) : SameAt disk (disk.deletePermanently path) q := by
  have hn : ¬ (q = path ∨ q ∈ disk.childPaths path) := by
    rintro (rfl | hm)
    · exact h (Covers.refl _)
    · rw [mem_childPaths,ht] at hm
      exact h hm.2.2.covers
  exact ⟨by rw [getElem?_deletePermanently,if_neg hn],by rw [contents_deletePermanently,if_neg hn]⟩

/-- Every resource is filed under its own path. -/
def Keyed (disk : RemoteDisk) : Prop := disk.resources.Keyed

theorem mem_listRecursive (hk : disk.Keyed) (ht : trimEndMatches slash path = path)
    {resource : ResourceMetadata} : resource ∈ disk.listRecursive path [] ↔
      disk.resources[resource.path]? = some resource ∧ Beneath slash path resource.path := by
  simp only [listRecursive,childPrefix,ht,List.map_nil,List.any_nil,Bool.not_false,
    List.filter_true,List.mem_filter,Inventory.mem_resources,List.isPrefixOf_iff_prefix,Beneath]
  refine and_congr ⟨?_,fun h => ⟨_,h⟩⟩ Iff.rfl
  rintro ⟨key,h⟩
  rwa [hk key resource h]

/-- With the root present a fresh inventory is the remote tree at and below it. -/
theorem getElem?_freshInventory (hk : disk.Keyed) (ht : trimEndMatches slash path = path)
    {root : ResourceMetadata} (hroot : disk.resources[path]? = some root) (q : Str) :
    (disk.freshInventory path [])[q]? =
      if Covers slash path q then disk.resources[q]? else none := by
  have hpath : root.path = path := hk path root hroot
  have hfold := fun m => Inventory.getElem?_foldl_insert_of (fun q => disk.resources[q]?) m
    (disk.listRecursive path []) (fun r hr => ((mem_listRecursive hk ht).mp hr).1) q
  simp only [freshInventory,metadata,hroot,hfold,hpath,Std.TreeMap.getElem?_insert]
  by_cases hb : ∃ r ∈ disk.listRecursive path [], r.path = q
  · rw [if_pos hb,if_pos]
    obtain ⟨r,hr,rfl⟩ := hb
    exact ((mem_listRecursive hk ht).mp hr).2.covers
  · rw [if_neg hb]
    by_cases hq : path = q
    · subst hq
      simp [hroot]
    · by_cases hc : Covers slash path q
      · have hnone : disk.resources[q]? = none := by
          by_contra hne
          obtain ⟨r,hr⟩ := Option.ne_none_iff_exists'.mp hne
          have hrq : r.path = q := hk q r hr
          exact hb ⟨r,(mem_listRecursive hk ht).mpr
            ⟨hrq ▸ hr,hrq ▸ hc.beneath_of_ne hq⟩,hrq⟩
        simp [hq,hc,hnone]
      · simp [hq,hc]

/-- The directories strictly between `base` and a resource are present. -/
def ClosedBelow (base : Str) (keep : Str → Prop) (disk : RemoteDisk) : Prop :=
  ∀ q ∈ disk.resources, ∀ m, Beneath slash base m → Beneath slash m q → ¬ keep m →
    disk.isDirectory m = true

end RemoteDisk

end YaDiskSync
