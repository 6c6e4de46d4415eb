import YaDiskSync.DeleteSafety
import YaDiskSync.RemoteDisk
import YaDiskSync.SyncPlan

/-! Executing a plan on the remote disk. Creates and uploads only write live paths, deletes
reach every other resource under the root and no live one. -/
namespace YaDiskSync

open SepPath

namespace RemoteDisk

def createAll (disk : RemoteDisk) (directories : List LocalDirectoryEntry) : RemoteDisk :=
  directories.foldl (fun disk directory => disk.createDirectory directory.remotePath) disk

def uploadAll (read : LocalPath → Str) (disk : RemoteDisk) (files : List LocalFileEntry) :
    RemoteDisk :=
  files.foldl (fun disk file => disk.uploadSource file.remotePath (read file.uploadSource)) disk

def deleteAll (disk : RemoteDisk) (paths : List Str) : RemoteDisk :=
  paths.foldl deletePermanently disk

variable {disk : RemoteDisk} {read : LocalPath → Str}

theorem getElem?_createAll (directories : List LocalDirectoryEntry) (q : Str) :
    (disk.createAll directories).resources[q]? =
      if q ∈ directories.map LocalDirectoryEntry.remotePath then some (.ofDirectory q)
      else disk.resources[q]? := by
  unfold createAll
  induction directories generalizing disk with
  | nil => simp
  | cons directory directories ih =>
    rw [List.foldl_cons,ih,getElem?_createDirectory]
    rw [List.map_cons]
    by_cases hq : q ∈ directories.map LocalDirectoryEntry.remotePath
    · rw [if_pos hq,if_pos (List.mem_cons_of_mem _ hq)]
    · rw [if_neg hq]
      by_cases he : directory.remotePath = q
      · simp [he]
      · rw [if_neg he,if_neg]
        rw [List.mem_cons,not_or]
        exact ⟨fun h => he h.symm,hq⟩

theorem contents_createAll (directories : List LocalDirectoryEntry) :
    (disk.createAll directories).contents = disk.contents := by
  unfold createAll
  induction directories generalizing disk with
  | nil => rfl
  | cons directory directories ih =>
    rw [List.foldl_cons,ih]
    rfl

theorem sameAt_uploadAll {files : List LocalFileEntry} {q : Str}
    (h : q ∉ files.map LocalFileEntry.remotePath) : SameAt disk (disk.uploadAll read files) q := by
  unfold uploadAll
  induction files generalizing disk with
  | nil => exact SameAt.refl _ _
  | cons file files ih =>
    rw [List.map_cons,List.mem_cons,not_or] at h
    exact (sameAt_uploadSource h.1).trans (ih h.2)

/-- With distinct paths every file ends up with the content of its own source. -/
theorem uploadAll_file {files : List LocalFileEntry}
    (hd : (files.map LocalFileEntry.remotePath).Nodup) {file : LocalFileEntry} (hf : file ∈ files) :
    (disk.uploadAll read files).resources[file.remotePath]? =
        some (.ofFile file.remotePath (read file.uploadSource).length) ∧
      (disk.uploadAll read files).contents[file.remotePath]? =
        some (read file.uploadSource) := by
  induction files generalizing disk with
  | nil => simp at hf
  | cons next files ih =>
    rw [List.map_cons,List.nodup_cons] at hd
    rcases List.mem_cons.mp hf with rfl | hf
    · -- no later upload touches the path again
      have hsame := @sameAt_uploadAll (disk.uploadSource file.remotePath (read file.uploadSource))
        read files file.remotePath hd.1
      exact ⟨hsame.1.trans (by rw [getElem?_uploadSource,if_pos rfl]),
        hsame.2.trans (by rw [contents_uploadSource,if_pos rfl])⟩
    · exact ih hd.2 hf

/-- Where no directory outside `keep` is missing, a delete removes all it covers. -/
theorem getElem?_delete_of_closed {base path : Str} {keep : Str → Prop}
    (hclosed : ClosedBelow base keep disk) (hb : Beneath slash base path) (hk : ¬ keep path)
    (ht : trimEndMatches slash path = path) (q : Str) :
    (disk.deletePermanently path).resources[q]? =
      if Covers slash path q then none else disk.resources[q]? := by
  rw [getElem?_deletePermanently]
  by_cases hc : Covers slash path q
  · rw [if_pos hc]
    rcases hc with rfl | hq
    · simp
    · cases hr : disk.resources[q]? with
      | none => split <;> rfl
      | some resource =>
        have hm : q ∈ disk.resources := Std.TreeMap.mem_iff_isSome_getElem?.mpr (by simp [hr])
        have hchild : q ∈ disk.childPaths path :=
          mem_childPaths.mpr ⟨hclosed q hm path hb hq hk,hm,by rwa [ht]⟩
        rw [if_pos (Or.inr hchild)]
  · rw [if_neg hc,if_neg]
    rintro (rfl | hm)
    · exact hc (Covers.refl _)
    · rw [mem_childPaths,ht] at hm
      exact hc hm.2.2.covers

theorem ClosedBelow.delete {base path : Str} {keep : Str → Prop}
    (hclosed : ClosedBelow base keep disk) (hb : Beneath slash base path) (hk : ¬ keep path)
    (ht : trimEndMatches slash path = path) :
    ClosedBelow base keep (disk.deletePermanently path) := by
  intro q hq m hm hmq hkm
  have hget := getElem?_delete_of_closed hclosed hb hk ht
  rw [Std.TreeMap.mem_iff_isSome_getElem?,hget] at hq
  split at hq
  · simp at hq
  · rename_i hc
    have hdir := hclosed q (Std.TreeMap.mem_iff_isSome_getElem?.mpr hq) m hm hmq hkm
    -- the parent survives, or the resource would not
    have hcm : ¬ Covers slash path m := fun h => hc (h.trans hmq.covers)
    unfold isDirectory at hdir ⊢
    rwa [hget,if_neg hcm]

/-- A run of deletes removes exactly what its paths cover. -/
theorem getElem?_deleteAll {base : Str} {keep : Str → Prop} {paths : List Str}
    (hclosed : ClosedBelow base keep disk)
    (hpaths : ∀ path ∈ paths, Beneath slash base path ∧ ¬ keep path ∧
      trimEndMatches slash path = path) (q : Str) :
    (disk.deleteAll paths).resources[q]? =
      if ∃ path ∈ paths, Covers slash path q then none else disk.resources[q]? := by
  unfold deleteAll
  induction paths generalizing disk with
  | nil => simp
  | cons path paths ih =>
    obtain ⟨hb,hk,ht⟩ := hpaths path (by simp)
    rw [List.foldl_cons,ih (hclosed.delete hb hk ht) (fun p hp => hpaths p (by simp [hp])),
      getElem?_delete_of_closed hclosed hb hk ht]
    by_cases hr : ∃ p ∈ paths, Covers slash p q
    · rw [if_pos hr,if_pos]
      obtain ⟨p,hp,hc⟩ := hr
      exact ⟨p,by simp [hp],hc⟩
    · rw [if_neg hr]
      by_cases hc : Covers slash path q
      · rw [if_pos hc,if_pos ⟨path,by simp,hc⟩]
      · rw [if_neg hc,if_neg]
        rintro ⟨p,hp,hpc⟩
        rcases List.mem_cons.mp hp with rfl | hp
        · exact hc hpc
        · exact hr ⟨p,hp,hpc⟩

theorem sameAt_deleteAll {paths : List Str} {q : Str}
    (h : ∀ path ∈ paths, ¬ Covers slash path q ∧ trimEndMatches slash path = path) :
    SameAt disk (disk.deleteAll paths) q := by
  unfold deleteAll
  induction paths generalizing disk with
  | nil => exact SameAt.refl _ _
  | cons path paths ih =>
    obtain ⟨hc,ht⟩ := h path (by simp)
    exact (sameAt_deletePermanently hc ht).trans (ih fun p hp => h p (by simp [hp]))

end RemoteDisk

/-- A remote tree as one root sees it: parents are directories, names are neither empty nor
`disk:` segments. -/
structure RemoteTree (root : ManagedRoot) where
  disk : RemoteDisk
  keyed : disk.Keyed
  closed : ∀ q ∈ disk.resources, ∀ m, Covers slash root.canonical m → Beneath slash m q →
    disk.isDirectory m = true
  named : ∀ q ∈ disk.resources, ∀ relativePath, q = root.canonical ++ slash :: relativePath →
    (∀ segment ∈ relativePath.splitOn slash, segment ≠ []) ∧
      hasPhantomDiskSegment relativePath = false

/-- A scan of a local tree that stays as it is, next to the remote tree it is mirrored to. -/
structure StaticSync where
  root : ManagedRoot
  ext : Externals
  remote : RemoteTree root
  report : ScanReport
  isDir : LocalPath → Bool
  /-- the content of an upload source -/
  read : LocalPath → Str
  stays : ∀ directory ∈ report.directories, isDir directory.localPath = true
  distinct : (report.directories.map LocalDirectoryEntry.remotePath ++
    report.files.map LocalFileEntry.remotePath).Nodup
  below : ∀ path ∈ report.directories.map LocalDirectoryEntry.remotePath ++
    report.files.map LocalFileEntry.remotePath, Beneath slash root.canonical path
  closed : ∀ path ∈ report.directories.map LocalDirectoryEntry.remotePath ++
    report.files.map LocalFileEntry.remotePath, ∀ m, Beneath slash root.canonical m →
      Beneath slash m path → m ∈ report.directories.map LocalDirectoryEntry.remotePath ++
        report.files.map LocalFileEntry.remotePath
  directoriesFree : ∀ path ∈ root.canonical ::
    report.directories.map LocalDirectoryEntry.remotePath,
      remote.disk.resources.holds path .file = false
  filesFree : ∀ path ∈ report.files.map LocalFileEntry.remotePath,
    remote.disk.resources.holds path .directory = false

/-- An order in which a plan's operations are carried out, phase by phase. -/
structure Schedule (plan : RootPlan) where
  creates : List LocalDirectoryEntry
  uploads : List (LocalFileEntry × Bool)
  deletes : List RemoteDeleteOperation
  creates_perm : creates.Perm plan.createDirectories
  uploads_perm : uploads.Perm plan.uploads
  deletes_perm : deletes.Perm plan.deletes

namespace StaticSync

variable (sync : StaticSync)

def directoryPaths : List Str := sync.report.directories.map LocalDirectoryEntry.remotePath

def filePaths : List Str := sync.report.files.map LocalFileEntry.remotePath

def livePlan : LiveScanPlan :=
  LiveScanPlan.ofScanReport sync.isDir (pathComponents sync.root.config.localPath) sync.report

def inventory : Inventory :=
  sync.remote.disk.freshInventory sync.root.canonical sync.livePlan.pruneRemotePrefixes

def plan : RootPlan :=
  buildRootPlan sync.ext sync.root.config sync.root.canonical sync.livePlan sync.inventory

/-- The disk after all creates, then all uploads. -/
def written (schedule : Schedule sync.plan) : RemoteDisk :=
  (sync.remote.disk.createAll schedule.creates).uploadAll sync.read
    (schedule.uploads.map Prod.fst)

/-- The disk after the deletes too. -/
def final (schedule : Schedule sync.plan) : RemoteDisk :=
  (sync.written schedule).deleteAll (schedule.deletes.map RemoteDeleteOperation.remotePath)

def Live (path : Str) : Prop :=
  path = sync.root.canonical ∨ path ∈ sync.directoryPaths ∨ path ∈ sync.filePaths

end StaticSync

/-- What a run leaves: the live paths with their types and contents, and nothing else below
the root; what is outside stays. -/
structure Mirrored (sync : StaticSync) (final : RemoteDisk) : Prop where
  exact : ∀ path, Covers slash sync.root.canonical path →
    (path ∈ final.resources ↔ sync.Live path)
  directories : ∀ path, path = sync.root.canonical ∨ path ∈ sync.directoryPaths →
    final.resources.holds path .directory = true
  files : ∀ path ∈ sync.filePaths, final.resources.holds path .file = true
  uploaded : ∀ upload ∈ sync.plan.uploads,
    final.contents[upload.1.remotePath]? = some (sync.read upload.1.uploadSource)
  kept : ∀ path, sync.Live path → path ∉ sync.plan.createDirectories.map
    LocalDirectoryEntry.remotePath → path ∉ sync.plan.uploads.map (fun u => u.1.remotePath) →
      RemoteDisk.SameAt sync.remote.disk final path
  outside : ∀ path, ¬ Covers slash sync.root.canonical path →
    RemoteDisk.SameAt sync.remote.disk final path

namespace StaticSync

variable {sync : StaticSync} {path : Str}

theorem mem_livePaths_iff : path ∈ livePaths sync.root sync.livePlan ↔ sync.Live path := by
  rw [livePlan,mem_livePaths_ofScanReport sync.stays]
  simp [Live,directoryPaths,filePaths]

theorem Live.covers (h : sync.Live path) : Covers slash sync.root.canonical path := by
  rcases h with rfl | h | h
  · exact Covers.refl _
  · exact (sync.below path (List.mem_append_left _ h)).covers
  · exact (sync.below path (List.mem_append_right _ h)).covers

/-- The directories between the root and a live path are live. -/
theorem Live.parent (h : sync.Live path) {m : Str} (hm : Beneath slash sync.root.canonical m)
    (hp : Beneath slash m path) : sync.Live m := by
  have hmem : ∀ p, (p ∈ sync.directoryPaths ∨ p ∈ sync.filePaths) ↔
      p ∈ sync.directoryPaths ++ sync.filePaths := fun p => List.mem_append.symm
  rcases h with rfl | h
  · exact absurd (hm.trans hp).length_lt (Nat.lt_irrefl _)
  · exact Or.inr ((hmem m).mpr (sync.closed path ((hmem path).mp h) m hm hp))

theorem not_file_of_directory (h : path = sync.root.canonical ∨ path ∈ sync.directoryPaths) :
    path ∉ sync.filePaths := by
  intro hf
  rcases h with rfl | h
  · exact (sync.below _ (List.mem_append_right _ hf)).ne rfl
  · exact (List.nodup_append'.mp sync.distinct).2.2 h hf

theorem pruneRemotePrefixes_nil : sync.livePlan.pruneRemotePrefixes = [] := by
  rw [livePlan,LiveScanPlan.ofScanReport_of_isDir sync.stays]
  rfl

theorem getElem?_inventory (q : Str) : sync.inventory[q]? =
    if Covers slash sync.root.canonical q then sync.remote.disk.resources[q]? else none := by
  rw [inventory,pruneRemotePrefixes_nil]
  cases hroot : sync.remote.disk.resources[sync.root.canonical]? with
  | some root =>
    exact RemoteDisk.getElem?_freshInventory sync.remote.keyed sync.root.trimEnd hroot q
  | none =>
    -- an absent root has nothing below it
    have hnone : Covers slash sync.root.canonical q → sync.remote.disk.resources[q]? = none := by
      rintro (rfl | hb)
      · exact hroot
      · by_contra hne
        have hmem : q ∈ sync.remote.disk.resources :=
          Std.TreeMap.mem_iff_isSome_getElem?.mpr (Option.isSome_iff_ne_none.mpr hne)
        have hdir := sync.remote.closed q hmem _ (Covers.refl _) hb
        simp [RemoteDisk.isDirectory,hroot] at hdir
    simp only [RemoteDisk.freshInventory,RemoteDisk.metadata,hroot]
    split
    · rename_i hc
      rw [hnone hc]
      rfl
    · rfl

theorem holds_inventory (h : Covers slash sync.root.canonical path) (resourceType : ResourceType) :
    sync.inventory.holds path resourceType =
      sync.remote.disk.resources.holds path resourceType := by
  unfold Inventory.holds
  rw [getElem?_inventory,if_pos h]

theorem mem_inventory_resources {resource : ResourceMetadata} :
    resource ∈ sync.inventory.resources ↔
      sync.remote.disk.resources[resource.path]? = some resource ∧
        Covers slash sync.root.canonical resource.path := by
  rw [Inventory.mem_resources]
  constructor
  · rintro ⟨key,h⟩
    rw [getElem?_inventory] at h
    split at h
    · rename_i hc
      have hkey := sync.remote.keyed key resource h
      exact hkey ▸ ⟨h,hc⟩
    · cases h
  · rintro ⟨h,hc⟩
    exact ⟨resource.path,by rw [getElem?_inventory,if_pos hc,h]⟩

abbrev planned (sync : StaticSync) : List RemoteDeleteOperation :=
  plannedDeletes sync.root sync.livePlan sync.inventory

theorem plainBelow_of_mem {q : Str} (h : q ∈ sync.remote.disk.resources) :
    PlainBelow sync.root.canonical q :=
  fun relativePath he => (sync.remote.named q h relativePath he).1

theorem mem_of_getElem? {disk : RemoteDisk} {q : Str} {resource : ResourceMetadata}
    (h : disk.resources[q]? = some resource) : q ∈ disk.resources :=
  Std.TreeMap.mem_iff_isSome_getElem?.mpr (by simp [h])

theorem plainBelow_inventory :
    ∀ resource ∈ sync.inventory.resources, PlainBelow sync.root.canonical resource.path :=
  fun _ h => plainBelow_of_mem (mem_of_getElem? (mem_inventory_resources.mp h).1)

/-- Deletes leave live paths alone. -/
theorem live_not_covered (h : sync.Live path) {operation : RemoteDeleteOperation}
    (hop : operation ∈ sync.planned) : ¬ Covers slash operation.remotePath path := by
  intro hc
  obtain ⟨resource,_,hrem,hcases⟩ := (covered_iff plainBelow_inventory).mp ⟨operation,hop,hc⟩
  have hnot : ¬ sync.Live resource.path := fun hl => hrem.notLive (mem_livePaths_iff.mpr hl)
  have hbelow : Beneath slash sync.root.canonical resource.path := by
    obtain ⟨rel,hrel⟩ := hrem.candidate
    have hpath := (candidate_ok hrel).1
    rw [sync.root.trimEnd] at hpath
    exact hpath ▸ beneath_append _ _
  rcases hcases with (rfl | hb) | ⟨m,hd,_,_,hmp⟩
  · exact hnot h
  · exact hnot (h.parent hbelow hb)
  · exact hd path (mem_livePaths_iff.mpr h) hmp

/-- Every other resource below the root is reached by a delete. -/
theorem covered_of_not_live (hm : path ∈ sync.remote.disk.resources)
    (hb : Beneath slash sync.root.canonical path) (hn : ¬ sync.Live path) :
    ∃ operation ∈ sync.planned, Covers slash operation.remotePath path := by
  obtain ⟨relativePath,hpath⟩ := beneath_iff.mp hb
  obtain ⟨hsegments,hphantom⟩ := sync.remote.named path hm relativePath hpath
  have hne : relativePath ≠ [] := by
    rintro rfl
    exact hsegments [] (by simp) rfl
  have hcand := candidate_of sync.root.canonical hne hphantom
  rw [sync.root.trimEnd,← hpath] at hcand
  obtain ⟨resource,hr⟩ := Option.isSome_iff_exists.mp (Std.TreeMap.mem_iff_isSome_getElem?.mp hm)
  have hkey : resource.path = path := sync.remote.keyed path resource hr
  refine (covered_iff plainBelow_inventory).mpr ⟨resource,mem_inventory_resources.mpr
    ⟨hkey ▸ hr,hkey ▸ hb.covers⟩,⟨hkey ▸ ⟨_,hcand⟩,?_⟩,Or.inl (Or.inl hkey.symm)⟩
  rw [hkey]
  exact fun hl => hn (mem_livePaths_iff.mp hl)

theorem planned_path {operation : RemoteDeleteOperation} (hop : operation ∈ sync.planned) :
    Beneath slash sync.root.canonical operation.remotePath ∧ ¬ sync.Live operation.remotePath ∧
      trimEndMatches slash operation.remotePath = operation.remotePath := by
  obtain ⟨resource,hr,hrem,ht,_⟩ := plannedDeletes_sound hop
  have hplain := plainBelow_inventory resource hr
  obtain ⟨rel,hrel⟩ := hrem.target_candidate
  have hpath := (candidate_ok hrel).1
  rw [sync.root.trimEnd,← ht] at hpath
  have hb : Beneath slash sync.root.canonical operation.remotePath := hpath ▸ beneath_append _ _
  refine ⟨hb,fun hl => live_not_covered hl hop (Covers.refl _),?_⟩
  exact hplain.trimEnd_of_covers hb (ht ▸ target_covers hrem hplain)

section Phases

variable {schedule : Schedule sync.plan}

theorem mem_creates {directory : LocalDirectoryEntry} :
    directory ∈ schedule.creates ↔
      directory ∈ plannedCreates sync.ext sync.root.config sync.root.canonical sync.livePlan
        sync.inventory := by
  rw [schedule.creates_perm.mem_iff,plan,createDirectories_buildRootPlan]

theorem mem_deletes {delete : RemoteDeleteOperation} :
    delete ∈ schedule.deletes ↔ delete ∈ sync.planned := by
  rw [schedule.deletes_perm.mem_iff,plan,mem_deletes_buildRootPlan]

theorem livePlan_directories {directory : LocalDirectoryEntry} :
    directory ∈ sync.livePlan.directories ↔ directory ∈ sync.report.directories := by
  rw [livePlan,LiveScanPlan.ofScanReport_of_isDir sync.stays]
  exact mem_sortByKey

theorem livePlan_files : sync.livePlan.files = sync.report.files := by
  rw [livePlan,LiveScanPlan.ofScanReport_of_isDir sync.stays]

theorem mem_create_paths : path ∈ schedule.creates.map LocalDirectoryEntry.remotePath ↔
    (path = sync.root.canonical ∨ path ∈ sync.directoryPaths) ∧
      sync.remote.disk.resources.holds path .directory = false := by
  have hcovers : ∀ p, (p = sync.root.canonical ∨ p ∈ sync.directoryPaths) →
      Covers slash sync.root.canonical p := fun p h =>
    Live.covers (h.imp_right Or.inl)
  simp only [List.mem_map,mem_creates,plannedCreates,List.mem_filter,List.mem_cons,
    Bool.not_eq_true']
  constructor
  · rintro ⟨directory,⟨hd,hno⟩,rfl⟩
    have hlive : directory.remotePath = sync.root.canonical ∨
        directory.remotePath ∈ sync.directoryPaths := by
      rcases hd with rfl | hd
      · exact Or.inl rfl
      · exact Or.inr (List.mem_map_of_mem (livePlan_directories.mp hd))
    exact ⟨hlive,by rwa [holds_inventory (hcovers _ hlive)] at hno⟩
  · rintro ⟨hlive,hno⟩
    rw [← holds_inventory (hcovers _ hlive)] at hno
    rcases hlive with rfl | h
    · exact ⟨_,⟨Or.inl rfl,hno⟩,rfl⟩
    · obtain ⟨directory,hd,rfl⟩ := List.mem_map.mp h
      exact ⟨directory,⟨Or.inr (livePlan_directories.mpr hd),hno⟩,rfl⟩

theorem plan_uploads : sync.plan.uploads = plannedUploads sync.livePlan sync.inventory := by
  rw [plan,uploads_buildRootPlan]

theorem uploads_perm : (schedule.uploads.map Prod.fst).Perm
    (sync.report.files.filter (shouldUpload sync.inventory)) := by
  refine (schedule.uploads_perm.map Prod.fst).trans ?_
  rw [plan_uploads,plannedUploads,livePlan_files,List.map_map]
  exact List.Perm.of_eq (List.map_id _)

theorem upload_paths_nodup :
    ((schedule.uploads.map Prod.fst).map LocalFileEntry.remotePath).Nodup := by
  rw [(uploads_perm.map _).nodup_iff]
  exact (List.nodup_append'.mp sync.distinct).2.1.sublist (List.filter_sublist.map _)

theorem mem_upload_paths
    (h : path ∈ (schedule.uploads.map Prod.fst).map LocalFileEntry.remotePath) :
    path ∈ sync.filePaths := by
  rw [(uploads_perm.map _).mem_iff] at h
  exact (List.filter_sublist.map _).subset h

/-- Creates and uploads write live paths only. -/
theorem sameAt_written (hn : ¬ sync.Live path) :
    RemoteDisk.SameAt sync.remote.disk (sync.written schedule) path := by
  have hc : path ∉ schedule.creates.map LocalDirectoryEntry.remotePath := fun h =>
    hn ((mem_create_paths.mp h).1.imp_right Or.inl)
  have hu : path ∉ (schedule.uploads.map Prod.fst).map LocalFileEntry.remotePath := fun h =>
    hn (Or.inr (Or.inr (mem_upload_paths h)))
  refine RemoteDisk.SameAt.trans ⟨?_,?_⟩ (RemoteDisk.sameAt_uploadAll hu)
  · rw [RemoteDisk.getElem?_createAll,if_neg hc]
  · rw [RemoteDisk.contents_createAll]

theorem written_directory (h : path = sync.root.canonical ∨ path ∈ sync.directoryPaths) :
    (sync.written schedule).resources.holds path .directory = true := by
  have hu : path ∉ (schedule.uploads.map Prod.fst).map LocalFileEntry.remotePath := fun hm =>
    not_file_of_directory h (mem_upload_paths hm)
  unfold Inventory.holds
  rw [written,(RemoteDisk.sameAt_uploadAll hu).1,RemoteDisk.getElem?_createAll]
  split
  · rfl
  · rename_i hc
    by_contra hno
    exact hc (mem_create_paths.mpr ⟨h,Bool.not_eq_true _ ▸ hno⟩)

theorem written_upload {file : LocalFileEntry} (h : file ∈ schedule.uploads.map Prod.fst) :
    (sync.written schedule).resources.holds file.remotePath .file = true ∧
      (sync.written schedule).contents[file.remotePath]? = some (sync.read file.uploadSource) := by
  have hfile := @RemoteDisk.uploadAll_file (sync.remote.disk.createAll schedule.creates) sync.read
    _ upload_paths_nodup _ h
  refine ⟨?_,hfile.2⟩
  unfold Inventory.holds written
  rw [hfile.1]
  rfl

theorem written_file (h : path ∈ sync.filePaths) :
    (sync.written schedule).resources.holds path .file = true := by
  obtain ⟨file,hf,rfl⟩ := List.mem_map.mp h
  by_cases hu : file ∈ schedule.uploads.map Prod.fst
  · exact (written_upload hu).1
  · -- the file was left alone because the inventory holds it
    have hlive : sync.Live file.remotePath := Or.inr (Or.inr h)
    have hno : shouldUpload sync.inventory file = false := by
      by_contra hs
      exact hu (uploads_perm.mem_iff.mpr (List.mem_filter.mpr ⟨hf,Bool.not_eq_false _ ▸ hs⟩))
    have hholds : sync.inventory.holds file.remotePath .file = true := by
      simp only [shouldUpload,Bool.or_eq_false_iff,Bool.not_eq_false'] at hno
      exact hno.2
    rw [holds_inventory hlive.covers] at hholds
    have hpath : file.remotePath ∉
        (schedule.uploads.map Prod.fst).map LocalFileEntry.remotePath := by
      intro hm
      obtain ⟨other,ho,he⟩ := List.mem_map.mp hm
      have hother := List.mem_of_mem_filter (uploads_perm.mem_iff.mp ho)
      have hinj := List.inj_on_of_nodup_map (List.nodup_append'.mp sync.distinct).2.1 hother hf he
      exact hu (hinj ▸ ho)
    have hcreate : file.remotePath ∉ schedule.creates.map LocalDirectoryEntry.remotePath :=
      fun hm => not_file_of_directory (mem_create_paths.mp hm).1 h
    unfold Inventory.holds at hholds ⊢
    rwa [written,(RemoteDisk.sameAt_uploadAll hpath).1,RemoteDisk.getElem?_createAll,
      if_neg hcreate]

/-- Directories that are not live stay in place until the deletes. -/
theorem closed_written :
    RemoteDisk.ClosedBelow sync.root.canonical sync.Live (sync.written schedule) := by
  intro q hq m hm hmq hn
  have hnq : ¬ sync.Live q := fun h => hn (h.parent hm hmq)
  have hq' : q ∈ sync.remote.disk.resources := by
    rw [Std.TreeMap.mem_iff_isSome_getElem?] at hq ⊢
    rwa [(sameAt_written hnq).1] at hq
  have hdir := sync.remote.closed q hq' m hm.covers hmq
  unfold RemoteDisk.isDirectory at hdir ⊢
  rwa [(sameAt_written hn).1]

theorem getElem?_final (q : Str) : (sync.final schedule).resources[q]? =
    if ∃ operation ∈ sync.planned, Covers slash operation.remotePath q then none
    else (sync.written schedule).resources[q]? := by
  have hpaths : ∀ p ∈ schedule.deletes.map RemoteDeleteOperation.remotePath,
      Beneath slash sync.root.canonical p ∧ ¬ sync.Live p ∧ trimEndMatches slash p = p := by
    intro p hp
    obtain ⟨operation,hop,rfl⟩ := List.mem_map.mp hp
    exact planned_path (mem_deletes.mp hop)
  rw [final,RemoteDisk.getElem?_deleteAll closed_written hpaths]
  congr 1
  simp [mem_deletes]

theorem sameAt_final (h : ∀ operation ∈ sync.planned, ¬ Covers slash operation.remotePath path) :
    RemoteDisk.SameAt (sync.written schedule) (sync.final schedule) path := by
  refine RemoteDisk.sameAt_deleteAll fun p hp => ?_
  obtain ⟨operation,hop,rfl⟩ := List.mem_map.mp hp
  rw [mem_deletes] at hop
  exact ⟨h operation hop,(planned_path hop).2.2⟩

theorem final_live (h : sync.Live path) :
    RemoteDisk.SameAt (sync.written schedule) (sync.final schedule) path :=
  sameAt_final fun _ hop => live_not_covered h hop

theorem holds_final (h : sync.Live path) {resourceType : ResourceType}
    (hw : (sync.written schedule).resources.holds path resourceType = true) :
    (sync.final schedule).resources.holds path resourceType = true := by
  unfold Inventory.holds at hw ⊢
  rwa [(final_live h).1]

end Phases

end StaticSync

/-- Whatever the order inside the phases, a plan carried out in full mirrors the local tree. -/
theorem plan_mirrors (sync : StaticSync) (schedule : Schedule sync.plan) :
    Mirrored sync (sync.final schedule) := by
  have hdirectory : ∀ path, path = sync.root.canonical ∨ path ∈ sync.directoryPaths →
      (sync.final schedule).resources.holds path .directory = true := fun path h =>
    StaticSync.holds_final (h.imp_right Or.inl) (StaticSync.written_directory h)
  have hfile : ∀ path ∈ sync.filePaths,
      (sync.final schedule).resources.holds path .file = true := fun path h =>
    StaticSync.holds_final (Or.inr (Or.inr h)) (StaticSync.written_file h)
  have hmem : ∀ {path resourceType},
      (sync.final schedule).resources.holds path resourceType = true →
        path ∈ (sync.final schedule).resources := by
    intro path resourceType h
    obtain ⟨resource,hr,_⟩ := (Option.any_eq_true _ _).mp h
    exact StaticSync.mem_of_getElem? hr
  refine ⟨fun path hc => ⟨fun h => ?_,fun h => ?_⟩,hdirectory,hfile,?_,?_,?_⟩
  · -- what survives the deletes is live
    by_contra hn
    rw [Std.TreeMap.mem_iff_isSome_getElem?,StaticSync.getElem?_final] at h
    split at h
    · simp at h
    · rename_i hno
      rw [(StaticSync.sameAt_written hn).1] at h
      have hb := hc.beneath_of_ne fun he => hn (Or.inl he.symm)
      exact hno (StaticSync.covered_of_not_live
        (Std.TreeMap.mem_iff_isSome_getElem?.mpr h) hb hn)
  · rcases h with h | h | h
    · exact hmem (hdirectory path (Or.inl h))
    · exact hmem (hdirectory path (Or.inr h))
    · exact hmem (hfile path h)
  · intro upload hu
    have hs : upload.1 ∈ schedule.uploads.map Prod.fst :=
      List.mem_map_of_mem (schedule.uploads_perm.mem_iff.mpr hu)
    have hlive : sync.Live upload.1.remotePath := Or.inr (Or.inr
      (StaticSync.mem_upload_paths (List.mem_map_of_mem hs)))
    rw [(StaticSync.final_live hlive).2]
    exact (StaticSync.written_upload hs).2
  · intro path hlive hc hu
    refine RemoteDisk.SameAt.trans ?_ (StaticSync.final_live hlive)
    rw [← (schedule.creates_perm.map _).mem_iff] at hc
    have hu' : path ∉ (schedule.uploads.map Prod.fst).map LocalFileEntry.remotePath := by
      rw [List.map_map]
      rwa [← (schedule.uploads_perm.map _).mem_iff] at hu
    refine RemoteDisk.SameAt.trans ⟨?_,?_⟩ (RemoteDisk.sameAt_uploadAll hu')
    · rw [RemoteDisk.getElem?_createAll,if_neg hc]
    · rw [RemoteDisk.contents_createAll]
  · intro path hout
    refine (StaticSync.sameAt_written fun hl => hout hl.covers).trans
      (StaticSync.sameAt_final fun operation hop hc => ?_)
    exact hout ((StaticSync.planned_path hop).1.trans_covers hc).covers

section Notes

/-! A directory and a file that are not on the disk yet, next to a file that is gone locally. -/

private def notesRoot : ManagedRoot where
  config := { id := "r".toList, name := "r".toList, enabled := true, localPath := "/notes".toList }
  remoteRoot := "disk:/Backup".toList
  canonical := "disk:/Backup/notes".toList
  mapped := by decide

private def notesDisk : RemoteDisk where
  resources := Inventory.ofResources
    [.ofDirectory "disk:/Backup/notes".toList,.ofFile "disk:/Backup/notes/old".toList 1]

private def notesReport : ScanReport where
  rootId := "r".toList
  directories := [{
    rootId := "r".toList, localPath := ["notes".toList,"d".toList], relativePath := "d".toList
    remotePath := "disk:/Backup/notes/d".toList
    normalizedRemotePath := "disk:/backup/notes/d".toList }]
  files := [{
    rootId := "r".toList, localPath := ["notes".toList,"f".toList], relativePath := "f".toList
    remotePath := "disk:/Backup/notes/f".toList
    normalizedRemotePath := "disk:/backup/notes/f".toList
    uploadSource := ["notes".toList,"f".toList], sizeBytes := 1, mtimeNs := none, ctimeNs := none
    fingerprint := ⟨.sha256,"0a".toList,none,none,false⟩, sqliteBackupStagingPath := none }]

private theorem mem_notesDisk {q : Str} (h : q ∈ notesDisk.resources) :
    q = notesRoot.canonical ++ slash :: "old".toList ∨ q = notesRoot.canonical := by
  change q ∈ Inventory.ofResources _ at h
  simp only [Inventory.ofResources,List.foldl_cons,List.foldl_nil,Std.TreeMap.mem_insert] at h
  rcases h with h | h | h
  · exact Or.inl (Std.LawfulEqCmp.eq_of_compare h).symm
  · exact Or.inr (Std.LawfulEqCmp.eq_of_compare h).symm
  · simp at h

private def notesTree : RemoteTree notesRoot where
  disk := notesDisk
  keyed := Inventory.keyed_ofResources _
  closed q hq m hm hmq := by
    rcases mem_notesDisk hq with rfl | rfl
    · rw [← hm.antisymm ((beneath_snoc_iff (by decide)).mp hmq)]
      decide +kernel
    · exact absurd hm.isPrefix.length_le (Nat.not_le.mpr hmq.length_lt)
  named q hq relativePath he := by
    rcases mem_notesDisk hq with rfl | rfl
    · have hrelative : relativePath = "old".toList := by simpa using he.symm
      subst hrelative
      decide
    · simpa using congrArg List.length he

private theorem notesPaths {path : Str}
    (h : path ∈ notesReport.directories.map LocalDirectoryEntry.remotePath ++
      notesReport.files.map LocalFileEntry.remotePath) :
    ∃ name : Str, slash ∉ name ∧ path = notesRoot.canonical ++ slash :: name := by
  rcases List.mem_cons.mp h with rfl | h
  · exact ⟨"d".toList,by decide,by decide⟩
  · rw [List.mem_singleton.mp h]
    exact ⟨"f".toList,by decide,by decide⟩

private def notesSync : StaticSync where
  root := notesRoot
  ext := asciiExternals
  remote := notesTree
  report := notesReport
  isDir _ := true
  read _ := "x".toList
  stays _ _ := rfl
  distinct := by decide
  below path h := by
    obtain ⟨name,_,rfl⟩ := notesPaths h
    exact beneath_append _ _
  closed path h m hm hmp := by
    obtain ⟨name,hname,rfl⟩ := notesPaths h
    exact absurd (hm.trans_covers ((beneath_snoc_iff hname).mp hmp)) fun hb => hb.ne rfl
  directoriesFree := by decide +kernel
  filesFree := by decide +kernel

private def notesSchedule : Schedule notesSync.plan :=
  ⟨_,_,_,.refl _,.refl _,.refl _⟩

/-- One directory is created, one file uploaded and one deleted. -/
theorem notes_mirrored :
    notesSync.plan.createDirectories.map LocalDirectoryEntry.remotePath =
        ["disk:/Backup/notes/d".toList] ∧
      notesSync.plan.uploads.map (fun upload => upload.1.remotePath) =
        ["disk:/Backup/notes/f".toList] ∧
      notesSync.plan.deletes.map RemoteDeleteOperation.remotePath =
        ["disk:/Backup/notes/old".toList] ∧
      Mirrored notesSync (notesSync.final notesSchedule) :=
  ⟨by decide +kernel,by decide +kernel,by decide +kernel,plan_mirrors notesSync notesSchedule⟩

end Notes

end YaDiskSync
