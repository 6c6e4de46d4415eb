import YaDiskSync.MirrorScan
import YaDiskSync.RemoteWrites
import YaDiskSync.RootIsolation

/-! The writes of several plans on one remote, in any order. Each root ends up as its own plan has
it: the writes of the other plans stay apart from it. -/
namespace YaDiskSync

open SepPath

/-- A write that does not touch what is at or below `base`. -/
def RemoteWrite.Apart (base : Str) : RemoteWrite → Prop
  | .createDirectory path => ¬ SepPath.Covers slash base path
  | .uploadSource path _ => ¬ SepPath.Covers slash base path
  | .deletePermanently path =>
    trimEndMatches slash path = path ∧
      ∀ q, SepPath.Covers slash base q → ¬ SepPath.Covers slash path q

theorem RemoteWrite.Apart.proper {base : Str} {keep : Str → Prop} {write : RemoteWrite}
    (h : write.Apart base) : write.Proper base keep := by
  cases write with
  | createDirectory path => exact fun hc => absurd hc h
  | uploadSource path content => exact fun hc => absurd hc h
  | deletePermanently path => exact ⟨h.1,Or.inr h.2⟩

theorem RemoteWrite.Apart.spares {base q : Str} {write : RemoteWrite} (h : write.Apart base)
    (hq : SepPath.Covers slash base q) : write.Spares q := by
  cases write with
  | createDirectory path => exact fun he => h (he ▸ hq)
  | uploadSource path content => exact fun he => h (he ▸ hq)
  | deletePermanently path => exact ⟨h.2 q hq,h.1⟩

theorem RemoteWrite.Apart.made_ne {base q : Str} {write : RemoteWrite} (h : write.Apart base)
    (hq : SepPath.Covers slash base q) : write.made ≠ some q := by
  intro hm
  cases write with
  | createDirectory path =>
    cases hm
    exact h hq
  | uploadSource path content =>
    cases hm
    exact h hq
  | deletePermanently path => cases hm

/-- What a run leaves of a root: the live paths with their types and contents, and nothing else. -/
structure MirroredBelow (sync : StaticSync) (final : RemoteDisk) : Prop where
  exact : ∀ path, SepPath.Covers slash sync.root.canonical path →
    (path ∈ final.resources ↔ sync.Live path)
  directories : ∀ path, path = sync.root.canonical ∨ path ∈ sync.directoryPaths →
    final.resources.holds path .directory = true
  files : ∀ path ∈ sync.filePaths, final.resources.holds path .file = true
  uploaded : ∀ upload ∈ sync.plan.uploads,
    final.contents[upload.1.remotePath]? = some (sync.read upload.1.uploadSource)
  kept : ∀ path, sync.Live path → path ∉ sync.plan.createDirectories.map
    LocalDirectoryEntry.remotePath → path ∉ sync.plan.uploads.map (fun u => u.1.remotePath) →
      RemoteDisk.SameAt sync.remote.disk final path

namespace StaticSync

variable (sync : StaticSync)

/-- The changes a plan asks for. -/
def writes : List RemoteWrite :=
  sync.plan.createDirectories.map (fun directory => .createDirectory directory.remotePath) ++
    sync.plan.uploads.map (fun upload =>
      .uploadSource upload.1.remotePath (sync.read upload.1.uploadSource)) ++
    sync.plan.deletes.map fun delete => .deletePermanently delete.remotePath

/-- The order of the plan itself. -/
def planOrder : Schedule sync.plan :=
  ⟨_,_,_,List.Perm.refl _,List.Perm.refl _,List.Perm.refl _⟩

variable {sync} {write : RemoteWrite} {path : Str}

/-- The kinds of a plan's writes. -/
theorem mem_writes : write ∈ sync.writes ↔
    (∃ path, write = .createDirectory path ∧
      (path = sync.root.canonical ∨ path ∈ sync.directoryPaths) ∧
        sync.remote.disk.resources.holds path .directory = false) ∨
    (∃ upload ∈ sync.plan.uploads,
      write = .uploadSource upload.1.remotePath (sync.read upload.1.uploadSource)) ∨
    ∃ operation ∈ sync.planned, write = .deletePermanently operation.remotePath := by
  have hcreates : write ∈ sync.plan.createDirectories.map
      (fun directory => RemoteWrite.createDirectory directory.remotePath) ↔
      ∃ path ∈ sync.planOrder.creates.map LocalDirectoryEntry.remotePath,
        write = .createDirectory path := by
    simp only [List.mem_map,planOrder]
    constructor
    · rintro ⟨directory,hd,rfl⟩
      exact ⟨_,⟨directory,hd,rfl⟩,rfl⟩
    · rintro ⟨_,⟨directory,hd,rfl⟩,rfl⟩
      exact ⟨directory,hd,rfl⟩
  have hdeletes : ∀ operation, operation ∈ sync.plan.deletes ↔ operation ∈ sync.planned :=
    fun operation => @mem_deletes sync sync.planOrder operation
  simp only [writes,List.mem_append,hcreates,mem_create_paths]
  simp only [List.mem_map,hdeletes,or_assoc]
  constructor
  · rintro (⟨path,hp,rfl⟩ | ⟨upload,hu,rfl⟩ | ⟨operation,ho,rfl⟩)
    · exact Or.inl ⟨path,rfl,hp⟩
    · exact Or.inr (Or.inl ⟨upload,hu,rfl⟩)
    · exact Or.inr (Or.inr ⟨operation,ho,rfl⟩)
  · rintro (⟨path,rfl,hp⟩ | ⟨upload,hu,rfl⟩ | ⟨operation,ho,rfl⟩)
    · exact Or.inl ⟨path,hp,rfl⟩
    · exact Or.inr (Or.inl ⟨upload,hu,rfl⟩)
    · exact Or.inr (Or.inr ⟨operation,ho,rfl⟩)

theorem upload_filePath {upload : LocalFileEntry × Bool} (hu : upload ∈ sync.plan.uploads) :
    upload.1.remotePath ∈ sync.filePaths :=
  @mem_upload_paths sync _ sync.planOrder
    (List.mem_map_of_mem (List.mem_map_of_mem hu))

/-- A plan's writes are proper below its root. -/
theorem proper_of_mem_writes (h : write ∈ sync.writes) :
    write.Proper sync.root.canonical sync.Live := by
  rcases mem_writes.mp h with ⟨path,rfl,hp,_⟩ | ⟨upload,hu,rfl⟩ | ⟨operation,ho,rfl⟩
  · exact fun _ => hp.imp_right Or.inl
  · exact fun _ => Or.inr (Or.inr (upload_filePath hu))
  · obtain ⟨hbelow,_,htrim⟩ := planned_path ho
    exact ⟨htrim,Or.inl ⟨hbelow,fun q hq => live_not_covered hq ho⟩⟩

/-- No path is filled by two writes of a plan. -/
theorem writes_unique {other : RemoteWrite} (h : write ∈ sync.writes) (ho : other ∈ sync.writes)
    (hmade : write.made = some path) (hmade' : other.made = some path) : other = write := by
  have hunique : ∀ u ∈ sync.plan.uploads, ∀ v ∈ sync.plan.uploads,
      u.1.remotePath = v.1.remotePath → u.1 = v.1 := by
    intro u hu v hv he
    exact List.inj_on_of_nodup_map (@upload_paths_nodup sync sync.planOrder)
      (List.mem_map_of_mem hu) (List.mem_map_of_mem hv) he
  have hkinds : ∀ p, (p = sync.root.canonical ∨ p ∈ sync.directoryPaths) →
      ∀ u ∈ sync.plan.uploads, u.1.remotePath ≠ p := fun p hp u hu he =>
    not_file_of_directory hp (he ▸ upload_filePath hu)
  rcases mem_writes.mp h with ⟨p,rfl,hp,_⟩ | ⟨u,hu,rfl⟩ | ⟨_,_,rfl⟩
  · cases hmade
    rcases mem_writes.mp ho with ⟨_,rfl,_⟩ | ⟨v,hv,rfl⟩ | ⟨_,_,rfl⟩
    · cases hmade'
      rfl
    · exact absurd (Option.some.inj hmade') (hkinds _ hp v hv)
    · cases hmade'
  · cases hmade
    rcases mem_writes.mp ho with ⟨p,rfl,hp,_⟩ | ⟨v,hv,rfl⟩ | ⟨_,_,rfl⟩
    · exact absurd (Option.some.inj hmade').symm (hkinds _ hp u hu)
    · have he : v.1 = u.1 := hunique v hv u hu (Option.some.inj hmade')
      rw [he]
    · cases hmade'
  · cases hmade

section Applied

variable {start : RemoteDisk} {all : List RemoteWrite}
  (hagrees : ∀ q, SepPath.Covers slash sync.root.canonical q →
    RemoteDisk.SameAt start sync.remote.disk q)
  (hwrites : ∀ write ∈ sync.writes, write ∈ all)
  (honly : ∀ write ∈ all, write ∈ sync.writes ∨ write.Apart sync.root.canonical)

include honly in
theorem proper_of_mem_all : ∀ write ∈ all, write.Proper sync.root.canonical sync.Live :=
  fun write hw => (honly write hw).elim proper_of_mem_writes RemoteWrite.Apart.proper

include hwrites honly in
/-- What a write of the plan fills stays as it leaves it. -/
theorem applied_made (h : write ∈ sync.writes) (hlive : sync.Live path)
    (hmade : write.made = some path) :
    (start.applyAll all).resources[path]? = write.resource ∧ ∀ content,
      write.content = some content → (start.applyAll all).contents[path]? = some content := by
  refine RemoteDisk.applyAll_made (hwrites write h) hmade fun other ho => ?_
  by_cases hother : other.made = some path
  · rcases honly other ho with hplan | hapart
    · exact Or.inl (writes_unique h hplan hmade hother)
    · exact absurd hother (hapart.made_ne hlive.covers)
  · exact Or.inr ((proper_of_mem_all honly other ho).spares_of_keep hlive.covers hlive hother)

include honly in
/-- A live path that no write fills stays as it is. -/
theorem applied_kept (hlive : sync.Live path)
    (hnone : ∀ write ∈ sync.writes, write.made ≠ some path) :
    RemoteDisk.SameAt start (start.applyAll all) path :=
  RemoteDisk.sameAt_applyAll fun write hw =>
    (proper_of_mem_all honly write hw).spares_of_keep hlive.covers hlive
      ((honly write hw).elim (hnone write) fun hapart => hapart.made_ne hlive.covers)

include hagrees in
theorem closed_start : RemoteDisk.ClosedBelow sync.root.canonical sync.Live start := by
  intro q hq m hm hmq _
  have hmem : q ∈ sync.remote.disk.resources := by
    rw [Std.TreeMap.mem_iff_isSome_getElem?] at hq ⊢
    rwa [(hagrees q (hm.trans hmq).covers).1]
  have hdir := sync.remote.closed q hmem m hm.covers hmq
  unfold RemoteDisk.isDirectory at hdir ⊢
  rwa [(hagrees m hm.covers).1] at hdir

include hagrees hwrites honly in
/-- All writes of the plans carried out, in any order and as often as it may be. -/
theorem mirrored_of_writes : MirroredBelow sync (start.applyAll all) := by
  have hproper := proper_of_mem_all honly
  have hholds : ∀ path resourceType, SepPath.Covers slash sync.root.canonical path →
      start.resources.holds path resourceType =
        sync.remote.disk.resources.holds path resourceType := by
    intro path resourceType hc
    unfold Inventory.holds
    rw [(hagrees path hc).1]
  have hkeeps : ∀ path resourceType, sync.Live path →
      (∀ write ∈ sync.writes, write.made ≠ some path) →
        sync.remote.disk.resources.holds path resourceType = true →
          (start.applyAll all).resources.holds path resourceType = true := by
    intro path resourceType hlive hnone hh
    rw [← hholds path resourceType hlive.covers] at hh
    unfold Inventory.holds at hh ⊢
    rwa [(applied_kept honly hlive hnone).1]
  have hdirectories : ∀ path, path = sync.root.canonical ∨ path ∈ sync.directoryPaths →
      (start.applyAll all).resources.holds path .directory = true := by
    intro path hp
    have hlive : sync.Live path := hp.imp_right Or.inl
    cases hh : sync.remote.disk.resources.holds path .directory with
    | true =>
      refine hkeeps path _ hlive (fun write hw hmade => ?_) hh
      rcases mem_writes.mp hw with ⟨_,rfl,_,hno⟩ | ⟨upload,hu,rfl⟩ | ⟨_,_,rfl⟩
      · cases hmade
        rw [hh] at hno
        cases hno
      · cases hmade
        exact not_file_of_directory hp (upload_filePath hu)
      · cases hmade
    | false =>
      have hmade := @applied_made sync _ path start all hwrites honly
        (mem_writes.mpr (Or.inl ⟨path,rfl,hp,hh⟩)) hlive rfl
      unfold Inventory.holds
      rw [hmade.1]
      rfl
  have huploaded : ∀ upload ∈ sync.plan.uploads,
      (start.applyAll all).resources[upload.1.remotePath]? =
        some (.ofFile upload.1.remotePath (sync.read upload.1.uploadSource).length) ∧
      (start.applyAll all).contents[upload.1.remotePath]? =
        some (sync.read upload.1.uploadSource) := by
    intro upload hu
    have hmade := @applied_made sync _ upload.1.remotePath start all hwrites honly
      (mem_writes.mpr (Or.inr (Or.inl ⟨upload,hu,rfl⟩)))
      (Or.inr (Or.inr (upload_filePath hu))) rfl
    exact ⟨hmade.1,hmade.2 _ rfl⟩
  have hfiles : ∀ path ∈ sync.filePaths,
      (start.applyAll all).resources.holds path .file = true := by
    intro path hp
    by_cases hu : ∃ upload ∈ sync.plan.uploads, upload.1.remotePath = path
    · obtain ⟨upload,hu,rfl⟩ := hu
      unfold Inventory.holds
      rw [(huploaded upload hu).1]
      rfl
    · have hlive : sync.Live path := Or.inr (Or.inr hp)
      obtain ⟨file,hf,rfl⟩ := List.mem_map.mp hp
      refine hkeeps _ _ hlive (fun write hw hmade => ?_) ?_
      · rcases mem_writes.mp hw with ⟨_,rfl,hd,_⟩ | ⟨upload,hup,rfl⟩ | ⟨_,_,rfl⟩
        · cases hmade
          exact not_file_of_directory hd hp
        · exact hu ⟨upload,hup,Option.some.inj hmade⟩
        · cases hmade
      · -- the file was left alone because the inventory holds it
        have hno : shouldUpload sync.inventory file = false := by
          by_contra hs
          refine hu ⟨(file,sync.inventory.holds file.remotePath .file),?_,rfl⟩
          rw [plan_uploads,plannedUploads,livePlan_files]
          exact List.mem_map_of_mem (List.mem_filter.mpr ⟨hf,Bool.not_eq_false _ ▸ hs⟩)
        simp only [shouldUpload,Bool.or_eq_false_iff,Bool.not_eq_false'] at hno
        rw [← holds_inventory hlive.covers]
        exact hno.2
  have hmem : ∀ {path resourceType},
      (start.applyAll all).resources.holds path resourceType = true →
        path ∈ (start.applyAll all).resources := by
    intro path resourceType hh
    obtain ⟨resource,hr,_⟩ := (Option.any_eq_true _ _).mp hh
    exact mem_of_getElem? hr
  refine ⟨fun path hc => ⟨fun hm => ?_,fun hlive => ?_⟩,hdirectories,hfiles,
    fun upload hu => (huploaded upload hu).2,fun path hlive hc hu => ?_⟩
  · -- what is not live was not there, or a delete reaches it
    by_contra hn
    have hgone : (start.applyAll all).resources[path]? = none := by
      cases hs : start.resources[path]? with
      | none => exact RemoteDisk.getElem?_applyAll_of_none hproper hc hn hs
      | some resource =>
        have hremote : path ∈ sync.remote.disk.resources :=
          mem_of_getElem? ((hagrees path hc).1.trans hs)
        obtain ⟨operation,ho,hcovers⟩ := covered_of_not_live hremote
          (hc.beneath_of_ne fun he => hn (Or.inl he.symm)) hn
        exact RemoteDisk.getElem?_applyAll_deleted (closed_start hagrees)
          (fun p hp m hm hmp => Live.parent hp hm hmp) hproper hc hn
          (hwrites _ (mem_writes.mpr (Or.inr (Or.inr ⟨operation,ho,rfl⟩)))) hcovers
    rw [Std.TreeMap.mem_iff_isSome_getElem?,hgone] at hm
    cases hm
  · rcases hlive with hp | hp | hp
    · exact hmem (hdirectories path (Or.inl hp))
    · exact hmem (hdirectories path (Or.inr hp))
    · exact hmem (hfiles path hp)
  · have hsame := @applied_kept sync path start all honly hlive fun write hw hmade => by
      rcases List.mem_append.mp hw with hw | hw
      · rcases List.mem_append.mp hw with hw | hw
        · obtain ⟨directory,hd,rfl⟩ := List.mem_map.mp hw
          cases hmade
          exact hc (List.mem_map_of_mem hd)
        · obtain ⟨upload,hup,rfl⟩ := List.mem_map.mp hw
          cases hmade
          exact hu (List.mem_map_of_mem (f := fun u => u.1.remotePath) hup)
      · obtain ⟨delete,_,rfl⟩ := List.mem_map.mp hw
        cases hmade
    have hstart := hagrees path hlive.covers
    exact ⟨hsame.1.trans hstart.1.symm,hsame.2.trans hstart.2.symm⟩

end Applied

end StaticSync

/-! What the mirror of one sync is to the next. -/
section Again

variable {ext : Externals} {options : ScanOptions} {disk : LocalTree} {start final : RemoteDisk}
  {sync again : StaticSync} {root : ManagedRoot} {path : Str}

theorem Inventory.mem_of_holds {inventory : Inventory} {resourceType : ResourceType}
    (h : inventory.holds path resourceType = true) : path ∈ inventory := by
  rw [Std.TreeMap.mem_iff_isSome_getElem?]
  unfold Inventory.holds at h
  cases hr : inventory[path]? with
  | none =>
    rw [hr] at h
    cases h
  | some resource => rfl

theorem Inventory.holds_unique {inventory : Inventory} {first second : ResourceType}
    (h : inventory.holds path first = true) (h' : inventory.holds path second = true) :
    first = second := by
  unfold Inventory.holds at h h'
  cases hr : inventory[path]? with
  | none =>
    rw [hr] at h
    cases h
  | some resource =>
    rw [hr] at h h'
    simp only [Option.any_some,beq_iff_eq] at h h'
    exact h.symm.trans h'

/-- The directories of a mirror are the root and the reported ones. -/
theorem MirroredBelow.holds_directory_iff (h : MirroredBelow sync final)
    (hc : SepPath.Covers slash sync.root.canonical path) :
    final.resources.holds path .directory = true ↔
      path = sync.root.canonical ∨ path ∈ sync.directoryPaths := by
  refine ⟨fun hd => ?_,h.directories path⟩
  rcases (h.exact path hc).mp (Inventory.mem_of_holds hd) with hp | hp | hp
  · exact Or.inl hp
  · exact Or.inr hp
  · cases Inventory.holds_unique (h.files path hp) hd

/-- The files of a mirror are the reported ones. -/
theorem MirroredBelow.holds_file_iff (h : MirroredBelow sync final)
    (hc : SepPath.Covers slash sync.root.canonical path) :
    final.resources.holds path .file = true ↔ path ∈ sync.filePaths := by
  refine ⟨fun hf => ?_,h.files path⟩
  rcases (h.exact path hc).mp (Inventory.mem_of_holds hf) with hp | hp | hp
  · cases Inventory.holds_unique (h.directories path (Or.inl hp)) hf
  · cases Inventory.holds_unique (h.directories path (Or.inr hp)) hf
  · exact hp

/-- Mirrors of one scan have the same entries. -/
theorem MirroredBelow.same_entries {start' final' : RemoteDisk} (hmirrored : MirroredBelow sync final)
    (hagain : MirroredBelow again final') (h : SyncOf ext options disk start sync)
    (h' : SyncOf ext options disk start' again) (hroot : again.root = sync.root)
    (hc : SepPath.Covers slash sync.root.canonical path) (resourceType : ResourceType) :
    final'.resources.holds path resourceType = final.resources.holds path resourceType := by
  obtain ⟨hdirectories,hfiles⟩ := h.same_paths h' hroot
  rw [Bool.eq_iff_iff]
  cases resourceType with
  | directory =>
    rw [hmirrored.holds_directory_iff hc,hagain.holds_directory_iff (hroot ▸ hc),hroot,
      hdirectories path]
  | file => rw [hmirrored.holds_file_iff hc,hagain.holds_file_iff (hroot ▸ hc),hfiles path]

theorem MapsBelow.beneath {names : List Str} (h : MapsBelow root.canonical names)
    (hpath : remotePathForRelative root.canonical (relativePathOf names) = .ok path) :
    Beneath slash root.canonical path := by
  obtain ⟨above,segment,_,rfl,habove⟩ := h path hpath
  split at habove
  · exact habove ▸ beneath_append _ _
  · exact (remotePathForRelative_covers habove).beneath (beneath_append _ _)

/-- The names the mapping writes are names a delete can be planned for. -/
theorem named_of_mapped {relative relativePath : Str} (h : remotePathForRelative root.canonical
      relative = .ok (root.canonical ++ slash :: relativePath)) :
    (∀ segment ∈ relativePath.splitOn slash, segment ≠ []) ∧
      hasPhantomDiskSegment relativePath = false := by
  obtain ⟨⟨rel,hrel⟩,hplain⟩ := candidate_of_isRemotePath (sanitizeRemotePath_ok h)
    (beneath_append root.canonical relativePath)
  obtain ⟨hpath,_,hphantom⟩ := candidate_ok hrel
  rw [root.trimEnd] at hpath
  obtain rfl : relativePath = rel := by simpa using hpath
  exact ⟨hplain relativePath rfl,hphantom⟩

/-- The mirror a sync leaves can be mirrored to again. -/
theorem MirroredBelow.mirrorable (hmirrored : MirroredBelow sync final)
    (h : SyncOf ext options disk start sync) (hm : Mirrorable ext options disk start sync.root) :
    Mirrorable ext options disk final sync.root := by
  obtain ⟨context,_,hdirectories,hfiles⟩ := h.directory_iff
  -- an item that maps to a live path is the one that is reported there
  have hunique : ∀ a ∈ (disk.below sync.root.directory).items,
      ∀ b ∈ (disk.below sync.root.directory).items, ∀ p,
        remotePathForRelative sync.root.canonical (relativePathOf a.components) = .ok p →
        remotePathForRelative sync.root.canonical (relativePathOf b.components) = .ok p → a = b :=
    fun a ha b hb p hp hq => hm.distinct a ha b hb p p hp hq rfl
  refine ⟨hm.scans,hm.maps,hm.distinct,hm.unstaged,?_,?_,?_,?_,?_⟩
  · refine Bool.eq_false_iff.mpr fun hfile => ?_
    cases Inventory.holds_unique (hmirrored.directories _ (Or.inl rfl)) hfile
  · intro item hi htype path hpath
    refine Bool.eq_false_iff.mpr fun hfile => ?_
    rcases (hmirrored.exact path ((hm.maps item hi).beneath hpath).covers).mp
      (Inventory.mem_of_holds hfile) with hp | hp | hp
    · cases Inventory.holds_unique (hmirrored.directories _ (Or.inl hp)) hfile
    · cases Inventory.holds_unique (hmirrored.directories _ (Or.inr hp)) hfile
    · obtain ⟨other,ho,_,hother,_,hopath,_⟩ := (hfiles path).mp hp
      rw [hunique item hi other ho path hpath hopath,hother] at htype
      cases htype
  · intro item hi htype path hpath
    refine Bool.eq_false_iff.mpr fun hdirectory => ?_
    have hbelow := (hm.maps item hi).beneath hpath
    rcases (hmirrored.exact path hbelow.covers).mp (Inventory.mem_of_holds hdirectory)
      with hp | hp | hp
    · exact hbelow.ne hp.symm
    · obtain ⟨other,ho,_,hother,_,hopath⟩ := (hdirectories path).mp hp
      rw [hunique item hi other ho path hpath hopath,hother] at htype
      cases htype
    · cases Inventory.holds_unique (hmirrored.files _ hp) hdirectory
  · intro q hq m hc hmq
    have hlive := (hmirrored.exact q (hc.beneath hmq).covers).mp hq
    rcases hc with rfl | hb
    · exact hmirrored.directories _ (Or.inl rfl)
    · exact hmirrored.directories _ (Or.inr (h.parent_directory hm hlive hb hmq))
  · rintro q hq relativePath rfl
    rcases (hmirrored.exact _ (beneath_append _ _).covers).mp hq with hp | hp | hp
    · simpa using congrArg List.length hp
    · obtain ⟨item,_,_,_,_,hpath⟩ := (hdirectories _).mp hp
      exact named_of_mapped hpath
    · obtain ⟨item,_,_,_,_,hpath,_⟩ := (hfiles _).mp hp
      exact named_of_mapped hpath

/-- Where the remote is the mirror of an earlier sync, a plan only uploads what it has not
found unchanged. -/
theorem MirroredBelow.planned_again (hmirrored : MirroredBelow sync final)
    (h : SyncOf ext options disk start sync) (hagain : SyncOf ext options disk final again)
    (hroot : again.root = sync.root) {operation : SyncPlanOperation}
    (ho : operation ∈ again.plan.operations) : ∃ file ∈ again.report.files,
      operation = .uploadFile file true ∧ file.fingerprint.reusedFromState = false := by
  obtain ⟨hdirectories,hfiles⟩ := h.same_paths hagain hroot
  have hholds : ∀ path, again.Live path → ∀ resourceType,
      again.remote.disk.resources.holds path resourceType =
        final.resources.holds path resourceType := fun path hlive resourceType =>
    holds_of_sameAt (hagain.agrees path hlive.covers) resourceType
  rw [StaticSync.plan,buildRootPlan] at ho
  rcases List.mem_append.mp ho with ho | ho
  · rcases List.mem_append.mp ho with ho | ho
    · obtain ⟨directory,hd,rfl⟩ := List.mem_map.mp ho
      have hcreated := List.mem_map_of_mem (f := LocalDirectoryEntry.remotePath)
        ((@StaticSync.mem_creates again again.planOrder directory).mpr hd)
      obtain ⟨hpath,hmissing⟩ := StaticSync.mem_create_paths.mp hcreated
      rw [hholds _ (hpath.imp_right Or.inl)] at hmissing
      rw [hroot,hdirectories] at hpath
      rw [hmirrored.directories _ hpath] at hmissing
      cases hmissing
    · obtain ⟨upload,hu,rfl⟩ := List.mem_map.mp ho
      obtain ⟨file,hf,rfl⟩ := List.mem_map.mp hu
      obtain ⟨hfile,hshould⟩ := List.mem_filter.mp hf
      rw [StaticSync.livePlan_files] at hfile
      have hpath : file.remotePath ∈ again.filePaths := List.mem_map_of_mem hfile
      have hlive : again.Live file.remotePath := Or.inr (Or.inr hpath)
      have hthere : again.inventory.holds file.remotePath .file = true := by
        rw [StaticSync.holds_inventory hlive.covers,hholds _ hlive]
        exact hmirrored.files _ ((hfiles _).mp hpath)
      refine ⟨file,hfile,by rw [hthere],?_⟩
      simpa [shouldUpload,hthere] using hshould
  · obtain ⟨delete,hd,rfl⟩ := List.mem_map.mp ho
    have hplanned : delete ∈ again.planned :=
      (@StaticSync.mem_deletes again again.planOrder delete).mp
        (mem_deletes_buildRootPlan.mpr (mem_sortByKey.mp hd))
    -- what it is planned for is there and not live, while all that is there is live
    obtain ⟨resource,hr,hremovable,_⟩ := plannedDeletes_sound hplanned
    obtain ⟨hthere,hcovers⟩ := StaticSync.mem_inventory_resources.mp hr
    have hmem : resource.path ∈ final.resources := by
      rw [Std.TreeMap.mem_iff_isSome_getElem?,← (hagain.agrees _ hcovers).1,hthere]
      rfl
    have hlive := (hmirrored.exact _ (hroot ▸ hcovers)).mp hmem
    exact absurd (StaticSync.mem_livePaths_iff.mpr ((h.live_iff hagain hroot).mpr hlive))
      hremovable.notLive

end Again

end YaDiskSync
