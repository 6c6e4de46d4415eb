import YaDiskSync.DeleteSafety
import YaDiskSync.DeletedSubtrees
import YaDiskSync.ScanSafety

/-! How the delete planner divides an inventory. Where live paths have live parents, a removable
resource is at or below exactly one planned delete, and a live path at or below none. -/
namespace YaDiskSync

open SepPath
open LiveScanPlan (goneSubtree isDeletedRelativePath_addDeletedSubtree)

/-- Nothing lies beneath a file. -/
def FilesAreLeaves (inventory : Inventory) : Prop :=
  ∀ file ∈ inventory.resources, file.resourceType = .file →
    ∀ resource ∈ inventory.resources, ¬ Beneath slash file.path resource.path

instance (inventory : Inventory) : Decidable (FilesAreLeaves inventory) := by
  unfold FilesAreLeaves; infer_instance

/-- The live entries are strictly below the root, with all directories above them. -/
structure ClosedPlan (root : ManagedRoot) (livePlan : LiveScanPlan) : Prop where
  below : ∀ path, IsLivePath root livePlan path → path ≠ root.canonical →
    Beneath slash root.canonical path
  parents : ∀ path parent, IsLivePath root livePlan path → Beneath slash root.canonical parent →
    Beneath slash parent path → IsLivePath root livePlan parent

/-- Strictly below the root, without a segment named like the disk. -/
def OffPhantoms (root : ManagedRoot) (path : Str) : Prop :=
  ∃ relativePath, path = root.canonical ++ slash :: relativePath ∧
    ∀ segment ∈ relativePath.splitOn slash, eqIgnoreAsciiCase segment "disk:".toList = false

section Closed

variable {root : ManagedRoot} {livePlan : LiveScanPlan} {path : Str}

/-- Under a closed plan a path that is not live has no live path beneath it. -/
theorem ClosedPlan.dead (h : ClosedPlan root livePlan) (hb : Beneath slash root.canonical path)
    (hlive : ¬ IsLivePath root livePlan path) : Dead (livePaths root livePlan) path := by
  intro live hl hc
  have hl' := mem_livePaths.mp hl
  rcases hc with rfl | hc
  · exact hlive hl'
  · exact hlive (h.parents live path hl' hb hc)

theorem removable_iff (hplain : PlainBelow root.canonical path) :
    Removable root (livePaths root livePlan) path ↔
      OffPhantoms root path ∧ ¬ IsLivePath root livePlan path := by
  constructor
  · intro h
    obtain ⟨rel,hrel⟩ := h.candidate
    obtain ⟨_,hpath,hphantom⟩ := strictlyUnder_of_candidate hrel
    exact ⟨⟨rel,hpath,hphantom⟩,fun hl => h.notLive (mem_livePaths.mpr hl)⟩
  · rintro ⟨⟨rel,rfl,hphantom⟩,hlive⟩
    refine ⟨⟨rel,?_⟩,fun hk => hlive (mem_livePaths.mp hk)⟩
    have hne : rel ≠ [] := by
      rintro rfl
      exact hplain [] rfl [] (by simp) rfl
    have hdisk : hasPhantomDiskSegment rel = false :=
      List.any_eq_false.mpr fun segment hs => by rw [hphantom segment hs]; exact Bool.false_ne_true
    have hcandidate := candidate_of root.canonical hne hdisk
    rwa [root.trimEnd] at hcandidate

theorem Removable.beneath {known : List Str} (h : Removable root known path) :
    Beneath slash root.canonical path := by
  obtain ⟨rel,hrel⟩ := h.candidate
  rw [(candidate_ok hrel).1,root.trimEnd]
  exact beneath_append _ _

theorem ClosedPlan.dead_of_removable (h : ClosedPlan root livePlan)
    (hrem : Removable root (livePaths root livePlan) path) : Dead (livePaths root livePlan) path :=
  h.dead hrem.beneath fun hl => hrem.notLive (mem_livePaths.mpr hl)

end Closed

section Once

variable {root : ManagedRoot} {known : List Str}

/-- No path is deleted twice: a delete is suppressed from then on, unless it is a file's. -/
structure DeletesOnce (processed : List ResourceMetadata) (state : DeletePlanState) : Prop where
  nodup : (state.operations.map RemoteDeleteOperation.remotePath).Nodup
  told : ∀ operation ∈ state.operations, operation.remotePath ∈ state.suppressedPrefixes ∨
    ∃ file ∈ processed, file.resourceType = .file ∧ file.path = operation.remotePath

theorem DeletesOnce.push {processed : List ResourceMetadata} {state state' : DeletePlanState}
    {resource : ResourceMetadata} {operation : RemoteDeleteOperation}
    (h : DeletesOnce processed state) (hops : state'.operations = state.operations ++ [operation])
    (hprefixes : ∀ pre ∈ state.suppressedPrefixes, pre ∈ state'.suppressedPrefixes)
    (hnew : operation.remotePath ∈ state'.suppressedPrefixes ∨
      (resource.resourceType = .file ∧ resource.path = operation.remotePath))
    (hsuppresses : state.suppresses operation.remotePath = false)
    (hfiles : ∀ file ∈ processed, file.resourceType = .file → file.path ≠ operation.remotePath) :
    DeletesOnce (processed ++ [resource]) state' := by
  refine ⟨?_,fun other ho => ?_⟩
  · rw [hops,List.map_append,List.map_singleton]
    refine List.nodup_append.mpr ⟨h.nodup,List.nodup_singleton _,fun p hp q hq => ?_⟩
    rw [List.mem_singleton] at hq
    subst hq
    rintro rfl
    obtain ⟨other,ho,he⟩ := List.mem_map.mp hp
    rcases h.told other ho with hpre | ⟨file,hf,htype,hpath⟩
    · have hyes := suppresses_iff.mpr ⟨_,hpre,Or.inl he.symm⟩
      rw [hsuppresses] at hyes
      cases hyes
    · exact hfiles file hf htype (hpath.trans he)
  · rw [hops] at ho
    rcases List.mem_append.mp ho with ho | ho
    · rcases h.told other ho with hpre | ⟨file,hf,hfile⟩
      · exact Or.inl (hprefixes _ hpre)
      · exact Or.inr ⟨file,by simp [hf],hfile⟩
    · rw [List.mem_singleton.mp ho]
      exact hnew.imp id fun hfile => ⟨resource,by simp,hfile⟩

theorem DeletesOnce.mono {processed : List ResourceMetadata} {state : DeletePlanState}
    (h : DeletesOnce processed state) (resource : ResourceMetadata) :
    DeletesOnce (processed ++ [resource]) state :=
  ⟨h.nodup,fun operation ho => (h.told operation ho).imp id fun ⟨file,hf,hfile⟩ =>
    ⟨file,by simp [hf],hfile⟩⟩

theorem DeletesOnce.step {processed : List ResourceMetadata} {state : DeletePlanState}
    {resource : ResourceMetadata} (h : DeletesOnce processed state)
    (hplain : PlainBelow root.canonical resource.path)
    (hnew : resource.path ∉ processed.map ResourceMetadata.path)
    (hleaf : ∀ file ∈ processed, file.resourceType = .file → ¬ Beneath slash file.path resource.path)
    (hdead : Removable root known resource.path → Dead known resource.path) :
    DeletesOnce (processed ++ [resource])
      (collectStep root.config root.canonical known state resource) := by
  have hpaths : ∀ file ∈ processed, file.path ≠ resource.path := fun file hf he =>
    hnew (he ▸ List.mem_map_of_mem hf)
  rcases collectStep_cases state resource with
    ⟨_,he⟩ | ⟨_,he,_⟩ | ⟨hrem,hs,_,he⟩ | ⟨hrem,hs,hdirectory,_,he⟩
  · rw [he]
    exact h.mono resource
  · rw [he]
    exact h.mono resource
  · rw [he]
    refine h.push rfl (fun pre hpre => List.mem_append_left _ hpre)
      (Or.inl (List.mem_append_right _ (List.mem_singleton.mpr rfl))) hs fun file hf htype hfile => ?_
    -- the target lies above the resource, a file there would have something beneath it
    rcases target_covers hrem hplain with heq | hbelow
    · exact hpaths file hf (hfile.trans heq.symm)
    · exact hleaf file hf htype (by rw [hfile]; exact hbelow)
  · rw [he]
    have hfile : resource.resourceType = .file := by
      cases htype : resource.resourceType with
      | file => rfl
      | directory =>
        have hlive := hdirectory htype
        rw [hplain.trimEnd_of_covers hrem.beneath (Covers.refl _),
          (dead_iff.mp (hdead hrem)).2] at hlive
        cases hlive
    exact h.push rfl (fun pre hpre => hpre) (Or.inr ⟨hfile,rfl⟩) hs fun file hf _ => hpaths file hf

theorem DeletesOnce.foldl {processed : List ResourceMetadata} {state : DeletePlanState}
    (h : DeletesOnce processed state) {resources : List ResourceMetadata}
    (hplain : ∀ resource ∈ resources, PlainBelow root.canonical resource.path)
    (hnodup : ((processed ++ resources).map ResourceMetadata.path).Nodup)
    (hleaf : ∀ file ∈ processed ++ resources, file.resourceType = .file →
      ∀ resource ∈ resources, ¬ Beneath slash file.path resource.path)
    (hdead : ∀ path, Removable root known path → Dead known path) :
    DeletesOnce (processed ++ resources)
      (resources.foldl (collectStep root.config root.canonical known) state) := by
  induction resources generalizing processed state with
  | nil => simpa using h
  | cons resource resources ih =>
    have hfirst : resource.path ∉ processed.map ResourceMetadata.path := by
      rw [List.map_append,List.map_cons] at hnodup
      exact fun hm => (List.nodup_append.mp hnodup).2.2 _ hm _ (by simp) rfl
    have hstep := h.step (hplain resource (by simp)) hfirst
      (fun file hf htype => hleaf file (by simp [hf]) htype resource (by simp)) (hdead _)
    rw [← List.singleton_append,← List.append_assoc] at hnodup hleaf ⊢
    exact ih hstep (fun other ho => hplain other (by simp [ho])) hnodup
      fun file hf htype other ho => hleaf file hf htype other (by simp [ho])

end Once

section Partition

variable {root : ManagedRoot} {livePlan : LiveScanPlan} {listing : RemoteListing root}

/-- Neither path is at or below the other. -/
def Incomparable (p q : Str) : Prop := ¬ Covers slash p q ∧ ¬ Covers slash q p

theorem plannedDeletes_nodup (hclosed : ClosedPlan root livePlan)
    (hleaves : FilesAreLeaves listing.inventory) :
    ((plannedDeletes root livePlan listing.inventory).map
      RemoteDeleteOperation.remotePath).Nodup := by
  have hresources : (collectResources root.canonical listing.inventory).Perm
      (listing.inventory.resources.filter fun resource =>
        decide (resource.path ≠ root.canonical)) := sortByKey_perm _ _
  have hmem : ∀ resource ∈ collectResources root.canonical listing.inventory,
      resource ∈ listing.inventory.resources := fun resource hr => (mem_collectResources.mp hr).1
  have hstart : DeletesOnce [] {} := ⟨List.nodup_nil,by simp⟩
  have hpaths : (([] ++ collectResources root.canonical listing.inventory).map
      ResourceMetadata.path).Nodup := by
    rw [List.nil_append]
    exact (hresources.map _).nodup_iff.mpr
      ((Inventory.nodup_paths listing.keyed).sublist (List.filter_sublist.map _))
  have honce := hstart.foldl (fun resource hr => listing.plain resource (hmem resource hr)) hpaths
    (fun file hf htype resource hr => hleaves file (hmem file hf) htype resource (hmem resource hr))
    fun path hrem => hclosed.dead_of_removable hrem
  exact ((sortByKey_perm _ _).map _).nodup_iff.mpr honce.nodup

/-- Every delete is of a dead path with no dead path between it and the root. -/
theorem plannedDeletes_topMost (hclosed : ClosedPlan root livePlan)
    {operation : RemoteDeleteOperation}
    (h : operation ∈ plannedDeletes root livePlan listing.inventory) :
    Dead (livePaths root livePlan) operation.remotePath ∧
      Beneath slash root.canonical operation.remotePath ∧
      ∀ path, Dead (livePaths root livePlan) path → Beneath slash root.canonical path →
        ¬ Beneath slash path operation.remotePath := by
  obtain ⟨resource,hr,hrem,ht,_⟩ := plannedDeletes_sound h
  have hplain := listing.plain resource hr
  have hcovers := target_covers hrem hplain
  rw [ht]
  refine ⟨?_,?_,fun path hd hb hbelow => ?_⟩
  · rcases target_cases hrem hplain with he | ⟨hd,_⟩
    · rw [he]
      exact hclosed.dead_of_removable hrem
    · exact hd
  · rcases target_cases hrem hplain with he | ⟨_,hb,_⟩
    · rw [he]
      exact hrem.beneath
    · exact hb
  · have habove := target_covers_of_dead hrem hplain hd hb (hbelow.trans_covers hcovers)
    exact (hbelow.trans_covers habove).ne rfl

theorem plannedDeletes_incomparable (hclosed : ClosedPlan root livePlan)
    (hleaves : FilesAreLeaves listing.inventory) :
    ((plannedDeletes root livePlan listing.inventory).map
      RemoteDeleteOperation.remotePath).Pairwise Incomparable := by
  refine (plannedDeletes_nodup hclosed hleaves).imp_of_mem fun hp hq hne => ?_
  obtain ⟨first,hfirst,rfl⟩ := List.mem_map.mp hp
  obtain ⟨second,hsecond,rfl⟩ := List.mem_map.mp hq
  have htop := plannedDeletes_topMost hclosed hfirst
  have htop' := plannedDeletes_topMost hclosed hsecond
  exact ⟨fun hc => htop'.2.2 _ htop.1 htop.2.1 (hc.beneath_of_ne hne),
    fun hc => htop.2.2 _ htop'.1 htop'.2.1 (hc.beneath_of_ne hne.symm)⟩

theorem plannedDeletes_cover {resource : ResourceMetadata} (hr : resource ∈ listing.inventory.resources)
    (hoff : OffPhantoms root resource.path) (hlive : ¬ IsLivePath root livePlan resource.path) :
    ∃ operation ∈ plannedDeletes root livePlan listing.inventory,
      Covers slash operation.remotePath resource.path := by
  have hplain := listing.plain resource hr
  have hrem := (removable_iff hplain).mpr ⟨hoff,hlive⟩
  obtain ⟨operation,ho,hc⟩ := plannedDeletes_cover_target listing.plain hr hrem
  exact ⟨operation,ho,hc.trans (target_covers hrem hplain)⟩

/-- The planned deletes divide what is not live among them and leave what is. -/
structure DeletesPartition (root : ManagedRoot) (livePlan : LiveScanPlan) (inventory : Inventory) :
    Prop where
  incomparable : ((plannedDeletes root livePlan inventory).map
    RemoteDeleteOperation.remotePath).Pairwise Incomparable
  once : ∀ resource ∈ inventory.resources, OffPhantoms root resource.path →
    ¬ IsLivePath root livePlan resource.path →
      ((plannedDeletes root livePlan inventory).map RemoteDeleteOperation.remotePath).countP
        (fun path => Covers slash path resource.path) = 1
  spared : ∀ path, IsLivePath root livePlan path →
    ∀ operation ∈ plannedDeletes root livePlan inventory, ¬ Covers slash operation.remotePath path

theorem countP_covers_le_one {paths : List Str} (h : paths.Pairwise Incomparable) (path : Str) :
    paths.countP (fun p => Covers slash p path) ≤ 1 := by
  induction paths with
  | nil => exact Nat.zero_le _
  | cons p paths ih =>
    obtain ⟨hfirst,hrest⟩ := List.pairwise_cons.mp h
    rw [List.countP_cons]
    split
    · rename_i hp
      have hzero : paths.countP (fun q => Covers slash q path) = 0 := by
        refine List.countP_eq_zero.mpr fun q hq hc => ?_
        rcases (of_decide_eq_true hp).total (of_decide_eq_true hc) with hpq | hqp
        · exact (hfirst q hq).1 hpq
        · exact (hfirst q hq).2 hqp
      omega
    · exact ih hrest

/-- Every resource that is not live goes with exactly one planned delete, a live path with none. -/
theorem plannedDeletes_partition (root : ManagedRoot) (livePlan : LiveScanPlan)
    (listing : RemoteListing root) (hclosed : ClosedPlan root livePlan)
    (hleaves : FilesAreLeaves listing.inventory) :
    DeletesPartition root livePlan listing.inventory where
  incomparable := plannedDeletes_incomparable hclosed hleaves
  once resource hr hoff hlive := by
    obtain ⟨operation,ho,hc⟩ := plannedDeletes_cover hr hoff hlive
    have hpos : 0 < ((plannedDeletes root livePlan listing.inventory).map
        RemoteDeleteOperation.remotePath).countP fun path => Covers slash path resource.path :=
      List.countP_pos_iff.mpr ⟨_,List.mem_map_of_mem ho,decide_eq_true hc⟩
    have hle := countP_covers_le_one (plannedDeletes_incomparable hclosed hleaves) resource.path
    omega
  spared path hlive operation ho hc :=
    (plannedDeletes_topMost hclosed ho).1 path (mem_livePaths.mpr hlive) hc

end Partition

section Subtree

variable {root : ManagedRoot} {livePlan : LiveScanPlan} {listing : RemoteListing root}

/-- No segment below the root is named like the disk. -/
def NoPhantom (root : ManagedRoot) (path : Str) : Prop :=
  ∀ relativePath, path = root.canonical ++ slash :: relativePath →
    ∀ segment ∈ relativePath.splitOn slash, eqIgnoreAsciiCase segment "disk:".toList = false

instance (root : ManagedRoot) (path : Str) : Decidable (NoPhantom root path) :=
  decidable_of_iff ((stripPrefix (root.canonical ++ [slash]) path).all fun relativePath =>
    decide (∀ segment ∈ relativePath.splitOn slash,
      eqIgnoreAsciiCase segment "disk:".toList = false)) (by
      simp only [NoPhantom,Option.all_eq_true,stripPrefix_eq_some,decide_eq_true_eq,
        List.append_assoc,List.singleton_append])

/-- Every entry is mapped to its relative path below the root. -/
structure Compositional (root : ManagedRoot) (livePlan : LiveScanPlan) : Prop where
  directories : ∀ directory ∈ livePlan.directories,
    directory.remotePath = root.canonical ++ slash :: directory.relativePath
  files : ∀ file ∈ livePlan.files,
    file.remotePath = root.canonical ++ slash :: file.relativePath

/-- A resource goes with the deletes of the plan. -/
def GoesWith (root : ManagedRoot) (livePlan : LiveScanPlan) (inventory : Inventory) (path : Str) :
    Prop :=
  ∃ operation ∈ plannedDeletes root livePlan inventory, Covers slash operation.remotePath path

theorem covers_append_iff {base p q : Str} :
    Covers slash (base ++ slash :: p) (base ++ slash :: q) ↔ Covers slash p q := by
  simp [Covers,Beneath]

/-- What is live once a directory is gone: all that is not at or below it. -/
theorem isLivePath_addDeletedSubtree (hcomposed : Compositional root livePlan)
    {directory : LocalDirectoryEntry} (hd : directory ∈ livePlan.directories) {path : Str} :
    IsLivePath root (livePlan.addDeletedSubtree (goneSubtree directory)).1 path ↔
      IsLivePath root livePlan path ∧ ¬ Covers slash directory.remotePath path := by
  have hdirectories := (LiveScanPlan.addDeletedSubtree_entries livePlan
    (goneSubtree directory)).1
  have hfiles := (LiveScanPlan.addDeletedSubtree_entries livePlan (goneSubtree directory)).2.1
  have hkept : ∀ relativePath,
      (livePlan.addDeletedSubtree (goneSubtree directory)).1.isDeletedRelativePath relativePath =
        false ↔ livePlan.isDeletedRelativePath relativePath = false ∧
          ¬ Covers slash directory.remotePath (root.canonical ++ slash :: relativePath) := by
    intro relativePath
    rw [hcomposed.directories directory hd,covers_append_iff,← Bool.not_eq_true,
      isDeletedRelativePath_addDeletedSubtree,not_or,Bool.not_eq_true]
    rfl
  have hroot : ¬ Covers slash directory.remotePath root.canonical := by
    rw [hcomposed.directories directory hd]
    exact fun hc => absurd hc.isPrefix.length_le (by simp)
  unfold IsLivePath
  rw [hdirectories,hfiles]
  constructor
  · rintro (rfl | ⟨other,ho,hlive,rfl⟩ | ⟨file,hf,hlive,rfl⟩)
    · exact ⟨Or.inl rfl,hroot⟩
    · obtain ⟨hlive,hc⟩ := (hkept _).mp hlive
      exact ⟨Or.inr (Or.inl ⟨other,ho,hlive,rfl⟩),by rwa [hcomposed.directories other ho]⟩
    · obtain ⟨hlive,hc⟩ := (hkept _).mp hlive
      exact ⟨Or.inr (Or.inr ⟨file,hf,hlive,rfl⟩),by rwa [hcomposed.files file hf]⟩
  · rintro ⟨rfl | ⟨other,ho,hlive,rfl⟩ | ⟨file,hf,hlive,rfl⟩,hc⟩
    · exact Or.inl rfl
    · rw [hcomposed.directories other ho] at hc
      exact Or.inr (Or.inl ⟨other,ho,(hkept _).mpr ⟨hlive,hc⟩,rfl⟩)
    · rw [hcomposed.files file hf] at hc
      exact Or.inr (Or.inr ⟨file,hf,(hkept _).mpr ⟨hlive,hc⟩,rfl⟩)

theorem ClosedPlan.addDeletedSubtree (h : ClosedPlan root livePlan)
    (hcomposed : Compositional root livePlan) {directory : LocalDirectoryEntry}
    (hd : directory ∈ livePlan.directories) :
    ClosedPlan root (livePlan.addDeletedSubtree (goneSubtree directory)).1 where
  below path hlive hne := h.below path ((isLivePath_addDeletedSubtree hcomposed hd).mp hlive).1 hne
  parents path parent hlive hb hbelow := by
    obtain ⟨hlive,hc⟩ := (isLivePath_addDeletedSubtree hcomposed hd).mp hlive
    exact (isLivePath_addDeletedSubtree hcomposed hd).mpr
      ⟨h.parents path parent hlive hb hbelow,fun hc' => hc (hc'.trans hbelow.covers)⟩

/-- Under a closed plan exactly what is not live goes. -/
theorem goesWith_iff (hclosed : ClosedPlan root livePlan) {resource : ResourceMetadata}
    (hr : resource ∈ listing.inventory.resources) (hno : NoPhantom root resource.path) :
    GoesWith root livePlan listing.inventory resource.path ↔
      Beneath slash root.canonical resource.path ∧ ¬ IsLivePath root livePlan resource.path := by
  constructor
  · rintro ⟨operation,ho,hc⟩
    obtain ⟨hdead,hb,_⟩ := plannedDeletes_topMost hclosed ho
    exact ⟨hb.trans_covers hc,fun hlive => hdead _ (mem_livePaths.mpr hlive) hc⟩
  · rintro ⟨hb,hlive⟩
    obtain ⟨rel,hrel⟩ := beneath_iff.mp hb
    exact plannedDeletes_cover hr ⟨rel,hrel,hno rel hrel⟩ hlive

/-- One more deleted subtree adds what is at or below it to the deletes, and nothing else. -/
theorem deletedSubtree_adds (root : ManagedRoot) (livePlan : LiveScanPlan)
    (listing : RemoteListing root) (hclosed : ClosedPlan root livePlan)
    (hcomposed : Compositional root livePlan) {directory : LocalDirectoryEntry}
    (hd : directory ∈ livePlan.directories) {resource : ResourceMetadata}
    (hr : resource ∈ listing.inventory.resources) (hno : NoPhantom root resource.path) :
    GoesWith root (livePlan.addDeletedSubtree (goneSubtree directory)).1 listing.inventory
        resource.path ↔
      GoesWith root livePlan listing.inventory resource.path ∨
        Covers slash directory.remotePath resource.path := by
  rw [goesWith_iff (hclosed.addDeletedSubtree hcomposed hd) hr hno,goesWith_iff hclosed hr hno,
    isLivePath_addDeletedSubtree hcomposed hd]
  have hbelow : Covers slash directory.remotePath resource.path →
      Beneath slash root.canonical resource.path := by
    rw [hcomposed.directories directory hd]
    exact fun hc => (beneath_append _ _).trans_covers hc
  constructor
  · rintro ⟨hb,hnot⟩
    by_cases hc : Covers slash directory.remotePath resource.path
    · exact Or.inr hc
    · exact Or.inl ⟨hb,fun hlive => hnot ⟨hlive,hc⟩⟩
  · rintro (⟨hb,hlive⟩ | hc)
    · exact ⟨hb,fun h => hlive h.1⟩
    · exact ⟨hbelow hc,fun h => h.2 hc⟩

end Subtree

section EmptySegment

private def partedConfig : SyncRootConfig :=
  { id := "r".toList, name := "r".toList, enabled := true, localPath := "/data".toList }

private def partedRoot : ManagedRoot where
  config := partedConfig
  remoteRoot := "disk:/B".toList
  canonical := "disk:/B/data".toList
  mapped := by decide

private def barePlan : LiveScanPlan := { rootId := "r".toList, rootLocalPath := ["data".toList] }

private theorem barePlan_closed : ClosedPlan partedRoot barePlan := by
  have hlive : ∀ path, IsLivePath partedRoot barePlan path → path = partedRoot.canonical := by
    rintro path (rfl | ⟨directory,hd,_⟩ | ⟨file,hf,_⟩)
    · rfl
    · cases hd
    · cases hf
  refine ⟨fun path hp hne => absurd (hlive path hp) hne,fun path parent hp hb hbelow => ?_⟩
  rw [hlive path hp] at hbelow
  exact absurd (hb.trans hbelow) fun h => h.ne rfl

private def doubledInventory : Inventory :=
  Inventory.ofResources [.ofFile "disk:/B/data//x/a".toList 1]

/-- The delete rebuilt for the file is of a path it is not below. -/
theorem emptySegment_uncovered : ¬ ∀ (root : ManagedRoot) (livePlan : LiveScanPlan)
    (inventory : Inventory), inventory.Keyed → ClosedPlan root livePlan →
      FilesAreLeaves inventory → DeletesPartition root livePlan inventory := by
  intro h
  have hleaves : FilesAreLeaves doubledInventory := by decide
  have hparts := h partedRoot barePlan doubledInventory (Inventory.keyed_ofResources _)
    barePlan_closed hleaves
  have honce := hparts.once (.ofFile "disk:/B/data//x/a".toList 1) (by decide)
    ⟨"/x/a".toList,by decide,by decide⟩ (by
      rintro (he | ⟨_,hd,_⟩ | ⟨_,hf,_⟩)
      · exact absurd he (by decide)
      · cases hd
      · cases hf)
  exact absurd honce (by decide)

private def shelf : LocalDirectoryEntry :=
  { rootId := "r".toList, localPath := ["data".toList,"x".toList], relativePath := "x".toList
    remotePath := "disk:/B/data/x".toList, normalizedRemotePath := "disk:/b/data/x".toList }

private def shelfPlan : LiveScanPlan := { barePlan with directories := [shelf] }

private theorem shelfPlan_live {path : Str} (h : IsLivePath partedRoot shelfPlan path) :
    path = partedRoot.canonical ∨ path = shelf.remotePath := by
  rcases h with rfl | ⟨directory,hd,_,rfl⟩ | ⟨file,hf,_⟩
  · exact Or.inl rfl
  · rw [List.mem_singleton.mp hd]
    exact Or.inr rfl
  · cases hf

private theorem shelfPlan_closed : ClosedPlan partedRoot shelfPlan := by
  have hshelf : Beneath slash partedRoot.canonical shelf.remotePath := by decide
  refine ⟨fun path hp hne => ?_,fun path parent hp hb hbelow => ?_⟩
  · rcases shelfPlan_live hp with rfl | rfl
    · exact absurd rfl hne
    · exact hshelf
  · rcases shelfPlan_live hp with rfl | rfl
    · exact absurd (hb.trans hbelow) fun h => h.ne rfl
    · -- the only path above the directory is the root
      have hroot : Covers slash parent partedRoot.canonical :=
        (beneath_snoc_iff (by decide : slash ∉ "x".toList)).mp hbelow
      exact absurd (hb.trans_covers hroot) fun h => h.ne rfl

private def splitInventory : Inventory :=
  Inventory.ofResources [
    .ofDirectory "disk:/B/data".toList,.ofDirectory "disk:/B/data/x".toList,
    .ofDirectory "disk:/B/data/x/old".toList,.ofFile "disk:/B/data/x/old/a".toList 1,
    .ofFile "disk:/B/data/y/z/b".toList 1]

/-- The live directory stays. One in it goes with what it holds, and so does a file below a
directory that is not listed. -/
theorem twoDirectories_twoDeletes :
    (plannedDeletes partedRoot shelfPlan splitInventory).map RemoteDeleteOperation.remotePath =
        ["disk:/B/data/x/old".toList,"disk:/B/data/y".toList] ∧
      DeletesPartition partedRoot shelfPlan splitInventory :=
  ⟨by decide,plannedDeletes_partition partedRoot shelfPlan
    ⟨splitInventory,Inventory.keyed_ofResources _,by decide⟩ shelfPlan_closed
    (show FilesAreLeaves splitInventory by decide)⟩

private theorem shelfPlan_compositional : Compositional partedRoot shelfPlan :=
  ⟨fun directory hd => by rw [List.mem_singleton.mp hd]; rfl,fun file hf => by cases hf⟩

/-- Without the directory the file beside it is taken to lie below it, and stays. -/
theorem deletedSubtree_withholds : ¬ ∀ (root : ManagedRoot) (livePlan : LiveScanPlan)
    (inventory : Inventory), inventory.Keyed → FilesAreLeaves inventory →
      ClosedPlan root livePlan → Compositional root livePlan →
      ∀ directory ∈ livePlan.directories, ∀ resource ∈ inventory.resources,
        NoPhantom root resource.path →
          (GoesWith root (livePlan.addDeletedSubtree (goneSubtree directory)).1 inventory
              resource.path ↔
            GoesWith root livePlan inventory resource.path ∨
              Covers slash directory.remotePath resource.path) := by
  intro h
  have hleaves : FilesAreLeaves doubledInventory := by decide
  have hadds := h partedRoot shelfPlan doubledInventory (Inventory.keyed_ofResources _) hleaves
    shelfPlan_closed shelfPlan_compositional shelf (by decide)
    (.ofFile "disk:/B/data//x/a".toList 1) (by decide) (by decide)
  have hbefore : GoesWith partedRoot shelfPlan doubledInventory "disk:/B/data//x/a".toList := by
    unfold GoesWith
    decide
  have hafter : ¬ GoesWith partedRoot
      (shelfPlan.addDeletedSubtree (goneSubtree shelf)).1 doubledInventory
      "disk:/B/data//x/a".toList := by
    unfold GoesWith
    decide
  exact hafter (hadds.mpr (Or.inl hbefore))

private def shelfInventory : Inventory :=
  Inventory.ofResources [.ofDirectory "disk:/B/data/x".toList,.ofFile "disk:/B/data/x/a".toList 1,
    .ofFile "disk:/B/data/y".toList 1]

/-- The directory itself goes with its subtree, an extra beside it goes as before. -/
theorem shelf_goes :
    ¬ GoesWith partedRoot shelfPlan shelfInventory "disk:/B/data/x".toList ∧
      GoesWith partedRoot (shelfPlan.addDeletedSubtree (goneSubtree shelf)).1 shelfInventory
        "disk:/B/data/x".toList := by
  refine ⟨by unfold GoesWith; decide,?_⟩
  exact (deletedSubtree_adds partedRoot shelfPlan
    ⟨shelfInventory,Inventory.keyed_ofResources _,by decide⟩ shelfPlan_closed
    shelfPlan_compositional (by decide : shelf ∈ shelfPlan.directories)
    (show ResourceMetadata.ofDirectory "disk:/B/data/x".toList ∈ shelfInventory.resources by decide)
    (by decide)).mpr (Or.inr (Covers.refl _))

end EmptySegment

end YaDiskSync
