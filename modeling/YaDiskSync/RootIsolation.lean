import YaDiskSync.DeleteSafety

/-! Isolation of roots. The deletes of one root lie strictly below its own canonical path,
and the live paths of another lie at or below theirs; the two are kept apart exactly when no
canonical path lies beneath another. Validation only compares canonical paths for equality. -/
namespace YaDiskSync

open SepPath

variable {ext : Externals}

/-- An enabled root of the configuration with its canonical path. -/
def ManagedRoot.EnabledIn (root : ManagedRoot) (config : AppConfig) : Prop :=
  root.config ∈ config.roots ∧ root.config.enabled = true ∧
    root.remoteRoot = config.instanceConfig.remoteRoot

theorem ManagedRoot.EnabledIn.canonicalPath {root : ManagedRoot} {config : AppConfig}
    (h : root.EnabledIn config) : root.config.canonicalPath config = .ok root.canonical := by
  unfold SyncRootConfig.canonicalPath
  rw [← h.2.2]
  exact root.mapped

/-- A live plan as the scan of some local tree leaves it, with the subtrees registered as
deleted since. -/
inductive ScannedPlan (root : ManagedRoot) : LiveScanPlan → Prop
  | of (ext : Externals) (oracle : ScanOracle) (context : ScanContext) (faults : ScanFaults)
      (tree : LocalTree) (isDir : LocalPath → Bool) (deletedSubtrees : List DeletedLocalSubtree)
      (hroot : context.root.canonicalRemotePath = root.canonical) :
      ScannedPlan root
        { LiveScanPlan.ofScanReport isDir context.root.localPath
            (scanReport ext oracle context faults tree) with deletedSubtrees }

section Mapped

variable {root : ManagedRoot} {oracle : ScanOracle} {context : ScanContext} {faults : ScanFaults}

/-- Mapped paths lie at or below the canonical root. -/
theorem remotePathForRelative_covers {relative path : Str}
    (h : remotePathForRelative root.canonical relative = .ok path) :
    Covers slash root.canonical path := by
  unfold remotePathForRelative at h
  rw [root.trimEnd] at h
  obtain ⟨rest,_,rfl⟩ := sanitizeRemotePath_below root.isRemotePath h
  exact extend_covers _ _

theorem ScannedPlan.live_covers {livePlan : LiveScanPlan} (h : ScannedPlan root livePlan)
    {path : Str} (hl : IsLivePath root livePlan path) : Covers slash root.canonical path := by
  obtain ⟨ext,oracle,context,faults,tree,isDir,deletedSubtrees,hroot⟩ := h
  rcases hl with rfl | ⟨directory,hm,_,rfl⟩ | ⟨file,hm,_,rfl⟩
  · exact Covers.refl _
  · obtain ⟨item,_,_,he⟩ :=
      mem_scanReport_directories.mp (LiveScanPlan.mem_ofScanReport_directories hm)
    have hd := (directoryEntry_remotePath (handleWalkEntry_directory he).2.2).1
    exact remotePathForRelative_covers (hroot ▸ hd)
  · obtain ⟨item,_,_,he⟩ := mem_scanReport_files.mp (LiveScanPlan.mem_ofScanReport_files hm)
    have hf := (fileEntry_spec (handleWalkEntry_file he).2.2).remotePath
    exact remotePathForRelative_covers (hroot ▸ hf)

end Mapped

/-- Planned deletes lie strictly below the canonical root. -/
theorem plannedDeletes_beneath {root : ManagedRoot} {livePlan : LiveScanPlan}
    {inventory : Inventory} {operation : RemoteDeleteOperation}
    (h : operation ∈ plannedDeletes root livePlan inventory) :
    Beneath slash root.canonical operation.remotePath := by
  obtain ⟨resource,_,hrem,ht,_⟩ := plannedDeletes_sound h
  obtain ⟨rel,hrel⟩ := hrem.target_candidate
  rw [ht,(strictlyUnder_of_candidate hrel).2.1]
  exact beneath_append _ _

/-- No delete planned for one enabled root removes a live path of another. -/
def DeletesIsolated (config : AppConfig) : Prop :=
  ∀ i j : ManagedRoot, i.EnabledIn config → j.EnabledIn config → i.config ≠ j.config →
    ∀ planI planJ, ScannedPlan i planI → ScannedPlan j planJ → ∀ inventory : Inventory,
      ∀ operation ∈ plannedDeletes i planI inventory, ∀ path, IsLivePath j planJ path →
        ¬ Covers slash operation.remotePath path

/-- No enabled root's canonical path lies beneath another's. -/
def RootsNotNested (config : AppConfig) : Prop :=
  ∀ i j : ManagedRoot, i.EnabledIn config → j.EnabledIn config → i.config ≠ j.config →
    ¬ Beneath slash i.canonical j.canonical

/-- The plan of a root whose local directory is empty. -/
def emptyPlan (root : ManagedRoot) : LiveScanPlan :=
  LiveScanPlan.ofScanReport (fun _ => true) [] { rootId := root.config.id }

theorem emptyPlan_scanned (root : ManagedRoot) : ScannedPlan root (emptyPlan root) :=
  .of ⟨fun _ => none,fun _ => none,fun _ _ _ => .none,id⟩ ⟨id,id,id,fun _ => []⟩
    { options := ⟨[],[],0,0,0,0,[]⟩, root := ⟨root.config.id,[],root.canonical,[]⟩
      patternMatcher := ⟨[],[]⟩, absoluteMatcher := ⟨[],[]⟩, previousStates := fun _ => none }
    {} .empty (fun _ => true) [] rfl

theorem livePaths_emptyPlan (root : ManagedRoot) :
    livePaths root (emptyPlan root) = [root.canonical] := rfl

/-- A root whose canonical path lies beneath another's is removed with it. -/
theorem DeletesIsolated.rootsNotNested {config : AppConfig} (h : DeletesIsolated config) :
    RootsNotNested config := by
  intro i j hi hj hne hb
  obtain ⟨hcand,hplain⟩ := candidate_of_isRemotePath j.isRemotePath hb
  have hres : ∀ r, r ∈ (Inventory.ofResources [.ofDirectory j.canonical]).resources ↔
      r = .ofDirectory j.canonical := by
    intro r
    simp only [Inventory.mem_resources,Inventory.ofResources,List.foldl_cons,List.foldl_nil,
      Std.TreeMap.getElem?_insert]
    constructor
    · rintro ⟨key,hk⟩
      split at hk
      · exact (Option.some.inj hk).symm
      · simp at hk
    · rintro rfl
      exact ⟨j.canonical,by simp [ResourceMetadata.ofDirectory]⟩
  have hrem : Removable i (livePaths i (emptyPlan i)) j.canonical :=
    ⟨hcand,by rw [livePaths_emptyPlan]; simpa using hb.ne.symm⟩
  obtain ⟨operation,hop,hc⟩ := plannedDeletes_cover_target
    (fun r hr => by rw [(hres r).mp hr]; exact hplain) ((hres _).mpr rfl) hrem
  exact h i j hi hj hne _ _ (emptyPlan_scanned i) (emptyPlan_scanned j) _ operation hop
    j.canonical (Or.inl rfl) (hc.trans (target_covers hrem hplain))

/-- Deletes of distinct enabled roots stay apart exactly when no root is nested in another. -/
theorem deletesIsolated_iff (accepted : AcceptedConfig ext) :
    DeletesIsolated accepted.config ↔ RootsNotNested accepted.config := by
  refine ⟨DeletesIsolated.rootsNotNested,fun h i j hi hj hne planI planJ _ hJ inventory
    operation hop path hl hc => ?_⟩
  have hci : Covers slash i.canonical path :=
    ((plannedDeletes_beneath hop).trans_covers hc).covers
  have hcj : Covers slash j.canonical path := hJ.live_covers hl
  have hcanon : i.canonical ≠ j.canonical := by
    intro he
    refine accepted.canonicalPath_ne hi.1 hj.1 hne ?_
    rw [hi.canonicalPath,hj.canonicalPath,he]
  rcases hci.total hcj with hc' | hc'
  · exact h i j hi hj hne (hc'.beneath_of_ne hcanon)
  · exact h j i hj hi hne.symm (hc'.beneath_of_ne hcanon.symm)

section NestedRoots

private def outerRoot : SyncRootConfig :=
  { id := "outer".toList, name := "outer".toList, enabled := true, localPath := "/data".toList }

private def innerRoot : SyncRootConfig :=
  { id := "inner".toList, name := "inner".toList, enabled := true
    localPath := "/data/photos".toList }

private def nestedConfig : AppConfig := { defaultConfig with roots := [outerRoot,innerRoot] }

theorem deletes_not_isolated :
    ¬ ∀ (ext : Externals) (accepted : AcceptedConfig ext), DeletesIsolated accepted.config := by
  intro h
  have hiso := h asciiExternals ⟨nestedConfig,by decide +kernel⟩
  refine hiso.rootsNotNested
    ⟨outerRoot,"disk:/Backup".toList,"disk:/Backup/data".toList,by decide⟩
    ⟨innerRoot,"disk:/Backup".toList,"disk:/Backup/data/photos".toList,by decide⟩
    ⟨by decide,by decide,by decide⟩ ⟨by decide,by decide,by decide⟩ (by decide) (by decide)

end NestedRoots

end YaDiskSync
