import YaDiskSync.RootIsolation

/-! Deletes of legacy layouts. A migration removes what is left below each legacy root,
one recursive delete per top-most directory, without looking at live paths. -/
namespace YaDiskSync

open SepPath

structure LegacyInventory where
  rootPath : Str
  resources : Inventory

structure RemoteSets where
  canonical : Inventory
  legacy : List LegacyInventory
  fromCache : Bool

structure DeleteCandidate where
  remotePath : Str
  relativePath : Str
  resourceType : ResourceType
  canonicalPath : Str
  deriving DecidableEq, Repr

/-- `remote_path_for_relative` of the migration, which does not sanitise. -/
def joinRemotePath (root relativePath : Str) : Str :=
  if relativePath.isEmpty then root
  else trimEndMatches slash root ++ slash :: relativePath

def legacyToCanonicalPath (legacyRoot canonicalRoot legacyPath : Str) : Str :=
  joinRemotePath canonicalRoot (relativeRemotePath legacyRoot legacyPath)

structure LegacyDeleteState where
  suppressedPrefixes : List Str := []
  deletes : List DeleteCandidate := []

def LegacyDeleteState.suppresses (state : LegacyDeleteState) (path : Str) : Bool :=
  state.suppressedPrefixes.any fun pre => isAtOrBelow pre path

section Collect

variable (legacyRoot canonicalRoot : Str)

/-- One round of the loop over the legacy inventory. -/
def legacyStep (state : LegacyDeleteState) (resource : ResourceMetadata) : LegacyDeleteState :=
  match remoteDeleteCandidateRelativePath legacyRoot resource.path with
  | .error _ => state
  | .ok relativePath =>
    if state.suppresses resource.path then state
    else {
      suppressedPrefixes :=
        if resource.resourceType = .directory then state.suppressedPrefixes ++ [resource.path]
        else state.suppressedPrefixes
      deletes := state.deletes ++ [{
        remotePath := resource.path, relativePath, resourceType := resource.resourceType
        canonicalPath := legacyToCanonicalPath legacyRoot canonicalRoot resource.path }] }

end Collect

def collectLegacyDeleteCandidates (legacy : LegacyInventory) (canonicalRoot : Str) :
    List DeleteCandidate :=
  ((sortByKey collectKey legacy.resources.resources).foldl
    (legacyStep legacy.rootPath canonicalRoot) {}).deletes

section Cover

variable {legacyRoot : Str} (canonicalRoot : Str)

/-- A resource strictly below the legacy root, off phantom segments. -/
def LegacyRemovable (legacyRoot path : Str) : Prop :=
  ∃ relativePath, remoteDeleteCandidateRelativePath legacyRoot path = .ok relativePath

/-- The state after some of the resources: deletes are among them and cover all of them. -/
structure LegacyInv (legacyRoot : Str) (processed : List ResourceMetadata)
    (state : LegacyDeleteState) : Prop where
  sound : ∀ delete ∈ state.deletes, ∃ resource ∈ processed,
    LegacyRemovable legacyRoot resource.path ∧ delete.remotePath = resource.path
  suppressed : ∀ pre ∈ state.suppressedPrefixes, ∃ delete ∈ state.deletes,
    delete.remotePath = pre
  settled : ∀ resource ∈ processed, LegacyRemovable legacyRoot resource.path →
    ∃ delete ∈ state.deletes, Covers slash delete.remotePath resource.path

theorem LegacyInv.extend {processed : List ResourceMetadata} {state : LegacyDeleteState}
    (h : LegacyInv legacyRoot processed state) (resource : ResourceMetadata)
    (hs : LegacyRemovable legacyRoot resource.path →
      ∃ delete ∈ state.deletes, Covers slash delete.remotePath resource.path) :
    LegacyInv legacyRoot (processed ++ [resource]) state where
  sound := fun delete hd => by
    obtain ⟨r,hr,hrest⟩ := h.sound delete hd
    exact ⟨r,by simp [hr],hrest⟩
  suppressed := h.suppressed
  settled := fun r hr hrr => by
    rcases List.mem_append.mp hr with hr | hr
    · exact h.settled r hr hrr
    · rw [List.mem_singleton.mp hr] at hrr ⊢
      exact hs hrr

theorem LegacyInv.step {processed : List ResourceMetadata} {state : LegacyDeleteState}
    (h : LegacyInv legacyRoot processed state) (resource : ResourceMetadata) :
    LegacyInv legacyRoot (processed ++ [resource])
      (legacyStep legacyRoot canonicalRoot state resource) := by
  unfold legacyStep
  split
  · rename_i he
    refine h.extend resource fun hr => ?_
    obtain ⟨rel,hrel⟩ := hr
    rw [he] at hrel
    cases hrel
  · rename_i rel hrel
    split
    · rename_i hsup
      refine h.extend resource fun _ => ?_
      obtain ⟨pre,hpre,hc⟩ := List.any_eq_true.mp hsup
      obtain ⟨delete,hd,he⟩ := h.suppressed pre hpre
      exact ⟨delete,hd,he ▸ isAtOrBelow_iff.mp hc⟩
    · refine ⟨fun delete hd => ?_,fun pre hpre => ?_,fun r hr hrr => ?_⟩
      · rcases List.mem_append.mp hd with hd | hd
        · obtain ⟨r,hr,hrest⟩ := h.sound delete hd
          exact ⟨r,by simp [hr],hrest⟩
        · rw [List.mem_singleton.mp hd]
          exact ⟨resource,by simp,⟨rel,hrel⟩,rfl⟩
      · have hcases : pre ∈ state.suppressedPrefixes ∨ pre = resource.path := by
          simp only at hpre
          split at hpre
          · simpa using hpre
          · exact Or.inl hpre
        rcases hcases with hpre | rfl
        · obtain ⟨delete,hd,he⟩ := h.suppressed pre hpre
          exact ⟨delete,by simp [hd],he⟩
        · exact ⟨_,List.mem_append_right _ (List.mem_singleton.mpr rfl),rfl⟩
      · rcases List.mem_append.mp hr with hr | hr
        · obtain ⟨delete,hd,hc⟩ := h.settled r hr hrr
          exact ⟨delete,by simp [hd],hc⟩
        · rw [List.mem_singleton.mp hr]
          exact ⟨_,List.mem_append_right _ (List.mem_singleton.mpr rfl),Covers.refl _⟩

theorem LegacyInv.foldl {processed : List ResourceMetadata} {state : LegacyDeleteState}
    (h : LegacyInv legacyRoot processed state) (resources : List ResourceMetadata) :
    LegacyInv legacyRoot (processed ++ resources)
      (resources.foldl (legacyStep legacyRoot canonicalRoot) state) := by
  induction resources generalizing processed state with
  | nil => simpa using h
  | cons resource resources ih =>
    have hstep := ih (h.step canonicalRoot resource)
    rwa [List.append_assoc,List.singleton_append] at hstep

/-- A path goes with the legacy layout exactly when it lies at or below a removable resource. -/
theorem legacyCovered_iff {legacy : LegacyInventory} {q : Str} :
    (∃ delete ∈ collectLegacyDeleteCandidates legacy canonicalRoot,
      Covers slash delete.remotePath q) ↔
    ∃ resource ∈ legacy.resources.resources,
      LegacyRemovable legacy.rootPath resource.path ∧ Covers slash resource.path q := by
  have hinit : LegacyInv legacy.rootPath [] {} := by constructor <;> simp
  have h := hinit.foldl canonicalRoot
    (sortByKey collectKey legacy.resources.resources)
  rw [List.nil_append] at h
  constructor
  · rintro ⟨delete,hd,hc⟩
    obtain ⟨r,hr,hrem,he⟩ := h.sound delete hd
    exact ⟨r,mem_sortByKey.mp hr,hrem,he ▸ hc⟩
  · rintro ⟨r,hr,hrem,hc⟩
    obtain ⟨delete,hd,hdc⟩ := h.settled r (mem_sortByKey.mpr hr) hrem
    exact ⟨delete,hd,hdc.trans hc⟩

end Cover

section Safety

/-- The canonical paths of all enabled roots and the remote paths of the root's live entries. -/
def IsProtectedPath (config : AppConfig) (root : ManagedRoot) (livePlan : LiveScanPlan)
    (path : Str) : Prop :=
  (∃ other : ManagedRoot, other.EnabledIn config ∧ path = other.canonical) ∨
    IsLivePath root livePlan path

/-- No legacy delete removes a protected path. -/
def LegacyDeletesSafe (config : AppConfig) (root : ManagedRoot) (livePlan : LiveScanPlan)
    (sets : RemoteSets) : Prop :=
  ∀ legacy ∈ sets.legacy, ∀ delete ∈ collectLegacyDeleteCandidates legacy root.canonical,
    ∀ path, IsProtectedPath config root livePlan path → ¬ Covers slash delete.remotePath path

/-- Legacy deletes are safe exactly when no removable resource of a legacy inventory is a
protected path or an ancestor of one. -/
theorem legacyDeletesSafe_iff (config : AppConfig) (root : ManagedRoot)
    (livePlan : LiveScanPlan) (sets : RemoteSets) :
    LegacyDeletesSafe config root livePlan sets ↔
      ∀ legacy ∈ sets.legacy, ∀ resource ∈ legacy.resources.resources,
        LegacyRemovable legacy.rootPath resource.path → ∀ path,
          IsProtectedPath config root livePlan path → ¬ Covers slash resource.path path := by
  constructor
  · intro h legacy hl resource hr hrem path hp hc
    obtain ⟨delete,hd,hdc⟩ := (legacyCovered_iff root.canonical).mpr
      ⟨resource,hr,hrem,hc⟩
    exact h legacy hl delete hd path hp hdc
  · intro h legacy hl delete hd path hp hc
    obtain ⟨resource,hr,hrem,hrc⟩ := (legacyCovered_iff root.canonical).mp ⟨delete,hd,hc⟩
    exact h legacy hl resource hr hrem path hp hrc

/-- A legacy root with no protected path beneath it is cleared safely. -/
theorem legacyDeletesSafe_of_disjoint {config : AppConfig} {root : ManagedRoot}
    {livePlan : LiveScanPlan} {sets : RemoteSets}
    (h : ∀ legacy ∈ sets.legacy, ∀ path, IsProtectedPath config root livePlan path →
      ¬ Beneath slash (trimEndMatches slash legacy.rootPath) path) :
    LegacyDeletesSafe config root livePlan sets := by
  rw [legacyDeletesSafe_iff]
  rintro legacy hl resource _ ⟨rel,hrel⟩ path hp hc
  refine h legacy hl path hp (Beneath.trans_covers ?_ hc)
  rw [(candidate_ok hrel).1]
  exact beneath_append _ _

end Safety

section LegacyAboveCanonical

/-! The legacy directory of one root holds the canonical directory of another one. -/

private def archivedRoot : SyncRootConfig :=
  { id := "r".toList, name := "r".toList, enabled := true, localPath := "/data".toList
    legacyRemotePaths := ["disk:/Archive".toList] }

private def photosRoot : SyncRootConfig :=
  { id := "p".toList, name := "p".toList, enabled := true, localPath := "/photos".toList
    remotePathOverride := some "disk:/Archive/photos".toList }

private def archivedConfig : AppConfig := { defaultConfig with roots := [archivedRoot,photosRoot] }

private def archivedInventory : Inventory :=
  Inventory.ofResources
    [.ofDirectory "disk:/Archive".toList,.ofDirectory "disk:/Archive/photos".toList]

private def archivedSets : RemoteSets where
  canonical := Inventory.ofResources [.ofDirectory "disk:/Backup/data".toList]
  legacy := [⟨"disk:/Archive".toList,archivedInventory⟩]
  fromCache := false

theorem legacyDeletes_unsafe : ¬ ∀ (ext : Externals) (accepted : AcceptedConfig ext)
    (root : ManagedRoot), root.EnabledIn accepted.config → ∀ (livePlan : LiveScanPlan)
    (sets : RemoteSets), sets.legacy.map LegacyInventory.rootPath = root.config.legacyRemotePaths →
      LegacyDeletesSafe accepted.config root livePlan sets := by
  intro h
  have hsafe := h asciiExternals ⟨archivedConfig,by decide +kernel⟩
    ⟨archivedRoot,"disk:/Backup".toList,"disk:/Backup/data".toList,by decide⟩
    ⟨by decide,by decide,by decide⟩ { rootId := "r".toList, rootLocalPath := ["data".toList] }
    archivedSets (by decide)
  have hphotos : IsProtectedPath archivedConfig
      ⟨archivedRoot,"disk:/Backup".toList,"disk:/Backup/data".toList,by decide⟩
      { rootId := "r".toList, rootLocalPath := ["data".toList] } "disk:/Archive/photos".toList :=
    Or.inl ⟨⟨photosRoot,"disk:/Backup".toList,"disk:/Archive/photos".toList,by decide⟩,
      ⟨by decide,by decide,by decide⟩,rfl⟩
  exact hsafe ⟨"disk:/Archive".toList,archivedInventory⟩ (by simp [archivedSets])
    ⟨"disk:/Archive/photos".toList,"photos".toList,.directory,"disk:/Backup/data/photos".toList⟩
    (by decide) _ hphotos (Covers.refl _)

end LegacyAboveCanonical

end YaDiskSync
