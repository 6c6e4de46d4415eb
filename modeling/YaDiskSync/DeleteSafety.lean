import YaDiskSync.DeleteCoverage
import YaDiskSync.Scanner

/-! Safety of the delete plan. A planned delete spares the canonical root and every live
path unless a directory without a live entry of its own has live paths beneath it. -/
namespace YaDiskSync

open SepPath

section Safety

variable (root : ManagedRoot) (livePlan : LiveScanPlan)

/-- The canonical root and the remote paths of the plan's live directories and files. -/
def IsLivePath (path : Str) : Prop :=
  path = root.canonical ∨
  (∃ directory ∈ livePlan.directories,
    livePlan.isDeletedRelativePath directory.relativePath = false ∧
      directory.remotePath = path) ∨
  ∃ file ∈ livePlan.files,
    livePlan.isDeletedRelativePath file.relativePath = false ∧ file.remotePath = path

/-- A delete strictly under the root, off phantom segments, that leaves live paths alone. -/
structure DeleteSafe (operation : RemoteDeleteOperation) : Prop where
  strictlyUnder : ∃ relativePath, relativePath ≠ [] ∧
    operation.remotePath = root.canonical ++ slash :: relativePath ∧
    ∀ segment ∈ relativePath.splitOn slash, eqIgnoreAsciiCase segment "disk:".toList = false
  spares : ∀ path, IsLivePath root livePlan path → ¬ Covers slash operation.remotePath path

/-- A remote path without a live entry of its own that has live paths beneath it, while no
parent the planner rebuilds for it is free of live paths. -/
structure Stranded (path : Str) : Prop where
  removable : Removable root (livePaths root livePlan) path
  parentsLive :
    topMissingRemoteDirectoryPrefix root.canonical path (livePaths root livePlan) = none
  liveBeneath : ∃ live, IsLivePath root livePlan live ∧ Beneath slash path live

variable {root livePlan}

theorem mem_livePaths {path : Str} :
    path ∈ livePaths root livePlan ↔ IsLivePath root livePlan path := by
  simp [livePaths,knownLiveRemotePaths,IsLivePath,LiveScanPlan.isDeletedRelativePath,and_assoc]

/-- While every scanned directory is there, all the scan reported is live. -/
theorem mem_livePaths_ofScanReport {isDir : LocalPath → Bool} {rootLocalPath : LocalPath}
    {report : ScanReport} (h : ∀ directory ∈ report.directories, isDir directory.localPath = true)
    {path : Str} :
    path ∈ livePaths root (LiveScanPlan.ofScanReport isDir rootLocalPath report) ↔
      path = root.canonical ∨ (∃ directory ∈ report.directories, directory.remotePath = path) ∨
        ∃ file ∈ report.files, file.remotePath = path := by
  rw [mem_livePaths,IsLivePath,LiveScanPlan.ofScanReport_of_isDir h]
  simp only [mem_sortByKey,LiveScanPlan.isDeletedRelativePath,isRelativePathDeleted_nil,true_and]

theorem strictlyUnder_of_candidate {path relativePath : Str}
    (h : remoteDeleteCandidateRelativePath root.canonical path = .ok relativePath) :
    relativePath ≠ [] ∧ path = root.canonical ++ slash :: relativePath ∧
      ∀ segment ∈ relativePath.splitOn slash,
        eqIgnoreAsciiCase segment "disk:".toList = false := by
  obtain ⟨hpath,hne,hp⟩ := candidate_ok h
  rw [root.trimEnd] at hpath
  refine ⟨hne,hpath,fun segment hs => ?_⟩
  simpa using List.any_eq_false.mp hp segment hs

/-- A delete of a dead path is safe. -/
theorem spares_of_dead {path : Str} (h : Dead (livePaths root livePlan) path) :
    ∀ live, IsLivePath root livePlan live → ¬ Covers slash path live :=
  fun live hl => h live (mem_livePaths.mpr hl)

theorem deleteSafe_of_no_stranded {inventory : Inventory}
    (h : ∀ resource ∈ inventory.resources, ¬ Stranded root livePlan resource.path)
    {operation : RemoteDeleteOperation}
    (hop : operation ∈ plannedDeletes root livePlan inventory) :
    DeleteSafe root livePlan operation := by
  obtain ⟨resource,hr,hrem,ht,_⟩ := plannedDeletes_sound hop
  obtain ⟨rel,hrel⟩ := hrem.target_candidate
  have hunder := strictlyUnder_of_candidate hrel
  refine ⟨⟨rel,hunder.1,by rw [ht,← hunder.2.1],hunder.2.2⟩,fun live hl hc => ?_⟩
  rw [ht] at hc
  cases htop : topMissingRemoteDirectoryPrefix root.canonical resource.path
      (livePaths root livePlan) with
  | some m =>
    obtain ⟨_,hpath⟩ := hrem.candidate.imp fun rel' h' => (candidate_ok h').1
    rw [root.trimEnd] at hpath
    have hdead := (topMissing_some hpath htop).1
    simp only [deleteTarget,htop,Option.getD_some] at hc
    exact spares_of_dead hdead live hl hc
  | none =>
    -- the resource itself is deleted: it would be stranded above the live path
    simp only [deleteTarget,htop,Option.getD_none] at hc
    have hne : resource.path ≠ live := fun he => hrem.notLive (mem_livePaths.mpr (he ▸ hl))
    exact h resource hr ⟨hrem,htop,live,hl,hc.beneath_of_ne hne⟩

/-- The delete plan is safe exactly when no resource of the inventory is stranded. -/
theorem plannedDeletes_safe_iff (root : ManagedRoot) (livePlan : LiveScanPlan)
    (inventory : Inventory) :
    (∀ operation ∈ plannedDeletes root livePlan inventory, DeleteSafe root livePlan operation) ↔
      ∀ resource ∈ inventory.resources, ¬ Stranded root livePlan resource.path := by
  constructor
  · rintro h resource hr ⟨hrem,htop,live,hl,hb⟩
    obtain ⟨operation,hop,hc⟩ := plannedDeletes_settle hr hrem
    simp only [deleteTarget,htop,Option.getD_none,or_self] at hc
    exact (h operation hop).spares live hl (hc.beneath hb).covers
  · exact fun h operation hop => deleteSafe_of_no_stranded h hop

end Safety

section TrailingSpace

/-! A local directory whose name ends in a space is mapped without the space, the paths
below it keep it: the remote directory they need has no live entry of its own. -/

private def dataRoot : ManagedRoot where
  config := { id := "r".toList, name := "r".toList, enabled := true, localPath := "/data".toList }
  remoteRoot := "disk:/B".toList
  canonical := "disk:/B/data".toList
  mapped := by decide

private def spacedReport : ScanReport :=
  { rootId := "r".toList
    directories := [{
      rootId := "r".toList, localPath := ["data".toList,"foo ".toList]
      relativePath := "foo ".toList, remotePath := "disk:/B/data/foo".toList
      normalizedRemotePath := "disk:/b/data/foo".toList }]
    files := [{
      rootId := "r".toList, localPath := ["data".toList,"foo ".toList,"x".toList]
      relativePath := "foo /x".toList, remotePath := "disk:/B/data/foo /x".toList
      normalizedRemotePath := "disk:/b/data/foo /x".toList
      uploadSource := ["data".toList,"foo ".toList,"x".toList], sizeBytes := 1
      mtimeNs := some 1, ctimeNs := some 1
      fingerprint := {
        kind := .metadata, value := [], fullSha256 := none, localMd5 := none
        reusedFromState := true }
      sqliteBackupStagingPath := none }] }

private def spacedInventory : Inventory :=
  Inventory.ofResources [
    .ofDirectory "disk:/B/data".toList,.ofDirectory "disk:/B/data/foo".toList,
    .ofDirectory "disk:/B/data/foo ".toList,.ofFile "disk:/B/data/foo /x".toList 1]

theorem plannedDeletes_unsafe : ¬ ∀ (root : ManagedRoot) (rootLocalPath : LocalPath)
    (report : ScanReport) (isDir : LocalPath → Bool) (inventory : Inventory),
    (∀ directory ∈ report.directories,
      remotePathForRelative root.canonical directory.relativePath = .ok directory.remotePath) →
    (∀ file ∈ report.files,
      remotePathForRelative root.canonical file.relativePath = .ok file.remotePath) →
    let livePlan := LiveScanPlan.ofScanReport isDir rootLocalPath report
    ∀ operation ∈ plannedDeletes root livePlan inventory, DeleteSafe root livePlan operation := by
  intro h
  have hs := h dataRoot ["data".toList] spacedReport (fun _ => true) spacedInventory
    (by decide) (by decide)
  have hmem : deleteOperation dataRoot.config dataRoot.canonical "disk:/B/data/foo ".toList
      .directory ∈ plannedDeletes dataRoot
        (LiveScanPlan.ofScanReport (fun _ => true) ["data".toList] spacedReport)
        spacedInventory := by decide
  refine (hs _ hmem).spares "disk:/B/data/foo /x".toList ?_ (by decide)
  exact Or.inr (Or.inr (by decide))

end TrailingSpace

end YaDiskSync
