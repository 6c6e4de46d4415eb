import YaDiskSync.RootIsolation

/-! Deletes after a scan with errors. The planner only knows what the scan reported, so an
item the scan could not read is as good as gone: its remote counterpart is spared exactly when
nothing the planner may remove lies at, above or below it. -/
namespace YaDiskSync

open SepPath

/-- One scan of a root's local tree: what it shares, what it finds and what fails. -/
structure RootScan where
  root : ManagedRoot
  ext : Externals
  oracle : ScanOracle
  context : ScanContext
  faults : ScanFaults
  tree : LocalTree
  canonical_eq : context.root.canonicalRemotePath = root.canonical

/-- What a listing of a remote tree can hold below the root: names are not empty. -/
structure RemoteListing (root : ManagedRoot) where
  inventory : Inventory
  keyed : inventory.Keyed
  plain : ∀ resource ∈ inventory.resources, PlainBelow root.canonical resource.path

namespace RootScan

variable (scan : RootScan)

def report : ScanReport :=
  scanReport scan.ext scan.oracle scan.context scan.faults scan.tree

/-- `is_dir` of the local tree while it stays as the scan found it. -/
def isDir (path : LocalPath) : Bool :=
  path == scan.context.root.localPath || scan.tree.items.any fun item =>
    item.fileType == .dir && scan.context.root.localPath ++ item.components == path

def livePlan : LiveScanPlan :=
  LiveScanPlan.ofScanReport scan.isDir scan.context.root.localPath scan.report

/-- The remote path of an item of the local tree. -/
def counterpart (item : LocalItem) : Except PathMappingError Str :=
  remotePathForRelative scan.root.canonical (relativePathOf item.components)

def Visited (item : LocalItem) : Prop :=
  isVisited scan.ext scan.context scan.faults item.components = true

/-- What the visit of an item adds to the report. -/
def visit (item : LocalItem) : Option ScanEvent :=
  handleWalkEntry scan.ext scan.oracle scan.context scan.faults item

/-- Reported as failed, or as skipped because the file was unavailable. -/
def ReportedUnavailable (item : LocalItem) : Prop :=
  scan.Visited item ∧
    ((∃ failed, scan.visit item = some (.failed failed)) ∨
      ∃ skipped, scan.visit item = some (.skipped skipped) ∧
        skipped.reasonCode = "local_file_unavailable".toList)

/-- The walk opens the directory and an error comes up while its entries are read. -/
def ListingFailed (dir : List Str) : Prop :=
  parentsListed scan.ext scan.context scan.faults dir = true ∧
    descends scan.ext scan.context scan.faults dir = true ∧
    ((scan.faults.listing dir).isSome = true ∨
      ∃ item ∈ scan.tree.items, item.components.dropLast = dir ∧
        (scan.faults.entry item.components).isSome = true)

def UnderFailedListing (item : LocalItem) : Prop :=
  ∃ dir, dir <+: item.components ∧ dir ≠ item.components ∧ scan.ListingFailed dir

/-- Neither the item nor a directory above it is excluded. -/
def NotExcluded (item : LocalItem) : Prop :=
  ∀ components, components <+: item.components → components ≠ [] →
    excludedBy scan.ext scan.context components
      (components ≠ item.components || item.fileType == .dir) = none

/-- An item of the tree that the scan failed to read or to reach. -/
structure Unread (item : LocalItem) : Prop where
  present : item ∈ scan.tree.items
  notExcluded : scan.NotExcluded item
  failed : scan.ReportedUnavailable item ∨ scan.UnderFailedListing item

/-- The walk reaches an item that is not excluded and reads what it needs of it. -/
structure ReadAs (item : LocalItem) (remotePath : Str) : Prop where
  visited : scan.Visited item
  kept : excludedBy scan.ext scan.context item.components (item.fileType == .dir) = none
  mapped : scan.counterpart item = .ok remotePath
  readable : item.fileType = .dir ∨ item.fileType = .file ∧
    FileReadable scan.ext scan.context scan.faults item (relativePathOf item.components)
      remotePath

/-- The canonical root, or the remote path of an item the scan read. -/
def IsScannedPath (path : Str) : Prop :=
  path = scan.root.canonical ∨ ∃ item ∈ scan.tree.items, scan.ReadAs item path

end RootScan

/-- No delete of the run removes the counterpart of an unread item or anything below it. -/
def UnreadItemsSpared (scan : RootScan) (listing : RemoteListing scan.root) : Prop :=
  ∀ item, scan.Unread item → ∀ remotePath, scan.counterpart item = .ok remotePath →
    ∀ operation ∈ plannedDeletes scan.root scan.livePlan listing.inventory,
      ∀ path, Covers slash remotePath path → ¬ Covers slash operation.remotePath path

/-- A path that is a valid candidate for a delete and that no item the scan read maps to. -/
def RootScan.Unscanned (scan : RootScan) (path : Str) : Prop :=
  (∃ rel, remoteDeleteCandidateRelativePath scan.root.canonical path = .ok rel) ∧
    ¬ scan.IsScannedPath path

/-- Nothing unscanned lies at, above or below the path, and no directory that covers the path
holds unscanned resources only. -/
structure Sheltered (scan : RootScan) (listing : RemoteListing scan.root) (path : Str) :
    Prop where
  apart : ∀ resource ∈ listing.inventory.resources, scan.Unscanned resource.path →
    ¬ Covers slash resource.path path ∧ ¬ Covers slash path resource.path
  parentsScanned : ∀ resource ∈ listing.inventory.resources, scan.Unscanned resource.path →
    ∀ m, Beneath slash scan.root.canonical m → Beneath slash m resource.path →
      Covers slash m path → ∃ scanned, scan.IsScannedPath scanned ∧ Covers slash m scanned

namespace RootScan

variable {scan : RootScan} {path : Str}

theorem isDir_of_reported {directory : LocalDirectoryEntry}
    (h : directory ∈ scan.report.directories) : scan.isDir directory.localPath = true := by
  obtain ⟨item,hi,_,he⟩ := mem_scanReport_directories.mp h
  obtain ⟨ht,_,hd⟩ := handleWalkEntry_directory he
  have hl := (directoryEntry_remotePath hd).2.2.1
  unfold isDir
  rw [Bool.or_eq_true,List.any_eq_true]
  exact Or.inr ⟨item,hi,by simp [ht,hl]⟩

theorem readAs_iff_visit {item : LocalItem} (hv : scan.Visited item) : scan.ReadAs item path ↔
    (∃ entry, scan.visit item = some (.directory entry) ∧ entry.remotePath = path) ∨
      ∃ entry, scan.visit item = some (.file entry) ∧ entry.remotePath = path := by
  have hc : scan.counterpart item = remotePathForRelative
      scan.context.root.canonicalRemotePath (relativePathOf item.components) := by
    rw [counterpart,scan.canonical_eq]
  rw [visit,exists_directory_visit_iff,exists_file_visit_iff,← hc]
  constructor
  · rintro ⟨_,hk,hm,hd | ⟨hf,hread⟩⟩
    · rw [hd] at hk
      exact Or.inl ⟨hd,hk,hm⟩
    · rw [hf] at hk
      exact Or.inr ⟨hf,hk,hm,hread⟩
  · rintro (⟨hd,hk,hm⟩ | ⟨hf,hk,hm,hread⟩)
    · exact ⟨hv,by rw [hd]; exact hk,hm,Or.inl hd⟩
    · exact ⟨hv,by rw [hf]; exact hk,hm,Or.inr ⟨hf,hread⟩⟩

theorem mem_livePaths_iff : path ∈ livePaths scan.root scan.livePlan ↔ scan.IsScannedPath path := by
  rw [livePlan,mem_livePaths_ofScanReport fun d hd => isDir_of_reported hd]
  apply or_congr Iff.rfl
  constructor
  · rintro (⟨entry,hm,rfl⟩ | ⟨entry,hm,rfl⟩)
    · obtain ⟨item,hi,hv,he⟩ := mem_scanReport_directories.mp hm
      exact ⟨item,hi,(readAs_iff_visit hv).mpr (Or.inl ⟨entry,he,rfl⟩)⟩
    · obtain ⟨item,hi,hv,he⟩ := mem_scanReport_files.mp hm
      exact ⟨item,hi,(readAs_iff_visit hv).mpr (Or.inr ⟨entry,he,rfl⟩)⟩
  · rintro ⟨item,hi,hread⟩
    rcases (readAs_iff_visit hread.visited).mp hread with ⟨entry,he,rfl⟩ | ⟨entry,he,rfl⟩
    · exact Or.inl ⟨entry,mem_scanReport_directories.mpr ⟨item,hi,hread.visited,he⟩,rfl⟩
    · exact Or.inr ⟨entry,mem_scanReport_files.mpr ⟨item,hi,hread.visited,he⟩,rfl⟩

theorem removable_iff : Removable scan.root (livePaths scan.root scan.livePlan) path ↔
    scan.Unscanned path := by
  rw [Unscanned,← mem_livePaths_iff]
  exact ⟨fun h => ⟨h.candidate,h.notLive⟩,fun h => ⟨h.1,h.2⟩⟩

theorem dead_iff : Dead (livePaths scan.root scan.livePlan) path ↔
    ¬ ∃ scanned, scan.IsScannedPath scanned ∧ Covers slash path scanned := by
  constructor
  · rintro h ⟨scanned,hs,hc⟩
    exact h scanned (mem_livePaths_iff.mpr hs) hc
  · exact fun h k hk hc => h ⟨k,mem_livePaths_iff.mp hk,hc⟩

end RootScan

/-- A path is out of reach of the deletes exactly when it is sheltered. -/
theorem sheltered_iff (scan : RootScan) (listing : RemoteListing scan.root) (remotePath : Str) :
    (∀ operation ∈ plannedDeletes scan.root scan.livePlan listing.inventory,
      ∀ path, Covers slash remotePath path → ¬ Covers slash operation.remotePath path) ↔
      Sheltered scan listing remotePath := by
  have hcov : ∀ q, (∃ operation ∈ plannedDeletes scan.root scan.livePlan listing.inventory,
      Covers slash operation.remotePath q) ↔ _ := fun q => covered_iff listing.plain
  constructor
  · intro h
    have hnot : ∀ path, Covers slash remotePath path → ¬ ∃ operation ∈
        plannedDeletes scan.root scan.livePlan listing.inventory,
        Covers slash operation.remotePath path :=
      fun path hp ⟨operation,hop,hc⟩ => h operation hop path hp hc
    refine ⟨fun resource hr hu => ⟨fun hc => ?_,fun hc => ?_⟩,
      fun resource hr hu m hm hmr hc => ?_⟩
    · exact hnot remotePath (Covers.refl _) ((hcov _).mpr
        ⟨resource,hr,RootScan.removable_iff.mpr hu,Or.inl hc⟩)
    · exact hnot resource.path hc ((hcov _).mpr
        ⟨resource,hr,RootScan.removable_iff.mpr hu,Or.inl (Covers.refl _)⟩)
    · by_contra hns
      exact hnot remotePath (Covers.refl _) ((hcov _).mpr ⟨resource,hr,
        RootScan.removable_iff.mpr hu,Or.inr ⟨m,RootScan.dead_iff.mpr hns,hm,hmr,hc⟩⟩)
  · intro h operation hop path hp hc
    obtain ⟨resource,hr,hrem,hcases⟩ := (hcov path).mp ⟨operation,hop,hc⟩
    have hu := RootScan.removable_iff.mp hrem
    rcases hcases with hrp | ⟨m,hd,hm,hmr,hmp⟩
    · -- the resource and the counterpart lie above a common path
      rcases hrp.total hp with hc' | hc'
      · exact (h.apart resource hr hu).1 hc'
      · exact (h.apart resource hr hu).2 hc'
    · rcases hmp.total hp with hc' | hc'
      · exact RootScan.dead_iff.mp hd (h.parentsScanned resource hr hu m hm hmr hc')
      · exact (h.apart resource hr hu).2 (hc'.trans hmr.covers)

/-- Unread items keep their remote counterparts exactly when all counterparts are sheltered. -/
theorem unreadItemsSpared_iff (scan : RootScan) (listing : RemoteListing scan.root) :
    UnreadItemsSpared scan listing ↔
      ∀ item, scan.Unread item → ∀ remotePath, scan.counterpart item = .ok remotePath →
        Sheltered scan listing remotePath := by
  constructor
  · exact fun h item hu r hr => (sheltered_iff scan listing r).mp (h item hu r hr)
  · exact fun h item hu r hr => (sheltered_iff scan listing r).mpr (h item hu r hr)

section DeniedFile

/-! Reading one file's metadata is denied: the file is skipped, its remote copy deleted. -/

private def deniedConfig : SyncRootConfig :=
  { id := "r".toList, name := "r".toList, enabled := true, localPath := "/data".toList }

private def deniedRoot : ManagedRoot where
  config := deniedConfig
  remoteRoot := "disk:/B".toList
  canonical := "disk:/B/data".toList
  mapped := by decide

private def deniedFile : LocalItem :=
  { components := ["a.txt".toList], fileType := .file, sizeBytes := 1 }

private def deniedScan : RootScan where
  root := deniedRoot
  ext := asciiExternals
  oracle := ⟨id,id,fun _ => [],fun _ => []⟩
  context := {
    options := {
      globalExcludes := [], absoluteExcludes := [], maxFileSizeBytes := 10
      fullHashMaxBytes := 10, largeFileNameSizeOnlyMinBytes := 10, scanConcurrency := 1
      stagingDir := "/staging".toList }
    root := {
      id := "r".toList, pathText := "/data".toList
      canonicalRemotePath := "disk:/B/data".toList, excludes := [] }
    patternMatcher := ⟨[],[]⟩
    absoluteMatcher := ⟨[],["/staging".toList]⟩
    previousStates := fun _ => none }
  faults := { metadata := fun _ => some { kind := .permissionDenied } }
  tree := {
    items := [deniedFile]
    names_ne := by decide
    nodup := by decide
    closed := by decide }
  canonical_eq := rfl

private def deniedListing : RemoteListing deniedScan.root where
  inventory := Inventory.ofResources [
    .ofDirectory "disk:/B/data".toList,.ofFile "disk:/B/data/a.txt".toList 1]
  keyed := Inventory.keyed_ofResources _
  plain := by
    intro resource hr
    have hall : ∀ r ∈ [ResourceMetadata.ofDirectory "disk:/B/data".toList,
        .ofFile "disk:/B/data/a.txt".toList 1],PlainBelow "disk:/B/data".toList r.path := by
      decide
    exact hall resource (Inventory.mem_of_mem_ofResources hr)

theorem unreadItems_not_spared : ¬ ∀ (scan : RootScan) (listing : RemoteListing scan.root),
    UnreadItemsSpared scan listing := by
  intro h
  have hunread : deniedScan.Unread deniedFile := by
    refine ⟨List.mem_singleton.mpr rfl,fun components hp hne => ?_,Or.inl ⟨?_,Or.inr ?_⟩⟩
    · rcases List.prefix_cons_iff.mp hp with rfl | ⟨rest,rfl,hrest⟩
      · exact absurd rfl hne
      · rw [List.prefix_nil] at hrest
        subst hrest
        rfl
    · unfold RootScan.Visited
      decide
    · exact ⟨_,rfl,rfl⟩
  have hmem : deleteOperation deniedRoot.config deniedRoot.canonical
      "disk:/B/data/a.txt".toList .file ∈
        plannedDeletes deniedRoot deniedScan.livePlan deniedListing.inventory := by decide
  exact h deniedScan deniedListing deniedFile hunread "disk:/B/data/a.txt".toList (by decide) _
    hmem _ (Covers.refl _) (Covers.refl _)

end DeniedFile

end YaDiskSync
