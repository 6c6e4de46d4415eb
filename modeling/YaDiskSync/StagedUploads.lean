import YaDiskSync.Staging
import YaDiskSync.SyncPlan

/-! Which planned uploads of SQLite files come from a copy. The scanner makes no copy of a file
whose stored row it reuses, while the planner uploads it anyway when the remote file is gone. -/
namespace YaDiskSync

/-- The stored row of the file fits what the scan found, so its fingerprint is kept. -/
def KeepsRow (previousStates : List FileStateRecord) (file : LocalFileEntry) : Prop :=
  ∃ previous, previousStateMap previousStates file.relativePath = some previous ∧
    previous.sizeBytes = asI64 file.sizeBytes ∧ previous.mtimeNs = file.mtimeNs ∧
      previous.normalizedRemotePath = file.normalizedRemotePath

/-- The generated name of a backup is not the name of an item of the root. -/
def StagedScan.NamesFresh (scan : StagedScan) (root : ScanRoot) : Prop :=
  ∀ item ∈ (scan.tree.below root.localPath).items, ∀ components,
    scan.oracle.stagingPath components ≠ root.localPath ++ item.components

section Entries

variable {ext : Externals} {oracle : ScanOracle} {context : ScanContext} {faults : ScanFaults}
  {item : LocalItem} {relative : Str} {entry : LocalFileEntry}

theorem reusableState_isSome_iff {normalizedRemotePath : Str} {sizeBytes : Nat}
    {mtimeNs : Option Int} :
    (reusableState context relative normalizedRemotePath sizeBytes mtimeNs).isSome = true ↔
      ∃ previous, context.previousStates relative = some previous ∧
        previous.sizeBytes = asI64 sizeBytes ∧ previous.mtimeNs = mtimeNs ∧
          previous.normalizedRemotePath = normalizedRemotePath := by
  unfold reusableState
  cases hrow : context.previousStates relative with
  | none => simp
  | some previous =>
    by_cases hfits : previous.sizeBytes = asI64 sizeBytes ∧ previous.mtimeNs = mtimeNs ∧
        previous.normalizedRemotePath = normalizedRemotePath
    · simp [hfits]
    · simp [hfits,and_assoc]

/-- The copy an entry names is the one its visit made. -/
theorem fileEntry_staging
    (h : fileEntry ext oracle context faults item relative = .ok (.file entry)) :
    entry.sqliteBackupStagingPath = stagedCopy ext oracle context faults item relative := by
  unfold fileEntry at h
  unfold stagedCopy
  simp only at h
  split at h
  · cases h
  rename_i hmetadata
  split at h
  · cases h
  rename_i hmapped
  split at h
  · cases h
  rename_i hsize
  simp only [hmetadata,hmapped,if_neg hsize]
  split at h
  · rename_i previous hreuse
    cases h
    simp [hreuse]
  · rename_i hreuse
    split at h
    · cases h
    rename_i hstaging
    split at h
    · cases h
    · cases h
      simp [hreuse,hstaging]

/-- A SQLite file that keeps no row has a copy. -/
theorem sqliteStaging_candidate {components : List Str} {staging : Option LocalPath}
    (h : sqliteStaging oracle faults components = .ok staging)
    (hcandidate : isSqliteCandidate components = true) :
    staging = some (oracle.stagingPath components) := by
  unfold sqliteStaging at h
  rw [if_pos hcandidate] at h
  split at h
  · cases h
  · cases h
    rfl

theorem fileEntry_candidate
    (h : fileEntry ext oracle context faults item relative = .ok (.file entry))
    (hcandidate : isSqliteCandidate item.components = true)
    (hfresh : entry.fingerprint.reusedFromState = false) :
    entry.sqliteBackupStagingPath = some (oracle.stagingPath item.components) := by
  unfold fileEntry at h
  simp only at h
  split at h
  · cases h
  split at h
  · cases h
  split at h
  · cases h
  split at h
  · cases h
    cases hfresh
  · split at h
    · cases h
    rename_i hstaging
    split at h
    · cases h
    · cases h
      exact sqliteStaging_candidate hstaging hcandidate

end Entries

section Scans

variable {ext : Externals} {options : ScanOptions} {root : ScanRoot}
  {previousStates : List FileStateRecord} {context : ScanContext} {scan : StagedScan}
  {report : ScanReport} {file : LocalFileEntry}

theorem isSqliteCandidate_append {path components : List Str} (hne : components ≠ []) :
    isSqliteCandidate (path ++ components) = isSqliteCandidate components := by
  unfold isSqliteCandidate
  rw [List.getLast?_append_of_ne_nil _ hne]

/-- A scanned SQLite file keeps its row and is uploaded from its own path, or it has a copy and is
uploaded from that. -/
theorem StagedScan.candidate_source
    (hreport : scan.answer ext options root previousStates = .ok report)
    (hfresh : scan.NamesFresh root) (hfile : file ∈ report.files)
    (hcandidate : isSqliteCandidate file.localPath = true) :
    (file.fingerprint.reusedFromState = true ∧ KeepsRow previousStates file ∧
      file.uploadSource = file.localPath) ∨
    (file.fingerprint.reusedFromState = false ∧ ¬ KeepsRow previousStates file ∧
      file.uploadSource ∈ scan.copies ext options root previousStates ∧
        file.uploadSource ≠ file.localPath) := by
  unfold answer scanRoot at hreport
  unfold copies
  cases hcontext : scanContext ext options root previousStates with
  | error error =>
    rw [hcontext] at hreport
    cases hreport
  | ok context =>
    rw [hcontext] at hreport
    cases hreport
    obtain ⟨item,hitem,hvisited,hevent⟩ := mem_scanReport_files.mp hfile
    obtain ⟨htype,hincluded,hentry⟩ := handleWalkEntry_file hevent
    obtain ⟨-,-,-,hroot,hprevious⟩ := scanContext_spec hcontext
    have hspec := fileEntry_spec hentry
    have hrow : (reusableState context (relativePathOf item.components)
        file.normalizedRemotePath item.sizeBytes item.mtimeNs).isSome = true ↔
          KeepsRow previousStates file := by
      rw [reusableState_isSome_iff,hprevious,KeepsRow,hspec.relativePath,hspec.sizeBytes,
        hspec.mtimeNs]
    cases hreused : file.fingerprint.reusedFromState with
    | true =>
      obtain ⟨hkept,hsource⟩ := hspec.reused hreused
      exact Or.inl ⟨rfl,hrow.mp hkept,hsource⟩
    | false =>
      obtain ⟨hnone,hsource⟩ := hspec.fresh hreused
      have hcomponents : isSqliteCandidate item.components = true := by
        rw [hspec.localPath] at hcandidate
        rwa [isSqliteCandidate_append (LocalTree.names_ne _ item hitem).1] at hcandidate
      have hstaging := fileEntry_candidate hentry hcomponents hreused
      have hcopy := fileEntry_staging hentry
      rw [hstaging] at hsource hcopy
      refine Or.inr ⟨rfl,?_,?_,?_⟩
      · rw [← hrow,hnone]
        simp
      · refine List.mem_filterMap.mpr ⟨item,hitem,?_⟩
        rw [hsource,Option.getD_some,visitCopy,if_pos (by simp [hvisited,htype,hincluded])]
        exact hcopy.symm
      · rw [hsource,Option.getD_some,hspec.localPath,hroot]
        exact hfresh item hitem item.components

end Scans

/-- Every planned upload of a SQLite file comes from a copy of the scan exactly when each one that
keeps its row is still a file of the remote inventory. -/
theorem sqliteUploads_staged_iff {ext : Externals} {scan : StagedScan} {options : ScanOptions}
    {root : ScanRoot} {previousStates : List FileStateRecord} {report : ScanReport}
    (hreport : scan.answer ext options root previousStates = .ok report)
    (hfresh : scan.NamesFresh root) {livePlan : LiveScanPlan}
    (hplan : livePlan.files ⊆ report.files) (syncRoot : SyncRootConfig)
    (canonicalRemotePath : Str) (remoteInventory : Inventory) :
    (∀ upload ∈ (buildRootPlan ext syncRoot canonicalRemotePath livePlan remoteInventory).uploads,
        isSqliteCandidate upload.1.localPath = true →
          upload.1.uploadSource ∈ scan.copies ext options root previousStates ∧
            upload.1.uploadSource ≠ upload.1.localPath) ↔
      ∀ file ∈ livePlan.files, isSqliteCandidate file.localPath = true →
        KeepsRow previousStates file → remoteInventory.holds file.remotePath .file = true := by
  have hsource : ∀ file ∈ livePlan.files, isSqliteCandidate file.localPath = true → _ :=
    fun file hfile hcandidate =>
      StagedScan.candidate_source hreport hfresh (hplan hfile) hcandidate
  rw [uploads_buildRootPlan,plannedUploads]
  constructor
  · intro h file hfile hcandidate hkeeps
    by_contra hgone
    obtain ⟨hreused,-,hlive⟩ | ⟨-,hnone,-⟩ := hsource file hfile hcandidate
    · have hplanned : shouldUpload remoteInventory file = true := by
        simp [shouldUpload,Bool.eq_false_of_not_eq_true hgone]
      exact (h _ (List.mem_map_of_mem (List.mem_filter.mpr ⟨hfile,hplanned⟩)) hcandidate).2 hlive
    · exact hnone hkeeps
  · rintro h upload hupload hcandidate
    obtain ⟨file,hmem,rfl⟩ := List.mem_map.mp hupload
    obtain ⟨hfile,hplanned⟩ := List.mem_filter.mp hmem
    obtain ⟨hreused,hkeeps,-⟩ | ⟨-,-,hstaged⟩ := hsource file hfile hcandidate
    · have hheld := h file hfile hcandidate hkeeps
      simp [shouldUpload,hreused,hheld] at hplanned
    · exact hstaged

section Database

private def shopRoot : ScanRoot :=
  ⟨"r".toList,"/r".toList,"disk:/Backup/r".toList,[]⟩

private def shopOptions : ScanOptions := .fromConfig defaultConfig.sync [] [] "/staging".toList

private def shopScan : StagedScan where
  oracle := ⟨id,id,fun _ => ["staging".toList,"a.db".toList],fun _ => "copy".toList⟩
  faults := {}
  tree := {
    items := [{ components := ["r".toList], fileType := .dir, sizeBytes_lt := emptySize_lt },
      { components := ["r".toList,"a.db".toList], fileType := .file, sizeBytes := 1
        sizeBytes_lt := byteSize_lt }]
    names_ne := by decide
    nodup := by decide
    closed := by decide +kernel }

/-- The row of an earlier run that uploaded the database. -/
private def shopRow : FileStateRecord :=
  { rootId := "r".toList, relativePath := "a.db".toList, localPath := "/r/a.db".toList
    remotePath := "disk:/Backup/r/a.db".toList
    normalizedRemotePath := "disk:/backup/r/a.db".toList
    sizeBytes := 1, mtimeNs := none, ctimeNs := none
    fingerprintKind := "sha256".toList, fingerprintValue := some "copy".toList
    fullSha256 := some "copy".toList, remoteEtag := none, remoteMd5 := some "copy".toList
    lastRunId := some 1, status := .synced, lastError := none }

private def shopReport (previousStates : List FileStateRecord) : ScanReport :=
  match shopScan.answer asciiExternals shopOptions shopRoot previousStates with
  | .ok report => report
  | .error _ => { rootId := [] }

private def shopPlan (previousStates : List FileStateRecord) : LiveScanPlan :=
  .ofScanReport (fun _ => true) shopRoot.localPath (shopReport previousStates)

private def shopSyncRoot : SyncRootConfig :=
  { id := "r".toList, name := "r".toList, enabled := true, localPath := "/r".toList }

private theorem shopScan_fresh : shopScan.NamesFresh shopRoot := by
  intro item hitem components
  have hstaging : (shopScan.oracle.stagingPath components).head? = some "staging".toList := rfl
  have hroot : (shopRoot.localPath ++ item.components).head? = some "r".toList := rfl
  intro h
  rw [h,hroot] at hstaging
  exact absurd hstaging (by decide)

/-- The first upload of the database comes from its copy. -/
theorem firstUpload_staged :
    (buildRootPlan asciiExternals shopSyncRoot shopRoot.canonicalRemotePath (shopPlan [])
      (Inventory.ofResources [])).uploads.length = 1 ∧
    ∀ upload ∈ (buildRootPlan asciiExternals shopSyncRoot shopRoot.canonicalRemotePath (shopPlan [])
      (Inventory.ofResources [])).uploads, isSqliteCandidate upload.1.localPath = true →
        upload.1.uploadSource ∈ shopScan.copies asciiExternals shopOptions shopRoot [] ∧
          upload.1.uploadSource ≠ upload.1.localPath := by
  refine ⟨by decide +kernel,?_⟩
  refine (sqliteUploads_staged_iff (rfl : shopScan.answer asciiExternals shopOptions shopRoot [] =
      .ok (shopReport [])) shopScan_fresh
    (fun file hfile => LiveScanPlan.mem_ofScanReport_files hfile) shopSyncRoot
    shopRoot.canonicalRemotePath (Inventory.ofResources [])).mpr ?_
  rintro file - - ⟨previous,hprevious,-⟩
  cases hprevious

/-- A database that keeps its row and is gone from the remote is uploaded from its own path. -/
theorem keptDatabase_unstaged : ¬ ∀ (ext : Externals) (scan : StagedScan) (options : ScanOptions)
    (root : ScanRoot) (previousStates : List FileStateRecord) (report : ScanReport),
    scan.answer ext options root previousStates = .ok report → scan.NamesFresh root →
    ∀ livePlan : LiveScanPlan, livePlan.files ⊆ report.files →
    ∀ (syncRoot : SyncRootConfig) (canonicalRemotePath : Str) (remoteInventory : Inventory),
    ∀ upload ∈ (buildRootPlan ext syncRoot canonicalRemotePath livePlan remoteInventory).uploads,
      isSqliteCandidate upload.1.localPath = true →
        upload.1.uploadSource ∈ scan.copies ext options root previousStates ∧
          upload.1.uploadSource ≠ upload.1.localPath := by
  intro h
  have hall := h asciiExternals shopScan shopOptions shopRoot [shopRow] (shopReport [shopRow]) rfl
    shopScan_fresh (shopPlan [shopRow])
    (fun file hfile => LiveScanPlan.mem_ofScanReport_files hfile) shopSyncRoot
    shopRoot.canonicalRemotePath (Inventory.ofResources [])
  have hsome : ∃ upload ∈ (buildRootPlan asciiExternals shopSyncRoot
      shopRoot.canonicalRemotePath (shopPlan [shopRow]) (Inventory.ofResources [])).uploads,
      isSqliteCandidate upload.1.localPath = true ∧
        upload.1.uploadSource = upload.1.localPath := by
    decide +kernel
  obtain ⟨upload,hupload,hcandidate,hlive⟩ := hsome
  exact (hall upload hupload hcandidate).2 hlive

end Database

end YaDiskSync
