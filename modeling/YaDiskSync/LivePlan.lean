import YaDiskSync.Models

/-! The live plan of a root: what a scan reported, less the subtrees found missing since.
The checks of the file system are queries of an arbitrary monad, so that the same
text is the pure function of a fixed file system and the program that asks a changing one. -/
namespace YaDiskSync

open SepPath

structure DeletedLocalSubtree where
  rootId : Str
  relativePrefix : Str
  remotePrefix : Str
  deriving DecidableEq, Repr

structure LiveScanPlan where
  rootId : Str
  rootLocalPath : LocalPath
  files : List LocalFileEntry := []
  directories : List LocalDirectoryEntry := []
  deletedSubtrees : List DeletedLocalSubtree := []
  deriving DecidableEq, Repr

/-- `path == prefix || path.strip_prefix(prefix).is_some_and(|s| s.starts_with('/'))`. -/
def isAtOrBelow (pre path : Str) : Bool :=
  path == pre || (stripPrefix pre path).any fun suffix => suffix.head? == some slash

@[simp] theorem isAtOrBelow_iff {pre path : Str} :
    isAtOrBelow pre path = true ↔ Covers slash pre path := by
  unfold isAtOrBelow Covers
  rw [Bool.or_eq_true,beq_iff_eq,beneath_iff]
  apply or_congr Iff.rfl
  rw [Option.any_eq_true]
  constructor
  · rintro ⟨suffix,hs,hh⟩
    rw [stripPrefix_eq_some] at hs
    cases suffix with
    | nil => cases hh
    | cons c suffix =>
      have hc : c = slash := by simpa using hh
      exact ⟨suffix,by rw [hs,hc]⟩
  · rintro ⟨t,rfl⟩
    exact ⟨slash :: t,stripPrefix_append _ _,by simp⟩

def isRelativePathDeleted (relativePath : Str) (deletedSubtrees : List DeletedLocalSubtree) :
    Bool :=
  deletedSubtrees.any fun subtree => isAtOrBelow subtree.relativePrefix relativePath

@[simp] theorem isRelativePathDeleted_nil (relativePath : Str) :
    isRelativePathDeleted relativePath [] = false := rfl

theorem isRelativePathDeleted_iff {relativePath : Str}
    {deletedSubtrees : List DeletedLocalSubtree} :
    isRelativePathDeleted relativePath deletedSubtrees = true ↔
      ∃ subtree ∈ deletedSubtrees, Covers slash subtree.relativePrefix relativePath := by
  simp [isRelativePathDeleted]

namespace LiveScanPlan

def isDeletedRelativePath (plan : LiveScanPlan) (relativePath : Str) : Bool :=
  isRelativePathDeleted relativePath plan.deletedSubtrees

def pruneRemotePrefixes (plan : LiveScanPlan) : List Str :=
  plan.deletedSubtrees.map DeletedLocalSubtree.remotePrefix

/-- `add_deleted_subtree`, with the returned flag. -/
def addDeletedSubtree (plan : LiveScanPlan) (subtree : DeletedLocalSubtree) :
    LiveScanPlan × Bool :=
  if plan.isDeletedRelativePath subtree.relativePrefix then (plan,false)
  else
    let kept := plan.deletedSubtrees.filter fun existing =>
      !isAtOrBelow subtree.relativePrefix existing.relativePrefix
    ({ plan with deletedSubtrees :=
        sortByKey DeletedLocalSubtree.relativePrefix (kept ++ [subtree]) },true)

end LiveScanPlan

/-- `Path::parent`. -/
def parent? (path : LocalPath) : Option LocalPath :=
  if path.isEmpty then none else some path.dropLast

section Queries

variable {m : Type → Type} [Monad m] (isDir pathExists : LocalPath → m Bool)

/-- The loop of `nearest_missing_directory`; each round moves to the parent. -/
def nearestMissingLoop (root : LocalPath) :
    Nat → LocalPath → Option LocalPath → m (Option LocalPath)
  | 0, _, nearest => pure nearest
  | fuel+1, candidate, nearest => do
    if candidate = root then return nearest
    if ← pathExists candidate then return nearest
    match parent? candidate with
    | none => return none
    | some parent =>
      if parent = root then return some candidate
      if ← pathExists parent then return some candidate
      nearestMissingLoop root fuel parent (some candidate)

def nearestMissingDirectory (rootLocalPath localPath : LocalPath) : m (Option LocalPath) := do
  if ← isDir localPath then
    nearestMissingLoop pathExists rootLocalPath (localPath.length+1) localPath none
  else
    match parent? localPath with
    | none => return none
    | some parent => nearestMissingLoop pathExists rootLocalPath (parent.length+1) parent none

/-- The remote prefix of a missing directory, rebuilt from the entry that led to it. -/
def missingRemotePrefix (relativePrefix relativePath remotePath : Str) : Str :=
  if relativePrefix = relativePath then remotePath
  else
    let remoteRoot := trimEndMatches slash ((stripSuffix relativePath remotePath).getD remotePath)
    remoteRoot ++ slash :: relativePrefix

def missingRelativePrefix (rootLocalPath missing : LocalPath) : Option Str :=
  if rootLocalPath <+: missing then
    some (trimMatches slash
      (replaceChar '\\' slash ([slash].intercalate (missing.drop rootLocalPath.length))))
  else none

def detectDeletedLocalSubtree (rootId : Str) (rootLocalPath localPath : LocalPath)
    (relativePath remotePath : Str) : m (Option DeletedLocalSubtree) := do
  let some missing ← nearestMissingDirectory isDir pathExists rootLocalPath localPath
    | return none
  match missingRelativePrefix rootLocalPath missing with
  | none => return none
  | some relativePrefix =>
    if relativePrefix.isEmpty then return none
    return some {
      rootId, relativePrefix
      remotePrefix := missingRemotePrefix relativePrefix relativePath remotePath }

namespace LiveScanPlan

/-- `register_missing_local_path`, with the updated plan. -/
def registerMissingLocalPath (plan : LiveScanPlan) (localPath : LocalPath)
    (relativePath remotePath : Str) : m (LiveScanPlan × Option DeletedLocalSubtree) := do
  let some subtree ←
      detectDeletedLocalSubtree isDir pathExists plan.rootId plan.rootLocalPath localPath
        relativePath remotePath
    | return (plan,none)
  let (plan',added) := plan.addDeletedSubtree subtree
  return (plan',if added then some subtree else none)

/-- One directory of `from_scan_report`. -/
def pushScannedDirectory (plan : LiveScanPlan) (directory : LocalDirectoryEntry) :
    m LiveScanPlan := do
  if plan.isDeletedRelativePath directory.relativePath then return plan
  if ← isDir directory.localPath then
    return { plan with directories := plan.directories ++ [directory] }
  return (plan.addDeletedSubtree {
    rootId := directory.rootId
    relativePrefix := directory.relativePath
    remotePrefix := directory.remotePath }).1

/-- The order in which `from_scan_report` asks for the directories: parents first. -/
def directoryKey (directory : LocalDirectoryEntry) : ℕ ×ₗ Str :=
  toLex (directory.relativePath.count slash,directory.relativePath)

/-- The loop over the directories; `keep` stores the plan made so far. -/
def pushScannedDirectories (keep : LiveScanPlan → m Unit) :
    List LocalDirectoryEntry → LiveScanPlan → m LiveScanPlan
  | [], plan => return plan
  | directory :: directories, plan => do
    let plan ← pushScannedDirectory isDir plan directory
    keep plan
    pushScannedDirectories keep directories plan

def fromScanReport (keep : LiveScanPlan → m Unit) (rootLocalPath : LocalPath)
    (report : ScanReport) : m LiveScanPlan := do
  let plan ← pushScannedDirectories isDir keep (sortByKey directoryKey report.directories)
    { rootId := report.rootId, rootLocalPath }
  return { plan with
    files := report.files.filter fun file => !plan.isDeletedRelativePath file.relativePath }

end LiveScanPlan

end Queries

namespace LiveScanPlan

variable (isDir : LocalPath → Bool)

/-- `from_scan_report` against a file system that does not change. -/
def ofScanReport (rootLocalPath : LocalPath) (report : ScanReport) : LiveScanPlan :=
  Id.run (fromScanReport (fun path => pure (isDir path)) (fun _ => pure ()) rootLocalPath report)

def scannedStep (plan : LiveScanPlan) (directory : LocalDirectoryEntry) : LiveScanPlan :=
  if plan.isDeletedRelativePath directory.relativePath then plan
  else if isDir directory.localPath then
    { plan with directories := plan.directories ++ [directory] }
  else (plan.addDeletedSubtree {
    rootId := directory.rootId
    relativePrefix := directory.relativePath
    remotePrefix := directory.remotePath }).1

theorem pushScannedDirectory_run (plan : LiveScanPlan) (directory : LocalDirectoryEntry) :
    Id.run (pushScannedDirectory (fun path => pure (isDir path)) plan directory) =
      scannedStep isDir plan directory := by
  unfold pushScannedDirectory scannedStep
  split
  · rfl
  · cases hi : isDir directory.localPath <;> simp [hi]

theorem pushScannedDirectories_run (directories : List LocalDirectoryEntry)
    (plan : LiveScanPlan) :
    Id.run (pushScannedDirectories (fun path => pure (isDir path)) (fun _ => pure ()) directories
      plan) = directories.foldl (scannedStep isDir) plan := by
  induction directories generalizing plan with
  | nil => rfl
  | cons directory directories ih =>
    rw [pushScannedDirectories,List.foldl_cons,← pushScannedDirectory_run]
    exact ih _

/-- The plan without its files. -/
def scannedDirectories (rootLocalPath : LocalPath) (report : ScanReport) : LiveScanPlan :=
  (sortByKey directoryKey report.directories).foldl (scannedStep isDir)
    { rootId := report.rootId, rootLocalPath }

theorem ofScanReport_eq (rootLocalPath : LocalPath) (report : ScanReport) :
    ofScanReport isDir rootLocalPath report =
      { scannedDirectories isDir rootLocalPath report with
        files := report.files.filter fun file =>
          !(scannedDirectories isDir rootLocalPath report).isDeletedRelativePath
            file.relativePath } := by
  unfold ofScanReport fromScanReport scannedDirectories
  simp only [Id.run_bind,pushScannedDirectories_run,Id.run_pure]

variable {isDir} {rootLocalPath : LocalPath} {report : ScanReport}

theorem addDeletedSubtree_entries (plan : LiveScanPlan) (subtree : DeletedLocalSubtree) :
    (plan.addDeletedSubtree subtree).1.directories = plan.directories ∧
      (plan.addDeletedSubtree subtree).1.files = plan.files ∧
      (plan.addDeletedSubtree subtree).1.rootId = plan.rootId ∧
      (plan.addDeletedSubtree subtree).1.rootLocalPath = plan.rootLocalPath := by
  unfold addDeletedSubtree
  split <;> exact ⟨rfl,rfl,rfl,rfl⟩

theorem mem_scannedStep_directories {plan : LiveScanPlan} {next directory : LocalDirectoryEntry}
    (h : directory ∈ (scannedStep isDir plan next).directories) :
    directory ∈ plan.directories ∨ directory = next := by
  unfold scannedStep at h
  split at h
  · exact Or.inl h
  split at h
  · simpa using h
  · rw [(addDeletedSubtree_entries plan _).1] at h
    exact Or.inl h

theorem mem_foldl_scannedStep {directories : List LocalDirectoryEntry} {plan : LiveScanPlan}
    {directory : LocalDirectoryEntry}
    (h : directory ∈ (directories.foldl (scannedStep isDir) plan).directories) :
    directory ∈ plan.directories ∨ directory ∈ directories := by
  induction directories generalizing plan with
  | nil => exact Or.inl h
  | cons next directories ih =>
    rcases ih h with h | h
    · rcases mem_scannedStep_directories h with h | rfl
      · exact Or.inl h
      · exact Or.inr (by simp)
    · exact Or.inr (by simp [h])

/-- A plan made from a scan has no entry the scan did not report. -/
theorem mem_ofScanReport_directories {directory : LocalDirectoryEntry}
    (h : directory ∈ (ofScanReport isDir rootLocalPath report).directories) :
    directory ∈ report.directories := by
  rw [ofScanReport_eq] at h
  rcases mem_foldl_scannedStep h with h | h
  · simp at h
  · exact mem_sortByKey.mp h

theorem mem_ofScanReport_files {file : LocalFileEntry}
    (h : file ∈ (ofScanReport isDir rootLocalPath report).files) : file ∈ report.files := by
  rw [ofScanReport_eq] at h
  exact (List.mem_filter.mp h).1

theorem foldl_scannedStep_of_isDir {directories : List LocalDirectoryEntry} {plan : LiveScanPlan}
    (hplan : plan.deletedSubtrees = [])
    (h : ∀ directory ∈ directories, isDir directory.localPath = true) :
    directories.foldl (scannedStep isDir) plan =
      { plan with directories := plan.directories ++ directories } := by
  induction directories generalizing plan with
  | nil => simp
  | cons next directories ih =>
    have hstep : scannedStep isDir plan next =
        { plan with directories := plan.directories ++ [next] } := by
      simp [scannedStep,isDeletedRelativePath,hplan,h next (by simp)]
    have hrest := @ih { plan with directories := plan.directories ++ [next] } hplan
      (fun d hd => h d (by simp [hd]))
    rw [List.foldl_cons,hstep,hrest]
    simp

/-- While every reported directory still exists the plan holds the whole report. -/
theorem ofScanReport_of_isDir
    (h : ∀ directory ∈ report.directories, isDir directory.localPath = true) :
    ofScanReport isDir rootLocalPath report =
      { rootId := report.rootId, rootLocalPath, files := report.files
        directories := sortByKey directoryKey report.directories } := by
  have hd : scannedDirectories isDir rootLocalPath report =
      { rootId := report.rootId, rootLocalPath
        directories := sortByKey directoryKey report.directories } := by
    unfold scannedDirectories
    rw [foldl_scannedStep_of_isDir rfl (fun d hm => h d (mem_sortByKey.mp hm))]
    simp
  rw [ofScanReport_eq,hd]
  simp [isDeletedRelativePath]

end LiveScanPlan

end YaDiskSync
