import YaDiskSync.MigrationFrame
import YaDiskSync.Trace

/-! The copies a scan makes of SQLite files, and which of them are left after the steps of a run. -/
namespace YaDiskSync

open Prog

section Copies

variable (ext : Externals) (oracle : ScanOracle) (context : ScanContext) (faults : ScanFaults)

/-- The copy `file_entry` has made by the time it takes the fingerprint. -/
def stagedCopy (item : LocalItem) (relative : Str) : Option LocalPath :=
  match faults.metadata item.components,
    remotePathForRelative context.root.canonicalRemotePath relative with
  | none, .ok remotePath =>
    if item.sizeBytes > context.options.maxFileSizeBytes then none
    else if (reusableState context relative (ext.toLowercase remotePath) item.sizeBytes
        item.mtimeNs).isSome then none
    else
      match sqliteStaging oracle faults item.components with
      | .ok staging => staging
      | .error _ => none
  | _, _ => none

/-- The copy the visit of an item makes. -/
def visitCopy (item : LocalItem) : Option LocalPath :=
  if isVisited ext context faults item.components && item.fileType == .file &&
      (excludedBy ext context item.components false).isNone then
    stagedCopy ext oracle context faults item (relativePathOf item.components)
  else none

def stagedCopies (tree : LocalTree) : List LocalPath :=
  tree.items.filterMap (visitCopy ext oracle context faults)

/-- The copy is made, and reading it for its fingerprint fails. -/
def losesCopy (item : LocalItem) : Bool :=
  (visitCopy ext oracle context faults item).isSome &&
    decide (item.sizeBytes ≤ context.options.fullHashMaxBytes) &&
      (faults.content item.components).isSome

/-- The copies the files of a report are uploaded from. -/
def LocalFileEntry.stagingPaths (files : List LocalFileEntry) : List LocalPath :=
  files.filterMap LocalFileEntry.sqliteBackupStagingPath

variable {ext oracle context faults} {item : LocalItem} {path : LocalPath}

/-- After the copy only its fingerprint can fail. -/
theorem fileEntry_of_stagedCopy {relative : Str}
    (hcopy : stagedCopy ext oracle context faults item relative = some path)
    (hread : item.sizeBytes ≤ context.options.fullHashMaxBytes →
      faults.content item.components = none) :
    ∃ entry, fileEntry ext oracle context faults item relative = .ok (.file entry) ∧
      entry.sqliteBackupStagingPath = some path := by
  unfold stagedCopy at hcopy
  unfold fileEntry
  cases hmetadata : faults.metadata item.components with
  | some error => simp [hmetadata] at hcopy
  | none =>
    cases hmapped : remotePathForRelative context.root.canonicalRemotePath relative with
    | error error => simp [hmetadata,hmapped] at hcopy
    | ok remotePath =>
      simp only [hmetadata,hmapped] at hcopy ⊢
      split at hcopy
      · cases hcopy
      rename_i hsize
      rw [if_neg hsize]
      cases hreuse : reusableState context relative (ext.toLowercase remotePath) item.sizeBytes
          item.mtimeNs with
      | some previous => simp [hreuse] at hcopy
      | none =>
        cases hstaging : sqliteStaging oracle faults item.components with
        | error error => simp [hreuse,hstaging] at hcopy
        | ok staging =>
          obtain rfl : staging = some path := by simpa [hreuse,hstaging] using hcopy
          obtain ⟨fingerprint,hfingerprint⟩ : ∃ fingerprint, fingerprintPath oracle context path
              (oracle.stagingContent item.components) (faults.content item.components)
              item.sizeBytes item.mtimeNs = .ok fingerprint :=
            exists_fingerprintPath_iff.mpr hread
          simp [hfingerprint]

/-- With no copy lost, all that are made are in the report. -/
theorem stagedCopies_subset {tree : LocalTree}
    (hkept : ∀ item ∈ tree.items, losesCopy ext oracle context faults item = false) :
    stagedCopies ext oracle context faults tree ⊆
      LocalFileEntry.stagingPaths (scanReport ext oracle context faults tree).files := by
  intro path hpath
  obtain ⟨item,hitem,hcopy⟩ := List.mem_filterMap.mp hpath
  have hread : item.sizeBytes ≤ context.options.fullHashMaxBytes →
      faults.content item.components = none := by
    intro hsize
    have hlost := hkept item hitem
    simpa [losesCopy,hcopy,hsize] using hlost
  unfold visitCopy at hcopy
  split at hcopy
  · rename_i hvisit
    simp only [Bool.and_eq_true,beq_iff_eq,Option.isNone_iff_eq_none] at hvisit
    obtain ⟨⟨hvisited,htype⟩,hincluded⟩ := hvisit
    obtain ⟨entry,hentry,hstaging⟩ := fileEntry_of_stagedCopy hcopy hread
    refine List.mem_filterMap.mpr ⟨entry,mem_scanReport_files.mpr ⟨item,hitem,hvisited,?_⟩,hstaging⟩
    have hincluded' : excludedBy ext context item.components (LocalFileType.file == .dir) = none :=
      hincluded
    simp only [handleWalkEntry,htype,hincluded',hentry]
  · cases hcopy

end Copies

/-- A scan as it goes: the names of its copies, what fails, and the local tree. -/
structure StagedScan where
  oracle : ScanOracle
  faults : ScanFaults
  tree : LocalTree

namespace StagedScan

variable (scan : StagedScan) (ext : Externals)

def answer (options : ScanOptions) (root : ScanRoot) (previousStates : List FileStateRecord) :
    Except ScannerError ScanReport :=
  scanRoot ext scan.oracle scan.faults options root previousStates
    (scan.tree.below root.localPath)

/-- The copies it makes. -/
def copies (options : ScanOptions) (root : ScanRoot) (previousStates : List FileStateRecord) :
    List LocalPath :=
  match scanContext ext options root previousStates with
  | .ok context => stagedCopies ext scan.oracle context scan.faults
      (scan.tree.below root.localPath)
  | .error _ => []

/-- None of its files fails after the copy has been made. -/
def losesNone (options : ScanOptions) (root : ScanRoot)
    (previousStates : List FileStateRecord) : Bool :=
  match scanContext ext options root previousStates with
  | .ok context => (scan.tree.below root.localPath).items.all fun item =>
      !losesCopy ext scan.oracle context scan.faults item
  | .error _ => true

variable {scan ext} {options : ScanOptions} {root : ScanRoot}
  {previousStates : List FileStateRecord} {report : ScanReport}

theorem copies_subset (hkept : scan.losesNone ext options root previousStates = true)
    (hreport : scan.answer ext options root previousStates = .ok report) :
    scan.copies ext options root previousStates ⊆ LocalFileEntry.stagingPaths report.files := by
  unfold answer scanRoot at hreport
  unfold losesNone at hkept
  unfold copies
  cases hcontext : scanContext ext options root previousStates with
  | error error =>
    rw [hcontext] at hreport
    cases hreport
  | ok context =>
    rw [hcontext] at hreport hkept
    cases hreport
    refine stagedCopies_subset fun item hitem => ?_
    simpa using List.all_eq_true.mp hkept item hitem

theorem copies_of_error {error : ScannerError}
    (hreport : scan.answer ext options root previousStates = .error error) :
    scan.copies ext options root previousStates = [] := by
  unfold answer scanRoot at hreport
  unfold copies
  cases hcontext : scanContext ext options root previousStates with
  | error error => rfl
  | ok context =>
    rw [hcontext] at hreport
    cases hreport

end StagedScan

section Left

variable {ρ μ : Type}

/-- A file that was to be removed is gone. -/
def removed : Except IoError Unit → Bool
  | .ok _ => true
  | .error error => error.kind == .notFound

/-- The copies that are left after a step. -/
def leftAfter (ext : Externals) (scan : StagedScan) (left : List LocalPath) :
    Happening μ → List LocalPath
  | .step (.scan options root previousStates) _ =>
    left ++ scan.copies ext options root previousStates
  | .step (.removeFile path) answer => if removed answer then left.filter (· ≠ path) else left
  | _ => left

def stagingLeft (ext : Externals) (scan : StagedScan) (trace : List (Happening μ)) :
    List LocalPath :=
  trace.foldl (leftAfter ext scan) []

/-- The scan is this one, and files that are to be removed are. -/
def StagedScan.Seen (ext : Externals) (scan : StagedScan) : (e : Effect μ) → e.Answer → Prop
  | .scan options root previousStates, answer =>
    answer = scan.answer ext options root previousStates
  | .removeFile _, answer => removed answer = true
  | _, _ => True

/-- No file fails after its copy has been made, and `gives` no step while copies are left. -/
def StagedScan.Tidy (ext : Externals) (scan : StagedScan)
    (gives : Traced ρ μ → (e : Effect μ) → e.Answer → Bool) (s : Traced ρ μ) (e : Effect μ)
    (answer : e.Answer) : Prop :=
  (∀ options root previousStates, e = .scan options root previousStates →
    scan.losesNone ext options root previousStates = true) ∧
      (gives s e answer = true → stagingLeft ext scan s.trace = [])

variable {ext : Externals} {scan : StagedScan} {env : Environment ρ} {paths : List LocalPath}
  {allowed : Traced ρ μ → (e : Effect μ) → e.Answer → Prop} {s s' : Traced ρ μ}

theorem stagingLeft_append (trace : List (Happening μ)) (happening : Happening μ) :
    stagingLeft ext scan (trace ++ [happening]) =
      leftAfter ext scan (stagingLeft ext scan trace) happening := by
  rw [stagingLeft,List.foldl_append]
  rfl

/-- No copies are left but these. -/
def StagedIn (ext : Externals) (scan : StagedScan) (paths : List LocalPath) (s : Traced ρ μ) :
    Prop :=
  stagingLeft ext scan s.trace ⊆ paths

theorem StagedIn.nil_iff : StagedIn ext scan [] s ↔ stagingLeft ext scan s.trace = [] :=
  List.subset_nil

theorem stable_stagedIn : Stable env.TraceDrift (StagedIn (ρ := ρ) (μ := μ) ext scan paths) := by
  intro s s' h hdrift
  unfold StagedIn
  rcases hdrift.trace_eq with htrace | ⟨task,outcome,htrace⟩
  · rwa [htrace]
  · rwa [htrace,stagingLeft_append]

/-- Only a scan makes copies. -/
theorem StagedIn.keep (h : StagedIn ext scan paths s) {e : Effect μ} {answer : e.Answer}
    (he : ∀ options root previousStates, e ≠ .scan options root previousStates)
    (hstep : env.TraceStep allowed s e answer s') : StagedIn ext scan paths s' := by
  unfold StagedIn
  rw [hstep.2.2,stagingLeft_append]
  cases e with
  | scan options root previousStates => exact absurd rfl (he _ _ _)
  | removeFile path =>
    rw [leftAfter]
    split
    · exact List.Subset.trans (List.filter_subset_self _) h
    · exact h
  | _ => exact h

/-- A copy that is removed is not among those that are left. -/
theorem StagedIn.remove {path : LocalPath} {answer : Except IoError Unit}
    (h : StagedIn ext scan (path :: paths) s) (hremoved : removed answer = true)
    (hstep : env.TraceStep allowed s (.removeFile path) answer s') :
    StagedIn ext scan paths s' := by
  unfold StagedIn
  rw [hstep.2.2,stagingLeft_append,leftAfter,if_pos hremoved]
  intro other ho
  obtain ⟨hleft,hne⟩ := List.mem_filter.mp ho
  exact (List.mem_cons.mp (h hleft)).resolve_left (by simpa using hne)

/-- The copies a scan is answered with. -/
def scannedPaths : Except ScannerError ScanReport → List LocalPath
  | .ok report => LocalFileEntry.stagingPaths report.files
  | .error _ => []

/-- The copies of a scan are those of its report. -/
theorem StagedIn.scanned {options : ScanOptions} {root : ScanRoot}
    {previousStates : List FileStateRecord} {answer : Except ScannerError ScanReport}
    (h : StagedIn ext scan [] s)
    (hseen : answer = scan.answer ext options root previousStates)
    (hkept : scan.losesNone ext options root previousStates = true)
    (hstep : env.TraceStep allowed s (.scan options root previousStates) answer s') :
    StagedIn ext scan (scannedPaths answer) s' := by
  have hleft : stagingLeft ext scan s'.trace = scan.copies ext options root previousStates := by
    rw [hstep.2.2,stagingLeft_append,leftAfter,StagedIn.nil_iff.mp h,List.nil_append]
  unfold StagedIn
  rw [hleft]
  cases answer with
  | ok report => exact StagedScan.copies_subset hkept hseen.symm
  | error error =>
    rw [StagedScan.copies_of_error hseen.symm]
    exact List.nil_subset _

end Left

end YaDiskSync
