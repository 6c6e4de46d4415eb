import YaDiskSync.ScanSafety
import YaDiskSync.PathComposition
import Mathlib.Data.List.Infix

/-! Which directory is taken for missing. The search starts at the parent of what is no
directory any more, and the remote prefix is rebuilt by cutting the entry's relative path off
its remote path; what that gets wrong is decided by the names the scan mapped. -/
namespace YaDiskSync

open SepPath

namespace LocalTree

variable {tree : LocalTree} {path other : LocalPath}

theorem item?_isSome_iff : (tree.item? path).isSome = true ↔
    ∃ item ∈ tree.items, item.components = path := by
  simp [item?]

theorem pathExists_of_isDir (h : tree.isDir path = true) : tree.pathExists path = true := by
  rw [isDir,Bool.or_eq_true] at h
  rw [pathExists,Bool.or_eq_true]
  refine h.imp_right fun hdir => ?_
  rw [Option.any_eq_true] at hdir
  obtain ⟨item,hitem,-⟩ := hdir
  rw [hitem]
  rfl

/-- The parent of what exists is a directory. -/
theorem isDir_dropLast (h : tree.pathExists path = true) : tree.isDir path.dropLast = true := by
  rw [isDir,Bool.or_eq_true]
  by_cases hnil : path.dropLast = []
  · exact Or.inl (by rw [hnil]; rfl)
  have hpath : path.isEmpty = false := by
    rw [List.isEmpty_eq_false_iff]
    rintro rfl
    exact hnil rfl
  rw [pathExists,hpath,Bool.false_or,item?_isSome_iff] at h
  obtain ⟨item,hitem,rfl⟩ := h
  obtain ⟨parent,hparent,hcomponents,hdir⟩ := tree.closed item hitem hnil
  have hfound : tree.item? item.components.dropLast = some parent := by
    cases hf : tree.item? item.components.dropLast with
    | none =>
      have hsome : (tree.item? item.components.dropLast).isSome = true :=
        item?_isSome_iff.mpr ⟨parent,hparent,hcomponents⟩
      rw [hf] at hsome
      cases hsome
    | some found =>
      have hmem := List.mem_of_find?_eq_some hf
      have hsame : found.components = item.components.dropLast := by
        simpa using List.find?_some hf
      rw [List.inj_on_of_nodup_map tree.nodup hmem hparent (hsame.trans hcomponents.symm)]
  exact Or.inr (by rw [hfound]; simp [hdir])

/-- What lies above an existing path exists. -/
theorem pathExists_of_prefix (h : tree.pathExists path = true) (hpre : other <+: path) :
    tree.pathExists other = true := by
  obtain ⟨rest,rfl⟩ := hpre
  induction rest using List.reverseRecOn with
  | nil => simpa using h
  | append_singleton rest name ih =>
    have hparent := pathExists_of_isDir (isDir_dropLast h)
    rw [← List.append_assoc,List.dropLast_concat] at hparent
    exact ih hparent

end LocalTree

section Search

variable {tree : LocalTree} {root : LocalPath} {names top : List Str}

/-- The shortest path below the root that leads to the named entry and is missing. -/
structure TopMissing (tree : LocalTree) (root : LocalPath) (names top : List Str) : Prop where
  ne_nil : top ≠ []
  isPrefix : top <+: names
  missing : tree.pathExists (root ++ top) = false
  above : ∀ short, short ≠ [] → short <+: top → short ≠ top →
    tree.pathExists (root ++ short) = true

theorem TopMissing.mono {more : List Str} (h : TopMissing tree root names top)
    (hpre : names <+: more) : TopMissing tree root more top :=
  { h with isPrefix := h.isPrefix.trans hpre }

theorem isPrefix_dropLast {α : Type*} {short long : List α} (h : short <+: long)
    (hne : short ≠ long) : short <+: long.dropLast := by
  obtain ⟨rest,rfl⟩ := h
  have hrest : rest ≠ [] := fun hr => hne (by rw [hr,List.append_nil])
  rw [List.dropLast_append_of_ne_nil hrest]
  exact List.prefix_append _ _

/-- The loop climbs to the top-most missing directory. -/
theorem nearestMissingLoop_run {fuel : Nat} {nearest : Option LocalPath}
    (hfuel : names.length < fuel) (hne : names ≠ [])
    (hmissing : tree.pathExists (root ++ names) = false) :
    ∃ top, TopMissing tree root names top ∧
      Id.run (nearestMissingLoop (fun path => pure (tree.pathExists path)) root fuel
        (root ++ names) nearest) = some (root ++ top) := by
  induction fuel generalizing names nearest with
  | zero => exact absurd hfuel (Nat.not_lt_zero _)
  | succ fuel ih =>
    have hroot : root ++ names ≠ root := by simpa using hne
    have hparent : parent? (root ++ names) = some (root ++ names.dropLast) := by
      rw [parent?,if_neg (by simp [hne]),List.dropLast_append_of_ne_nil hne]
    have hlen : names.dropLast.length < names.length := by
      rw [List.length_dropLast]
      have := List.length_pos_of_ne_nil hne
      omega
    unfold nearestMissingLoop
    rw [if_neg hroot]
    simp only [pure_bind,hmissing,Bool.false_eq_true,if_false,hparent]
    by_cases hnil : names.dropLast = []
    · refine ⟨names,⟨hne,List.prefix_rfl,hmissing,?_⟩,?_⟩
      · intro short hshort hpre hproper
        have := isPrefix_dropLast hpre hproper
        rw [hnil,List.prefix_nil] at this
        exact absurd this hshort
      · rw [if_pos (by rw [hnil,List.append_nil])]
        rfl
    · rw [if_neg (by simpa using hnil)]
      cases hexists : tree.pathExists (root ++ names.dropLast) with
      | true =>
        refine ⟨names,⟨hne,List.prefix_rfl,hmissing,?_⟩,rfl⟩
        intro short _ hpre hproper
        exact LocalTree.pathExists_of_prefix hexists
          ((List.prefix_append_right_inj _).mpr (isPrefix_dropLast hpre hproper))
      | false =>
        obtain ⟨top,htop,hrun⟩ :=
          @ih names.dropLast (some (root ++ names)) (by omega) hnil hexists
        exact ⟨top,htop.mono (List.dropLast_prefix _),hrun⟩

/-- A missing path has a top-most missing one above it. -/
theorem exists_topMissing (hne : names ≠ []) (hmissing : tree.pathExists (root ++ names) = false) :
    ∃ top, TopMissing tree root names top := by
  obtain ⟨top,htop,-⟩ := @nearestMissingLoop_run tree root names (names.length+1) none
    (Nat.lt_succ_self _) hne hmissing
  exact ⟨top,htop⟩

theorem TopMissing.unique {top' : List Str} (h : TopMissing tree root names top)
    (h' : TopMissing tree root names top') : top = top' := by
  by_contra hne
  rcases List.prefix_or_prefix_of_prefix h.isPrefix h'.isPrefix with hpre | hpre
  · have := h'.above top h.ne_nil hpre hne
    rw [h.missing] at this
    cases this
  · have := h.above top' h'.ne_nil hpre (Ne.symm hne)
    rw [h'.missing] at this
    cases this

/-- The search names the top-most missing directory above the entry, never the entry. -/
theorem nearestMissingDirectory_run (hne : names ≠ []) (missing : LocalPath) :
    Id.run (nearestMissingDirectory (fun path => pure (tree.isDir path))
        (fun path => pure (tree.pathExists path)) root (root ++ names)) = some missing ↔
      ∃ top, TopMissing tree root names.dropLast top ∧ missing = root ++ top := by
  have hparent : parent? (root ++ names) = some (root ++ names.dropLast) := by
    rw [parent?,if_neg (by simp [hne]),List.dropLast_append_of_ne_nil hne]
  -- where the parent exists nothing above the entry is missing
  have hnone (hexists : tree.pathExists (root ++ names.dropLast) = true) {top : List Str} :
      ¬TopMissing tree root names.dropLast top := by
    intro h
    have := LocalTree.pathExists_of_prefix hexists ((List.prefix_append_right_inj _).mpr h.isPrefix)
    rw [h.missing] at this
    cases this
  unfold nearestMissingDirectory
  cases hdir : tree.isDir (root ++ names) with
  | true =>
    have hexists := LocalTree.pathExists_of_isDir hdir
    have hup := LocalTree.pathExists_of_prefix hexists
      ((List.prefix_append_right_inj _).mpr (List.dropLast_prefix names))
    constructor
    · intro h
      unfold nearestMissingLoop at h
      simp [hdir,hne,hexists] at h
    · rintro ⟨top,htop,-⟩
      exact absurd htop (hnone hup)
  | false =>
    simp only [pure_bind,hdir,Bool.false_eq_true,if_false,hparent]
    by_cases hnil : names.dropLast = []
    · constructor
      · intro h
        unfold nearestMissingLoop at h
        rw [if_pos (by rw [hnil,List.append_nil])] at h
        cases h
      · rintro ⟨top,htop,-⟩
        exact absurd (List.prefix_nil.mp (hnil ▸ htop.isPrefix)) htop.ne_nil
    cases hexists : tree.pathExists (root ++ names.dropLast) with
    | true =>
      constructor
      · intro h
        unfold nearestMissingLoop at h
        simp [hnil,hexists] at h
      · rintro ⟨top,htop,-⟩
        exact absurd htop (hnone hexists)
    | false =>
      obtain ⟨top,htop,hrun⟩ := @nearestMissingLoop_run tree root names.dropLast
        ((root ++ names.dropLast).length+1) none (by rw [List.length_append]; omega) hnil hexists
      constructor
      · intro h
        exact ⟨top,htop,Option.some.inj (h.symm.trans hrun)⟩
      · rintro ⟨top',htop',rfl⟩
        rw [htop'.unique htop]
        exact hrun

end Search

section Prefixes

variable {canonical relative remote directory remoteDirectory : Str}

/-- The relative path of a directory covers those of the entries below it. -/
theorem covers_relativePathOf {names : List Str} (hne : names ≠ [])
    (hrel : relativePathOf names ≠ []) (rest : List Str) :
    Covers slash (relativePathOf names) (relativePathOf (names ++ rest)) := by
  induction rest using List.reverseRecOn with
  | nil =>
    rw [List.append_nil]
    exact Covers.refl _
  | append_singleton rest last ih =>
    rw [← List.append_assoc]
    have hnames : names ++ rest ≠ [] := by simp [hne]
    have hbelow : relativePathOf (names ++ rest) ≠ [] := fun hnil =>
      hrel (List.prefix_nil.mp (hnil ▸ ih.isPrefix))
    rcases @relativePathOf_snoc _ last hnames with ⟨hnil,-⟩ | ⟨-,-,heq⟩ | ⟨-,-,z,hz,hs,heq⟩
    · exact absurd hnil hbelow
    · exact heq ▸ ih
    · refine ih.trans (Or.inr (heq ▸ ?_))
      obtain ⟨c,z,rfl⟩ := List.exists_cons_of_ne_nil hz
      rw [hs c (List.mem_cons_self ..),List.append_assoc,List.cons_append]
      exact beneath_append _ _

/-- A remote path has no empty segment. -/
theorem IsRemotePath.getLast?_above {base tail : Str} (h : IsRemotePath (base ++ slash :: tail)) :
    base.getLast? ≠ some slash := by
  intro hlast
  obtain ⟨front,rfl⟩ := List.getLast?_eq_some_iff.mp hlast
  rw [List.append_assoc,List.singleton_append] at h
  have hplain := h.plain_below [] (by
    rw [List.splitOn_cons_eq_if_modifyHead,if_pos (beq_self_eq_true _)]
    exact List.mem_cons_self)
  exact hplain.1 rfl

theorem stripSuffix_eq_some {suffix s t : Str} :
    stripSuffix suffix s = some t ↔ s = t ++ suffix := by
  unfold stripSuffix
  constructor
  · intro h
    split at h
    · rename_i hs
      obtain ⟨u,rfl⟩ := hs
      simpa using h
    · cases h
  · rintro rfl
    simp

/-- A relative path the way the scan writes them. -/
structure IsRelativePath (relative : Str) : Prop where
  trimmed : Trimmed relative
  slashes : replaceChar '\\' slash relative = relative

theorem isRelativePath_relativePathOf (names : List Str) : IsRelativePath (relativePathOf names) :=
  ⟨trimmed_relativePathOf names,replaceChar_relativePathOf names⟩

/-- A mapped path continues the canonical one by no more than the relative path is long. -/
theorem remotePathForRelative_length (hc : IsRemotePath canonical) (hrel : IsRelativePath relative)
    (h : remotePathForRelative canonical relative = .ok remote) :
    Covers slash canonical remote ∧ remote.length ≤ canonical.length+1+relative.length ∧
      (remote.length ≤ canonical.length → slash ∉ relative) := by
  rw [remotePathForRelative_iff hc,hrel.slashes] at h
  split at h
  · rename_i hnil
    rw [h]
    refine ⟨Covers.refl _,by omega,fun _ hm => ?_⟩
    have hspace := hrel.trimmed.trimmedSuffix_eq_nil.mp hnil slash hm
    rw [isWhitespace_slash] at hspace
    cases hspace
  · have hle :=
      (length_trimmedSuffix_sanitized_le relative).trans (length_sanitizedText_le relative)
    rw [h.2,List.length_append,List.length_cons]
    exact ⟨Or.inr (beneath_append _ _),by omega,fun hshort => by omega⟩

theorem remotePathForRelative_isRemotePath
    (h : remotePathForRelative canonical relative = .ok remote) : IsRemotePath remote :=
  sanitizeRemotePath_ok h

/-- The rebuilt prefix is the directory's remote path where both remote paths are one base and
the relative path below it. -/
theorem missingRemotePrefix_eq_iff (hc : IsRemotePath canonical) (hrel : IsRelativePath relative)
    (hdir : IsRelativePath directory)
    (hr : remotePathForRelative canonical relative = .ok remote)
    (hd : remotePathForRelative canonical directory = .ok remoteDirectory)
    (hcov : Covers slash directory relative) :
    missingRemotePrefix directory relative remote = remoteDirectory ↔
      directory = relative ∨ ∃ base, remote = base ++ slash :: relative ∧
        remoteDirectory = base ++ slash :: directory := by
  have hremote := remotePathForRelative_isRemotePath hr
  unfold missingRemotePrefix
  by_cases hsame : directory = relative
  · rw [if_pos hsame]
    have heq : remote = remoteDirectory := by
      rw [hsame,hr] at hd
      exact Except.ok.inj hd
    exact iff_of_true heq (Or.inl hsame)
  rw [if_neg hsame]
  have hslash : slash ∈ relative := by
    obtain ⟨tail,rfl⟩ := beneath_iff.mp (hcov.beneath_of_ne hsame)
    simp
  obtain ⟨hcov',hlen,hlong⟩ := remotePathForRelative_length hc hrel hr
  obtain ⟨hcovDir,hlenDir,-⟩ := remotePathForRelative_length hc hdir hd
  constructor
  · intro h
    right
    cases hstrip : stripSuffix relative remote with
    | none =>
      -- the whole remote path would stand before the directory
      rw [hstrip,Option.getD_none,hremote.trimEnd] at h
      have hl := congrArg List.length h
      rw [List.length_append,List.length_cons] at hl
      exact absurd hslash (hlong (by omega))
    | some kept =>
      rw [hstrip,Option.getD_some] at h
      rw [stripSuffix_eq_some] at hstrip
      have hkept : trimEndMatches slash kept ++ kept.rtakeWhile (· == slash) = kept :=
        List.rdropWhile_append_rtakeWhile ..
      have hall : ∀ c ∈ kept.rtakeWhile (· == slash), c = slash :=
        fun c hm => by simpa using List.mem_rtakeWhile_imp hm
      refine ⟨trimEndMatches slash kept,?_,h.symm⟩
      rcases List.eq_nil_or_concat (kept.rtakeWhile (· == slash)) with hnil | ⟨front,last,hsnoc⟩
      · -- then the canonical path would reach into the relative path
        rw [hnil,List.append_nil] at hkept
        rw [hkept] at h
        have hl := congrArg List.length h
        rw [List.length_append,List.length_cons] at hl
        have hk : kept ++ [slash] <+: remoteDirectory := ⟨directory,by rw [← h]; simp⟩
        have hpre : kept ++ [slash] <+: remote := by
          by_cases hlt : kept.length < canonical.length
          · exact (List.prefix_of_prefix_length_le hk hcovDir.isPrefix (by simp; omega)).trans
              hcov'.isPrefix
          · have heq := (List.prefix_of_prefix_length_le ((List.prefix_append _ _).trans hk)
              hcovDir.isPrefix (by omega)).eq_of_length (by omega)
            rw [heq]
            refine hcov'.beneath_of_ne fun hc => ?_
            rw [hstrip,← heq,List.self_eq_append_right] at hc
            rw [hc] at hslash
            cases hslash
        rw [hstrip,List.prefix_append_right_inj] at hpre
        obtain ⟨tail,rfl⟩ := hpre
        exact absurd rfl hrel.trimmed.1
      · -- a second slash before the relative path would leave an empty segment
        rw [List.concat_eq_append] at hsnoc
        rw [hsnoc] at hkept hall
        obtain rfl : last = slash := hall last (by simp)
        have heq : remote = (trimEndMatches slash kept ++ front) ++ slash :: relative := by
          rw [hstrip]
          nth_rewrite 1 [← hkept]
          simp
        have hfront : front = [] := by
          by_contra hfront
          refine (heq ▸ hremote).getLast?_above ?_
          rw [List.getLast?_append_of_ne_nil _ hfront,List.getLast?_eq_some_getLast hfront,
            hall _ (List.mem_append_left _ (List.getLast_mem hfront))]
        rw [heq,hfront,List.append_nil]
  · rintro (heq | ⟨base,rfl,rfl⟩)
    · exact absurd heq hsame
    · have hbase := hremote.getLast?_above
      have hstrip : stripSuffix relative (base ++ slash :: relative) = some (base ++ [slash]) :=
        stripSuffix_eq_some.mpr (by simp)
      rw [hstrip,Option.getD_some,trimEndMatches_append_of_forall (by simp),
        trimEndMatches_of_getLast hbase]

end Prefixes

theorem LiveScanPlan.scannedDirectories_rootLocalPath {isDir : LocalPath → Bool}
    {rootLocalPath : LocalPath} {report : ScanReport} :
    (scannedDirectories isDir rootLocalPath report).rootLocalPath = rootLocalPath := by
  have hstep (plan : LiveScanPlan) (directory : LocalDirectoryEntry) :
      (scannedStep isDir plan directory).rootLocalPath = plan.rootLocalPath := by
    unfold scannedStep
    split_ifs
    · rfl
    · rfl
    · exact (addDeletedSubtree_entries plan _).2.2.2
  unfold scannedDirectories
  generalize sortByKey directoryKey report.directories = directories
  suffices h : ∀ plan : LiveScanPlan, (directories.foldl (scannedStep isDir) plan).rootLocalPath =
      plan.rootLocalPath from h _
  intro plan
  induction directories generalizing plan with
  | nil => rfl
  | cons directory directories ih => rw [List.foldl_cons,ih,hstep]

/-- What the detection is asked about. -/
structure PlanEntry where
  isDirectory : Bool
  localPath : LocalPath
  relativePath : Str
  remotePath : Str
  deriving DecidableEq, Repr

def LiveScanPlan.entries (plan : LiveScanPlan) : List PlanEntry :=
  plan.directories.map (fun directory =>
      ⟨true,directory.localPath,directory.relativePath,directory.remotePath⟩) ++
    plan.files.map fun file => ⟨false,file.localPath,file.relativePath,file.remotePath⟩

/-- A plan made from a scan when `isDirThen` answered, and the local files of a later moment. -/
structure MissingQuery where
  scan : RootScan
  isDirThen : LocalPath → Bool
  now : LocalTree

namespace MissingQuery

variable (query : MissingQuery) (entry : PlanEntry)

def rootPath : LocalPath := query.scan.context.root.localPath

def plan : LiveScanPlan :=
  LiveScanPlan.ofScanReport query.isDirThen query.rootPath query.scan.report

/-- `detect_deleted_local_subtree` for an entry of the plan. -/
def detect : Option DeletedLocalSubtree :=
  Id.run (detectDeletedLocalSubtree (fun path => pure (query.now.isDir path))
    (fun path => pure (query.now.pathExists path)) query.plan.rootId query.plan.rootLocalPath
    entry.localPath entry.relativePath entry.remotePath)

/-- A directory between the root and the entry, or a directory entry itself, does not exist. -/
structure Gone (path : LocalPath) : Prop where
  below : query.rootPath <+: path
  ne_root : path ≠ query.rootPath
  above : path <+: entry.localPath
  own : path = entry.localPath → entry.isDirectory = true
  missing : query.now.pathExists path = false

/-- The missing directory all others lie below. -/
def TopGone (path : LocalPath) : Prop :=
  query.Gone entry path ∧ ∀ other, query.Gone entry other → path <+: other

/-- A subtree named as the scan named the directory. -/
def Names (subtree : DeletedLocalSubtree) (path : LocalPath) : Prop :=
  subtree.rootId = query.plan.rootId ∧ ∃ directory ∈ query.scan.report.directories,
    directory.localPath = path ∧ subtree.relativePrefix = directory.relativePath ∧
      subtree.remotePrefix = directory.remotePath

/-- The detection reports missing directories, and the top-most one as the scan named it. -/
structure DetectsMissing : Prop where
  isSome_iff : (query.detect entry).isSome = true ↔ ∃ path, query.Gone entry path
  names : ∀ subtree, query.detect entry = some subtree →
    ∃ path, query.TopGone entry path ∧ query.Names subtree path

/-- The remote paths of an entry and of a directory above it are one base and the relative
path below it. -/
def MappedAlike (directory : LocalDirectoryEntry) : Prop :=
  directory.relativePath = entry.relativePath ∨ ∃ base,
    entry.remotePath = base ++ slash :: entry.relativePath ∧
      directory.remotePath = base ++ slash :: directory.relativePath

/-- The top-most missing directory is not the entry, the scan gave it a name and a remote path,
and the remote path is that of the entry cut short. -/
def Detectable : Prop :=
  ∀ path, query.TopGone entry path → path ≠ entry.localPath ∧
    ∃ directory ∈ query.scan.report.directories, directory.localPath = path ∧
      directory.relativePath ≠ [] ∧ MappedAlike entry directory

section Scanned

variable {query entry}

/-- What the scan writes of an item below the root. -/
structure ScannedAs (query : MissingQuery) (names : List Str) (localPath : LocalPath)
    (relativePath remotePath : Str) : Prop where
  ne_nil : names ≠ []
  localPath_eq : localPath = query.rootPath ++ names
  relativePath_eq : relativePath = relativePathOf names
  mapped : remotePathForRelative query.scan.root.canonical relativePath = .ok remotePath

theorem scannedAs_directory {directory : LocalDirectoryEntry}
    (h : directory ∈ query.scan.report.directories) : ∃ names, query.ScannedAs names
      directory.localPath directory.relativePath directory.remotePath := by
  obtain ⟨item,hitem,-,hvisit⟩ := mem_scanReport_directories.mp h
  obtain ⟨-,-,hentry⟩ := handleWalkEntry_directory hvisit
  obtain ⟨hmap,hrel,hlocal,-⟩ := directoryEntry_remotePath hentry
  refine ⟨item.components,(query.scan.tree.names_ne item hitem).1,hlocal,hrel,?_⟩
  rwa [hrel,← query.scan.canonical_eq]

theorem scannedAs_file {file : LocalFileEntry} (h : file ∈ query.scan.report.files) :
    ∃ names, query.ScannedAs names file.localPath file.relativePath file.remotePath := by
  obtain ⟨item,hitem,-,hvisit⟩ := mem_scanReport_files.mp h
  obtain ⟨-,-,hentry⟩ := handleWalkEntry_file hvisit
  have hspec := fileEntry_spec hentry
  refine ⟨item.components,(query.scan.tree.names_ne item hitem).1,hspec.localPath,
    hspec.relativePath,?_⟩
  rw [hspec.relativePath,← query.scan.canonical_eq]
  exact hspec.remotePath

theorem scannedAs_entry (h : entry ∈ query.plan.entries) :
    ∃ names, query.ScannedAs names entry.localPath entry.relativePath entry.remotePath := by
  rcases List.mem_append.mp h with h | h
  · obtain ⟨directory,hd,rfl⟩ := List.mem_map.mp h
    exact scannedAs_directory (LiveScanPlan.mem_ofScanReport_directories hd)
  · obtain ⟨file,hf,rfl⟩ := List.mem_map.mp h
    exact scannedAs_file (LiveScanPlan.mem_ofScanReport_files hf)

end Scanned

variable {query entry} {names : List Str} {path : LocalPath}

theorem plan_rootLocalPath : query.plan.rootLocalPath = query.rootPath := by
  rw [plan,LiveScanPlan.ofScanReport_eq]
  exact LiveScanPlan.scannedDirectories_rootLocalPath

/-- The missing directories of an entry, by their names below the root. -/
theorem gone_iff (h : query.ScannedAs names entry.localPath entry.relativePath entry.remotePath) :
    query.Gone entry path ↔ ∃ short, short ≠ [] ∧ short <+: names ∧ path = query.rootPath ++ short ∧
      (short = names → entry.isDirectory = true) ∧
      query.now.pathExists (query.rootPath ++ short) = false := by
  constructor
  · rintro ⟨⟨short,rfl⟩,hne,habove,hown,hmissing⟩
    rw [h.localPath_eq] at habove hown
    exact ⟨short,fun hnil => hne (by rw [hnil,List.append_nil]),
      (List.prefix_append_right_inj _).mp habove,rfl,fun he => hown (by rw [he]),hmissing⟩
  · rintro ⟨short,hne,hpre,rfl,hown,hmissing⟩
    refine ⟨List.prefix_append _ _,by simpa using hne,?_,fun he => hown ?_,hmissing⟩
    · rw [h.localPath_eq]
      exact (List.prefix_append_right_inj _).mpr hpre
    · rw [h.localPath_eq] at he
      exact List.append_cancel_left he

/-- The top-most missing directory has the shortest of their names. -/
theorem topGone_iff
    (h : query.ScannedAs names entry.localPath entry.relativePath entry.remotePath) :
    query.TopGone entry path ↔ ∃ top, TopMissing query.now query.rootPath names top ∧
      path = query.rootPath ++ top ∧ (top = names → entry.isDirectory = true) := by
  constructor
  · rintro ⟨hgone,htop⟩
    obtain ⟨short,hne,hpre,rfl,hown,hmissing⟩ := (gone_iff h).mp hgone
    refine ⟨short,⟨hne,hpre,hmissing,?_⟩,rfl,hown⟩
    intro shorter hne' hpre' hproper'
    by_contra hexists
    -- a missing directory further up would be the top
    have hgone' : query.Gone entry (query.rootPath ++ shorter) := by
      refine (gone_iff h).mpr
        ⟨shorter,hne',hpre'.trans hpre,rfl,fun he => ?_,by simpa using hexists⟩
      exact absurd (hpre'.eq_of_length_le (he ▸ hpre.length_le)) hproper'
    have hback := (List.prefix_append_right_inj _).mp (htop _ hgone')
    exact hproper' (hpre'.eq_of_length_le hback.length_le)
  · rintro ⟨top,htop,rfl,hown⟩
    refine ⟨(gone_iff h).mpr ⟨top,htop.ne_nil,htop.isPrefix,rfl,hown,htop.missing⟩,?_⟩
    intro other hother
    obtain ⟨short,hne,hpre,rfl,-,hmissing⟩ := (gone_iff h).mp hother
    rw [List.prefix_append_right_inj]
    rcases List.prefix_or_prefix_of_prefix htop.isPrefix hpre with hle | hle
    · exact hle
    · by_cases heq : short = top
      · exact heq ▸ List.prefix_rfl
      · have := htop.above short hne hle heq
        rw [hmissing] at this
        cases this

theorem exists_topGone
    (h : query.ScannedAs names entry.localPath entry.relativePath entry.remotePath)
    (hgone : query.Gone entry path) : ∃ top, query.TopGone entry top := by
  obtain ⟨short,hne,hpre,rfl,hown,hmissing⟩ := (gone_iff h).mp hgone
  obtain ⟨top,htop⟩ := exists_topMissing hne hmissing
  refine ⟨query.rootPath ++ top,(topGone_iff h).mpr ⟨top,htop.mono hpre,rfl,fun he => hown ?_⟩⟩
  exact hpre.eq_of_length_le (he ▸ htop.isPrefix.length_le)

/-- Missing directories of which none is the entry are found above it. -/
theorem topMissing_dropLast_iff {top : List Str} :
    TopMissing query.now query.rootPath names.dropLast top ↔
      TopMissing query.now query.rootPath names top ∧ top ≠ names := by
  constructor
  · intro h
    refine ⟨h.mono (List.dropLast_prefix _),fun he => ?_⟩
    have hle := h.isPrefix.length_le
    have hpos := List.length_pos_of_ne_nil h.ne_nil
    rw [List.length_dropLast,← he] at hle
    omega
  · rintro ⟨h,hne⟩
    exact { h with isPrefix := isPrefix_dropLast h.isPrefix hne }

/-- What the detection answers. -/
theorem detect_eq_some_iff
    (h : query.ScannedAs names entry.localPath entry.relativePath entry.remotePath)
    {subtree : DeletedLocalSubtree} : query.detect entry = some subtree ↔
      ∃ top, TopMissing query.now query.rootPath names.dropLast top ∧ relativePathOf top ≠ [] ∧
        subtree = ⟨query.plan.rootId,relativePathOf top,
          missingRemotePrefix (relativePathOf top) entry.relativePath entry.remotePath⟩ := by
  have hsearch := @nearestMissingDirectory_run query.now query.rootPath names h.ne_nil
  rw [← h.localPath_eq] at hsearch
  have hrebuilt (top : List Str) : missingRelativePrefix query.rootPath (query.rootPath ++ top) =
      some (relativePathOf top) := by
    rw [missingRelativePrefix,if_pos (List.prefix_append _ _),List.drop_left]
    rfl
  unfold detect detectDeletedLocalSubtree
  rw [plan_rootLocalPath]
  simp only [Id.run_bind]
  cases hrun : Id.run (nearestMissingDirectory (fun path => pure (query.now.isDir path))
      (fun path => pure (query.now.pathExists path)) query.rootPath entry.localPath) with
  | none =>
    simp only [Id.run_pure]
    refine iff_of_false (by simp) ?_
    rintro ⟨top,htop,-⟩
    have := (hsearch (query.rootPath ++ top)).mpr ⟨top,htop,rfl⟩
    rw [hrun] at this
    cases this
  | some missing =>
    obtain ⟨top,htop,rfl⟩ := (hsearch missing).mp hrun
    simp only [hrebuilt]
    by_cases hnil : relativePathOf top = []
    · rw [hnil,List.isEmpty_nil,if_pos rfl]
      refine iff_of_false (by simp) ?_
      rintro ⟨top',htop',hne,-⟩
      exact hne (htop.unique htop' ▸ hnil)
    · rw [if_neg (by simpa using hnil)]
      constructor
      · intro heq
        exact ⟨top,htop,hnil,(Option.some.inj heq).symm⟩
      · rintro ⟨top',htop',-,rfl⟩
        rw [htop'.unique htop]
        rfl

/-- The detection is right exactly where the top-most missing directory is above the entry and
the scan mapped both alike. -/
theorem detectsMissing_iff (h : entry ∈ query.plan.entries) :
    query.DetectsMissing entry ↔ query.Detectable entry := by
  obtain ⟨names,hentry⟩ := scannedAs_entry h
  have hcanonical := query.scan.root.isRemotePath
  have hrel : IsRelativePath entry.relativePath :=
    hentry.relativePath_eq ▸ isRelativePath_relativePathOf names
  -- a directory the scan reported for the missing path carries its relative path
  have hnamed {top : List Str} {directory : LocalDirectoryEntry}
      (hd : directory ∈ query.scan.report.directories)
      (hlocal : directory.localPath = query.rootPath ++ top) :
      directory.relativePath = relativePathOf top ∧
        remotePathForRelative query.scan.root.canonical directory.relativePath =
          .ok directory.remotePath := by
    obtain ⟨names',hscan⟩ := scannedAs_directory hd
    have heq := List.append_cancel_left (hscan.localPath_eq.symm.trans hlocal)
    exact ⟨heq ▸ hscan.relativePath_eq,hscan.mapped⟩
  have hrebuilt {top : List Str} {directory : LocalDirectoryEntry}
      (hd : directory ∈ query.scan.report.directories)
      (hlocal : directory.localPath = query.rootPath ++ top)
      (htop : TopMissing query.now query.rootPath names top) (hne : relativePathOf top ≠ []) :
      missingRemotePrefix (relativePathOf top) entry.relativePath entry.remotePath =
        directory.remotePath ↔ MappedAlike entry directory := by
    obtain ⟨hname,hmap⟩ := hnamed hd hlocal
    have hcov : Covers slash directory.relativePath entry.relativePath := by
      obtain ⟨rest,hrest⟩ := htop.isPrefix
      rw [hname,hentry.relativePath_eq,← hrest]
      exact covers_relativePathOf htop.ne_nil hne rest
    rw [← hname]
    exact missingRemotePrefix_eq_iff hcanonical hrel
      (hname ▸ isRelativePath_relativePathOf top) hentry.mapped hmap hcov
  constructor
  · rintro ⟨hsome,hnames⟩ path hpath
    obtain ⟨subtree,hdetect⟩ := Option.isSome_iff_exists.mp (hsome.mpr ⟨path,hpath.1⟩)
    obtain ⟨top,htop,hne,rfl⟩ := (detect_eq_some_iff hentry).mp hdetect
    obtain ⟨htop,hproper⟩ := topMissing_dropLast_iff.mp htop
    obtain ⟨path',hpath',-,directory,hd,rfl,hrelative,hremote⟩ := hnames _ hdetect
    obtain ⟨top₁,htop₁,rfl,-⟩ := (topGone_iff hentry).mp hpath
    obtain ⟨top₂,htop₂,hlocal,-⟩ := (topGone_iff hentry).mp hpath'
    obtain rfl := htop.unique htop₁
    obtain rfl := htop.unique htop₂
    refine ⟨fun he => hproper ?_,directory,hd,hlocal,hrelative ▸ hne,
      (hrebuilt hd hlocal htop hne).mp hremote⟩
    rw [hentry.localPath_eq] at he
    exact List.append_cancel_left he
  · intro hdetectable
    -- the top-most missing directory, as the search finds it
    have hfound {path : LocalPath} (hpath : query.TopGone entry path) :
        ∃ top, TopMissing query.now query.rootPath names.dropLast top ∧
          path = query.rootPath ++ top := by
      obtain ⟨top,htop,rfl,-⟩ := (topGone_iff hentry).mp hpath
      refine ⟨top,topMissing_dropLast_iff.mpr ⟨htop,fun he => ?_⟩,rfl⟩
      exact (hdetectable _ hpath).1 (by rw [he,hentry.localPath_eq])
    refine ⟨⟨fun hs => ?_,?_⟩,fun subtree hdetect => ?_⟩
    · obtain ⟨subtree,hdetect⟩ := Option.isSome_iff_exists.mp hs
      obtain ⟨top,htop,-⟩ := (detect_eq_some_iff hentry).mp hdetect
      obtain ⟨htop,hproper⟩ := topMissing_dropLast_iff.mp htop
      exact ⟨_,((topGone_iff hentry).mpr ⟨top,htop,rfl,fun he => absurd he hproper⟩).1⟩
    · rintro ⟨path,hgone⟩
      obtain ⟨path,hpath⟩ := exists_topGone hentry hgone
      obtain ⟨top,htop,rfl⟩ := hfound hpath
      obtain ⟨-,directory,hd,hlocal,hne,-⟩ := hdetectable _ hpath
      rw [(hnamed hd hlocal).1] at hne
      exact Option.isSome_iff_exists.mpr
        ⟨_,(detect_eq_some_iff hentry).mpr ⟨top,htop,hne,rfl⟩⟩
    · obtain ⟨top,htop,hne,rfl⟩ := (detect_eq_some_iff hentry).mp hdetect
      obtain ⟨htop,hproper⟩ := topMissing_dropLast_iff.mp htop
      have hpath : query.TopGone entry (query.rootPath ++ top) :=
        (topGone_iff hentry).mpr ⟨top,htop,rfl,fun he => absurd he hproper⟩
      obtain ⟨-,directory,hd,hlocal,-,halike⟩ := hdetectable _ hpath
      exact ⟨_,hpath,rfl,directory,hd,hlocal,(hnamed hd hlocal).1.symm,
        (hrebuilt hd hlocal htop hne).mpr halike⟩

end MissingQuery

section RemovedDirectory

/-! A directory with one file is removed after the scan. -/

private def shelfConfig : SyncRootConfig :=
  { id := "r".toList, name := "r".toList, enabled := true, localPath := "/data".toList }

private def shelfRoot : ManagedRoot where
  config := shelfConfig
  remoteRoot := "disk:/B".toList
  canonical := "disk:/B/data".toList
  mapped := by decide

private def shelfItems : List LocalItem :=
  [{ components := ["gone".toList], fileType := .dir, sizeBytes_lt := emptySize_lt },
    { components := ["gone".toList,"a.txt".toList], fileType := .file, sizeBytes := 1
      sizeBytes_lt := byteSize_lt }]

private def shelfScan : RootScan where
  root := shelfRoot
  ext := asciiExternals
  oracle := ⟨id,id,fun _ => [],fun _ => []⟩
  context := {
    options := {
      globalExcludes := [], absoluteExcludes := [], maxFileSizeBytes := 10
      fullHashMaxBytes := 10, largeFileNameSizeOnlyMinBytes := 10, scanConcurrency := 1
      stagingDir := "/staging".toList }
    root := {
      id := "r".toList, pathText := "/data".toList
      canonicalRemotePath := "disk:/B/data".toList, excludes := [] }
    patternMatcher := ⟨[],[]⟩
    absoluteMatcher := ⟨[],["/staging".toList]⟩
    previousStates := fun _ => none }
  faults := {}
  tree := ⟨shelfItems,by decide,by decide,by decide⟩
  canonical_eq := Eq.refl shelfRoot.canonical

private def shelfQuery : MissingQuery where
  scan := shelfScan
  isDirThen := fun _ => true
  now := ⟨[{ components := ["data".toList], fileType := .dir, sizeBytes_lt := emptySize_lt }],
    by decide,by decide,by decide⟩

private def goneDirectory : PlanEntry :=
  ⟨true,["data".toList,"gone".toList],"gone".toList,"disk:/B/data/gone".toList⟩

private def goneFile : PlanEntry :=
  ⟨false,["data".toList,"gone".toList,"a.txt".toList],"gone/a.txt".toList,
    "disk:/B/data/gone/a.txt".toList⟩

/-- The file leads to the removed directory. -/
theorem removedFile_names_directory :
    ∃ (query : MissingQuery) (entry : PlanEntry), query.DetectsMissing entry ∧
      ∃ path, query.Gone entry path := by
  have hentry : goneFile ∈ shelfQuery.plan.entries := by decide
  have hreported : ∃ directory ∈ shelfScan.report.directories,
      directory.localPath = goneDirectory.localPath ∧ directory.relativePath ≠ [] ∧
        directory.remotePath = "disk:/B/data".toList ++ slash :: directory.relativePath := by
    decide
  have honly : ∀ path ∈ goneFile.localPath.inits, shelfQuery.rootPath <+: path →
      path ≠ shelfQuery.rootPath → path ≠ goneFile.localPath →
        path = goneDirectory.localPath := by decide
  refine ⟨shelfQuery,goneFile,(MissingQuery.detectsMissing_iff hentry).mpr ?_,
    goneDirectory.localPath,by decide,by decide,by decide,fun he => absurd he (by decide),
    by decide⟩
  rintro path ⟨hgone,-⟩
  have hne : path ≠ goneFile.localPath := fun he => absurd (hgone.own he) (by decide)
  refine ⟨hne,?_⟩
  rw [honly path ((List.mem_inits _ _).mpr hgone.above) hgone.below hgone.ne_root hne]
  obtain ⟨directory,hd,hlocal,hrelative,hremote⟩ := hreported
  exact ⟨directory,hd,hlocal,hrelative,Or.inr ⟨_,rfl,hremote⟩⟩

/-- The removed directory itself goes unnoticed. -/
theorem removedDirectory_unnoticed : ¬∀ (query : MissingQuery) (entry : PlanEntry),
    query.now.isDir query.rootPath = true → entry ∈ query.plan.entries →
      query.DetectsMissing entry := by
  intro h
  have hentry : goneDirectory ∈ shelfQuery.plan.entries := by decide
  have hgone : shelfQuery.Gone goneDirectory goneDirectory.localPath :=
    ⟨by decide,by decide,by decide,fun _ => rfl,by decide⟩
  have hsome := (h shelfQuery goneDirectory (by decide) hentry).isSome_iff.mpr ⟨_,hgone⟩
  revert hsome
  decide

end RemovedDirectory

end YaDiskSync
