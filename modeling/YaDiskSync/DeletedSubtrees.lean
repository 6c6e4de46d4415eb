import YaDiskSync.LivePlan

/-! The subtrees a live plan gives up. Their prefixes are the highest of all that were added: a
prefix added later takes the place of those below it. -/
namespace YaDiskSync

open SepPath

/-- The components of `p` are the first of those of `q`, which has more. -/
def IsAncestor (p q : Str) : Prop := p.splitOn slash <+: q.splitOn slash ∧ p ≠ q

theorem isAncestor_iff {p q : Str} : IsAncestor p q ↔ Beneath slash p q := by
  unfold IsAncestor
  rw [splitOn_isPrefix_iff]
  constructor
  · rintro ⟨h,hne⟩
    exact h.beneath_of_ne hne
  · intro h
    exact ⟨h.covers,h.ne⟩

theorem covers_iff_isAncestor {p q : Str} : Covers slash p q ↔ p = q ∨ IsAncestor p q := by
  rw [isAncestor_iff]
  exact or_congr eq_comm Iff.rfl

namespace LiveScanPlan

variable {plan : LiveScanPlan} {subtree : DeletedLocalSubtree}

theorem isDeletedRelativePath_iff {path : Str} : plan.isDeletedRelativePath path = true ↔
    ∃ subtree ∈ plan.deletedSubtrees, Covers slash subtree.relativePrefix path :=
  isRelativePathDeleted_iff

/-- The prefixes in order, none at or below another. -/
structure SubtreesApart (subtrees : List DeletedLocalSubtree) : Prop where
  sorted : subtrees.Pairwise fun a b => a.relativePrefix ≤ b.relativePrefix
  apart : subtrees.Pairwise fun a b => ¬ Covers slash a.relativePrefix b.relativePrefix ∧
    ¬ Covers slash b.relativePrefix a.relativePrefix

theorem mem_addDeletedSubtree {s : DeletedLocalSubtree}
    (hnew : plan.isDeletedRelativePath subtree.relativePrefix = false) :
    s ∈ (plan.addDeletedSubtree subtree).1.deletedSubtrees ↔ s = subtree ∨
      (s ∈ plan.deletedSubtrees ∧ ¬ Covers slash subtree.relativePrefix s.relativePrefix) := by
  simp only [addDeletedSubtree,hnew,Bool.false_eq_true,if_false,mem_sortByKey,List.mem_append,
    List.mem_filter,Bool.not_eq_true',← Bool.not_eq_true,isAtOrBelow_iff,List.mem_singleton]
  exact or_comm

theorem SubtreesApart.addDeletedSubtree (h : SubtreesApart plan.deletedSubtrees) :
    SubtreesApart (plan.addDeletedSubtree subtree).1.deletedSubtrees := by
  unfold LiveScanPlan.addDeletedSubtree
  split
  · exact h
  · rename_i hnew
    have hfree : ∀ s ∈ plan.deletedSubtrees,
        ¬ Covers slash s.relativePrefix subtree.relativePrefix := fun s hs hc =>
      hnew (isDeletedRelativePath_iff.mpr ⟨s,hs,hc⟩)
    refine ⟨sortByKey_pairwise _ _,?_⟩
    -- apartness does not depend on the order
    apply (sortByKey_perm DeletedLocalSubtree.relativePrefix _).symm.pairwise
    · rw [List.pairwise_append]
      refine ⟨h.apart.sublist List.filter_sublist,List.pairwise_singleton _ _,?_⟩
      intro s hs t ht
      rw [List.mem_singleton.mp ht]
      rw [List.mem_filter] at hs
      have hbelow : ¬ Covers slash subtree.relativePrefix s.relativePrefix := by
        simpa [isAtOrBelow_iff,← Bool.not_eq_true] using hs.2
      exact ⟨hfree s hs.1,hbelow⟩
    · exact fun h => ⟨h.2,h.1⟩

/-- An addition covers what was covered before and what lies at or below the new prefix. -/
theorem isDeletedRelativePath_addDeletedSubtree {path : Str} :
    (plan.addDeletedSubtree subtree).1.isDeletedRelativePath path = true ↔
      plan.isDeletedRelativePath path = true ∨ Covers slash subtree.relativePrefix path := by
  cases hnew : plan.isDeletedRelativePath subtree.relativePrefix with
  | true =>
    have hplan : (plan.addDeletedSubtree subtree).1 = plan := by
      simp [addDeletedSubtree,hnew]
    rw [hplan]
    constructor
    · exact Or.inl
    · rintro (h | h)
      · exact h
      · obtain ⟨s,hs,hc⟩ := isDeletedRelativePath_iff.mp hnew
        exact isDeletedRelativePath_iff.mpr ⟨s,hs,hc.trans h⟩
  | false =>
    simp only [isDeletedRelativePath_iff,mem_addDeletedSubtree hnew]
    constructor
    · rintro ⟨s,rfl | ⟨hs,_⟩,hc⟩
      · exact Or.inr hc
      · exact Or.inl ⟨s,hs,hc⟩
    · rintro (⟨s,hs,hc⟩ | hc)
      · by_cases habove : Covers slash subtree.relativePrefix s.relativePrefix
        · exact ⟨subtree,Or.inl rfl,habove.trans hc⟩
        · exact ⟨s,Or.inr ⟨hs,habove⟩,hc⟩
      · exact ⟨subtree,Or.inl rfl,hc⟩

/-- A sequence of additions. -/
def addDeletedSubtrees (subtrees : List DeletedLocalSubtree) (plan : LiveScanPlan) :
    LiveScanPlan :=
  subtrees.foldl (fun plan subtree => (plan.addDeletedSubtree subtree).1) plan

theorem SubtreesApart.addDeletedSubtrees (h : SubtreesApart plan.deletedSubtrees)
    (subtrees : List DeletedLocalSubtree) :
    SubtreesApart (plan.addDeletedSubtrees subtrees).deletedSubtrees := by
  induction subtrees generalizing plan with
  | nil => exact h
  | cons subtree subtrees ih => exact ih h.addDeletedSubtree

theorem isDeletedRelativePath_addDeletedSubtrees (subtrees : List DeletedLocalSubtree)
    {path : Str} : (plan.addDeletedSubtrees subtrees).isDeletedRelativePath path = true ↔
      plan.isDeletedRelativePath path = true ∨
        ∃ subtree ∈ subtrees, Covers slash subtree.relativePrefix path := by
  induction subtrees generalizing plan with
  | nil => simp [addDeletedSubtrees]
  | cons subtree subtrees ih =>
    have hstep := @ih (plan.addDeletedSubtree subtree).1
    simp only [addDeletedSubtrees,List.foldl_cons,List.exists_mem_cons_iff] at hstep ⊢
    rw [hstep,isDeletedRelativePath_addDeletedSubtree,or_assoc]

/-- Whatever is added in whatever order, the list stays sorted, no prefix in it is or lies below
another, and it covers exactly the paths at or below an added prefix. -/
theorem addDeletedSubtrees_invariant (plan : LiveScanPlan) (subtrees : List DeletedLocalSubtree) :
    let added := { plan with deletedSubtrees := [] }.addDeletedSubtrees subtrees
    added.deletedSubtrees.Pairwise (fun a b => a.relativePrefix ≤ b.relativePrefix) ∧
    added.deletedSubtrees.Pairwise (fun a b => a.relativePrefix ≠ b.relativePrefix ∧
      ¬ IsAncestor a.relativePrefix b.relativePrefix ∧
      ¬ IsAncestor b.relativePrefix a.relativePrefix) ∧
    ∀ path, added.isDeletedRelativePath path = true ↔ ∃ subtree ∈ subtrees,
      subtree.relativePrefix = path ∨ IsAncestor subtree.relativePrefix path := by
  intro added
  have happart : SubtreesApart added.deletedSubtrees :=
    SubtreesApart.addDeletedSubtrees ⟨List.Pairwise.nil,List.Pairwise.nil⟩ subtrees
  refine ⟨happart.sorted,happart.apart.imp fun h => ?_,fun path => ?_⟩
  · rw [covers_iff_isAncestor,covers_iff_isAncestor] at h
    tauto
  · simp only [← covers_iff_isAncestor]
    have hcover := @isDeletedRelativePath_addDeletedSubtrees
      { plan with deletedSubtrees := [] } subtrees path
    simpa [isDeletedRelativePath] using hcover

section ScanReport

variable {isDir : LocalPath → Bool} {reported : List LocalDirectoryEntry}
  {next : LocalDirectoryEntry}

/-- The subtree registered for a directory that is gone. -/
def goneSubtree (directory : LocalDirectoryEntry) : DeletedLocalSubtree :=
  { rootId := directory.rootId, relativePrefix := directory.relativePath
    remotePrefix := directory.remotePath }

/-- What a plan says of the directories it has dealt with. -/
structure Settles (isDir : LocalPath → Bool) (reported : List LocalDirectoryEntry)
    (plan : LiveScanPlan) : Prop where
  kept : plan.directories.Sublist reported
  live : ∀ directory ∈ plan.directories, plan.isDeletedRelativePath directory.relativePath = false
  whole : ∀ directory ∈ reported, directory ∈ plan.directories ∨
    plan.isDeletedRelativePath directory.relativePath = true
  gone : ∀ subtree ∈ plan.deletedSubtrees, ∃ directory ∈ reported,
    isDir directory.localPath = false ∧ subtree = goneSubtree directory

/-- One directory more; none of those kept lies at or below it. -/
theorem Settles.scannedStep (h : Settles isDir reported plan)
    (hnext : ∀ directory ∈ reported, ¬ Covers slash next.relativePath directory.relativePath) :
    Settles isDir (reported ++ [next]) (scannedStep isDir plan next) := by
  have hgone : ∀ subtree ∈ plan.deletedSubtrees, ∃ directory ∈ reported ++ [next],
      isDir directory.localPath = false ∧ subtree = goneSubtree directory := by
    intro subtree hs
    obtain ⟨directory,hd,hdir⟩ := h.gone subtree hs
    exact ⟨directory,by simp [hd],hdir⟩
  unfold LiveScanPlan.scannedStep
  split
  · rename_i hdel
    refine ⟨h.kept.trans (List.sublist_append_left _ _),h.live,fun directory hd => ?_,hgone⟩
    rcases List.mem_append.mp hd with hd | hd
    · exact h.whole directory hd
    · rw [List.mem_singleton.mp hd]
      exact Or.inr hdel
  rename_i hdel
  split
  · refine ⟨h.kept.append (List.Sublist.refl [next]),fun directory hd => ?_,fun directory hd => ?_,
      hgone⟩
    · rcases List.mem_append.mp hd with hd | hd
      · exact h.live directory hd
      · rw [List.mem_singleton.mp hd]
        exact eq_false_of_ne_true hdel
    · rcases List.mem_append.mp hd with hd | hd
      · rcases h.whole directory hd with hkept | hdeleted
        · exact Or.inl (List.mem_append_left _ hkept)
        · exact Or.inr hdeleted
      · exact Or.inl (List.mem_append_right _ hd)
  · rename_i hdir
    -- the new subtree takes nothing that was kept
    obtain ⟨hdirectories,-⟩ := addDeletedSubtree_entries plan (goneSubtree next)
    have hcover : ∀ path, (plan.addDeletedSubtree (goneSubtree next)).1.isDeletedRelativePath path =
        true ↔ plan.isDeletedRelativePath path = true ∨ Covers slash next.relativePath path :=
      fun path => isDeletedRelativePath_addDeletedSubtree
    refine ⟨?_,fun directory hd => ?_,fun directory hd => ?_,fun subtree hs => ?_⟩
    · exact hdirectories ▸ h.kept.trans (List.sublist_append_left _ _)
    · have hkept : directory ∈ plan.directories := hdirectories ▸ hd
      rw [← Bool.not_eq_true]
      intro hdeleted
      rcases (hcover _).mp hdeleted with hdeleted | hbelow
      · exact absurd (h.live directory hkept) (by simp [hdeleted])
      · exact hnext directory (h.kept.subset hkept) hbelow
    · rcases List.mem_append.mp hd with hd | hd
      · rcases h.whole directory hd with hkept | hdeleted
        · exact Or.inl (hdirectories.symm ▸ hkept)
        · exact Or.inr ((hcover _).mpr (Or.inl hdeleted))
      · rw [List.mem_singleton.mp hd]
        exact Or.inr ((hcover _).mpr (Or.inr (Covers.refl _)))
    · rcases (mem_addDeletedSubtree (eq_false_of_ne_true hdel)).mp hs with rfl | ⟨hs,_⟩
      · exact ⟨next,by simp,eq_false_of_ne_true hdir,rfl⟩
      · exact hgone subtree hs

/-- The directories in an order that puts no path after one at or below it. -/
theorem settles_foldl (plan : LiveScanPlan)
    (hplan : plan.directories = [] ∧ plan.deletedSubtrees = [])
    {directories : List LocalDirectoryEntry} (horder : directories.Pairwise fun a b =>
      ¬ Covers slash b.relativePath a.relativePath) :
    Settles isDir directories (directories.foldl (LiveScanPlan.scannedStep isDir) plan) := by
  induction directories using List.reverseRecOn with
  | nil =>
    refine ⟨?_,?_,?_,?_⟩ <;> simp [hplan]
  | append_singleton directories next ih =>
    obtain ⟨hbefore,-,hnext⟩ := List.pairwise_append.mp horder
    rw [List.foldl_append]
    exact (ih hbefore).scannedStep fun directory hd => hnext directory hd next (by simp)

/-- In the order of the keys a path comes before those below it. -/
theorem not_covers_of_key_le {a b : LocalDirectoryEntry} (hle : directoryKey a ≤ directoryKey b)
    (hne : a.relativePath ≠ b.relativePath) : ¬ Covers slash b.relativePath a.relativePath := by
  intro hc
  have hlt := (hc.beneath_of_ne hne.symm).count_lt
  rcases Prod.Lex.toLex_le_toLex.mp hle with h | h
  · exact absurd h (Nat.lt_asymm hlt)
  · exact absurd h.1 (Nat.ne_of_gt hlt)

theorem sorted_directories_apart {directories : List LocalDirectoryEntry}
    (hnodup : (directories.map LocalDirectoryEntry.relativePath).Nodup) :
    (sortByKey directoryKey directories).Pairwise fun a b =>
      ¬ Covers slash b.relativePath a.relativePath := by
  have hdistinct : ((sortByKey directoryKey directories).map
      LocalDirectoryEntry.relativePath).Nodup :=
    ((sortByKey_perm directoryKey directories).map _).nodup_iff.mpr hnodup
  rw [List.Nodup,List.pairwise_map] at hdistinct
  exact ((sortByKey_pairwise directoryKey directories).and hdistinct).imp fun ⟨hle,hne⟩ =>
    not_covers_of_key_le hle hne

/-- Whichever reported directories still exist, the plan made of a scan holds nothing at or below
a subtree it gives up, gives up no directory that exists and keeps everything else once, parents
first. -/
theorem fromScanReport_partition (isDir : LocalPath → Bool) (rootLocalPath : LocalPath)
    (report : ScanReport)
    (hdirectories : (report.directories.map LocalDirectoryEntry.relativePath).Nodup)
    (hfiles : (report.files.map LocalFileEntry.relativePath).Nodup) :
    let plan := ofScanReport isDir rootLocalPath report
    let gone (path : Str) := ∃ subtree ∈ plan.deletedSubtrees,
      subtree.relativePrefix = path ∨ IsAncestor subtree.relativePrefix path
    (∀ directory ∈ plan.directories, ¬ gone directory.relativePath) ∧
    (∀ file ∈ plan.files, ¬ gone file.relativePath) ∧
    (∀ directory ∈ report.directories,
      plan.directories.count directory = 1 ∨ gone directory.relativePath) ∧
    (∀ file ∈ report.files, plan.files.count file = 1 ∨ gone file.relativePath) ∧
    (∀ subtree ∈ plan.deletedSubtrees, ∃ directory ∈ report.directories,
      isDir directory.localPath = false ∧ subtree = goneSubtree directory) ∧
    plan.directories.Pairwise fun earlier later =>
      ¬ IsAncestor later.relativePath earlier.relativePath := by
  intro plan gone
  have horder := sorted_directories_apart hdirectories
  have hs : Settles isDir (sortByKey directoryKey report.directories)
      (scannedDirectories isDir rootLocalPath report) :=
    settles_foldl { rootId := report.rootId, rootLocalPath } ⟨rfl,rfl⟩ horder
  have hplan : plan = _ := ofScanReport_eq isDir rootLocalPath report
  have hgone : ∀ path, gone path ↔
      (scannedDirectories isDir rootLocalPath report).isDeletedRelativePath path = true := by
    intro path
    simp only [gone,hplan,isDeletedRelativePath_iff,covers_iff_isAncestor]
  have hkept : plan.directories = (scannedDirectories isDir rootLocalPath report).directories := by
    rw [hplan]
  have hnodup : plan.directories.Nodup := by
    rw [hkept]
    exact (((sortByKey_perm directoryKey report.directories).nodup_iff).mpr
      (List.Nodup.of_map _ hdirectories)).sublist hs.kept
  refine ⟨fun directory hd => ?_,fun file hf => ?_,fun directory hd => ?_,fun file hf => ?_,
    fun subtree hsub => ?_,?_⟩
  · rw [hgone,hs.live directory (hkept ▸ hd)]
    simp
  · rw [hplan,List.mem_filter,Bool.not_eq_true'] at hf
    rw [hgone,hf.2]
    simp
  · rcases hs.whole directory (mem_sortByKey.mpr hd) with hin | hdeleted
    · exact Or.inl (List.count_eq_one_of_mem hnodup (hkept ▸ hin))
    · exact Or.inr ((hgone _).mpr hdeleted)
  · by_cases hdeleted : gone file.relativePath
    · exact Or.inr hdeleted
    · rw [hgone,Bool.not_eq_true] at hdeleted
      have hin : file ∈ plan.files := by
        rw [hplan,List.mem_filter]
        exact ⟨hf,by rw [hdeleted]; rfl⟩
      have hfilesNodup : plan.files.Nodup := by
        rw [hplan]
        exact (List.Nodup.of_map _ hfiles).sublist List.filter_sublist
      exact Or.inl (List.count_eq_one_of_mem hfilesNodup hin)
  · have hsub' : subtree ∈ (scannedDirectories isDir rootLocalPath report).deletedSubtrees := by
      rwa [hplan] at hsub
    obtain ⟨directory,hd,hdir⟩ := hs.gone subtree hsub'
    exact ⟨directory,mem_sortByKey.mp hd,hdir⟩
  · rw [hkept]
    refine (horder.sublist hs.kept).imp fun h => ?_
    rw [covers_iff_isAncestor] at h
    exact fun hanc => h (Or.inr hanc)

private def docsDirectory (relativePath : Str) : LocalDirectoryEntry :=
  ⟨"r".toList,relativePath.splitOn slash,relativePath,"disk:/r/".toList ++ relativePath,
    "disk:/r/".toList ++ relativePath⟩

private def docsFile (relativePath : Str) : LocalFileEntry :=
  ⟨"r".toList,relativePath.splitOn slash,relativePath,"disk:/r/".toList ++ relativePath,
    "disk:/r/".toList ++ relativePath,relativePath.splitOn slash,1,none,none,
    ⟨.metadata,[],none,none,false⟩,none⟩

private def docsReport : ScanReport where
  rootId := "r".toList
  files := [docsFile "docs/a".toList,docsFile "docsets/b".toList]
  directories := [docsDirectory "docsets".toList,docsDirectory "docs/old".toList,
    docsDirectory "docs".toList]
  skipped := []
  failed := []

/-- A directory that is gone is given up with what lies in it, also what still answers; its
neighbour is kept. -/
theorem fromScanReport_partition_docs :
    let isDir := fun path => decide (path ≠ ["docs".toList])
    let plan := ofScanReport isDir [] docsReport
    let gone (path : Str) := ∃ subtree ∈ plan.deletedSubtrees,
      subtree.relativePrefix = path ∨ IsAncestor subtree.relativePrefix path
    (plan.deletedSubtrees = [goneSubtree (docsDirectory "docs".toList)] ∧
      plan.directories = [docsDirectory "docsets".toList] ∧
      plan.files = [docsFile "docsets/b".toList]) ∧
    (∀ directory ∈ plan.directories, ¬ gone directory.relativePath) ∧
    (∀ file ∈ plan.files, ¬ gone file.relativePath) ∧
    (∀ directory ∈ docsReport.directories,
      plan.directories.count directory = 1 ∨ gone directory.relativePath) ∧
    (∀ file ∈ docsReport.files, plan.files.count file = 1 ∨ gone file.relativePath) ∧
    (∀ subtree ∈ plan.deletedSubtrees, ∃ directory ∈ docsReport.directories,
      isDir directory.localPath = false ∧ subtree = goneSubtree directory) ∧
    plan.directories.Pairwise fun earlier later =>
      ¬ IsAncestor later.relativePath earlier.relativePath :=
  ⟨by decide,fromScanReport_partition _ [] docsReport (by decide) (by decide)⟩

end ScanReport

end LiveScanPlan

end YaDiskSync
