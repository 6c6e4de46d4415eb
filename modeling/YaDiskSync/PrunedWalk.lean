import YaDiskSync.AbsoluteExcludes

/-! The pruned walk against the exclusion rules. The walk does not list a directory it excludes,
so a path is reached when no directory above it is excluded. A rule that excludes a directory
also holds below it; only a negated rule can separate the path's own decision from the walk. -/
namespace YaDiskSync

/-- The nearest decision of a path or of a directory above it, up to the root. -/
def matchedOrParents (matched : LocalPath → Bool → GlobMatch) (path : LocalPath) (isDir : Bool) :
    GlobMatch :=
  match matched path isDir with
  | .none => ((path.inits.dropLast.reverse.map fun parent => matched parent true).find?
      (· ≠ .none)).getD .none
  | decided => decided

/-- The documented behaviour of `Gitignore`: without rules nothing matches, and the path and its
parents are looked up in turn. -/
structure Externals.MatchesParents (ext : Externals) : Prop where
  noRules : ∀ path isDir, ext.matchedPathOrAnyParents [] path isDir = .none
  parents : ∃ matched : List Str → LocalPath → Bool → GlobMatch, ∀ rules path isDir,
    ext.matchedPathOrAnyParents rules path isDir =
      matchedOrParents (matched rules) (pathComponents path) isDir

/-- Lower case goes name by name: the names on the two sides of a slash do not touch each other. -/
def Externals.LowersNames (ext : Externals) : Prop :=
  ∀ s t, ext.toLowercase (s ++ slash :: t) = ext.toLowercase s ++ slash :: ext.toLowercase t

/-- One of the two matchers excludes the path itself. -/
def DecidedExcluded (ext : Externals) (context : ScanContext) (components : List Str)
    (isDir : Bool) : Prop :=
  (context.absoluteMatcher.decisionForPath ext
      (context.root.entryText components) isDir).excluded = true ∨
    (context.patternMatcher.decisionForPath ext (relativePathOf components) isDir).excluded = true

/-- The entry is obtained, and so are the directories above it and their listings. -/
structure EntryObtained (faults : ScanFaults) (components : List Str) : Prop where
  entry : faults.entry components = none
  parents : ∀ dir ∈ components.inits.dropLast, dir ≠ [] → faults.entry dir = none
  listings : ∀ dir ∈ components.inits.dropLast, faults.listing dir = none

/-- The name adds nothing to the path: it only has separators and dots between them. -/
def AddsNoComponent (components : List Str) : Prop :=
  ∃ name, components.getLast? = some name ∧ pathComponents (replaceChar '\\' slash name) = []

section Components

@[simp] theorem pathComponents_nil : pathComponents [] = [] := rfl

theorem pathComponents_append (s t : Str) :
    pathComponents (s ++ slash :: t) = pathComponents s ++ pathComponents t := by
  unfold pathComponents
  rw [List.splitOn_append_cons_self,List.filter_append]

@[simp] theorem pathComponents_slash_cons (t : Str) :
    pathComponents (slash :: t) = pathComponents t := by
  simpa using pathComponents_append [] t

theorem pathComponents_trimMatches (t : Str) :
    pathComponents (trimMatches slash t) = pathComponents t := by
  have hstart : pathComponents (trimStartMatches slash t) = pathComponents t := by
    induction t with
    | nil => rfl
    | cons c t ih =>
      by_cases hc : c = slash
      · rw [hc,pathComponents_slash_cons,← ih]
        simp [trimStartMatches]
      · simp [trimStartMatches,hc]
  have hend : ∀ s, pathComponents (trimEndMatches slash s) = pathComponents s := by
    intro s
    induction s using List.reverseRecOn with
    | nil => rfl
    | append_singleton s c ih =>
      by_cases hc : c = slash
      · rw [hc,pathComponents_append,pathComponents_nil,List.append_nil,← ih]
        simp [trimEndMatches]
      · simp [trimEndMatches,hc]
  rw [trimMatches,hend,hstart]

theorem pathComponents_intercalate (names : List Str) :
    pathComponents ([slash].intercalate names) = names.flatMap pathComponents := by
  induction names with
  | nil => rfl
  | cons name names ih =>
    cases names with
    | nil => simp
    | cons next names =>
      rw [List.intercalate_cons_cons,List.append_assoc,List.singleton_append,
        pathComponents_append,ih]
      simp

theorem replaceChar_intercalate (names : List Str) :
    replaceChar '\\' slash ([slash].intercalate names) =
      [slash].intercalate (names.map (replaceChar '\\' slash)) := by
  induction names with
  | nil => rfl
  | cons name names ih =>
    cases names with
    | nil => simp
    | cons next names =>
      have hsplit : replaceChar '\\' slash (name ++ slash :: [slash].intercalate (next :: names)) =
          replaceChar '\\' slash name ++
            slash :: replaceChar '\\' slash ([slash].intercalate (next :: names)) := by
        simp [replaceChar]
      simp only [List.map_cons,List.intercalate_cons_cons,List.append_assoc,
        List.singleton_append] at ih ⊢
      rw [hsplit,ih]

/-- The components of a relative path, one name of the local path after the other. -/
theorem pathComponents_relativePathOf (components : List Str) :
    pathComponents (relativePathOf components) =
      components.flatMap fun name => pathComponents (replaceChar '\\' slash name) := by
  rw [relativePathOf,pathComponents_trimMatches,replaceChar_intercalate,
    pathComponents_intercalate,List.flatMap_map]

end Components

section Rules

theorem mem_inits_dropLast {α : Type*} {dir path : List α} :
    dir ∈ path.inits.dropLast ↔ ∃ rest, rest ≠ [] ∧ path = dir ++ rest := by
  induction path generalizing dir with
  | nil => simp
  | cons a path ih =>
    have hne : path.inits ≠ [] := by
      cases path <;> simp
    rw [show (a :: path).inits = [] :: path.inits.map (a :: ·) from rfl,
      List.dropLast_cons_of_ne_nil (by simpa using hne),List.mem_cons,← List.map_dropLast,
      List.mem_map]
    constructor
    · rintro (rfl | ⟨dir,hdir,rfl⟩)
      · exact ⟨a :: path,by simp,rfl⟩
      · obtain ⟨rest,hrest,rfl⟩ := ih.mp hdir
        exact ⟨rest,hrest,rfl⟩
    · rintro ⟨rest,hrest,hpath⟩
      cases dir with
      | nil => exact Or.inl rfl
      | cons b dir =>
        obtain ⟨rfl,rfl⟩ : a = b ∧ path = dir ++ rest := by simpa using hpath
        exact Or.inr ⟨dir,ih.mpr ⟨rest,hrest,rfl⟩,rfl⟩

variable {matched : LocalPath → Bool → GlobMatch} {path dir : LocalPath} {isDir : Bool}

theorem matchedOrParents_eq_none : matchedOrParents matched path isDir = .none ↔
    matched path isDir = .none ∧ ∀ parent ∈ path.inits.dropLast, matched parent true = .none := by
  unfold matchedOrParents
  cases hown : matched path isDir with
  | none =>
    cases hfind : (path.inits.dropLast.reverse.map fun parent => matched parent true).find?
        (· ≠ .none) with
    | none =>
      have hnone : ∀ parent ∈ path.inits.dropLast, matched parent true = .none := by
        intro parent hparent
        simpa using List.find?_eq_none.mp hfind _
          (List.mem_map_of_mem (List.mem_reverse.mpr hparent))
      simpa using hnone
    | some decided =>
      have hdecided : decided ≠ .none := by simpa using List.find?_some hfind
      obtain ⟨parent,hparent,hmatched⟩ := List.mem_map.mp (List.mem_of_find?_eq_some hfind)
      constructor
      · intro h
        exact absurd (by simpa using h) hdecided
      · rintro ⟨-,h⟩
        exact absurd (hmatched ▸ h parent (by simpa using hparent)) hdecided
  | ignore => simp
  | whitelist => simp

/-- A path that nothing decides has no decided directory above it. -/
theorem matchedOrParents_above (h : matchedOrParents matched path isDir = .none)
    (hdir : dir ∈ path.inits.dropLast) : matchedOrParents matched dir true = .none := by
  obtain ⟨-,hparents⟩ := matchedOrParents_eq_none.mp h
  apply matchedOrParents_eq_none.mpr
  refine ⟨hparents dir hdir,fun parent hparent => hparents parent ?_⟩
  obtain ⟨rest,hrest,rfl⟩ := mem_inits_dropLast.mp hdir
  obtain ⟨between,hbetween,rfl⟩ := mem_inits_dropLast.mp hparent
  exact mem_inits_dropLast.mpr ⟨between ++ rest,by simp [hbetween],by simp⟩

end Rules

section Absolute

/-- Trimming a longer path leaves the shorter one, alone or before a separator. -/
theorem trimEndMatches_slash_below (s t : Str) :
    trimEndMatches slash (s ++ slash :: t) = trimEndMatches slash s ∨
      ∃ u, trimEndMatches slash (s ++ slash :: t) = trimEndMatches slash s ++ slash :: u := by
  have htail : ∀ t, trimEndMatches slash (slash :: t) = [] ∨
      ∃ u, trimEndMatches slash (slash :: t) = slash :: u := by
    intro t
    cases htrim : trimEndMatches slash (slash :: t) with
    | nil => exact Or.inl rfl
    | cons c u =>
      have hprefix := trimEndMatches_isPrefix slash (slash :: t)
      rw [htrim] at hprefix
      obtain ⟨rfl,-⟩ := List.cons_prefix_cons.mp hprefix
      exact Or.inr ⟨u,rfl⟩
  induction s using List.reverseRecOn generalizing t with
  | nil => simpa [trimEndMatches] using htail t
  | append_singleton s c ih =>
    by_cases hc : c = slash
    · rw [hc,List.append_assoc,List.singleton_append]
      simpa [trimEndMatches] using ih (slash :: t)
    · have hkept : trimEndMatches slash (s ++ [c]) = s ++ [c] := by simp [trimEndMatches,hc]
      have hlong : trimEndMatches slash (s ++ [c] ++ slash :: t) =
          s ++ [c] ++ trimEndMatches slash (slash :: t) := by
        rw [List.append_assoc,List.singleton_append,List.append_assoc,List.singleton_append]
        exact rdropWhile_append_cons (by simpa using hc) s (slash :: t)
      rw [hkept,hlong]
      obtain hnone | ⟨u,hu⟩ := htail t
      · exact Or.inl (by rw [hnone,List.append_nil])
      · exact Or.inr ⟨u,by rw [hu]⟩

variable {ext : Externals} {matcher : ExclusionMatcher}

/-- A separator further on does not make a drive. -/
theorem looksLikeWindowsPath_append (s t : Str) :
    looksLikeWindowsPath (s ++ slash :: t) = looksLikeWindowsPath s := by
  match s with
  | [] =>
    cases t with
    | nil => rfl
    | cons d t => by_cases hd : d = ':' <;> simp [looksLikeWindowsPath,hd,isAsciiAlphabetic,slash]
  | [c] => simp [looksLikeWindowsPath,slash]
  | c :: d :: s => by_cases hd : d = ':' <;> simp [looksLikeWindowsPath,hd]

/-- What is joined to a path lies at or below it once both are normalised. -/
theorem covers_normalizeAbsolutePath (hlower : ext.LowersNames) (s t : Str) :
    SepPath.Covers slash (normalizeAbsolutePath ext s)
      (normalizeAbsolutePath ext (s ++ slash :: t)) := by
  have happend : replaceChar '\\' slash (s ++ slash :: t) =
      replaceChar '\\' slash s ++ slash :: replaceChar '\\' slash t := by
    simp [replaceChar]
  unfold normalizeAbsolutePath
  rw [happend]
  obtain he | ⟨u,hu⟩ := trimEndMatches_slash_below (replaceChar '\\' slash s)
    (replaceChar '\\' slash t)
  · rw [he]
    exact SepPath.Covers.refl _
  · rw [hu]
    dsimp only
    rw [looksLikeWindowsPath_append]
    split
    · rw [hlower]
      exact (SepPath.beneath_append _ _).covers
    · exact (SepPath.beneath_append _ _).covers

/-- An absolute rule holds for everything below the directory it excludes. -/
theorem ExclusionMatcher.matchesAbsoluteExclude_below (hlower : ext.LowersNames) {s t : Str}
    (h : matcher.matchesAbsoluteExclude ext s = true) :
    matcher.matchesAbsoluteExclude ext (s ++ slash :: t) = true := by
  rw [matchesAbsoluteExclude_covers] at h ⊢
  obtain ⟨excluded,hmem,hcovers⟩ := h
  exact ⟨excluded,hmem,hcovers.trans (covers_normalizeAbsolutePath hlower s t)⟩

end Absolute

section Walk

variable {ext : Externals} {context : ScanContext} {faults : ScanFaults}
  {components dir rest : List Str} {isDir : Bool}

/-- The two matchers of a scan: one has patterns only, the other absolute paths only. -/
theorem scanContext_matchers {options : ScanOptions} {root : ScanRoot}
    {previousStates : List FileStateRecord}
    (h : scanContext ext options root previousStates = .ok context) :
    context.patternMatcher.absoluteExcludes = [] ∧ context.absoluteMatcher.rules = [] := by
  obtain ⟨hpattern,habsolute,-⟩ := scanContext_spec h
  exact ⟨(ExclusionMatcher.new_ok hpattern).2,(ExclusionMatcher.new_ok habsolute).1⟩

theorem intercalate_append (hdir : dir ≠ []) (hrest : rest ≠ []) :
    [slash].intercalate (dir ++ rest) =
      [slash].intercalate dir ++ slash :: [slash].intercalate rest := by
  have hlong : dir ++ rest ≠ [] := by simp [hdir]
  have h : SepPath.extend slash [] (dir ++ rest) = _ := SepPath.extend_append [] dir rest
  rw [SepPath.extend_eq_intercalate _ hlong,SepPath.extend_eq_intercalate _ hdir,
    SepPath.extend_eq_intercalate _ hrest] at h
  simpa using h

theorem entryText_append (root : ScanRoot) (hdir : dir ≠ []) (hrest : rest ≠ []) :
    root.entryText (dir ++ rest) = root.entryText dir ++ slash :: [slash].intercalate rest := by
  unfold ScanRoot.entryText
  rw [intercalate_append hdir hrest]
  split <;> simp

/-- What a scan's matchers decide: an absolute rule, or a pattern that ignores the path. -/
theorem decidedExcluded_iff (hext : ext.MatchesParents)
    (hpattern : context.patternMatcher.absoluteExcludes = [])
    (habsolute : context.absoluteMatcher.rules = []) :
    DecidedExcluded ext context components isDir ↔
      context.absoluteMatcher.matchesAbsoluteExclude ext
          (context.root.entryText components) = true ∨
        ext.matchedPathOrAnyParents context.patternMatcher.rules (relativePathOf components)
          isDir = .ignore := by
  have hnone : ∀ path, context.patternMatcher.matchesAbsoluteExclude ext path = false := by
    intro path
    simp [ExclusionMatcher.matchesAbsoluteExclude,hpattern]
  unfold DecidedExcluded ExclusionMatcher.decisionForPath
  rw [habsolute,hext.noRules,hnone]
  apply or_congr
  · by_cases hmatch : context.absoluteMatcher.matchesAbsoluteExclude ext
        (context.root.entryText components) = true
    · simp [hmatch]
    · simp [hmatch]
  · cases ext.matchedPathOrAnyParents context.patternMatcher.rules (relativePathOf components)
      isDir <;> simp

theorem excludedBy_eq_none_iff (hext : ext.MatchesParents)
    (habsolute : context.absoluteMatcher.rules = []) :
    excludedBy ext context components isDir = none ↔
      ¬ DecidedExcluded ext context components isDir := by
  have hreason : ∀ path, (context.absoluteMatcher.decisionForPath ext path isDir).excluded = true →
      (context.absoluteMatcher.decisionForPath ext path isDir).reason = .absolute := by
    intro path h
    unfold ExclusionMatcher.decisionForPath at h ⊢
    rw [habsolute,hext.noRules] at h ⊢
    split at h
    · rename_i hmatch
      rw [if_pos hmatch]
    · cases h
  rw [DecidedExcluded,not_or]
  unfold excludedBy exclusionDecision
  by_cases hexcluded : (context.absoluteMatcher.decisionForPath ext
      (context.root.entryText components) isDir).excluded = true
  · simp [hexcluded,hreason _ hexcluded]
  · by_cases hrule : (context.patternMatcher.decisionForPath ext (relativePathOf components)
      isDir).excluded = true
    · simp [hexcluded,hrule]
    · simp [hexcluded,hrule]

/-- The walk reaches what no directory above excludes. -/
theorem isVisited_iff (hext : ext.MatchesParents)
    (habsolute : context.absoluteMatcher.rules = []) :
    isVisited ext context faults components = true ↔ EntryObtained faults components ∧
      ∀ dir ∈ components.inits.dropLast, dir ≠ [] → ¬ DecidedExcluded ext context dir true := by
  have hdescends : ∀ dir, descends ext context faults dir = true ↔
      (dir ≠ [] → faults.entry dir = none ∧ ¬ DecidedExcluded ext context dir true) := by
    intro dir
    rw [← excludedBy_eq_none_iff hext habsolute]
    by_cases hdir : dir = []
    · simp [descends,hdir]
    · simp [descends,hdir]
  unfold isVisited parentsListed
  simp only [Bool.and_eq_true,List.all_eq_true,hdescends,Option.isNone_iff_eq_none]
  constructor
  · rintro ⟨hparents,hentry⟩
    refine ⟨⟨hentry,?_,?_⟩,?_⟩
    · exact fun dir hdir hne => ((hparents dir hdir).1 hne).1
    · exact fun dir hdir => (hparents dir hdir).2
    · exact fun dir hdir hne => ((hparents dir hdir).1 hne).2
  · rintro ⟨hobtained,hkept⟩
    refine ⟨fun dir hdir => ⟨fun hne => ?_,hobtained.listings dir hdir⟩,hobtained.entry⟩
    exact ⟨hobtained.parents dir hdir hne,hkept dir hdir hne⟩

/-- A directory that is excluded above a path excludes the path, unless a negated rule decides
the path or its name adds nothing to the directory's. -/
theorem decidedExcluded_of_above (hext : ext.MatchesParents) (hlower : ext.LowersNames)
    (hpattern : context.patternMatcher.absoluteExcludes = [])
    (habsolute : context.absoluteMatcher.rules = [])
    (hdecided : (context.patternMatcher.decisionForPath ext (relativePathOf components)
      isDir).reason ≠ .includedByNegation) (hname : ¬ AddsNoComponent components)
    (hdir : dir ∈ components.inits.dropLast) (hne : dir ≠ [])
    (h : DecidedExcluded ext context dir true) :
    DecidedExcluded ext context components isDir := by
  rw [decidedExcluded_iff hext hpattern habsolute] at h ⊢
  obtain ⟨rest,hrest,rfl⟩ := mem_inits_dropLast.mp hdir
  obtain habove | habove := h
  · -- an absolute rule above the path also covers the path
    apply Or.inl
    rw [entryText_append _ hne hrest]
    exact ExclusionMatcher.matchesAbsoluteExclude_below hlower habove
  · apply Or.inr
    obtain ⟨matched,hmatched⟩ := hext.parents
    have hnone : context.patternMatcher.matchesAbsoluteExclude ext
        (relativePathOf (dir ++ rest)) = false := by
      simp [ExclusionMatcher.matchesAbsoluteExclude,hpattern]
    rw [ExclusionMatcher.decisionForPath,if_neg (by simp [hnone])] at hdecided
    cases hmatch : ext.matchedPathOrAnyParents context.patternMatcher.rules
        (relativePathOf (dir ++ rest)) isDir with
    | ignore => rfl
    | whitelist => simp [hmatch] at hdecided
    | none =>
      -- nothing decides the path, so nothing decides the directory either
      rw [hmatched,pathComponents_relativePathOf] at hmatch habove
      rw [List.flatMap_append] at hmatch
      have hlonger : rest.flatMap (fun name => pathComponents (replaceChar '\\' slash name)) ≠
          [] := by
        intro hempty
        apply hname
        refine ⟨rest.getLast hrest,?_,?_⟩
        · rw [List.getLast?_append_of_ne_nil _ hrest,List.getLast?_eq_some_getLast hrest]
        · exact List.flatMap_eq_nil_iff.mp hempty _ (List.getLast_mem hrest)
      have hdirectory := matchedOrParents_above hmatch (mem_inits_dropLast.mpr ⟨_,hlonger,rfl⟩)
      rw [habove] at hdirectory
      cases hdirectory

end Walk

/-- The walk visits and keeps exactly the entries it obtains that neither matcher excludes; the
directories above matter when a negated rule decides the path or its name adds nothing. -/
theorem walk_keeps_iff {ext : Externals} (hext : ext.MatchesParents) (hlower : ext.LowersNames)
    {options : ScanOptions} {root : ScanRoot} {previousStates : List FileStateRecord} {context : ScanContext}
    (hcontext : scanContext ext options root previousStates = .ok context) (faults : ScanFaults)
    (item : LocalItem) :
    isVisited ext context faults item.components = true ∧
        excludedBy ext context item.components (item.fileType == .dir) = none ↔
      EntryObtained faults item.components ∧
        ¬ DecidedExcluded ext context item.components (item.fileType == .dir) ∧
        ((context.patternMatcher.decisionForPath ext (relativePathOf item.components)
              (item.fileType == .dir)).reason = .includedByNegation ∨
            AddsNoComponent item.components →
          ∀ dir ∈ item.components.inits.dropLast, dir ≠ [] →
            ¬ DecidedExcluded ext context dir true) := by
  obtain ⟨hpattern,habsolute⟩ := scanContext_matchers hcontext
  rw [isVisited_iff hext habsolute,excludedBy_eq_none_iff hext habsolute]
  constructor
  · rintro ⟨⟨hobtained,habove⟩,hkept⟩
    exact ⟨hobtained,hkept,fun _ => habove⟩
  · rintro ⟨hobtained,hkept,hspecial⟩
    refine ⟨⟨hobtained,fun dir hdir hne h => ?_⟩,hkept⟩
    by_cases hcase : (context.patternMatcher.decisionForPath ext
        (relativePathOf item.components) (item.fileType == .dir)).reason = .includedByNegation ∨
        AddsNoComponent item.components
    · exact hspecial hcase dir hdir hne h
    · rw [not_or] at hcase
      exact hkept (decidedExcluded_of_above hext hlower hpattern habsolute hcase.1 hcase.2 hdir hne h)

/-- Rules that are names, or negated names, and decide by the last component; the last rule that
matches wins. -/
def nameRules (rules : List Str) (path : LocalPath) (_isDir : Bool) : GlobMatch :=
  rules.foldl (fun decided rule =>
    match rule with
    | '!' :: name => if path.getLast? = some name then .whitelist else decided
    | name => if path.getLast? = some name then .ignore else decided) .none

def nameExternals : Externals :=
  { asciiExternals with
    matchedPathOrAnyParents := fun rules path isDir =>
      matchedOrParents (nameRules rules) (pathComponents path) isDir }

theorem nameExternals_matchesParents : nameExternals.MatchesParents where
  noRules := by
    intro path isDir
    change matchedOrParents (nameRules []) (pathComponents path) isDir = .none
    exact matchedOrParents_eq_none.mpr ⟨rfl,fun _ _ => rfl⟩
  parents := ⟨nameRules,fun _ _ _ => rfl⟩

theorem nameExternals_lowersNames : nameExternals.LowersNames := by
  intro s t
  change (s ++ slash :: t).map asciiLower = s.map asciiLower ++ slash :: t.map asciiLower
  rw [List.map_append,List.map_cons]
  rfl

/-- A scan that excludes what is named `build`, takes `keep` back, and has a directory of the
drive excluded. -/
def keepOptions : ScanOptions :=
  ⟨["build".toList,"!keep".toList],["C:\\DATA\\Private".toList],0,0,0,1,
    "C:\\ProgramData\\staging".toList⟩

def keepRoot : ScanRoot := ⟨"r".toList,"c:\\data".toList,"disk:/r".toList,[]⟩

def keptContext : ScanContext :=
  { options := keepOptions, root := keepRoot
    patternMatcher := ⟨["build".toList,"!keep".toList],[]⟩
    absoluteMatcher := ⟨[],["c:/data/private".toList,"c:/programdata/staging".toList]⟩
    previousStates := previousStateMap [] }

theorem scanContext_keep : scanContext nameExternals keepOptions keepRoot [] = .ok keptContext :=
  rfl

/-- Below a directory that nothing excludes the negated rule keeps its file; below the excluded
directory of the drive it does not. -/
theorem keptFile_walked : (isVisited nameExternals keptContext {} ["src".toList,"keep".toList] =
      true ∧ excludedBy nameExternals keptContext ["src".toList,"keep".toList] false = none) ∧
    ¬ (isVisited nameExternals keptContext {} ["private".toList,"keep".toList] = true ∧
      excludedBy nameExternals keptContext ["private".toList,"keep".toList] false = none) := by
  have hwalk := walk_keeps_iff nameExternals_matchesParents nameExternals_lowersNames
    scanContext_keep {}
  constructor
  · refine (hwalk { components := ["src".toList,"keep".toList], fileType := .file }).mpr
      ⟨⟨rfl,by decide,by decide⟩,?_,fun _ dir hdir hne => ?_⟩
    · rintro (h | h) <;> exact absurd h (by decide)
    · obtain rfl : dir = ["src".toList] := by
        have hcases : dir = [] ∨ dir = ["src".toList] := by simpa using hdir
        exact hcases.resolve_left hne
      rintro (h | h) <;> exact absurd h (by decide)
  · intro hkept
    have hprivate := hwalk { components := ["private".toList,"keep".toList], fileType := .file }
    exact (hprivate.mp hkept).2.1 (Or.inl (by decide))

/-- The tree `build/keep`. -/
def keptTree : LocalTree where
  items := [{ components := ["build".toList], fileType := .dir },
    { components := ["build".toList,"keep".toList], fileType := .file }]
  names_ne := by decide
  nodup := by decide
  closed := by decide

/-- The file the negated rule takes back is in a directory the walk skips. -/
theorem negatedFile_pruned : ¬ ∀ (ext : Externals) (options : ScanOptions) (root : ScanRoot)
    (previousStates : List FileStateRecord) (context : ScanContext), ext.MatchesParents →
    scanContext ext options root previousStates = .ok context →
    ∀ tree : LocalTree, ∀ item ∈ tree.items,
      (isVisited ext context {} item.components = true ∧
          excludedBy ext context item.components (item.fileType == .dir) = none ↔
        ¬ DecidedExcluded ext context item.components (item.fileType == .dir)) := by
  intro h
  have hkeep := h nameExternals keepOptions keepRoot [] keptContext nameExternals_matchesParents
    scanContext_keep keptTree { components := ["build".toList,"keep".toList], fileType := .file }
    (by decide)
  have hitem := hkeep.mpr (by
    rintro (hdecided | hdecided) <;> exact absurd hdecided (by decide))
  exact absurd hitem.1 (by decide)

end YaDiskSync
