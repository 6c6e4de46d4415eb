import YaDiskSync.LivePlan
import YaDiskSync.Scanner

/-! The absolute excludes of a scan. The matcher compares texts that have been normalised, and
finds what lies at or below an exclude component by component. The empty text comes out of an
entry that names the root of the file system and of an empty one alike. -/
namespace YaDiskSync

open SepPath

/-- The absolute matcher of a scan, made from the texts of the configuration. -/
def absoluteMatcher (ext : Externals) (config : AppConfig) :
    Except InvalidRule ExclusionMatcher :=
  ExclusionMatcher.new ext [] []
    (config.absoluteExcludes ++ [replaceChar '\\' slash config.paths.stagingDir])

/-- `Path::is_absolute` on either kind of system. -/
def isAbsolutePath (path : Str) : Bool :=
  path.head?.any isSeparator ||
    (looksLikeWindowsPath path && (path.drop 2).head?.any isSeparator)

/-- What a configuration excludes: the entries that are not blank and the staging directory. -/
def excludedPaths (config : AppConfig) : List Str :=
  config.absoluteExcludes.filter (fun entry => !(trim entry).isEmpty) ++ [config.paths.stagingDir]

/-- Separators at the end of a path do not count. -/
def withoutEnd (path : Str) : Str := path.rdropWhile isSeparator

/-- Backslashes are slashes. -/
def withSlashes (path : Str) : Str := path.map fun c => if isSeparator c then slash else c

/-- On a drive the case of letters does not count. -/
def withoutCase (ext : Externals) (path : Str) : Str :=
  if looksLikeWindowsPath path then ext.toLowercase path else path

/-- The text by which paths are compared. -/
def comparedText (ext : Externals) (path : Str) : Str :=
  withoutCase ext (withSlashes (withoutEnd path))

/-- The components of `entry` are the first of those of `path`. An empty component and one that is
a dot count like any other. -/
def LiesIn (ext : Externals) (entry path : Str) : Prop :=
  (comparedText ext entry).splitOn slash <+: (comparedText ext path).splitOn slash

/-- Lower case leaves a drive letter a drive letter. -/
def Externals.LowersDrives (ext : Externals) : Prop :=
  ∀ path, looksLikeWindowsPath path = true → looksLikeWindowsPath (ext.toLowercase path) = true

theorem isAsciiAlphabetic_asciiLower {c : Char} (h : isAsciiAlphabetic c = true) :
    isAsciiAlphabetic (asciiLower c) = true := by
  unfold asciiLower
  split
  · rename_i hupper
    have hletters : ∀ n < 91, 65 ≤ n → isAsciiAlphabetic (Char.ofNat (n+32)) = true := by decide
    have hge : 65 ≤ c.toNat := hupper.1
    have hle : c.toNat ≤ 90 := hupper.2
    exact hletters c.toNat (by omega) hge
  · exact h

theorem asciiExternals_lowersDrives : asciiExternals.LowersDrives := by
  intro path h
  unfold looksLikeWindowsPath at h
  split at h
  · rename_i c rest
    have hletter : isAsciiAlphabetic (asciiLower c) = true := isAsciiAlphabetic_asciiLower h
    exact hletter
  · cases h

variable {ext : Externals} {config : AppConfig} {matcher : ExclusionMatcher} {path entry : Str}

theorem withSlashes_withoutEnd (path : Str) :
    withSlashes (withoutEnd path) = trimEndMatches slash (replaceChar '\\' slash path) := by
  induction path using List.reverseRecOn with
  | nil => rfl
  | append_singleton path c ih =>
    by_cases hc : isSeparator c = true
    · have hslash : (if c = '\\' then slash else c) = slash := by
        simp only [isSeparator,Bool.or_eq_true,beq_iff_eq] at hc
        obtain rfl | rfl := hc <;> rfl
      have hend : withoutEnd (path ++ [c]) = withoutEnd path :=
        List.rdropWhile_concat_pos _ _ _ hc
      rw [hend,ih]
      simp [trimEndMatches,replaceChar,hslash]
    · have hkept : c ≠ '\\' ∧ c ≠ slash := by
        constructor <;> rintro rfl <;> exact hc rfl
      have hplain : ∀ d : Char, (if isSeparator d then slash else d) =
          if d = '\\' then slash else d := by
        intro d
        by_cases hd : d = slash <;> simp [isSeparator,hd]
      rw [withoutEnd,List.rdropWhile_concat_neg _ _ _ hc]
      simp [withSlashes,trimEndMatches,replaceChar,hplain,hkept.1,hkept.2]

/-- The code compares paths by the same text. -/
theorem comparedText_eq (path : Str) : comparedText ext path = normalizeAbsolutePath ext path := by
  rw [comparedText,withSlashes_withoutEnd]
  rfl

theorem liesIn_iff : LiesIn ext entry path ↔
    Covers slash (normalizeAbsolutePath ext entry) (normalizeAbsolutePath ext path) := by
  rw [← comparedText_eq,← comparedText_eq]
  exact splitOn_isPrefix_iff

@[simp] theorem replaceChar_replaceChar {a b : Char} (hne : b ≠ a) (s : Str) :
    replaceChar a b (replaceChar a b s) = replaceChar a b s := by
  unfold replaceChar
  rw [List.map_map]
  apply List.map_congr_left
  intro c _
  by_cases hc : c = a <;> simp [hc,hne]

theorem normalizeAbsolutePath_replaceChar (path : Str) :
    normalizeAbsolutePath ext (replaceChar '\\' slash path) = normalizeAbsolutePath ext path := by
  unfold normalizeAbsolutePath
  rw [replaceChar_replaceChar (by decide)]

/-- The normalised excludes of a matcher cover what it excludes. -/
theorem matchesAbsoluteExclude_covers : matcher.matchesAbsoluteExclude ext path = true ↔
    ∃ excluded ∈ matcher.absoluteExcludes,
      Covers slash excluded (normalizeAbsolutePath ext path) := by
  have hany : matcher.matchesAbsoluteExclude ext path = true ↔
      ∃ excluded ∈ matcher.absoluteExcludes,
        isAtOrBelow excluded (normalizeAbsolutePath ext path) = true := by
    rw [← normalizeAbsolutePath_replaceChar]
    exact List.any_eq_true
  simpa only [isAtOrBelow_iff] using hany

/-- The matcher looks for an exclude that the path lies in, blank or not. -/
theorem matchesAbsoluteExclude_iff (hmatcher : absoluteMatcher ext config = .ok matcher) :
    matcher.matchesAbsoluteExclude ext path = true ↔
      ∃ entry ∈ config.absoluteExcludes ++ [config.paths.stagingDir], LiesIn ext entry path := by
  rw [matchesAbsoluteExclude_covers,(ExclusionMatcher.new_ok hmatcher).2]
  simp only [liesIn_iff,List.mem_map,List.mem_append,List.mem_singleton]
  constructor
  · rintro ⟨_,⟨entry,he | rfl,rfl⟩,hc⟩
    · exact ⟨entry,Or.inl he,hc⟩
    · rw [normalizeAbsolutePath_replaceChar] at hc
      exact ⟨_,Or.inr rfl,hc⟩
  · rintro ⟨entry,he | rfl,hc⟩
    · exact ⟨_,⟨entry,Or.inl he,rfl⟩,hc⟩
    · exact ⟨_,⟨_,Or.inr rfl,rfl⟩,by rwa [normalizeAbsolutePath_replaceChar]⟩

/-- It is the matcher of the scans. -/
theorem absoluteMatcher_of_scanContext {root : ScanRoot} {previousStates : List FileStateRecord}
    {context : ScanContext}
    (hcontext : scanContext ext (ScanOptions.fromConfig config.sync config.globalExcludes
      config.absoluteExcludes config.paths.stagingDir) root previousStates = .ok context) :
    absoluteMatcher ext config = .ok context.absoluteMatcher :=
  (scanContext_spec hcontext).2.1

theorem decisionForPath_absolute_iff {isDir : Bool} :
    matcher.decisionForPath ext path isDir = ⟨true,.absolute⟩ ↔
      matcher.matchesAbsoluteExclude ext path = true := by
  unfold ExclusionMatcher.decisionForPath
  split
  · rename_i h
    simp [h]
  · rename_i h
    split <;> simp [h]

section Normalized

theorem normalized_eq_nil_iff (hext : ext.LowersDrives) :
    normalizeAbsolutePath ext entry = [] ↔ ∀ c ∈ entry, isSeparator c = true := by
  have htrim : trimEndMatches slash (replaceChar '\\' slash entry) = [] ↔
      ∀ c ∈ entry, isSeparator c = true := by
    unfold trimEndMatches replaceChar isSeparator
    rw [List.rdropWhile_eq_nil_iff]
    simp only [List.mem_map,forall_exists_index,and_imp,forall_apply_eq_imp_iff₂,beq_iff_eq,
      Bool.or_eq_true]
    apply forall₂_congr
    intro c _
    by_cases hc : c = '\\' <;> simp [hc]
  rw [← htrim]
  unfold normalizeAbsolutePath
  dsimp only
  split
  · rename_i hdrive
    have hlower := hext _ hdrive
    constructor
    · intro h
      rw [h] at hlower
      cases hlower
    · intro h
      rw [h] at hdrive
      cases hdrive
  · exact Iff.rfl

/-- An absolute path begins with a separator or a drive once it is normalised. -/
theorem normalized_absolute (hext : ext.LowersDrives) (hpath : isAbsolutePath path = true) :
    (path.head?.any isSeparator = true ∧
        Covers slash [] (normalizeAbsolutePath ext path)) ∨
      (path.head?.any isSeparator = false ∧
        looksLikeWindowsPath (normalizeAbsolutePath ext path) = true) := by
  cases path with
  | nil => cases hpath
  | cons c rest =>
    cases hc : isSeparator c with
    | true =>
      refine Or.inl ⟨hc,?_⟩
      have hslash : replaceChar '\\' slash (c :: rest) = slash :: replaceChar '\\' slash rest := by
        simp only [isSeparator,Bool.or_eq_true,beq_iff_eq] at hc
        rcases hc with rfl | rfl <;> simp [replaceChar]
      unfold normalizeAbsolutePath
      rw [hslash]
      generalize ht : trimEndMatches slash (slash :: replaceChar '\\' slash rest) = t
      have hpre : t <+: slash :: replaceChar '\\' slash rest :=
        ht ▸ trimEndMatches_isPrefix slash _
      cases t with
      | nil => simp [looksLikeWindowsPath]
      | cons d t =>
        rw [(List.cons_prefix_cons.mp hpre).1]
        have hdrive : looksLikeWindowsPath (slash :: t) = false := by
          unfold looksLikeWindowsPath
          split
          · rename_i heq
            cases heq
            decide
          · rfl
        simp only [hdrive,Bool.false_eq_true,if_false]
        exact (beneath_append [] t).covers
    | false =>
      refine Or.inr ⟨hc,?_⟩
      have hdrive : looksLikeWindowsPath (c :: rest) = true := by
        simp only [isAbsolutePath,List.head?_cons,Option.any_some,hc,Bool.false_or,
          Bool.and_eq_true] at hpath
        exact hpath.1
      match rest with
      | [] => cases hdrive
      | d :: rest =>
        have hd : d = ':' ∧ isAsciiAlphabetic c = true := by
          unfold looksLikeWindowsPath at hdrive
          split at hdrive
          · rename_i heq
            cases heq
            exact ⟨rfl,hdrive⟩
          · cases hdrive
        obtain ⟨rfl,hletter⟩ := hd
        have hback : c ≠ '\\' := by
          rintro rfl
          cases hletter
        have htrim : trimEndMatches slash (replaceChar '\\' slash (c :: ':' :: rest)) =
            c :: ':' :: trimEndMatches slash (replaceChar '\\' slash rest) := by
          have hkeep := rdropWhile_append_cons (p := (· == slash)) (x := ':') (by decide) [c]
            (replaceChar '\\' slash rest)
          simpa [trimEndMatches,replaceChar,hback] using hkeep
        have hnorm : looksLikeWindowsPath
            (c :: ':' :: trimEndMatches slash (replaceChar '\\' slash rest)) = true := hletter
        unfold normalizeAbsolutePath
        rw [htrim]
        simp only [hnorm,if_true]
        exact hext _ hnorm

/-- An entry of separators only holds the paths that begin with one. -/
theorem liesIn_root_iff (hext : ext.LowersDrives) (hpath : isAbsolutePath path = true)
    (hentry : ∀ c ∈ entry, isSeparator c = true) :
    LiesIn ext entry path ↔ path.head?.any isSeparator = true := by
  rw [liesIn_iff,(normalized_eq_nil_iff hext).mpr hentry]
  rcases normalized_absolute hext hpath with ⟨hsep,hcovers⟩ | ⟨hsep,hdrive⟩
  · exact iff_of_true hcovers hsep
  · refine iff_of_false ?_ (by simp [hsep])
    intro hcovers
    rcases hcovers with hnil | hbelow
    · rw [hnil] at hdrive
      cases hdrive
    · obtain ⟨t,ht⟩ := beneath_iff.mp hbelow
      rw [ht,List.nil_append] at hdrive
      unfold looksLikeWindowsPath at hdrive
      split at hdrive
      · rename_i heq
        cases heq
        cases hdrive
      · cases hdrive

theorem isAsciiAlphabetic_of_isWhitespace {c : Char} (h : isWhitespace c = true) :
    isAsciiAlphabetic c = false := by
  rw [← Bool.not_eq_true]
  intro hletter
  have hrange : 65 ≤ c.toNat ∧ c.toNat ≤ 122 := by
    simp only [isAsciiAlphabetic,Bool.or_eq_true,Bool.and_eq_true,decide_eq_true_eq] at hletter
    rcases hletter with ⟨hlow,hhigh⟩ | ⟨hlow,hhigh⟩
    · have hge : 97 ≤ c.toNat := hlow
      have hle : c.toNat ≤ 122 := hhigh
      omega
    · have hge : 65 ≤ c.toNat := hlow
      have hle : c.toNat ≤ 90 := hhigh
      omega
  simp only [isWhitespace,Bool.or_eq_true,Bool.and_eq_true,decide_eq_true_eq,beq_iff_eq] at h
  omega

/-- A normalised absolute path does not begin with white space. -/
theorem normalized_head (hext : ext.LowersDrives) (hpath : isAbsolutePath path = true) {c : Char}
    (hc : (normalizeAbsolutePath ext path).head? = some c) : isWhitespace c = false := by
  rcases normalized_absolute hext hpath with ⟨_,hroot⟩ | ⟨_,hdrive⟩
  · rcases hroot with hnil | hbelow
    · rw [hnil] at hc
      cases hc
    · obtain ⟨t,ht⟩ := beneath_iff.mp hbelow
      rw [ht] at hc
      cases hc
      decide
  · generalize normalizeAbsolutePath ext path = s at hdrive hc
    unfold looksLikeWindowsPath at hdrive
    split at hdrive
    · cases hc
      rw [← Bool.not_eq_true]
      intro hwhite
      rw [isAsciiAlphabetic_of_isWhitespace hwhite] at hdrive
      cases hdrive
    · cases hdrive

theorem forall_isWhitespace_of_trim (hblank : trim entry = []) :
    ∀ c ∈ entry, isWhitespace c = true := by
  intro c hc
  rw [trim,List.rdropWhile_eq_nil_iff] at hblank
  by_contra hkept
  have hdrop : List.dropWhile isWhitespace entry ≠ [] := by
    rw [ne_eq,List.dropWhile_eq_nil_iff]
    exact fun h => hkept (h c hc)
  have hhead := List.head_dropWhile_not isWhitespace hdrop
  rw [hblank _ (List.head_mem hdrop)] at hhead
  cases hhead

/-- White space is normal as it is. -/
theorem normalizeAbsolutePath_of_blank (hwhite : ∀ c ∈ entry, isWhitespace c = true) :
    normalizeAbsolutePath ext entry = entry := by
  have hreplace : replaceChar '\\' slash entry = entry := by
    unfold replaceChar
    conv_rhs => rw [← List.map_id entry]
    apply List.map_congr_left
    intro c hc
    have hne : c ≠ '\\' := by
      rintro rfl
      cases hwhite _ hc
    simp [hne]
  have htrim : trimEndMatches slash entry = entry := by
    apply trimEndMatches_of_getLast
    intro hlast
    cases hwhite slash (List.mem_of_getLast? hlast)
  have hdrive : looksLikeWindowsPath entry = false := by
    unfold looksLikeWindowsPath
    split
    · cases hwhite ':' (by simp)
    · rfl
  unfold normalizeAbsolutePath
  simp [hreplace,htrim,hdrive]

/-- An entry of white space holds no absolute path, unless it is empty. -/
theorem not_liesIn_of_blank (hext : ext.LowersDrives) (hpath : isAbsolutePath path = true)
    (hblank : trim entry = []) (hne : entry ≠ []) : ¬ LiesIn ext entry path := by
  have hwhite := forall_isWhitespace_of_trim hblank
  rw [liesIn_iff,normalizeAbsolutePath_of_blank hwhite]
  intro hcovers
  cases entry with
  | nil => exact hne rfl
  | cons w rest =>
    obtain ⟨t,ht⟩ := hcovers.isPrefix
    have hhead : (normalizeAbsolutePath ext path).head? = some w := by
      rw [← ht]
      rfl
    have hkept := normalized_head hext hpath hhead
    rw [hwhite w (by simp)] at hkept
    cases hkept

end Normalized

/-- The matcher excludes, as absolute, just the paths that lie in an excluded path. -/
def AbsoluteExact (ext : Externals) (config : AppConfig) (matcher : ExclusionMatcher) : Prop :=
  ∀ path isDir, isAbsolutePath path = true →
    (matcher.decisionForPath ext path isDir = ⟨true,.absolute⟩ ↔
      ∃ entry ∈ excludedPaths config, LiesIn ext entry path)

/-- Absolute excludes are exact unless an entry is empty, and even then if the root of the file
system is excluded anyway. -/
theorem absoluteExcludes_exact_iff (hext : ext.LowersDrives)
    (hmatcher : absoluteMatcher ext config = .ok matcher) :
    AbsoluteExact ext config matcher ↔ ([] ∉ config.absoluteExcludes ∨
      ∃ entry ∈ excludedPaths config, ∀ c ∈ entry, isSeparator c = true) := by
  unfold AbsoluteExact
  simp only [decisionForPath_absolute_iff,matchesAbsoluteExclude_iff hmatcher]
  have hsub : ∀ entry ∈ excludedPaths config,
      entry ∈ config.absoluteExcludes ++ [config.paths.stagingDir] := by
    intro entry he
    rcases List.mem_append.mp he with he | he
    · exact List.mem_append_left _ (List.mem_filter.mp he).1
    · exact List.mem_append_right _ he
  constructor
  · intro hexact
    by_cases hempty : [] ∈ config.absoluteExcludes
    · -- the root itself tells an empty entry from one that names the root
      have hslash : normalizeAbsolutePath ext [slash] = [] :=
        (normalized_eq_nil_iff hext).mpr (by simp [isSeparator])
      have hroot : ∀ entry, LiesIn ext entry [slash] ↔ ∀ c ∈ entry, isSeparator c = true := by
        intro entry
        rw [liesIn_iff,hslash,← normalized_eq_nil_iff hext]
        constructor
        · intro h
          exact List.prefix_nil.mp h.isPrefix
        · intro h
          rw [h]
          exact Covers.refl _
      obtain ⟨entry,he,hin⟩ := (hexact [slash] true (by decide)).mp
        ⟨[],List.mem_append_left _ hempty,(hroot []).mpr (by simp)⟩
      exact Or.inr ⟨entry,he,(hroot entry).mp hin⟩
    · exact Or.inl hempty
  · intro hwhen path isDir hpath
    constructor
    · rintro ⟨entry,he,hin⟩
      rcases List.mem_append.mp he with he | he
      · cases hblank : (trim entry).isEmpty with
        | false => exact ⟨entry,List.mem_append_left _ (List.mem_filter.mpr ⟨he,by simp [hblank]⟩),hin⟩
        | true =>
          by_cases hne : entry = []
          · subst hne
            obtain ⟨root,hr,hsep⟩ := hwhen.resolve_left (fun h => h he)
            have hhead := (liesIn_root_iff hext hpath (by simp)).mp hin
            exact ⟨root,hr,(liesIn_root_iff hext hpath hsep).mpr hhead⟩
          · exact absurd hin (not_liesIn_of_blank hext hpath (List.isEmpty_iff.mp hblank) hne)
      · exact ⟨entry,List.mem_append_right _ he,hin⟩
    · rintro ⟨entry,he,hin⟩
      exact ⟨entry,hsub entry he,hin⟩

/-- A configuration with an empty absolute exclude. -/
private def emptyExcludeConfig : AppConfig := { defaultConfig with absoluteExcludes := [[]] }

/-- One that excludes a directory of a drive and one of another file system. -/
private def twoExcludesConfig : AppConfig :=
  { defaultConfig with absoluteExcludes := ["D:\\Private\\".toList,"/var/private".toList] }

/-- What lies in the two directories is excluded, in any letter case on the drive, and what lies
beside them is not. -/
theorem twoExcludes_exact : ∃ matcher,
    absoluteMatcher asciiExternals twoExcludesConfig = .ok matcher ∧
      AbsoluteExact asciiExternals twoExcludesConfig matcher ∧
      matcher.decisionForPath asciiExternals "d:/PRIVATE/a".toList false = ⟨true,.absolute⟩ ∧
      matcher.decisionForPath asciiExternals "/var/private/a".toList false = ⟨true,.absolute⟩ ∧
      matcher.decisionForPath asciiExternals "/var/privateer".toList false ≠ ⟨true,.absolute⟩ := by
  refine ⟨_,rfl,?_⟩
  have hexact : AbsoluteExact asciiExternals twoExcludesConfig _ :=
    (absoluteExcludes_exact_iff asciiExternals_lowersDrives rfl).mpr (Or.inl (by decide))
  refine ⟨hexact,?_,?_,by decide⟩
  · exact (hexact _ _ (by decide)).mpr ⟨"D:\\Private\\".toList,by decide,by unfold LiesIn; decide⟩
  · exact (hexact _ _ (by decide)).mpr ⟨"/var/private".toList,by decide,by unfold LiesIn; decide⟩

/-- An accepted configuration whose one absolute exclude is empty excludes every path that begins
with a separator. -/
theorem emptyExclude_not_exact : ¬ ∀ config matcher,
    (validateConfig asciiExternals config).isValid = true →
      absoluteMatcher asciiExternals config = .ok matcher →
        AbsoluteExact asciiExternals config matcher := by
  intro h
  have hexact := h emptyExcludeConfig _ (by decide +kernel) rfl "/data/report.txt".toList false
    (by decide)
  obtain ⟨entry,he,hin⟩ := hexact.mp (by decide)
  have hpaths : excludedPaths emptyExcludeConfig = [emptyExcludeConfig.paths.stagingDir] := by
    decide
  rw [hpaths,List.mem_singleton] at he
  subst he
  revert hin
  unfold LiesIn
  decide

end YaDiskSync
