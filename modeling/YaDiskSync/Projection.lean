import YaDiskSync.PathComposition

/-! When sanitising a sanitised path changes nothing. White space is trimmed before the slashes and
the characters that are left out, so what these hide at the end of a text is trimmed only when the
result is sanitised again. -/
namespace YaDiskSync

open SepPath

/-- The last character of a trimmed text that the mapping keeps is white space. -/
def KeepsBlankEnd (text : Str) : Prop :=
  (((trim text).filter keptChar).getLast?.any isWhitespace) = true

instance (text : Str) : Decidable (KeepsBlankEnd text) := inferInstanceAs (Decidable (_ = true))

/-- The text from which the end of a canonical path comes. -/
def canonicalSource (remoteRoot localPath : Str) (remotePathOverride : Option Str) : Str :=
  match remotePathOverride.filter fun value => !(trim value).isEmpty with
  | some overridePath => overridePath
  | none => if (trim localPath).filter keptChar = [] then remoteRoot else localPath

section Ends

theorem getLast?_filter {p : Char → Bool} {t : Str} {c : Char} (hlast : t.getLast? = some c)
    (hc : p c = true) : (t.filter p).getLast? = some c := by
  induction t using List.reverseRecOn with
  | nil => simp at hlast
  | append_singleton t d ih =>
    obtain rfl : d = c := by simpa using hlast
    simp [List.filter_append,hc]

theorem filter_keptChar_of_slashes {z : Str} (h : ∀ c ∈ z, c = slash) : z.filter keptChar = [] := by
  rw [List.filter_eq_nil_iff]
  intro c hc
  rw [h c hc]
  decide

theorem filter_keptChar_sanitizedText (t : Str) :
    (sanitizedText t).filter keptChar = t.filter keptChar := by
  rw [sanitizedText,List.filter_filter]
  apply List.filter_congr
  intro c _
  cases keptChar c <;> simp

/-- Texts without an empty segment end in a character that is kept. -/
theorem NoEmptySegment.getLast?_sanitized {t : Str} (h : NoEmptySegment (sanitizedText t)) :
    (sanitizedText t).getLast? = (t.filter keptChar).getLast? := by
  have hne : sanitizedText t ≠ [] := h.ne_nil
  obtain ⟨c,hlast⟩ : ∃ c, (sanitizedText t).getLast? = some c :=
    ⟨_,List.getLast?_eq_some_getLast hne⟩
  have hslash : c ≠ slash := fun he => h.getLast? (he ▸ hlast)
  have hkept : keptChar c = true := by
    have hmem := List.mem_of_getLast? hlast
    simpa [sanitizedText,hslash] using (List.mem_filter.mp hmem).2
  rw [hlast,← filter_keptChar_sanitizedText]
  exact (getLast?_filter hlast hkept).symm

end Ends

section Sanitize

/-- What sanitising a path does, read off its text. -/
theorem sanitizeRemotePath_iff {path t : Str} : sanitizeRemotePath path = .ok t ↔
    ∃ rest, trim path = remotePrefix ++ rest ∧
      NoEmptySegment (sanitizedText (trimMatches slash rest)) ∧
        t = remotePrefix ++ sanitizedText (trimMatches slash rest) := by
  unfold sanitizeRemotePath remoteRootSegments
  cases hp : stripPrefix remotePrefix (trim path) with
  | none =>
    constructor
    · intro h
      cases h
    · rintro ⟨rest,hrest,-⟩
      rw [hrest,stripPrefix_append] at hp
      cases hp
  | some rest =>
    have hrest : trim path = remotePrefix ++ rest := stripPrefix_eq_some.mp hp
    have hunique : ∀ rest', trim path = remotePrefix ++ rest' → rest' = rest := by
      intro rest' h
      exact List.append_cancel_left (h.symm.trans hrest)
    have hparts : (∃ rest', trim path = remotePrefix ++ rest' ∧
        NoEmptySegment (sanitizedText (trimMatches slash rest')) ∧
          t = remotePrefix ++ sanitizedText (trimMatches slash rest')) ↔
        NoEmptySegment (sanitizedText (trimMatches slash rest)) ∧
          t = remotePrefix ++ sanitizedText (trimMatches slash rest) := by
      constructor
      · rintro ⟨rest',h,hsan⟩
        rwa [hunique rest' h] at hsan
      · intro hsan
        exact ⟨rest,hrest,hsan⟩
    rw [hparts]
    dsimp only
    generalize trimMatches slash rest = body
    by_cases hbody : body = []
    · subst hbody
      constructor
      · intro h
        cases h
      · rintro ⟨hsan,-⟩
        exact absurd rfl hsan.ne_nil
    · rw [if_neg (by simpa using hbody)]
      cases hm : (body.splitOn slash).mapM sanitizeSegment with
      | error error =>
        constructor
        · intro h
          cases h
        · rintro ⟨hsan,-⟩
          rw [NoEmptySegment,splitOn_sanitizedText] at hsan
          rw [mapM_sanitizeSegment_iff.mpr ⟨rfl,hsan⟩] at hm
          cases hm
      | ok segments =>
        obtain ⟨hsegments,hsan⟩ := mapM_sanitizeSegment_iff.mp hm
        rw [← splitOn_sanitizedText] at hsegments
        have hne : segments ≠ [] := hsegments ▸ List.splitOn_ne_nil slash _
        have hbuild : buildRemotePath segments = .ok (remotePrefix ++ sanitizedText body) := by
          rw [buildRemotePath,if_neg (by simpa using hne),hsegments,List.intercalate_splitOn]
        change buildRemotePath segments = .ok t ↔ _
        rw [hbuild,Except.ok.injEq,NoEmptySegment,← hsegments]
        exact ⟨fun h => ⟨hsan,h.symm⟩,fun h => h.2.symm⟩

/-- Sanitising makes no text longer than it is trimmed. -/
theorem length_sanitizeRemotePath_le {path t : Str} (h : sanitizeRemotePath path = .ok t) :
    t.length ≤ (trim path).length := by
  obtain ⟨rest,hrest,-,rfl⟩ := sanitizeRemotePath_iff.mp h
  obtain ⟨before,after,-,-,hparts⟩ := trimMatches_parts rest
  have hsan := length_sanitizedText_le (trimMatches slash rest)
  have hlength : rest.length = before.length+(trimMatches slash rest).length+after.length := by
    conv_lhs => rw [hparts]
    simp [Nat.add_assoc]
  rw [hrest,List.length_append,List.length_append]
  omega

/-- The end of a sanitised path is the last character kept of the text it comes from. -/
theorem sanitizeRemotePath_getLast? {path t : Str} (h : sanitizeRemotePath path = .ok t) :
    t.getLast? = ((trim path).filter keptChar).getLast? := by
  obtain ⟨rest,hrest,hsan,rfl⟩ := sanitizeRemotePath_iff.mp h
  obtain ⟨before,after,hbefore,hafter,hparts⟩ := trimMatches_parts rest
  have hfilter : rest.filter keptChar = (trimMatches slash rest).filter keptChar := by
    conv_lhs => rw [hparts]
    simp [filter_keptChar_of_slashes hbefore,filter_keptChar_of_slashes hafter]
  have hkept : (trimMatches slash rest).filter keptChar ≠ [] := by
    intro he
    have hlast := hsan.getLast?_sanitized
    rw [he,List.getLast?_nil,List.getLast?_eq_none_iff] at hlast
    exact hsan.ne_nil hlast
  rw [hrest,List.filter_append,hfilter,List.getLast?_append_of_ne_nil _ hsan.ne_nil,
    List.getLast?_append_of_ne_nil _ hkept,hsan.getLast?_sanitized]

theorem NoEmptySegment.trimmed {t : Str} (h : NoEmptySegment t) : Trimmed t := by
  refine ⟨fun hhead => ?_,h.getLast?⟩
  obtain ⟨rest,rfl⟩ := List.head?_eq_some_iff.mp hhead
  apply h
  rw [List.splitOn_cons_eq_if_modifyHead,if_pos (beq_self_eq_true _)]
  exact List.mem_cons_self

/-- Below its prefix a path as the mapping leaves it has nothing to sanitise. -/
theorem IsRemotePath.body {t : Str} (h : IsRemotePath t) :
    ∃ body, t = remotePrefix ++ body ∧ NoEmptySegment body ∧ sanitizedText body = body := by
  obtain ⟨segments,hne,hs,rfl⟩ := h
  have hsplit := splitOn_intercalate_plain hne hs
  refine ⟨[slash].intercalate segments,remotePath_eq hne,?_,?_⟩
  · rw [NoEmptySegment,hsplit]
    intro hmem
    exact (hs [] hmem).1 rfl
  · have hmap : segments.map (List.filter keptChar) = segments := by
      conv_rhs => rw [← List.map_id segments]
      apply List.map_congr_left
      intro segment hsegment
      exact List.filter_eq_self.mpr (hs segment hsegment).2
    have hjoin := @List.intercalate_splitOn _ (sanitizedText ([slash].intercalate segments)) _ _ slash
    rw [splitOn_sanitizedText,hsplit,hmap] at hjoin
    exact hjoin.symm

/-- A path as the mapping leaves it is sanitised to itself unless it ends in white space. -/
theorem IsRemotePath.sanitize_iff {t : Str} (h : IsRemotePath t) :
    sanitizeRemotePath t = .ok t ↔ t.getLast?.any isWhitespace = false := by
  obtain ⟨body,rfl,hsan,hkept⟩ := h.body
  have hne : remotePrefix ++ body ≠ [] := List.append_ne_nil_of_left_ne_nil (by decide) body
  have hfront : (remotePrefix ++ body).dropWhile isWhitespace = remotePrefix ++ body :=
    List.dropWhile_cons_of_neg (by decide)
  constructor
  · intro h
    by_contra hblank
    rw [Bool.not_eq_false,List.getLast?_eq_some_getLast hne,Option.any_some] at hblank
    -- a blank at the end is lost
    have hlength := length_sanitizeRemotePath_le h
    rw [trim,hfront] at hlength
    have hwhole : (remotePrefix ++ body).rdropWhile isWhitespace = remotePrefix ++ body :=
      (List.rdropWhile_prefix _ _).eq_of_length_le hlength
    exact List.rdropWhile_eq_self_iff.mp hwhole hne hblank
  · intro hblank
    have hwhole : (remotePrefix ++ body).rdropWhile isWhitespace = remotePrefix ++ body := by
      apply List.rdropWhile_eq_self_iff.mpr
      intro hne
      rw [List.getLast?_eq_some_getLast hne,Option.any_some] at hblank
      simp [hblank]
    rw [sanitizeRemotePath_iff]
    refine ⟨body,by rw [trim,hfront,hwhole],?_,?_⟩
    · rwa [hsan.trimmed.trimMatches,hkept]
    · rw [hsan.trimmed.trimMatches,hkept]

end Sanitize

section Local

theorem eq_map_of_mapM_ok {α β ε : Type*} {f : α → Except ε β} {g : α → β}
    (hf : ∀ a b, f a = .ok b → b = g a) {xs : List α} {ys : List β} (h : xs.mapM f = .ok ys) :
    ys = xs.map g := by
  induction xs generalizing ys with
  | nil =>
    cases h
    rfl
  | cons x xs ih =>
    rw [List.mapM_cons] at h
    cases hx : f x with
    | error e =>
      rw [hx] at h
      cases h
    | ok b =>
      cases hxs : xs.mapM f with
      | error e =>
        rw [hx,hxs] at h
        cases h
      | ok bs =>
        rw [hx,hxs] at h
        cases h
        rw [List.map_cons,hf x b hx,ih hxs]

theorem flatten_splitOnP (p : Char → Bool) (path : Str) :
    (path.splitOnP p).flatten = path.filter fun c => !p c := by
  induction path with
  | nil => simp [List.splitOnP_nil]
  | cons c path ih =>
    obtain ⟨first,rest,hsplit⟩ := List.exists_cons_of_ne_nil (List.splitOnP_ne_nil p path)
    rw [hsplit,List.flatten_cons] at ih
    by_cases hc : p c = true
    · simp [List.splitOnP_cons_eq_if_modifyHead,hc,hsplit,ih]
    · simp [List.splitOnP_cons_eq_if_modifyHead,hc,hsplit,ih]

theorem flatten_filter_isEmpty (texts : List Str) :
    (texts.filter fun text => !text.isEmpty).flatten = texts.flatten := by
  induction texts with
  | nil => rfl
  | cons text texts ih => cases text <;> simp [ih]

/-- The segments of a local path hold the characters of it that are kept. -/
theorem flatten_splitLocalSegments {path : Str} {segments : List Str}
    (h : splitLocalSegments path = .ok segments) : segments.flatten = path.filter keptChar := by
  have hmap := eq_map_of_mapM_ok (g := List.filter keptChar) (fun segment t ht => ?_) h
  · rw [hmap,← List.filter_flatten,flatten_filter_isEmpty,flatten_splitOnP,List.filter_filter]
    apply List.filter_congr
    intro c _
    by_cases hc : c = '\\' ∨ c = slash
    · rcases hc with rfl | rfl <;> decide
    · simp only [not_or] at hc
      simp [hc.1,hc.2]
  · split at ht
    · cases ht
    · exact (sanitizeSegment_ok ht).1

theorem asciiAlphabetic_kept {c : Char} (h : isAsciiAlphabetic c = true) :
    keptChar c = true ∧ isWhitespace c = false ∧ isWhitespace (asciiUpper c) = false := by
  have hn : (97 ≤ c.toNat ∧ c.toNat ≤ 122) ∨ (65 ≤ c.toNat ∧ c.toNat ≤ 90) := by
    simp only [isAsciiAlphabetic,Bool.or_eq_true,Bool.and_eq_true,decide_eq_true_eq] at h
    exact h
  rw [← Char.ofNat_toNat c]
  generalize c.toNat = n at hn
  rcases hn with ⟨hl,hu⟩ | ⟨hl,hu⟩
  · interval_cases n <;> decide
  · interval_cases n <;> decide

theorem isWindowsDrivePath_iff {path : Str} : isWindowsDrivePath path = true ↔
    ∃ letter separator rest, path = letter :: ':' :: separator :: rest ∧
      isAsciiAlphabetic letter = true ∧ (separator = '\\' ∨ separator = slash) := by
  constructor
  · intro h
    unfold isWindowsDrivePath at h
    split at h
    · simp only [Bool.and_eq_true,Bool.or_eq_true,beq_iff_eq] at h
      exact ⟨_,_,_,rfl,h⟩
    · cases h
  · rintro ⟨letter,separator,rest,rfl,h⟩
    simpa [isWindowsDrivePath] using h

/-- A local path without a segment is one of which no character is kept; else its last segment
ends as it does, but for the case of a drive letter. -/
theorem localPathSegments_getLast? {localPath : Str} {segments : List Str}
    (h : localPathSegments localPath = .ok segments) :
    (segments = [] ↔ (trim localPath).filter keptChar = []) ∧
      (segments.flatten.getLast?.any isWhitespace =
        ((trim localPath).filter keptChar).getLast?.any isWhitespace) := by
  have hplain := localPathSegments_ok h
  have hnil : segments = [] ↔ segments.flatten = [] := by
    refine ⟨fun he => by simp [he],fun he => List.eq_nil_iff_forall_not_mem.mpr fun s hs => ?_⟩
    exact (hplain s hs).1 (List.flatten_eq_nil_iff.mp he s hs)
  unfold localPathSegments at h
  generalize trim localPath = trimmed at h ⊢
  simp only at h
  split at h
  · cases h
  split at h
  · cases h
  split at h
  · rename_i hw
    obtain ⟨letter,separator,rest,rfl,hletter,hseparator⟩ := isWindowsDrivePath_iff.mp hw
    obtain ⟨hkeptLetter,hblank,hblankUpper⟩ := asciiAlphabetic_kept hletter
    have hkept : (letter :: ':' :: separator :: rest).filter keptChar =
        letter :: rest.filter keptChar := by
      have hsep : keptChar separator = false := by
        rcases hseparator with rfl | rfl <;> decide
      have hcolon : keptChar ':' = false := by decide
      simp [hkeptLetter,hcolon,hsep]
    rw [hkept]
    cases hs : splitLocalSegments rest with
    | error error =>
      simp only [List.drop_succ_cons,List.drop_zero,hs] at h
      cases h
    | ok below =>
      simp only [List.drop_succ_cons,List.drop_zero,hs] at h
      cases h
      have hflatten := flatten_splitLocalSegments hs
      refine ⟨by simp,?_⟩
      rw [List.flatten_cons,hflatten]
      generalize rest.filter keptChar = tail
      cases tail with
      | nil => simp [hblank,hblankUpper]
      | cons c tail => simp [List.getLast?_cons]
  · split at h
    · rename_i rest hrest
      obtain rfl := stripPrefix_eq_some.mp hrest
      have hflatten := flatten_splitLocalSegments h
      have hkept : ([slash] ++ rest).filter keptChar = rest.filter keptChar := by
        rw [List.filter_append,filter_keptChar_of_slashes (by simp),List.nil_append]
      rw [hkept,← hflatten]
      exact ⟨hnil,rfl⟩
    · cases h

end Local

theorem buildRemotePath_getLast? {segments : List Str} {t : Str}
    (hs : ∀ s ∈ segments, PlainSegment s) (h : buildRemotePath segments = .ok t) :
    t.getLast? = segments.flatten.getLast? := by
  unfold buildRemotePath at h
  split at h
  · cases h
  rename_i hne
  cases h
  induction segments using List.reverseRecOn with
  | nil => simp at hne
  | append_singleton front segment _ =>
    have hsegment : segment ≠ [] := (hs segment (by simp)).1
    rw [List.flatten_append,List.flatten_singleton,List.getLast?_append_of_ne_nil _ hsegment]
    by_cases hfront : front = []
    · subst hfront
      rw [List.nil_append,List.intercalate_singleton,
        List.getLast?_append_of_ne_nil _ hsegment]
    · rw [intercalate_snoc hfront,← List.append_assoc,List.getLast?_append_of_ne_nil _ (by simp),
        List.getLast?_cons_of_ne_nil hsegment]

/-- The end of a canonical path is that of its last segment. -/
theorem canonicalRemotePath_blank_iff {remoteRoot localPath : Str}
    {remotePathOverride : Option Str} {t : Str}
    (h : canonicalRemotePath remoteRoot localPath remotePathOverride = .ok t) :
    t.getLast?.any isWhitespace = true ↔
      KeepsBlankEnd (canonicalSource remoteRoot localPath remotePathOverride) := by
  unfold canonicalRemotePath at h
  unfold canonicalSource KeepsBlankEnd
  cases hover : remotePathOverride.filter fun value => !(trim value).isEmpty with
  | some overridePath =>
    rw [hover] at h
    rw [sanitizeRemotePath_getLast? h]
  | none =>
    rw [hover] at h
    cases hr : remoteRootSegments remoteRoot with
    | error error =>
      rw [hr] at h
      cases h
    | ok remoteSegments =>
      cases hl : localPathSegments localPath with
      | error error =>
        rw [hr,hl] at h
        cases h
      | ok localSegments =>
        rw [hr,hl] at h
        have hbuild : buildRemotePath (remoteSegments ++ localSegments) = .ok t := h
        obtain ⟨hempty,hend⟩ := localPathSegments_getLast? hl
        dsimp only
        by_cases hkept : (trim localPath).filter keptChar = []
        · have hsan : sanitizeRemotePath remoteRoot = .ok t := by
            rw [hempty.mpr hkept,List.append_nil] at hbuild
            rw [sanitizeRemotePath,hr]
            exact hbuild
          rw [if_pos hkept,sanitizeRemotePath_getLast? hsan]
        · have hlocal : localSegments ≠ [] := fun he => hkept (hempty.mp he)
          rw [if_neg hkept,← hend,buildRemotePath_getLast? (fun s hs => ?_) hbuild,
            List.flatten_append,List.getLast?_append_of_ne_nil]
          · intro he
            obtain ⟨s,hs⟩ := List.exists_mem_of_ne_nil _ hlocal
            exact (localPathSegments_ok hl s hs).1 (List.flatten_eq_nil_iff.mp he s hs)
          · rcases List.mem_append.mp hs with hs | hs
            · exact (remoteRootSegments_ok hr).2 s hs
            · exact localPathSegments_ok hl s hs

/-- A result of sanitising, and a canonical path, is sanitised to itself exactly when the last
character kept of the text it comes from is not white space. -/
theorem sanitizeRemotePath_projects_iff (path remoteRoot localPath : Str)
    (remotePathOverride : Option Str) :
    (∀ t, sanitizeRemotePath path = .ok t →
      (sanitizeRemotePath t = .ok t ↔ ¬ KeepsBlankEnd path)) ∧
    ∀ t, canonicalRemotePath remoteRoot localPath remotePathOverride = .ok t →
      (sanitizeRemotePath t = .ok t ↔
        ¬ KeepsBlankEnd (canonicalSource remoteRoot localPath remotePathOverride)) := by
  refine ⟨fun t h => ?_,fun t h => ?_⟩
  · rw [(sanitizeRemotePath_ok h).sanitize_iff,sanitizeRemotePath_getLast? h,KeepsBlankEnd,
      Bool.not_eq_true]
  · rw [(canonicalRemotePath_ok h).sanitize_iff,← canonicalRemotePath_blank_iff h,
      Bool.not_eq_true]

/-- Paths whose ends are kept are sanitised to themselves. -/
theorem plainPaths_project :
    sanitizeRemotePath "disk:/B/a".toList = .ok "disk:/B/a".toList ∧
      sanitizeRemotePath "disk:/B/C/Data".toList = .ok "disk:/B/C/Data".toList :=
  have hplain := sanitizeRemotePath_projects_iff " disk:/B/a:/ ".toList "disk:/B".toList
    "C:\\Data\\ ".toList none
  ⟨(hplain.1 _ (by decide)).mpr (by decide),(hplain.2 _ (by decide)).mpr (by decide)⟩

/-- A blank before the last separator is trimmed the second time only. -/
theorem blankEnd_not_projected : ¬ ((∀ path t, sanitizeRemotePath path = .ok t →
      sanitizeRemotePath t = .ok t) ∧
    ∀ remoteRoot localPath remotePathOverride t,
      canonicalRemotePath remoteRoot localPath remotePathOverride = .ok t →
        sanitizeRemotePath t = .ok t) := by
  rintro ⟨hpath,-⟩
  have hblank := hpath "disk:/a /".toList "disk:/a ".toList (by decide)
  have htrimmed : sanitizeRemotePath "disk:/a ".toList = .ok "disk:/a".toList := by decide
  rw [htrimmed] at hblank
  exact absurd hblank (by decide)

end YaDiskSync
