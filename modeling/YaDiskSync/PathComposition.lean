import YaDiskSync.Scanner

/-! When the remote path of an entry is its directory's and one segment more. The whole path is
trimmed before its segments are sanitised, so white space at the end of a name is kept below it
and lost on it. -/
namespace YaDiskSync

open SepPath

/-- What sanitising keeps of a path. -/
def sanitizedText (t : Str) : Str := t.filter fun c => keptChar c || c == slash

theorem sanitizedText_append (s t : Str) :
    sanitizedText (s ++ t) = sanitizedText s ++ sanitizedText t := List.filter_append ..

@[simp] theorem sanitizedText_slash (t : Str) :
    sanitizedText (slash :: t) = slash :: sanitizedText t := List.filter_cons_of_pos (by simp)

theorem length_sanitizedText_le (t : Str) : (sanitizedText t).length ≤ t.length :=
  List.length_filter_le _ _

/-- Sanitising the segments is sanitising the text. -/
theorem splitOn_sanitizedText (t : Str) :
    (sanitizedText t).splitOn slash = (t.splitOn slash).map (List.filter keptChar) := by
  induction t with
  | nil => rfl
  | cons c t ih =>
    by_cases hc : c = slash
    · subst hc
      rw [sanitizedText_slash,List.splitOn_cons_eq_if_modifyHead,
        List.splitOn_cons_eq_if_modifyHead,if_pos (beq_self_eq_true _),
        if_pos (beq_self_eq_true _),ih]
      rfl
    · have hsplit : (c :: t).splitOn slash = (t.splitOn slash).modifyHead (List.cons c) := by
        rw [List.splitOn_cons_eq_if_modifyHead,if_neg (by simpa using hc)]
      obtain ⟨x,xs,hx⟩ := List.exists_cons_of_ne_nil (List.splitOn_ne_nil slash t)
      rw [hsplit,hx,List.modifyHead_cons]
      rw [hx,List.map_cons] at ih
      by_cases hk : keptChar c = true
      · have hsan : sanitizedText (c :: t) = c :: sanitizedText t :=
          List.filter_cons_of_pos (by simp [hk])
        rw [hsan,List.splitOn_cons_eq_if_modifyHead,if_neg (by simpa using hc),ih,
          List.modifyHead_cons,List.map_cons,List.filter_cons_of_pos hk]
      · have hsan : sanitizedText (c :: t) = sanitizedText t :=
          List.filter_cons_of_neg (by simp [hk,hc])
        rw [hsan,ih,List.map_cons,List.filter_cons_of_neg hk]

theorem mapM_sanitizeSegment_iff {xs ys : List Str} : xs.mapM sanitizeSegment = .ok ys ↔
    ys = xs.map (List.filter keptChar) ∧ [] ∉ ys := by
  induction xs generalizing ys with
  | nil =>
    constructor
    · intro h
      cases h
      simp
    · rintro ⟨rfl,-⟩
      rfl
  | cons x xs ih =>
    rw [List.mapM_cons,sanitizeSegment]
    by_cases hx : x.filter keptChar = []
    · simp only [hx,List.isEmpty_nil,if_true,List.map_cons]
      constructor
      · intro h
        cases h
      · rintro ⟨rfl,h⟩
        exact absurd List.mem_cons_self h
    · have hne : (x.filter keptChar).isEmpty = false := by simpa using hx
      simp only [hne,Bool.false_eq_true,if_false,List.map_cons]
      cases hxs : xs.mapM sanitizeSegment with
      | error e =>
        constructor
        · intro h
          cases h
        · rintro ⟨rfl,h⟩
          have hrest := ih.2 ⟨rfl,fun hm => h (List.mem_cons_of_mem _ hm)⟩
          rw [hxs] at hrest
          cases hrest
      | ok zs =>
        obtain ⟨hz,hmem⟩ := ih.1 hxs
        constructor
        · intro h
          cases h
          refine ⟨by rw [hz],fun hm => ?_⟩
          rcases List.mem_cons.1 hm with h | h
          · exact hx h.symm
          · exact hmem h
        · rintro ⟨rfl,-⟩
          rw [← hz]
          rfl

/-- No segment is empty. -/
def NoEmptySegment (t : Str) : Prop := [] ∉ t.splitOn slash

/-- The remote path of an entry, read off its relative path. -/
theorem remotePathForRelative_iff {canonical relative path : Str} (hc : IsRemotePath canonical) :
    remotePathForRelative canonical relative = .ok path ↔
      if trimmedSuffix (replaceChar '\\' slash relative) = [] then path = canonical
      else NoEmptySegment (sanitizedText (trimmedSuffix (replaceChar '\\' slash relative))) ∧
        path = canonical ++ slash ::
          sanitizedText (trimmedSuffix (replaceChar '\\' slash relative)) := by
  obtain ⟨segments,hne,hs,rfl⟩ := hc
  have hbase : IsRemotePath (extend slash "disk:".toList segments) := ⟨segments,hne,hs,rfl⟩
  have hbuild : buildRemotePath segments = .ok (extend slash "disk:".toList segments) := by
    rw [buildRemotePath,if_neg (by simpa using hne),remotePath_eq hne]
  rw [remotePathForRelative,hbase.trimEnd,sanitizeRemotePath,remoteRootSegments_below hne hs]
  by_cases ht : trimmedSuffix (replaceChar '\\' slash relative) = []
  · rw [if_pos ht,if_pos ht]
    change buildRemotePath segments = _ ↔ _
    rw [hbuild,Except.ok.injEq]
    exact eq_comm
  · rw [if_neg ht,if_neg ht]
    generalize trimmedSuffix (replaceChar '\\' slash relative) = u
    have happend : ∀ rest, buildRemotePath (segments ++ rest) =
        .ok (extend slash (extend slash "disk:".toList segments) rest) := by
      intro rest
      rw [buildRemotePath,if_neg (by simp [hne]),← extend_append,remotePath_eq (by simp [hne])]
    cases hm : (u.splitOn slash).mapM sanitizeSegment with
    | error e =>
      constructor
      · intro h
        cases h
      · rintro ⟨hnoempty,-⟩
        rw [NoEmptySegment,splitOn_sanitizedText] at hnoempty
        rw [mapM_sanitizeSegment_iff.2 ⟨rfl,hnoempty⟩] at hm
        cases hm
    | ok rest =>
      obtain ⟨hrest,hnoempty⟩ := mapM_sanitizeSegment_iff.1 hm
      rw [← splitOn_sanitizedText] at hrest
      change buildRemotePath (segments ++ rest) = _ ↔ _
      rw [happend,hrest,extend_splitOn,Except.ok.injEq,NoEmptySegment,← hrest]
      constructor
      · exact fun h => ⟨hnoempty,h.symm⟩
      · exact fun h => h.2.symm

section Trimming

theorem trimMatches_parts (s : Str) : ∃ before after, (∀ c ∈ before, c = slash) ∧
    (∀ c ∈ after, c = slash) ∧ s = before ++ trimMatches slash s ++ after := by
  refine ⟨s.takeWhile (· == slash),(trimStartMatches slash s).rtakeWhile (· == slash),?_,?_,?_⟩
  · exact fun c hc => by simpa using List.mem_takeWhile_imp hc
  · exact fun c hc => by simpa using List.mem_rtakeWhile_imp hc
  · rw [trimMatches,trimEndMatches,List.append_assoc,List.rdropWhile_append_rtakeWhile,
      trimStartMatches,List.takeWhile_append_dropWhile]

theorem trimMatches_of_slashes {before after : Str} (x : Str) (hb : ∀ c ∈ before, c = slash)
    (ha : ∀ c ∈ after, c = slash) :
    trimMatches slash (before ++ x ++ after) = trimMatches slash x := by
  have hstart : ∀ t : Str, trimStartMatches slash (before ++ t) = trimStartMatches slash t := by
    intro t
    rw [trimStartMatches,List.dropWhile_append_of_pos (by simpa using hb)]
    rfl
  rw [trimMatches,trimMatches,List.append_assoc,hstart]
  by_cases hx : ∀ c ∈ x, c = slash
  · have hall : ∀ c ∈ x ++ after, c = slash := fun c hc =>
      (List.mem_append.1 hc).elim (hx c) (ha c)
    have hnil : ∀ t : Str, (∀ c ∈ t, c = slash) → trimStartMatches slash t = [] := fun t ht =>
      List.dropWhile_eq_nil_iff.2 (by simpa using ht)
    rw [hnil _ hall,hnil _ hx]
  · have happend : trimStartMatches slash (x ++ after) = trimStartMatches slash x ++ after := by
      rw [trimStartMatches,List.dropWhile_append]
      have hne : (x.dropWhile (· == slash)).isEmpty = false := by
        rw [List.isEmpty_eq_false_iff]
        intro h
        exact hx (by simpa using List.dropWhile_eq_nil_iff.1 h)
      rw [hne]
      rfl
    rw [happend,trimEndMatches_append_of_forall ha]

theorem rdropWhile_append_of_ne_nil {p : Char → Bool} {s t : Str} (h : t.rdropWhile p ≠ []) :
    (s ++ t).rdropWhile p = s ++ t.rdropWhile p := by
  rw [List.rdropWhile,List.reverse_append,List.dropWhile_append]
  rw [List.rdropWhile] at h ⊢
  have hne : (t.reverse.dropWhile p).isEmpty = false := by
    simpa [List.isEmpty_eq_false_iff] using h
  rw [hne]
  simp

/-- A text without slashes at its ends. -/
def Trimmed (t : Str) : Prop := t.head? ≠ some slash ∧ t.getLast? ≠ some slash

theorem trimmed_trimMatches (s : Str) : Trimmed (trimMatches slash s) := by
  constructor
  · intro h
    have hpre := trimEndMatches_isPrefix slash (trimStartMatches slash s)
    obtain ⟨t,ht⟩ := List.head?_eq_some_iff.1 h
    obtain ⟨rest,hrest⟩ := hpre
    rw [← trimMatches,ht,List.cons_append] at hrest
    have hnot := List.head?_dropWhile_not (· == slash) s
    rw [← trimStartMatches,← hrest,List.head?_cons] at hnot
    simp at hnot
  · intro h
    have hne : trimMatches slash s ≠ [] := by
      rintro he
      rw [he] at h
      cases h
    rw [List.getLast?_eq_some_getLast hne,Option.some_inj] at h
    exact trimEndMatches_getLast hne h

theorem Trimmed.trimMatches {t : Str} (h : Trimmed t) : trimMatches slash t = t := by
  have hstart : trimStartMatches slash t = t := by
    cases t with
    | nil => rfl
    | cons c t =>
      have hc : c ≠ slash := fun he => h.1 (by rw [he]; rfl)
      exact List.dropWhile_cons_of_neg (by simpa using hc)
  rw [YaDiskSync.trimMatches,hstart,trimEndMatches_of_getLast h.2]

/-- Of a text without slashes at its ends trimming leaves nothing when it is white space. -/
theorem Trimmed.trimmedSuffix_eq_nil {t : Str} (h : Trimmed t) :
    trimmedSuffix t = [] ↔ ∀ c ∈ t, isWhitespace c = true := by
  rw [← List.rdropWhile_eq_nil_iff]
  constructor
  · intro ht
    by_contra hne
    have hall : ∀ c ∈ t.rdropWhile isWhitespace, c = slash := by
      simpa [trimmedSuffix,trimEndMatches,List.rdropWhile_eq_nil_iff] using ht
    obtain ⟨c,rest,hc⟩ := List.exists_cons_of_ne_nil hne
    obtain ⟨tail,htail⟩ := List.rdropWhile_prefix isWhitespace t
    apply h.1
    rw [← htail,hc,List.cons_append,List.head?_cons,hall c (by rw [hc]; exact List.mem_cons_self)]
  · intro ht
    rw [trimmedSuffix,ht]
    rfl

/-- Trimming below a text that stays. -/
theorem trimmedSuffix_below {base slashes t : Str} (hbase : base.getLast? ≠ some slash)
    (hs : ∀ c ∈ slashes, c = slash) (hne : slashes ≠ []) (ht : Trimmed t) :
    trimmedSuffix (base ++ slashes ++ t) =
      if trimmedSuffix t = [] then base else base ++ slashes ++ trimmedSuffix t := by
  obtain ⟨front,last,rfl⟩ : ∃ front last, slashes = front ++ [last] :=
    ⟨_,_,(List.dropLast_append_getLast hne).symm⟩
  have hlast : last = slash := hs last (by simp)
  subst hlast
  have hdrop : (base ++ (front ++ [slash]) ++ t).rdropWhile isWhitespace =
      base ++ (front ++ [slash]) ++ t.rdropWhile isWhitespace := by
    have := rdropWhile_append_cons isWhitespace_slash (base ++ front) t
    simpa using this
  rw [trimmedSuffix,hdrop]
  by_cases hnil : trimmedSuffix t = []
  · rw [if_pos hnil]
    have hspace : t.rdropWhile isWhitespace = [] :=
      List.rdropWhile_eq_nil_iff.2 (ht.trimmedSuffix_eq_nil.1 hnil)
    rw [hspace,List.append_nil,trimEndMatches_append_of_forall hs,trimEndMatches_of_getLast hbase]
  · rw [if_neg hnil]
    exact trimEndMatches_append hnil

end Trimming

section Sanitized

theorem slash_mem_sanitizedText {t : Str} : slash ∈ sanitizedText t ↔ slash ∈ t := by
  simp [sanitizedText]

theorem count_slash_sanitizedText (t : Str) : (sanitizedText t).count slash = t.count slash :=
  List.count_filter (by simp)

theorem sanitizedText_of_slashes {z : Str} (h : ∀ c ∈ z, c = slash) : sanitizedText z = z :=
  List.filter_eq_self.2 fun c hc => by simp [h c hc]

theorem NoEmptySegment.ne_nil {t : Str} (h : NoEmptySegment t) : t ≠ [] := by
  rintro rfl
  exact h (by simp)

theorem noEmptySegment_append {s t : Str} : NoEmptySegment (s ++ slash :: t) ↔
    NoEmptySegment s ∧ NoEmptySegment t := by
  rw [NoEmptySegment,List.splitOn_append_cons_self,List.mem_append,not_or]
  rfl

/-- Nothing empty is between segments. -/
theorem NoEmptySegment.separator {s z t : Str} (hz : ∀ c ∈ z, c = slash) (hne : z ≠ [])
    (h : NoEmptySegment (s ++ z ++ t)) : z = [slash] := by
  obtain ⟨c,z,rfl⟩ := List.exists_cons_of_ne_nil hne
  rw [hz c List.mem_cons_self] at *
  cases z with
  | nil => rfl
  | cons d z =>
    rw [hz d (by simp),List.append_assoc,List.cons_append,List.cons_append,
      noEmptySegment_append] at h
    have htail : NoEmptySegment ([] ++ slash :: (z ++ t)) := h.2
    exact absurd rfl (noEmptySegment_append.1 htail).1.ne_nil

theorem NoEmptySegment.getLast? {t : Str} (h : NoEmptySegment t) : t.getLast? ≠ some slash := by
  intro hl
  obtain ⟨front,rfl⟩ := List.getLast?_eq_some_iff.1 hl
  have hsplit : NoEmptySegment (front ++ slash :: []) := h
  exact (noEmptySegment_append.1 hsplit).2.ne_nil rfl

/-- One segment of a sanitised text is a plain one. -/
theorem plainSegment_sanitizedText {t : Str} (hne : sanitizedText t ≠ []) (ht : slash ∉ t) :
    PlainSegment (sanitizedText t) := by
  refine ⟨hne,fun c hc => ?_⟩
  obtain ⟨hm,hk⟩ := List.mem_filter.1 hc
  rcases Bool.or_eq_true_iff.1 hk with hk | hk
  · exact hk
  · exact absurd hm (by rw [beq_iff_eq.1 hk]; exact ht)

/-- The last separator of a text is where its last segment begins. -/
theorem eq_of_append_slash {a b c d : Str} (h : a ++ slash :: b = c ++ slash :: d)
    (hd : slash ∉ d) (hlen : c.length ≤ a.length) : a = c ∧ b = d := by
  rcases List.append_eq_append_iff.1 h with ⟨e,rfl,he⟩ | ⟨e,rfl,he⟩
  · have hnil : e = [] := by
      apply List.length_eq_zero_iff.1
      rw [List.length_append] at hlen
      omega
    subst hnil
    simpa using he
  · cases e with
    | nil => simpa using he.symm
    | cons x e =>
      rw [List.cons_append,List.cons.injEq] at he
      exact absurd (by rw [he.2]; simp) hd

end Sanitized

/-- What is white space at the end of a text is lost in sanitising it anyway. -/
def EndsPlainly (t : Str) : Prop := ∀ c ∈ t.rtakeWhile isWhitespace, keptChar c = false

/-- The last segment of a text is white space. -/
def EndsInBlank (t : Str) : Prop :=
  t ≠ [] ∧ ∀ c ∈ t.rtakeWhile (· != slash), isWhitespace c = true

section Ends

variable {t : Str}

theorem sanitizedText_whitespace : sanitizedText (t.rtakeWhile isWhitespace) = [] ↔
    EndsPlainly t := by
  rw [sanitizedText,List.filter_eq_nil_iff]
  refine forall₂_congr fun c hc => ?_
  have hw : isWhitespace c = true := List.mem_rtakeWhile_imp hc
  have hne : c ≠ slash := by
    rintro rfl
    rw [isWhitespace_slash] at hw
    cases hw
  simp [hne]

theorem sanitizedText_rdropWhile (t : Str) : sanitizedText t =
    sanitizedText (t.rdropWhile isWhitespace) ++ sanitizedText (t.rtakeWhile isWhitespace) := by
  rw [← sanitizedText_append,List.rdropWhile_append_rtakeWhile]

/-- Trimming a path that ends plainly changes nothing in what sanitising keeps of it. -/
theorem EndsPlainly.sanitizedText_trimmedSuffix (h : EndsPlainly t)
    (hne : NoEmptySegment (sanitizedText t)) :
    sanitizedText (trimmedSuffix t) = sanitizedText t := by
  have hsame : sanitizedText t = sanitizedText (t.rdropWhile isWhitespace) := by
    rw [sanitizedText_rdropWhile t,sanitizedText_whitespace.2 h,List.append_nil]
  have hend : (t.rdropWhile isWhitespace).getLast? ≠ some slash := by
    intro hl
    obtain ⟨front,hfront⟩ := List.getLast?_eq_some_iff.1 hl
    apply hne.getLast?
    rw [hsame,hfront,sanitizedText_append,sanitizedText_slash]
    simp [sanitizedText]
  rw [trimmedSuffix,trimEndMatches_of_getLast hend,hsame]

theorem endsPlainly_of_sanitizedText (h : sanitizedText (trimmedSuffix t) = sanitizedText t) :
    EndsPlainly t := by
  obtain ⟨rest,hrest⟩ := trimEndMatches_isPrefix slash (t.rdropWhile isWhitespace)
  rw [sanitizedText_rdropWhile t,← hrest,← trimmedSuffix,sanitizedText_append,
    List.append_assoc,List.self_eq_append_right] at h
  exact sanitizedText_whitespace.1 (List.append_eq_nil_iff.1 h).2

/-- A trimmed text that ends in a blank segment loses that segment. -/
theorem EndsInBlank.cases (h : EndsInBlank t) (ht : Trimmed t)
    (hne : NoEmptySegment (sanitizedText t)) : ∃ blank, slash ∉ blank ∧
      ((t = blank ∧ trimmedSuffix t = []) ∨ ∃ front, front ≠ [] ∧ t = front ++ slash :: blank ∧
        trimmedSuffix t = front) := by
  refine ⟨t.rtakeWhile (· != slash),fun hm => by simpa using List.mem_rtakeWhile_imp hm,?_⟩
  have hparts : t.rdropWhile (· != slash) ++ t.rtakeWhile (· != slash) = t :=
    List.rdropWhile_append_rtakeWhile
  have hall := h.2
  generalize t.rtakeWhile (· != slash) = blank at hall hparts ⊢
  rcases List.eq_nil_or_concat (t.rdropWhile (· != slash)) with hnil | ⟨front,last,hfront⟩
  · left
    rw [hnil,List.nil_append] at hparts
    exact ⟨hparts.symm,ht.trimmedSuffix_eq_nil.2 (by rw [← hparts]; exact hall)⟩
  · right
    have hlast : last = slash := by
      have hnot := List.rdropWhile_last_not (· != slash) t (by simp [hfront])
      simpa [hfront] using hnot
    subst hlast
    rw [hfront,List.concat_eq_append,List.append_assoc] at hparts
    have htext : t = front ++ slash :: blank := hparts.symm
    have hfne : front ≠ [] := by
      rintro rfl
      exact ht.1 (by rw [htext]; rfl)
    have hsan : NoEmptySegment (sanitizedText front) := by
      rw [htext,sanitizedText_append,sanitizedText_slash,noEmptySegment_append] at hne
      exact hne.1
    have hend : front.getLast? ≠ some slash := by
      intro hl
      obtain ⟨base,rfl⟩ := List.getLast?_eq_some_iff.1 hl
      apply hsan.getLast?
      rw [sanitizedText_append,sanitizedText_slash]
      simp [sanitizedText]
    refine ⟨front,hfne,htext,?_⟩
    have hblank : blank.rdropWhile isWhitespace = [] := List.rdropWhile_eq_nil_iff.2 hall
    rw [trimmedSuffix,htext,rdropWhile_append_cons isWhitespace_slash,hblank,
      trimEndMatches_append_of_forall (by simp),trimEndMatches_of_getLast hend]

/-- A text keeps its separators when its last segment is not blank. -/
theorem count_slash_trimmedSuffix (h : ¬ EndsInBlank t) :
    (trimmedSuffix t).count slash = t.count slash := by
  by_cases hnil : t = []
  · rw [hnil]
    rfl
  · have hparts : t.rdropWhile (· != slash) ++ t.rtakeWhile (· != slash) = t :=
      List.rdropWhile_append_rtakeWhile
    have hword : ¬ ∀ c ∈ t.rtakeWhile (· != slash), isWhitespace c = true := fun hall =>
      h ⟨hnil,hall⟩
    have hslash : ∀ c ∈ t.rtakeWhile (· != slash), c ≠ slash := fun c hc => by
      simpa using List.mem_rtakeWhile_imp hc
    generalize t.rtakeWhile (· != slash) = word at *
    generalize t.rdropWhile (· != slash) = front at *
    have hne : word.rdropWhile isWhitespace ≠ [] := fun h =>
      hword (List.rdropWhile_eq_nil_iff.1 h)
    have hkept : ∀ c ∈ word.rdropWhile isWhitespace, c ≠ slash := fun c hc =>
      hslash c ((List.rdropWhile_prefix _ _).subset hc)
    have hend : (front ++ word.rdropWhile isWhitespace).getLast? ≠ some slash := by
      rw [List.getLast?_append_of_ne_nil _ hne]
      exact fun hl => hkept slash (List.mem_of_getLast? hl) rfl
    rw [trimmedSuffix,← hparts,rdropWhile_append_of_ne_nil hne,trimEndMatches_of_getLast hend,
      List.count_append,List.count_append,
      List.count_eq_zero.2 fun hm => hkept slash hm rfl,
      List.count_eq_zero.2 fun hm => hslash slash hm rfl]

end Ends

section Names

variable {parents : List Str} {last : Str}

theorem trimmed_relativePathOf (names : List Str) : Trimmed (relativePathOf names) :=
  trimmed_trimMatches _

theorem replaceChar_relativePathOf (names : List Str) :
    replaceChar '\\' slash (relativePathOf names) = relativePathOf names := by
  have hnot : ∀ c ∈ relativePathOf names, c ≠ '\\' := by
    intro c hc
    have hm := (List.dropWhile_sublist _).subset ((List.rdropWhile_prefix _ _).subset hc)
    obtain ⟨d,-,rfl⟩ := List.mem_map.1 hm
    by_cases hd : d = '\\'
    · rw [if_pos hd]
      decide
    · rwa [if_neg hd]
  rw [replaceChar]
  exact (List.map_congr_left fun c hc => if_neg (hnot c hc)).trans (List.map_id _)

theorem intercalate_snoc (hne : parents ≠ []) : [slash].intercalate (parents ++ [last]) =
    [slash].intercalate parents ++ slash :: last := by
  have h : extend slash [] (parents ++ [last]) =
      extend slash (extend slash [] parents) [last] := extend_append [] parents [last]
  rw [extend_eq_intercalate _ (by simp),extend_eq_intercalate _ hne] at h
  simpa using h

/-- The relative path of an entry and that of its directory: a name of separators leaves nothing,
and what is between the two parts are separators. -/
theorem relativePathOf_snoc (hne : parents ≠ []) :
    (relativePathOf parents = [] ∧ relativePathOf (parents ++ [last]) = relativePathOf [last]) ∨
    (relativePathOf parents ≠ [] ∧ relativePathOf [last] = [] ∧
      relativePathOf (parents ++ [last]) = relativePathOf parents) ∨
    (relativePathOf parents ≠ [] ∧ relativePathOf [last] ≠ [] ∧ ∃ slashes : Str, slashes ≠ [] ∧
      (∀ c ∈ slashes, c = slash) ∧ relativePathOf (parents ++ [last]) =
        relativePathOf parents ++ slashes ++ relativePathOf [last]) := by
  have hboth : relativePathOf (parents ++ [last]) = trimMatches slash
      (replaceChar '\\' slash ([slash].intercalate parents) ++
        slash :: replaceChar '\\' slash last) := by
    rw [relativePathOf,intercalate_snoc hne]
    simp [replaceChar]
  have hlast : relativePathOf [last] = trimMatches slash (replaceChar '\\' slash last) := by
    simp [relativePathOf]
  have hparents : relativePathOf parents =
      trimMatches slash (replaceChar '\\' slash ([slash].intercalate parents)) := rfl
  rw [hboth,hlast,hparents]
  generalize replaceChar '\\' slash ([slash].intercalate parents) = front
  generalize replaceChar '\\' slash last = back
  obtain ⟨s₁,s₂,hs₁,hs₂,hfront⟩ := trimMatches_parts front
  obtain ⟨s₃,s₄,hs₃,hs₄,hback⟩ := trimMatches_parts back
  have hends := trimmed_trimMatches front
  have hback' := trimmed_trimMatches back
  generalize trimMatches slash front = q at *
  generalize trimMatches slash back = m at *
  subst hfront hback
  have hslashes : ∀ c ∈ s₂ ++ slash :: s₃, c = slash := by
    intro c hc
    rcases List.mem_append.1 hc with hc | hc
    · exact hs₂ c hc
    · rcases List.mem_cons.1 hc with hc | hc
      · exact hc
      · exact hs₃ c hc
  have htrim : trimMatches slash (s₁ ++ q ++ s₂ ++ slash :: (s₃ ++ m ++ s₄)) =
      trimMatches slash (q ++ (s₂ ++ slash :: s₃) ++ m) := by
    rw [← trimMatches_of_slashes (q ++ (s₂ ++ slash :: s₃) ++ m) hs₁ hs₄]
    simp
  rw [htrim]
  by_cases hq : q = []
  · left
    refine ⟨hq,?_⟩
    have h : trimMatches slash ((s₂ ++ slash :: s₃) ++ m ++ []) = trimMatches slash m :=
      trimMatches_of_slashes m hslashes (by simp)
    rw [hq,List.nil_append]
    rw [List.append_nil] at h
    exact h.trans hback'.trimMatches
  · by_cases hm : m = []
    · right; left
      refine ⟨hq,hm,?_⟩
      have h : trimMatches slash ([] ++ q ++ (s₂ ++ slash :: s₃)) = trimMatches slash q :=
        trimMatches_of_slashes q (by simp) hslashes
      rw [hm,List.append_nil]
      exact h.trans hends.trimMatches
    · right; right
      refine ⟨hq,hm,_,by simp,hslashes,?_⟩
      refine Trimmed.trimMatches ⟨?_,?_⟩
      · rw [List.append_assoc,List.head?_append_of_ne_nil _ hq]
        exact hends.1
      · rw [List.getLast?_append_of_ne_nil _ hm]
        exact hback'.2

/-- The segments that lead elsewhere. -/
def IsDots (segment : Str) : Prop := segment = ['.'] ∨ segment = ['.','.']

instance (segment : Str) : Decidable (IsDots segment) := inferInstanceAs (Decidable (_ ∨ _))

/-- A remote path is strictly below the root's, has no segment that is empty or leads elsewhere,
and is its directory's and one sanitised segment more. -/
structure Composes (canonical : Str) (names : List Str) (path : Str) : Prop where
  below : Beneath slash canonical path
  segments : ∀ segment ∈ path.splitOn slash, segment ≠ [] ∧ ¬ IsDots segment
  parent : ∀ parents last, names = parents ++ [last] → parents ≠ [] → ∃ parentPath segment,
    remotePathForRelative canonical (relativePathOf parents) = .ok parentPath ∧
    PlainSegment segment ∧ path = parentPath ++ slash :: segment

/-- Trimming leaves one segment of the entry's own name and takes nothing off its directory that
sanitising keeps. The one other case is a blank name in a directory that ends in a blank segment:
trimming takes both off the entry's path, and the directory's loses its own. -/
def AddsSegment (parents : List Str) (last : Str) : Prop :=
  (trimmedSuffix (relativePathOf [last]) ≠ [] ∧
    slash ∉ trimmedSuffix (relativePathOf [last]) ∧ EndsPlainly (relativePathOf parents)) ∨
  (relativePathOf [last] ≠ [] ∧ trimmedSuffix (relativePathOf [last]) = [] ∧
    EndsInBlank (relativePathOf parents))

/-- Trimming leaves something of the relative path; no segment of the root's path, and none that
sanitising leaves of the relative path, leads elsewhere; and the name of an entry of a directory
adds a segment. -/
structure MapsCleanly (canonical : Str) (names : List Str) : Prop where
  visible : trimmedSuffix (relativePathOf names) ≠ []
  canonical : ∀ segment ∈ canonical.splitOn slash, ¬ IsDots segment
  dots : ∀ segment ∈ (trimmedSuffix (relativePathOf names)).splitOn slash,
    ¬ IsDots (segment.filter keptChar)
  parent : ∀ parents last, names = parents ++ [last] → parents ≠ [] → AddsSegment parents last

/-- One text is another and one segment more; below the root it is a segment. -/
def OneMore (parent child : Str) : Prop := ∃ segment, PlainSegment segment ∧
  if parent = [] then sanitizedText child = segment
  else NoEmptySegment (sanitizedText parent) ∧
    sanitizedText child = sanitizedText parent ++ slash :: segment

/-- Below a directory that trimming takes off whole. -/
theorem oneMore_nil_iff {child : Str} (hsan : NoEmptySegment (sanitizedText child)) :
    OneMore [] child ↔ slash ∉ child := by
  constructor
  · rintro ⟨segment,hp,heq⟩ hm
    rw [if_pos rfl] at heq
    exact hp.slash_notMem (heq ▸ slash_mem_sanitizedText.2 hm)
  · intro hm
    exact ⟨_,plainSegment_sanitizedText hsan.ne_nil hm,by rw [if_pos rfl]⟩

theorem not_oneMore_self {t : Str} (hne : t ≠ []) : ¬ OneMore t t := by
  rintro ⟨segment,-,heq⟩
  rw [if_neg hne] at heq
  have hlen := congrArg List.length heq.2
  rw [List.length_append,List.length_cons] at hlen
  omega

theorem length_trimmedSuffix_sanitized_le (t : Str) :
    (sanitizedText (trimmedSuffix t)).length ≤ (sanitizedText t).length :=
  (((trimEndMatches_isPrefix _ _).trans (List.rdropWhile_prefix _ _)).sublist.filter _).length_le

/-- A name that trimming leaves something of. -/
theorem oneMore_below_iff {front name : Str}
    (hsan : NoEmptySegment (sanitizedText (front ++ slash :: name))) :
    OneMore (trimmedSuffix front) (front ++ slash :: name) ↔
      slash ∉ name ∧ EndsPlainly front := by
  rw [sanitizedText_append,sanitizedText_slash,noEmptySegment_append] at hsan
  rw [OneMore,sanitizedText_append,sanitizedText_slash]
  constructor
  · rintro ⟨segment,hp,heq⟩
    by_cases hnil : trimmedSuffix front = []
    · rw [if_pos hnil] at heq
      exact absurd (by rw [← heq]; simp) hp.slash_notMem
    · rw [if_neg hnil] at heq
      obtain ⟨hsame,hname⟩ := eq_of_append_slash heq.2 hp.slash_notMem
        (length_trimmedSuffix_sanitized_le front)
      refine ⟨fun hm => ?_,endsPlainly_of_sanitizedText hsame.symm⟩
      exact hp.slash_notMem (hname ▸ slash_mem_sanitizedText.2 hm)
  · rintro ⟨hm,hplain⟩
    have hsame := hplain.sanitizedText_trimmedSuffix hsan.1
    have hnil : trimmedSuffix front ≠ [] := by
      intro hnil
      rw [hnil] at hsame
      exact hsan.1.ne_nil hsame.symm
    refine ⟨_,plainSegment_sanitizedText hsan.2.ne_nil hm,?_⟩
    rw [if_neg hnil,hsame]
    exact ⟨hsan.1,rfl⟩

/-- A name that trimming takes off whole. -/
theorem oneMore_trimmed_iff {front : Str} (hq : Trimmed front) (hfront : front ≠ [])
    (hsan : NoEmptySegment (sanitizedText front)) :
    OneMore (trimmedSuffix front) front ↔ EndsInBlank front := by
  constructor
  · rintro ⟨segment,hp,heq⟩
    by_cases hnil : trimmedSuffix front = []
    · have hall := hq.trimmedSuffix_eq_nil.1 hnil
      exact ⟨hfront,fun c hc => hall c ((List.rtakeWhile_suffix _ _).subset hc)⟩
    · rw [if_neg hnil] at heq
      by_contra hblank
      have hcount := congrArg (List.count slash) heq.2
      rw [List.count_append,List.count_cons_self,count_slash_sanitizedText,
        count_slash_sanitizedText,count_slash_trimmedSuffix hblank] at hcount
      omega
  · intro hblank
    obtain ⟨blank,hm,⟨rfl,hnil⟩ | ⟨base,hbase,rfl,htrim⟩⟩ := hblank.cases hq hsan
    · rw [hnil]
      exact (oneMore_nil_iff hsan).2 hm
    · rw [sanitizedText_append,sanitizedText_slash,noEmptySegment_append] at hsan
      refine ⟨_,plainSegment_sanitizedText hsan.2.ne_nil hm,?_⟩
      rw [htrim,if_neg hbase,sanitizedText_append,sanitizedText_slash]
      exact ⟨hsan.1,rfl⟩

/-- What is left of an entry's relative path is one segment more than what is left of its
directory's. -/
theorem oneMore_snoc_iff (hne : parents ≠ [])
    (hchild : trimmedSuffix (relativePathOf (parents ++ [last])) ≠ [])
    (hsan : NoEmptySegment (sanitizedText (trimmedSuffix (relativePathOf (parents ++ [last]))))) :
    OneMore (trimmedSuffix (relativePathOf parents))
        (trimmedSuffix (relativePathOf (parents ++ [last]))) ↔ AddsSegment parents last := by
  unfold AddsSegment
  have hq := trimmed_relativePathOf parents
  have hm := trimmed_relativePathOf [last]
  rcases relativePathOf_snoc hne with ⟨hqnil,hr⟩ | ⟨hqne,hmnil,hr⟩ |
    ⟨hqne,hmne,slashes,hs,hall,hr⟩
  · rw [hr] at hchild hsan ⊢
    rw [hqnil]
    have hplain : EndsPlainly [] := fun c hc => absurd hc (by simp)
    have hblank : ¬ EndsInBlank [] := fun h => h.1 rfl
    simp only [hchild,hplain,hblank,ne_eq,not_false_eq_true,true_and,and_true,and_false,or_false]
    exact oneMore_nil_iff hsan
  · rw [hr] at hchild hsan ⊢
    rw [hmnil]
    have hnil : trimmedSuffix [] = [] := rfl
    simp only [hnil,ne_eq,not_true_eq_false,false_and,or_false,iff_false]
    exact not_oneMore_self hchild
  · have hbelow := trimmedSuffix_below hq.2 hall hs hm
    rw [hr] at hchild hsan ⊢
    rw [hbelow] at hchild hsan ⊢
    by_cases hnil : trimmedSuffix (relativePathOf [last]) = []
    · rw [if_pos hnil] at hchild hsan ⊢
      simp only [hnil,hmne,ne_eq,not_true_eq_false,not_false_eq_true,false_and,true_and,false_or]
      exact oneMore_trimmed_iff hq hqne hsan
    · rw [if_neg hnil] at hchild hsan ⊢
      have hone : slashes = [slash] := by
        rw [sanitizedText_append,sanitizedText_append,sanitizedText_of_slashes hall] at hsan
        exact hsan.separator hall hs
      rw [hone,List.append_assoc,List.singleton_append] at hsan ⊢
      simp only [hnil,ne_eq,not_false_eq_true,true_and,false_and,and_false,or_false]
      exact oneMore_below_iff hsan

theorem remotePathForRelative_names_iff {canonical path : Str} (hc : IsRemotePath canonical)
    (names : List Str) : remotePathForRelative canonical (relativePathOf names) = .ok path ↔
      if trimmedSuffix (relativePathOf names) = [] then path = canonical
      else NoEmptySegment (sanitizedText (trimmedSuffix (relativePathOf names))) ∧
        path = canonical ++ slash :: sanitizedText (trimmedSuffix (relativePathOf names)) := by
  rw [remotePathForRelative_iff hc,replaceChar_relativePathOf]

/-- The directory's remote path and one segment. -/
theorem parent_iff {canonical path : Str} (hc : IsRemotePath canonical) {child : Str}
    (hpath : path = canonical ++ slash :: sanitizedText child) (parents : List Str) :
    (∃ parentPath segment,
      remotePathForRelative canonical (relativePathOf parents) = .ok parentPath ∧
      PlainSegment segment ∧ path = parentPath ++ slash :: segment) ↔
      OneMore (trimmedSuffix (relativePathOf parents)) child := by
  subst hpath
  constructor
  · rintro ⟨parentPath,segment,hp,hplain,heq⟩
    rw [remotePathForRelative_names_iff hc] at hp
    refine ⟨segment,hplain,?_⟩
    by_cases hnil : trimmedSuffix (relativePathOf parents) = []
    · rw [if_pos hnil] at hp ⊢
      subst hp
      simpa using heq
    · rw [if_neg hnil] at hp ⊢
      rw [hp.2] at heq
      exact ⟨hp.1,by simpa using heq⟩
  · rintro ⟨segment,hplain,heq⟩
    by_cases hnil : trimmedSuffix (relativePathOf parents) = []
    · rw [if_pos hnil] at heq
      refine ⟨canonical,segment,?_,hplain,by rw [heq]⟩
      rw [remotePathForRelative_names_iff hc,if_pos hnil]
    · rw [if_neg hnil] at heq
      refine ⟨canonical ++ slash :: sanitizedText (trimmedSuffix (relativePathOf parents)),
        segment,?_,hplain,?_⟩
      · rw [remotePathForRelative_names_iff hc,if_neg hnil]
        exact ⟨heq.1,rfl⟩
      · rw [heq.2]
        simp

/-- The remote path of an entry composes exactly when trimming the whole path does no harm. -/
theorem remotePathForRelative_composes_iff {remoteRoot localPath : Str}
    {remotePathOverride : Option Str} {canonical : Str}
    (hcanonical : canonicalRemotePath remoteRoot localPath remotePathOverride = .ok canonical)
    {names : List Str} {path : Str}
    (hpath : remotePathForRelative canonical (relativePathOf names) = .ok path) :
    Composes canonical names path ↔ MapsCleanly canonical names := by
  have hc := canonicalRemotePath_ok hcanonical
  rw [remotePathForRelative_names_iff hc] at hpath
  by_cases hnil : trimmedSuffix (relativePathOf names) = []
  · rw [if_pos hnil] at hpath
    rw [hpath]
    exact ⟨fun h => absurd rfl h.below.ne,fun h => absurd hnil h.visible⟩
  rw [if_neg hnil] at hpath
  obtain ⟨hsan,hpath⟩ := hpath
  have hsegments : path.splitOn slash = canonical.splitOn slash ++
      ((trimmedSuffix (relativePathOf names)).splitOn slash).map (List.filter keptChar) := by
    rw [hpath,List.splitOn_append_cons_self,splitOn_sanitizedText]
  have hparent : ∀ parents last, names = parents ++ [last] → parents ≠ [] →
      ((∃ parentPath segment,
        remotePathForRelative canonical (relativePathOf parents) = .ok parentPath ∧
        PlainSegment segment ∧ path = parentPath ++ slash :: segment) ↔
          AddsSegment parents last) :=
    fun parents last hsplit hpne => by
      rw [parent_iff hc hpath]
      subst hsplit
      exact oneMore_snoc_iff hpne hnil hsan
  constructor
  · intro h
    refine ⟨hnil,fun segment hm => (h.segments segment ?_).2,fun segment hm =>
      (h.segments (segment.filter keptChar) ?_).2,fun parents last hsplit hpne =>
      (hparent parents last hsplit hpne).1 (h.parent parents last hsplit hpne)⟩
    · rw [hsegments]
      exact List.mem_append_left _ hm
    · rw [hsegments]
      exact List.mem_append_right _ (List.mem_map_of_mem hm)
  · intro h
    refine ⟨hpath ▸ beneath_append _ _,fun segment hm => ?_,fun parents last hsplit hpne =>
      (hparent parents last hsplit hpne).2 (h.parent parents last hsplit hpne)⟩
    rw [hsegments] at hm
    rcases List.mem_append.1 hm with hm | hm
    · refine ⟨?_,h.canonical segment hm⟩
      obtain ⟨segments,hs,he⟩ := hc.splitOn
      rw [he] at hm
      rcases List.mem_cons.1 hm with rfl | hm
      · decide
      · exact (hs segment hm).1
    · obtain ⟨raw,hr,rfl⟩ := List.mem_map.1 hm
      refine ⟨fun he => ?_,h.dots raw hr⟩
      rw [NoEmptySegment,splitOn_sanitizedText] at hsan
      exact hsan (he ▸ hm)

/-- A reserved character in a name does no harm. -/
theorem reservedName_composes : Composes "disk:/B/d".toList ["docs".toList,"a:b".toList]
    "disk:/B/d/docs/ab".toList := by
  refine (remotePathForRelative_composes_iff (show canonicalRemotePath "disk:/B".toList
    "/d".toList none = .ok _ by decide) (by decide)).2 ⟨by decide,by decide,by decide,?_⟩
  intro parents last hsplit _
  have hparts : ["docs".toList] ++ ["a:b".toList] = parents ++ [last] := hsplit
  obtain ⟨rfl,hlast⟩ := List.append_inj' hparts rfl
  cases hlast
  have hblank : (relativePathOf ["docs".toList]).rtakeWhile isWhitespace = [] := by decide
  exact .inl ⟨by decide,by decide,fun c hc => absurd (hblank ▸ hc) (by simp)⟩

/-- A directory whose name ends in a space is mapped to another path than what is above its
files. -/
theorem spacedDirectory_not_composes :
    canonicalRemotePath "disk:/B".toList "/d".toList none = .ok "disk:/B/d".toList ∧
    remotePathForRelative "disk:/B/d".toList (relativePathOf ["e ".toList]) =
      .ok "disk:/B/d/e".toList ∧
    remotePathForRelative "disk:/B/d".toList (relativePathOf ["e ".toList,"f".toList]) =
      .ok "disk:/B/d/e /f".toList ∧
    ¬ Composes "disk:/B/d".toList ["e ".toList,"f".toList] "disk:/B/d/e /f".toList := by
  refine ⟨by decide,by decide,by decide,fun h => ?_⟩
  obtain ⟨parentPath,segment,hparent,-,heq⟩ := h.parent ["e ".toList] "f".toList rfl (by simp)
  have hpath : parentPath = "disk:/B/d/e".toList := by
    have hmap : remotePathForRelative "disk:/B/d".toList (relativePathOf ["e ".toList]) =
        .ok "disk:/B/d/e".toList := by decide
    rw [hmap] at hparent
    exact (Except.ok.inj hparent).symm
  rw [hpath] at heq
  have hchar := congrArg (fun t => t[11]?) heq
  have hspace : ' ' = slash := by simpa using hchar
  exact absurd hspace (by decide)

end Names

end YaDiskSync
