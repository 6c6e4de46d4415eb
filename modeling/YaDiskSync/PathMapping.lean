import YaDiskSync.Text
import Mathlib.Tactic.IntervalCases

/-! Mapping of configured and local paths to remote paths.
Every successful mapping spells `disk:` followed by non-empty segments without
slashes and reserved characters. -/
namespace YaDiskSync

open SepPath

inductive PathMappingError
  | invalidRemoteRoot | invalidLocalPath | unsupportedUncPath | unsupportedDriveRelativePath
  | emptySanitizedSegment (segment : Str) | relativeSegment (segment : Str)
  deriving DecidableEq, Repr

def PathMappingError.message : PathMappingError → Str
  | .invalidRemoteRoot => "remote path must start with disk:/".toList
  | .invalidLocalPath =>
    "local path must be an absolute Windows drive path or an absolute Linux path".toList
  | .unsupportedUncPath => "UNC paths are not supported in config v1".toList
  | .unsupportedDriveRelativePath =>
    "drive-relative Windows paths are not supported in config v1".toList
  | .emptySanitizedSegment segment =>
    "path segment became empty after sanitization: ".toList ++ segment
  | .relativeSegment segment => "relative path segments are not allowed: ".toList ++ segment

def remotePrefix : Str := "disk:/".toList

def reservedRemoteChars : List Char := ['<','>',':','"','|','?','*','\\']

/-- The characters a remote segment keeps. -/
def keptChar (ch : Char) : Bool :=
  !isControl ch && !reservedRemoteChars.contains ch && ch != slash

def sanitizeSegment (segment : Str) : Except PathMappingError Str :=
  let sanitized := segment.filter keptChar
  if sanitized.isEmpty then .error (.emptySanitizedSegment segment) else .ok sanitized

def remoteRootSegments (remotePath : Str) : Except PathMappingError (List Str) :=
  match stripPrefix remotePrefix (trim remotePath) with
  | none => .error .invalidRemoteRoot
  | some rest =>
    let body := trimMatches slash rest
    if body.isEmpty then .error .invalidRemoteRoot
    else (body.splitOn slash).mapM sanitizeSegment

def isWindowsDrivePath : Str → Bool
  | c :: ':' :: s :: _ => isAsciiAlphabetic c && (s == '\\' || s == slash)
  | _ => false

def isDriveRelativePath (path : Str) : Bool :=
  match path with
  | c :: ':' :: _ => isAsciiAlphabetic c && !isWindowsDrivePath path
  | _ => false

def splitLocalSegments (path : Str) : Except PathMappingError (List Str) :=
  ((path.splitOnP fun c => c == '\\' || c == slash).filter fun segment => !segment.isEmpty).mapM
    fun segment =>
      if segment = ['.'] ∨ segment = ['.','.'] then .error (.relativeSegment segment)
      else sanitizeSegment segment

def localPathSegments (localPath : Str) : Except PathMappingError (List Str) :=
  let trimmed := trim localPath
  if ['\\','\\'] <+: trimmed ∨ [slash,slash] <+: trimmed then .error .unsupportedUncPath
  else if isDriveRelativePath trimmed then .error .unsupportedDriveRelativePath
  else if isWindowsDrivePath trimmed then do
    let segments ← splitLocalSegments (trimmed.drop 3)
    pure ((trimmed.take 1).map asciiUpper :: segments)
  else
    match stripPrefix [slash] trimmed with
    | some rest => splitLocalSegments rest
    | none => .error .invalidLocalPath

def buildRemotePath (segments : List Str) : Except PathMappingError Str :=
  if segments.isEmpty then .error .invalidRemoteRoot
  else .ok (remotePrefix ++ [slash].intercalate segments)

def sanitizeRemotePath (remotePath : Str) : Except PathMappingError Str := do
  buildRemotePath (← remoteRootSegments remotePath)

def canonicalRemotePath (remoteRoot localPath : Str) (remotePathOverride : Option Str) :
    Except PathMappingError Str :=
  match remotePathOverride.filter fun value => !(trim value).isEmpty with
  | some overridePath => sanitizeRemotePath overridePath
  | none => do
    let remoteSegments ← remoteRootSegments remoteRoot
    let localSegments ← localPathSegments localPath
    buildRemotePath (remoteSegments ++ localSegments)

example : canonicalRemotePath "disk:/Backup".toList "C:\\Data\\a<b>".toList none =
    .ok "disk:/Backup/C/Data/ab".toList := by decide

/-- A segment as the mapping leaves it. -/
def PlainSegment (segment : Str) : Prop := segment ≠ [] ∧ ∀ c ∈ segment, keptChar c = true

theorem PlainSegment.slash_notMem {segment : Str} (h : PlainSegment segment) :
    slash ∉ segment := fun hm => absurd (h.2 _ hm) (by decide)

theorem PlainSegment.colon_notMem {segment : Str} (h : PlainSegment segment) :
    ':' ∉ segment := fun hm => absurd (h.2 _ hm) (by decide)

/-- A remote path as the mapping leaves it: `disk:` and plain segments below it. -/
def IsRemotePath (path : Str) : Prop :=
  ∃ segments, segments ≠ [] ∧ (∀ s ∈ segments, PlainSegment s) ∧
    path = extend slash "disk:".toList segments

theorem sanitizeSegment_ok {segment t : Str} (h : sanitizeSegment segment = .ok t) :
    t = segment.filter keptChar ∧ PlainSegment t := by
  unfold sanitizeSegment at h
  simp only at h
  split at h
  · cases h
  · rename_i hne
    cases h
    exact ⟨rfl,by simpa using hne,fun c hc => (List.mem_filter.mp hc).2⟩

/-- An invariant of each result is one of all results of a fallible map. -/
theorem forall_mem_of_mapM_ok {α β ε : Type*} {f : α → Except ε β} {P : β → Prop}
    (hf : ∀ a b, f a = .ok b → P b) {xs : List α} {ys : List β} (h : xs.mapM f = .ok ys) :
    ∀ y ∈ ys, P y := by
  induction xs generalizing ys with
  | nil =>
    cases h
    simp
  | cons x xs ih =>
    rw [List.mapM_cons] at h
    cases hx : f x with
    | error e =>
      rw [hx] at h
      cases h
    | ok b =>
      cases hxs : xs.mapM f with
      | error e =>
        rw [hx,hxs] at h
        cases h
      | ok bs =>
        rw [hx,hxs] at h
        cases h
        simpa using ⟨hf x b hx,ih hxs⟩

theorem length_of_mapM_ok {α β ε : Type*} {f : α → Except ε β} {xs : List α} {ys : List β}
    (h : xs.mapM f = .ok ys) : ys.length = xs.length := by
  induction xs generalizing ys with
  | nil =>
    cases h
    rfl
  | cons x xs ih =>
    rw [List.mapM_cons] at h
    cases hx : f x with
    | error e =>
      rw [hx] at h
      cases h
    | ok b =>
      cases hxs : xs.mapM f with
      | error e =>
        rw [hx,hxs] at h
        cases h
      | ok bs =>
        rw [hx,hxs] at h
        cases h
        simp [ih hxs]

theorem remoteRootSegments_ok {path : Str} {segments : List Str}
    (h : remoteRootSegments path = .ok segments) :
    segments ≠ [] ∧ ∀ s ∈ segments, PlainSegment s := by
  unfold remoteRootSegments at h
  split at h
  · cases h
  · rename_i rest _
    simp only at h
    split at h
    · cases h
    · refine ⟨?_,forall_mem_of_mapM_ok (fun a b hab => (sanitizeSegment_ok hab).2) h⟩
      rintro rfl
      have hl := length_of_mapM_ok h
      have hn : (trimMatches slash rest).splitOn slash = [] :=
        List.eq_nil_of_length_eq_zero hl.symm
      exact List.splitOn_ne_nil slash _ hn

theorem splitLocalSegments_ok {path : Str} {segments : List Str}
    (h : splitLocalSegments path = .ok segments) : ∀ s ∈ segments, PlainSegment s := by
  refine forall_mem_of_mapM_ok (fun a b hab => ?_) h
  split at hab
  · cases hab
  · exact (sanitizeSegment_ok hab).2

theorem keptChar_asciiUpper {c : Char} (h : isAsciiAlphabetic c = true) :
    keptChar (asciiUpper c) = true := by
  have hn : (97 ≤ c.toNat ∧ c.toNat ≤ 122) ∨ (65 ≤ c.toNat ∧ c.toNat ≤ 90) := by
    simp only [isAsciiAlphabetic,Bool.or_eq_true,Bool.and_eq_true,decide_eq_true_eq] at h
    exact h
  rw [← Char.ofNat_toNat c]
  generalize c.toNat = n at hn
  rcases hn with ⟨hl,hu⟩ | ⟨hl,hu⟩
  · interval_cases n <;> decide
  · interval_cases n <;> decide

theorem localPathSegments_ok {path : Str} {segments : List Str}
    (h : localPathSegments path = .ok segments) : ∀ s ∈ segments, PlainSegment s := by
  unfold localPathSegments at h
  simp only at h
  split at h
  · cases h
  split at h
  · cases h
  split at h
  · rename_i hw
    cases hs : splitLocalSegments ((trim path).drop 3) with
    | error e =>
      rw [hs] at h
      cases h
    | ok rest =>
      rw [hs] at h
      cases h
      intro s hm
      rcases List.mem_cons.mp hm with rfl | hm
      · -- the drive letter in upper case
        unfold isWindowsDrivePath at hw
        split at hw
        · rename_i c _ _ he
          have hc : isAsciiAlphabetic c = true := (Bool.and_eq_true_iff.mp hw).1
          rw [he]
          exact ⟨by simp,by simpa using keptChar_asciiUpper hc⟩
        · cases hw
      · exact splitLocalSegments_ok hs s hm
  · split at h
    · exact splitLocalSegments_ok h
    · cases h

theorem buildRemotePath_ok {segments : List Str} {t : Str}
    (hs : ∀ s ∈ segments, PlainSegment s) (h : buildRemotePath segments = .ok t) :
    IsRemotePath t := by
  unfold buildRemotePath at h
  split at h
  · cases h
  · rename_i hne
    cases h
    have hne' : segments ≠ [] := by simpa using hne
    refine ⟨segments,hne',hs,?_⟩
    rw [extend_eq_intercalate _ hne']
    rfl

theorem sanitizeRemotePath_ok {path t : Str} (h : sanitizeRemotePath path = .ok t) :
    IsRemotePath t := by
  unfold sanitizeRemotePath at h
  cases hs : remoteRootSegments path with
  | error e =>
    rw [hs] at h
    cases h
  | ok segments =>
    rw [hs] at h
    exact buildRemotePath_ok (remoteRootSegments_ok hs).2 h

theorem canonicalRemotePath_ok {remoteRoot localPath : Str} {remotePathOverride : Option Str}
    {t : Str} (h : canonicalRemotePath remoteRoot localPath remotePathOverride = .ok t) :
    IsRemotePath t := by
  unfold canonicalRemotePath at h
  split at h
  · exact sanitizeRemotePath_ok h
  · cases hr : remoteRootSegments remoteRoot with
    | error e =>
      rw [hr] at h
      cases h
    | ok remoteSegments =>
      cases hl : localPathSegments localPath with
      | error e =>
        rw [hr,hl] at h
        cases h
      | ok localSegments =>
        rw [hr,hl] at h
        refine buildRemotePath_ok (fun s hm => ?_) h
        rcases List.mem_append.mp hm with hm | hm
        · exact (remoteRootSegments_ok hr).2 s hm
        · exact localPathSegments_ok hl s hm

theorem IsRemotePath.sanitizeSegment {segment : Str} (h : PlainSegment segment) :
    sanitizeSegment segment = .ok segment := by
  have hf : segment.filter keptChar = segment := List.filter_eq_self.mpr h.2
  simp [YaDiskSync.sanitizeSegment,hf,h.1]

theorem mapM_sanitizeSegment_plain {segments : List Str} (h : ∀ s ∈ segments, PlainSegment s) :
    segments.mapM sanitizeSegment = .ok segments := by
  induction segments with
  | nil => rfl
  | cons s segments ih =>
    rw [List.mapM_cons,IsRemotePath.sanitizeSegment (h s (by simp)),
      ih (fun s' hs => h s' (by simp [hs]))]
    rfl

theorem getLast?_extend {base : Str} {segments : List Str} (hb : base.getLast? ≠ some slash)
    (hs : ∀ s ∈ segments, PlainSegment s) :
    (extend slash base segments).getLast? ≠ some slash := by
  induction segments generalizing base with
  | nil => exact hb
  | cons s segments ih =>
    have hp : PlainSegment s := hs s (by simp)
    refine ih ?_ (fun s' hm => hs s' (by simp [hm]))
    rw [List.getLast?_append_of_ne_nil _ (by simp),List.getLast?_cons_of_ne_nil hp.1]
    intro he
    exact hp.slash_notMem (List.mem_of_getLast? he)

theorem IsRemotePath.getLast? {path : Str} (h : IsRemotePath path) :
    path.getLast? ≠ some slash := by
  obtain ⟨segments,_,hs,rfl⟩ := h
  exact getLast?_extend (by decide) hs

theorem remotePath_eq {segments : List Str} (hne : segments ≠ []) :
    extend slash "disk:".toList segments = remotePrefix ++ [slash].intercalate segments := by
  rw [extend_eq_intercalate _ hne]
  rfl

theorem splitOn_intercalate_plain {segments : List Str} (hne : segments ≠ [])
    (h : ∀ s ∈ segments, PlainSegment s) :
    ([slash].intercalate segments).splitOn slash = segments :=
  List.splitOn_intercalate slash (fun s hs => (h s hs).slash_notMem) hne

/-- The part of a suffix below a remote path that sanitising looks at. -/
def trimmedSuffix (t : Str) : Str := trimEndMatches slash (t.rdropWhile isWhitespace)

theorem remoteRootSegments_below {segments : List Str} (hne : segments ≠ [])
    (hs : ∀ s ∈ segments, PlainSegment s) (t : Str) :
    remoteRootSegments (extend slash "disk:".toList segments ++ slash :: t) =
      if trimmedSuffix t = [] then .ok segments
      else ((trimmedSuffix t).splitOn slash).mapM sanitizeSegment >>= fun rest =>
        .ok (segments ++ rest) := by
  have hbody : [slash].intercalate segments ≠ [] := by
    intro he
    have hsp := splitOn_intercalate_plain hne hs
    rw [he] at hsp
    have hnil : PlainSegment [] := hs [] (by rw [← hsp]; simp)
    exact hnil.1 rfl
  have hlast : ([slash].intercalate segments).getLast? ≠ some slash := by
    have hl := @getLast?_extend "disk:".toList segments (by decide) hs
    rwa [remotePath_eq hne,List.getLast?_append_of_ne_nil _ hbody] at hl
  have hhead : ([slash].intercalate segments).head? ≠ some slash := by
    cases segments with
    | nil => exact absurd rfl hne
    | cons s segments =>
      have hp : PlainSegment s := hs s (by simp)
      cases s with
      | nil => exact absurd rfl hp.1
      | cons c s =>
        intro he
        have hc : c = slash := by cases segments <;> simpa using he
        exact hp.slash_notMem (by simp [hc])
  have htrim : trim (extend slash "disk:".toList segments ++ slash :: t) =
      remotePrefix ++ ([slash].intercalate segments ++ slash :: t.rdropWhile isWhitespace) := by
    rw [remotePath_eq hne,trim]
    have hd : ((remotePrefix ++ [slash].intercalate segments ++ slash :: t).dropWhile
        isWhitespace) = remotePrefix ++ [slash].intercalate segments ++ slash :: t := by
      have hdisk : remotePrefix = 'd' :: "isk:/".toList := rfl
      rw [hdisk,List.cons_append,List.cons_append,List.dropWhile_cons_of_neg (by decide)]
    rw [hd,rdropWhile_append_cons isWhitespace_slash,List.append_assoc]
  have hstart : trimStartMatches slash
      ([slash].intercalate segments ++ slash :: t.rdropWhile isWhitespace) =
        [slash].intercalate segments ++ slash :: t.rdropWhile isWhitespace := by
    unfold trimStartMatches
    cases hi : [slash].intercalate segments with
    | nil => exact absurd hi hbody
    | cons c rest =>
      rw [hi] at hhead
      rw [List.cons_append,List.dropWhile_cons_of_neg (by simpa using hhead)]
  unfold remoteRootSegments
  rw [htrim,stripPrefix_append]
  simp only [trimMatches,hstart]
  by_cases ht : trimmedSuffix t = []
  · have hall : ∀ c ∈ t.rdropWhile isWhitespace, c = slash := by
      simpa [trimmedSuffix,trimEndMatches,List.rdropWhile_eq_nil_iff] using ht
    have hend : trimEndMatches slash
        ([slash].intercalate segments ++ slash :: t.rdropWhile isWhitespace) =
          [slash].intercalate segments := by
      rw [trimEndMatches_append_of_forall (by simpa using hall),
        trimEndMatches_of_getLast hlast]
    rw [hend,if_pos ht,if_neg (by simpa using hbody),splitOn_intercalate_plain hne hs,
      mapM_sanitizeSegment_plain hs]
  · have hend : trimEndMatches slash
        ([slash].intercalate segments ++ slash :: t.rdropWhile isWhitespace) =
          [slash].intercalate segments ++ slash :: trimmedSuffix t := by
      have ha := trimEndMatches_append (s := [slash].intercalate segments ++ [slash]) ht
      simpa [trimmedSuffix] using ha
    rw [hend,if_neg ht,if_neg (by simp),List.splitOn_append_cons_self,
      splitOn_intercalate_plain hne hs,List.mapM_append,mapM_sanitizeSegment_plain hs]
    rfl

/-- Sanitising a path below a remote path only ever appends plain segments to it. -/
theorem sanitizeRemotePath_below {base t path : Str} (hb : IsRemotePath base)
    (h : sanitizeRemotePath (base ++ slash :: t) = .ok path) :
    ∃ rest, (∀ s ∈ rest, PlainSegment s) ∧ path = extend slash base rest := by
  obtain ⟨segments,hne,hs,rfl⟩ := hb
  unfold sanitizeRemotePath at h
  rw [remoteRootSegments_below hne hs] at h
  split at h
  · refine ⟨[],by simp,?_⟩
    have hb : buildRemotePath segments = .ok path := h
    unfold buildRemotePath at hb
    rw [if_neg (by simpa using hne)] at hb
    cases hb
    exact (remotePath_eq hne).symm
  · cases hr : ((trimmedSuffix t).splitOn slash).mapM sanitizeSegment with
    | error e =>
      rw [hr] at h
      cases h
    | ok rest =>
      rw [hr] at h
      refine ⟨rest,forall_mem_of_mapM_ok (fun a b hab => (sanitizeSegment_ok hab).2) hr,?_⟩
      have hb : buildRemotePath (segments ++ rest) = .ok path := h
      unfold buildRemotePath at hb
      rw [if_neg (by simp [hne])] at hb
      cases hb
      rw [← extend_append,remotePath_eq (by simp [hne])]

@[simp] theorem IsRemotePath.trimEnd {path : Str} (h : IsRemotePath path) :
    trimEndMatches slash path = path :=
  trimEndMatches_of_getLast h.getLast?

theorem IsRemotePath.splitOn {path : Str} (h : IsRemotePath path) :
    ∃ segments, (∀ s ∈ segments, PlainSegment s) ∧
      path.splitOn slash = "disk:".toList :: segments := by
  obtain ⟨segments,hne,hs,rfl⟩ := h
  refine ⟨segments,hs,?_⟩
  rw [extend_eq_intercalate _ hne,List.splitOn_append_cons_self,splitOn_intercalate_plain hne hs]
  rfl

/-- What a remote path adds below another path are plain segments. -/
theorem IsRemotePath.plain_below {base t : Str} (h : IsRemotePath (base ++ slash :: t)) :
    ∀ segment ∈ t.splitOn slash, PlainSegment segment := by
  obtain ⟨segments,hs,he⟩ := h.splitOn
  rw [List.splitOn_append_cons_self] at he
  cases hb : base.splitOn slash with
  | nil => exact absurd hb (List.splitOn_ne_nil slash base)
  | cons first rest =>
    rw [hb,List.cons_append,List.cons.injEq] at he
    intro segment hm
    exact hs segment (he.2 ▸ List.mem_append_right _ hm)

theorem eq_colon_of_asciiLower {c : Char} (h : asciiLower c = ':') : c = ':' := by
  unfold asciiLower at h
  split at h
  · rename_i hc
    have hl : 65 ≤ c.toNat := hc.1
    have hu : c.toNat ≤ 90 := hc.2
    generalize c.toNat = n at h hl hu
    interval_cases n <;> exact absurd h (by decide)
  · exact h

theorem PlainSegment.ne_disk {segment : Str} (h : PlainSegment segment) :
    eqIgnoreAsciiCase segment "disk:".toList = false := by
  rw [eqIgnoreAsciiCase,beq_eq_false_iff_ne]
  intro he
  have hm : ':' ∈ segment.map asciiLower := by rw [he]; decide
  obtain ⟨c,hc,hl⟩ := List.mem_map.mp hm
  exact h.colon_notMem (eq_colon_of_asciiLower hl ▸ hc)

end YaDiskSync
