import YaDiskSync.SepPath
import Mathlib.Data.List.DropRight

/-! String operations of the source on lists of characters.
The trimming functions only remove characters at the ends, so a trimmed path is
an infix of the untrimmed one and slashes inside it stay in place. -/
namespace YaDiskSync

abbrev Str := List Char

abbrev slash : Char := '/'

/-- `char::is_whitespace`: the Unicode property `White_Space`. -/
def isWhitespace (c : Char) : Bool :=
  let n := c.toNat
  (9 ≤ n && n ≤ 13) || n == 0x20 || n == 0x85 || n == 0xA0 || n == 0x1680 ||
    (0x2000 ≤ n && n ≤ 0x200A) || n == 0x2028 || n == 0x2029 || n == 0x202F ||
    n == 0x205F || n == 0x3000

/-- `char::is_control`: the Unicode category `Cc`. -/
def isControl (c : Char) : Bool :=
  let n := c.toNat
  n < 0x20 || (0x7F ≤ n && n ≤ 0x9F)

/-- `str::to_ascii_lowercase` on one character. -/
def asciiLower (c : Char) : Char :=
  if 'A' ≤ c ∧ c ≤ 'Z' then Char.ofNat (c.toNat+32) else c

/-- `str::to_ascii_uppercase` on one character. -/
def asciiUpper (c : Char) : Char :=
  if 'a' ≤ c ∧ c ≤ 'z' then Char.ofNat (c.toNat-32) else c

def isAsciiAlphabetic (c : Char) : Bool :=
  ('a' ≤ c && c ≤ 'z') || ('A' ≤ c && c ≤ 'Z')

/-- `str::eq_ignore_ascii_case`. -/
def eqIgnoreAsciiCase (s t : Str) : Bool := s.map asciiLower == t.map asciiLower

/-- `str::trim_start_matches(c)`. -/
def trimStartMatches (c : Char) (s : Str) : Str := s.dropWhile (· == c)

/-- `str::trim_end_matches(c)`. -/
def trimEndMatches (c : Char) (s : Str) : Str := s.rdropWhile (· == c)

/-- `str::trim_matches(c)`. -/
def trimMatches (c : Char) (s : Str) : Str := trimEndMatches c (trimStartMatches c s)

/-- `str::trim`. -/
def trim (s : Str) : Str := (s.dropWhile isWhitespace).rdropWhile isWhitespace

/-- `str::replace(a,b)` for single characters. -/
def replaceChar (a b : Char) (s : Str) : Str := s.map fun c => if c = a then b else c

/-- `str::strip_prefix`. -/
def stripPrefix (p s : Str) : Option Str := if p <+: s then some (s.drop p.length) else none

/-- `str::strip_suffix`. -/
def stripSuffix (p s : Str) : Option Str :=
  if p <:+ s then some (s.take (s.length-p.length)) else none

theorem stripPrefix_append (p t : Str) : stripPrefix p (p ++ t) = some t := by
  simp [stripPrefix]

theorem stripPrefix_eq_some {p s t : Str} : stripPrefix p s = some t ↔ s = p ++ t := by
  constructor
  · intro h
    unfold stripPrefix at h
    split at h
    · rename_i hp
      obtain ⟨u,rfl⟩ := hp
      simpa using h
    · cases h
  · rintro rfl
    exact stripPrefix_append p t

theorem trimEndMatches_isPrefix (c : Char) (s : Str) : trimEndMatches c s <+: s :=
  List.rdropWhile_prefix _ _

theorem trimEndMatches_getLast {c : Char} {s : Str} (hne : trimEndMatches c s ≠ []) :
    (trimEndMatches c s).getLast hne ≠ c := by
  have h := List.rdropWhile_last_not (· == c) s hne
  simpa [trimEndMatches] using h

/-- A string whose last character is not `c` keeps all of it. -/
theorem trimEndMatches_of_getLast {c : Char} {s : Str} (h : s.getLast? ≠ some c) :
    trimEndMatches c s = s := by
  unfold trimEndMatches
  rw [List.rdropWhile_eq_self_iff]
  intro hne hc
  exact h (by rw [List.getLast?_eq_some_getLast hne]; simpa using hc)

theorem trimEndMatches_append {c : Char} {s t : Str} (ht : trimEndMatches c t ≠ []) :
    trimEndMatches c (s ++ t) = s ++ trimEndMatches c t := by
  unfold trimEndMatches at *
  rw [List.rdropWhile] at ht ⊢
  rw [List.rdropWhile,List.reverse_append,List.dropWhile_append]
  have hne : (List.dropWhile (fun x => x == c) t.reverse).isEmpty = false := by
    simpa [List.isEmpty_eq_false_iff] using ht
  simp [hne]

theorem trimEndMatches_append_of_forall {c : Char} {s t : Str} (h : ∀ x ∈ t, x = c) :
    trimEndMatches c (s ++ t) = trimEndMatches c s := by
  unfold trimEndMatches
  induction t using List.reverseRecOn with
  | nil => simp
  | append_singleton t x ih =>
    have hx : x = c := h x (by simp)
    rw [← List.append_assoc,List.rdropWhile_concat,if_pos (by simp [hx])]
    exact ih fun y hy => h y (by simp [hy])

/-- Trimming first never leaves the prefix formed with one more `c`. -/
theorem trimEndMatches_snoc_isPrefix (c : Char) (s : Str) :
    trimEndMatches c s ++ [c] <+: s ++ [c] := by
  unfold trimEndMatches
  induction s using List.reverseRecOn with
  | nil => simp
  | append_singleton s x ih =>
    rw [List.rdropWhile_concat]
    split
    · rename_i hx
      have hc : x = c := by simpa using hx
      rw [hc]
      exact ih.trans (List.prefix_append _ _)
    · exact List.prefix_rfl

/-- Trimming the end stops at a character that is kept. -/
theorem rdropWhile_append_cons {p : Char → Bool} {x : Char} (hx : p x = false) (s t : Str) :
    (s ++ x :: t).rdropWhile p = s ++ x :: t.rdropWhile p := by
  induction t using List.reverseRecOn with
  | nil => simpa using List.rdropWhile_concat_neg p s x (by simp [hx])
  | append_singleton t y ih =>
    rw [List.rdropWhile_concat]
    have he : s ++ x :: (t ++ [y]) = (s ++ x :: t) ++ [y] := by simp
    rw [he,List.rdropWhile_concat]
    split
    · exact ih
    · simp

@[simp] theorem isWhitespace_slash : isWhitespace slash = false := by decide

end YaDiskSync
