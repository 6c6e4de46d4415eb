import YaDiskSync.Repository

/-! The cached subtree is deleted with a pattern made of its own path. What the pattern reads
is said once, without reference to the matcher, and decides which rows go. -/
namespace YaDiskSync

open SepPath

/-- What `LIKE` reads a pattern as: `%` any run, `_` any character, and every other
character itself up to ASCII case. -/
inductive Reads : Str → Str → Prop
  | done : Reads [] []
  | run (skipped : Str) {pattern text : Str} (h : Reads pattern text) :
    Reads ('%' :: pattern) (skipped ++ text)
  | one (d : Char) {pattern text : Str} (h : Reads pattern text) :
    Reads ('_' :: pattern) (d :: text)
  | same {c d : Char} {pattern text : Str} (hc : c ≠ '%') (hcd : asciiLower c = asciiLower d)
    (h : Reads pattern text) : Reads (c :: pattern) (d :: text)

theorem reads_of_likeMatch {pattern text : Str} (h : likeMatch pattern text = true) :
    Reads pattern text := by
  induction pattern generalizing text with
  | nil =>
    obtain rfl := List.isEmpty_iff.mp h
    exact Reads.done
  | cons c pattern ih =>
    rw [likeMatch] at h
    split at h
    · rename_i hc
      subst hc
      obtain ⟨suffix,hs,hm⟩ := List.any_eq_true.mp h
      obtain ⟨skipped,rfl⟩ := (List.mem_tails _ _).mp hs
      exact Reads.run skipped (ih hm)
    · rename_i hc
      cases text with
      | nil => cases h
      | cons d text =>
        simp only [List.head?_cons,Option.any_some,List.tail_cons,Bool.and_eq_true,
          Bool.or_eq_true,beq_iff_eq] at h
        obtain ⟨rfl | hcd,hm⟩ := h
        · exact Reads.one d (ih hm)
        · exact Reads.same hc hcd (ih hm)

theorem Reads.likeMatch {pattern text : Str} (h : Reads pattern text) :
    likeMatch pattern text = true := by
  induction h with
  | done => rfl
  | run skipped h ih =>
    rw [YaDiskSync.likeMatch,if_pos rfl,List.any_eq_true]
    exact ⟨_,(List.mem_tails _ _).mpr (List.suffix_append skipped _),ih⟩
  | one d h ih =>
    rw [YaDiskSync.likeMatch,if_neg (by decide)]
    simp [ih]
  | same hc hcd h ih =>
    rw [YaDiskSync.likeMatch,if_neg hc]
    simp [ih,hcd]

/-- The matcher reads patterns. -/
theorem likeMatch_iff_reads {pattern text : Str} :
    likeMatch pattern text = true ↔ Reads pattern text :=
  ⟨reads_of_likeMatch,Reads.likeMatch⟩

namespace Reads

variable {pattern rest text head tail : Str}

protected theorem refl (pattern : Str) : Reads pattern pattern := by
  induction pattern with
  | nil => exact done
  | cons c pattern ih =>
    by_cases hc : c = '%'
    · exact hc ▸ run [c] ih
    · exact same hc rfl ih

theorem append (h : Reads pattern head) (h' : Reads rest tail) :
    Reads (pattern ++ rest) (head ++ tail) := by
  induction h with
  | done => exact h'
  | run skipped h ih =>
    rw [List.append_assoc]
    exact run skipped ih
  | one d h ih => exact one d ih
  | same hc hcd h ih => exact same hc hcd ih

/-- A text read by a joined pattern splits where the patterns join. -/
theorem split (h : Reads (pattern ++ rest) text) :
    ∃ head tail, text = head ++ tail ∧ Reads pattern head ∧ Reads rest tail := by
  induction pattern generalizing text with
  | nil => exact ⟨[],text,rfl,done,h⟩
  | cons c pattern ih =>
    cases h with
    | run skipped h =>
      obtain ⟨head,tail,rfl,hh,ht⟩ := ih h
      exact ⟨skipped ++ head,tail,(List.append_assoc ..).symm,run skipped hh,ht⟩
    | one d h =>
      obtain ⟨head,tail,rfl,hh,ht⟩ := ih h
      exact ⟨d :: head,tail,rfl,one d hh,ht⟩
    | same hc hcd h =>
      obtain ⟨head,tail,rfl,hh,ht⟩ := ih h
      exact ⟨_ :: head,tail,rfl,same hc hcd hh,ht⟩

/-- `/%` reads what starts with a separator. -/
theorem slash_run_iff : Reads "/%".toList text ↔ ∃ tail, text = slash :: tail := by
  constructor
  · intro h
    cases h with
    | same hc hcd h =>
      have hl : asciiLower '/' = slash := by decide
      obtain rfl := asciiLower_eq_slash (hcd.symm.trans hl)
      exact ⟨_,rfl⟩
  · rintro ⟨tail,rfl⟩
    have hrun : Reads ['%'] tail := by simpa using run tail done
    exact same (by decide) rfl hrun

end Reads

/-- Whether a path begins with a text the prefix reads, and a separator. -/
def LooksBeneath (remotePrefix path : Str) : Prop :=
  ∃ head tail, Reads remotePrefix head ∧ path = head ++ slash :: tail

theorem likeMatch_subtree_iff {remotePrefix path : Str} :
    likeMatch (remotePrefix ++ "/%".toList) path = true ↔ LooksBeneath remotePrefix path := by
  rw [likeMatch_iff_reads]
  constructor
  · intro h
    obtain ⟨head,rest,rfl,hh,hr⟩ := h.split
    obtain ⟨tail,rfl⟩ := Reads.slash_run_iff.mp hr
    exact ⟨head,tail,hh,rfl⟩
  · rintro ⟨head,tail,hh,rfl⟩
    exact hh.append (Reads.slash_run_iff.mpr ⟨tail,rfl⟩)

/-- What lies beneath a prefix looks so. -/
theorem LooksBeneath.of_beneath {remotePrefix path : Str} (h : Beneath slash remotePrefix path) :
    LooksBeneath remotePrefix path := by
  obtain ⟨tail,rfl⟩ := beneath_iff.mp h
  exact ⟨remotePrefix,tail,Reads.refl _,rfl⟩

section Exact

variable (repository : Repository) (rootId remotePrefix : Str)

/-- The delete removes the rows of the subtree and no others. -/
def DeletesExactSubtree : Prop :=
  ∀ row, row ∈ (repository.deleteRemoteResourceSubtree rootId remotePrefix).remoteResources.rows ↔
    row ∈ repository.remoteResources.rows ∧
      ¬(row.rootId = rootId ∧ Covers slash remotePrefix row.remotePath)

/-- A row of the root outside the subtree that the pattern takes for a part of it. -/
def HoldsLookalike : Prop :=
  ∃ row ∈ repository.remoteResources.rows, row.rootId = rootId ∧
    ¬Covers slash remotePrefix row.remotePath ∧ LooksBeneath remotePrefix row.remotePath

/-- What the statement leaves of the table. -/
theorem mem_deleteRemoteResourceSubtree {row : RemoteResourceRecord} :
    row ∈ (repository.deleteRemoteResourceSubtree rootId remotePrefix).remoteResources.rows ↔
      row ∈ repository.remoteResources.rows ∧ ¬(row.rootId = rootId ∧
        (Covers slash remotePrefix row.remotePath ∨ LooksBeneath remotePrefix row.remotePath)) := by
  have hlook : (row.remotePath = remotePrefix ∨ LooksBeneath remotePrefix row.remotePath) ↔
      Covers slash remotePrefix row.remotePath ∨ LooksBeneath remotePrefix row.remotePath := by
    constructor
    · rintro (h | h)
      · exact Or.inl (Or.inl h)
      · exact Or.inr h
    · rintro ((h | h) | h)
      · exact Or.inl h
      · exact Or.inr (LooksBeneath.of_beneath h)
      · exact Or.inr h
  rw [Repository.deleteRemoteResourceSubtree,Table.mem_deleteWhere,decide_eq_false_iff_not,
    likeMatch_subtree_iff,hlook]

/-- The delete is exact where no other row of the root looks like a part of the subtree. -/
theorem deletesExactSubtree_iff :
    DeletesExactSubtree repository rootId remotePrefix ↔
      ¬HoldsLookalike repository rootId remotePrefix := by
  constructor
  · rintro h ⟨row,hrow,hroot,hout,hlook⟩
    have hkept := (h row).mpr ⟨hrow,fun hin => hout hin.2⟩
    exact ((mem_deleteRemoteResourceSubtree ..).mp hkept).2 ⟨hroot,Or.inr hlook⟩
  · intro h row
    rw [mem_deleteRemoteResourceSubtree]
    refine and_congr_right fun hrow => not_congr (and_congr_right fun hroot => ?_)
    constructor
    · rintro (hin | hlook)
      · exact hin
      · by_contra hout
        exact h ⟨row,hrow,hroot,hout,hlook⟩
    · exact Or.inl

end Exact

section OneRow

/-- A table that holds one directory of the root. -/
def cachedDirectory (rootId remotePath : Str) : Repository :=
  { remoteResources := ⟨[⟨rootId,remotePath,.directory,none,none,none⟩],List.nodup_singleton _⟩ }

/-- Deleting `disk:/B/a_b` also removes `disk:/B/axb/f`. -/
theorem underscore_takes_sibling :
    ¬∀ repository rootId remotePrefix, DeletesExactSubtree repository rootId remotePrefix := by
  intro h
  have hrow := h (cachedDirectory "r".toList "disk:/B/axb/f".toList) "r".toList "disk:/B/a_b".toList
    ⟨"r".toList,"disk:/B/axb/f".toList,.directory,none,none,none⟩
  revert hrow
  decide

end OneRow

section Prefixes

/-- A character the pattern reads as itself only. -/
def IsLiteral (c : Char) : Prop := c ≠ '%' ∧ c ≠ '_' ∧ isAsciiAlphabetic c = false

theorem asciiLower_eq_self {c : Char} (h : isAsciiAlphabetic c = false) : asciiLower c = c := by
  refine if_neg fun hc => ?_
  rw [isAsciiAlphabetic,Bool.or_eq_false_iff,Bool.and_eq_false_iff,Bool.and_eq_false_iff] at h
  simp [hc.1,hc.2] at h

/-- Only a letter has another case. -/
theorem eq_of_asciiLower_eq {c d : Char} (hc : isAsciiAlphabetic c = false)
    (h : asciiLower c = asciiLower d) : d = c := by
  rw [asciiLower_eq_self hc] at h
  by_cases hd : 'A' ≤ d ∧ d ≤ 'Z'
  · rw [asciiLower,if_pos hd] at h
    have hl : 65 ≤ d.toNat := hd.1
    have hu : d.toNat ≤ 90 := hd.2
    rw [h] at hc
    generalize d.toNat = n at hc hl hu
    interval_cases n <;> exact absurd hc (by decide)
  · rw [asciiLower,if_neg hd] at h
    exact h.symm

/-- A letter has another case. -/
theorem exists_other_case {c : Char} (h : isAsciiAlphabetic c = true) :
    ∃ d, d ≠ c ∧ asciiLower c = asciiLower d := by
  rw [isAsciiAlphabetic,Bool.or_eq_true,Bool.and_eq_true,Bool.and_eq_true,decide_eq_true_iff,
    decide_eq_true_iff,decide_eq_true_iff,decide_eq_true_iff] at h
  rw [← Char.ofNat_toNat c]
  rcases h with ⟨hl,hu⟩ | ⟨hl,hu⟩
  · have hl' : 97 ≤ c.toNat := hl
    have hu' : c.toNat ≤ 122 := hu
    refine ⟨asciiUpper (Char.ofNat c.toNat),?_⟩
    generalize c.toNat = n at hl' hu'
    interval_cases n <;> decide
  · have hl' : 65 ≤ c.toNat := hl
    have hu' : c.toNat ≤ 90 := hu
    refine ⟨asciiLower (Char.ofNat c.toNat),?_⟩
    generalize c.toNat = n at hl' hu'
    interval_cases n <;> decide

/-- Any other character is also read as some character it is not. -/
theorem exists_reads_of_not_literal {c : Char} (h : ¬IsLiteral c) : ∃ d, d ≠ c ∧ Reads [c] [d] := by
  by_cases hrun : c = '%'
  · exact ⟨'x',by rw [hrun]; decide,hrun ▸ Reads.run ['x'] Reads.done⟩
  by_cases hone : c = '_'
  · exact ⟨'x',by rw [hone]; decide,hone ▸ Reads.one 'x' Reads.done⟩
  have hletter : isAsciiAlphabetic c = true := by
    by_contra hn
    exact h ⟨hrun,hone,Bool.eq_false_iff.mpr hn⟩
  obtain ⟨d,hd,hcd⟩ := exists_other_case hletter
  exact ⟨d,hd,Reads.same hrun hcd Reads.done⟩

/-- A literal prefix reads itself only. -/
theorem Reads.eq_of_literal {pattern text : Str} (h : Reads pattern text)
    (hlit : ∀ c ∈ pattern, IsLiteral c) : text = pattern := by
  induction h with
  | done => rfl
  | run skipped h ih => exact absurd rfl (hlit '%' (List.mem_cons_self ..)).1
  | one d h ih => exact absurd rfl (hlit '_' (List.mem_cons_self ..)).2.1
  | same hc hcd h ih =>
    have hd := eq_of_asciiLower_eq (hlit _ (List.mem_cons_self ..)).2.2 hcd
    rw [hd,ih fun e he => hlit e (List.mem_cons_of_mem _ he)]

/-- The delete is exact on every table for the prefixes without wildcards and letters only:
for no remote path at all, since those start with the disk's name. -/
theorem deletesExactSubtree_forall_iff (rootId remotePrefix : Str) :
    (∀ repository, DeletesExactSubtree repository rootId remotePrefix) ↔
      ∀ c ∈ remotePrefix, IsLiteral c := by
  constructor
  · intro h
    by_contra hne
    obtain ⟨c,hc,hlit⟩ : ∃ c ∈ remotePrefix, ¬IsLiteral c := by
      by_contra hn
      exact hne fun c hc => by_contra fun hlit => hn ⟨c,hc,hlit⟩
    obtain ⟨before,after,rfl⟩ := List.append_of_mem hc
    obtain ⟨d,hd,hread⟩ := exists_reads_of_not_literal hlit
    -- the prefix with that character replaced names a directory outside the subtree
    have hlook : LooksBeneath (before ++ c :: after) (before ++ d :: after ++ [slash]) :=
      ⟨before ++ d :: after,[],(Reads.refl before).append (hread.append (Reads.refl after)),rfl⟩
    refine (deletesExactSubtree_iff ..).mp
      (h (cachedDirectory rootId (before ++ d :: after ++ [slash])))
      ⟨_,List.mem_singleton_self _,rfl,fun hcov => ?_,hlook⟩
    have hpre := hcov.isPrefix.trans (List.prefix_refl (before ++ d :: after ++ [slash]))
    rw [List.append_assoc,List.prefix_append_right_inj,List.cons_append,
      List.cons_prefix_cons] at hpre
    exact hd hpre.1.symm
  · intro h repository
    rw [deletesExactSubtree_iff]
    rintro ⟨row,-,-,hout,head,tail,hread,hpath⟩
    rw [hread.eq_of_literal h] at hpath
    exact hout (Or.inr (beneath_iff.mpr ⟨tail,hpath⟩))

end Prefixes

end YaDiskSync
