import Mathlib.Data.List.Basic
import Mathlib.Data.List.Count

/-! Paths written as words over an arbitrary alphabet with a separator letter.
A path lies beneath another when it continues it after a separator; the chain of
a list of segments walks from a base down to the path the segments spell. -/
namespace SepPath

variable {α : Type*} {sep : α} {p q r s base : List α}

/-- `q` continues `p` after a separator. -/
def Beneath (sep : α) (p q : List α) : Prop := p ++ [sep] <+: q

/-- `q` is `p` or lies beneath it. -/
def Covers (sep : α) (p q : List α) : Prop := q = p ∨ Beneath sep p q

instance [DecidableEq α] : Decidable (Beneath sep p q) := by
  unfold Beneath; infer_instance

instance [DecidableEq α] : Decidable (Covers sep p q) := by
  unfold Covers; infer_instance

theorem beneath_iff : Beneath sep p q ↔ ∃ t, q = p ++ sep :: t := by
  constructor
  · rintro ⟨t,rfl⟩
    exact ⟨t,by simp⟩
  · rintro ⟨t,rfl⟩
    exact ⟨t,by simp⟩

theorem beneath_append (p t : List α) : Beneath sep p (p ++ sep :: t) :=
  beneath_iff.mpr ⟨t,rfl⟩

theorem Beneath.length_lt (h : Beneath sep p q) : p.length < q.length := by
  obtain ⟨t,rfl⟩ := beneath_iff.mp h
  simp

theorem Beneath.ne (h : Beneath sep p q) : p ≠ q := by
  rintro rfl
  exact absurd h.length_lt (Nat.lt_irrefl _)

theorem Beneath.isPrefix (h : Beneath sep p q) : p <+: q :=
  (List.prefix_append p [sep]).trans h

theorem Beneath.trans (h : Beneath sep p q) (h' : Beneath sep q r) : Beneath sep p r :=
  List.IsPrefix.trans h h'.isPrefix

theorem Beneath.covers (h : Beneath sep p q) : Covers sep p q := Or.inr h

@[simp] theorem Covers.refl (p : List α) : Covers sep p p := Or.inl rfl

theorem Covers.isPrefix (h : Covers sep p q) : p <+: q := by
  rcases h with rfl | h
  · exact List.prefix_rfl
  · exact h.isPrefix

theorem Covers.beneath (h : Covers sep p q) (h' : Beneath sep q r) : Beneath sep p r := by
  rcases h with rfl | h
  · exact h'
  · exact h.trans h'

theorem Beneath.trans_covers (h : Beneath sep p q) (h' : Covers sep q r) : Beneath sep p r := by
  rcases h' with rfl | h'
  · exact h
  · exact h.trans h'

theorem Covers.trans (h : Covers sep p q) (h' : Covers sep q r) : Covers sep p r := by
  rcases h' with rfl | h'
  · exact h
  · exact (h.beneath h').covers

theorem Covers.antisymm (h : Covers sep p q) (h' : Covers sep q p) : p = q := by
  rcases h with rfl | h
  · rfl
  · exact absurd h'.isPrefix.length_le (Nat.not_le.mpr h.length_lt)

theorem Covers.beneath_of_ne (h : Covers sep p q) (hne : p ≠ q) : Beneath sep p q :=
  h.resolve_left (Ne.symm hne)

/-- A prefix of a path beneath `p` that is longer than `p` lies beneath `p` itself. -/
theorem beneath_of_isPrefix (h : Beneath sep p r) (hq : q <+: r) (hlt : p.length < q.length) :
    Beneath sep p q :=
  List.prefix_of_prefix_length_le h hq (by simp; omega)

/-- Two paths above a common path are comparable. -/
theorem Covers.total (h : Covers sep p r) (h' : Covers sep q r) :
    Covers sep p q ∨ Covers sep q p := by
  rcases h with rfl | h
  · exact Or.inr h'
  rcases h' with rfl | h'
  · exact Or.inl h.covers
  rcases Nat.lt_trichotomy p.length q.length with hlt | heq | hgt
  · exact Or.inl (beneath_of_isPrefix h h'.isPrefix hlt).covers
  · have he : p = q := (List.prefix_of_prefix_length_le h.isPrefix h'.isPrefix (Nat.le_of_eq heq)).eq_of_length heq
    exact Or.inl (Or.inl he.symm)
  · exact Or.inr (beneath_of_isPrefix h' h.isPrefix hgt).covers

/-- Above a path that ends in one plain segment there is its parent and what covers the parent. -/
theorem beneath_snoc_iff (hs : sep ∉ s) : Beneath sep q (p ++ sep :: s) ↔ Covers sep q p := by
  constructor
  · intro h
    rcases h.covers.total (beneath_append p s).covers with hqp | hpq
    · exact hqp
    rcases hpq with rfl | hpq
    · exact Covers.refl q
    -- a separator inside the last segment would be needed
    obtain ⟨t,rfl⟩ := beneath_iff.mp hpq
    obtain ⟨u,hu⟩ := beneath_iff.mp h
    have hmem : sep ∈ s := by
      have he : s = t ++ sep :: u := by simpa using hu
      simp [he]
    exact absurd hmem hs
  · intro h
    exact h.beneath (beneath_append p s)

/-- The path spelled by segments below a base. -/
def extend (sep : α) (base : List α) (segs : List (List α)) : List α :=
  segs.foldl (fun p seg => p ++ sep :: seg) base

@[simp] theorem extend_nil (base : List α) : extend sep base [] = base := rfl

@[simp] theorem extend_cons (base seg : List α) (segs : List (List α)) :
    extend sep base (seg :: segs) = extend sep (base ++ sep :: seg) segs := rfl

theorem extend_append (base : List α) (xs ys : List (List α)) :
    extend sep base (xs ++ ys) = extend sep (extend sep base xs) ys := by
  simp [extend]

theorem extend_covers (base : List α) (segs : List (List α)) :
    Covers sep base (extend sep base segs) := by
  induction segs generalizing base with
  | nil => exact Covers.refl base
  | cons seg segs ih => exact ((beneath_append base seg).trans_covers (ih _)).covers

theorem extend_eq_intercalate (base : List α) {segs : List (List α)} (hne : segs ≠ []) :
    extend sep base segs = base ++ sep :: [sep].intercalate segs := by
  induction segs generalizing base with
  | nil => exact absurd rfl hne
  | cons seg segs ih =>
    cases segs with
    | nil => simp
    | cons seg' segs =>
      rw [extend_cons,ih _ (by simp)]
      simp

theorem extend_splitOn [DecidableEq α] (base t : List α) :
    extend sep base (t.splitOn sep) = base ++ sep :: t := by
  rw [extend_eq_intercalate base (List.splitOn_ne_nil sep t),List.intercalate_splitOn]

theorem not_mem_of_mem_splitOn [DecidableEq α] {t seg : List α} (h : seg ∈ t.splitOn sep) :
    sep ∉ seg := by
  induction t generalizing seg with
  | nil => simp_all
  | cons a t ih =>
    rw [List.splitOn_cons_eq_if_modifyHead] at h
    split at h
    · rcases List.mem_cons.mp h with rfl | h
      · simp
      · exact ih h
    · rename_i ha
      cases hsp : t.splitOn sep with
      | nil => simp [hsp] at h
      | cons x xs =>
        rw [hsp] at h
        simp only [List.modifyHead_cons,List.mem_cons] at h
        rcases h with rfl | h
        · have hx : sep ∉ x := ih (by simp [hsp])
          simp only [beq_iff_eq] at ha
          simp [Ne.symm ha,hx]
        · exact ih (by simp [hsp,h])

/-- The paths met while the segments are appended one by one. -/
def chain (sep : α) : List α → List (List α) → List (List α)
  | _, [] => []
  | base, seg :: segs => (base ++ sep :: seg) :: chain sep (base ++ sep :: seg) segs

theorem beneath_of_mem_chain {segs : List (List α)} (h : q ∈ chain sep base segs) :
    Beneath sep base q := by
  induction segs generalizing base with
  | nil => simp [chain] at h
  | cons seg segs ih =>
    rcases List.mem_cons.mp h with rfl | h
    · exact beneath_append base seg
    · exact (beneath_append base seg).trans (ih h)

theorem covers_of_mem_chain {segs : List (List α)} (h : q ∈ chain sep base segs) :
    Covers sep q (extend sep base segs) := by
  induction segs generalizing base with
  | nil => simp [chain] at h
  | cons seg segs ih =>
    rcases List.mem_cons.mp h with rfl | h
    · exact extend_covers _ segs
    · exact ih h

theorem exists_prefix_of_mem_chain {segs : List (List α)} (h : q ∈ chain sep base segs) :
    ∃ xs, xs ≠ [] ∧ xs <+: segs ∧ q = extend sep base xs := by
  induction segs generalizing base with
  | nil => simp [chain] at h
  | cons seg segs ih =>
    rcases List.mem_cons.mp h with rfl | h
    · exact ⟨[seg],by simp,by simp,rfl⟩
    · obtain ⟨xs,_,hp,he⟩ := ih h
      exact ⟨seg :: xs,by simp,by simpa using hp,he⟩

/-- Later members of a chain lie beneath the earlier ones. -/
theorem chain_pairwise (base : List α) (segs : List (List α)) :
    (chain sep base segs).Pairwise (Beneath sep) := by
  induction segs generalizing base with
  | nil => exact List.Pairwise.nil
  | cons seg segs ih =>
    exact List.pairwise_cons.mpr ⟨fun q hq => beneath_of_mem_chain hq,ih _⟩

/-- With plain segments the chain holds exactly the paths between the base and the spelled path. -/
theorem mem_chain_iff {segs : List (List α)} (hs : ∀ seg ∈ segs, sep ∉ seg) :
    q ∈ chain sep base segs ↔ Beneath sep base q ∧ Covers sep q (extend sep base segs) := by
  constructor
  · exact fun h => ⟨beneath_of_mem_chain h,covers_of_mem_chain h⟩
  rintro ⟨hb,hc⟩
  induction segs generalizing base with
  | nil =>
    exact absurd hc.isPrefix.length_le (Nat.not_le.mpr hb.length_lt)
  | cons seg segs ih =>
    have hseg : sep ∉ seg := hs seg (by simp)
    have hsegs : ∀ seg' ∈ segs, sep ∉ seg' := fun seg' h => hs seg' (by simp [h])
    rcases hc.total (extend_covers (base ++ sep :: seg) segs) with h | h
    · rcases h with h | h
      · exact List.mem_cons.mpr (Or.inl h.symm)
      · have hq : Covers sep q base := (beneath_snoc_iff hseg).mp h
        exact absurd hq.isPrefix.length_le (Nat.not_le.mpr hb.length_lt)
    · rcases h with h | h
      · exact List.mem_cons.mpr (Or.inl h)
      · exact List.mem_cons.mpr (Or.inr (ih hsegs h hc))

/-- All but the last segment give exactly the paths strictly between base and path. -/
theorem mem_chain_dropLast_iff {segs : List (List α)} (hne : segs ≠ [])
    (hs : ∀ seg ∈ segs, sep ∉ seg) :
    q ∈ chain sep base segs.dropLast ↔
      Beneath sep base q ∧ Beneath sep q (extend sep base segs) := by
  have hlast : sep ∉ segs.getLast hne := hs _ (List.getLast_mem hne)
  have he : extend sep base segs =
      extend sep base segs.dropLast ++ sep :: segs.getLast hne := by
    conv_lhs => rw [← List.dropLast_append_getLast hne]
    rw [extend_append]
    rfl
  rw [mem_chain_iff (fun seg h => hs seg (List.dropLast_subset segs h)),he,beneath_snoc_iff hlast]

/-- A path beneath another has at least one more separator. -/
theorem Beneath.count_lt [DecidableEq α] (h : Beneath sep p q) : p.count sep < q.count sep := by
  obtain ⟨t,rfl⟩ := beneath_iff.mp h
  simp

theorem covers_cons_iff {a : α} : Covers sep (a :: p) (a :: q) ↔ Covers sep p q := by
  simp [Covers,Beneath]

/-- A path covers another when its segments are the first of the other's. -/
theorem splitOn_isPrefix_iff [DecidableEq α] :
    p.splitOn sep <+: q.splitOn sep ↔ Covers sep p q := by
  constructor
  · rintro ⟨rest,hrest⟩
    have hp : extend sep [] (p.splitOn sep) = sep :: p := extend_splitOn [] p
    have hq : extend sep [] (q.splitOn sep) = sep :: q := extend_splitOn [] q
    rw [← hrest,extend_append,hp] at hq
    rw [← covers_cons_iff (a := sep),← hq]
    exact extend_covers _ rest
  · rintro (rfl | h)
    · exact List.prefix_rfl
    · obtain ⟨t,rfl⟩ := beneath_iff.mp h
      rw [List.splitOn_append_cons_self]
      exact List.prefix_append _ _

end SepPath
