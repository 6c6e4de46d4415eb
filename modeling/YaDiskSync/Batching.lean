import Mathlib.Data.List.Basic
import Mathlib.Tactic.Common

/-! Batches of a queue: so many entries, and at most one of the large ones. What does not fit stays
in line, in its order. -/
namespace Batching

variable {α : Type*} (limit : ℕ) (isLarge : α → Bool)

/-- The batch, then what stays in line; `selected` entries are taken already. -/
def takeBatch : List α → ℕ → Bool → List α × List α
  | [], _, _ => ([],[])
  | entry :: queue, selected, largeUsed =>
    if selected < limit && (!isLarge entry || !largeUsed) then
      let (batch,deferred) := takeBatch queue (selected+1) (isLarge entry || largeUsed)
      (entry :: batch,deferred)
    else
      let (batch,deferred) := takeBatch queue selected largeUsed
      (batch,entry :: deferred)

/-- A queue cut into a batch and a rest. -/
structure IsBatch (queue batch rest : List α) : Prop where
  perm : (batch ++ rest).Perm queue
  batch_sublist : batch.Sublist queue
  rest_sublist : rest.Sublist queue
  length_le : batch.length ≤ limit
  large_le : batch.countP isLarge ≤ 1
  ne_nil : queue ≠ [] → batch ≠ []

section Take

variable {limit isLarge} {queue : List α} {selected : ℕ} {largeUsed : Bool}

theorem takeBatch_perm : ((takeBatch limit isLarge queue selected largeUsed).1 ++
    (takeBatch limit isLarge queue selected largeUsed).2).Perm queue := by
  induction queue generalizing selected largeUsed with
  | nil => exact List.Perm.refl _
  | cons entry queue ih =>
    rw [takeBatch]
    split
    · exact ih.cons entry
    · exact List.perm_middle.trans (ih.cons entry)

theorem takeBatch_sublist : (takeBatch limit isLarge queue selected largeUsed).1.Sublist queue ∧
    (takeBatch limit isLarge queue selected largeUsed).2.Sublist queue := by
  induction queue generalizing selected largeUsed with
  | nil => exact ⟨List.Sublist.refl _,List.Sublist.refl _⟩
  | cons entry queue ih =>
    rw [takeBatch]
    split
    · exact ⟨ih.1.cons_cons entry,ih.2.cons entry⟩
    · exact ⟨ih.1.cons entry,ih.2.cons_cons entry⟩

theorem takeBatch_length_le (h : selected ≤ limit) :
    selected+(takeBatch limit isLarge queue selected largeUsed).1.length ≤ limit := by
  induction queue generalizing selected largeUsed with
  | nil => exact h
  | cons entry queue ih =>
    rw [takeBatch]
    split
    · rename_i hfits
      have hlt : selected < limit := by simpa using (Bool.and_eq_true_iff.mp hfits).1
      have hrest : selected+1+(takeBatch limit isLarge queue (selected+1)
          (isLarge entry || largeUsed)).1.length ≤ limit := ih hlt
      simp only [List.length_cons]
      omega
    · exact ih h

/-- The large entries taken before count too. -/
theorem takeBatch_large_le :
    largeUsed.toNat+(takeBatch limit isLarge queue selected largeUsed).1.countP isLarge ≤ 1 := by
  induction queue generalizing selected largeUsed with
  | nil => simpa [takeBatch] using largeUsed.toNat_le
  | cons entry queue ih =>
    rw [takeBatch]
    split
    · rename_i hfits
      have hrest : (isLarge entry || largeUsed).toNat+(takeBatch limit isLarge queue (selected+1)
          (isLarge entry || largeUsed)).1.countP isLarge ≤ 1 := ih
      have honce : isLarge entry = true → largeUsed = false := by
        intro hl
        simpa [hl] using (Bool.and_eq_true_iff.mp hfits).2
      cases hl : isLarge entry with
      | true =>
        simp only [hl,Bool.true_or,Bool.toNat_true] at hrest
        simp only [honce hl,List.countP_cons,hl,Bool.toNat_false,if_true,Bool.or_false]
        omega
      | false =>
        simp only [hl,Bool.false_or] at hrest
        simpa [hl] using hrest
    · exact ih

/-- The first entry of a queue always fits. -/
theorem takeBatch_ne_nil (hlimit : 0 < limit) (hqueue : queue ≠ []) :
    (takeBatch limit isLarge queue 0 false).1 ≠ [] := by
  cases queue with
  | nil => exact absurd rfl hqueue
  | cons entry queue =>
    rw [takeBatch,if_pos (by simp [hlimit])]
    exact List.cons_ne_nil _ _

theorem takeBatch_isBatch (hlimit : 0 < limit) (queue : List α) :
    IsBatch limit isLarge queue (takeBatch limit isLarge queue 0 false).1
      (takeBatch limit isLarge queue 0 false).2 where
  perm := takeBatch_perm
  batch_sublist := takeBatch_sublist.1
  rest_sublist := takeBatch_sublist.2
  length_le := by
    have h : 0+(takeBatch limit isLarge queue 0 false).1.length ≤ limit :=
      takeBatch_length_le (Nat.zero_le limit)
    rwa [Nat.zero_add] at h
  large_le := by
    have h : false.toNat+(takeBatch limit isLarge queue 0 false).1.countP isLarge ≤ 1 :=
      takeBatch_large_le
    rwa [Bool.toNat_false,Nat.zero_add] at h
  ne_nil := takeBatch_ne_nil hlimit

end Take

/-- Batches taken one after another, and what is left in the end. -/
def takeBatches (take : List α → List α × List α) : ℕ → List α → List (List α) × List α
  | 0, queue => ([],queue)
  | _+1, [] => ([],[])
  | rounds+1, entry :: queue =>
    let (batch,rest) := take (entry :: queue)
    let (batches,left) := takeBatches take rounds rest
    (batch :: batches,left)

/-- A queue that has been handed out in batches. -/
structure HandedOut (queue : List α) (batches : List (List α)) : Prop where
  perm : batches.flatten.Perm queue
  batch : ∀ batch ∈ batches, batch ≠ [] ∧ batch.Sublist queue ∧ batch.length ≤ limit ∧
    batch.countP isLarge ≤ 1

variable {limit isLarge} {take : List α → List α × List α}

/-- A batch makes the queue shorter, so that as many rounds as there are entries suffice. -/
theorem takeBatches_handsOut
    (htake : ∀ queue, IsBatch limit isLarge queue (take queue).1 (take queue).2) {rounds : ℕ}
    {queue : List α} (hrounds : queue.length ≤ rounds) :
    (takeBatches take rounds queue).2 = [] ∧
      HandedOut limit isLarge queue (takeBatches take rounds queue).1 := by
  induction rounds generalizing queue with
  | zero =>
    have hnil : queue = [] := List.eq_nil_of_length_eq_zero (Nat.le_zero.mp hrounds)
    subst hnil
    exact ⟨rfl,⟨List.Perm.refl _,by simp [takeBatches]⟩⟩
  | succ rounds ih =>
    cases queue with
    | nil => exact ⟨rfl,⟨List.Perm.refl _,by simp [takeBatches]⟩⟩
    | cons entry queue =>
      have hbatch := htake (entry :: queue)
      rw [takeBatches]
      generalize take (entry :: queue) = taken at hbatch
      have hpos := List.length_pos_iff.mpr (hbatch.ne_nil (List.cons_ne_nil _ _))
      have hlength := hbatch.perm.length_eq
      rw [List.length_append] at hlength
      have hshorter : taken.2.length ≤ rounds := by
        rw [List.length_cons] at hrounds hlength
        omega
      obtain ⟨hleft,hrest⟩ := ih hshorter
      refine ⟨hleft,⟨?_,fun batch hb => ?_⟩⟩
      · rw [List.flatten_cons]
        exact (hrest.perm.append_left _).trans hbatch.perm
      · rcases List.mem_cons.mp hb with rfl | hb
        · exact ⟨hbatch.ne_nil (List.cons_ne_nil _ _),hbatch.batch_sublist,hbatch.length_le,
            hbatch.large_le⟩
        · obtain ⟨hne,hsub,hbounds⟩ := hrest.batch batch hb
          exact ⟨hne,hsub.trans hbatch.rest_sublist,hbounds⟩

end Batching
