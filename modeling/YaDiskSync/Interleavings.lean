import Mathlib.Data.List.Sort

/-! Orders in which parallel tasks may run when a task has to wait for some of the others. What
the tasks report is sorted by a key in the end; it then no longer tells one order from another just
where two reports with the same key can only be made in one order. -/
namespace Interleavings

variable {α β κ : Type*} {before : α → α → Prop} {tasks order order' : List α}

/-- No task runs ahead of one it waits for. -/
structure IsOrder (before : α → α → Prop) (tasks order : List α) : Prop where
  perm : order.Perm tasks
  waits : order.Pairwise fun earlier later => ¬ before later earlier

section Orders

variable (rank : α → ℕ) (hrank : ∀ a b, before a b → rank a < rank b)

include hrank

theorem exists_isOrder (tasks : List α) : ∃ order, IsOrder before tasks order := by
  refine ⟨tasks.insertionSort fun a b => rank a ≤ rank b,List.perm_insertionSort _ _,?_⟩
  refine (List.pairwise_insertionSort (fun a b => rank a ≤ rank b) tasks).imp fun hle hbefore => ?_
  exact absurd (hrank _ _ hbefore) (Nat.not_lt.mpr hle)

/-- Two tasks of which the first does not wait for the second can run in this order: whatever the
first waits for goes ahead with it. -/
theorem exists_isOrder_pair (htrans : ∀ a b c, before a b → before b c → before a c) {a b : α}
    (ha : a ∈ tasks) (hb : b ∈ tasks) (hne : b ≠ a) (hfree : ¬ before b a) :
    ∃ order, IsOrder before tasks order ∧ [a,b].Sublist order := by
  classical
  obtain ⟨base,hbase⟩ := exists_isOrder rank hrank tasks
  let first := base.filter fun c => c = a ∨ before c a
  let rest := base.filter fun c => ¬ (c = a ∨ before c a)
  have hfirst : a ∈ first := List.mem_filter.mpr ⟨hbase.perm.mem_iff.mpr ha,by simp⟩
  have hrest : b ∈ rest := by
    refine List.mem_filter.mpr ⟨hbase.perm.mem_iff.mpr hb,?_⟩
    simp [hne,hfree]
  refine ⟨first ++ rest,⟨?_,?_⟩,?_⟩
  · have hperm := List.filter_append_perm (fun c => decide (c = a ∨ before c a)) base
    refine List.Perm.trans ?_ (hperm.trans hbase.perm)
    simp only [first,rest,decide_not]
    exact List.Perm.refl _
  · rw [List.pairwise_append]
    refine ⟨hbase.waits.sublist List.filter_sublist,hbase.waits.sublist List.filter_sublist,?_⟩
    intro c hc d hd hbefore
    have hca : c = a ∨ before c a := by simpa using (List.mem_filter.mp hc).2
    have hda : ¬ (d = a ∨ before d a) := by simpa using (List.mem_filter.mp hd).2
    rcases hca with rfl | hca
    · exact hda (Or.inr hbefore)
    · exact hda (Or.inr (htrans _ _ _ hbefore hca))
  · exact (List.singleton_sublist.mpr hfirst).append (List.singleton_sublist.mpr hrest)

end Orders

section Sorting

variable [LinearOrder κ] (key : α → κ)

theorem eq_of_pair_sublists {l : List α} (hnodup : l.Nodup) {a b : α} (hab : [a,b].Sublist l)
    (hba : [b,a].Sublist l) : a = b := by
  induction l with
  | nil => cases hab
  | cons c l ih =>
    obtain ⟨hc,hl⟩ := List.nodup_cons.mp hnodup
    cases hab with
    | cons _ hab =>
      cases hba with
      | cons _ hba => exact ih hl hab hba
      | cons_cons _ hba => exact absurd (hab.subset (by simp)) hc
    | cons_cons _ hab =>
      cases hba with
      | cons _ hba => exact absurd (hba.subset (by simp)) hc
      | cons_cons _ hba => rfl

theorem pair_sublist_or {l : List α} {a b : α} (ha : a ∈ l) (hb : b ∈ l) (hne : a ≠ b) :
    [a,b].Sublist l ∨ [b,a].Sublist l := by
  induction l with
  | nil => cases ha
  | cons c l ih =>
    rcases List.mem_cons.mp ha with rfl | hal
    · have hbl : b ∈ l := (List.mem_cons.mp hb).resolve_left (Ne.symm hne)
      exact Or.inl ((List.singleton_sublist.mpr hbl).cons_cons a)
    rcases List.mem_cons.mp hb with rfl | hbl
    · exact Or.inr ((List.singleton_sublist.mpr hal).cons_cons b)
    · exact (ih hal hbl).imp (fun h => h.cons c) fun h => h.cons c

/-- After the sort two tasks with the same key stand in the order they ran in. -/
theorem sorted_pairwise (hnodup : order.Nodup)
    (hwaits : order.Pairwise fun earlier later => ¬ before later earlier)
    (hties : ∀ a ∈ order, ∀ b ∈ order, a ≠ b → key a = key b → before a b ∨ before b a) :
    (order.insertionSort fun a b => key a ≤ key b).Pairwise fun a b =>
      key a < key b ∨ (key a = key b ∧ before a b) := by
  have hperm := List.perm_insertionSort (fun a b => key a ≤ key b) order
  have hsorted := List.pairwise_insertionSort (fun a b => key a ≤ key b) order
  rw [List.pairwise_iff_forall_sublist] at hsorted ⊢
  intro a b hab
  have ha : a ∈ order := hperm.mem_iff.mp (hab.subset (by simp))
  have hb : b ∈ order := hperm.mem_iff.mp (hab.subset (by simp))
  rcases lt_or_eq_of_le (hsorted hab) with hlt | heq
  · exact Or.inl hlt
  · have hne : a ≠ b := by
      have hpair := (hperm.nodup_iff.mpr hnodup).sublist hab
      simpa using hpair
    refine Or.inr ⟨heq,(hties a ha b hb hne heq).resolve_right fun hba => ?_⟩
    -- the sort is stable, so `b` did not run first
    have hrun : [b,a].Sublist order := (pair_sublist_or ha hb hne).resolve_left fun hsub =>
      List.pairwise_iff_forall_sublist.mp hwaits hsub hba
    exact hne (eq_of_pair_sublists (hperm.nodup_iff.mpr hnodup) hab
      (List.pair_sublist_insertionSort heq.ge hrun))

/-- Two orders sort alike when equal keys leave no choice. -/
theorem sorted_eq_of_ties (hasymm : ∀ a b, before a b → ¬ before b a) (hnodup : tasks.Nodup)
    (h : IsOrder before tasks order) (h' : IsOrder before tasks order')
    (hties : ∀ a ∈ tasks, ∀ b ∈ tasks, a ≠ b → key a = key b → before a b ∨ before b a) :
    (order.insertionSort fun a b => key a ≤ key b) =
      order'.insertionSort fun a b => key a ≤ key b := by
  have hpairs : ∀ {o : List α}, IsOrder before tasks o →
      (o.insertionSort fun a b => key a ≤ key b).Pairwise fun a b =>
        key a < key b ∨ (key a = key b ∧ before a b) := fun ho =>
    sorted_pairwise key (ho.perm.nodup_iff.mpr hnodup) ho.waits fun a ha b hb =>
      hties a (ho.perm.mem_iff.mp ha) b (ho.perm.mem_iff.mp hb)
  have hperm := ((List.perm_insertionSort (fun a b => key a ≤ key b) order).trans
    (h.perm.trans h'.perm.symm)).trans
    (List.perm_insertionSort (fun a b => key a ≤ key b) order').symm
  refine hperm.eq_of_pairwise (fun a b _ _ hab hba => ?_) (hpairs h) (hpairs h')
  rcases hab with hlt | ⟨heq,hab⟩
  · rcases hba with hlt' | ⟨heq',_⟩
    · exact absurd hlt' (lt_asymm hlt)
    · exact absurd hlt (by simp [heq'])
  · rcases hba with hlt' | ⟨_,hba⟩
    · exact absurd hlt' (by simp [heq])
    · exact absurd hba (hasymm a b hab)

end Sorting

section Reports

variable [LinearOrder κ] {pick : α → Option β}

/-- Reports stand in an order too, one after another as their tasks do. -/
theorem IsOrder.filterMap (h : IsOrder before tasks order)
    (hpick : ∀ a ∈ tasks, ∀ b ∈ tasks, ∀ x, pick a = some x → pick b = some x → a = b) :
    IsOrder (fun x y => ∃ a ∈ tasks, ∃ b ∈ tasks, pick a = some x ∧ pick b = some y ∧ before a b)
      (tasks.filterMap pick) (order.filterMap pick) := by
  refine ⟨h.perm.filterMap pick,List.pairwise_filterMap.mpr ?_⟩
  refine h.waits.imp_of_mem fun ha hb hwaits x hx y hy hbefore => ?_
  obtain ⟨b',hb',a',ha',hy',hx',hbefore⟩ := hbefore
  rw [hpick _ hb' _ (h.perm.mem_iff.mp hb) y hy' hy,
    hpick _ ha' _ (h.perm.mem_iff.mp ha) x hx' hx] at hbefore
  exact hwaits hbefore

/-- The sorted reports are the same in every order just when of two tasks whose reports have the
same key one waits for the other. -/
theorem sorted_reports_agree_iff (key : β → κ) (rank : α → ℕ)
    (hrank : ∀ a b, before a b → rank a < rank b)
    (htrans : ∀ a b c, before a b → before b c → before a c) (hnodup : tasks.Nodup)
    (hpick : ∀ a ∈ tasks, ∀ b ∈ tasks, ∀ x, pick a = some x → pick b = some x → a = b) :
    (∀ order order', IsOrder before tasks order → IsOrder before tasks order' →
      ((order.filterMap pick).insertionSort fun x y => key x ≤ key y) =
        (order'.filterMap pick).insertionSort fun x y => key x ≤ key y) ↔
      ∀ a ∈ tasks, ∀ b ∈ tasks, a ≠ b → ∀ x y, pick a = some x → pick b = some y →
        key x = key y → before a b ∨ before b a := by
  have hreports : (tasks.filterMap pick).Nodup := by
    rw [List.Nodup,List.pairwise_filterMap]
    refine hnodup.imp_of_mem fun ha hb hne x hx y hy heq => ?_
    subst heq
    exact hne (hpick _ ha _ hb x hx hy)
  constructor
  · intro hagree a ha b hb hne x y hx hy hkey
    by_contra hfree
    rw [not_or] at hfree
    obtain ⟨order,horder,hab⟩ := exists_isOrder_pair rank hrank htrans ha hb (Ne.symm hne) hfree.2
    obtain ⟨order',horder',hba⟩ := exists_isOrder_pair rank hrank htrans hb ha hne hfree.1
    have hxy : [x,y].Sublist (order.filterMap pick) := by
      simpa [hx,hy] using hab.filterMap pick
    have hyx : [y,x].Sublist (order'.filterMap pick) := by
      simpa [hx,hy] using hba.filterMap pick
    have hsorted := List.pair_sublist_insertionSort (r := fun x y => key x ≤ key y) hkey.le hxy
    have hsorted' := List.pair_sublist_insertionSort (r := fun x y => key x ≤ key y) hkey.ge hyx
    rw [← hagree order order' horder horder'] at hsorted'
    have hperm := (List.perm_insertionSort (fun x y => key x ≤ key y) (order.filterMap pick)).trans
      (horder.perm.filterMap pick)
    have heq := eq_of_pair_sublists (hperm.nodup_iff.mpr hreports) hsorted hsorted'
    exact hne (hpick a ha b hb x hx (heq ▸ hy))
  · intro hties order order' horder horder'
    refine sorted_eq_of_ties key ?_ hreports (horder.filterMap hpick) (horder'.filterMap hpick) ?_
    · rintro x y ⟨a,ha,b,hb,hx,hy,hab⟩ ⟨b',hb',a',ha',hy',hx',hba⟩
      rw [hpick b' hb' b hb y hy' hy,hpick a' ha' a ha x hx' hx] at hba
      exact absurd (hrank a b hab) (Nat.lt_asymm (hrank b a hba))
    · intro x hx y hy hne hkey
      obtain ⟨a,ha,hx⟩ := List.mem_filterMap.mp hx
      obtain ⟨b,hb,hy⟩ := List.mem_filterMap.mp hy
      have hab : a ≠ b := by
        rintro rfl
        exact hne (Option.some.inj (hx.symm.trans hy))
      rcases hties a ha b hb hab x y hx hy hkey with h | h
      · exact Or.inl ⟨a,ha,b,hb,hx,hy,h⟩
      · exact Or.inr ⟨b,hb,a,ha,hy,hx,h⟩

end Reports

end Interleavings
