import Mathlib.Data.List.Nodup
import Mathlib.Data.List.Basic

/-! Tables with a primary key. A table is the list of its rows; no two rows share a key. -/

structure Table {ρ κ : Type*} (key : ρ → κ) where
  rows : List ρ
  nodup : (rows.map key).Nodup

namespace Table

variable {ρ κ : Type*} {key : ρ → κ}

def empty : Table key := ⟨[],List.nodup_nil⟩

instance : Inhabited (Table key) := ⟨empty⟩

/-- `DELETE … WHERE`. -/
def deleteWhere (table : Table key) (p : ρ → Bool) : Table key where
  rows := table.rows.filter fun row => !p row
  nodup := table.nodup.sublist (List.filter_sublist.map key)

@[simp] theorem mem_deleteWhere {table : Table key} {p : ρ → Bool} {row : ρ} :
    row ∈ (table.deleteWhere p).rows ↔ row ∈ table.rows ∧ p row = false := by
  simp [deleteWhere]

/-- `UPDATE … SET` of columns outside the key. -/
def update (table : Table key) (f : ρ → ρ) (hf : ∀ row, key (f row) = key row) : Table key where
  rows := table.rows.map f
  nodup := by
    have hcomp : key ∘ f = key := funext hf
    rw [List.map_map,hcomp]
    exact table.nodup

theorem mem_update {table : Table key} {f : ρ → ρ} {hf : ∀ row, key (f row) = key row} {row : ρ} :
    row ∈ (table.update f hf).rows ↔ ∃ old ∈ table.rows, f old = row := by
  simp [update]

variable [DecidableEq κ]

def find (table : Table key) (k : κ) : Option ρ := table.rows.find? fun row => key row = k

/-- `INSERT … ON CONFLICT DO UPDATE`: `merge` is what the update makes of the row it meets. -/
def upsert (table : Table key) (row : ρ) (merge : ρ → ρ)
    (hmerge : ∀ old, key (merge old) = key old) : Table key :=
  if h : key row ∈ table.rows.map key then
    table.update (fun old => if key old = key row then merge old else old) fun old => by
      split
      · exact hmerge old
      · rfl
  else ⟨table.rows ++ [row],by
    rw [List.map_append,List.nodup_append']
    refine ⟨table.nodup,List.nodup_singleton _,?_⟩
    intro k hk hk'
    rw [List.map_singleton,List.mem_singleton] at hk'
    exact h (hk' ▸ hk)⟩

/-- The upsert that overwrites every column. -/
def put (table : Table key) (row : ρ) : Table key :=
  if h : key row ∈ table.rows.map key then
    { rows := table.rows.map fun old => if key old = key row then row else old
      nodup := by
        have hcomp : (key ∘ fun old => if key old = key row then row else old) = key := by
          funext old
          by_cases hk : key old = key row <;> simp [hk]
        rw [List.map_map,hcomp]
        exact table.nodup }
  else ⟨table.rows ++ [row],by
    rw [List.map_append,List.nodup_append']
    refine ⟨table.nodup,List.nodup_singleton _,?_⟩
    intro k hk hk'
    rw [List.map_singleton,List.mem_singleton] at hk'
    exact h (hk' ▸ hk)⟩

theorem mem_put {table : Table key} {row r : ρ} :
    r ∈ (table.put row).rows ↔ r = row ∨ (r ∈ table.rows ∧ key r ≠ key row) := by
  unfold put
  split
  · rename_i h
    simp only [List.mem_map]
    constructor
    · rintro ⟨old,ho,he⟩
      split at he
      · exact Or.inl he.symm
      · rename_i hk
        exact Or.inr (he ▸ ⟨ho,hk⟩)
    · rintro (rfl | ⟨hr,hk⟩)
      · obtain ⟨old,ho,he⟩ := List.mem_map.mp h
        exact ⟨old,ho,if_pos he⟩
      · exact ⟨r,hr,if_neg hk⟩
  · rename_i h
    simp only [List.mem_append,List.mem_singleton]
    constructor
    · rintro (hr | rfl)
      · exact Or.inr ⟨hr,fun hk => h (List.mem_map.mpr ⟨r,hr,hk⟩)⟩
      · exact Or.inl rfl
    · rintro (rfl | ⟨hr,_⟩)
      · exact Or.inr rfl
      · exact Or.inl hr

theorem mem_upsert {table : Table key} {row r : ρ} {merge : ρ → ρ}
    {hmerge : ∀ old, key (merge old) = key old} :
    r ∈ (table.upsert row merge hmerge).rows ↔
      (r ∈ table.rows ∧ key r ≠ key row) ∨
      (∃ old ∈ table.rows, key old = key row ∧ r = merge old) ∨
      (r = row ∧ key row ∉ table.rows.map key) := by
  unfold upsert
  split
  · rename_i h
    rw [mem_update]
    constructor
    · rintro ⟨old,ho,he⟩
      split at he
      · rename_i hk
        exact Or.inr (Or.inl ⟨old,ho,hk,he.symm⟩)
      · rename_i hk
        exact Or.inl (he ▸ ⟨ho,hk⟩)
    · rintro (⟨hr,hk⟩ | ⟨old,ho,hk,rfl⟩ | ⟨_,hn⟩)
      · exact ⟨r,hr,if_neg hk⟩
      · exact ⟨old,ho,if_pos hk⟩
      · exact absurd h hn
  · rename_i h
    simp only [List.mem_append,List.mem_singleton]
    constructor
    · rintro (hr | rfl)
      · exact Or.inl ⟨hr,fun hk => h (List.mem_map.mpr ⟨r,hr,hk⟩)⟩
      · exact Or.inr (Or.inr ⟨rfl,h⟩)
    · rintro (⟨hr,_⟩ | ⟨old,ho,hk,_⟩ | ⟨rfl,_⟩)
      · exact Or.inl hr
      · exact absurd (List.mem_map.mpr ⟨old,ho,hk⟩) h
      · exact Or.inr rfl

/-- A row is found by its key, and only it. -/
theorem find_eq_some {table : Table key} {k : κ} {row : ρ} :
    table.find k = some row ↔ row ∈ table.rows ∧ key row = k := by
  unfold find
  constructor
  · intro h
    exact ⟨List.mem_of_find?_eq_some h,by simpa using List.find?_some h⟩
  · rintro ⟨hr,hk⟩
    cases hf : table.rows.find? fun row => key row = k with
    | none => exact absurd hk (by simpa using List.find?_eq_none.mp hf row hr)
    | some other =>
      have ho := List.mem_of_find?_eq_some hf
      have hko : key other = k := by simpa using List.find?_some hf
      have heq := List.inj_on_of_nodup_map table.nodup ho hr (hko.trans hk.symm)
      rw [heq]

theorem find_put {table : Table key} {row : ρ} (k : κ) :
    (table.put row).find k = if key row = k then some row else table.find k := by
  ext r
  rw [find_eq_some,mem_put]
  split
  · rename_i hk
    subst hk
    constructor
    · rintro ⟨rfl | ⟨_,hne⟩,he⟩
      · rfl
      · exact absurd he hne
    · rintro ⟨⟩
      exact ⟨Or.inl rfl,rfl⟩
  · rename_i hk
    rw [find_eq_some]
    constructor
    · rintro ⟨rfl | ⟨hr,_⟩,he⟩
      · exact absurd he hk
      · exact ⟨hr,he⟩
    · rintro ⟨hr,he⟩
      exact ⟨Or.inr ⟨hr,fun h => hk (h.symm.trans he)⟩,he⟩

end Table
