/-
# AudioDown.Lib.Table — rows with a primary key

A table is a list of rows in which no two share a key.  The uniqueness is a field, so every operation
that builds a table proves it once, and afterwards a row is found by its key and nothing else.
-/
import Mathlib.Data.List.Nodup

namespace AudioDown.Lib

/-- Rows of type `α`, identified by `key`. -/
structure Table {α κ : Type} (key : α → κ) where
  rows : List α
  unique : (rows.map key).Nodup

namespace Table

variable {α κ : Type} {key : α → κ}

def empty : Table key := ⟨[], List.nodup_nil⟩

/-- Change rows in place, keeping their keys. -/
def update (table : Table key) (change : α → α) (keeps : ∀ row, key (change row) = key row) : Table key where
  rows := table.rows.map change
  unique := by
    rw [List.map_map, show key ∘ change = key from funext keeps]
    exact table.unique

def remove (table : Table key) (gone : α → Bool) : Table key where
  rows := table.rows.filter fun row => !gone row
  unique := (List.filter_sublist.map _).nodup table.unique

variable [DecidableEq κ]

def get (table : Table key) (k : κ) : Option α := table.rows.find? fun row => key row = k

def add (table : Table key) (row : α) (absent : table.get (key row) = none) : Table key where
  rows := table.rows ++ [row]
  unique := by
    rw [List.map_append, List.nodup_append]
    refine ⟨table.unique, List.nodup_singleton _, fun a ha b hb => ?_⟩
    obtain ⟨other, hother, rfl⟩ := List.mem_map.mp ha
    rw [List.map_singleton, List.mem_singleton] at hb
    subst hb
    simpa using List.find?_eq_none.mp absent other hother

variable {table : Table key} {k : κ} {row : α}

theorem get_eq_some : table.get k = some row ↔ row ∈ table.rows ∧ key row = k := by
  constructor
  · intro h
    exact ⟨List.mem_of_find?_eq_some h, by simpa using List.find?_some h⟩
  · rintro ⟨hmem, rfl⟩
    cases h : table.get (key row) with
    | none => simpa using List.find?_eq_none.mp h row hmem
    | some other =>
      have hother : key other = key row := by simpa using List.find?_some h
      rw [List.inj_on_of_nodup_map table.unique (List.mem_of_find?_eq_some h) hmem hother]

theorem key_of_get (h : table.get k = some row) : key row = k := (get_eq_some.mp h).2

theorem get_update {change : α → α} {keeps : ∀ row, key (change row) = key row} :
    (table.update change keeps).get k = (table.get k).map change := by
  unfold get update
  rw [List.find?_map]
  congr 2
  funext row
  simp [keeps]

theorem get_remove {gone : α → Bool} :
    (table.remove gone).get k = (table.get k).filter fun row => !gone row := by
  cases h : (table.remove gone).get k with
  | some row =>
    obtain ⟨hmem, hk⟩ := get_eq_some.mp h
    obtain ⟨hrow, hgone⟩ := List.mem_filter.mp hmem
    rw [get_eq_some.mpr ⟨hrow, hk⟩, Option.filter_some, if_pos hgone]
  | none =>
    cases hget : table.get k with
    | none => rfl
    | some row =>
      obtain ⟨hrow, hk⟩ := get_eq_some.mp hget
      rw [Option.filter_some]
      split
      · rename_i hgone
        have hkept : row ∈ (table.remove gone).rows := List.mem_filter.mpr ⟨hrow, hgone⟩
        rw [get_eq_some.mpr ⟨hkept, hk⟩] at h
        cases h
      · rfl

theorem get_add {absent : table.get (key row) = none} :
    (table.add row absent).get k = if k = key row then some row else table.get k := by
  unfold get add
  rw [List.find?_append]
  split
  · rename_i hk
    subst hk
    rw [show table.rows.find? _ = none from absent]
    simp
  · rename_i hk
    simp [Ne.symm hk]

theorem find?_of_mem {rows : List α} (h : ∀ row, row ∈ rows ↔ row ∈ table.rows) :
    (rows.find? fun row => key row = k) = table.get k := by
  cases hfind : rows.find? (fun row => decide (key row = k)) with
  | some row =>
    have hmem := (h row).mp (List.mem_of_find?_eq_some hfind)
    exact (get_eq_some.mpr ⟨hmem, by simpa using List.find?_some hfind⟩).symm
  | none =>
    cases hget : table.get k with
    | none => rfl
    | some row =>
      obtain ⟨hmem, hk⟩ := get_eq_some.mp hget
      simpa [hk] using List.find?_eq_none.mp hfind row ((h row).mpr hmem)

end Table

end AudioDown.Lib
