import Mathlib.Data.List.Basic
import Mathlib.Data.List.Nodup

/-!
# Tables of rows

A table is the list of its rows, in the order of their insertion.  An update
rewrites the rows that a guard selects and keeps the others, so what it does not
write to a row is what the row had before.
-/

namespace GoatCitadel.Support

variable {ρ κ : Type*} {rows : List ρ}

/-- `UPDATE … SET … WHERE guard` -/
def updateRows (guard : ρ → Bool) (set : ρ → ρ) (rows : List ρ) : List ρ :=
  rows.map fun row => if guard row = true then set row else row

section Update

variable {guard : ρ → Bool} {set : ρ → ρ} {rows : List ρ}

theorem mem_updateRows {row' : ρ} :
    row' ∈ updateRows guard set rows ↔
      ∃ row ∈ rows, row' = if guard row = true then set row else row := by
  unfold updateRows
  rw [List.mem_map]
  constructor
  · rintro ⟨row, hrow, rfl⟩
    exact ⟨row, hrow, rfl⟩
  · rintro ⟨row, hrow, rfl⟩
    exact ⟨row, hrow, rfl⟩

/-- A column that the update writes to no row of the table. -/
theorem map_updateRows_of_mem {column : ρ → κ}
    (h : ∀ row ∈ rows, guard row = true → column (set row) = column row) :
    (updateRows guard set rows).map column = rows.map column := by
  unfold updateRows
  rw [List.map_map]
  apply List.map_congr_left
  intro row hrow
  rw [Function.comp_apply]
  split
  · rename_i hguard
    exact h row hrow hguard
  · rfl

/-- A column that the update does not write. -/
theorem map_updateRows {column : ρ → κ} (h : ∀ row, guard row = true →
    column (set row) = column row) :
    (updateRows guard set rows).map column = rows.map column :=
  map_updateRows_of_mem fun row _ => h row

/-- The row of a key after an update that does not write keys. -/
theorem find?_updateRows [DecidableEq κ] {key : ρ → κ} {k : κ}
    (h : ∀ row, guard row = true → key (set row) = key row) :
    (updateRows guard set rows).find? (key · = k) =
      (rows.find? (key · = k)).map fun row => if guard row = true then set row else row := by
  unfold updateRows
  rw [List.find?_map]
  congr 1
  apply congrArg (fun p => List.find? p rows)
  funext row
  rw [Function.comp_apply]
  split
  · rename_i hguard
    rw [h row hguard]
  · rfl

end Update

/-- Two rows of a key are one row. -/
theorem eq_of_key_eq {key : ρ → κ} (h : (rows.map key).Nodup) {row row' : ρ} (hrow : row ∈ rows)
    (hrow' : row' ∈ rows) (hkey : key row = key row') : row = row' :=
  List.inj_on_of_nodup_map h hrow hrow' hkey

/-- A row whose key is new. -/
theorem nodup_map_append_singleton {key : ρ → κ} {row : ρ} (h : (rows.map key).Nodup)
    (hnew : ∀ other ∈ rows, key other ≠ key row) : ((rows ++ [row]).map key).Nodup := by
  rw [List.map_append, List.map_singleton]
  refine List.Nodup.append h (List.nodup_singleton _) ?_
  rw [List.disjoint_singleton]
  intro hmem
  obtain ⟨other, hother, heq⟩ := List.mem_map.mp hmem
  exact hnew other hother heq

theorem forall_mem_append_singleton {p : ρ → Prop} {row : ρ} (h : ∀ other ∈ rows, p other)
    (hrow : p row) : ∀ other ∈ rows ++ [row], p other := by
  intro other hother
  obtain hmem | hmem := List.mem_append.mp hother
  · exact h other hmem
  · rw [List.mem_singleton] at hmem
    rw [hmem]
    exact hrow

theorem mem_of_find?_key [DecidableEq κ] {key : ρ → κ} {k : κ} {row : ρ}
    (h : rows.find? (key · = k) = some row) : row ∈ rows ∧ key row = k :=
  ⟨List.mem_of_find?_eq_some h, by simpa using List.find?_some h⟩

theorem find?_key_eq_none [DecidableEq κ] {key : ρ → κ} {k : κ} :
    rows.find? (key · = k) = none ↔ ∀ row ∈ rows, key row ≠ k := by
  simp [List.find?_eq_none]

/-- The row of a key is the one that the table has. -/
theorem find?_key_of_mem [DecidableEq κ] {key : ρ → κ} {row : ρ} (h : (rows.map key).Nodup)
    (hrow : row ∈ rows) : rows.find? (key · = key row) = some row := by
  cases hfind : rows.find? (key · = key row) with
  | none => exact absurd rfl (find?_key_eq_none.mp hfind row hrow)
  | some found =>
      obtain ⟨hmem, hkey⟩ := mem_of_find?_key hfind
      rw [eq_of_key_eq h hmem hrow hkey]

end GoatCitadel.Support
