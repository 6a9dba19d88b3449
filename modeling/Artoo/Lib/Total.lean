import Artoo.Lib.Table
import Mathlib.Algebra.Order.Ring.Int
import Mathlib.Algebra.BigOperators.Group.List.Basic

/-! The size of a table as the sum of the sizes of its rows. -/
namespace Artoo.Lib.Table

variable {α κ : Type} {key : α → κ} [DecidableEq κ] {size : α → Int} {t : Table key} {row old : α}
  {k : κ}

def total (size : α → Int) (t : Table key) : Int := (t.rows.map size).sum

/-- A change of the rows that keeps their keys. -/
def modify (t : Table key) (f : α → α) (keeps : ∀ row, key (f row) = key row) : Table key where
  rows := t.rows.map f
  unique := by
    have same : (t.rows.map f).map key = t.rows.map key := by
      rw [List.map_map]
      exact List.map_congr_left fun row _ => keeps row
    rw [same]
    exact t.unique

theorem total_put_fresh (fresh : t.get? (key row) = none) :
    (t.put row).total size = t.total size + size row := by
  unfold total
  rw [rows_put_fresh fresh]
  simp

theorem length_put_fresh (fresh : t.get? (key row) = none) :
    (t.put row).rows.length = t.rows.length + 1 := by
  rw [rows_put_fresh fresh, List.length_append]
  rfl

theorem total_put_there (found : t.get? (key row) = some old) (same : size row = size old) :
    (t.put row).total size = t.total size := by
  unfold total
  rw [rows_put_there found, List.map_map]
  congr 1
  apply List.map_congr_left
  intro r member
  change size (if key r = key row then row else r) = size r
  split
  · rename_i hit
    have there := get?_of_mem member
    rw [hit, found] at there
    rw [same, Option.some.inj there]
  · rfl

theorem length_put_there (found : t.get? (key row) = some old) :
    (t.put row).rows.length = t.rows.length := by
  rw [rows_put_there found, List.length_map]

theorem sum_filter_key {rows : List α} (unique : (rows.map key).Nodup) (there : row ∈ rows) :
    ((rows.filter fun r => key r != key row).map size).sum = (rows.map size).sum - size row := by
  induction rows with
  | nil => cases there
  | cons r rows ih =>
    rw [List.map_cons, List.nodup_cons] at unique
    rcases List.mem_cons.mp there with rfl | later
    · have rest : rows.filter (fun r => key r != key row) = rows := by
        apply List.filter_eq_self.mpr
        intro r member
        rw [bne_iff_ne]
        exact fun same => unique.1 (same ▸ List.mem_map_of_mem member)
      rw [List.filter_cons_of_neg (by simp), rest, List.map_cons, List.sum_cons]
      omega
    · have other : key r ≠ key row := fun same => unique.1 (same ▸ List.mem_map_of_mem later)
      rw [List.filter_cons_of_pos (by simpa using other), List.map_cons, List.map_cons,
        List.sum_cons, List.sum_cons, ih unique.2 later]
      omega

theorem total_remove (found : t.get? k = some row) :
    (t.remove k).total size = t.total size - size row := by
  obtain ⟨member, rfl⟩ := get?_eq_some.mp found
  exact sum_filter_key t.unique member

omit [DecidableEq κ] in
theorem mem_modify {f : α → α} (keeps : ∀ row, key (f row) = key row) :
    row ∈ t.modify f keeps ↔ ∃ old ∈ t, f old = row := List.mem_map

omit [DecidableEq κ] in
theorem total_modify {f : α → α} (keeps : ∀ row, key (f row) = key row)
    (same : ∀ row, size (f row) = size row) : (t.modify f keeps).total size = t.total size := by
  unfold total modify
  rw [List.map_map]
  exact congrArg List.sum (List.map_congr_left fun row _ => same row)

end Artoo.Lib.Table
