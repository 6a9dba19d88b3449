import Mathlib.Data.List.Nodup
import Mathlib.Data.List.Forall2

/-! Rows of a table as a list with unique keys, and the update of one row by its key. -/
namespace Artoo.Lib

universe u v

variable {α : Type u} {κ : Type v} [DecidableEq κ]

def updateAt (key : α → κ) (k : κ) (set : α → α) (rows : List α) : List α :=
  rows.map fun row => if key row == k then set row else row

variable {key : α → κ} {k : κ} {set : α → α} {rows : List α}

/-- A column that the update leaves alone is unchanged as a whole. -/
theorem map_updateAt {β : Type*} (column : α → β)
    (keeps : ∀ row ∈ rows, key row = k → column (set row) = column row) :
    (updateAt key k set rows).map column = rows.map column := by
  rw [updateAt, List.map_map]
  apply List.map_congr_left
  intro row member
  by_cases hit : key row = k
  · simpa [hit] using keeps row member hit
  · simp [hit]

omit [DecidableEq κ] in
theorem key_injective {a b : α} (unique : (rows.map key).Nodup) (ha : a ∈ rows) (hb : b ∈ rows)
    (same : key a = key b) : a = b :=
  List.inj_on_of_nodup_map unique ha hb same

/-- The rows after an update: the new row and every other old row. -/
theorem mem_updateAt {x y : α} (unique : (rows.map key).Nodup) (hx : x ∈ rows) (hk : key x = k) :
    y ∈ updateAt key k set rows ↔ y = set x ∨ (y ∈ rows ∧ key y ≠ k) := by
  simp only [updateAt, List.mem_map]
  constructor
  · rintro ⟨z, hz, rfl⟩
    by_cases hit : key z = k
    · left
      have same : z = x := key_injective unique hz hx (hit.trans hk.symm)
      simp [same, hk]
    · right
      simp [hit, hz]
  · rintro (rfl | ⟨hy, other⟩)
    · exact ⟨x, hx, by simp [hk]⟩
    · exact ⟨y, hy, by simp [other]⟩

theorem mem_of_updateAt_other {y : α} (h : y ∈ rows) (other : key y ≠ k) :
    y ∈ updateAt key k set rows :=
  List.mem_map.mpr ⟨y, h, by simp [other]⟩

/-- A count changes by the updated row alone. -/
theorem countP_updateAt (set : α → α) (p : α → Bool) {x : α} (unique : (rows.map key).Nodup) (hx : x ∈ rows)
    (hk : key x = k) :
    (updateAt key k set rows).countP p + (if p x then 1 else 0) =
      rows.countP p + (if p (set x) then 1 else 0) := by
  induction rows with
  | nil => cases hx
  | cons row rest ih =>
    simp only [List.map_cons, List.nodup_cons] at unique
    have untouched : key row = k → updateAt key k set rest = rest := by
      intro hit
      have others : ∀ other ∈ rest, (if key other == k then set other else other) = other := by
        intro other member
        have differs : key other ≠ k := by
          intro same
          exact unique.1 (List.mem_map.mpr ⟨other, member, same.trans hit.symm⟩)
        simp [differs]
      exact (List.map_congr_left others).trans (List.map_id' rest)
    rcases List.mem_cons.mp hx with rfl | hx
    · have tail := untouched hk
      simp only [updateAt] at tail
      simp only [updateAt, List.map_cons, List.countP_cons, tail, hk, beq_self_eq_true, if_true]
      omega
    · have other : key row ≠ k := by
        intro hit
        exact unique.1 (List.mem_map.mpr ⟨x, hx, hk.trans hit.symm⟩)
      have tail := ih unique.2 hx
      simp only [updateAt] at tail
      simp only [updateAt, List.map_cons, List.countP_cons, beq_eq_false_iff_ne.mpr other,
        Bool.false_eq_true, if_false]
      omega

/-- The rows of one key are at most one row. -/
theorem countP_key (q : α → Bool) {x : α} (unique : (rows.map key).Nodup) (hx : x ∈ rows)
    (hk : key x = k) : rows.countP (fun row => key row == k && q row) = if q x then 1 else 0 := by
  induction rows with
  | nil => cases hx
  | cons row rest ih =>
    simp only [List.map_cons, List.nodup_cons] at unique
    rw [List.countP_cons]
    rcases List.mem_cons.mp hx with rfl | hx
    · have none : rest.countP (fun row => key row == k && q row) = 0 := by
        refine List.countP_eq_zero.mpr fun other member hit => ?_
        simp only [Bool.and_eq_true, beq_iff_eq] at hit
        exact unique.1 (List.mem_map.mpr ⟨other, member, hit.1.trans hk.symm⟩)
      simp [none, hk]
    · have other : key row ≠ k := by
        intro hit
        exact unique.1 (List.mem_map.mpr ⟨x, hx, hk.trans hit.symm⟩)
      simp [ih unique.2 hx, other]

end Artoo.Lib
