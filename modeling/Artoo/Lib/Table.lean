import Artoo.Lib.Rows

/-! Tables with a primary key. The key constraint is a field, so no row is ever shadowed. -/
namespace Artoo.Lib

structure Table {α κ : Type} (key : α → κ) where
  rows : List α
  unique : (rows.map key).Nodup

namespace Table

variable {α κ : Type} {key : α → κ}

def empty : Table key := ⟨[], List.nodup_nil⟩

instance : Membership α (Table key) := ⟨fun t row => row ∈ t.rows⟩

theorem mem_def {t : Table key} {row : α} : row ∈ t ↔ row ∈ t.rows := Iff.rfl

@[simp] theorem not_mem_empty {row : α} : ¬ row ∈ (empty : Table key) := List.not_mem_nil

theorem key_inj {t : Table key} {a b : α} (ha : a ∈ t) (hb : b ∈ t) (same : key a = key b) :
    a = b :=
  key_injective t.unique ha hb same

/-- The rows of a query, in table order. -/
def select (t : Table key) (p : α → Bool) : List α := t.rows.filter p

@[simp] theorem mem_select {t : Table key} {p : α → Bool} {row : α} :
    row ∈ t.select p ↔ row ∈ t ∧ p row := List.mem_filter

theorem nodup_select {t : Table key} {p : α → Bool} : ((t.select p).map key).Nodup :=
  t.unique.sublist (List.filter_sublist.map key)

variable [DecidableEq κ]

/-- Insert a row, or replace the row of its key. -/
def put (t : Table key) (row : α) : Table key :=
  if taken : key row ∈ t.rows.map key then
    { rows := updateAt key (key row) (fun _ => row) t.rows
      unique := by
        rw [map_updateAt key (fun _ _ hit => hit.symm)]
        exact t.unique }
  else
    { rows := t.rows ++ [row]
      unique := by
        rw [List.map_append, List.map_singleton]
        exact List.nodup_append.mpr ⟨t.unique, List.nodup_singleton _, fun a ha b hb => by
          rw [List.mem_singleton.mp hb]
          exact fun same => taken (same ▸ ha)⟩ }

def get? (t : Table key) (k : κ) : Option α := t.rows.find? fun row => key row == k

theorem mem_put {t : Table key} {row other : α} :
    other ∈ t.put row ↔ other = row ∨ (other ∈ t ∧ key other ≠ key row) := by
  unfold put
  split
  · rename_i taken
    obtain ⟨old, member, same⟩ := List.mem_map.mp taken
    exact mem_updateAt t.unique member same
  · rename_i free
    have distinct : ∀ {r : α}, r ∈ t.rows → key r ≠ key row :=
      fun member same => free (List.mem_map.mpr ⟨_, member, same⟩)
    constructor
    · intro member
      rcases List.mem_append.mp member with old | new
      · exact Or.inr ⟨old, distinct old⟩
      · exact Or.inl (List.mem_singleton.mp new)
    · rintro (rfl | ⟨old, _⟩)
      · exact List.mem_append_right _ (List.mem_singleton.mpr rfl)
      · exact List.mem_append_left _ old

theorem get?_eq_some {t : Table key} {k : κ} {row : α} :
    t.get? k = some row ↔ row ∈ t ∧ key row = k := by
  constructor
  · intro found
    exact ⟨List.mem_of_find?_eq_some found, by simpa using List.find?_some found⟩
  · rintro ⟨member, rfl⟩
    cases found : t.get? (key row) with
    | none =>
      have absent := List.find?_eq_none.mp found row member
      simp at absent
    | some other =>
      have hit : key other = key row := by simpa using List.find?_some found
      rw [key_inj (List.mem_of_find?_eq_some found) member hit]

theorem get?_eq_none {t : Table key} {k : κ} : t.get? k = none ↔ ∀ row ∈ t, key row ≠ k := by
  simp [get?, mem_def, List.find?_eq_none]

theorem get?_of_keys {t : Table key} {keys : List κ} {k : κ} (is : t.rows.map key = keys)
    (off : k ∉ keys) : t.get? k = none := by
  rw [get?_eq_none]
  rintro row member rfl
  exact off (is ▸ List.mem_map_of_mem member)

omit [DecidableEq κ] in
theorem not_mem_of_keys {t : Table key} {row : α} (is : t.rows.map key = []) : ¬ row ∈ t := by
  intro member
  have rows := List.map_eq_nil_iff.mp is
  rw [mem_def, rows] at member
  cases member

theorem mem_of_get? {t : Table key} {k : κ} {row : α} (found : t.get? k = some row) : row ∈ t :=
  (get?_eq_some.mp found).1

theorem key_of_get? {t : Table key} {k : κ} {row : α} (found : t.get? k = some row) :
    key row = k :=
  (get?_eq_some.mp found).2

theorem get?_of_mem {t : Table key} {row : α} (member : row ∈ t) : t.get? (key row) = some row :=
  get?_eq_some.mpr ⟨member, rfl⟩

@[simp] theorem get?_put_self {t : Table key} {row : α} : (t.put row).get? (key row) = some row :=
  get?_eq_some.mpr ⟨mem_put.mpr (Or.inl rfl), rfl⟩

theorem get?_put_other {t : Table key} {row : α} {k : κ} (other : key row ≠ k) :
    (t.put row).get? k = t.get? k := by
  apply Option.ext
  intro found
  rw [get?_eq_some, get?_eq_some, mem_put]
  constructor
  · rintro ⟨rfl | ⟨member, _⟩, hit⟩
    · exact absurd hit other
    · exact ⟨member, hit⟩
  · rintro ⟨member, rfl⟩
    exact ⟨Or.inr ⟨member, fun same => other same.symm⟩, rfl⟩

theorem get?_put {t : Table key} {row : α} {k : κ} :
    (t.put row).get? k = if key row = k then some row else t.get? k := by
  split
  · rename_i hit
    rw [← hit, get?_put_self]
  · rename_i other
    exact get?_put_other other

/-- A fresh row comes last. -/
theorem rows_put_fresh {t : Table key} {row : α} (fresh : t.get? (key row) = none) :
    (t.put row).rows = t.rows ++ [row] := by
  have free : key row ∉ t.rows.map key := by
    intro taken
    obtain ⟨old, member, same⟩ := List.mem_map.mp taken
    exact get?_eq_none.mp fresh old member same
  unfold put
  rw [dif_neg free]

/-- A row of another key leaves the rows before it as they are. -/
theorem prefix_put {t u : Table key} {row : α} (before : t.rows <+: u.rows)
    (fresh : t.get? (key row) = none) : t.rows <+: (u.put row).rows := by
  obtain ⟨rest, is⟩ := before
  unfold put
  split
  · refine ⟨updateAt key (key row) (fun _ => row) rest, ?_⟩
    have same : updateAt key (key row) (fun _ => row) t.rows = t.rows := by
      refine (List.map_congr_left fun r member => ?_).trans (List.map_id t.rows)
      rw [if_neg fun hit => get?_eq_none.mp fresh r member (beq_iff_eq.mp hit)]
      rfl
    change _ = updateAt key (key row) (fun _ => row) u.rows
    rw [← is, updateAt, updateAt, List.map_append]
    exact congrArg (· ++ _) same.symm
  · exact ⟨rest ++ [row], by rw [← List.append_assoc, is]⟩

theorem put_of_mem {t : Table key} {row : α} (member : row ∈ t) : t.put row = t := by
  have taken : key row ∈ t.rows.map key := List.mem_map_of_mem member
  unfold put
  rw [dif_pos taken]
  congr 1
  unfold updateAt
  have same : ∀ other ∈ t.rows, (if key other == key row then row else other) = other := by
    intro other present
    split
    · rename_i hit
      exact key_inj present member (beq_iff_eq.mp hit) |>.symm
    · rfl
  rw [List.map_congr_left same, List.map_id']

theorem rows_put_there {t : Table key} {row old : α} (found : t.get? (key row) = some old) :
    (t.put row).rows = t.rows.map fun r => if key r = key row then row else r := by
  have taken : key row ∈ t.rows.map key := by
    obtain ⟨member, same⟩ := get?_eq_some.mp found
    exact same ▸ List.mem_map_of_mem member
  unfold put
  rw [dif_pos taken]
  simp only [updateAt, beq_iff_eq]

/-- A later row for a key takes the place of the earlier one. -/
theorem put_put {t : Table key} {a b : α} (same : key a = key b) : (t.put a).put b = t.put b := by
  have rows : ∀ x y : Table key, x.rows = y.rows → x = y := by
    rintro ⟨_, _⟩ ⟨_, _⟩ rfl
    rfl
  apply rows
  have there : (t.put a).get? (key b) = some a := same ▸ get?_put_self
  rw [rows_put_there there]
  cases found : t.get? (key b) with
  | some old =>
    rw [rows_put_there found, rows_put_there (same ▸ found), List.map_map]
    apply List.map_congr_left
    intro r _
    by_cases hit : key r = key a
    · simp [hit, same]
    · simp [hit, same ▸ hit]
  | none =>
    rw [rows_put_fresh found, rows_put_fresh (same ▸ found), List.map_append]
    congr 1
    · have off := get?_eq_none.mp found
      conv_rhs => rw [← List.map_id t.rows]
      apply List.map_congr_left
      intro r member
      rw [if_neg (off r member)]
      rfl
    · simp [same]

/-- Of rows for one key the last one stays. -/
theorem foldl_put {t : Table key} {rows : List α} {last : α}
    (same : ∀ row ∈ rows, key row = key last) : (rows ++ [last]).foldl put t = t.put last := by
  induction rows generalizing t with
  | nil => rfl
  | cons row rows ih =>
    change (rows ++ [last]).foldl put (t.put row) = t.put last
    rw [ih fun r there => same r (List.mem_cons_of_mem _ there), put_put (same row List.mem_cons_self)]

theorem get?_foldl_put {t : Table key} {rows : List α} {k : κ} (other : ∀ row ∈ rows, key row ≠ k) :
    (rows.foldl put t).get? k = t.get? k := by
  induction rows generalizing t with
  | nil => rfl
  | cons row rows ih =>
    rw [List.foldl_cons, ih fun r there => other r (List.mem_cons_of_mem _ there),
      get?_put_other (other row List.mem_cons_self)]

theorem prefix_foldl_put {t u : Table key} {rows : List α} (before : t.rows <+: u.rows)
    (fresh : ∀ row ∈ rows, t.get? (key row) = none) : t.rows <+: (rows.foldl put u).rows := by
  induction rows generalizing u with
  | nil => exact before
  | cons row rows ih =>
    apply ih (prefix_put before (fresh row List.mem_cons_self))
    exact fun r there => fresh r (List.mem_cons_of_mem _ there)

theorem get?_of_prefix {t u : Table key} {k : κ} {row : α} (before : t.rows <+: u.rows)
    (found : t.get? k = some row) : u.get? k = some row := by
  obtain ⟨member, rfl⟩ := get?_eq_some.mp found
  exact get?_of_mem (mem_def.mpr (before.subset member))

/-- What is put stays there under its key. -/
theorem isSome_foldl_put {t : Table key} {rows : List α} {k : κ}
    (there : (∃ row ∈ rows, key row = k) ∨ (t.get? k).isSome) :
    ((rows.foldl put t).get? k).isSome := by
  induction rows generalizing t with
  | nil =>
    rcases there with ⟨row, member, _⟩ | old
    · cases member
    · exact old
  | cons row rows ih =>
    apply ih
    rw [get?_put]
    by_cases hit : key row = k
    · rw [if_pos hit]
      exact Or.inr rfl
    · rw [if_neg hit]
      rcases there with ⟨r, member, is⟩ | old
      · rcases List.mem_cons.mp member with rfl | later
        · exact absurd is hit
        · exact Or.inl ⟨r, later, is⟩
      · exact Or.inr old

theorem mem_foldl_put {t : Table key} {rows : List α} {row : α} (there : row ∈ rows.foldl put t) :
    row ∈ rows ∨ row ∈ t := by
  induction rows generalizing t with
  | nil => exact Or.inr there
  | cons first rows ih =>
    rcases ih there with later | before
    · exact Or.inl (List.mem_cons_of_mem _ later)
    · rcases mem_put.mp before with rfl | ⟨old, _⟩
      · exact Or.inl List.mem_cons_self
      · exact Or.inr old

/-- A row that replaces another one in a selection. -/
theorem select_put_there {t : Table key} {row old : α} {p : α → Bool} {R : α → α → Prop}
    (found : t.get? (key row) = some old) (keeps : p row = p old) (refl : ∀ r, R r r)
    (step : R old row) : List.Forall₂ R (t.select p) ((t.put row).select p) := by
  obtain ⟨member, same⟩ := get?_eq_some.mp found
  unfold select
  rw [rows_put_there found, List.filter_map]
  have congr_ : t.rows.filter (p ∘ fun r => if key r = key row then row else r) =
      t.rows.filter p := by
    apply List.filter_congr
    intro r there
    by_cases hit : key r = key row
    · have is : r = old := key_inj there member (hit.trans same.symm)
      simp [is, same, keeps]
    · simp [hit]
  rw [congr_, List.forall₂_map_right_iff]
  apply List.forall₂_same.mpr
  intro r there
  by_cases hit : key r = key row
  · have is : r = old := key_inj (List.mem_filter.mp there).1 member (hit.trans same.symm)
    simpa [is, same] using step
  · simpa [hit] using refl r

theorem select_put_fresh {t : Table key} {row : α} {p : α → Bool} (fresh : t.get? (key row) = none) :
    (t.put row).select p = t.select p ++ if p row then [row] else [] := by
  unfold select
  rw [rows_put_fresh fresh, List.filter_append]
  cases hit : p row <;> simp [hit]

/-- A put of a row that is not selected, in the place of none that is. -/
theorem select_put_out {t : Table key} {row : α} {p : α → Bool} (out : p row = false)
    (was : ∀ old, t.get? (key row) = some old → p old = false) : (t.put row).select p = t.select p := by
  cases found : t.get? (key row) with
  | none =>
    rw [select_put_fresh found, out]
    simp
  | some old =>
    have off : ∀ r ∈ t.rows, key r = key row → p r = false := by
      intro r member same
      rw [t.key_inj member (mem_of_get? found) (same.trans (key_of_get? found).symm)]
      exact was old found
    unfold select
    rw [rows_put_there found]
    generalize t.rows = rows at off
    induction rows with
    | nil => rfl
    | cons r rows ih =>
      have rest := ih fun r' member => off r' (List.mem_cons_of_mem _ member)
      rw [List.map_cons, List.filter_cons, List.filter_cons, rest]
      split
      · rename_i same
        rw [out, off r List.mem_cons_self same]
        rfl
      · rfl

/-- A put adds at most its row to a count. -/
theorem countP_put_le {t : Table key} {row : α} {p : α → Bool} :
    (t.put row).rows.countP p ≤ t.rows.countP p + if p row then 1 else 0 := by
  unfold put
  split
  · rename_i taken
    obtain ⟨old, member, same⟩ := List.mem_map.mp taken
    have counted := countP_updateAt (fun _ => row) p t.unique member same
    dsimp only
    omega
  · have counted : (t.rows ++ [row]).countP p = t.rows.countP p + if p row then 1 else 0 := by
      rw [List.countP_append, List.countP_singleton]
    exact Nat.le_of_eq counted

/-- After rows of apart keys were put, what is there was put or was there under another key. -/
theorem mem_putAll {rows : List α} {t : Table key} {row : α} (apart : (rows.map key).Nodup) :
    row ∈ rows.foldl put t ↔ row ∈ rows ∨ (row ∈ t ∧ key row ∉ rows.map key) := by
  induction rows generalizing t with
  | nil => simp
  | cons first rows ih =>
    rw [List.map_cons, List.nodup_cons] at apart
    rw [List.foldl_cons, ih apart.2, mem_put, List.mem_cons, List.map_cons, List.mem_cons]
    constructor
    · rintro (later | ⟨rfl | ⟨old, other⟩, off⟩)
      · exact Or.inl (Or.inr later)
      · exact Or.inl (Or.inl rfl)
      · exact Or.inr ⟨old, fun hit => hit.elim other off⟩
    · rintro ((rfl | later) | ⟨old, off⟩)
      · exact Or.inr ⟨Or.inl rfl, apart.1⟩
      · exact Or.inl later
      · exact Or.inr ⟨Or.inr ⟨old, fun same => off (Or.inl same)⟩, fun hit => off (Or.inr hit)⟩

/-- The update of one row by its key, where there is one. -/
def adjust (t : Table key) (k : κ) (f : α → α) : Table key :=
  match t.get? k with
  | some row => t.put (f row)
  | none => t

theorem get?_adjust {t : Table key} {k j : κ} {f : α → α} (keeps : ∀ row, key (f row) = key row) :
    (t.adjust k f).get? j = if k = j then (t.get? j).map f else t.get? j := by
  unfold adjust
  cases found : t.get? k with
  | none =>
    change t.get? j = _
    by_cases hit : k = j
    · rw [if_pos hit, ← hit, found]
      rfl
    · rw [if_neg hit]
  | some row =>
    change (t.put (f row)).get? j = _
    rw [get?_put, keeps row, key_of_get? found]
    by_cases hit : k = j
    · rw [if_pos hit, if_pos hit, ← hit, found]
      rfl
    · rw [if_neg hit, if_neg hit]

theorem get?_adjust_self {t : Table key} {k : κ} {f : α → α} {row : α}
    (found : t.get? k = some row) (keeps : key (f row) = key row) :
    (t.adjust k f).get? k = some (f row) := by
  have there : key (f row) = k := keeps.trans (key_of_get? found)
  unfold adjust
  rw [found]
  exact there ▸ get?_put_self

/-- Delete the row of a key. -/
def remove (t : Table key) (k : κ) : Table key where
  rows := t.rows.filter fun row => key row != k
  unique := t.unique.sublist (List.filter_sublist.map key)

@[simp] theorem mem_remove {t : Table key} {k : κ} {row : α} :
    row ∈ t.remove k ↔ row ∈ t ∧ key row ≠ k := by
  rw [mem_def, remove, List.mem_filter, bne_iff_ne]
  exact Iff.rfl

theorem get?_remove_other {t : Table key} {k j : κ} (other : k ≠ j) :
    (t.remove k).get? j = t.get? j := by
  apply Option.ext
  intro row
  rw [get?_eq_some, get?_eq_some, mem_remove]
  constructor
  · rintro ⟨⟨member, _⟩, hit⟩
    exact ⟨member, hit⟩
  · rintro ⟨member, rfl⟩
    exact ⟨⟨member, fun same => other same.symm⟩, rfl⟩

section Map

variable {β : Type} {key' : β → κ} {f : α → β}

end Map

end Table

end Artoo.Lib
