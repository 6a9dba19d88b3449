import Mathlib.Data.List.Basic

/-! Blocks of a text that are separated by a doubled separator. -/
namespace Artoo.Lib

section Blocks

variable {α : Type} {s : α} {a b part text : List α} {parts blocks : List (List α)}

/-- The blocks with the separator behind each. -/
def terminated (s : α) (blocks : List (List α)) : List α := blocks.flatMap fun b => b ++ [s, s]

theorem terminated_modifyHead {c : α} (some_ : blocks ≠ []) :
    terminated s (blocks.modifyHead (c :: ·)) = c :: terminated s blocks := by
  cases blocks with
  | nil => exact absurd rfl some_
  | cons first others => rfl

theorem terminated_ends (some_ : blocks ≠ []) : ∃ text, terminated s blocks = text ++ [s, s] := by
  induction blocks with
  | nil => exact absurd rfl some_
  | cons first others ih =>
    cases others with
    | nil => exact ⟨first, by simp [terminated]⟩
    | cons second others =>
      obtain ⟨text, is⟩ := ih (List.cons_ne_nil _ _)
      refine ⟨first ++ [s, s] ++ text, ?_⟩
      change first ++ [s, s] ++ terminated s (second :: others) = _
      rw [is, List.append_assoc _ text]

/-- Without two separators next to each other, and without one at the end. -/
def Sparse (s : α) : List α → Prop
  | [] => True
  | c :: rest => (c = s → ∃ d, rest.head? = some d ∧ d ≠ s) ∧ Sparse s rest

theorem sparse_append (plain : s ∉ part) (sparse : Sparse s a) : Sparse s (part ++ a) := by
  induction part with
  | nil => exact sparse
  | cons c rest ih =>
    rw [List.mem_cons, not_or] at plain
    exact ⟨fun is => absurd is.symm plain.1, ih plain.2⟩

/-- Parts that are not empty, with one separator between two of them. -/
theorem sparse_intercalate (each : ∀ part ∈ parts, part ≠ [] ∧ s ∉ part) :
    Sparse s ([s].intercalate parts) := by
  induction parts with
  | nil => exact trivial
  | cons first parts ih =>
    have here := each first List.mem_cons_self
    have later := ih fun part there => each part (List.mem_cons_of_mem _ there)
    cases parts with
    | nil =>
      rw [List.intercalate_singleton, ← List.append_nil first]
      exact sparse_append here.2 trivial
    | cons next parts =>
      rw [List.intercalate_cons_cons, List.append_assoc]
      apply sparse_append here.2
      refine ⟨fun _ => ?_, later⟩
      have second := each next (List.mem_cons_of_mem _ List.mem_cons_self)
      cases next with
      | nil => exact absurd rfl second.1
      | cons d next =>
        refine ⟨d, ?_, fun is => second.2 (is ▸ List.mem_cons_self)⟩
        cases parts with
        | nil => rfl
        | cons third parts => rfl

/-! ## Splitting -/

variable [DecidableEq α]

/-- `text.split(s + s)`: from the left, and the separators found do not overlap. -/
def splitTwice (s : α) : List α → List (List α)
  | c :: d :: rest =>
    if c = s ∧ d = s then [] :: splitTwice s rest
    else (splitTwice s (d :: rest)).modifyHead (c :: ·)
  | rest => [rest]

theorem splitTwice_ne_nil (s : α) (text : List α) : splitTwice s text ≠ [] := by
  fun_induction splitTwice s text with
  | case1 => exact List.cons_ne_nil _ _
  | case2 c d rest _ ih =>
    cases is : splitTwice s (d :: rest) with
    | nil => exact absurd is ih
    | cons first others => exact List.cons_ne_nil _ _
  | case3 => exact List.cons_ne_nil _ _

theorem terminated_splitTwice (s : α) (text : List α) :
    terminated s (splitTwice s text) = text ++ [s, s] := by
  fun_induction splitTwice s text with
  | case1 c d rest is ih =>
    rw [is.1, is.2]
    change s :: s :: terminated s (splitTwice s rest) = _
    rw [ih]
    rfl
  | case2 c d rest _ ih =>
    rw [terminated_modifyHead (splitTwice_ne_nil s _), ih]
    rfl
  | case3 rest => simp [terminated]

theorem splitTwice_sparse (sparse : Sparse s a) :
    splitTwice s a = [a] ∧ splitTwice s (a ++ s :: s :: b) = a :: splitTwice s b := by
  induction a with
  | nil => simp [splitTwice]
  | cons c rest ih =>
    obtain ⟨here, later⟩ := sparse
    obtain ⟨alone, before⟩ := ih later
    cases rest with
    | nil =>
      have other : c ≠ s := by
        rintro rfl
        obtain ⟨d, none, -⟩ := here rfl
        cases none
      simp [splitTwice, other]
    | cons d rest =>
      have apart : ¬ (c = s ∧ d = s) := by
        rintro ⟨is, same⟩
        obtain ⟨e, head, other⟩ := here is
        exact other (Option.some.inj head ▸ same)
      rw [List.cons_append] at before
      rw [List.cons_append, List.cons_append, splitTwice, if_neg apart, alone, splitTwice,
        if_neg apart, before]
      exact ⟨rfl, rfl⟩

/-- Blocks of that kind are found again. -/
theorem splitTwice_of_terminated (some_ : blocks ≠ []) (sparse : ∀ b ∈ blocks, Sparse s b)
    (is : text ++ [s, s] = terminated s blocks) : splitTwice s text = blocks := by
  induction blocks generalizing text with
  | nil => exact absurd rfl some_
  | cons first others ih =>
    have here := sparse first List.mem_cons_self
    cases others with
    | nil =>
      have same : text = first := by simpa [terminated] using is
      rw [same]
      exact (splitTwice_sparse (b := []) here).1
    | cons second others =>
      obtain ⟨rest, ends⟩ := terminated_ends (s := s) (List.cons_ne_nil second others)
      have same : text = first ++ s :: s :: rest := by
        change _ = first ++ [s, s] ++ terminated s (second :: others) at is
        have whole : text ++ [s, s] = (first ++ s :: s :: rest) ++ [s, s] := by
          rw [is, ends]
          simp
        exact List.append_cancel_right whole
      rw [same, (splitTwice_sparse here).2, ih (List.cons_ne_nil _ _)
        (fun b there => sparse b (List.mem_cons_of_mem _ there)) ends.symm]

end Blocks

end Artoo.Lib
