import Mathlib.Data.List.Basic

/-! The components of a path: what its separators leave, without empty parts. -/
namespace Artoo.Lib

variable {α : Type} {sep : α → Bool} {a b cs : List α}

def components (sep : α → Bool) (path : List α) : List (List α) :=
  (path.splitOnP sep).filter fun part => !part.isEmpty

theorem components_nil : components sep [] = [] := rfl

theorem components_append {s : α} (is : sep s = true) :
    components sep (a ++ s :: b) = components sep a ++ components sep b := by
  unfold components
  rw [List.splitOnP_append_cons a b is, List.filter_append]

/-- A separator at the end changes nothing. -/
theorem components_snoc {s : α} (is : sep s = true) :
    components sep (a ++ [s]) = components sep a := by
  rw [components_append is, components_nil, List.append_nil]

theorem components_single (plain : ∀ c ∈ cs, sep c = false) (some_ : cs ≠ []) :
    components sep cs = [cs] := by
  unfold components
  rw [List.splitOnP_eq_singleton plain, List.filter_cons_of_pos (by simpa using some_),
    List.filter_nil]

/-! ## Parts between separators -/

variable {s : α}

theorem intercalate_append {parts rest : List (List α)} {part : List α} (some_ : parts ≠ []) :
    [s].intercalate (parts ++ part :: rest) =
      [s].intercalate parts ++ s :: [s].intercalate (part :: rest) := by
  induction parts with
  | nil => exact absurd rfl some_
  | cons first parts ih =>
    cases parts with
    | nil => simp [List.intercalate_cons_cons]
    | cons second parts =>
      have later := ih (List.cons_ne_nil _ _)
      rw [List.cons_append] at later ⊢
      rw [List.cons_append, List.intercalate_cons_cons, later, List.intercalate_cons_cons]
      simp

theorem getLast_intercalate {parts : List (List α)} (some_ : parts ≠ [])
    (each : ∀ part ∈ parts, part ≠ [] ∧ s ∉ part) :
    ∃ c, ([s].intercalate parts).getLast? = some c ∧ c ≠ s := by
  induction parts with
  | nil => exact absurd rfl some_
  | cons part parts ih =>
    have here := each part List.mem_cons_self
    cases parts with
    | nil =>
      rw [List.intercalate_singleton]
      refine ⟨part.getLast here.1, List.getLast?_eq_some_getLast here.1, ?_⟩
      intro is
      exact here.2 (is ▸ List.getLast_mem here.1)
    | cons next parts =>
      obtain ⟨c, last, other⟩ :=
        ih (List.cons_ne_nil _ _) fun p there => each p (List.mem_cons_of_mem _ there)
      refine ⟨c, ?_, other⟩
      rw [List.intercalate_cons_cons, List.getLast?_append, last, Option.some_or]

section Parts

variable [DecidableEq α]

/-- A part does not have the separator, and its characters are those of the list. -/
theorem splitOn_parts {l part : List α} (there : part ∈ l.splitOn s) :
    s ∉ part ∧ part ⊆ l := by
  induction l generalizing part with
  | nil =>
    rw [List.splitOn_nil, List.mem_singleton] at there
    simp [there]
  | cons c rest ih =>
    rw [List.splitOn_cons_eq_if_modifyHead] at there
    split at there
    · rcases List.mem_cons.mp there with rfl | later
      · exact ⟨List.not_mem_nil, List.nil_subset _⟩
      · exact ⟨(ih later).1, List.subset_cons_of_subset _ (ih later).2⟩
    · rename_i other
      cases parts : rest.splitOn s with
      | nil => exact absurd parts (List.splitOn_ne_nil s rest)
      | cons first others =>
        rw [parts, List.modifyHead_cons] at there
        rcases List.mem_cons.mp there with rfl | later
        · obtain ⟨apart, inside⟩ := ih (parts ▸ List.mem_cons_self)
          rw [List.mem_cons, not_or]
          exact ⟨⟨fun is => other (by simp [is]), apart⟩, List.cons_subset_cons c inside⟩
        · obtain ⟨apart, inside⟩ := ih (parts ▸ List.mem_cons_of_mem _ later)
          exact ⟨apart, List.subset_cons_of_subset _ inside⟩

/-- The parts of a text are the first parts of another if the text is followed there by a separator,
or by nothing. -/
theorem splitOn_of_prefixed : a.splitOn s <+: b.splitOn s ↔ a = b ∨ a ++ [s] <+: b := by
  constructor
  · rintro ⟨rest, is⟩
    have whole := congrArg [s].intercalate is
    rw [List.intercalate_splitOn] at whole
    cases rest with
    | nil =>
      rw [List.append_nil, List.intercalate_splitOn] at whole
      exact Or.inl whole
    | cons part rest =>
      rw [intercalate_append (List.splitOn_ne_nil s a), List.intercalate_splitOn] at whole
      exact Or.inr ⟨[s].intercalate (part :: rest), by rw [← whole]; simp⟩
  · rintro (rfl | ⟨rest, rfl⟩)
    · exact List.prefix_refl _
    · rw [List.append_assoc, List.singleton_append, List.splitOn_append_cons_self]
      exact List.prefix_append _ _

/-- A separator at the end is left out. -/
def trimmed (s : α) (a : List α) : List α := if a.getLast? = some s then a.dropLast else a

theorem trimmed_snoc : trimmed s (a ++ [s]) = a := by simp [trimmed]

theorem trimmed_of_ne (last : a.getLast? ≠ some s) : trimmed s a = a := if_neg last

theorem trimmed_cases (s : α) (a : List α) :
    a = trimmed s a ++ [s] ∨ (a.getLast? ≠ some s ∧ trimmed s a = a) := by
  by_cases last : a.getLast? = some s
  · left
    obtain ⟨front, rfl⟩ := List.getLast?_eq_some_iff.mp last
    rw [trimmed_snoc]
  · exact Or.inr ⟨last, trimmed_of_ne last⟩

end Parts

end Artoo.Lib
