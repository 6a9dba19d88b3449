import Mathlib.Data.List.Basic

/-! Finite paths of a labelled step relation. One step lemma gives the invariant, the
reflexive transitive relation or the label count of every path. -/
namespace Artoo.Lib

universe u v

variable {S : Type u} {L : Type v}

inductive Path (step : L → S → S → Prop) : List L → S → S → Prop where
  | nil (s : S) : Path step [] s s
  | cons {l : L} {ls : List L} {s t r : S} : step l s t → Path step ls t r → Path step (l :: ls) s r

namespace Path

variable {step : L → S → S → Prop}

theorem single {l : L} {s t : S} (h : step l s t) : Path step [l] s t := .cons h (.nil t)

theorem append {ls ms : List L} {s t r : S} (first : Path step ls s t) (last : Path step ms t r) :
    Path step (ls ++ ms) s r := by
  induction first with
  | nil s => exact last
  | cons h _ ih => exact .cons h (ih last)

theorem snoc {ls : List L} {l : L} {s t r : S} (first : Path step ls s t) (last : step l t r) :
    Path step (ls ++ [l]) s r :=
  first.append (single last)

/-- A path over an appended label list passes through a middle state. -/
theorem split {ls ms : List L} {s r : S} (h : Path step (ls ++ ms) s r) :
    ∃ t, Path step ls s t ∧ Path step ms t r := by
  induction ls generalizing s with
  | nil => exact ⟨s, .nil s, h⟩
  | cons l ls ih =>
    cases h with
    | cons first rest =>
      obtain ⟨t, left, right⟩ := ih rest
      exact ⟨t, .cons first left, right⟩

/-- The step that carries a given label of the path. -/
theorem of_mem {ls : List L} {l : L} {s r : S} (h : Path step ls s r) (member : l ∈ ls) :
    ∃ before after t u, ls = before ++ l :: after ∧
      Path step before s t ∧ step l t u ∧ Path step after u r := by
  obtain ⟨before, after, rfl⟩ := List.append_of_mem member
  obtain ⟨t, left, right⟩ := h.split
  cases right with
  | cons first rest => exact ⟨before, after, t, _, rfl, left, first, rest⟩

theorem mono {step' : L → S → S → Prop} (sub : ∀ l s t, step l s t → step' l s t) {ls : List L}
    {s r : S} (h : Path step ls s r) : Path step' ls s r := by
  induction h with
  | nil s => exact .nil s
  | cons first _ ih => exact .cons (sub _ _ _ first) ih

theorem invariant {P : S → Prop} (preserves : ∀ l s t, P s → step l s t → P t)
    {ls : List L} {s r : S} (h : Path step ls s r) (initial : P s) : P r := by
  induction h with
  | nil s => exact initial
  | cons first _ ih => exact ih (preserves _ _ _ initial first)

/-- A reflexive transitive relation that every step from `P` states respects. -/
theorem relates {P : S → Prop} {R : S → S → Prop} (refl : ∀ s, R s s)
    (trans : ∀ s t r, R s t → R t r → R s r) (preserves : ∀ l s t, P s → step l s t → P t)
    (respects : ∀ l s t, P s → step l s t → R s t)
    {ls : List L} {s r : S} (h : Path step ls s r) (initial : P s) : R s r := by
  induction h with
  | nil s => exact refl s
  | cons first _ ih =>
    exact trans _ _ _ (respects _ _ _ initial first) (ih (preserves _ _ _ initial first))

/-- A measure that grows with every counted label bounds their number. -/
theorem count_le {P : S → Prop} (p : L → Bool) (measure : S → Nat)
    (preserves : ∀ l s t, P s → step l s t → P t)
    (grows : ∀ l s t, P s → step l s t → measure s + (if p l then 1 else 0) ≤ measure t)
    {ls : List L} {s r : S} (h : Path step ls s r) (initial : P s) :
    measure s + ls.countP p ≤ measure r := by
  induction h with
  | nil s => simp
  | cons first _ ih =>
    have head := grows _ _ _ initial first
    have tail := ih (preserves _ _ _ initial first)
    rw [List.countP_cons]
    omega

/-- An invariant of the labels passed so far and the state they lead to. -/
theorem history {H : List L → S → Prop}
    (extends_ : ∀ past l s t, H past s → step l s t → H (past ++ [l]) t)
    {ls : List L} {s r : S} (h : Path step ls s r) : ∀ past, H past s → H (past ++ ls) r := by
  induction h with
  | nil s =>
    intro past initial
    rw [List.append_nil]
    exact initial
  | cons first _ ih =>
    intro past initial
    rw [List.append_cons]
    exact ih _ (extends_ past _ _ _ initial first)

/-- The run of a list of labels by a step function, where each step meets the condition. -/
def exec (step : S → L → Option S) (ok : S → L → Prop) [∀ s l, Decidable (ok s l)] :
    List L → S → Option S
  | [], s => some s
  | l :: ls, s => if ok s l then (step s l).bind (exec step ok ls) else none

theorem of_exec {step : S → L → Option S} {ok : S → L → Prop} [∀ s l, Decidable (ok s l)]
    {ls : List L} {s t : S} (h : exec step ok ls s = some t) :
    Path (fun l s t => step s l = some t ∧ ok s l) ls s t := by
  induction ls generalizing s with
  | nil =>
    cases h
    exact .nil _
  | cons l ls ih =>
    unfold exec at h
    split at h
    · rename_i allowed
      obtain ⟨mid, first, rest⟩ := Option.bind_eq_some_iff.mp h
      exact .cons ⟨first, allowed⟩ (ih rest)
    · cases h

end Path

end Artoo.Lib
