import Artoo.Lib.Graph

/-! Acyclic relations that are partial maps in both directions: their chains are linear. -/
namespace Artoo.Lib
open Relation

universe u

variable {α : Type u} {r : α → α → Prop} {a b c : α}

structure Lineage (r : α → α → Prop) : Prop where
  next : ∀ a b c, r a b → r a c → b = c
  previous : ∀ a b c, r a c → r b c → a = b
  acyclic : Acyclic r

/-- In one chain: linked by steps in either direction. -/
abbrev Together (r : α → α → Prop) : α → α → Prop := EqvGen r

/-- A chain is linear. -/
theorem Lineage.comparable (h : Lineage r) (together : Together r a b) :
    ReflTransGen r a b ∨ ReflTransGen r b a := by
  induction together with
  | rel a b step => exact Or.inl (.single step)
  | refl a => exact Or.inl .refl
  | symm a b _ ih => exact ih.symm
  | trans a b c _ _ left right =>
    rcases left with ab | ba
    · rcases right with bc | cb
      · exact Or.inl (ab.trans bc)
      · have back := ReflTransGen.total_of_right_unique (r := Function.swap r)
          (fun _ _ _ first second => h.previous _ _ _ first second) ab.swap cb.swap
        rcases back with ca | ac
        · exact Or.inr (reflTransGen_swap.mp ca)
        · exact Or.inl (reflTransGen_swap.mp ac)
    · rcases right with bc | cb
      · exact (ReflTransGen.total_of_right_unique
          (fun _ _ _ first second => h.next _ _ _ first second) ba bc)
      · exact Or.inr (cb.trans ba)

/-- An end of a chain is its newest element. -/
theorem Lineage.newest (h : Lineage r) (last : ∀ c, ¬ r a c) (together : Together r a b) :
    ReflTransGen r b a := by
  rcases h.comparable together with ab | ba
  · rcases ReflTransGen.cases_head ab with rfl | ⟨c, step, _⟩
    · exact .refl
    · exact absurd step (last c)
  · exact ba

/-- A chain has one end. -/
theorem Lineage.end_unique (h : Lineage r) (lastA : ∀ c, ¬ r a c) (lastB : ∀ c, ¬ r b c)
    (together : Together r a b) : a = b := by
  rcases ReflTransGen.cases_head (h.newest lastA together) with rfl | ⟨c, step, _⟩
  · rfl
  · exact absurd step (lastB c)

/-- A new element after the end of a chain. -/
theorem Lineage.add (h : Lineage r) (last : ∀ c, ¬ r a c) (apart : a ≠ b) (noNext : ∀ c, ¬ r b c)
    (noPrevious : ∀ c, ¬ r c b) : Lineage fun x y => r x y ∨ (x = a ∧ y = b) := by
  constructor
  · rintro x y z (old | ⟨rfl, rfl⟩) (old' | ⟨same, rfl⟩)
    · exact h.next x y z old old'
    · exact absurd (same ▸ old) (last y)
    · exact absurd old' (last z)
    · rfl
  · rintro x y z (old | ⟨rfl, rfl⟩) (old' | ⟨rfl, same⟩)
    · exact h.previous x y z old old'
    · exact absurd (same ▸ old) (noPrevious x)
    · exact absurd old' (noPrevious y)
    · rfl
  · apply h.acyclic.add
    intro path
    rcases ReflTransGen.cases_head path with same | ⟨c, step, _⟩
    · exact apart same.symm
    · exact noNext c step

end Artoo.Lib
