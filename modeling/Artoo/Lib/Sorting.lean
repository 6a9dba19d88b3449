import Mathlib.Data.Int.Notation
import Mathlib.Data.List.Basic

/-! What `sort` promises with a comparator, whatever its algorithm is. -/
namespace Artoo.Lib

variable {α : Type}

/-- The comparator is consistent on the elements of a list. -/
structure Consistent (cmp : α → α → ℤ) (l : List α) : Prop where
  antisymm : ∀ x ∈ l, ∀ y ∈ l, (cmp x y).sign = -(cmp y x).sign
  trans : ∀ x ∈ l, ∀ y ∈ l, ∀ z ∈ l, cmp x y ≤ 0 → cmp y z ≤ 0 → cmp x z ≤ 0

/-- A sort reads nothing but the signs of comparisons. Without a consistent comparator it only
permutes. -/
structure Sorting (α : Type) where
  sort : (α → α → ℤ) → List α → List α
  perm : ∀ cmp l, (sort cmp l).Perm l
  sorted : ∀ cmp l, Consistent cmp l → (sort cmp l).Pairwise fun x y => cmp x y ≤ 0
  uniform : ∀ cmp cmp' (f : α → α) l,
    (∀ x ∈ l, ∀ y ∈ l, (cmp (f x) (f y)).sign = (cmp' x y).sign) →
      sort cmp (l.map f) = (sort cmp' l).map f

section Consistent

variable {cmp : α → α → ℤ} {l l' : List α} {x y : α}

theorem Consistent.le_total (consistent : Consistent cmp l) (hx : x ∈ l) (hy : y ∈ l) :
    cmp x y ≤ 0 ∨ cmp y x ≤ 0 := by
  have signs := consistent.antisymm x hx y hy
  rcases Int.lt_or_le 0 (cmp x y) with gt | le
  · rw [Int.sign_eq_one_of_pos gt] at signs
    right
    by_contra off
    rw [Int.sign_eq_one_of_pos (Int.not_le.mp off)] at signs
    exact absurd signs (by decide)
  · exact .inl le

theorem Consistent.eq_zero (consistent : Consistent cmp l) (hx : x ∈ l) (hy : y ∈ l)
    (le : cmp x y ≤ 0) (ge : cmp y x ≤ 0) : cmp x y = 0 := by
  have signs := consistent.antisymm x hx y hy
  by_contra off
  rw [Int.sign_eq_neg_one_of_neg (by omega)] at signs
  by_cases is : cmp y x = 0
  · rw [is] at signs
    exact absurd signs (by decide)
  · rw [Int.sign_eq_neg_one_of_neg (by omega)] at signs
    exact absurd signs (by decide)

theorem Consistent.subset (consistent : Consistent cmp l) (sub : l' ⊆ l) : Consistent cmp l' :=
  ⟨fun x hx y hy => consistent.antisymm x (sub hx) y (sub hy),
    fun x hx y hy z hz => consistent.trans x (sub hx) y (sub hy) z (sub hz)⟩

end Consistent

namespace Sorting

variable (S : Sorting α) {cmp : α → α → ℤ} {l l' : List α} {a b c : α}

/-- Where elements compare as equal only if they are, the order does not depend on the input's. -/
theorem eq_of_perm (consistent : Consistent cmp l)
    (strict : ∀ x ∈ l, ∀ y ∈ l, cmp x y = 0 → x = y) (perm : l.Perm l') :
    S.sort cmp l = S.sort cmp l' := by
  have sorted' := S.sorted cmp l' (consistent.subset perm.symm.subset)
  refine List.Perm.eq_of_pairwise ?_ (S.sorted cmp l consistent) sorted'
    ((S.perm cmp l).trans (perm.trans (S.perm cmp l').symm))
  intro x y hx hy le ge
  have hx' := (S.perm cmp l).subset hx
  have hy' := perm.symm.subset ((S.perm cmp l').subset hy)
  exact strict x hx' y hy' (consistent.eq_zero hx' hy' le ge)

/-- A list whose elements can be exchanged for others, with the comparisons as they are, is sorted in
more than one order. -/
theorem ne_of_exchange {β : Type} (key : α → β) (f : α → α)
    (signs : ∀ x ∈ l, ∀ y ∈ l, (cmp (f x) (f y)).sign = (cmp x y).sign)
    (moved : ∀ x ∈ l, key (f x) ≠ key x) (some_ : l ≠ []) :
    (S.sort cmp (l.map f)).map key ≠ (S.sort cmp l).map key := by
  intro same
  rw [S.uniform cmp cmp f l signs, List.map_map] at same
  have perm := S.perm cmp l
  cases sorted : S.sort cmp l with
  | nil =>
    rw [sorted] at perm
    exact some_ perm.nil_eq.symm
  | cons x rest =>
    rw [sorted] at same perm
    exact moved x (perm.subset List.mem_cons_self) (List.cons.inj same).1

/-- Three elements in a cycle. -/
theorem ne_of_cycle {β : Type} [DecidableEq β] (key : α → β)
    (refl : ∀ x ∈ [a, b, c], cmp x x = 0)
    (ab : cmp a b < 0) (bc : cmp b c < 0) (ca : cmp c a < 0)
    (ba : 0 < cmp b a) (cb : 0 < cmp c b) (ac : 0 < cmp a c)
    (keys : key a ≠ key b ∧ key b ≠ key c ∧ key c ≠ key a) :
    (S.sort cmp [b, c, a]).map key ≠ (S.sort cmp [a, b, c]).map key := by
  let f : α → α := fun x => if key x = key a then b else if key x = key b then c else a
  have fa : f a = b := if_pos rfl
  have fb : f b = c := by
    change (if key b = key a then b else if key b = key b then c else a) = c
    rw [if_neg keys.1.symm, if_pos rfl]
  have fc : f c = a := by
    change (if key c = key a then b else if key c = key b then c else a) = a
    rw [if_neg keys.2.2, if_neg keys.2.1.symm]
  have mapped : [b, c, a] = [a, b, c].map f := by
    rw [List.map_cons, List.map_cons, List.map_cons, fa, fb, fc]
    rfl
  rw [mapped]
  apply S.ne_of_exchange key f
  · have raa := refl a (by simp)
    have rbb := refl b (by simp)
    have rcc := refl c (by simp)
    simp only [List.mem_cons, List.not_mem_nil, or_false]
    rintro x (rfl | rfl | rfl) y (rfl | rfl | rfl) <;>
      simp only [fa, fb, fc, raa, rbb, rcc, Int.sign_eq_neg_one_of_neg, Int.sign_eq_one_of_pos, ab,
        bc, ca, ba, cb, ac]
  · simp only [List.mem_cons, List.not_mem_nil, or_false]
    rintro x (rfl | rfl | rfl)
    · rw [fa]
      exact keys.1.symm
    · rw [fb]
      exact keys.2.1.symm
    · rw [fc]
      exact keys.2.2.symm
  · exact List.cons_ne_nil _ _

/-- Two elements that compare as equal. -/
theorem ne_of_tie {β : Type} [DecidableEq β] (key : α → β) (refl : ∀ x ∈ [a, b], cmp x x = 0)
    (ab : cmp a b = 0) (ba : cmp b a = 0) (keys : key a ≠ key b) :
    (S.sort cmp [b, a]).map key ≠ (S.sort cmp [a, b]).map key := by
  let f : α → α := fun x => if key x = key a then b else a
  have fa : f a = b := if_pos rfl
  have fb : f b = a := if_neg keys.symm
  have mapped : [b, a] = [a, b].map f := by
    rw [List.map_cons, List.map_cons, fa, fb]
    rfl
  rw [mapped]
  apply S.ne_of_exchange key f
  · have raa := refl a (by simp)
    have rbb := refl b (by simp)
    simp only [List.mem_cons, List.not_mem_nil, or_false]
    rintro x (rfl | rfl) y (rfl | rfl) <;> simp only [fa, fb, raa, rbb, ab, ba]
  · simp only [List.mem_cons, List.not_mem_nil, or_false]
    rintro x (rfl | rfl)
    · rw [fa]
      exact keys.symm
    · rw [fb]
      exact keys
  · exact List.cons_ne_nil _ _

end Sorting

/-- The merge sort is one. -/
def mergeSorting : Sorting α where
  sort cmp l := l.mergeSort fun x y => decide (cmp x y ≤ 0)
  perm cmp l := List.mergeSort_perm l _
  sorted cmp l consistent := by
    have attached : (l.attach.mergeSort fun x y => decide (cmp x.1 y.1 ≤ 0)).map Subtype.val =
        l.mergeSort fun x y => decide (cmp x y ≤ 0) := by
      rw [List.map_mergeSort (s := fun x y => decide (cmp x y ≤ 0)) (fun _ _ _ _ => rfl),
        List.attach_map_subtype_val]
    rw [← attached, List.pairwise_map]
    refine (List.pairwise_mergeSort ?_ ?_ _).imp (fun h => of_decide_eq_true h)
    · rintro ⟨x, hx⟩ ⟨y, hy⟩ ⟨z, hz⟩ xy yz
      exact decide_eq_true (consistent.trans x hx y hy z hz (of_decide_eq_true xy)
        (of_decide_eq_true yz))
    · rintro ⟨x, hx⟩ ⟨y, hy⟩
      rw [Bool.or_eq_true]
      exact (consistent.le_total hx hy).imp decide_eq_true decide_eq_true
  uniform cmp cmp' f l signs := by
    refine (List.map_mergeSort ?_).symm
    intro x hx y hy
    rw [decide_eq_decide]
    have same := signs x hx y hy
    rw [← Int.not_lt, ← Int.not_lt, ← Int.sign_eq_one_iff_pos, ← Int.sign_eq_one_iff_pos, same]

end Artoo.Lib
