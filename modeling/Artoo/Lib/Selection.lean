import Mathlib.Data.List.Sort

/-! The first elements of a list by rank. -/
namespace Artoo.Lib

section Selection

variable {α κ : Type} [LinearOrder κ] {rank : α → κ} {l l' : List α}

def byRank (rank : α → κ) (l : List α) : List α := l.insertionSort fun a b => rank a ≤ rank b

instance total_rank : Std.Total fun a b : α => rank a ≤ rank b := ⟨fun a b => le_total (rank a) (rank b)⟩

instance trans_rank : IsTrans α fun a b => rank a ≤ rank b := ⟨fun _ _ _ left right => le_trans left right⟩

theorem byRank_perm : (byRank rank l).Perm l := List.perm_insertionSort _ l

theorem byRank_sorted : (byRank rank l).Pairwise fun a b => rank a ≤ rank b :=
  List.pairwise_insertionSort _ l

/-- The ranks do not depend on the order of the list. -/
theorem map_byRank_perm (perm : l.Perm l') :
    (byRank rank l).map rank = (byRank rank l').map rank := by
  have ranks : ((byRank rank l).map rank).Perm ((byRank rank l').map rank) :=
    ((byRank_perm.trans perm).trans byRank_perm.symm).map rank
  apply ranks.eq_of_pairwise fun _ _ _ _ le ge => le_antisymm le ge
  · rw [List.pairwise_map]
    exact byRank_sorted
  · rw [List.pairwise_map]
    exact byRank_sorted

/-- Nor do the elements, where each has a rank of its own. -/
theorem byRank_of_perm (perm : l.Perm l') (apart : ∀ a ∈ l, ∀ b ∈ l, rank a = rank b → a = b) :
    byRank rank l = byRank rank l' := by
  have same : (byRank rank l).Perm (byRank rank l') :=
    (byRank_perm.trans perm).trans byRank_perm.symm
  have sorted : (byRank rank l).Pairwise fun a b => rank a ≤ rank b := byRank_sorted
  apply same.eq_of_pairwise _ sorted byRank_sorted
  intro a b first second le ge
  exact apart a (byRank_perm.mem_iff.mp first) b
    (perm.mem_iff.mpr (byRank_perm.mem_iff.mp second)) (le_antisymm le ge)

theorem take_le_drop {r : α → α → Prop} (sorted : l.Pairwise r) (n : ℕ) :
    ∀ a ∈ l.take n, ∀ b ∈ l.drop n, r a b := by
  rw [← List.take_append_drop n l, List.pairwise_append] at sorted
  exact sorted.2.2

end Selection

/-! ## Pages of a list, cut at a rank -/

section Pages

variable {α κ : Type} [LinearOrder κ] {rank : α → κ} {l s : List α} {a b : α} {n : ℕ}

theorem byRank_strict (single : (l.map rank).Nodup) :
    (byRank rank l).Pairwise fun a b => rank a < rank b := by
  have sorted : (byRank rank l).Pairwise fun a b => rank a ≤ rank b := byRank_sorted
  have apart : ((byRank rank l).map rank).Nodup := (byRank_perm.map rank).nodup_iff.mpr single
  exact (sorted.and (List.pairwise_map.mp apart)).imp fun ⟨le, ne⟩ => lt_of_le_of_ne le ne

theorem eq_of_strict (perm : l.Perm s) (left : l.Pairwise fun a b => rank a < rank b)
    (right : s.Pairwise fun a b => rank a < rank b) : l = s :=
  perm.eq_of_pairwise (fun _ _ _ _ lt gt => absurd gt (lt_asymm lt)) left right

theorem byRank_filter (single : (l.map rank).Nodup) (p : α → Bool) :
    byRank rank (l.filter p) = (byRank rank l).filter p := by
  have sub : ((l.filter p).map rank).Nodup := single.sublist (List.filter_sublist.map rank)
  exact eq_of_strict (byRank_perm.trans (byRank_perm.filter p).symm) (byRank_strict sub)
    ((byRank_strict single).filter p)

theorem byRank_toDual (single : (l.map rank).Nodup) :
    byRank (fun a => OrderDual.toDual (rank a)) l = (byRank rank l).reverse := by
  have dual : (l.map fun a => OrderDual.toDual (rank a)).Nodup := by
    have := single.map (f := OrderDual.toDual) OrderDual.toDual.injective
    rwa [List.map_map] at this
  apply @eq_of_strict _ _ _ fun a => OrderDual.toDual (rank a)
  · exact byRank_perm.trans (byRank_perm.symm.trans (List.reverse_perm _).symm)
  · exact byRank_strict dual
  · exact List.pairwise_reverse.mpr (byRank_strict single)

variable (sorted : s.Pairwise fun a b => rank a < rank b)
include sorted

theorem rank_le_of_last (last : s.getLast? = some a) (among : b ∈ s) : rank b ≤ rank a := by
  obtain ⟨front, rfl⟩ := List.getLast?_eq_some_iff.mp last
  rcases List.mem_append.mp among with earlier | is
  · exact le_of_lt ((List.pairwise_append.mp sorted).2.2 b earlier a (List.mem_singleton_self a))
  · rw [List.mem_singleton.mp is]

/-- What is after a page of the first ones is what the page leaves. -/
theorem filter_after (last : (s.take n).getLast? = some a) :
    s.filter (fun b => decide (rank a < rank b)) = s.drop n := by
  rw [← List.take_append_drop n s, List.pairwise_append] at sorted
  have among : a ∈ s.take n := List.mem_of_getLast? last
  conv_lhs => rw [← List.take_append_drop n s]
  rw [List.filter_append, List.filter_eq_nil_iff.mpr, List.filter_eq_self.mpr, List.nil_append]
  · intro b there
    exact decide_eq_true (sorted.2.2 a among b there)
  · intro b there
    have le := rank_le_of_last sorted.1 last there
    exact fun lt => absurd (of_decide_eq_true lt) (not_lt.mpr le)

theorem mem_take_of_le (last : (s.take n).getLast? = some a) (among : b ∈ s)
    (le : rank b ≤ rank a) : b ∈ s.take n := by
  rw [← List.take_append_drop n s] at among
  refine (List.mem_append.mp among).resolve_right fun left => ?_
  rw [← filter_after sorted last] at left
  exact absurd (of_decide_eq_true (List.mem_filter.mp left).2) (not_lt.mpr le)

end Pages

end Artoo.Lib
