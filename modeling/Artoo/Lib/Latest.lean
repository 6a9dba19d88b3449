import Mathlib.Data.List.Induction
import Mathlib.Data.List.Nodup

/-! The row of the highest rank for each key: of a sorted list by its first rows, and of a list in any
order by a fold. -/
namespace Artoo.Lib

variable {α κ : Type} [DecidableEq κ] {key : α → κ} {rank : α → Nat} {rows others : List α} {k : κ}
  {found other : Option α}

/-- The first row of every key. -/
def distinctOn (key : α → κ) : List α → List α
  | [] => []
  | row :: rows => row :: (distinctOn key rows).filter fun later => decide (key later ≠ key row)

/-- The row is kept unless one of its key was that ranks as high. -/
def keepLatest (key : α → κ) (rank : α → Nat) (latest : κ → Option α) (row : α) : κ → Option α :=
  if (latest (key row)).all fun old => decide (rank old < rank row) then
    fun k => if k = key row then some row else latest k
  else latest

/-- The highest row of a key; none where the key has no row. -/
def IsLatest (key : α → κ) (rank : α → Nat) (rows : List α) (k : κ) : Option α → Prop
  | none => ∀ row ∈ rows, key row ≠ k
  | some row => row ∈ rows ∧ key row = k ∧ ∀ other ∈ rows, key other = k → rank other ≤ rank row

omit [DecidableEq κ] in
theorem IsLatest.unique (h : IsLatest key rank rows k found) (h' : IsLatest key rank rows k other)
    (distinct : (rows.map rank).Nodup) : found = other := by
  cases found with
  | none =>
    cases other with
    | none => rfl
    | some b => exact absurd h'.2.1 (h b h'.1)
  | some a =>
    cases other with
    | none => exact absurd h.2.1 (h' a h.1)
    | some b =>
      have below := h.2.2 b h'.1 h'.2.1
      have above := h'.2.2 a h.1 h.2.1
      have same := List.inj_on_of_nodup_map distinct h.1 h'.1 (by omega)
      rw [same]

omit [DecidableEq κ] in
/-- Only the rows of the key count. -/
theorem IsLatest.congr (h : IsLatest key rank rows k found)
    (same : ∀ row, key row = k → (row ∈ rows ↔ row ∈ others)) : IsLatest key rank others k found := by
  cases found with
  | none => exact fun row there ofKey => h row ((same row ofKey).mpr there) ofKey
  | some a =>
    refine ⟨(same a h.2.1).mp h.1, h.2.1, fun b there ofKey => ?_⟩
    exact h.2.2 b ((same b ofKey).mpr there) ofKey

theorem find?_distinctOn : (distinctOn key rows).find? (fun row => decide (key row = k)) =
    rows.find? fun row => decide (key row = k) := by
  induction rows with
  | nil => rfl
  | cons row rows ih =>
    unfold distinctOn
    rw [List.find?_cons, List.find?_cons]
    by_cases first : key row = k
    · rw [decide_eq_true first]
    · rw [decide_eq_false first, ← ih]
      dsimp only
      rw [List.find?_filter]
      congr 1
      funext later
      by_cases hit : key later = k
      · simp [hit, Ne.symm first]
      · simp [hit]

theorem isLatest_find? (sorted : rows.Pairwise fun a b => key a = key b → rank b ≤ rank a) :
    IsLatest key rank rows k (rows.find? fun row => decide (key row = k)) := by
  induction rows with
  | nil => exact fun _ member => absurd member List.not_mem_nil
  | cons row rows ih =>
    rw [List.pairwise_cons] at sorted
    rw [List.find?_cons]
    by_cases first : key row = k
    · rw [decide_eq_true first]
      refine ⟨List.mem_cons_self, first, fun other member ofKey => ?_⟩
      rcases List.mem_cons.mp member with rfl | later
      · exact Nat.le_refl _
      · exact sorted.1 other later (first.trans ofKey.symm)
    · rw [decide_eq_false first]
      apply (ih sorted.2).congr
      intro other ofKey
      rw [List.mem_cons]
      exact ⟨Or.inr, fun member => member.resolve_left fun same => first (same ▸ ofKey)⟩

/-- In a list in the order of the ranks, it is the last row of the key. -/
theorem isLatest_getLast? (sorted : rows.Pairwise fun a b => rank a ≤ rank b) :
    IsLatest key rank rows k (rows.filter fun row => decide (key row = k)).getLast? := by
  have ofKey : ∀ row, row ∈ rows.filter (fun row => decide (key row = k)) ↔ row ∈ rows ∧ key row = k := by
    intro row
    rw [List.mem_filter, decide_eq_true_iff]
  cases last : (rows.filter fun row => decide (key row = k)).getLast? with
  | none =>
    rw [List.getLast?_eq_none_iff] at last
    intro row there is
    have inside := (ofKey row).mpr ⟨there, is⟩
    rw [last] at inside
    exact absurd inside List.not_mem_nil
  | some a =>
    obtain ⟨front, parts⟩ := List.getLast?_eq_some_iff.mp last
    have there := (ofKey a).mp (by rw [parts]; simp)
    refine ⟨there.1, there.2, fun other member is => ?_⟩
    have inside := (ofKey other).mpr ⟨member, is⟩
    have pairs := sorted.filter fun row => decide (key row = k)
    rw [parts] at inside pairs
    rcases List.mem_append.mp inside with earlier | same
    · exact (List.pairwise_append.mp pairs).2.2 other earlier a List.mem_cons_self
    · exact Nat.le_of_eq (congrArg rank (List.mem_singleton.mp same))

/-- One step of the fold. -/
theorem IsLatest.keep {latest : κ → Option α} {row : α}
    (h : ∀ k, IsLatest key rank rows k (latest k)) :
    ∀ k, IsLatest key rank (rows ++ [row]) k (keepLatest key rank latest row k) := by
  intro k
  have before := h k
  unfold keepLatest
  by_cases ofKey : key row = k
  · subst ofKey
    cases known : latest (key row) with
    | none =>
      rw [known] at before
      simp only [Option.all_none, if_true]
      refine ⟨by simp, rfl, fun other member same => ?_⟩
      rcases List.mem_append.mp member with old | new
      · exact absurd same (before other old)
      · exact Nat.le_of_eq (congrArg rank (List.mem_singleton.mp new))
    | some old =>
      rw [known] at before
      simp only [Option.all_some, decide_eq_true_eq]
      split
      · rename_i higher
        dsimp only
        rw [if_pos rfl]
        refine ⟨by simp, rfl, fun other member same => ?_⟩
        rcases List.mem_append.mp member with earlier | new
        · exact Nat.le_trans (before.2.2 other earlier same) (Nat.le_of_lt higher)
        · exact Nat.le_of_eq (congrArg rank (List.mem_singleton.mp new))
      · rename_i higher
        rw [known]
        refine ⟨List.mem_append_left _ before.1, before.2.1, fun other member same => ?_⟩
        rcases List.mem_append.mp member with earlier | new
        · exact before.2.2 other earlier same
        · rw [List.mem_singleton.mp new]
          omega
  · have kept : (if (latest (key row)).all fun old => decide (rank old < rank row) then
        fun k => if k = key row then some row else latest k else latest) k = latest k := by
      split
      · exact if_neg fun same => ofKey same.symm
      · rfl
    rw [kept]
    apply before.congr
    intro other same
    rw [List.mem_append, List.mem_singleton]
    exact ⟨Or.inl, fun member => member.resolve_right fun is => ofKey (is ▸ same)⟩

theorem isLatest_foldl : IsLatest key rank rows k (rows.foldl (keepLatest key rank) (fun _ => none) k) := by
  have all : ∀ k, IsLatest key rank rows k (rows.foldl (keepLatest key rank) (fun _ => none) k) := by
    induction rows using List.reverseRecOn with
    | nil => exact fun _ _ member => absurd member List.not_mem_nil
    | append_singleton rows row ih =>
      rw [List.foldl_append]
      exact IsLatest.keep ih
  exact all k

end Artoo.Lib
