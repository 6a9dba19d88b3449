import Mathlib.Logic.Relation
import Mathlib.Data.List.Basic

/-! Directed graphs: acyclic relations, and the search of an edge list for a path. -/
namespace Artoo.Lib
open Relation

universe u v

section Acyclic

variable {α : Type u} {r s : α → α → Prop} {a b : α}

def Acyclic (r : α → α → Prop) : Prop := ∀ a, ¬ TransGen r a a

theorem Acyclic.mono (h : Acyclic s) (sub : ∀ a b, r a b → s a b) : Acyclic r :=
  fun a cycle => h a (TransGen.mono sub a a cycle)

theorem acyclic_empty (none_ : ∀ a b, ¬ r a b) : Acyclic r := by
  intro a cycle
  obtain ⟨b, first, _⟩ := TransGen.head'_iff.mp cycle
  exact none_ a b first

/-- A path over one more edge that closes no cycle takes that edge at most once. -/
theorem path_add (apart : ¬ ReflTransGen r b a) {x y : α}
    (path : TransGen (fun c d => r c d ∨ (c = a ∧ d = b)) x y) :
    TransGen r x y ∨ (ReflTransGen r x a ∧ ReflTransGen r b y) := by
  induction path with
  | single step =>
    rcases step with old | ⟨rfl, rfl⟩
    · exact Or.inl (.single old)
    · exact Or.inr ⟨.refl, .refl⟩
  | tail _ step ih =>
    rcases step with old | ⟨rfl, rfl⟩
    · rcases ih with before | ⟨left, right⟩
      · exact Or.inl (before.tail old)
      · exact Or.inr ⟨left, right.tail old⟩
    · rcases ih with before | ⟨_, right⟩
      · exact Or.inr ⟨before.to_reflTransGen, .refl⟩
      · exact absurd right apart

theorem Acyclic.add (h : Acyclic r) (apart : ¬ ReflTransGen r b a) :
    Acyclic fun c d => r c d ∨ (c = a ∧ d = b) := by
  intro x cycle
  rcases path_add apart cycle with old | ⟨left, right⟩
  · exact h x old
  · exact apart (right.trans left)

/-- Two graphs on apart sets of nodes. -/
theorem Acyclic.union {p : α → Prop} (left : Acyclic r) (right : Acyclic s)
    (outside : ∀ a b, r a b → ¬ p a ∧ ¬ p b) (inside : ∀ a b, s a b → p a ∧ p b) :
    Acyclic fun a b => r a b ∨ s a b := by
  have stays : ∀ {x y : α}, TransGen (fun a b => r a b ∨ s a b) x y →
      (¬ p y ∧ TransGen r x y) ∨ (p y ∧ TransGen s x y) := by
    intro x y path
    induction path with
    | single step =>
      rcases step with old | new
      · exact Or.inl ⟨(outside _ _ old).2, .single old⟩
      · exact Or.inr ⟨(inside _ _ new).2, .single new⟩
    | tail _ step ih =>
      rcases ih with ⟨off, before⟩ | ⟨on, before⟩
      · rcases step with old | new
        · exact Or.inl ⟨(outside _ _ old).2, before.tail old⟩
        · exact absurd (inside _ _ new).1 off
      · rcases step with old | new
        · exact absurd on (outside _ _ old).1
        · exact Or.inr ⟨(inside _ _ new).2, before.tail new⟩
  intro x cycle
  rcases stays cycle with ⟨_, old⟩ | ⟨_, new⟩
  · exact left x old
  · exact right x new

end Acyclic

section Search

variable {α : Type u} {β : Type v} {edges : List (α × α)} {a b : α}

def Edge (edges : List (α × α)) (a b : α) : Prop := (a, b) ∈ edges

def Reaches (edges : List (α × α)) : α → α → Prop := ReflTransGen (Edge edges)

theorem acyclic_append (h : Acyclic (Edge edges)) (apart : ¬ Reaches edges b a) :
    Acyclic (Edge (edges ++ [(a, b)])) := by
  apply (h.add apart).mono
  intro c d edge
  rcases List.mem_append.mp edge with old | new
  · exact Or.inl old
  · rw [List.mem_singleton, Prod.mk.injEq] at new
    exact Or.inr new

/-- Renaming the nodes of a graph keeps its paths, when it keeps the nodes apart. -/
theorem reaches_map {f : α → β} {p : α → Prop}
    (inj : ∀ a b, p a → p b → f a = f b → a = b)
    (nodes : ∀ a b, (a, b) ∈ edges → p a ∧ p b) (start : p a) (stop : p b) :
    Reaches (edges.map (Prod.map f f)) (f a) (f b) ↔ Reaches edges a b := by
  constructor
  · intro path
    have back : ∀ {y : β}, Reaches (edges.map (Prod.map f f)) (f a) y →
        ∃ c, p c ∧ f c = y ∧ Reaches edges a c := by
      intro y path
      induction path with
      | refl => exact ⟨a, start, rfl, .refl⟩
      | tail _ step ih =>
        obtain ⟨c, at_, rfl, before⟩ := ih
        obtain ⟨⟨d, e⟩, member, is⟩ := List.mem_map.mp step
        simp only [Prod.map_apply, Prod.mk.injEq] at is
        have same := inj d c (nodes d e member).1 at_ is.1
        exact ⟨e, (nodes d e member).2, is.2, before.tail (same ▸ member)⟩
    obtain ⟨c, at_, is, found⟩ := back path
    exact inj c b at_ stop is ▸ found
  · intro path
    induction path with
    | refl => exact .refl
    | tail before step ih =>
      have through := nodes _ _ step
      exact (ih through.1).tail (List.mem_map.mpr ⟨_, step, rfl⟩)

theorem acyclic_map {f : α → β} {p : α → Prop}
    (inj : ∀ a b, p a → p b → f a = f b → a = b)
    (nodes : ∀ a b, (a, b) ∈ edges → p a ∧ p b) (h : Acyclic (Edge edges)) :
    Acyclic (Edge (edges.map (Prod.map f f))) := by
  intro x cycle
  obtain ⟨y, first, back⟩ := TransGen.head'_iff.mp cycle
  obtain ⟨⟨a, b⟩, member, is⟩ := List.mem_map.mp first
  simp only [Prod.map_apply, Prod.mk.injEq] at is
  obtain ⟨rfl, rfl⟩ := is
  have through := nodes a b member
  have path := (reaches_map inj nodes through.2 through.1).mp back
  exact h a (TransGen.head'_iff.mpr ⟨b, member, path⟩)

variable [DecidableEq α]

def successors (edges : List (α × α)) (node : α) : List α :=
  (edges.filter (·.1 == node)).map (·.2)

/-- Depth first, by a stack; `seen` nodes are expanded. -/
def search (edges : List (α × α)) (target : α) : Nat → List α → List α → Bool
  | 0, _, _ => false
  | _ + 1, [], _ => false
  | fuel + 1, node :: stack, seen =>
    if node = target then true
    else if seen.contains node then search edges target fuel stack seen
    else search edges target fuel ((successors edges node).reverse ++ stack) (node :: seen)

theorem mem_successors : b ∈ successors edges a ↔ Edge edges a b := by
  unfold successors Edge
  rw [List.mem_map]
  constructor
  · rintro ⟨⟨c, d⟩, member, rfl⟩
    obtain ⟨there, same⟩ := List.mem_filter.mp member
    rw [beq_iff_eq] at same
    exact same ▸ there
  · intro edge
    exact ⟨(a, b), List.mem_filter.mpr ⟨edge, beq_self_eq_true a⟩, rfl⟩

theorem search_sound {target : α} {fuel : Nat} {stack seen : List α}
    (found : search edges target fuel stack seen = true) : ∃ s ∈ stack, Reaches edges s target := by
  induction fuel generalizing stack seen with
  | zero => cases found
  | succ fuel ih =>
    cases stack with
    | nil => cases found
    | cons node stack =>
      unfold search at found
      split at found
      · rename_i hit
        exact ⟨node, List.mem_cons_self, hit ▸ .refl⟩
      · split at found
        · obtain ⟨s, member, path⟩ := ih found
          exact ⟨s, List.mem_cons_of_mem _ member, path⟩
        · obtain ⟨s, member, path⟩ := ih found
          rcases List.mem_append.mp member with next | old
          · have edge := mem_successors.mp (List.mem_reverse.mp next)
            exact ⟨node, List.mem_cons_self, .head edge path⟩
          · exact ⟨s, List.mem_cons_of_mem _ old, path⟩

/-- The pops that are left: one for each node on the stack and each edge not yet followed. -/
def pops (edges : List (α × α)) (stack seen : List α) : Nat :=
  stack.length + edges.countP fun e => !seen.contains e.1

theorem countP_expand {seen : List α} {node : α} (fresh : node ∉ seen) :
    (successors edges node).length + edges.countP (fun e => !(node :: seen).contains e.1) =
      edges.countP fun e => !seen.contains e.1 := by
  unfold successors
  rw [List.length_map]
  induction edges with
  | nil => rfl
  | cons e edges ih =>
    rw [List.countP_cons, List.countP_cons, List.filter_cons]
    by_cases same : e.1 = node
    · have out : e.1 ∉ seen := same ▸ fresh
      simp [same, fresh] at ih ⊢
      omega
    · by_cases old : e.1 ∈ seen
      · simp [same, old] at ih ⊢
        omega
      · simp [same, old] at ih ⊢
        omega

/-- The expanded nodes are not the target, and lead to nodes that are expanded or wait. -/
def Expanded (edges : List (α × α)) (target : α) (stack seen : List α) : Prop :=
  ∀ a ∈ seen, a ≠ target ∧ ∀ b, Edge edges a b → b ∈ seen ∨ b ∈ stack

omit [DecidableEq α] in
theorem Expanded.drop {target node : α} {stack seen : List α}
    (h : Expanded edges target (node :: stack) seen) (old : node ∈ seen) :
    Expanded edges target stack seen := by
  intro a member
  refine ⟨(h a member).1, fun b edge => ?_⟩
  rcases (h a member).2 b edge with there | waiting
  · exact Or.inl there
  · rcases List.mem_cons.mp waiting with rfl | rest
    · exact Or.inl old
    · exact Or.inr rest

theorem Expanded.expand {target node : α} {stack seen : List α}
    (h : Expanded edges target (node :: stack) seen) (other : node ≠ target) :
    Expanded edges target ((successors edges node).reverse ++ stack) (node :: seen) := by
  intro a member
  rcases List.mem_cons.mp member with rfl | old
  · refine ⟨other, fun b edge => Or.inr (List.mem_append_left _ ?_)⟩
    exact List.mem_reverse.mpr (mem_successors.mpr edge)
  · refine ⟨(h a old).1, fun b edge => ?_⟩
    rcases (h a old).2 b edge with there | waiting
    · exact Or.inl (List.mem_cons_of_mem _ there)
    · rcases List.mem_cons.mp waiting with rfl | rest
      · exact Or.inl List.mem_cons_self
      · exact Or.inr (List.mem_append_right _ rest)

/-- A search that fails leaves a set of nodes without the target that no edge leaves. -/
theorem search_complete {target : α} {fuel : Nat} {stack seen : List α}
    (enough : pops edges stack seen ≤ fuel) (expanded : Expanded edges target stack seen)
    (missed : search edges target fuel stack seen = false) :
    ∃ c : α → Prop, (∀ a, a ∈ seen ∨ a ∈ stack → c a) ∧ ¬ c target ∧
      ∀ a b, c a → Edge edges a b → c b := by
  induction fuel generalizing stack seen with
  | zero =>
    have empty : stack = [] := by
      unfold pops at enough
      exact List.length_eq_zero_iff.mp (by omega)
    subst empty
    exact ⟨(· ∈ seen), fun a at_ => by simpa using at_, fun hit => (expanded target hit).1 rfl,
      fun a b at_ edge => by simpa using (expanded a at_).2 b edge⟩
  | succ fuel ih =>
    cases stack with
    | nil =>
      exact ⟨(· ∈ seen), fun a at_ => by simpa using at_, fun hit => (expanded target hit).1 rfl,
        fun a b at_ edge => by simpa using (expanded a at_).2 b edge⟩
    | cons node stack =>
      unfold pops at enough
      rw [List.length_cons] at enough
      unfold search at missed
      split at missed
      · cases missed
      · rename_i other
        split at missed
        · rename_i old
          rw [List.contains_iff_mem] at old
          obtain ⟨c, covers, off, steps⟩ := ih (by unfold pops; omega) (expanded.drop old) missed
          refine ⟨c, fun a at_ => ?_, off, steps⟩
          rcases at_ with there | waiting
          · exact covers a (Or.inl there)
          · rcases List.mem_cons.mp waiting with rfl | rest
            · exact covers a (Or.inl old)
            · exact covers a (Or.inr rest)
        · rename_i fresh
          rw [List.contains_iff_mem] at fresh
          have count := @countP_expand _ edges _ _ _ fresh
          obtain ⟨c, covers, off, steps⟩ := ih
            (by unfold pops; rw [List.length_append, List.length_reverse]; omega)
            (expanded.expand other) missed
          refine ⟨c, fun a at_ => ?_, off, steps⟩
          rcases at_ with there | waiting
          · exact covers a (Or.inl (List.mem_cons_of_mem _ there))
          · rcases List.mem_cons.mp waiting with rfl | rest
            · exact covers a (Or.inl List.mem_cons_self)
            · exact covers a (Or.inr (List.mem_append_right _ rest))

/-- One pop for the start and one for each edge are enough to find every path. -/
theorem search_iff : search edges b (edges.length + 1) [a] [] = true ↔ Reaches edges a b := by
  constructor
  · intro found
    obtain ⟨s, member, path⟩ := search_sound found
    exact List.mem_singleton.mp member ▸ path
  · intro path
    by_contra missed
    have enough : pops edges [a] [] ≤ edges.length + 1 := by
      unfold pops
      have le := @List.countP_le_length _ (fun e : α × α => !([] : List α).contains e.1) edges
      rw [List.length_singleton]
      omega
    obtain ⟨c, covers, off, steps⟩ := search_complete enough
      (fun _ member => absurd member List.not_mem_nil) (Bool.not_eq_true _ ▸ missed)
    have inside : ∀ x, Reaches edges a x → c x := by
      intro x found
      induction found with
      | refl => exact covers a (Or.inr List.mem_cons_self)
      | tail _ step ih => exact steps _ _ ih step
    exact off (inside b path)

end Search

end Artoo.Lib
