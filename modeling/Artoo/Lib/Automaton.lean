import Mathlib.Data.List.Basic

/-! Components that answer one call at a time: their runs, what a run keeps, and when a component
falls into parts that do not see each other. -/
namespace Artoo.Lib

universe u v w x y

/-- `σ` the states, `ι` the calls, `ο` the answers. -/
structure Automaton (σ : Type u) (ι : Type v) (ο : Type w) where
  step : σ → ι → σ × ο

namespace Automaton

variable {σ : Type u} {ι : Type v} {ο : Type w} {τ : Type x} {κ : Type y}
  {m : Automaton σ ι ο} {s : σ} {i : ι} {is js : List ι}

def final (m : Automaton σ ι ο) (s : σ) : List ι → σ
  | [] => s
  | i :: is => m.final (m.step s i).1 is

def answers (m : Automaton σ ι ο) (s : σ) : List ι → List ο
  | [] => []
  | i :: is => (m.step s i).2 :: m.answers (m.step s i).1 is

/-- Each call of the run meets a condition on the state it finds. -/
def Legal (m : Automaton σ ι ο) (ok : σ → ι → Prop) (s : σ) : List ι → Prop
  | [] => True
  | i :: is => ok s i ∧ m.Legal ok (m.step s i).1 is

@[simp] theorem final_nil : m.final s [] = s := rfl

@[simp] theorem final_cons : m.final s (i :: is) = m.final (m.step s i).1 is := rfl

@[simp] theorem answers_nil : m.answers s [] = [] := rfl

@[simp] theorem answers_cons :
    m.answers s (i :: is) = (m.step s i).2 :: m.answers (m.step s i).1 is := rfl

theorem final_append : m.final s (is ++ js) = m.final (m.final s is) js := by
  induction is generalizing s with
  | nil => rfl
  | cons i is ih => exact ih

theorem answers_append :
    m.answers s (is ++ js) = m.answers s is ++ m.answers (m.final s is) js := by
  induction is generalizing s with
  | nil => rfl
  | cons i is ih => simp [ih]

section Legal

variable {ok : σ → ι → Prop}

theorem invariant {P : σ → Prop} (keeps : ∀ s i, P s → ok s i → P (m.step s i).1)
    (legal : m.Legal ok s is) (initial : P s) : P (m.final s is) := by
  induction is generalizing s with
  | nil => exact initial
  | cons i is ih => exact ih legal.2 (keeps s i initial legal.1)

end Legal

section Parts

variable [DecidableEq κ] {part : Automaton τ ι ο} {owner : ι → κ} {view : κ → σ → τ}

/-- The part of a call's owner answers it, and no other part changes. -/
structure Divides (m : Automaton σ ι ο) (part : Automaton τ ι ο) (owner : ι → κ)
    (view : κ → σ → τ) : Prop where
  own : ∀ s i, view (owner i) (m.step s i).1 = (part.step (view (owner i) s) i).1
  answer : ∀ s i, (m.step s i).2 = (part.step (view (owner i) s) i).2
  other : ∀ s i k, k ≠ owner i → view k (m.step s i).1 = view k s

/-- Each owner's part runs as if its calls were the only ones. -/
theorem Divides.run (divides : m.Divides part owner view) (k : κ) :
    view k (m.final s is) = part.final (view k s) (is.filter (owner · = k)) ∧
      (is.zip (m.answers s is)).filter (owner ·.1 = k) =
        (is.filter (owner · = k)).zip (part.answers (view k s) (is.filter (owner · = k))) := by
  induction is generalizing s with
  | nil => exact ⟨rfl, rfl⟩
  | cons i is ih =>
    obtain ⟨states, rest⟩ := ih (s := (m.step s i).1)
    by_cases mine : owner i = k
    · subst mine
      rw [divides.own] at states rest
      rw [answers_cons, List.zip_cons_cons, List.filter_cons_of_pos (by simp),
        List.filter_cons_of_pos (by simp), final_cons, final_cons, answers_cons, List.zip_cons_cons,
        rest, states, divides.answer]
      exact ⟨rfl, rfl⟩
    · rw [divides.other s i k (Ne.symm mine)] at states rest
      rw [answers_cons, List.zip_cons_cons, List.filter_cons_of_neg (by simpa using mine),
        List.filter_cons_of_neg (by simpa using mine), final_cons]
      exact ⟨states, rest⟩

end Parts

end Automaton
end Artoo.Lib
