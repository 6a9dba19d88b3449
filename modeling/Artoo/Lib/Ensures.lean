import Mathlib.Logic.Basic

/-! Postconditions of computations that may fail. The rules mirror the shape of a program:
one for each result, one for sequencing and one for weakening. -/
namespace Artoo.Lib

universe u v w

variable {ε : Type u} {α : Type v} {β : Type v}

/-- A result satisfies `post`, and a failure is one of the `allowed`. -/
def Ensures (allowed : ε → Prop) (post : α → Prop) : Except ε α → Prop
  | .ok a => post a
  | .error e => allowed e

variable {allowed : ε → Prop} {post : α → Prop} {x : Except ε α}

@[simp] theorem ensures_ok {a : α} : Ensures allowed post (.ok a) ↔ post a := Iff.rfl

@[simp] theorem ensures_error {e : ε} : Ensures allowed post (.error e) ↔ allowed e := Iff.rfl

@[simp] theorem ok_bind (a : α) (next : α → Except ε β) : (Except.ok a >>= next) = next a := rfl

@[simp] theorem error_bind (e : ε) (next : α → Except ε β) :
    ((Except.error e : Except ε α) >>= next) = .error e := rfl

theorem bind_eq_ok {next : α → Except ε β} {b : β} :
    (x >>= next) = .ok b ↔ ∃ a, x = .ok a ∧ next a = .ok b := by
  cases x with
  | ok a => simp
  | error e => simp

namespace Ensures

theorem bind {mid : α → Prop} {post : β → Prop} {next : α → Except ε β}
    (first : Ensures allowed mid x) (rest : ∀ a, mid a → Ensures allowed post (next a)) :
    Ensures allowed post (x >>= next) := by
  cases x with
  | ok a => exact rest a first
  | error e => exact first

theorem imp {weaker : α → Prop} (h : Ensures allowed post x) (weaken : ∀ a, post a → weaker a) :
    Ensures allowed weaker x := by
  cases x with
  | ok a => exact weaken a h
  | error e => exact h

theorem allow {more : ε → Prop} (h : Ensures allowed post x) (widen : ∀ e, allowed e → more e) :
    Ensures more post x := by
  cases x with
  | ok a => exact h
  | error e => exact widen e h

/-- A computation that may not fail has a result. -/
theorem result (h : Ensures (fun _ : ε => False) post x) : ∃ a, x = .ok a ∧ post a := by
  cases x with
  | ok a => exact ⟨a, rfl, h⟩
  | error e => exact h.elim

theorem of_ok {a : α} (h : Ensures allowed post x) (result : x = .ok a) : post a := by
  rw [result] at h
  exact h

theorem of_error {e : ε} (h : Ensures allowed post x) (result : x = .error e) : allowed e := by
  rw [result] at h
  exact h

end Ensures

end Artoo.Lib
