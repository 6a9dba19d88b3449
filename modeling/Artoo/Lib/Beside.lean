import Artoo.Lib.Path
import Artoo.Lib.Statement

/-! Statements outside any transaction, beside the steps of others: each sees what is committed when
it runs, and keeps no lock. -/
namespace Artoo.Lib

variable {S L σ ω κ ι ε α β : Type}

/-- Some steps lead from one state to another. -/
def Leads (step : L → S → S → Prop) (s t : S) : Prop := ∃ ls, Path step ls s t

theorem Leads.refl {step : L → S → S → Prop} (s : S) : Leads step s s := ⟨[], .nil s⟩

theorem Leads.trans {step : L → S → S → Prop} {s t r : S} (first : Leads step s t)
    (last : Leads step t r) : Leads step s r := by
  obtain ⟨ls, left⟩ := first
  obtain ⟨ms, right⟩ := last
  exact ⟨ls ++ ms, left.append right⟩

namespace Tx

/-- The program gets from one state to another and yields `a`, where `db` is what its statements
see. It has no run on which it writes. -/
def Beside (step : L → S → S → Prop) (db : S → σ) : Tx σ ω κ ι ε α → S → α → S → Prop
  | done a, s, b, t => b = a ∧ Leads step s t
  | fail _, _, _, _ => False
  | draw next, s, b, t => ∃ i, (next i).Beside step db s b t
  | stmt _ writes next, s, b, t =>
    ∃ mid, Leads step s mid ∧ writes (db mid) = [] ∧ (next (db mid)).Beside step db mid b t

variable {step : L → S → S → Prop} {db : S → σ} {s t : S} {a : α} {b : β}

theorem Beside.leads {p : Tx σ ω κ ι ε α} (h : p.Beside step db s a t) : Leads step s t := by
  induction p generalizing s with
  | done c => exact h.2
  | fail e => exact h.elim
  | draw next ih =>
    obtain ⟨i, rest⟩ := h
    exact ih i rest
  | stmt locks writes next ih =>
    obtain ⟨mid, first, _, rest⟩ := h
    exact first.trans (ih _ rest)

theorem Beside.bind {p : Tx σ ω κ ι ε α} {f : α → Tx σ ω κ ι ε β}
    (h : (p >>= f).Beside step db s b t) :
    ∃ a mid, p.Beside step db s a mid ∧ (f a).Beside step db mid b t := by
  induction p generalizing s with
  | done c => exact ⟨c, s, ⟨rfl, .refl s⟩, h⟩
  | fail e => exact h.elim
  | draw next ih =>
    obtain ⟨i, rest⟩ := h
    obtain ⟨a, mid, first, last⟩ := ih i rest
    exact ⟨a, mid, ⟨i, first⟩, last⟩
  | stmt locks writes next ih =>
    obtain ⟨seen, before, none_, rest⟩ := h
    obtain ⟨a, mid, first, last⟩ := ih _ rest
    exact ⟨a, mid, ⟨seen, before, none_, first⟩, last⟩

theorem Beside.query {rows : σ → α} (h : (query rows : Tx σ ω κ ι ε α).Beside step db s a t) :
    ∃ mid, Leads step s mid ∧ a = rows (db mid) ∧ Leads step mid t := by
  obtain ⟨mid, before, _, is, after⟩ := h
  exact ⟨mid, before, is, after⟩

theorem Beside.check {refused : Bool} {e : ε} {u : Unit}
    (h : (check refused e : Tx σ ω κ ι ε Unit).Beside step db s u t) : refused = false := by
  cases refused with
  | false => rfl
  | true => exact h.elim

theorem Beside.require {found : Option α} {e : ε}
    (h : (require found e : Tx σ ω κ ι ε α).Beside step db s a t) : found = some a := by
  cases found with
  | none => exact h.elim
  | some c => rw [h.1]

theorem Beside.ofResult {x : Except ε α}
    (h : (ofResult x : Tx σ ω κ ι ε α).Beside step db s a t) : x = .ok a := by
  cases x with
  | error e => exact h.elim
  | ok c => rw [h.1]

/-- A program that only reads may run where all its statements see one state. -/
theorem Reads.beside [Tables σ ω κ] {p : Tx σ ω κ ι ε α} (h : Reads p) {input : Nat → ι} {n m : Nat}
    {end_ : σ} (ran : run input p n (db s) = .ok (a, end_, m)) (later : Leads step s t) :
    p.Beside step db s a t := by
  induction p generalizing n with
  | done c =>
    cases ran
    exact ⟨rfl, later⟩
  | fail e => cases ran
  | draw next ih => exact ⟨input n, ih _ (h _) ran⟩
  | stmt locks writes next ih =>
    have none_ : writes (db s) = [] := List.eq_nil_iff_forall_not_mem.mpr fun w => (h (db s)).1 w
    have rest : run input (next (db s)) n (writeAll (writes (db s)) (db s)) = .ok (a, end_, m) := ran
    rw [none_] at rest
    exact ⟨s, .refl s, none_, ih _ (h (db s)).2 rest⟩

end Tx

end Artoo.Lib
