import Artoo.Lib.Sessions

/-! Concurrent transactions whose locks have modes: a lock is refused only where another session
holds one that conflicts with it. -/
namespace Artoo.Lib

class Conflicts (κ : Type) where
  conflicts : κ → κ → Bool

namespace Modes
open Conflicts

variable {ο σ ω κ ι ε α : Type} [Conflicts κ] [Tables σ ω κ]

/-- No other session holds a lock in conflict with one of these. -/
def free (w : World ο σ ω κ ι ε α) (id : Nat) (locks : List κ) : Bool :=
  w.sessions.rows.all fun t =>
    t.id == id || locks.all fun k => t.locks.all fun j => !(conflicts j k || conflicts k j)

/-- Locks that different sessions may hold. -/
def Apart (locks others : List κ) : Prop :=
  ∀ k ∈ locks, ∀ j ∈ others, conflicts j k = false ∧ conflicts k j = false

omit [Tables σ ω κ] in
theorem Apart.symm {locks others : List κ} (h : Apart locks others) : Apart others locks :=
  fun j inOthers k inLocks => ⟨(h k inLocks j inOthers).2, (h k inLocks j inOthers).1⟩

omit [Tables σ ω κ] in
theorem apart_append {locks more others : List κ} (left : Apart locks others)
    (right : Apart more others) : Apart (locks ++ more) others := by
  intro k member
  rcases List.mem_append.mp member with old | new
  · exact left k old
  · exact right k new

omit [Tables σ ω κ] in
theorem free_apart {w : World ο σ ω κ ι ε α} {id : Nat} {locks : List κ}
    (h : free w id locks = true) : ∀ t ∈ w.sessions, t.id ≠ id → Apart locks t.locks := by
  intro t member other k wanted j held
  have either := List.all_eq_true.mp h t member
  rw [Bool.or_eq_true, beq_iff_eq] at either
  rcases either with same | clear
  · exact absurd same other
  · have unheld := List.all_eq_true.mp (List.all_eq_true.mp clear k wanted) j held
    rw [Bool.not_eq_true', Bool.or_eq_false_iff] at unheld
    exact unheld

/-- One step of a session; none where it is not possible, as for a statement that has to wait. -/
def step (program : ο → Tx σ ω κ ι ε α) (w : World ο σ ω κ ι ε α) (id : Nat) (act : Act ο ι) :
    Option (World ο σ ω κ ι ε α) :=
  match act, w.sessions.get? id with
  | .begin label, none => some (w.set { id, label, began := w.db, rest := program label })
  | .draw value, some s =>
    match s.rest with
    | .draw next => some (w.set { s with rest := next value })
    | _ => none
  | .statement, some s =>
    match s.rest with
    | .stmt locks writes next =>
      let p := s.at_ w.db
      if free w id (p.wants locks writes) then
        let q := p.after locks writes
        some (w.set { s with rest := next p.view, locks := q.locks, log := q.log })
      else none
    | _ => none
  | .commit, some s =>
    match s.rest with
    | .done _ => some { w.close id with db := (s.at_ w.db).view }
    | _ => none
  | .abort, some _ => some (w.close id)
  | _, _ => none

/-- What holds between two steps of any session. -/
structure Holds (R : Rely σ κ) (spec : ο → σ → α → Progress σ ω κ → Prop) (I : σ → Prop)
    (w : World ο σ ω κ ι ε α) : Prop where
  invariant : I w.db
  apart : ∀ s ∈ w.sessions, ∀ t ∈ w.sessions, s.id ≠ t.id → Apart s.locks t.locks
  under : ∀ s ∈ w.sessions, Tx.under R s.rest (spec s.label s.began) (s.at_ w.db)

variable {w w' : World ο σ ω κ ι ε α} {id : Nat} {act : Act ο ι} {R : Rely σ κ}
  {spec : ο → σ → α → Progress σ ω κ → Prop} {I : σ → Prop} {program : ο → Tx σ ω κ ι ε α}

theorem holds_quiet {db : σ} (invariant : I db) :
    Holds R spec I (World.quiet db : World ο σ ω κ ι ε α) :=
  ⟨invariant, fun _ member => absurd member Table.not_mem_empty,
    fun _ member => absurd member Table.not_mem_empty⟩

theorem Holds.set (h : Holds R spec I w) {s : Session ο σ ω κ ι ε α}
    (alone : ∀ t ∈ w.sessions, t.id ≠ s.id → Apart s.locks t.locks)
    (under : Tx.under R s.rest (spec s.label s.began) (s.at_ w.db)) :
    Holds R spec I (w.set s) := by
  constructor
  · exact h.invariant
  · intro s' hs t ht other
    rcases Table.mem_put.mp hs with rfl | ⟨oldS, _⟩
    · rcases Table.mem_put.mp ht with rfl | ⟨oldT, otherT⟩
      · exact absurd rfl other
      · exact alone t oldT otherT
    · rcases Table.mem_put.mp ht with rfl | ⟨oldT, _⟩
      · exact (alone s' oldS other).symm
      · exact h.apart s' oldS t oldT other
  · intro s' hs
    rcases Table.mem_put.mp hs with rfl | ⟨old, _⟩
    · exact under
    · exact h.under s' old

/-- The others go on when a session ends, on the database it leaves. -/
theorem Holds.close (h : Holds R spec I w) {db : σ} (invariant : I db)
    (later : ∀ t ∈ w.sessions, t.id ≠ id → R.rel t.locks w.db db) :
    Holds R spec I { w.close id with db } := by
  constructor
  · exact invariant
  · intro s hs t ht
    exact h.apart s (Table.mem_remove.mp hs).1 t (Table.mem_remove.mp ht).1
  · intro s hs
    obtain ⟨old, other⟩ := Table.mem_remove.mp hs
    exact Tx.under_later (h.under s old) (later s old other)

/-- Steps that meet a condition. -/
def Steps (program : ο → Tx σ ω κ ι ε α) (ok : World ο σ ω κ ι ε α → Nat → Act ο ι → Prop)
    (l : Nat × Act ο ι) (w w' : World ο σ ω κ ι ε α) : Prop :=
  step program w l.1 l.2 = some w' ∧ ok w l.1 l.2

/-- The obligations: of a program from its begin, and of a commit to the others. -/
structure Rules (program : ο → Tx σ ω κ ι ε α) (ok : World ο σ ω κ ι ε α → Nat → Act ο ι → Prop)
    (R : Rely σ κ) (spec : ο → σ → α → Progress σ ω κ → Prop) (I : σ → Prop) : Prop where
  start : ∀ label db, I db → Tx.under R (program label) (spec label db) ⟨db, [], []⟩
  commit : ∀ w s a, s ∈ w.sessions → ok w s.id .commit → I w.db →
    spec s.label s.began a (s.at_ w.db) →
    I (s.at_ w.db).view ∧
      ∀ others, Apart others s.locks → R.rel others w.db (s.at_ w.db).view

variable {ok : World ο σ ω κ ι ε α → Nat → Act ο ι → Prop}

theorem holds_step (rules : Rules program ok R spec I) (h : Holds R spec I w)
    (taken : Steps program ok (id, act) w w') : Holds R spec I w' ∧ R.rel [] w.db w'.db := by
  obtain ⟨taken, allowed⟩ := taken
  change step program w id act = some w' at taken
  change ok w id act at allowed
  unfold step at taken
  split at taken
  · rename_i label absent
    cases taken
    exact ⟨h.set (fun _ _ _ _ held => nomatch held) (rules.start label w.db h.invariant), R.refl _ _⟩
  · rename_i value s found
    split at taken
    · rename_i next rest
      cases taken
      have there := Table.mem_of_get? found
      have under := h.under s there
      rw [rest] at under
      exact ⟨h.set (fun t ht other => h.apart s there t ht (Ne.symm other)) (under value),
        R.refl _ _⟩
    · cases taken
  · rename_i s found
    split at taken
    · rename_i locks writes next rest
      dsimp only at taken
      split at taken
      · rename_i clear
        cases taken
        have there := Table.mem_of_get? found
        have key : s.id = id := Table.key_of_get? found
        have under := h.under s there
        rw [rest] at under
        refine ⟨h.set (fun t ht other => ?_) (under w.db (R.refl _ _)), R.refl _ _⟩
        exact apart_append (h.apart s there t ht (Ne.symm other))
          (free_apart clear t ht fun same => other (same.trans key.symm))
      · cases taken
    · cases taken
  · rename_i s found
    split at taken
    · rename_i a rest
      cases taken
      have there := Table.mem_of_get? found
      have key : s.id = id := Table.key_of_get? found
      have under := h.under s there
      rw [rest] at under
      obtain ⟨invariant, later⟩ := rules.commit w s a there (key ▸ allowed) h.invariant
        (under w.db (R.refl _ _))
      refine ⟨h.close invariant fun t ht other => later t.locks ?_, later [] nofun⟩
      exact h.apart t ht s there fun same => other (same.trans key)
    · cases taken
  · rename_i s found
    cases taken
    exact ⟨h.close h.invariant fun _ _ _ => R.refl _ _, R.refl _ _⟩
  · cases taken

/-- What holds at the start of a run holds to its end. -/
theorem holds_path (rules : Rules program ok R spec I) {ls : List (Nat × Act ο ι)}
    (path : Path (Steps program ok) ls w w') (h : Holds R spec I w) :
    Holds R spec I w' ∧ R.rel [] w.db w'.db := by
  induction path with
  | nil w => exact ⟨h, R.refl _ _⟩
  | cons first _ ih =>
    obtain ⟨mid, before⟩ := holds_step rules h first
    obtain ⟨last, after⟩ := ih mid
    exact ⟨last, R.trans _ _ _ _ before after⟩

/-- The run of a list of steps, where each is possible and meets the condition. -/
def exec (program : ο → Tx σ ω κ ι ε α) (ok : World ο σ ω κ ι ε α → Nat → Act ο ι → Prop)
    [∀ w id act, Decidable (ok w id act)] :
    List (Nat × Act ο ι) → World ο σ ω κ ι ε α → Option (World ο σ ω κ ι ε α)
  | [], w => some w
  | l :: ls, w => if ok w l.1 l.2 then (step program w l.1 l.2).bind (exec program ok ls) else none

theorem exec_path [∀ w id act, Decidable (ok w id act)] {ls : List (Nat × Act ο ι)}
    (h : exec program ok ls w = some w') : Path (Steps program ok) ls w w' := by
  induction ls generalizing w with
  | nil =>
    cases h
    exact .nil _
  | cons l ls ih =>
    unfold exec at h
    split at h
    · rename_i allowed
      obtain ⟨mid, first, rest⟩ := Option.bind_eq_some_iff.mp h
      exact .cons ⟨first, allowed⟩ (ih rest)
    · cases h

end Modes

end Artoo.Lib
