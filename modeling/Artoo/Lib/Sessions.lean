import Artoo.Lib.Interference
import Artoo.Lib.Path
import Artoo.Lib.Table

/-! Concurrent transactions on one database: any interleaving of their statements, commits and
aborts. A row lock is exclusive and held to the end. -/
namespace Artoo.Lib

/-- An open transaction; `began` is the database at its begin. -/
structure Session (ο σ ω κ ι ε α : Type) where
  id : Nat
  label : ο
  began : σ
  rest : Tx σ ω κ ι ε α
  locks : List κ := []
  log : List ω := []

def Session.at_ {ο σ ω κ ι ε α : Type} (s : Session ο σ ω κ ι ε α) (db : σ) : Progress σ ω κ :=
  ⟨db, s.locks, s.log⟩

inductive Act (ο ι : Type) where
  | begin (label : ο)
  | draw (value : ι)
  | statement
  | commit
  | abort

structure World (ο σ ω κ ι ε α : Type) where
  db : σ
  sessions : Table (@Session.id ο σ ω κ ι ε α)

namespace World

variable {ο σ ω κ ι ε α : Type}

/-- No other session holds one of the locks. -/
def free [DecidableEq κ] (w : World ο σ ω κ ι ε α) (id : Nat) (locks : List κ) : Bool :=
  w.sessions.rows.all fun t => t.id == id || locks.all fun k => !t.locks.contains k

def set (w : World ο σ ω κ ι ε α) (s : Session ο σ ω κ ι ε α) : World ο σ ω κ ι ε α :=
  { w with sessions := w.sessions.put s }

def close (w : World ο σ ω κ ι ε α) (id : Nat) : World ο σ ω κ ι ε α :=
  { w with sessions := w.sessions.remove id }

/-- A database with no open transaction. -/
def quiet (db : σ) : World ο σ ω κ ι ε α := ⟨db, Table.empty⟩

theorem free_wants [DecidableEq κ] {w : World ο σ ω κ ι ε α} {id : Nat} {locks : List κ} (free : w.free id locks) :
    ∀ t ∈ w.sessions, t.id ≠ id → ∀ k ∈ locks, k ∉ t.locks := by
  intro t ht other k wanted inT
  have waits := List.all_eq_true.mp free t ht
  rw [Bool.or_eq_true, beq_iff_eq] at waits
  rcases waits with same | unlocked
  · exact other same
  · have notHeld := List.all_eq_true.mp unlocked k wanted
    simp [inT] at notHeld

variable [Tables σ ω κ]

/-- What holds between two steps of any session. -/
structure Holds (R : Rely σ κ) (spec : ο → σ → α → Progress σ ω κ → Prop) (I : σ → Prop)
    (w : World ο σ ω κ ι ε α) : Prop where
  invariant : I w.db
  exclusive : ∀ s ∈ w.sessions, ∀ t ∈ w.sessions, ∀ k ∈ s.locks, k ∈ t.locks → s.id = t.id
  guarded : ∀ s ∈ w.sessions, ∀ x ∈ s.log, ∀ k ∈ Tables.guards σ x, k ∈ s.locks
  under : ∀ s ∈ w.sessions, Tx.under R s.rest (spec s.label s.began) (s.at_ w.db)

variable {w : World ο σ ω κ ι ε α} {id : Nat} {R : Rely σ κ}
  {spec : ο → σ → α → Progress σ ω κ → Prop} {I : σ → Prop}

theorem Holds.set (h : w.Holds R spec I) {s : Session ο σ ω κ ι ε α}
    (alone : ∀ t ∈ w.sessions, t.id ≠ s.id → ∀ k ∈ s.locks, k ∉ t.locks)
    (guarded : ∀ x ∈ s.log, ∀ k ∈ Tables.guards σ x, k ∈ s.locks)
    (under : Tx.under R s.rest (spec s.label s.began) (s.at_ w.db)) : (w.set s).Holds R spec I := by
  constructor
  · exact h.invariant
  · intro s' hs t ht k inS inT
    rcases Table.mem_put.mp hs with rfl | ⟨oldS, otherS⟩
    · rcases Table.mem_put.mp ht with rfl | ⟨oldT, otherT⟩
      · rfl
      · exact absurd inT (alone t oldT otherT k inS)
    · rcases Table.mem_put.mp ht with rfl | ⟨oldT, _⟩
      · exact absurd inS (alone s' oldS otherS k inT)
      · exact h.exclusive s' oldS t oldT k inS inT
  · intro s' hs
    rcases Table.mem_put.mp hs with rfl | ⟨old, _⟩
    · exact guarded
    · exact h.guarded s' old
  · intro s' hs
    rcases Table.mem_put.mp hs with rfl | ⟨old, _⟩
    · exact under
    · exact h.under s' old

/-- The others go on when a session ends, on the database it leaves. -/
theorem Holds.close (h : w.Holds R spec I) {db : σ} (invariant : I db)
    (later : ∀ t ∈ w.sessions, t.id ≠ id → R.rel t.locks w.db db) :
    Holds R spec I { w.close id with db } := by
  constructor
  · exact invariant
  · intro s hs t ht
    exact h.exclusive s (Table.mem_remove.mp hs).1 t (Table.mem_remove.mp ht).1
  · intro s hs
    exact h.guarded s (Table.mem_remove.mp hs).1
  · intro s hs
    obtain ⟨old, other⟩ := Table.mem_remove.mp hs
    exact Tx.under_later (h.under s old) (later s old other)

theorem Holds.alone (h : w.Holds R spec I) {s : Session ο σ ω κ ι ε α}
    (found : w.sessions.get? id = some s) :
    ∀ t ∈ w.sessions, t.id ≠ s.id → ∀ k ∈ s.locks, k ∉ t.locks := by
  intro t ht other k inS inT
  exact other (h.exclusive t ht s (Table.mem_of_get? found) k inT inS)

theorem holds_quiet {db : σ} (invariant : I db) :
    Holds R spec I (quiet db : World ο σ ω κ ι ε α) :=
  ⟨invariant, fun _ member => absurd member Table.not_mem_empty,
    fun _ member => absurd member Table.not_mem_empty,
    fun _ member => absurd member Table.not_mem_empty⟩

variable [DecidableEq κ]

/-- One step of a session; none where it is not possible, as for a statement that has to wait. -/
def step (program : ο → Tx σ ω κ ι ε α) (w : World ο σ ω κ ι ε α) (id : Nat) (act : Act ο ι) :
    Option (World ο σ ω κ ι ε α) :=
  match act, w.sessions.get? id with
  | .begin label, none => some (w.set { id, label, began := w.db, rest := program label })
  | .draw value, some s =>
    match s.rest with
    | .draw next => some (w.set { s with rest := next value })
    | _ => none
  | .statement, some s =>
    match s.rest with
    | .stmt locks writes next =>
      let p := s.at_ w.db
      if w.free id (p.wants locks writes) then
        let q := p.after locks writes
        some (w.set { s with rest := next p.view, locks := q.locks, log := q.log })
      else none
    | _ => none
  | .commit, some s =>
    match s.rest with
    | .done _ => some { w.close id with db := (s.at_ w.db).view }
    | _ => none
  | .abort, some _ => some (w.close id)
  | _, _ => none

/-- What a step does. -/
inductive Advance (program : ο → Tx σ ω κ ι ε α) (w : World ο σ ω κ ι ε α) (id : Nat) :
    Act ο ι → World ο σ ω κ ι ε α → Prop where
  | begin {label : ο} : w.sessions.get? id = none →
      Advance program w id (.begin label)
        (w.set { id, label, began := w.db, rest := program label })
  | draw {s : Session ο σ ω κ ι ε α} {next : ι → Tx σ ω κ ι ε α} {value : ι} :
      w.sessions.get? id = some s → s.rest = .draw next →
      Advance program w id (.draw value) (w.set { s with rest := next value })
  | statement {s : Session ο σ ω κ ι ε α} {locks : σ → List κ} {writes : σ → List ω}
      {next : σ → Tx σ ω κ ι ε α} :
      w.sessions.get? id = some s → s.rest = .stmt locks writes next →
      w.free id ((s.at_ w.db).wants locks writes) →
      Advance program w id .statement
        (w.set { s with
          rest := next (s.at_ w.db).view
          locks := ((s.at_ w.db).after locks writes).locks
          log := ((s.at_ w.db).after locks writes).log })
  | commit {s : Session ο σ ω κ ι ε α} {a : α} :
      w.sessions.get? id = some s → s.rest = .done a →
      Advance program w id .commit { w.close id with db := (s.at_ w.db).view }
  | abort {s : Session ο σ ω κ ι ε α} : w.sessions.get? id = some s →
      Advance program w id .abort (w.close id)

variable {program : ο → Tx σ ω κ ι ε α} {w' : World ο σ ω κ ι ε α} {act : Act ο ι}

theorem step_advance (h : w.step program id act = some w') : w.Advance program id act w' := by
  unfold step at h
  split at h
  · rename_i absent
    cases h
    exact .begin absent
  · rename_i s found
    split at h
    · rename_i next rest
      cases h
      exact .draw found rest
    · cases h
  · rename_i s found
    split at h
    · rename_i locks writes next rest
      dsimp only at h
      split at h
      · rename_i free
        cases h
        exact .statement found rest free
      · cases h
    · cases h
  · rename_i s found
    split at h
    · rename_i a rest
      cases h
      exact .commit found rest
    · cases h
  · rename_i s found
    cases h
    exact .abort found
  · cases h

/-- Steps that meet a condition. -/
def Steps (program : ο → Tx σ ω κ ι ε α) (ok : World ο σ ω κ ι ε α → Nat → Act ο ι → Prop)
    (l : Nat × Act ο ι) (w w' : World ο σ ω κ ι ε α) : Prop :=
  w.step program l.1 l.2 = some w' ∧ ok w l.1 l.2

/-- The run of a list of steps, where each is possible and meets the condition. -/
def exec (program : ο → Tx σ ω κ ι ε α) (ok : World ο σ ω κ ι ε α → Nat → Act ο ι → Prop)
    [∀ w id act, Decidable (ok w id act)] :
    List (Nat × Act ο ι) → World ο σ ω κ ι ε α → Option (World ο σ ω κ ι ε α)
  | [], w => some w
  | l :: ls, w => if ok w l.1 l.2 then (w.step program l.1 l.2).bind (exec program ok ls) else none

theorem exec_path {ok : World ο σ ω κ ι ε α → Nat → Act ο ι → Prop}
    [∀ w id act, Decidable (ok w id act)] {ls : List (Nat × Act ο ι)}
    {w w' : World ο σ ω κ ι ε α}
    (h : exec program ok ls w = some w') : Path (Steps program ok) ls w w' := by
  induction ls generalizing w with
  | nil =>
    cases h
    exact .nil _
  | cons l ls ih =>
    unfold exec at h
    split at h
    · rename_i allowed
      obtain ⟨mid, first, rest⟩ := Option.bind_eq_some_iff.mp h
      exact .cons ⟨first, allowed⟩ (ih rest)
    · cases h

/-- The obligations: of a program from its begin, and of a commit to the others. -/
structure Rules (program : ο → Tx σ ω κ ι ε α) (ok : World ο σ ω κ ι ε α → Nat → Act ο ι → Prop)
    (R : Rely σ κ) (spec : ο → σ → α → Progress σ ω κ → Prop) (I : σ → Prop) : Prop where
  start : ∀ label db, I db → Tx.under R (program label) (spec label db) ⟨db, [], []⟩
  commit : ∀ w s a, s ∈ w.sessions → s.rest = .done a → ok w s.id .commit → I w.db →
    (∀ x ∈ s.log, ∀ k ∈ Tables.guards σ x, k ∈ s.locks) →
    spec s.label s.began a (s.at_ w.db) →
    I (s.at_ w.db).view ∧
      ∀ others, (∀ k ∈ others, k ∉ s.locks) → R.rel others w.db (s.at_ w.db).view

variable {ok : World ο σ ω κ ι ε α → Nat → Act ο ι → Prop}

theorem holds_step (rules : Rules program ok R spec I) (h : w.Holds R spec I)
    (step : Steps program ok (id, act) w w') : w'.Holds R spec I ∧ R.rel [] w.db w'.db := by
  obtain ⟨advance, allowed⟩ := step
  have advance := step_advance advance
  cases advance with
  | @begin label absent =>
    refine ⟨h.set ?_ ?_ (rules.start label w.db h.invariant), R.refl _ _⟩
    · exact fun _ _ _ _ held => nomatch held
    · exact fun _ written => nomatch written
  | @draw s next value found rest =>
    have under := h.under s (Table.mem_of_get? found)
    rw [rest] at under
    exact ⟨h.set (@Holds.alone _ _ _ _ _ _ _ _ _ _ _ _ _ h s found) (h.guarded s (Table.mem_of_get? found))
      (under value), R.refl _ _⟩
  | @statement s locks writes next found rest free =>
    have there := Table.mem_of_get? found
    have key : s.id = id := Table.key_of_get? found
    have under := h.under s there
    rw [rest] at under
    refine ⟨h.set ?_ ?_ (under w.db (R.refl _ _)), R.refl _ _⟩
    · intro t ht other k held
      rcases List.mem_append.mp held with old | new
      · exact h.alone found t ht other k old
      · rw [← key] at free
        exact free_wants free t ht other k new
    · intro x written k guard
      rcases List.mem_append.mp written with old | new
      · exact List.mem_append_left _ (h.guarded s there x old k guard)
      · apply List.mem_append_right
        exact List.mem_append_right _ (List.mem_flatMap.mpr ⟨x, new, guard⟩)
  | @commit s a found rest =>
    have there := Table.mem_of_get? found
    have key : s.id = id := Table.key_of_get? found
    have under := h.under s there
    rw [rest] at under
    obtain ⟨invariant, later⟩ := rules.commit w s a there rest (key ▸ allowed) h.invariant
      (h.guarded s there) (under w.db (R.refl _ _))
    refine ⟨h.close invariant fun t ht other => later t.locks ?_, later [] ?_⟩
    · intro k inT inS
      exact other ((h.exclusive t ht s there k inT inS).trans key)
    · exact fun _ held => nomatch held
  | @abort s found =>
    exact ⟨h.close h.invariant fun _ _ _ => R.refl _ _, R.refl _ _⟩

/-- What holds at the start of a run holds to its end. -/
theorem holds_path (rules : Rules program ok R spec I) {ls : List (Nat × Act ο ι)}
    (path : Path (Steps program ok) ls w w') (h : w.Holds R spec I) :
    w'.Holds R spec I ∧ R.rel [] w.db w'.db := by
  induction path with
  | nil w => exact ⟨h, R.refl _ _⟩
  | cons first _ ih =>
    obtain ⟨next, step⟩ := holds_step rules h first
    obtain ⟨last, rest⟩ := ih next
    exact ⟨last, R.trans _ _ _ _ step rest⟩

end World

end Artoo.Lib
