import Artoo.Lib.Sessions

/-! Processes that run one transaction after another. The result of a transaction is the stage that
follows it; an error, also one that hides a commit, leads to a stage of its own. -/
namespace Artoo.Lib

/-- The transaction of each stage, and the stage after an error. -/
structure Code (σ ω κ ι ε π : Type) where
  program : π → Tx σ ω κ ι ε π
  recover : π → ε → π
  /-- where a process may start -/
  starts : π → Bool

/-- A database with its open transactions, and the stages of the processes. A process and its
transaction have one number. -/
structure Crew (σ ω κ ι ε π : Type) where
  world : World π σ ω κ ι ε π
  stages : Nat → Option π

def Session.result {ο σ ω κ ι ε α : Type} (s : Session ο σ ω κ ι ε α) : Option α :=
  match s.rest with
  | .done a => some a
  | _ => none

theorem Session.result_eq {ο σ ω κ ι ε α : Type} {s : Session ο σ ω κ ι ε α} {a : α} :
    s.result = some a ↔ s.rest = .done a := by
  unfold Session.result
  cases s.rest with
  | done b => simp
  | _ => simp

namespace Crew

inductive Move (ι ε π : Type) where
  | spawn (stage : π)
  | begin
  | draw (value : ι)
  | statement
  /-- the reply may be lost -/
  | commit (lost : Option ε)
  | abort (error : ε)
  | exit

variable {σ ω κ ι ε π : Type}

def put (c : Crew σ ω κ ι ε π) (id : Nat) (stage : Option π) : Crew σ ω κ ι ε π :=
  { c with stages := fun n => if n = id then stage else c.stages n }

/-- No process, on a database. -/
def idle (db : σ) : Crew σ ω κ ι ε π := ⟨World.quiet db, fun _ => none⟩

variable [Tables σ ω κ] [DecidableEq κ]

/-- One step of a process; none where it is not possible. -/
def step (code : Code σ ω κ ι ε π) (c : Crew σ ω κ ι ε π) (id : Nat) :
    Move ι ε π → Option (Crew σ ω κ ι ε π)
  | .spawn stage =>
    if (c.stages id).isNone && (c.world.sessions.get? id).isNone && code.starts stage then
      some (c.put id (some stage))
    else none
  | .begin => (c.stages id).bind fun stage =>
    (c.world.step code.program id (.begin stage)).map fun world => { c with world }
  | .draw value => (c.world.step code.program id (.draw value)).map fun world => { c with world }
  | .statement => (c.world.step code.program id .statement).map fun world => { c with world }
  | .commit lost => (c.world.sessions.get? id).bind fun s => s.result.bind fun next =>
    (c.world.step code.program id .commit).map fun world =>
      { c with world }.put id (some ((lost.map (code.recover s.label)).getD next))
  | .abort error => (c.world.sessions.get? id).bind fun s =>
    (c.world.step code.program id .abort).map fun world =>
      { c with world }.put id (some (code.recover s.label error))
  | .exit => some ({ c with world := c.world.close id }.put id none)

/-- What a step does. -/
inductive Advance (code : Code σ ω κ ι ε π) (c : Crew σ ω κ ι ε π) (id : Nat) :
    Move ι ε π → Crew σ ω κ ι ε π → Prop where
  | spawn {stage : π} : c.world.sessions.get? id = none → code.starts stage →
      Advance code c id (.spawn stage) (c.put id (some stage))
  | begin {stage : π} {world : World π σ ω κ ι ε π} : c.stages id = some stage →
      c.world.step code.program id (.begin stage) = some world →
      Advance code c id .begin { c with world }
  | draw {value : ι} {world : World π σ ω κ ι ε π} :
      c.world.step code.program id (.draw value) = some world →
      Advance code c id (.draw value) { c with world }
  | statement {world : World π σ ω κ ι ε π} :
      c.world.step code.program id .statement = some world →
      Advance code c id .statement { c with world }
  | commit {s : Session π σ ω κ ι ε π} {next : π} {lost : Option ε}
      {world : World π σ ω κ ι ε π} : c.world.sessions.get? id = some s → s.rest = .done next →
      c.world.step code.program id .commit = some world →
      Advance code c id (.commit lost)
        ({ c with world }.put id (some ((lost.map (code.recover s.label)).getD next)))
  | abort {s : Session π σ ω κ ι ε π} {error : ε} {world : World π σ ω κ ι ε π} :
      c.world.sessions.get? id = some s → c.world.step code.program id .abort = some world →
      Advance code c id (.abort error)
        ({ c with world }.put id (some (code.recover s.label error)))
  | exit : Advance code c id .exit ({ c with world := c.world.close id }.put id none)

variable {code : Code σ ω κ ι ε π} {c c' : Crew σ ω κ ι ε π} {id : Nat} {move : Move ι ε π}

theorem step_advance (h : c.step code id move = some c') : c.Advance code id move c' := by
  cases move with
  | spawn stage =>
    simp only [step] at h
    split at h
    · rename_i may
      simp only [Bool.and_eq_true, Option.isNone_iff_eq_none] at may
      cases h
      exact .spawn may.1.2 may.2
    · cases h
  | begin =>
    obtain ⟨stage, is, rest⟩ := Option.bind_eq_some_iff.mp h
    obtain ⟨world, stepped, rfl⟩ := Option.map_eq_some_iff.mp rest
    exact .begin is stepped
  | draw value =>
    obtain ⟨world, stepped, rfl⟩ := Option.map_eq_some_iff.mp h
    exact .draw stepped
  | statement =>
    obtain ⟨world, stepped, rfl⟩ := Option.map_eq_some_iff.mp h
    exact .statement stepped
  | commit lost =>
    obtain ⟨s, found, rest⟩ := Option.bind_eq_some_iff.mp h
    obtain ⟨next, result, rest⟩ := Option.bind_eq_some_iff.mp rest
    obtain ⟨world, stepped, rfl⟩ := Option.map_eq_some_iff.mp rest
    exact .commit found (Session.result_eq.mp result) stepped
  | abort error =>
    obtain ⟨s, found, rest⟩ := Option.bind_eq_some_iff.mp h
    obtain ⟨world, stepped, rfl⟩ := Option.map_eq_some_iff.mp rest
    exact .abort found stepped
  | exit =>
    cases h
    exact .exit

def Steps (code : Code σ ω κ ι ε π) (l : Nat × Move ι ε π) (c c' : Crew σ ω κ ι ε π) : Prop :=
  c.step code l.1 l.2 = some c'

/-- The run of a list of steps. -/
def exec (code : Code σ ω κ ι ε π) : List (Nat × Move ι ε π) → Crew σ ω κ ι ε π →
    Option (Crew σ ω κ ι ε π)
  | [], c => some c
  | l :: ls, c => (c.step code l.1 l.2).bind (exec code ls)

theorem exec_path {ls : List (Nat × Move ι ε π)} (h : exec code ls c = some c') :
    Path (Steps code) ls c c' := by
  induction ls generalizing c with
  | nil =>
    cases h
    exact .nil _
  | cons l ls ih =>
    obtain ⟨mid, first, rest⟩ := Option.bind_eq_some_iff.mp h
    exact .cons first (ih rest)

/-- The transaction of a process ends where the process knows what its stage takes for granted. -/
def Informed (Knows : σ → π → Prop) (w : World π σ ω κ ι ε π) (id : Nat) (_ : Act π ι) : Prop :=
  ∀ s ∈ w.sessions, s.id = id → Knows s.began s.label ∧ Knows w.db s.label

/-- What holds between two steps: of the transactions, and of what each stage takes for granted. -/
structure Holds (R : Rely σ κ) (spec : π → σ → π → Progress σ ω κ → Prop) (I : σ → Prop)
    (Knows : σ → π → Prop) (c : Crew σ ω κ ι ε π) : Prop where
  world : c.world.Holds R spec I
  knows : ∀ id stage, c.stages id = some stage → Knows c.world.db stage
  current : ∀ s ∈ c.world.sessions, c.stages s.id = some s.label ∧ Knows s.began s.label

/-- The obligations: of the transactions, and of a stage to the next. -/
structure Rules (code : Code σ ω κ ι ε π) (R : Rely σ κ)
    (spec : π → σ → π → Progress σ ω κ → Prop) (I : σ → Prop) (Knows : σ → π → Prop) : Prop where
  world : World.Rules code.program (Informed Knows) R spec I
  start : ∀ db stage, I db → code.starts stage → Knows db stage
  stable : ∀ db db' stage, R.rel [] db db' → Knows db stage → Knows db' stage
  next : ∀ stage began next (s : Progress σ ω κ), I s.db → Knows began stage → Knows s.db stage →
    R.rel [] s.db s.view → spec stage began next s → Knows s.view next
  recover : ∀ db stage error, I db → Knows db stage → Knows db (code.recover stage error)

variable {R : Rely σ κ} {spec : π → σ → π → Progress σ ω κ → Prop} {I : σ → Prop}
  {Knows : σ → π → Prop}

omit [DecidableEq κ] in
theorem Holds.informed (h : c.Holds R spec I Knows) (act : Act π ι) :
    Informed Knows c.world id act :=
  fun s there _ => ⟨(h.current s there).2, h.knows s.id _ (h.current s there).1⟩

/-- A step of the transactions alone. -/
theorem Holds.turn (rules : Rules code R spec I Knows) (h : c.Holds R spec I Knows)
    {act : Act π ι} {world : World π σ ω κ ι ε π}
    (stepped : c.world.step code.program id act = some world)
    (current : ∀ s ∈ world.sessions, c.stages s.id = some s.label ∧ Knows s.began s.label) :
    ({ c with world } : Crew σ ω κ ι ε π).Holds R spec I Knows ∧ R.rel [] c.world.db world.db := by
  obtain ⟨holds, later⟩ := World.holds_step rules.world h.world ⟨stepped, h.informed _⟩
  exact ⟨⟨holds, fun id stage is => rules.stable _ _ stage later (h.knows id stage is), current⟩,
    later⟩

omit [DecidableEq κ] in
/-- The stages after the transaction of one process has ended. -/
theorem Holds.close (rules : Rules code R spec I Knows) (h : c.Holds R spec I Knows)
    {world : World π σ ω κ ι ε π} {stage : Option π} (holds : world.Holds R spec I)
    (sessions : world.sessions = c.world.sessions.remove id)
    (later : R.rel [] c.world.db world.db) (knows : ∀ st, stage = some st → Knows world.db st) :
    (({ c with world } : Crew σ ω κ ι ε π).put id stage).Holds R spec I Knows := by
  refine ⟨holds, fun n st is => ?_, fun s there => ?_⟩
  · change (if n = id then stage else c.stages n) = some st at is
    split at is
    · exact knows st is
    · exact rules.stable _ _ st later (h.knows n st is)
  · change s ∈ world.sessions at there
    rw [sessions, Table.mem_remove] at there
    change (if s.id = id then stage else c.stages s.id) = some s.label ∧ _
    rw [if_neg there.2]
    exact h.current s there.1

theorem holds_step (rules : Rules code R spec I Knows) (h : c.Holds R spec I Knows)
    (step : Steps code (id, move) c c') :
    c'.Holds R spec I Knows ∧ R.rel [] c.world.db c'.world.db := by
  cases step_advance step with
  | @spawn stage free starts =>
    refine ⟨⟨h.world, fun n st is => ?_, fun s there => ?_⟩, R.refl _ _⟩
    · change (if n = id then some stage else c.stages n) = some st at is
      split at is
      · cases is
        exact rules.start _ stage h.world.invariant starts
      · exact h.knows n st is
    · change (if s.id = id then some stage else c.stages s.id) = some s.label ∧ _
      rw [if_neg (Table.get?_eq_none.mp free s there)]
      exact h.current s there
  | @begin stage world is stepped =>
    apply h.turn rules stepped
    cases World.step_advance stepped with
    | begin absent =>
      intro s there
      rcases Table.mem_put.mp there with rfl | ⟨old, _⟩
      · exact ⟨is, h.knows id stage is⟩
      · exact h.current s old
  | @draw value world stepped =>
    apply h.turn rules stepped
    cases World.step_advance stepped with
    | @draw s next _ found rest =>
      intro t there
      rcases Table.mem_put.mp there with rfl | ⟨old, _⟩
      · exact h.current s (Table.mem_of_get? found)
      · exact h.current t old
  | @statement world stepped =>
    apply h.turn rules stepped
    cases World.step_advance stepped with
    | @statement s locks writes next found rest free =>
      intro t there
      rcases Table.mem_put.mp there with rfl | ⟨old, _⟩
      · exact h.current s (Table.mem_of_get? found)
      · exact h.current t old
  | @commit s next lost world found rest stepped =>
    obtain ⟨holds, later⟩ := World.holds_step rules.world h.world ⟨stepped, h.informed _⟩
    have there := Table.mem_of_get? found
    have key : s.id = id := Table.key_of_get? found
    have knows : Knows c.world.db s.label := h.knows s.id _ (h.current s there).1
    cases World.step_advance stepped with
    | @commit t a found' rest' =>
      cases found.symm.trans found'
      refine ⟨h.close rules holds rfl later fun st is => ?_, later⟩
      cases is
      cases lost with
      | some error => exact rules.recover _ _ _ holds.invariant (rules.stable _ _ _ later knows)
      | none =>
        have under := h.world.under s there
        rw [rest] at under
        exact rules.next s.label s.began next (s.at_ c.world.db) h.world.invariant
          (h.current s there).2 knows later (under c.world.db (R.refl _ _))
  | @abort s error world found stepped =>
    obtain ⟨holds, later⟩ := World.holds_step rules.world h.world ⟨stepped, h.informed _⟩
    have there := Table.mem_of_get? found
    have knows : Knows c.world.db s.label := h.knows s.id _ (h.current s there).1
    cases World.step_advance stepped with
    | abort =>
      refine ⟨h.close rules holds rfl later fun st is => ?_, later⟩
      cases is
      exact rules.recover _ _ _ h.world.invariant knows
  | exit =>
    have holds : ({ c.world.close id with db := c.world.db } : World π σ ω κ ι ε π).Holds R spec I :=
      h.world.close h.world.invariant fun _ _ _ => R.refl _ _
    refine ⟨h.close rules holds rfl (R.refl _ _) fun st is => ?_, R.refl _ _⟩
    cases is

/-- What holds at the start of a run holds to its end. -/
theorem holds_path (rules : Rules code R spec I Knows) {ls : List (Nat × Move ι ε π)}
    (path : Path (Steps code) ls c c') (h : c.Holds R spec I Knows) :
    c'.Holds R spec I Knows ∧ R.rel [] c.world.db c'.world.db := by
  induction path with
  | nil c => exact ⟨h, R.refl _ _⟩
  | cons first _ ih =>
    obtain ⟨next, step⟩ := holds_step rules h first
    obtain ⟨last, rest⟩ := ih next
    exact ⟨last, R.trans _ _ _ _ step rest⟩

omit [DecidableEq κ] in
theorem holds_idle {db : σ} (invariant : I db) :
    (idle db : Crew σ ω κ ι ε π).Holds R spec I Knows :=
  ⟨World.holds_quiet invariant, fun _ _ is => (nomatch is),
    fun _ member => absurd member Table.not_mem_empty⟩

/-- The commit of a stage that leads to the next; the reply may be lost. -/
def Commits (code : Code σ ω κ ι ε π) (stage next : π) (c c' : Crew σ ω κ ι ε π) : Prop :=
  ∃ id lost, c.step code id (.commit lost) = some c' ∧
    ∃ s ∈ c.world.sessions, s.id = id ∧ s.label = stage ∧ s.rest = .done next

/-- What a commit leaves is what its transaction saw at its end. -/
theorem Commits.ends {stage next : π} (h : Commits code stage next c c')
    (holds : c.Holds R spec I Knows) :
    Knows c.world.db stage ∧ ∃ (began : σ) (s : Progress σ ω κ), s.db = c.world.db ∧
      s.view = c'.world.db ∧ Knows began stage ∧ spec stage began next s := by
  obtain ⟨id, lost, step, s, there, key, label, rest⟩ := h
  cases step_advance step with
  | @commit t a _ world found _ stepped =>
    have same : t = s := Table.key_inj (Table.mem_of_get? found) there
      ((Table.key_of_get? found).trans key.symm)
    subst same
    subst label
    cases World.step_advance stepped with
    | @commit u b found' _ =>
      cases found.symm.trans found'
      have under := holds.world.under t there
      rw [rest] at under
      obtain ⟨current, began⟩ := holds.current t there
      exact ⟨holds.knows t.id _ current, t.began, t.at_ c.world.db, rfl, rfl, began,
        under _ (R.refl _ _)⟩

/-- Only a commit changes the database. -/
theorem step_commits {l : Nat × Move ι ε π} (step : Steps code l c c')
    (changed : c'.world.db ≠ c.world.db) : ∃ stage next, Commits code stage next c c' := by
  obtain ⟨id, move⟩ := l
  have step' := step
  cases step_advance step with
  | @commit s next lost world found rest stepped =>
    exact ⟨s.label, next, id, lost, step', s, Table.mem_of_get? found, Table.key_of_get? found, rfl,
      rest⟩
  | spawn _ _ => exact absurd rfl changed
  | begin _ stepped =>
    cases World.step_advance stepped with
    | begin => exact absurd rfl changed
  | draw stepped =>
    cases World.step_advance stepped with
    | draw => exact absurd rfl changed
  | statement stepped =>
    cases World.step_advance stepped with
    | statement => exact absurd rfl changed
  | abort _ stepped =>
    cases World.step_advance stepped with
    | abort => exact absurd rfl changed
  | exit => exact absurd rfl changed

end Crew

end Artoo.Lib
