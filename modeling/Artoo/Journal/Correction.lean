import Artoo.Journal.Delivery

/-! The correction of a completed run that could not be delivered, and the failures that
cause it. -/
namespace Artoo.Journal
open Artoo.Protocol Artoo.Lib

variable {w : Worker} {db : Database} {c : Cell}

/-- `SET superseded=1` on the rows `p` selects. -/
def flag (p : EventRow → Bool) (e : EventRow) : EventRow :=
  if p e then { e with superseded := true } else e

/-- The three conditions of `createCorrection`. -/
def stale (n : Nat) (e : EventRow) : Bool := e.active && decide (e.sequence < n)

def named (eventId : String) (e : EventRow) : Bool := e.eventId == eventId && !e.superseded

/-- What the three updates select together. -/
def outdated (n : Nat) (retained terminal : String) (e : EventRow) : Bool :=
  stale n e || e.eventId == retained || e.eventId == terminal

theorem flag_eq (p : EventRow → Bool) (e : EventRow) : flag p e = e.retire (p e) := by
  cases e
  simp only [flag, EventRow.retire]
  split <;> simp_all

theorem retire_retire (a b : Bool) (e : EventRow) : (e.retire a).retire b = e.retire (a || b) := by
  simp [EventRow.retire, Bool.or_assoc]

theorem retire_congr {a b : Bool} {e : EventRow} (same : (e.superseded || a) = (e.superseded || b)) :
    e.retire a = e.retire b := by
  simp [EventRow.retire, same]

theorem named_retire (eventId : String) (a : Bool) (e : EventRow) :
    named eventId (e.retire a) = (e.eventId == eventId && !(e.superseded || a)) := rfl

/-- Flagging in three passes is flagging once. -/
theorem flag_chain (n : Nat) (retained terminal : String) (e : EventRow) :
    flag (named terminal) (flag (named retained) (flag (stale n) e)) =
      e.retire (outdated n retained terminal e) := by
  have passes : ∀ s a x y : Bool, (s || (a || (x && !(s || a)) || (y && !(s || (a || (x && !(s || a))))))) =
      (s || (a || x || y)) := by decide
  simp only [flag_eq, retire_retire, named_retire]
  exact retire_congr (passes _ _ _ _)

/-- The three passes count every row they retire once. -/
theorem count_chain (n : Nat) (retained terminal : String) (rows : List EventRow) :
    rows.countP (stale n) + (rows.map (flag (stale n))).countP (named retained) +
        ((rows.map (flag (stale n))).map (flag (named retained))).countP (named terminal) =
      rows.countP fun e => outdated n retained terminal e && !e.superseded := by
  have ones : ∀ s a x y : Bool, (a = true → s = false) →
      a.toNat + (x && !(s || a)).toNat + (y && !(s || (a || (x && !(s || a))))).toNat =
        ((a || x || y) && !s).toNat := by decide
  have toNat : ∀ x : Bool, (if x = true then 1 else 0) = x.toNat := by decide
  induction rows with
  | nil => rfl
  | cons e rest ih =>
    have current : stale n e = true → e.superseded = false := fun h =>
      EventRow.current (Bool.and_eq_true_iff.mp h).1
    have each := ones e.superseded (stale n e) (e.eventId == retained) (e.eventId == terminal) current
    simp only [List.map_cons, List.countP_cons, toNat]
    simp only [flag_eq, retire_retire, named_retire, outdated] at ih ⊢
    omega

/-- Both correction inserts are within capacity and collide with nothing. -/
theorem insert_correction {key : String} {outcome : FinalOutcome} {closure : ReceiptRow}
    {history : List EventCore} (h : Held db c) (inv : LogInv w.digest c.row c.rows)
    (run : UncorrectedRun w.digest c key outcome closure history) :
    ∃ db₁ db₂,
      db.insertOutbox (correctionRow w.digest c.row outcome .retained) = .ok db₁ ∧
      db₁.insertOutbox (correctionRow w.digest c.row outcome .terminal) = .ok db₂ ∧
      Held db₂ { c with rows := c.rows ++ c.correctionRows w.digest outcome } ∧
      Frame c.row.runId db db₂ := by
  have range := run.range
  have max := maxSequence_eq
  have unused : ∀ e ∈ c.rows, ∀ suffix,
      e.eventId ≠ (correctionRow w.digest c.row outcome suffix).eventId := by
    intro e member suffix
    simp only [correctionRow, run.receiptId, Option.getD_some]
    exact run.fresh e member suffix
  obtain ⟨db₁, first, held₁, frame₁, -⟩ := h.insertOutbox
    (correctionRow w.digest c.row outcome .retained) rfl
    (by simp only [correctionRow, Suffix.index]; omega)
    (fun e member => by
      have := inv.sequence_lt member
      simp only [correctionRow, Suffix.index]
      omega)
    (fun e member => unused e member .retained)
  obtain ⟨db₂, second, held₂, frame₂, -⟩ := held₁.insertOutbox
    (correctionRow w.digest c.row outcome .terminal) rfl
    (by simp only [correctionRow, Suffix.index]; omega)
    (fun e member => by
      rcases List.mem_append.mp member with old | new
      · have := inv.sequence_lt old
        simp only [correctionRow, Suffix.index]
        omega
      · rw [List.mem_singleton.mp new]
        simp [correctionRow, Suffix.index])
    (fun e member => by
      rcases List.mem_append.mp member with old | new
      · exact unused e old .terminal
      · rw [List.mem_singleton.mp new]
        intro same
        cases correctionEventId_injective same)
  refine ⟨db₁, db₂, first, second, ?_, frame₁.trans frame₂⟩
  simpa [Cell.correctionRows] using held₂

/-- The passes over the run and its correction rows retire exactly the obsolete rows. -/
theorem outdated_rows (inv : LogInv w.digest c.row c.rows) (outcome : FinalOutcome) :
    let q := outdated c.row.nextSequence (originalEventId c.row .retained)
      (originalEventId c.row .terminal)
    (∀ e ∈ c.rows, q e = c.obsolete e) ∧ ∀ e ∈ c.correctionRows w.digest outcome, q e = false := by
  constructor
  · intro e member
    simp [outdated, stale, Cell.obsolete, inv.sequence_lt member]
  · intro e member
    obtain ⟨suffix, rfl⟩ := Cell.mem_correctionRows member
    have other : ∀ s, correctionEventId (c.row.receiptId.getD "null") suffix ≠ originalEventId c.row s :=
      fun s => (settlement_ne_correction s suffix).symm
    have late : stale c.row.nextSequence (correctionRow w.digest c.row outcome suffix) = false := by
      refine Bool.and_eq_false_iff.mpr (.inr (decide_eq_false ?_))
      simp only [correctionRow]
      omega
    rw [outdated, late]
    simp [correctionRow, other]

/-- The passes on the database. -/
theorem supersedeOld_eq (h : Held db c) (value : RunRow) (runId : value.runId = c.row.runId) :
    ∃ db', supersedeOld db value =
        (c.rows.countP (fun e => outdated value.nextSequence (originalEventId value .retained)
          (originalEventId value .terminal) e && !e.superseded), db') ∧
      Held db' { c with rows := c.rows.map fun e => e.retire (outdated value.nextSequence
        (originalEventId value .retained) (originalEventId value .terminal) e) } ∧
      Frame c.row.runId db db' := by
  have first := h.updateOutbox (stale value.nextSequence) ({ · with superseded := true })
  have second := first.updateOutbox (named (originalEventId value .retained))
    ({ · with superseded := true })
  have third := second.updateOutbox (named (originalEventId value .terminal))
    ({ · with superseded := true })
  have rows : ((c.rows.map (flag (stale value.nextSequence))).map
      (flag (named (originalEventId value .retained)))).map
      (flag (named (originalEventId value .terminal))) =
      c.rows.map fun e => e.retire (outdated value.nextSequence
        (originalEventId value .retained) (originalEventId value .terminal) e) := by
    rw [List.map_map, List.map_map]
    exact List.map_congr_left fun e _ => flag_chain _ _ _ e
  refine ⟨_, ?_, ⟨third.runs, third.outbox.trans rows, third.receipt⟩, ?_⟩
  · rw [supersedeOld, runId]
    refine Prod.ext ?_ rfl
    refine Eq.trans ?_ (count_chain _ _ _ c.rows)
    simp only [supersede]
    exact congr (congrArg _ (congr (congrArg _ (h.changes _)) (first.changes _))) (second.changes _)
  · exact ((Frame.updateOutbox _ _).trans (Frame.updateOutbox _ _)).trans (Frame.updateOutbox _ _)

/-- A correction of a completed run always has room. -/
theorem createCorrection_ok {key : String} {outcome : FinalOutcome} {closure : ReceiptRow}
    {history : List EventCore} (h : Held db c) (inv : LogInv w.digest c.row c.rows)
    (run : UncorrectedRun w.digest c key outcome closure history)
    (completed : outcome.terminal.phase = .completed) (target : EventRow) (attempt : Attempt)
    (reason : DeliveryFailureReason) :
    ∃ db', createCorrection w db c.row target attempt reason = .ok db' ∧
      Held db' (c.corrected w.digest outcome ⟨target.sequence, attempt.id, reason⟩) ∧
      Frame c.row.runId db db' := by
  have count : c.outstanding.length = c.rows.countP EventRow.active :=
    List.countP_eq_length_filter.symm
  have backlog := run.backlog
  have range := run.range
  have room : ¬ (maxBacklog - 2 < c.outstanding.length ∨ maxSequence - 1 < c.row.nextSequence) := by
    omega
  obtain ⟨events, read, of⟩ := h.runEvents_ok inv (by rw [count]; omega)
  obtain ⟨db₁, db₂, first, second, held₂, frame₂⟩ := insert_correction h inv run
  obtain ⟨db₃, retired, held₃, frame₃⟩ := supersedeOld_eq held₂ c.row rfl
  obtain ⟨old, new⟩ := outdated_rows inv outcome
  have rows : ((c.rows ++ c.correctionRows w.digest outcome).map fun e =>
      e.retire (outdated c.row.nextSequence (originalEventId c.row .retained)
        (originalEventId c.row .terminal) e)) =
      c.rows.map (fun e => e.retire (c.obsolete e)) ++ c.correctionRows w.digest outcome := by
    rw [List.map_append]
    refine congr (congrArg _ ?_) ?_
    · exact List.map_congr_left fun e member => congrArg (EventRow.retire · e) (old e member)
    · refine (List.map_congr_left fun e member => ?_).trans (List.map_id' _)
      rw [new e member]
      simp [EventRow.retire]
  have total : (c.rows ++ c.correctionRows w.digest outcome).countP (fun e =>
      outdated c.row.nextSequence (originalEventId c.row .retained)
        (originalEventId c.row .terminal) e && !e.superseded) =
      c.rows.countP fun e => c.obsolete e && !e.superseded := by
    rw [List.countP_append]
    refine (congr (congrArg _ ?_) (List.countP_eq_zero.mpr fun e member => ?_)).trans (Nat.add_zero _)
    · exact List.countP_congr fun e member => by rw [old e member]
    · simp [new e member]
  rw [rows] at held₃
  rw [total] at retired
  let trigger : CorrectionTrigger := ⟨target.sequence, attempt.id, reason⟩
  have held₄ := (held₃.updateRun (fun row => { row with
      supersededCount := row.supersededCount +
        c.rows.countP (fun e => c.obsolete e && !e.superseded) }) rfl rfl).updateRun
    (fun row => { row with
      deliveryRevision := .one, deliveryState := .correcting,
      deliveryCorrection := some (c.correctionRecord w.digest outcome trigger),
      nextSequence := row.nextSequence + 2 }) rfl rfl
  refine ⟨_, ?_, ⟨held₄.runs, held₄.outbox, held₄.receipt⟩,
    ((frame₂.trans frame₃).trans (Frame.updateRun _)).trans (Frame.updateRun _)⟩
  simp only [createCorrection, run.revision, ne_eq, not_true_eq_false, if_false, run.finalOutcome,
    completed, read, of.active, ok_bind, if_neg room, first, second, retired]
  rfl

/-- Off the success path nothing is corrected. -/
theorem createCorrection_skip {outcome : FinalOutcome} (w : Worker) (db : Database) {value : RunRow}
    (outcomeIs : value.finalOutcome = some outcome) (path : completedPath value = false)
    (target : EventRow) (attempt : Attempt) (reason : DeliveryFailureReason) :
    createCorrection w db value target attempt reason = .ok db := by
  rw [createCorrection]
  by_cases zero : value.deliveryRevision = .zero
  · simp only [completedPath, zero, outcomeIs, Option.any_some, beq_self_eq_true, Bool.true_and,
      beq_eq_false_iff_ne] at path
    simp [zero, outcomeIs, path]
  · simp [zero]

/-! ### Failed attempts -/

/-- A reported timeout before the deadline, or one on another clock. -/
def tooEarly (w : Worker) (target : EventRow) (now : Nat) : Prop :=
  target.clockId = none ∨ target.clockId ≠ w.clockId ∨ target.deadlineTickMs = none ∨
    now < target.deadlineTickMs.getD 0

/-- What a failure does: nothing to an acknowledged row, else it marks the attempt, and the
last chance of a completed run turns into its correction. -/
inductive FailResult (w : Worker) (db : Database) (c : Cell) (target : EventRow)
    (attempt : Attempt) (reason : DeliveryFailureReason) (now : Nat) :
    Database → List Attempt → Cell → List Label → Prop where
  | kept (acknowledged : target.committed = true) :
      FailResult w db c target attempt reason now db target.attempts c []
  | failed {db' : Database} {exhausted : Bool}
      (failing : Failing c target attempt.id reason exhausted)
      (late : target.deadlineTickMs.getD 0 ≤ now → exhausted = true)
      (moves : Moves w.digest [.fail target.sequence attempt.id] db c db'
        (c.failed target attempt.id reason exhausted)) :
      FailResult w db c target attempt reason now db' (markFailure target.attempts attempt.id reason)
        (c.failed target attempt.id reason exhausted) [.fail target.sequence attempt.id]
  | corrected {db' : Database} {outcome : FinalOutcome} {trigger : CorrectionTrigger}
      (failing : Failing c target attempt.id reason true) (revision : c.row.deliveryRevision = .zero)
      (moves : Moves w.digest [.correct target.sequence attempt.id] db c db'
        ((c.failed target attempt.id reason true).corrected w.digest outcome trigger)) :
      FailResult w db c target attempt reason now db' (markFailure target.attempts attempt.id reason)
        ((c.failed target attempt.id reason true).corrected w.digest outcome trigger)
        [.correct target.sequence attempt.id]

theorem Stored.correct_moves (h : Stored w.digest db c) {target : EventRow} {attempt : Attempt}
    {reason : DeliveryFailureReason} {outcome : FinalOutcome}
    (failing : Failing c target attempt.id reason true) (active : target.active = true)
    (phase : c.row.phase = .closed) (outcomeIs : c.row.finalOutcome = some outcome)
    (path : completedPath c.row = true) :
    ∃ db', createCorrection w
        (persistAttempts db target (markFailure target.attempts attempt.id reason) (some true)) c.row
        target attempt reason = .ok db' ∧
      Moves w.digest [.correct target.sequence attempt.id] db c db'
        ((c.failed target attempt.id reason true).corrected w.digest outcome
          ⟨target.sequence, attempt.id, reason⟩) := by
  obtain ⟨completed, key, closure, history, run⟩ := h.inv.settled_of_path outcomeIs path
  have runId := h.inv.runIds target failing.member
  have log := Cell.failed_log failing h.inv.toLogInv
  have uncorrected := (Cell.failed_retouch failing).uncorrected h.inv.toLogInv run.toUncorrectedRun
  have held : Held _ (c.failed target attempt.id reason true) := h.persisted runId _ _
  obtain ⟨db', created, held', frame⟩ :=
    createCorrection_ok held log uncorrected completed target attempt reason
  exact ⟨db', created, .of_step h.inv (.correct failing active phase outcomeIs path) held'
    ((Frame.persistAttempts runId _ _).trans frame)⟩

theorem Stored.failAttempt_ok (h : Stored w.digest db c) {target : EventRow} {attempt : Attempt}
    {reason : DeliveryFailureReason} {outcome : FinalOutcome} {now : Nat} (member : target ∈ c.rows)
    (attempted : attempt ∈ target.attempts) (phase : c.row.phase = .closed)
    (outcomeIs : c.row.finalOutcome = some outcome)
    (timely : ¬ (reason = .receiptTimeout ∧ tooEarly w target now)) :
    ∃ db' saved c' ls, failAttempt w db c.row target target.attempts attempt reason now =
        .ok (db', saved) ∧ FailResult w db c target attempt reason now db' saved c' ls := by
  have row := h.inv.each target member
  rw [tooEarly] at timely
  rw [failAttempt, if_neg timely]
  by_cases acknowledged : (target.committed || attempt.accepted) = true
  · have committed : target.committed = true := by
      rcases Bool.or_eq_true_iff.mp acknowledged with committed | accepted
      · exact committed
      · exact row.committed.mpr ⟨attempt, attempted, accepted⟩
    rw [if_pos acknowledged]
    exact ⟨_, _, _, _, rfl, .kept committed⟩
  · have uncommitted : target.committed = false := by
      simp only [Bool.or_eq_true, not_or, Bool.not_eq_true] at acknowledged
      exact acknowledged.1
    rw [if_neg acknowledged, if_neg (by simp [outcomeIs])]
    let exhausted := (reason == .rejected && completedPath c.row) ||
      decide (target.deadlineTickMs.getD 0 ≤ now) ||
      spent (markFailure target.attempts attempt.id reason) || target.exhausted
    have failing : Failing c target attempt.id reason exhausted :=
      ⟨member, uncommitted, ⟨attempt, attempted, rfl⟩, fun h => by simp [exhausted, h],
        fun h => by simp [exhausted, h]⟩
    have late : target.deadlineTickMs.getD 0 ≤ now → exhausted = true := fun h => by
      simp [exhausted, h]
    by_cases spent : (!target.superseded && exhausted) = true
    · obtain ⟨current, spent⟩ := Bool.and_eq_true_iff.mp spent
      have active : target.active = true := by simpa [EventRow.active, uncommitted] using current
      rw [spent] at failing
      by_cases path : completedPath c.row = true
      · obtain ⟨db', created, moves⟩ := h.correct_moves failing active phase outcomeIs path
        have zero : c.row.deliveryRevision = .zero := by
          simpa using (Bool.and_eq_true_iff.mp path).1
        refine ⟨db', _, _, _, ?_, .corrected failing zero moves⟩
        simp only [exhausted] at spent
        simp only [spent, current, Bool.and_self, if_true, created, ok_bind]
      · have skip := createCorrection_skip w
          (persistAttempts db target (markFailure target.attempts attempt.id reason) (some true))
          outcomeIs (by simpa using path) target attempt reason
        refine ⟨_, _, _, _, ?_, .failed failing (fun _ => rfl)
          (h.fail_moves failing fun _ _ => .inr ⟨phase, by simpa using path⟩)⟩
        simp only [exhausted] at spent
        simp only [spent, current, Bool.and_self, if_true, skip, ok_bind]
    · have kept : exhausted = true → target.active = true → MayExhaust c := fun done active =>
        absurd (by simp [target.current active, done]) spent
      refine ⟨_, _, _, _, ?_, .failed failing late (h.fail_moves failing kept)⟩
      simp only [exhausted] at spent
      simp only [if_neg spent]
      rfl

end Artoo.Journal
