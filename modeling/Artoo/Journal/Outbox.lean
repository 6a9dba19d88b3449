import Artoo.Journal.Exec

/-! The outbox as a gapless log, and the room every started run keeps for its settlement and its
correction. -/
namespace Artoo.Journal
open Artoo.Protocol Artoo.Lib

variable {digest : NodeRunEvent → String} {trace : List (Action × Observation)} {s s' : System}

/-- The cell of a reachable run. -/
theorem System.reachable_cell (run : System.Run digest trace .initial s) {r : String} {row : RunRow}
    (found : s.db.runs r = some row) :
    ∃ c, c.row = row ∧ c.row.runId = r ∧ Stored digest s.db c ∧ c.rows = s.db.outbox r := by
  obtain ⟨c, rfl, names, stored⟩ := (System.reachable_inv run).stored r row found
  exact ⟨c, rfl, names, stored, names ▸ stored.outbox.symm⟩

/-- Rows belong to known runs. -/
theorem System.reachable_row (run : System.Run digest trace .initial s) {r : String} {e : EventRow}
    (member : e ∈ s.db.outbox r) : ∃ row, s.db.runs r = some row := by
  cases found : s.db.runs r with
  | some row => exact ⟨row, rfl⟩
  | none =>
    rw [(System.reachable_inv run).empty r found] at member
    cases member

/-! ### Appends -/

/-- What the owner's appends to a run do. -/
structure Appends (w : Worker) (db : Database) (row : RunRow) (owner : Owner) : Prop where
  /-- identical content under a stored id: already stored, no write -/
  stored : ∀ prior ∈ db.outbox row.runId,
    append w db owner prior.eventId prior.content = .ok (.append (.stored prior.stored row.revision), db)
  /-- other content under a stored id: a conflict, no write -/
  conflict : ∀ prior ∈ db.outbox row.runId, ∀ content, content ≠ prior.content →
    append w db owner prior.eventId content = .ok (.append (.conflict prior.stored row.revision), db)
  /-- a new id: exactly the next sequence -/
  fresh : row.phase ≠ .closed → row.liveAbort = none → db.activeCount row.runId < maxBacklog - 4 →
    row.nextSequence ≤ maxSequence - 4 → ∀ eventId content,
    (∀ e ∈ db.outbox row.runId, e.eventId ≠ eventId) → startsWith reservedPrefix eventId = false →
    settlementBody content = false →
    ∃ db', append w db owner eventId content = .ok (.append (.stored
        (appendedRow w row eventId content).stored (row.revision + 1)), db') ∧
      db'.outbox row.runId = db.outbox row.runId ++ [appendedRow w row eventId content] ∧
      db'.runs row.runId =
        some { row with nextSequence := row.nextSequence + 1, revision := row.revision + 1 } ∧
      Frame row.runId db db'
  /-- a closed, aborted or full run: no write -/
  refused : row.phase = .closed ∨ row.liveAbort.isSome = true ∨
      maxBacklog - 4 ≤ db.activeCount row.runId ∨ maxSequence - 4 < row.nextSequence →
    ∀ eventId content, ∃ reply, append w db owner eventId content = .ok (.append reply, db)

theorem Stored.appends {w : Worker} {db : Database} {c : Cell} (h : Stored w.digest db c) {owner : Owner}
    (mine : owned w db owner = .ok c.row) : Appends w db c.row owner := by
  constructor
  · intro prior member
    rw [h.append_prior mine (h.outbox ▸ member), if_pos rfl]
  · intro prior member content other
    rw [h.append_prior mine (h.outbox ▸ member), if_neg other.symm]
  · intro phase abort backlog range eventId content unused reserved body
    rw [Database.activeCount, h.outbox] at backlog
    rw [h.outbox] at unused
    obtain ⟨db', result, moves⟩ :=
      h.append_new mine unused reserved body phase abort backlog range
    exact ⟨db', result, by rw [h.outbox]; exact moves.stored.outbox, moves.stored.runs, moves.frame⟩
  · intro refused eventId content
    rw [Database.activeCount, h.outbox] at refused
    by_cases used : ∃ e ∈ c.rows, e.eventId = eventId
    · obtain ⟨e, member, rfl⟩ := used
      exact ⟨_, h.append_prior mine member content⟩
    · exact ⟨_, h.append_refused mine (by simpa using used) content refused⟩

/-- The rows of a run number 0 to `nextSequence - 1` under distinct ids, no row changes its
identity or its text later, and the owner's appends keep it so. -/
theorem outbox_representation (run : System.Run digest trace .initial s) {r : String} {row : RunRow}
    (found : s.db.runs r = some row) :
    (s.db.outbox r).map (·.sequence) = List.range row.nextSequence ∧
      ((s.db.outbox r).map (·.eventId)).Nodup ∧
      (∀ later s', System.Run digest later s s' → ∀ e ∈ s.db.outbox r,
        ∃ e' ∈ s'.db.outbox r, e'.sequence = e.sequence ∧ e'.eventId = e.eventId ∧
          e'.content = e.content ∧ e'.contentSha256 = e.contentSha256) ∧
      ∀ w owner, w.digest = digest → owned w s.db owner = .ok row → Appends w s.db row owner := by
  obtain ⟨c, rfl, names, stored, rows⟩ := System.reachable_cell run found
  refine ⟨?_, ?_, ?_, ?_⟩
  · rw [← rows]
    exact stored.inv.sequences
  · rw [← rows]
    exact stored.inv.eventIds
  · intro later s' onward e member
    obtain ⟨c', stored', forward⟩ := System.run_later onward (System.reachable_inv run) c stored
    obtain ⟨e', member', ages⟩ := forward.rows e (rows ▸ member)
    have listed : e' ∈ s'.db.outbox r := by
      rw [← names, ← forward.runId, stored'.outbox]
      exact member'
    exact ⟨e', listed, ages.sequence, ages.eventId, congrArg EventCore.content ages.core,
      congrArg EventCore.contentSha256 ages.core⟩
  · rintro w owner rfl mine
    exact stored.appends mine

theorem outbox_representation_appended :
    let s := (System.initial.exec sampleDigest (sampleStart ++ sampleAppends)).2
    (s.db.outbox "run").map (·.sequence) = List.range 2 := by
  intro s
  have checks : allowed sampleDigest "run" .initial (sampleStart ++ sampleAppends) = true := by
    decide +kernel
  have counted : (s.db.runs "run").map (·.nextSequence) = some 2 := by decide +kernel
  obtain ⟨row, found, next⟩ := Option.map_eq_some_iff.mp counted
  exact next ▸ (outbox_representation (exec_run _ checks) found).1

/-! ### Reserved room -/

theorem Cell.Inv.range {c : Cell} (inv : c.Inv digest) : c.row.nextSequence ≤ maxSequence + 1 := by
  have max := maxSequence_eq
  cases inv.stage with
  | open_ run =>
    have range := run.range
    omega
  | fenced run =>
    have length := inv.length_rows
    rw [run.rows] at length
    simp [← length]
  | settled run =>
    have range := run.range
    omega
  | corrected run => exact run.range

/-- A settlement of the owner that the journal's own rules do not forbid. -/
structure Settles (w : Worker) (db : Database) (row : RunRow) (owner : Owner) (input : ClosedInput) :
    Prop where
  mine : owned w db owner = .ok row
  stage : row.phase = input.proofSource.phase
  contents : input.eventContents = input.outcome.contents
  clean : ¬ (row.liveAbort.isSome = true ∧ input.outcome.terminal.phase = .completed)

theorem Stored.settles {w : Worker} {db : Database} {c : Cell} (h : Stored w.digest db c)
    (fresh : FreshId db w.uuid) {owner : Owner} {input : ClosedInput}
    (settles : Settles w db c.row owner input) :
    ∃ reply db' row', producerClosed w db owner input = .ok (reply, db') ∧
      db'.runs c.row.runId = some row' ∧ row'.phase = .closed ∧
      row'.finalOutcome = some input.outcome := by
  obtain ⟨receipt, db', result, moves⟩ :=
    h.settle_ok fresh settles.mine settles.clean settles.stage settles.contents
  exact ⟨_, db', _, result, moves.stored.runs, rfl, rfl⟩

/-- The correction of a closed run finds room, and creates revision 1 where the outcome calls for
it. -/
theorem Stored.corrects {w : Worker} {db : Database} {c : Cell} (h : Stored w.digest db c)
    {outcome : FinalOutcome} (outcomeIs : c.row.finalOutcome = some outcome) (target : EventRow)
    (attempt : Attempt) (reason : DeliveryFailureReason) :
    ∃ db' row', createCorrection w db c.row target attempt reason = .ok db' ∧
      db'.runs c.row.runId = some row' ∧
      (outcome.terminal.phase = .completed → row'.deliveryRevision = .one) := by
  by_cases path : completedPath c.row = true
  · obtain ⟨completed, key, closure, history, run⟩ := h.inv.settled_of_path outcomeIs path
    obtain ⟨db', result, held, -⟩ := createCorrection_ok h.toHeld h.inv.toLogInv
      run.toUncorrectedRun completed target attempt reason
    exact ⟨db', _, result, held.runs, fun _ => rfl⟩
  · have off : completedPath c.row = false := by simpa using path
    refine ⟨db, c.row, createCorrection_skip w db outcomeIs off target attempt reason, h.runs, ?_⟩
    intro completed
    cases revision : c.row.deliveryRevision with
    | one => rfl
    | zero => simp [completedPath, revision, outcomeIs, completed] at off

/-- Every stored sequence is in range, the owner's settlement and the correction of any settled run
succeed, and no call at all ends in a capacity, range or constraint error. -/
theorem reserved_capacity (run : System.Run digest trace .initial s) :
    (∀ r, ∀ e ∈ s.db.outbox r, e.sequence ≤ maxSequence) ∧
      (∀ w r row owner input, w.digest = digest → FreshId s.db w.uuid → s.db.runs r = some row →
        Settles w s.db row owner input →
        ∃ reply db' row', producerClosed w s.db owner input = .ok (reply, db') ∧
          db'.runs r = some row' ∧ row'.phase = .closed ∧ row'.finalOutcome = some input.outcome) ∧
      (∀ w r row outcome target attempt reason, w.digest = digest → s.db.runs r = some row →
        row.finalOutcome = some outcome →
        ∃ db' row', createCorrection w s.db row target attempt reason = .ok db' ∧
          db'.runs r = some row' ∧
          (outcome.terminal.phase = .completed → row'.deliveryRevision = .one)) ∧
      ∀ w last cmd e, w.digest = digest → FreshId s.db w.uuid → cmd.WellFormed →
        execute w ⟨s.db, last⟩ cmd = .error e →
        e ≠ .settlementCapacity ∧ e ≠ .correctionCapacity ∧ e ≠ .activeBoundExceeded ∧
          e ≠ .constraint := by
  have inv := System.reachable_inv run
  refine ⟨?_, ?_, ?_, ?_⟩
  · intro r e member
    obtain ⟨row, found⟩ := System.reachable_row run member
    obtain ⟨c, rfl, names, stored, rows⟩ := System.reachable_cell run found
    have below := stored.inv.sequence_lt (rows ▸ member)
    have range := stored.inv.range
    omega
  · rintro w r row owner input rfl fresh found settles
    obtain ⟨c, rfl, rfl, stored, -⟩ := System.reachable_cell run found
    exact stored.settles fresh settles
  · rintro w r row outcome target attempt reason rfl found outcomeIs
    obtain ⟨c, rfl, rfl, stored, -⟩ := System.reachable_cell run found
    exact stored.corrects outcomeIs target attempt reason
  · rintro w last cmd e rfl fresh formed thrown
    have external := (execute_spec inv fresh last formed).of_error thrown
    refine ⟨?_, ?_, ?_, ?_⟩ <;> rintro rfl <;> cases external.consistency

/-- The sample run with both events appended, settled as completed. -/
def sampleSettled : List Action := sampleStart ++ sampleAppends ++
  [.call "first" (sampleEnv "u7" 3) (.producerClosed sampleOwner
    ⟨.returnedHandle, .null, sampleOutcome .completed .completed,
      (sampleOutcome .completed .completed).contents⟩)]

theorem reserved_capacity_settled :
    let s := (System.initial.exec sampleDigest sampleSettled).2
    (s.db.outbox "run").length = 4 ∧ ∀ e ∈ s.db.outbox "run", e.sequence ≤ maxSequence := by
  have checks : allowed sampleDigest "run" .initial sampleSettled = true := by decide +kernel
  exact ⟨by decide +kernel, (reserved_capacity (exec_run _ checks)).1 "run"⟩

end Artoo.Journal
