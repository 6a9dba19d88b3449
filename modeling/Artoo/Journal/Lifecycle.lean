import Artoo.Journal.Moves

/-! The operations that open, move, stop and close a run and append to its outbox. -/
namespace Artoo.Journal
open Artoo.Protocol Artoo.Lib

/-- A failure the caller, the clock or the disk is answerable for. A timeout comes too early
only where the caller `reported` it. -/
structure External (reported : Bool) (e : JournalError) : Prop where
  consistency : e.consistency = false
  timeout : e = .timeoutTooEarly ∨ e = .liveTimeoutTooEarly → reported = true

theorem External.mono {reported : Bool} {e : JournalError} (h : External false e) :
    External reported e :=
  ⟨h.consistency, fun early => nomatch h.timeout early⟩

/-- A random id that no stored text mentions yet. -/
structure FreshId (db : Database) (uuid : String) : Prop where
  named : uuid ≠ ""
  receipt : db.receipts uuid = none
  attempt : ∀ r, ∀ e ∈ db.outbox r, ∀ a ∈ e.attempts, a.id ≠ uuid
  mentioned : ∀ r, ∀ e ∈ db.outbox r, ¬ uuid.toList <:+: e.eventId.toList

theorem FreshId.correction {db : Database} {uuid : String} (fresh : FreshId db uuid) {r : String}
    {e : EventRow} (member : e ∈ db.outbox r) (suffix : Suffix) :
    e.eventId ≠ correctionEventId uuid suffix := by
  intro same
  apply fresh.mentioned r e member
  rw [same]
  refine ⟨"sys:delivery:".toList, (":correction:1" ++ ":" ++ suffix.text).toList, ?_⟩
  simp [correctionEventId, correctionId]

variable {w : Worker} {db : Database} {c : Cell}

/-- The owner check passes only for the incarnation, nonce and key of the row. -/
theorem owned_ok {input : Owner} {value : RunRow} (h : owned w db input = .ok value) :
    db.runs input.runId = some value ∧ value.ownerIncarnation = some w.incarnation ∧
      value.ownerNonce = some input.nonce ∧ value.launchKey = some input.key := by
  rw [owned] at h
  split at h
  · cases h
  next row found =>
    split at h
    · cases h
    next mine =>
      obtain rfl := Except.ok.inj h
      simpa [found, not_or] using mine

theorem owned_external (w : Worker) (db : Database) (input : Owner) :
    Ensures (External false) (fun value => owned w db input = .ok value) (owned w db input) := by
  cases result : owned w db input with
  | ok value => rfl
  | error e =>
    rw [owned] at result
    split at result
    · obtain rfl := Except.error.inj result
      exact ⟨rfl, nofun⟩
    · split at result
      · obtain rfl := Except.error.inj result
        exact ⟨rfl, nofun⟩
      · cases result

/-- The owner's operations see the cell of their run. -/
structure Owned (w : Worker) (input : Owner) (c : Cell) : Prop where
  runId : c.row.runId = input.runId
  incarnation : c.row.ownerIncarnation = some w.incarnation
  nonce : c.row.ownerNonce = some input.nonce
  key : c.row.launchKey = some input.key

namespace Stored

theorem view_after (h : Stored w.digest db c) (value : RunRow) (same : value.runId = c.row.runId) :
    Journal.view w db (rerun db value) = .ok (c.view w.incarnation) := by
  rw [h.rerun_eq value same, h.view_ok]

/-! ### advance, stop, started -/

theorem advance_spec (h : Stored w.digest db c) {input : Owner} (mine : owned w db input = .ok c.row)
    (revision : Nat) (phase : DurablePhase) :
    ∃ kind c' db' ls, Journal.advance w db input revision phase = .ok (kind (c'.view w.incarnation), db') ∧
      Moves w.digest ls db c db' c' ∧
      ((kind = Reply.blocked ∧ ls = []) ∨ (kind = Reply.advanced ∧ ls = [.advance])) := by
  simp only [Journal.advance, mine, ok_bind]
  split
  next refused =>
    refine ⟨.blocked, c, db, [], ?_, Moves.refl h, .inl ⟨rfl, rfl⟩⟩
    simp only [h.view_ok, ok_bind]
  next allowed =>
    simp only [not_or, not_not, Bool.not_eq_true] at allowed
    obtain ⟨running, -, next⟩ := allowed
    have held := h.updateRun
      (fun row => { row with phase := phase, revision := row.revision + 1 }) rfl rfl
    have moves : Moves w.digest [.advance] db c _ (c.advanced phase) :=
      .of_step h.inv (.advance next running) held (Frame.updateRun _)
    refine ⟨.advanced, _, _, _, ?_, moves, .inr ⟨rfl, rfl⟩⟩
    have viewed := moves.stored.view_after c.row rfl
    simp only [viewed, ok_bind]

theorem started_spec (h : Stored w.digest db c) (fresh : FreshId db w.uuid) {input : Owner}
    (mine : owned w db input = .ok c.row) :
    ∃ kind c' db' ls, Journal.started w db input = .ok (kind (c'.view w.incarnation), db') ∧
      Moves w.digest ls db c db' c' ∧
      ((kind = Reply.blocked ∧ ls = []) ∨ (kind = Reply.recorded ∧ ls = [.launch])) := by
  simp only [Journal.started, mine, ok_bind]
  split
  next other =>
    refine ⟨.blocked, c, db, [], ?_, Moves.refl h, .inl ⟨rfl, rfl⟩⟩
    simp only [h.view_ok, ok_bind]
  next phase =>
    have held := h.updateRun
      (fun row => { row with phase := .started, revision := row.revision + 1 }) rfl rfl
    have rerun := held.rerun_eq c.row rfl
    obtain ⟨db', inserted, recorded, frame⟩ := held.insertReceipt fresh.receipt .accepted .startup
    let receipt := newReceipt w { c.row with revision := c.row.revision + 1 } .accepted .startup
    have step : Step w.digest .launch c (c.launched receipt) := .launch (not_not.mp phase) rfl
    have moves := Moves.of_step h.inv step recorded ((Frame.updateRun _).trans frame)
    have viewed := moves.stored.view_after c.row rfl
    refine ⟨.recorded, _, _, _, ?_, moves, .inr ⟨rfl, rfl⟩⟩
    simp only [rerun, inserted, viewed, ok_bind]

/-- A stop of a known run. -/
theorem stop_spec (h : Stored w.digest db c) (key : Option String) :
    ∃ kind c' db' ls, Journal.stop w db c.row.runId key = .ok (kind (c'.view w.incarnation), db') ∧
      Moves w.digest ls db c db' c' ∧ (ls = [] ∨ ls = [.stop]) ∧
      (kind = Reply.stopConflict ∨ kind = Reply.stoppedIntent ∧ c'.row.stopRequested = true) := by
  simp only [Journal.stop, h.runs]
  split
  next =>
    refine ⟨.stopConflict, c, db, [], ?_, Moves.refl h, .inl rfl, .inl rfl⟩
    simp only [h.view_ok, ok_bind]
  next =>
    by_cases stopped : c.row.stopRequested = true
    · refine ⟨.stoppedIntent, c, db, [], ?_, Moves.refl h, .inl rfl, .inr ⟨rfl, stopped⟩⟩
      have viewed := h.view_after c.row rfl
      simp only [if_pos stopped, viewed, ok_bind]
    · have held := h.updateRun
        (fun row => { row with stopRequested := true, revision := row.revision + 1 }) rfl rfl
      have moves : Moves w.digest [.stop] db c _ c.stopped :=
        .of_step h.inv (.stop (by simpa using stopped)) held (Frame.updateRun _)
      refine ⟨.stoppedIntent, _, _, _, ?_, moves, .inr rfl, .inr ⟨rfl, rfl⟩⟩
      have viewed := moves.stored.view_after c.row rfl
      simp only [if_neg stopped, viewed, ok_bind]

end Stored

/-- A first row under an unused run id. -/
theorem insertRun_held (row : RunRow) (absent : db.runs row.runId = none)
    (empty : db.outbox row.runId = []) (unbound : row.receiptId = none) :
    ∃ db', db.insertRun row = .ok db' ∧ Held db' ⟨row, none, []⟩ ∧ Frame row.runId db db' ∧
      db'.receipts = db.receipts := by
  refine ⟨{ db with runs := Function.update db.runs row.runId (some row) }, if_neg (by simp [absent]),
    ⟨Function.update_self .., empty, by simp [unbound]⟩, ?_, rfl⟩
  exact { Frame.refl _ db with runs := fun _ other => Function.update_of_ne other _ _ }

/-- A stop of an unknown run writes its permanent fence. -/
theorem stop_absent (fresh : FreshId db w.uuid) {runId : String} (absent : db.runs runId = none)
    (empty : db.outbox runId = []) (key : Option String) :
    ∃ db' receipt, Journal.stop w db runId key = .ok
        (.stoppedIntent ((Cell.fenced runId key receipt).view w.incarnation), db') ∧
      Stored w.digest db' (Cell.fenced runId key receipt) ∧ Frame runId db db' := by
  let row : RunRow :=
    { runId := runId, mode := .fenced, launchKey := key, canonicalPayload := none,
      ownerNonce := none, ownerIncarnation := none, phase := .closed, stopRequested := true }
  obtain ⟨db₁, inserted, held, frame, receipts⟩ := insertRun_held row absent empty rfl
  obtain ⟨db₂, recorded, held₂, frame₂⟩ := held.insertReceipt (receipts ▸ fresh.receipt)
    (if key.isNone then .runFencedUnbound else .notStartedFenced) .permanentFence
  let receipt := newReceipt w row (if key.isNone then .runFencedUnbound else .notStartedFenced)
    .permanentFence
  have kind : receipt.kind = .notStartedFenced ∨ receipt.kind = .runFencedUnbound := by
    simp only [receipt, newReceipt]
    split <;> simp
  have stored : Stored w.digest db₂ (Cell.fenced runId key receipt) :=
    ⟨held₂, Cell.fenced_inv w.digest runId key kind⟩
  have rerun := held.rerun_eq row rfl
  have viewed := stored.view_after row rfl
  refine ⟨db₂, receipt, ?_, stored, frame.trans frame₂⟩
  simp only [Journal.stop, absent]
  simp only [row] at inserted rerun recorded viewed
  simp only [inserted, rerun, recorded, viewed, ok_bind]

/-! ### producer_closed -/

theorem ProofSource.phase_cases (source : ProofSource) :
    source.phase = .launchIntent ∨ source.phase = .started := by
  cases source <;> simp [phase]

/-- The contents the journal passes for an outcome. -/
def FinalOutcome.contents (outcome : FinalOutcome) : List NodeRunEvent :=
  [.workspaceRetained outcome.retained, .lifecycle outcome.terminal]

/-- The row an append writes. -/
def appendedRow (w : Worker) (value : RunRow) (eventId : String) (content : NodeRunEvent) :
    EventRow :=
  { runId := value.runId, sequence := value.nextSequence, eventId := eventId, content := content,
    contentSha256 := w.digest content, role := .event }

namespace Stored

/-- Both settlement inserts are within capacity and collide with nothing. -/
theorem insert_settlement (h : Stored w.digest db c) (run : OpenRun c) (outcome : FinalOutcome) :
    ∃ db₁ db₂,
      db.insertOutbox (settlementRow w.digest c.row (.workspaceRetained outcome.retained) .retained) =
        .ok db₁ ∧
      db₁.insertOutbox (settlementRow w.digest c.row (.lifecycle outcome.terminal) .terminal) =
        .ok db₂ ∧
      Held db₂ { c with rows := c.rows ++ c.settlement w.digest outcome } ∧
      Frame c.row.runId db db₂ ∧ db₂.receipts = db.receipts := by
  have range := run.range
  have max := maxSequence_eq
  obtain ⟨db₁, first, held₁, frame₁, same₁⟩ := h.insertOutbox
    (settlementRow w.digest c.row (.workspaceRetained outcome.retained) .retained) rfl
    (by simp only [settlementRow, Suffix.index]; omega)
    (fun e member => by
      have := h.inv.sequence_lt member
      simp only [settlementRow, Suffix.index]
      omega)
    (fun e member => Cell.settlement_unused run member .retained)
  obtain ⟨db₂, second, held₂, frame₂, same₂⟩ := held₁.insertOutbox
    (settlementRow w.digest c.row (.lifecycle outcome.terminal) .terminal) rfl
    (by simp only [settlementRow, Suffix.index]; omega)
    (fun e member => by
      rcases List.mem_append.mp member with old | new
      · have := h.inv.sequence_lt old
        simp only [settlementRow, Suffix.index]
        omega
      · rw [List.mem_singleton.mp new]
        simp [settlementRow, Suffix.index])
    (fun e member => by
      rcases List.mem_append.mp member with old | new
      · exact Cell.settlement_unused run old .terminal
      · rw [List.mem_singleton.mp new]
        intro same
        cases settlementEventId_injective same)
  refine ⟨db₁, db₂, first, second, ?_, frame₁.trans frame₂, same₂.trans same₁⟩
  simpa [Cell.settlement] using held₂

/-- Settlement never fails for want of room. -/
theorem settle_ok (h : Stored w.digest db c) (fresh : FreshId db w.uuid) {owner : Owner}
    {input : ClosedInput} (mine : owned w db owner = .ok c.row)
    (clean : ¬ (c.row.liveAbort.isSome = true ∧ input.outcome.terminal.phase = .completed))
    (phase : c.row.phase = input.proofSource.phase)
    (contents : input.eventContents = input.outcome.contents) :
    ∃ receipt db', Journal.producerClosed w db owner input =
        .ok (.settled ((c.settled w.digest input.outcome receipt).view w.incarnation), db') ∧
      Moves w.digest [.settle] db c db' (c.settled w.digest input.outcome receipt) := by
  have stage := phase ▸ input.proofSource.phase_cases
  have opened : c.row.phase ≠ .closed := by rcases stage with h | h <;> simp [h]
  have run := h.inv.open_of_phase opened
  obtain ⟨db₁, db₂, first, second, held₂, frame₂, receipts⟩ :=
    h.insert_settlement run input.outcome
  have held₃ := held₂.updateRun (fun row => { row with
    phase := .closed, stopRequested := true, revision := row.revision + 1,
    nextSequence := row.nextSequence + 2, finalOutcome := some input.outcome }) rfl rfl
  have rerun := held₃.rerun_eq c.row rfl
  let detail := ReceiptDetail.settlement input.detail input.proofSource input.outcome
    [(settlementRow w.digest c.row (.workspaceRetained input.outcome.retained) .retained).identity,
     (settlementRow w.digest c.row (.lifecycle input.outcome.terminal) .terminal).identity]
  obtain ⟨db₄, recorded, held₄, frame₄⟩ :=
    held₃.insertReceipt (receipts ▸ fresh.receipt) .processExitConfirmed detail
  let receipt := newReceipt w { c.row with revision := c.row.revision + 1 } .processExitConfirmed
    detail
  have step : Step w.digest .settle c (c.settled w.digest input.outcome receipt) :=
    .settle stage rfl (fun latched completed => clean ⟨latched, completed⟩)
      fun e member => fresh.correction (h.outbox ▸ member)
  have moves := Moves.of_step h.inv step held₄ ((frame₂.trans (Frame.updateRun _)).trans frame₄)
  have viewed := moves.stored.view_after c.row rfl
  have pending : ¬ (maxBacklog - 4 < db.activeCount c.row.runId ∨
      maxSequence - 3 < c.row.nextSequence) := by
    have backlog := run.backlog
    have range := run.range
    rw [Database.activeCount, h.outbox]
    omega
  refine ⟨receipt, db₄, ?_, moves⟩
  simp only [Journal.producerClosed, mine, ok_bind, if_neg clean, if_neg opened, if_neg (not_not_intro phase),
    contents, FinalOutcome.contents, if_neg pending, first, second, rerun]
  simp only [detail] at recorded
  simp only [recorded, viewed, ok_bind]

/-- A refused settlement is the caller's error, and a repeated one changes nothing. -/
theorem producerClosed_spec (h : Stored w.digest db c) (fresh : FreshId db w.uuid) {owner : Owner}
    {input : ClosedInput} (mine : owned w db owner = .ok c.row)
    (contents : input.eventContents = input.outcome.contents) :
    Ensures (External false) (fun result => ∃ c' ls, result.1 = .settled (c'.view w.incarnation) ∧
        Moves w.digest ls db c result.2 c' ∧ (ls = [] ∨ ls = [.settle]) ∧
        c'.row.finalOutcome = some input.outcome)
      (Journal.producerClosed w db owner input) := by
  by_cases clean : c.row.liveAbort.isSome = true ∧ input.outcome.terminal.phase = .completed
  · simp only [Journal.producerClosed, mine, ok_bind, if_pos clean]
    exact ⟨rfl, nofun⟩
  by_cases closed : c.row.phase = .closed
  · simp only [Journal.producerClosed, mine, ok_bind, if_neg clean, if_pos closed]
    split
    · exact ⟨rfl, nofun⟩
    next same =>
      simp only [h.view_ok, ok_bind]
      exact ⟨c, [], rfl, Moves.refl h, .inl rfl, not_not.mp same⟩
  by_cases phase : c.row.phase = input.proofSource.phase
  · obtain ⟨receipt, db', result, moves⟩ := h.settle_ok fresh mine clean phase contents
    rw [result]
    exact ⟨_, _, rfl, moves, .inr rfl, rfl⟩
  · simp only [Journal.producerClosed, mine, ok_bind, if_neg clean, if_neg closed]
    rw [if_pos phase]
    exact ⟨rfl, nofun⟩

/-! ### append -/

/-- A known event id is answered from the stored row. -/
theorem append_prior (h : Stored w.digest db c) {owner : Owner} (mine : owned w db owner = .ok c.row)
    {prior : EventRow} (member : prior ∈ c.rows) (content : NodeRunEvent) :
    Journal.append w db owner prior.eventId content =
      .ok (.append (if prior.content = content then .stored prior.stored c.row.revision
        else .conflict prior.stored c.row.revision), db) := by
  simp only [Journal.append, mine, ok_bind, h.findEvent_eq h.inv.toLogInv member, h.event_ok member]

theorem findEvent_none (h : Stored w.digest db c) {eventId : String}
    (unused : ∀ e ∈ c.rows, e.eventId ≠ eventId) : db.findEvent c.row.runId eventId = none := by
  rw [Database.findEvent, h.outbox]
  exact List.find?_eq_none.mpr fun e member => by simpa using unused e member

/-- A closed, aborted or full run stores nothing. -/
theorem append_refused (h : Stored w.digest db c) {owner : Owner}
    (mine : owned w db owner = .ok c.row) {eventId : String}
    (unused : ∀ e ∈ c.rows, e.eventId ≠ eventId) (content : NodeRunEvent)
    (refused : c.row.phase = .closed ∨ c.row.liveAbort.isSome = true ∨
      maxBacklog - 4 ≤ c.rows.countP EventRow.active ∨ maxSequence - 4 < c.row.nextSequence) :
    Journal.append w db owner eventId content =
      .ok (.append (if c.row.phase = .closed ∨ c.row.liveAbort.isSome = true then .closedOrAborted
        else .full), db) := by
  simp only [Journal.append, mine, ok_bind, h.findEvent_none unused, Database.activeCount, h.outbox]
  by_cases shut : c.row.phase = .closed ∨ c.row.liveAbort.isSome = true
  · rw [if_pos shut, if_pos shut]
  · rw [if_neg shut, if_neg shut, if_pos]
    rcases refused with closed | aborted | full
    · exact absurd (.inl closed) shut
    · exact absurd (.inr aborted) shut
    · exact full

/-- A new event takes exactly the next sequence. -/
theorem append_new (h : Stored w.digest db c) {owner : Owner} (mine : owned w db owner = .ok c.row)
    {eventId : String} (unused : ∀ e ∈ c.rows, e.eventId ≠ eventId) {content : NodeRunEvent}
    (reserved : startsWith reservedPrefix eventId = false) (body : settlementBody content = false)
    (phase : c.row.phase ≠ .closed) (abort : c.row.liveAbort = none)
    (backlog : c.rows.countP EventRow.active < maxBacklog - 4)
    (range : c.row.nextSequence ≤ maxSequence - 4) :
    ∃ db', Journal.append w db owner eventId content =
        .ok (.append (.stored (appendedRow w c.row eventId content).stored (c.row.revision + 1)), db') ∧
      Moves w.digest [.append] db c db' (c.appended w.digest eventId content) := by
  have max := maxSequence_eq
  obtain ⟨db₁, inserted, held₁, frame₁, -⟩ := h.insertOutbox (appendedRow w c.row eventId content) rfl
    (by simp only [appendedRow]; omega)
    (fun e member => (h.inv.sequence_lt member).ne) unused
  have held₂ := held₁.updateRun
    (fun row => { row with nextSequence := row.nextSequence + 1, revision := row.revision + 1 }) rfl rfl
  have step : Step w.digest .append c (c.appended w.digest eventId content) :=
    .append phase abort backlog range unused reserved body
  have moves := Moves.of_step h.inv step held₂ (frame₁.trans (Frame.updateRun _))
  refine ⟨_, ?_, moves⟩
  have shut : ¬ (c.row.phase = .closed ∨ c.row.liveAbort.isSome = true) := by simp [phase, abort]
  have full : ¬ (maxBacklog - 4 ≤ c.rows.countP EventRow.active ∨
      maxSequence - 4 < c.row.nextSequence) := by omega
  have stored : event w (appendedRow w c.row eventId content) =
      .ok (appendedRow w c.row eventId content).stored := by
    simp [event, appendedRow, EventRow.stored]
  simp only [appendedRow] at inserted stored
  simp only [Journal.append, mine, ok_bind, h.findEvent_none unused, Database.activeCount, h.outbox,
    if_neg shut, if_neg full, inserted, stored]
  rfl

theorem append_spec (h : Stored w.digest db c) {owner : Owner} (mine : owned w db owner = .ok c.row)
    {eventId : String} {content : NodeRunEvent}
    (reserved : startsWith reservedPrefix eventId = false) (body : settlementBody content = false) :
    ∃ reply c' db' ls, Journal.append w db owner eventId content = .ok (.append reply, db') ∧
      Moves w.digest ls db c db' c' ∧ (ls = [] ∨ ls = [.append]) := by
  by_cases known : ∃ e ∈ c.rows, e.eventId = eventId
  · obtain ⟨e, member, rfl⟩ := known
    exact ⟨_, c, db, [], h.append_prior mine member content, Moves.refl h, .inl rfl⟩
  · have unused : ∀ e ∈ c.rows, e.eventId ≠ eventId := by simpa using known
    by_cases refused : c.row.phase = .closed ∨ c.row.liveAbort.isSome = true ∨
        maxBacklog - 4 ≤ c.rows.countP EventRow.active ∨ maxSequence - 4 < c.row.nextSequence
    · exact ⟨_, c, db, [], h.append_refused mine unused content refused, Moves.refl h, .inl rfl⟩
    · simp only [not_or, Bool.not_eq_true, Option.isSome_eq_false_iff, Option.isNone_iff_eq_none,
        not_le, not_lt] at refused
      obtain ⟨phase, abort, backlog, range⟩ := refused
      obtain ⟨db', result, moves⟩ := h.append_new mine unused reserved body phase abort backlog range
      exact ⟨_, _, db', _, result, moves, .inr rfl⟩

end Stored

/-! ### Admission -/

/-- A known run is never admitted afresh. -/
theorem existingKind_ne_fresh (w : Worker) (existing : RunRow) (input : AdmitInput) :
    existingKind w existing input ≠ .fresh := by
  rw [existingKind]
  split_ifs <;> simp

theorem Stored.admit_existing (h : Stored w.digest db c) {input : AdmitInput}
    (runId : input.runId = c.row.runId) :
    Journal.admitRun w db input =
      .ok (.admission (existingKind w c.row input) (c.view w.incarnation), db) := by
  simp only [Journal.admitRun, runId, h.runs, h.view_ok, ok_bind]

/-- An unknown run is admitted afresh. -/
theorem admit_absent (w : Worker) {input : AdmitInput} (absent : db.runs input.runId = none)
    (empty : db.outbox input.runId = []) (named : input.key ≠ "") :
    ∃ db', Journal.admitRun w db input =
        .ok (.admission .fresh ((Cell.admitted input w.incarnation).view w.incarnation), db') ∧
      Stored w.digest db' (Cell.admitted input w.incarnation) ∧ Frame input.runId db db' := by
  let row := (Cell.admitted input w.incarnation).row
  obtain ⟨db', inserted, held, frame, -⟩ := insertRun_held row absent empty rfl
  have stored : Stored w.digest db' (Cell.admitted input w.incarnation) :=
    ⟨held, Cell.admitted_inv w.digest w.incarnation named⟩
  have viewed := stored.view_after row rfl
  refine ⟨db', ?_, stored, frame⟩
  simp only [row, Cell.admitted] at inserted viewed
  simp only [Journal.admitRun, absent, inserted, viewed, ok_bind, Cell.admitted]

end Artoo.Journal
