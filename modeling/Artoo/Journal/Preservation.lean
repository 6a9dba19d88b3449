import Artoo.Journal.Invariant

/-! Steps that write new rows, and the preservation of the invariant by every step. -/
namespace Artoo.Journal
open Artoo.Protocol Artoo.Lib

/-- A row as an insert leaves it. -/
structure Newborn (digest : NodeRunEvent → String) (runId : String) (e : EventRow) : Prop where
  runId : e.runId = runId
  digest : e.contentSha256 = digest e.content
  committed : e.committed = false
  superseded : e.superseded = false
  attempts : e.attempts = []
  deadline : e.deadlineTickMs = none
  clock : e.clockId = none
  exhausted : e.exhausted = false

theorem Newborn.rowInv {digest : NodeRunEvent → String} {runId : String} {e : EventRow}
    (new : Newborn digest runId e) : RowInv digest e := by
  constructor <;> simp [new.digest, new.attempts, new.committed, new.deadline, new.clock,
    new.exhausted, spent, maxAttempts]

namespace LogInv

variable {digest : NodeRunEvent → String} {row row' : RunRow} {rows : List EventRow}

/-- Rows appended at the next sequences. -/
theorem extended (inv : LogInv digest row rows) {new : List EventRow}
    (newborn : ∀ e ∈ new, Newborn digest row.runId e)
    (sequences : new.map (·.sequence) = List.range' row.nextSequence new.length)
    (ids : (new.map (·.eventId)).Nodup)
    (unused : ∀ e ∈ rows, ∀ f ∈ new, e.eventId ≠ f.eventId)
    (runId : row'.runId = row.runId)
    (next : row'.nextSequence = row.nextSequence + new.length)
    (committed : row'.committedCount = row.committedCount)
    (superseded : row'.supersededCount = row.supersededCount) :
    LogInv digest row' (rows ++ new) where
  sequences := by
    rw [List.map_append, inv.sequences, sequences, next, List.range_eq_range', List.range_eq_range',
      ← List.range'_append_1, Nat.zero_add]
  eventIds := by
    rw [List.map_append]
    refine List.nodup_append.mpr ⟨inv.eventIds, ids, ?_⟩
    rintro x old y fresh rfl
    obtain ⟨e, he, same⟩ := List.mem_map.mp old
    obtain ⟨f, hf, hit⟩ := List.mem_map.mp fresh
    exact unused e he f hf (same.trans hit.symm)
  runIds e member := by
    rcases List.mem_append.mp member with old | fresh
    · exact (inv.runIds e old).trans runId.symm
    · exact (newborn e fresh).runId.trans runId.symm
  each e member := by
    rcases List.mem_append.mp member with old | fresh
    · exact inv.each e old
    · exact (newborn e fresh).rowInv
  committedCount := by
    have none : new.countP (·.committed) = 0 :=
      List.countP_eq_zero.mpr fun e member => by simp [(newborn e member).committed]
    rw [List.countP_append, none, committed, inv.committedCount, Nat.add_zero]
  supersededCount := by
    have none : new.countP (·.superseded) = 0 :=
      List.countP_eq_zero.mpr fun e member => by simp [(newborn e member).superseded]
    rw [List.countP_append, none, superseded, inv.supersededCount, Nat.add_zero]
  claimOrder p member active tried e earlier current before := by
    have later : ∀ f ∈ new, row.nextSequence ≤ f.sequence := by
      intro f hf
      have listed : f.sequence ∈ new.map (·.sequence) := List.mem_map_of_mem hf
      rw [sequences] at listed
      exact (List.mem_range'_1.mp listed).1
    rcases List.mem_append.mp member with old | fresh
    · rcases List.mem_append.mp earlier with first | second
      · exact inv.claimOrder p old active tried e first current before
      · have low := inv.sequence_lt old
        have high := later e second
        omega
    · exact absurd (newborn p fresh).attempts tried

theorem countP_retire (p : EventRow → Bool) (rows : List EventRow) :
    (rows.map fun e => e.retire (p e)).countP (·.superseded) =
      rows.countP (·.superseded) + rows.countP fun e => p e && !e.superseded := by
  induction rows with
  | nil => rfl
  | cons e rest ih =>
    rw [List.map_cons, List.countP_cons, ih, List.countP_cons, List.countP_cons]
    simp only [EventRow.retire]
    by_cases gone : e.superseded = true <;> by_cases hit : p e = true <;> simp [gone, hit] <;> omega

/-- Rows taken out of delivery, with the counter. -/
theorem superseded (inv : LogInv digest row rows) (p : EventRow → Bool)
    (runId : row'.runId = row.runId) (next : row'.nextSequence = row.nextSequence)
    (committed : row'.committedCount = row.committedCount)
    (count : row'.supersededCount = row.supersededCount +
      rows.countP fun e => p e && !e.superseded) :
    LogInv digest row' (rows.map fun e => e.retire (p e)) where
  sequences := by
    rw [List.map_map, next, ← inv.sequences]
    rfl
  eventIds := by
    rw [List.map_map]
    exact inv.eventIds
  runIds e member := by
    obtain ⟨x, hx, rfl⟩ := List.mem_map.mp member
    exact (inv.runIds x hx).trans runId.symm
  each e member := by
    obtain ⟨x, hx, rfl⟩ := List.mem_map.mp member
    exact { inv.each x hx with }
  committedCount := by
    rw [List.countP_map, committed, inv.committedCount]
    rfl
  supersededCount := by
    rw [countP_retire, count, inv.supersededCount]
  claimOrder q member active tried e earlier current before := by
    obtain ⟨x, hx, rfl⟩ := List.mem_map.mp member
    obtain ⟨y, hy, rfl⟩ := List.mem_map.mp earlier
    exact inv.claimOrder x hx (EventRow.retire_active.mp active).1 tried y hy
      (EventRow.retire_active.mp current).1 before

end LogInv

theorem maxSequence_eq : maxSequence = 2147483647 := rfl

theorem maxBacklog_eq : maxBacklog = 10000 := rfl

namespace Cell

variable {digest : NodeRunEvent → String} {c : Cell}

theorem appended_inv (inv : c.Inv digest) {eventId : String} {content : NodeRunEvent}
    (phase : c.row.phase ≠ .closed) (backlog : c.rows.countP EventRow.active < maxBacklog - 4)
    (range : c.row.nextSequence ≤ maxSequence - 4) (unused : ∀ e ∈ c.rows, e.eventId ≠ eventId)
    (reserved : startsWith reservedPrefix eventId = false)
    (body : settlementBody content = false) : (c.appended digest eventId content).Inv digest where
  toLogInv := by
    apply inv.toLogInv.extended
    · intro e member
      rw [List.mem_singleton.mp member]
      constructor <;> rfl
    · rfl
    · exact List.nodup_singleton _
    · intro e old f fresh
      rw [List.mem_singleton.mp fresh]
      exact unused e old
    all_goals rfl
  stage := by
    have run := inv.open_of_phase phase
    refine .open_ { run with events := ?_, backlog := ?_, range := ?_, abort := ?_, serial := ?_ }
    · intro e member
      rcases List.mem_append.mp member with old | fresh
      · exact run.events e old
      · rw [List.mem_singleton.mp fresh]
        exact ⟨⟨rfl, reserved, body⟩, rfl⟩
    · simp only [appended, List.countP_append, List.countP_singleton]
      have := maxBacklog_eq
      split <;> omega
    · simp only [appended]
      have := maxSequence_eq
      omega
    · intro e member active spent
      rcases List.mem_append.mp member with old | fresh
      · exact run.abort e old active spent
      · rw [List.mem_singleton.mp fresh] at spent
        cases spent
    · intro p member tried e earlier before
      rcases List.mem_append.mp member with old | fresh
      · rcases List.mem_append.mp earlier with first | second
        · exact run.serial p old tried e first before
        · have low := inv.sequence_lt old
          rw [List.mem_singleton.mp second] at before
          exact absurd before (by simpa using low.le)
      · rw [List.mem_singleton.mp fresh] at tried
        exact absurd rfl tried

theorem settlement_core {key : String} (launchKey : c.row.launchKey = some key)
    (outcome : FinalOutcome) :
    (c.settlement digest outcome).map EventRow.core =
      Suffix.all.map (settlementCore digest c.row.runId key c.row.nextSequence outcome) := by
  simp [settlement, settlementRow, Suffix.all, settlementCore, EventRow.core, originalEventId,
    launchKey]

theorem settlement_newborn (outcome : FinalOutcome) :
    ∀ e ∈ c.settlement digest outcome, Newborn digest c.row.runId e := by
  simp only [settlement, List.mem_cons, List.not_mem_nil, or_false]
  rintro e (rfl | rfl) <;> constructor <;> rfl

theorem settlement_ids (outcome : FinalOutcome) {e : EventRow}
    (member : e ∈ c.settlement digest outcome) : ∃ suffix, e.eventId = originalEventId c.row suffix := by
  simp only [settlement, List.mem_cons, List.not_mem_nil, or_false] at member
  rcases member with rfl | rfl
  · exact ⟨.retained, rfl⟩
  · exact ⟨.terminal, rfl⟩

/-- A settlement id is no ordinary id. -/
theorem settlement_unused (run : OpenRun c) {e : EventRow} (member : e ∈ c.rows) (suffix : Suffix) :
    e.eventId ≠ originalEventId c.row suffix := by
  intro same
  have ordinary := (run.events e member).1.id
  rw [show e.core.eventId = originalEventId c.row suffix from same, originalEventId,
    reservedPrefix, settlementEventId_reserved] at ordinary
  cases ordinary

theorem settled_log (inv : c.Inv digest) (run : OpenRun c) (outcome : FinalOutcome)
    (receipt : ReceiptRow) :
    LogInv digest (c.settled digest outcome receipt).row (c.settled digest outcome receipt).rows := by
  apply inv.toLogInv.extended (settlement_newborn outcome)
  · simp [settlement, settlementRow, Suffix.index, List.range']
  · simp only [settlement, List.map_cons, List.map_nil, List.nodup_cons, List.mem_singleton,
      List.not_mem_nil, not_false_eq_true, List.nodup_nil, and_true]
    intro same
    cases settlementEventId_injective same
  · intro e old f fresh
    obtain ⟨suffix, id⟩ := settlement_ids outcome fresh
    exact id ▸ settlement_unused run old suffix
  all_goals rfl

theorem settled_inv (inv : c.Inv digest) {outcome : FinalOutcome} {receipt : ReceiptRow}
    (phase : c.row.phase = .launchIntent ∨ c.row.phase = .started)
    (kind : receipt.kind = .processExitConfirmed)
    (abort : c.row.liveAbort.isSome = true → outcome.terminal.phase ≠ .completed)
    (fresh : ∀ e ∈ c.rows, ∀ suffix, e.eventId ≠ correctionEventId receipt.id suffix) :
    (c.settled digest outcome receipt).Inv digest where
  toLogInv := settled_log inv (inv.open_of_phase (by rcases phase with h | h <;> simp [h])) outcome
    receipt
  stage := by
    have run := inv.open_of_phase (by rcases phase with h | h <;> simp [h])
    obtain ⟨key, launchKey, named⟩ := run.key
    have closed : ClosedRun (c.settled digest outcome receipt) key outcome receipt :=
      ⟨rfl, rfl, launchKey, named, rfl, rfl, rfl, kind, abort⟩
    have untouched : ∀ e ∈ c.settlement digest outcome, e.superseded = false ∧ e.exhausted = false ∧
        e.attempts = [] ∧ c.row.nextSequence ≤ e.sequence := by
      simp only [settlement, List.mem_cons, List.not_mem_nil, or_false]
      rintro e (rfl | rfl) <;> exact ⟨rfl, rfl, rfl, by simp [settlementRow]⟩
    refine @Stage.settled _ _ key outcome receipt (c.rows.map EventRow.core) { closed with
      ordinary := ?_, cores := ?_, revision := run.revision, correction := run.correction
      kept := ?_, fresh := ?_, backlog := ?_, range := ?_, success := ?_ }
    · intro e member
      obtain ⟨x, hx, rfl⟩ := List.mem_map.mp member
      exact (run.events x hx).1
    · simp only [settled, List.map_append, settlement_core launchKey, List.length_map,
        inv.length_rows]
    · intro e member
      rcases List.mem_append.mp member with old | new
      · exact (run.events e old).2
      · exact (untouched e new).1
    · intro e member suffix
      rcases List.mem_append.mp member with old | new
      · exact fresh e old suffix
      · obtain ⟨s, id⟩ := settlement_ids outcome new
        exact id ▸ settlement_ne_correction s suffix
    · have before := run.backlog
      have := maxBacklog_eq
      have added : (c.settlement digest outcome).countP EventRow.active ≤ 2 :=
        List.countP_le_length
      simp only [settled, List.countP_append]
      omega
    · have before := run.range
      have := maxSequence_eq
      simp only [settled]
      omega
    · intro completed
      have clean : c.row.liveAbort.isSome ≠ true := fun latched => abort latched completed
      constructor
      · intro p member tried e earlier before
        rcases List.mem_append.mp member with old | new
        · rcases List.mem_append.mp earlier with first | second
          · exact run.serial p old tried e first before
          · have low := inv.sequence_lt old
            have high := (untouched e second).2.2.2
            omega
        · exact absurd (untouched p new).2.2.1 tried
      · intro e member active
        rcases List.mem_append.mp member with old | new
        · exact Bool.eq_false_iff.mpr fun spent => clean (run.abort e old active spent)
        · exact (untouched e new).2.1

/-- A row is appended by the producer or is one of the two settlement rows. -/
theorem core_cases {key : String} {outcome : FinalOutcome} {closure : ReceiptRow}
    {history : List EventCore} (run : UncorrectedRun digest c key outcome closure history)
    {e : EventRow} (member : e ∈ c.rows) :
    Ordinary e.core ∨ ∃ suffix,
      e.core = settlementCore digest c.row.runId key history.length outcome suffix := by
  have listed : e.core ∈ c.rows.map EventRow.core := List.mem_map_of_mem member
  rw [run.cores] at listed
  rcases List.mem_append.mp listed with old | settled
  · exact .inl (run.ordinary _ old)
  · obtain ⟨suffix, -, same⟩ := List.mem_map.mp settled
    exact .inr ⟨suffix, same.symm⟩

theorem original_obsolete {key : String} {outcome : FinalOutcome} {closure : ReceiptRow}
    {history : List EventCore} (run : UncorrectedRun digest c key outcome closure history)
    {e : EventRow} (member : e ∈ c.rows)
    (original : e.role = .originalRetention ∨ e.role = .originalTerminal) : c.obsolete e = true := by
  rcases core_cases run member with ordinary | ⟨suffix, same⟩
  · have role : e.role = .event := ordinary.role
    simp [role] at original
  · have id : e.eventId = originalEventId c.row suffix := by
      rw [originalEventId, run.launchKey]
      exact congrArg EventCore.eventId same
    cases suffix <;> simp [obsolete, id]

theorem correction_newborn (outcome : FinalOutcome) :
    ∀ e ∈ c.correctionRows digest outcome, Newborn digest c.row.runId e := by
  simp only [correctionRows, List.mem_cons, List.not_mem_nil, or_false]
  rintro e (rfl | rfl) <;> constructor <;> rfl

theorem mem_correctionRows {outcome : FinalOutcome} {e : EventRow}
    (member : e ∈ c.correctionRows digest outcome) :
    ∃ suffix, e = correctionRow digest c.row outcome suffix := by
  simp only [correctionRows, List.mem_cons, List.not_mem_nil, or_false] at member
  rcases member with rfl | rfl
  · exact ⟨.retained, rfl⟩
  · exact ⟨.terminal, rfl⟩

theorem corrected_log {key : String} {outcome : FinalOutcome} {closure : ReceiptRow}
    {history : List EventCore} (inv : LogInv digest c.row c.rows)
    (run : UncorrectedRun digest c key outcome closure history) (trigger : CorrectionTrigger) :
    LogInv digest (c.corrected digest outcome trigger).row
      (c.corrected digest outcome trigger).rows := by
  let row := { c.row with
    supersededCount := c.row.supersededCount +
      c.rows.countP (fun e => c.obsolete e && !e.superseded) }
  have retired : LogInv digest row (c.rows.map fun e => e.retire (c.obsolete e)) :=
    inv.superseded c.obsolete rfl rfl rfl rfl
  apply retired.extended (correction_newborn outcome)
  · simp [correctionRows, correctionRow, Suffix.index, List.range', row]
  · simp only [correctionRows, List.map_cons, List.map_nil, List.nodup_cons, List.mem_singleton,
      List.not_mem_nil, not_false_eq_true, List.nodup_nil, and_true]
    intro same
    cases correctionEventId_injective same
  · intro e old f new
    obtain ⟨x, hx, rfl⟩ := List.mem_map.mp old
    obtain ⟨suffix, rfl⟩ := mem_correctionRows new
    simp only [EventRow.retire, correctionRow, run.receiptId, Option.getD_some]
    exact run.fresh x hx suffix
  all_goals rfl

/-- The rows a correction leaves outstanding are its own. -/
theorem corrected_active {outcome : FinalOutcome} {trigger : CorrectionTrigger} {e : EventRow}
    (member : e ∈ (c.corrected digest outcome trigger).rows) (active : e.active = true) :
    e ∈ c.correctionRows digest outcome := by
  rcases List.mem_append.mp member with old | new
  · obtain ⟨x, -, rfl⟩ := List.mem_map.mp old
    obtain ⟨before, kept⟩ := EventRow.retire_active.mp active
    simp [obsolete, before] at kept
  · exact new

theorem corrected_inv {key : String} {outcome : FinalOutcome} {closure : ReceiptRow}
    {history : List EventCore} (inv : LogInv digest c.row c.rows)
    (run : UncorrectedRun digest c key outcome closure history)
    (completed : outcome.terminal.phase = .completed) (trigger : CorrectionTrigger) :
    (c.corrected digest outcome trigger).Inv digest where
  toLogInv := corrected_log inv run trigger
  stage := by
    have closed : ClosedRun (c.corrected digest outcome trigger) key outcome closure :=
      { run.toClosedRun with }
    have length : c.row.nextSequence = history.length + 2 := by
      have cores := congrArg List.length run.cores
      simp only [List.length_map, List.length_append, Suffix.all, List.length_cons,
        List.length_nil, inv.length_rows] at cores
      omega
    refine @Stage.corrected _ _ key outcome closure history { closed with
      ordinary := run.ordinary, cores := ?_, revision := rfl, correction := ⟨trigger, ?_⟩
      completed := completed, retired := ?_, superseded := ?_, current := ?_, backlog := ?_, range := ?_ }
    · have kept : (c.rows.map fun e => e.retire (c.obsolete e)).map EventRow.core =
          c.rows.map EventRow.core := by
        rw [List.map_map]
        rfl
      simp only [corrected, List.map_append, kept, run.cores]
      simp [correctionRows, correctionRow, EventRow.core, Suffix.all, correctionCore,
        run.receiptId, length, Suffix.index]
    · simp [corrected, correctionRecord, correctionRow, EventRow.identity, run.receiptId, length,
        Suffix.index]
    · intro e member active
      obtain ⟨suffix, rfl⟩ := mem_correctionRows (corrected_active member active)
      cases suffix
      · exact .inl rfl
      · exact .inr rfl
    · intro e member original
      rcases List.mem_append.mp member with old | new
      · obtain ⟨x, hx, rfl⟩ := List.mem_map.mp old
        simp [EventRow.retire, original_obsolete run hx original]
      · obtain ⟨suffix, rfl⟩ := mem_correctionRows new
        cases suffix <;> simp [correctionRow, correctionRole] at original
    · intro e member correction
      rcases List.mem_append.mp member with old | new
      · obtain ⟨x, hx, rfl⟩ := List.mem_map.mp old
        rcases core_cases run hx with ordinary | ⟨suffix, same⟩
        · have role : x.role = .event := ordinary.role
          simp [EventRow.retire, role] at correction
        · have role : x.role = originalRole suffix := congrArg EventCore.role same
          cases suffix <;> simp [EventRow.retire, role, originalRole] at correction
      · obtain ⟨suffix, rfl⟩ := mem_correctionRows new
        rfl
    · have retired : (c.rows.map fun e => e.retire (c.obsolete e)).countP EventRow.active = 0 := by
        refine List.countP_eq_zero.mpr fun e member active => ?_
        obtain ⟨x, -, rfl⟩ := List.mem_map.mp member
        obtain ⟨before, kept⟩ := EventRow.retire_active.mp active
        simp [obsolete, before] at kept
      have added : (c.correctionRows digest outcome).countP EventRow.active ≤ 2 :=
        List.countP_le_length
      have := maxBacklog_eq
      simp only [corrected, List.countP_append, retired]
      omega
    · have before := run.range
      have := maxSequence_eq
      simp only [corrected]
      omega

/-- The stage from which a correction is possible. -/
theorem Inv.settled_of_path (inv : c.Inv digest) {outcome : FinalOutcome}
    (outcomeIs : c.row.finalOutcome = some outcome) (path : completedPath c.row = true) :
    outcome.terminal.phase = .completed ∧
      ∃ key closure history, SettledRun digest c key outcome closure history := by
  simp only [completedPath, outcomeIs, Option.any_some, Bool.and_eq_true, beq_iff_eq] at path
  refine ⟨path.2, ?_⟩
  cases inv.stage with
  | open_ run => simp [run.outcome] at outcomeIs
  | fenced run => simp [run.outcome] at outcomeIs
  | @settled key other closure history run =>
    obtain rfl := Option.some.inj (run.finalOutcome.symm.trans outcomeIs)
    exact ⟨key, closure, history, run⟩
  | corrected run => simp [run.revision] at path

theorem failed_corrected_inv (inv : c.Inv digest) {target : EventRow} {attemptId : String}
    {reason : DeliveryFailureReason} {outcome : FinalOutcome}
    (failing : Failing c target attemptId reason true)
    (outcomeIs : c.row.finalOutcome = some outcome) (path : completedPath c.row = true)
    (trigger : CorrectionTrigger) :
    ((c.failed target attemptId reason true).corrected digest outcome trigger).Inv digest := by
  obtain ⟨completed, key, closure, history, run⟩ := inv.settled_of_path outcomeIs path
  have uncorrected := (failed_retouch failing).uncorrected inv.toLogInv run.toUncorrectedRun
  exact corrected_inv (failed_log failing inv.toLogInv) uncorrected completed trigger

end Cell

/-- Every step keeps the invariant of its run. -/
theorem Step.inv {digest : NodeRunEvent → String} {l : Label} {c c' : Cell} (inv : c.Inv digest)
    (step : Step digest l c c') : c'.Inv digest := by
  cases step with
  | stop fresh => exact c.stopped_inv inv fresh
  | advance next running => exact c.advanced_inv inv next
  | launch phase kind => exact c.launched_inv inv phase kind
  | settle phase kind abort fresh => exact c.settled_inv inv phase kind abort fresh
  | append phase abort backlog range unused reserved body =>
    exact c.appended_inv inv phase backlog range unused reserved body
  | clockLost => exact c.reported_inv inv true c.row.deliveryState
  | abort phase first => exact c.aborted_inv inv phase
  | report state => exact c.reported_inv inv c.row.deliveryClockUnknown state
  | claim gate time named fresh pending => exact c.claimed_inv inv gate time named fresh pending
  | fail failing kept => exact c.failed_inv inv failing kept
  | correct failing active phase outcomeIs path =>
    exact c.failed_corrected_inv inv failing outcomeIs path _
  | accept member claimed => exact c.accepted_inv inv member claimed

end Artoo.Journal
