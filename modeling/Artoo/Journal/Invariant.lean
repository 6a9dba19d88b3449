import Artoo.Journal.Cell

/-! The invariant of one run, and its preservation by every step. -/
namespace Artoo.Journal
open Artoo.Protocol Artoo.Lib

/-- What a stored row satisfies on its own. -/
structure RowInv (digest : NodeRunEvent → String) (e : EventRow) : Prop where
  digest : e.contentSha256 = digest e.content
  budget : e.attempts.length ≤ maxAttempts
  ids : (e.attempts.map (·.id)).Nodup
  named : ∀ a ∈ e.attempts, a.id ≠ ""
  ticks : ∀ a ∈ e.attempts, a.claimedTickMs ≤ maxSafeInteger
  timed : e.attempts ≠ [] → e.deadlineTickMs.isSome = true ∧ e.clockId.isSome = true
  untried : e.attempts = [] → e.deadlineTickMs = none ∧ e.clockId = none ∧ e.exhausted = false
  committed : e.committed = true ↔ ∃ a ∈ e.attempts, a.accepted = true
  order : ∀ a ∈ e.attempts.dropLast, a.resolved = true
  spent : spent e.attempts = true → e.committed = true ∨ e.exhausted = true

/-- The columns no statement updates. -/
structure EventCore where
  runId : String
  sequence : Nat
  eventId : String
  content : NodeRunEvent
  contentSha256 : String
  role : EventRole

def EventRow.core (e : EventRow) : EventCore :=
  ⟨e.runId, e.sequence, e.eventId, e.content, e.contentSha256, e.role⟩

/-- An appended event, as opposed to a settlement or correction row. -/
structure Ordinary (e : EventCore) : Prop where
  role : e.role = .event
  id : startsWith reservedPrefix e.eventId = false
  body : settlementBody e.content = false

/-- A row was tried only after every earlier row was committed. -/
def Serial (c : Cell) : Prop :=
  ∀ p ∈ c.rows, p.attempts ≠ [] → ∀ e ∈ c.rows, e.sequence < p.sequence → e.committed = true

/-- Before physical closure. -/
structure OpenRun (c : Cell) : Prop where
  phase : c.row.phase ≠ .closed
  key : ∃ key, c.row.launchKey = some key ∧ key ≠ ""
  outcome : c.row.finalOutcome = none
  revision : c.row.deliveryRevision = .zero
  correction : c.row.deliveryCorrection = none
  started : c.row.phase = .started → ∃ receipt, c.receipt = some receipt ∧
    c.row.receiptId = some receipt.id ∧ receipt.kind = .accepted
  unstarted : c.row.phase ≠ .started → c.receipt = none ∧ c.row.receiptId = none
  events : ∀ e ∈ c.rows, Ordinary e.core ∧ e.superseded = false
  backlog : c.rows.countP EventRow.active ≤ maxBacklog - 4
  range : c.row.nextSequence ≤ maxSequence - 3
  abort : ∀ e ∈ c.rows, e.active = true → e.exhausted = true → c.row.liveAbort.isSome = true
  serial : Serial c

/-- A run that a stop fenced before any admission. -/
structure FencedRun (c : Cell) : Prop where
  phase : c.row.phase = .closed
  stop : c.row.stopRequested = true
  mode : c.row.mode = .fenced
  owner : c.row.ownerIncarnation = none
  outcome : c.row.finalOutcome = none
  revision : c.row.deliveryRevision = .zero
  correction : c.row.deliveryCorrection = none
  abort : c.row.liveAbort = none
  receipt : ∃ receipt, c.receipt = some receipt ∧ c.row.receiptId = some receipt.id ∧
    (receipt.kind = .notStartedFenced ∨ receipt.kind = .runFencedUnbound)
  rows : c.rows = []

/-- What every physically closed run shows, corrected or not. -/
structure ClosedRun (c : Cell) (key : String) (outcome : FinalOutcome) (closure : ReceiptRow) :
    Prop where
  phase : c.row.phase = .closed
  stop : c.row.stopRequested = true
  launchKey : c.row.launchKey = some key
  named : key ≠ ""
  finalOutcome : c.row.finalOutcome = some outcome
  receipt : c.receipt = some closure
  receiptId : c.row.receiptId = some closure.id
  kind : closure.kind = .processExitConfirmed
  abort : c.row.liveAbort.isSome = true → outcome.terminal.phase ≠ .completed

/-- The core a settlement row of `suffix` has when `n` rows precede the settlement. -/
def settlementCore (digest : NodeRunEvent → String) (runId key : String) (n : Nat)
    (outcome : FinalOutcome) (suffix : Suffix) : EventCore :=
  let content : NodeRunEvent := match suffix with
    | .retained => .workspaceRetained outcome.retained
    | .terminal => .lifecycle outcome.terminal
  ⟨runId, n + suffix.index, settlementEventId key suffix, content, digest content,
    originalRole suffix⟩

/-- The core a correction row of `suffix` has when `n` rows precede the correction. -/
def correctionCore (digest : NodeRunEvent → String) (runId receiptId : String) (n : Nat)
    (outcome : FinalOutcome) (suffix : Suffix) : EventCore :=
  ⟨runId, n + suffix.index, correctionEventId receiptId suffix, correctionContent outcome suffix,
    digest (correctionContent outcome suffix), correctionRole suffix⟩

/-- Physically closed at delivery revision 0. -/
structure UncorrectedRun (digest : NodeRunEvent → String) (c : Cell) (key : String)
    (outcome : FinalOutcome) (closure : ReceiptRow) (history : List EventCore) : Prop
    extends ClosedRun c key outcome closure where
  ordinary : ∀ e ∈ history, Ordinary e
  cores : c.rows.map EventRow.core = history ++
    Suffix.all.map (settlementCore digest c.row.runId key history.length outcome)
  revision : c.row.deliveryRevision = .zero
  correction : c.row.deliveryCorrection = none
  kept : ∀ e ∈ c.rows, e.superseded = false
  fresh : ∀ e ∈ c.rows, ∀ suffix, e.eventId ≠ correctionEventId closure.id suffix
  backlog : c.rows.countP EventRow.active ≤ maxBacklog - 2
  range : c.row.nextSequence ≤ maxSequence - 1

/-- On the success path no row is tried out of order or given up. -/
structure SettledRun (digest : NodeRunEvent → String) (c : Cell) (key : String)
    (outcome : FinalOutcome) (closure : ReceiptRow) (history : List EventCore) : Prop
    extends UncorrectedRun digest c key outcome closure history where
  success : outcome.terminal.phase = .completed → Serial c ∧
    ∀ e ∈ c.rows, e.active = true → e.exhausted = false

/-- Physically closed and corrected: delivery revision 1. -/
structure CorrectedRun (digest : NodeRunEvent → String) (c : Cell) (key : String)
    (outcome : FinalOutcome) (closure : ReceiptRow) (history : List EventCore) : Prop
    extends ClosedRun c key outcome closure where
  ordinary : ∀ e ∈ history, Ordinary e
  cores : c.rows.map EventRow.core = history ++
    Suffix.all.map (settlementCore digest c.row.runId key history.length outcome) ++
    Suffix.all.map (correctionCore digest c.row.runId closure.id (history.length + 2) outcome)
  revision : c.row.deliveryRevision = .one
  correction : ∃ trigger, c.row.deliveryCorrection = some
    ⟨correctionId closure.id, some closure.id, trigger,
      ⟨correctionEventId closure.id .retained, history.length + 2,
        digest (correctionContent outcome .retained)⟩,
      ⟨correctionEventId closure.id .terminal, history.length + 3,
        digest (correctionContent outcome .terminal)⟩⟩
  completed : outcome.terminal.phase = .completed
  retired : ∀ e ∈ c.rows, e.active = true →
    e.role = .correctionRetention ∨ e.role = .correctionTerminal
  superseded : ∀ e ∈ c.rows, e.role = .originalRetention ∨ e.role = .originalTerminal →
    e.superseded = true
  current : ∀ e ∈ c.rows, e.role = .correctionRetention ∨ e.role = .correctionTerminal →
    e.superseded = false
  backlog : c.rows.countP EventRow.active ≤ maxBacklog
  range : c.row.nextSequence ≤ maxSequence + 1

inductive Stage (digest : NodeRunEvent → String) (c : Cell) : Prop where
  | open_ (h : OpenRun c)
  | fenced (h : FencedRun c)
  | settled {key outcome closure history} (h : SettledRun digest c key outcome closure history)
  | corrected {key outcome closure history} (h : CorrectedRun digest c key outcome closure history)

/-- The invariant of a run's rows and of the counters kept beside them. -/
structure LogInv (digest : NodeRunEvent → String) (row : RunRow) (rows : List EventRow) : Prop where
  sequences : rows.map (·.sequence) = List.range row.nextSequence
  eventIds : (rows.map (·.eventId)).Nodup
  runIds : ∀ e ∈ rows, e.runId = row.runId
  each : ∀ e ∈ rows, RowInv digest e
  committedCount : row.committedCount = rows.countP (·.committed)
  supersededCount : row.supersededCount = rows.countP (·.superseded)
  claimOrder : ∀ p ∈ rows, p.active = true → p.attempts ≠ [] →
    ∀ e ∈ rows, e.active = true → e.sequence < p.sequence → e.attempts ≠ []

/-- The invariant of one run. -/
structure Cell.Inv (digest : NodeRunEvent → String) (c : Cell) : Prop
    extends LogInv digest c.row c.rows where
  stage : Stage digest c

namespace LogInv

variable {digest : NodeRunEvent → String} {row : RunRow} {rows : List EventRow}

theorem unique (inv : LogInv digest row rows) : (rows.map EventRow.sequence).Nodup := by
  have ranged : rows.map EventRow.sequence = List.range row.nextSequence := inv.sequences
  rw [ranged]
  exact List.nodup_range

theorem same_of_sequence (inv : LogInv digest row rows) {a b : EventRow} (ha : a ∈ rows)
    (hb : b ∈ rows) (same : a.sequence = b.sequence) : a = b :=
  key_injective inv.unique ha hb same

theorem length_rows (inv : LogInv digest row rows) : rows.length = row.nextSequence := by
  have lengths := congrArg List.length inv.sequences
  simpa using lengths

theorem sequence_lt (inv : LogInv digest row rows) {e : EventRow} (member : e ∈ rows) :
    e.sequence < row.nextSequence := by
  have listed : e.sequence ∈ rows.map (·.sequence) := List.mem_map_of_mem member
  rw [inv.sequences] at listed
  exact List.mem_range.mp listed

end LogInv

/-- What an update may do to a stored row. -/
structure Ages (e e' : EventRow) : Prop where
  core : e'.core = e.core
  committed : e.committed = true → e'.committed = true
  superseded : e.superseded = true → e'.superseded = true
  exhausted : e.exhausted = true → e'.exhausted = true
  deadline : ∀ d, e.deadlineTickMs = some d → e'.deadlineTickMs = some d
  attempts : e.attempts.map (·.id) <+: e'.attempts.map (·.id)

namespace Ages

variable {e e' e'' : EventRow}

theorem refl (e : EventRow) : Ages e e :=
  ⟨rfl, id, id, id, fun _ h => h, List.prefix_rfl⟩

theorem trans (first : Ages e e') (last : Ages e' e'') : Ages e e'' where
  core := last.core.trans first.core
  committed h := last.committed (first.committed h)
  superseded h := last.superseded (first.superseded h)
  exhausted h := last.exhausted (first.exhausted h)
  deadline d h := last.deadline d (first.deadline d h)
  attempts := first.attempts.trans last.attempts

theorem sequence (h : Ages e e') : e'.sequence = e.sequence := congrArg EventCore.sequence h.core

theorem role (h : Ages e e') : e'.role = e.role := congrArg EventCore.role h.core

theorem eventId (h : Ages e e') : e'.eventId = e.eventId := congrArg EventCore.eventId h.core

theorem runId (h : Ages e e') : e'.runId = e.runId := congrArg EventCore.runId h.core

theorem active (h : Ages e e') (active : e'.active = true) : e.active = true := by
  simp only [EventRow.active, Bool.and_eq_true, Bool.not_eq_true'] at active ⊢
  refine ⟨?_, ?_⟩
  · exact Bool.eq_false_iff.mpr fun committed => by simp [h.committed committed] at active
  · exact Bool.eq_false_iff.mpr fun superseded => by simp [h.superseded superseded] at active

theorem tried (h : Ages e e') (tried : e.attempts ≠ []) : e'.attempts ≠ [] := by
  intro none
  have prefixed := h.attempts
  rw [none, List.map_nil, List.prefix_nil, List.map_eq_nil_iff] at prefixed
  exact tried prefixed

end Ages

/-- The run with the row `target` rewritten and `n` rows committed. -/
def Cell.retouched (c : Cell) (target : EventRow) (set : EventRow → EventRow) (n : Nat) : Cell :=
  { c with
    row := { c.row with committedCount := n }
    rows := updateAt EventRow.sequence target.sequence set c.rows }

structure Retouch (c : Cell) (target : EventRow) (set : EventRow → EventRow) (n : Nat) : Prop where
  member : target ∈ c.rows
  ages : Ages target (set target)
  superseded : (set target).superseded = target.superseded
  count : n + (if target.committed then 1 else 0) =
    c.row.committedCount + (if (set target).committed then 1 else 0)

namespace Retouch

variable {digest : NodeRunEvent → String} {c : Cell} {target : EventRow}
  {set : EventRow → EventRow} {n : Nat}

theorem mem_rows (h : Retouch c target set n) (inv : LogInv digest c.row c.rows) {y : EventRow} :
    y ∈ (c.retouched target set n).rows ↔
      y = set target ∨ (y ∈ c.rows ∧ y.sequence ≠ target.sequence) :=
  mem_updateAt inv.unique h.member rfl

/-- The old row a new row comes from. -/
theorem source (h : Retouch c target set n) (inv : LogInv digest c.row c.rows) {y : EventRow}
    (member : y ∈ (c.retouched target set n).rows) :
    ∃ x ∈ c.rows, Ages x y ∧ y.superseded = x.superseded := by
  rcases (h.mem_rows inv).mp member with rfl | ⟨old, _⟩
  · exact ⟨target, h.member, h.ages, h.superseded⟩
  · exact ⟨y, old, Ages.refl y, rfl⟩

theorem column {β : Type} (h : Retouch c target set n) (inv : LogInv digest c.row c.rows)
    (column : EventRow → β) (keeps : column (set target) = column target) :
    (c.retouched target set n).rows.map column = c.rows.map column := by
  apply map_updateAt
  intro row member hit
  rw [inv.same_of_sequence member h.member hit, keeps]

theorem cores (h : Retouch c target set n) (inv : LogInv digest c.row c.rows) :
    (c.retouched target set n).rows.map EventRow.core = c.rows.map EventRow.core :=
  h.column inv EventRow.core h.ages.core

theorem backlog (h : Retouch c target set n) (inv : LogInv digest c.row c.rows) :
    (c.retouched target set n).rows.countP EventRow.active ≤ c.rows.countP EventRow.active := by
  have count := countP_updateAt set EventRow.active inv.unique h.member rfl
  have shrinks : (if (set target).active then 1 else 0) ≤ if target.active then 1 else 0 := by
    by_cases active : (set target).active = true
    · simp [active, h.ages.active active]
    · simp [active]
  simp only [Cell.retouched]
  omega

theorem serial (h : Retouch c target set n) (inv : LogInv digest c.row c.rows)
    (turn : target.attempts = [] → (set target).attempts ≠ [] →
      ∀ e ∈ c.rows, e.sequence < target.sequence → e.committed = true)
    (serial : Serial c) : Serial (c.retouched target set n) := by
  intro p member tried e earlier before
  obtain ⟨x, hx, older, -⟩ := h.source inv earlier
  apply older.committed
  rw [older.sequence] at before
  rcases (h.mem_rows inv).mp member with rfl | ⟨old, _⟩
  · rw [h.ages.sequence] at before
    by_cases untried : target.attempts = []
    · exact turn untried tried x hx before
    · exact serial target h.member untried x hx before
  · exact serial p old tried x hx before

/-- A row that is exhausted afterwards was so before, unless the step may exhaust it. -/
theorem exhaustion (h : Retouch c target set n) (inv : LogInv digest c.row c.rows)
    (exhausted : (set target).active = true → (set target).exhausted = true →
      target.exhausted = true ∨ MayExhaust c)
    {e : EventRow} (member : e ∈ (c.retouched target set n).rows) (active : e.active = true)
    (spent : e.exhausted = true) :
    MayExhaust c ∨ ∃ x ∈ c.rows, x.active = true ∧ x.exhausted = true := by
  rcases (h.mem_rows inv).mp member with rfl | ⟨old, _⟩
  · rcases exhausted active spent with before | allowed
    · exact .inr ⟨target, h.member, h.ages.active active, before⟩
    · exact .inl allowed
  · exact .inr ⟨e, old, active, spent⟩

theorem open_ (h : Retouch c target set n) (inv : LogInv digest c.row c.rows) (run : OpenRun c)
    (turn : target.attempts = [] → (set target).attempts ≠ [] → Turn c target)
    (exhausted : (set target).active = true → (set target).exhausted = true →
      target.exhausted = true ∨ MayExhaust c) : OpenRun (c.retouched target set n) where
  phase := run.phase
  key := run.key
  outcome := run.outcome
  revision := run.revision
  correction := run.correction
  started := run.started
  unstarted := run.unstarted
  events e member := by
    obtain ⟨x, hx, ages, kept⟩ := h.source inv member
    obtain ⟨ordinary, current⟩ := run.events x hx
    exact ⟨ages.core ▸ ordinary, kept.trans current⟩
  backlog := (h.backlog inv).trans run.backlog
  range := run.range
  abort e member active spent := by
    rcases h.exhaustion inv exhausted member active spent with
      (⟨_, latched⟩ | ⟨closed, _⟩) | ⟨x, hx, before, already⟩
    · exact latched
    · exact absurd closed run.phase
    · exact run.abort x hx before already
  serial := h.serial inv (fun untried tried => (turn untried tried).serial (.inl run.phase))
    run.serial

variable {key : String} {outcome : FinalOutcome} {closure : ReceiptRow} {history : List EventCore}

theorem closed (run : ClosedRun c key outcome closure) :
    ClosedRun (c.retouched target set n) key outcome closure :=
  ⟨run.phase, run.stop, run.launchKey, run.named, run.finalOutcome, run.receipt, run.receiptId,
    run.kind, run.abort⟩

theorem uncorrected (h : Retouch c target set n) (inv : LogInv digest c.row c.rows)
    (run : UncorrectedRun digest c key outcome closure history) :
    UncorrectedRun digest (c.retouched target set n) key outcome closure history where
  toClosedRun := closed run.toClosedRun
  ordinary := run.ordinary
  cores := (h.cores inv).trans run.cores
  revision := run.revision
  correction := run.correction
  kept e member := by
    obtain ⟨x, hx, -, kept⟩ := h.source inv member
    exact kept.trans (run.kept x hx)
  fresh e member suffix := by
    obtain ⟨x, hx, ages, -⟩ := h.source inv member
    exact ages.eventId ▸ run.fresh x hx suffix
  backlog := (h.backlog inv).trans run.backlog
  range := run.range

theorem settled (h : Retouch c target set n) (inv : LogInv digest c.row c.rows)
    (run : SettledRun digest c key outcome closure history)
    (turn : target.attempts = [] → (set target).attempts ≠ [] → Turn c target)
    (exhausted : (set target).active = true → (set target).exhausted = true →
      target.exhausted = true ∨ MayExhaust c) :
    SettledRun digest (c.retouched target set n) key outcome closure history where
  toUncorrectedRun := h.uncorrected inv run.toUncorrectedRun
  success completed := by
    obtain ⟨serial, fresh⟩ := run.success completed
    have path : completedPath c.row = true := by
      simp [completedPath, run.revision, run.finalOutcome, completed]
    refine ⟨h.serial inv (fun untried tried => (turn untried tried).serial (.inr path)) serial, ?_⟩
    intro e member active
    refine Bool.eq_false_iff.mpr fun spent => ?_
    rcases h.exhaustion inv exhausted member active spent with
      (⟨open_, _⟩ | ⟨_, failed⟩) | ⟨x, hx, before, already⟩
    · exact open_ run.phase
    · simp [path] at failed
    · simp [fresh x hx before] at already

theorem corrected (h : Retouch c target set n) (inv : LogInv digest c.row c.rows)
    (run : CorrectedRun digest c key outcome closure history) :
    CorrectedRun digest (c.retouched target set n) key outcome closure history where
  toClosedRun := closed run.toClosedRun
  ordinary := run.ordinary
  cores := (h.cores inv).trans run.cores
  revision := run.revision
  correction := run.correction
  completed := run.completed
  retired e member active := by
    obtain ⟨x, hx, ages, -⟩ := h.source inv member
    exact ages.role ▸ run.retired x hx (ages.active active)
  superseded e member original := by
    obtain ⟨x, hx, ages, kept⟩ := h.source inv member
    exact kept.trans (run.superseded x hx (ages.role ▸ original))
  current e member correction := by
    obtain ⟨x, hx, ages, kept⟩ := h.source inv member
    exact kept.trans (run.current x hx (ages.role ▸ correction))
  backlog := (h.backlog inv).trans run.backlog
  range := run.range

/-- A rewrite that ages one row keeps the invariant of the rows. -/
theorem log (h : Retouch c target set n) (inv : LogInv digest c.row c.rows)
    (row : RowInv digest (set target))
    (turn : target.attempts = [] → (set target).attempts ≠ [] → Turn c target) :
    LogInv digest (c.retouched target set n).row (c.retouched target set n).rows where
  sequences := (h.column inv (·.sequence) h.ages.sequence).trans inv.sequences
  eventIds := by
    rw [h.column inv (·.eventId) h.ages.eventId]
    exact inv.eventIds
  runIds e member := by
    obtain ⟨x, hx, ages, -⟩ := h.source inv member
    exact ages.runId.trans (inv.runIds x hx)
  each e member := by
    rcases (h.mem_rows inv).mp member with rfl | ⟨old, _⟩
    · exact row
    · exact inv.each e old
  committedCount := by
    have counted := countP_updateAt set (·.committed) inv.unique h.member rfl
    have count := h.count
    have before := inv.committedCount
    simp only [Cell.retouched]
    omega
  supersededCount := by
    have counted := countP_updateAt set (·.superseded) inv.unique h.member rfl
    have before := inv.supersededCount
    rw [h.superseded] at counted
    simp only [Cell.retouched]
    omega
  claimOrder p member active tried e earlier current before := by
    obtain ⟨x, hx, ages, -⟩ := h.source inv earlier
    apply ages.tried
    rw [ages.sequence] at before
    rcases (h.mem_rows inv).mp member with rfl | ⟨old, _⟩
    · rw [h.ages.sequence] at before
      by_cases untried : target.attempts = []
      · exact (turn untried tried).inOrder x hx (ages.active current) before
      · exact inv.claimOrder target h.member (h.ages.active active) untried x hx
          (ages.active current) before
    · exact inv.claimOrder p old active tried x hx (ages.active current) before

/-- A rewrite that ages one row keeps the invariant of the run. -/
theorem inv (h : Retouch c target set n) (inv : c.Inv digest) (row : RowInv digest (set target))
    (turn : target.attempts = [] → (set target).attempts ≠ [] → Turn c target)
    (exhausted : (set target).active = true → (set target).exhausted = true →
      target.exhausted = true ∨ MayExhaust c) : (c.retouched target set n).Inv digest where
  toLogInv := h.log inv.toLogInv row turn
  stage := by
    cases inv.stage with
    | open_ run => exact .open_ (h.open_ inv.toLogInv run turn exhausted)
    | fenced run =>
      have member := h.member
      rw [run.rows] at member
      cases member
    | settled run => exact .settled (h.settled inv.toLogInv run turn exhausted)
    | corrected run => exact .corrected (h.corrected inv.toLogInv run)

end Retouch

/-! ### The rows a claim, a failure and an acknowledgement write -/

theorem EventRow.uncommitted {e : EventRow} (active : e.active = true) : e.committed = false := by
  simp only [EventRow.active, Bool.and_eq_true, Bool.not_eq_true'] at active
  exact active.1

theorem EventRow.current {e : EventRow} (active : e.active = true) : e.superseded = false := by
  simp only [EventRow.active, Bool.and_eq_true, Bool.not_eq_true'] at active
  exact active.2

@[simp] theorem markFailure_ids (saved : List Attempt) (id : String)
    (reason : DeliveryFailureReason) :
    (markFailure saved id reason).map (·.id) = saved.map (·.id) := by
  rw [markFailure, List.map_map]
  apply List.map_congr_left
  intro a _
  by_cases hit : a.id = id <;> simp [hit]

@[simp] theorem markAccepted_ids (saved : List Attempt) (id : String) :
    (markAccepted saved id).map (·.id) = saved.map (·.id) := by
  rw [markAccepted, List.map_map]
  apply List.map_congr_left
  intro a _
  by_cases hit : a.id = id <;> simp [hit]

@[simp] theorem markFailure_length (saved : List Attempt) (id : String)
    (reason : DeliveryFailureReason) : (markFailure saved id reason).length = saved.length :=
  List.length_map _

@[simp] theorem markAccepted_length (saved : List Attempt) (id : String) :
    (markAccepted saved id).length = saved.length :=
  List.length_map _

/-- A marked attempt is an old one with at most one more column set. -/
theorem mem_markFailure {saved : List Attempt} {id : String} {reason : DeliveryFailureReason}
    {a : Attempt} (member : a ∈ markFailure saved id reason) :
    ∃ b ∈ saved, a.id = b.id ∧ a.claimedTickMs = b.claimedTickMs ∧ a.accepted = b.accepted ∧
      (b.resolved = true → a.resolved = true) := by
  obtain ⟨b, hb, rfl⟩ := List.mem_map.mp member
  refine ⟨b, hb, ?_⟩
  by_cases hit : b.id = id <;> simp [hit, Attempt.resolved]

theorem mem_markAccepted {saved : List Attempt} {id : String} {a : Attempt}
    (member : a ∈ markAccepted saved id) :
    ∃ b ∈ saved, a.id = b.id ∧ a.claimedTickMs = b.claimedTickMs ∧
      (b.resolved = true → a.resolved = true) := by
  obtain ⟨b, hb, rfl⟩ := List.mem_map.mp member
  refine ⟨b, hb, ?_⟩
  by_cases hit : b.id = id <;> simp [hit, Attempt.resolved]

namespace RowInv

variable {digest : NodeRunEvent → String} {e : EventRow}

theorem failed (row : RowInv digest e) (uncommitted : e.committed = false)
    (tried : e.attempts ≠ []) (id : String) (reason : DeliveryFailureReason) {exhausted : Bool}
    (spent : Journal.spent (markFailure e.attempts id reason) = true → exhausted = true) :
    RowInv digest { e with attempts := markFailure e.attempts id reason, exhausted := exhausted }
    where
  digest := row.digest
  budget := by simpa using row.budget
  ids := by simpa using row.ids
  named a member := by
    obtain ⟨b, hb, same, -, -, -⟩ := mem_markFailure member
    exact same ▸ row.named b hb
  ticks a member := by
    obtain ⟨b, hb, -, same, -, -⟩ := mem_markFailure member
    exact same ▸ row.ticks b hb
  timed _ := row.timed tried
  untried none := absurd (List.map_eq_nil_iff.mp none) tried
  committed := by
    have none := row.committed
    simp only [uncommitted, Bool.false_eq_true, false_iff, not_exists, not_and] at none ⊢
    intro a member
    obtain ⟨b, hb, -, -, same, -⟩ := mem_markFailure member
    exact same ▸ none b hb
  order a member := by
    have dropped : a ∈ markFailure e.attempts.dropLast id reason := by
      rw [markFailure, List.map_dropLast]
      exact member
    obtain ⟨b, hb, -, -, -, resolved⟩ := mem_markFailure dropped
    exact resolved (row.order b hb)
  spent exhausted := .inr (spent exhausted)

theorem accepted (row : RowInv digest e) {id : String} (claimed : ∃ a ∈ e.attempts, a.id = id) :
    RowInv digest { e with attempts := markAccepted e.attempts id, committed := true } where
  digest := row.digest
  budget := by simpa using row.budget
  ids := by simpa using row.ids
  named a member := by
    obtain ⟨b, hb, same, -, -⟩ := mem_markAccepted member
    exact same ▸ row.named b hb
  ticks a member := by
    obtain ⟨b, hb, -, same, -⟩ := mem_markAccepted member
    exact same ▸ row.ticks b hb
  timed _ := by
    obtain ⟨a, member, -⟩ := claimed
    exact row.timed (List.ne_nil_of_mem member)
  untried none := by
    obtain ⟨a, member, -⟩ := claimed
    rw [List.map_eq_nil_iff.mp none] at member
    cases member
  committed := by
    obtain ⟨a, member, hit⟩ := claimed
    simp only [true_iff]
    exact ⟨{ a with accepted := true }, List.mem_map.mpr ⟨a, member, by simp [hit]⟩, rfl⟩
  order a member := by
    have dropped : a ∈ markAccepted e.attempts.dropLast id := by
      rw [markAccepted, List.map_dropLast]
      exact member
    obtain ⟨b, hb, -, -, resolved⟩ := mem_markAccepted dropped
    exact resolved (row.order b hb)
  spent _ := .inl rfl

theorem claimed (row : RowInv digest e) (active : e.active = true)
    (budget : e.attempts.length < maxAttempts) (resolved : ∀ a ∈ e.attempts, a.resolved = true)
    {attempt : Attempt} (time : attempt.claimedTickMs ≤ maxSafeInteger) (named : attempt.id ≠ "")
    (fresh : ∀ a ∈ e.attempts, a.id ≠ attempt.id)
    (pending : attempt.failure = none ∧ attempt.accepted = false)
    (deadline : Nat) (clockId : String) :
    RowInv digest { e with
      attempts := e.attempts ++ [attempt], deadlineTickMs := some deadline,
      clockId := some clockId } where
  digest := row.digest
  budget := by
    rw [List.length_append, List.length_singleton]
    exact budget
  ids := by
    simp only [List.map_append, List.map_cons, List.map_nil]
    refine List.nodup_append.mpr ⟨row.ids, List.nodup_singleton _, ?_⟩
    rintro x member y last rfl
    obtain ⟨a, ha, same⟩ := List.mem_map.mp member
    exact fresh a ha (same.trans (List.mem_singleton.mp last))
  named a member := by
    rcases List.mem_append.mp member with old | last
    · exact row.named a old
    · exact List.mem_singleton.mp last ▸ named
  ticks a member := by
    rcases List.mem_append.mp member with old | last
    · exact row.ticks a old
    · exact List.mem_singleton.mp last ▸ time
  timed _ := ⟨rfl, rfl⟩
  untried none := by simp at none
  committed := by
    have none := row.committed
    simp only [e.uncommitted active, Bool.false_eq_true, false_iff, not_exists, not_and] at none ⊢
    intro a member
    rcases List.mem_append.mp member with old | last
    · exact none a old
    · simp [List.mem_singleton.mp last, pending.2]
  order a member := by
    simp only [List.dropLast_concat] at member
    exact resolved a member
  spent spent := by
    simp [Journal.spent, Attempt.resolved, pending] at spent

end RowInv

/-! ### Steps that rewrite one row -/

namespace Failing

variable {digest : NodeRunEvent → String} {c : Cell} {target : EventRow} {attemptId : String}
  {reason : DeliveryFailureReason} {exhausted : Bool}

theorem tried (failing : Failing c target attemptId reason exhausted) : target.attempts ≠ [] := by
  obtain ⟨a, member, -⟩ := failing.claimed
  exact List.ne_nil_of_mem member

theorem row (failing : Failing c target attemptId reason exhausted)
    (inv : LogInv digest c.row c.rows) :
    RowInv digest { target with
      attempts := markFailure target.attempts attemptId reason, exhausted := exhausted } :=
  (inv.each target failing.member).failed failing.uncommitted failing.tried attemptId reason
    failing.spent

end Failing

namespace Cell

variable {digest : NodeRunEvent → String} {c : Cell} {target : EventRow}

theorem claimed_retouch {attempt : Attempt} {clockId : Option String}
    (gate : Gate c target attempt.claimedTickMs) :
    Retouch c target (fun e => { e with
        attempts := target.attempts ++ [attempt],
        deadlineTickMs :=
          some (target.deadlineTickMs.getD (attempt.claimedTickMs + receiptWindowMs)),
        clockId := clockId }) c.row.committedCount where
  member := gate.member
  ages := ⟨rfl, id, id, id, fun d deadline => by simp [deadline], by simp⟩
  superseded := rfl
  count := rfl

theorem failed_retouch {attemptId : String} {reason : DeliveryFailureReason} {exhausted : Bool}
    (failing : Failing c target attemptId reason exhausted) :
    Retouch c target (fun e => { e with
        attempts := markFailure target.attempts attemptId reason, exhausted := exhausted })
      c.row.committedCount where
  member := failing.member
  ages := ⟨rfl, id, id, failing.keeps, fun _ deadline => deadline, by simp⟩
  superseded := rfl
  count := rfl

theorem accepted_retouch {attemptId : String} (member : target ∈ c.rows) :
    Retouch c target (fun e => { e with
        attempts := markAccepted target.attempts attemptId, committed := true })
      (c.row.committedCount + (if target.committed then 0 else 1)) where
  member := member
  ages := ⟨rfl, fun _ => rfl, id, id, fun _ deadline => deadline, by simp⟩
  superseded := rfl
  count := by cases target.committed <;> rfl

theorem failed_log {attemptId : String} {reason : DeliveryFailureReason} {exhausted : Bool}
    (failing : Failing c target attemptId reason exhausted) (inv : LogInv digest c.row c.rows) :
    LogInv digest (c.failed target attemptId reason exhausted).row
      (c.failed target attemptId reason exhausted).rows :=
  (failed_retouch failing).log inv (failing.row inv) fun untried _ => absurd untried failing.tried

theorem claimed_inv (inv : c.Inv digest) {attempt : Attempt} {clockId : String}
    (gate : Gate c target attempt.claimedTickMs) (time : attempt.claimedTickMs ≤ maxSafeInteger)
    (named : attempt.id ≠ "") (fresh : ∀ a ∈ target.attempts, a.id ≠ attempt.id)
    (pending : attempt.failure = none ∧ attempt.accepted = false) :
    (c.claimed target attempt
      (target.deadlineTickMs.getD (attempt.claimedTickMs + receiptWindowMs))
      (some clockId)).Inv digest := by
  have resolved := gate.resolved target gate.member gate.active gate.notExhausted
  apply (claimed_retouch gate).inv inv
  · exact (inv.each target gate.member).claimed gate.active gate.budget resolved time named fresh
      pending _ clockId
  · intro _ _
    exact gate.toTurn
  · intro _ spent
    exact .inl spent

theorem failed_inv (inv : c.Inv digest) {attemptId : String} {reason : DeliveryFailureReason}
    {exhausted : Bool} (failing : Failing c target attemptId reason exhausted)
    (kept : exhausted = true → target.active = true → MayExhaust c) :
    (c.failed target attemptId reason exhausted).Inv digest := by
  apply (failed_retouch failing).inv inv (failing.row inv.toLogInv)
  · intro untried _
    exact absurd untried failing.tried
  · intro active spent
    exact .inr (kept spent ((failed_retouch failing).ages.active active))

theorem accepted_inv (inv : c.Inv digest) {attemptId : String} (member : target ∈ c.rows)
    (claimed : ∃ a ∈ target.attempts, a.id = attemptId) :
    (c.accepted target attemptId).Inv digest := by
  apply (accepted_retouch member).inv inv
  · exact (inv.each target member).accepted claimed
  · intro untried _
    obtain ⟨a, attempted, -⟩ := claimed
    rw [untried] at attempted
    cases attempted
  · intro _ spent
    exact .inl spent

/-! ### Steps that leave the rows alone -/

theorem Inv.withRow {c' : Cell} (inv : c.Inv digest) (rows : c'.rows = c.rows)
    (runId : c'.row.runId = c.row.runId) (next : c'.row.nextSequence = c.row.nextSequence)
    (committed : c'.row.committedCount = c.row.committedCount)
    (superseded : c'.row.supersededCount = c.row.supersededCount)
    (stage : Stage digest c') : c'.Inv digest where
  sequences := by rw [rows, next, inv.sequences]
  eventIds := rows ▸ inv.eventIds
  runIds e member := (inv.runIds e (rows ▸ member)).trans runId.symm
  each := rows ▸ inv.each
  committedCount := by rw [rows, committed, inv.committedCount]
  supersededCount := by rw [rows, superseded, inv.supersededCount]
  claimOrder := rows ▸ inv.claimOrder
  stage := stage

/-- The columns a delivery report writes are not part of the invariant. -/
theorem reported_inv (inv : c.Inv digest) (unknown : Bool) (state : DeliveryState) :
    (c.withRow fun row => { row with
      deliveryClockUnknown := unknown, deliveryState := state }).Inv digest := by
  refine inv.withRow rfl rfl rfl rfl rfl ?_
  cases inv.stage with
  | open_ run => exact .open_ { run with }
  | fenced run => exact .fenced { run with }
  | settled run => exact .settled { run with }
  | corrected run => exact .corrected { run with }

theorem Inv.open_of_phase (inv : c.Inv digest) (phase : c.row.phase ≠ .closed) : OpenRun c := by
  cases inv.stage with
  | open_ run => exact run
  | fenced run => exact absurd run.phase phase
  | settled run => exact absurd run.phase phase
  | corrected run => exact absurd run.phase phase

theorem Inv.open_of_running (inv : c.Inv digest) (running : c.row.stopRequested = false) :
    OpenRun c := by
  cases inv.stage with
  | open_ run => exact run
  | fenced run => simp [run.stop] at running
  | settled run => simp [run.stop] at running
  | corrected run => simp [run.stop] at running

theorem stopped_inv (inv : c.Inv digest) (running : c.row.stopRequested = false) :
    c.stopped.Inv digest := by
  have run := inv.open_of_running running
  exact inv.withRow rfl rfl rfl rfl rfl (.open_ { run with })

theorem aborted_inv (inv : c.Inv digest) {cause : LiveDeliveryAbort}
    (phase : c.row.phase ≠ .closed) : (c.aborted cause).Inv digest := by
  have run := inv.open_of_phase phase
  exact inv.withRow rfl rfl rfl rfl rfl (.open_ { run with abort := fun _ _ _ _ => rfl })

theorem nextPhase_open {phase next : DurablePhase} (h : nextPhase phase = some next) :
    phase ≠ .closed ∧ phase ≠ .started ∧ next ≠ .closed ∧ next ≠ .started ∧
      phase.rank < next.rank := by
  cases phase <;> simp_all [nextPhase, DurablePhase.rank] <;> subst h <;> simp

theorem advanced_inv (inv : c.Inv digest) {phase : DurablePhase}
    (next : nextPhase c.row.phase = some phase) : (c.advanced phase).Inv digest := by
  obtain ⟨notClosed, notStarted, closed, started, -⟩ := nextPhase_open next
  have run := inv.open_of_phase notClosed
  exact inv.withRow rfl rfl rfl rfl rfl (.open_ { run with
    phase := closed
    started := fun reached => absurd reached started
    unstarted := fun _ => run.unstarted notStarted })

theorem launched_inv (inv : c.Inv digest) {receipt : ReceiptRow}
    (phase : c.row.phase = .launchIntent) (kind : receipt.kind = .accepted) :
    (c.launched receipt).Inv digest := by
  have run := inv.open_of_phase (by simp [phase])
  exact inv.withRow rfl rfl rfl rfl rfl (.open_ { run with
    phase := nofun
    started := fun _ => ⟨receipt, rfl, rfl, kind⟩
    unstarted := fun other => absurd rfl other })

end Cell

end Artoo.Journal
