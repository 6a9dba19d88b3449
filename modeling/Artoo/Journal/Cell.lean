import Artoo.Lib.Rows
import Artoo.Journal.Worker

/-! One run on its own: its row, the receipt the row names and its outbox. The steps below
are what any transaction does to a run, with the facts the transaction established first. -/
namespace Artoo.Journal
open Artoo.Protocol Artoo.Lib

structure Cell where
  row : RunRow
  receipt : Option ReceiptRow
  rows : List EventRow

/-- `superseded=1` where the row is obsolete. -/
def EventRow.retire (obsolete : Bool) (e : EventRow) : EventRow :=
  { e with superseded := e.superseded || obsolete }

theorem EventRow.retire_active {obsolete : Bool} {e : EventRow} :
    (e.retire obsolete).active = true ↔ e.active = true ∧ obsolete = false := by
  simp [EventRow.retire, EventRow.active, and_assoc]

namespace Cell

def outstanding (c : Cell) : List EventRow := c.rows.filter EventRow.active

def withRow (c : Cell) (set : RunRow → RunRow) : Cell := { c with row := set c.row }

def setAt (c : Cell) (sequence : Nat) (set : EventRow → EventRow) : Cell :=
  { c with rows := updateAt EventRow.sequence sequence set c.rows }

def stopped (c : Cell) : Cell :=
  c.withRow fun row => { row with stopRequested := true, revision := row.revision + 1 }

def advanced (c : Cell) (phase : DurablePhase) : Cell :=
  c.withRow fun row => { row with phase := phase, revision := row.revision + 1 }

def launched (c : Cell) (receipt : ReceiptRow) : Cell :=
  { c with
    row := { c.row with phase := .started, revision := c.row.revision + 1,
                        receiptId := some receipt.id }
    receipt := some receipt }

/-- The rows a physical closure writes. -/
def settlement (digest : NodeRunEvent → String) (c : Cell) (outcome : FinalOutcome) :
    List EventRow :=
  [settlementRow digest c.row (.workspaceRetained outcome.retained) .retained,
   settlementRow digest c.row (.lifecycle outcome.terminal) .terminal]

def settled (digest : NodeRunEvent → String) (c : Cell) (outcome : FinalOutcome)
    (receipt : ReceiptRow) : Cell :=
  { row := { c.row with phase := .closed, stopRequested := true, revision := c.row.revision + 1,
                        nextSequence := c.row.nextSequence + 2, finalOutcome := some outcome,
                        receiptId := some receipt.id }
    receipt := some receipt
    rows := c.rows ++ settlement digest c outcome }

def appended (digest : NodeRunEvent → String) (c : Cell) (eventId : String)
    (content : NodeRunEvent) : Cell :=
  { c with
    row := { c.row with nextSequence := c.row.nextSequence + 1, revision := c.row.revision + 1 }
    rows := c.rows ++ [{ runId := c.row.runId, sequence := c.row.nextSequence, eventId := eventId,
                         content := content, contentSha256 := digest content, role := .event }] }

def clockLost (c : Cell) : Cell := c.withRow ({ · with deliveryClockUnknown := true })

def aborted (c : Cell) (cause : LiveDeliveryAbort) : Cell :=
  c.withRow ({ · with liveAbort := some cause, stopRequested := true })

def reported (c : Cell) (state : DeliveryState) : Cell :=
  c.withRow ({ · with deliveryState := state })

def claimed (c : Cell) (target : EventRow) (attempt : Attempt) (deadline : Nat)
    (clockId : Option String) : Cell :=
  c.setAt target.sequence fun e =>
    { e with attempts := target.attempts ++ [attempt], deadlineTickMs := some deadline,
             clockId := clockId }

def persisted (c : Cell) (target : EventRow) (saved : List Attempt) (exhausted : Option Bool) :
    Cell :=
  c.setAt target.sequence fun e =>
    { e with attempts := saved, exhausted := exhausted.getD e.exhausted }

def failed (c : Cell) (target : EventRow) (attemptId : String) (reason : DeliveryFailureReason)
    (exhausted : Bool) : Cell :=
  c.persisted target (markFailure target.attempts attemptId reason) (some exhausted)

def accepted (c : Cell) (target : EventRow) (attemptId : String) : Cell :=
  { c.setAt target.sequence fun e =>
      { e with attempts := markAccepted target.attempts attemptId, committed := true } with
    row := { c.row with
             committedCount := c.row.committedCount + (if target.committed then 0 else 1) } }

/-- The rows a correction takes out of delivery. -/
def obsolete (c : Cell) (e : EventRow) : Bool :=
  e.active || e.eventId == originalEventId c.row .retained ||
    e.eventId == originalEventId c.row .terminal

def correctionRows (digest : NodeRunEvent → String) (c : Cell) (outcome : FinalOutcome) :
    List EventRow :=
  [correctionRow digest c.row outcome .retained, correctionRow digest c.row outcome .terminal]

def correctionRecord (digest : NodeRunEvent → String) (c : Cell) (outcome : FinalOutcome)
    (trigger : CorrectionTrigger) : DeliveryCorrection :=
  { id := correctionId (c.row.receiptId.getD "null"), physicalReceiptId := c.row.receiptId,
    trigger := trigger,
    retention := (correctionRow digest c.row outcome .retained).identity,
    terminal := (correctionRow digest c.row outcome .terminal).identity }

def corrected (digest : NodeRunEvent → String) (c : Cell) (outcome : FinalOutcome)
    (trigger : CorrectionTrigger) : Cell :=
  { c with
    row := { c.row with
             supersededCount := c.row.supersededCount +
               c.rows.countP fun e => c.obsolete e && !e.superseded
             deliveryRevision := .one, deliveryState := .correcting,
             deliveryCorrection := some (correctionRecord digest c outcome trigger),
             nextSequence := c.row.nextSequence + 2 }
    rows := c.rows.map (fun e => e.retire (c.obsolete e)) ++
      correctionRows digest c outcome }

end Cell

/-- A body that only a physical settlement may store. -/
def settlementBody : NodeRunEvent → Bool
  | .lifecycle payload => payload.phase.terminal
  | .workspaceRetained _ => true
  | _ => false

def reservedPrefix : String := "sys:settlement:"

/-- The rows before `target` in the order of the run's current path. -/
structure Turn (c : Cell) (target : EventRow) : Prop where
  inOrder : ∀ e ∈ c.rows, e.active = true → e.sequence < target.sequence → e.attempts ≠ []
  serial : c.row.phase ≠ .closed ∨ completedPath c.row = true →
    ∀ e ∈ c.rows, e.sequence < target.sequence → e.committed = true

/-- What the worker established before it granted a claim of `target` at `now`. -/
structure Gate (c : Cell) (target : EventRow) (now : Nat) : Prop extends Turn c target where
  member : target ∈ c.rows
  active : target.active = true
  notExhausted : target.exhausted = false
  budget : target.attempts.length < maxAttempts
  deadline : ∀ d, target.deadlineTickMs = some d → now < d
  resolved : ∀ e ∈ c.rows, e.active = true → e.exhausted = false →
    ∀ a ∈ e.attempts, a.resolved = true
  live : c.row.phase ≠ .closed → c.row.liveAbort = none ∧ target.role = .event

/-- The exhaustion a failure of the attempt leaves on its row. -/
structure Failing (c : Cell) (target : EventRow) (attemptId : String)
    (reason : DeliveryFailureReason) (exhausted : Bool) : Prop where
  member : target ∈ c.rows
  uncommitted : target.committed = false
  claimed : ∃ a ∈ target.attempts, a.id = attemptId
  keeps : target.exhausted = true → exhausted = true
  spent : spent (markFailure target.attempts attemptId reason) = true → exhausted = true

/-- When an outstanding row may become exhausted. -/
def MayExhaust (c : Cell) : Prop :=
  c.row.phase ≠ .closed ∧ c.row.liveAbort.isSome = true ∨
    c.row.phase = .closed ∧ completedPath c.row = false

inductive Label where
  | stop | advance | launch | settle | append | clockLost | abort | report
  | claim (sequence : Nat) (attemptId : String) (now : Nat)
  | fail (sequence : Nat) (attemptId : String)
  | correct (sequence : Nat) (attemptId : String)
  | accept (sequence : Nat) (attemptId : String)
  deriving DecidableEq, Repr

/-- One effect of a transaction on a run. -/
inductive Step (digest : NodeRunEvent → String) : Label → Cell → Cell → Prop where
  | stop {c : Cell} (fresh : c.row.stopRequested = false) : Step digest .stop c c.stopped
  | advance {c : Cell} {phase : DurablePhase} (next : nextPhase c.row.phase = some phase)
      (running : c.row.stopRequested = false) : Step digest .advance c (c.advanced phase)
  | launch {c : Cell} {receipt : ReceiptRow} (phase : c.row.phase = .launchIntent)
      (kind : receipt.kind = .accepted) : Step digest .launch c (c.launched receipt)
  | settle {c : Cell} {outcome : FinalOutcome} {receipt : ReceiptRow}
      (phase : c.row.phase = .launchIntent ∨ c.row.phase = .started)
      (kind : receipt.kind = .processExitConfirmed)
      (abort : c.row.liveAbort.isSome = true → outcome.terminal.phase ≠ .completed)
      (fresh : ∀ e ∈ c.rows, ∀ suffix, e.eventId ≠ correctionEventId receipt.id suffix) :
      Step digest .settle c (c.settled digest outcome receipt)
  | append {c : Cell} {eventId : String} {content : NodeRunEvent} (phase : c.row.phase ≠ .closed)
      (abort : c.row.liveAbort = none) (backlog : c.rows.countP EventRow.active < maxBacklog - 4)
      (range : c.row.nextSequence ≤ maxSequence - 4)
      (unused : ∀ e ∈ c.rows, e.eventId ≠ eventId)
      (reserved : startsWith reservedPrefix eventId = false)
      (body : settlementBody content = false) :
      Step digest .append c (c.appended digest eventId content)
  | clockLost {c : Cell} : Step digest .clockLost c c.clockLost
  | abort {c : Cell} {cause : LiveDeliveryAbort} (phase : c.row.phase ≠ .closed)
      (first : c.row.liveAbort = none) : Step digest .abort c (c.aborted cause)
  | report {c : Cell} (state : DeliveryState) : Step digest .report c (c.reported state)
  | claim {c : Cell} {target : EventRow} {attempt : Attempt} {clockId : String}
      (gate : Gate c target attempt.claimedTickMs) (time : attempt.claimedTickMs ≤ maxSafeInteger)
      (named : attempt.id ≠ "") (fresh : ∀ a ∈ target.attempts, a.id ≠ attempt.id)
      (pending : attempt.failure = none ∧ attempt.accepted = false) :
      Step digest (.claim target.sequence attempt.id attempt.claimedTickMs) c
        (c.claimed target attempt
          (target.deadlineTickMs.getD (attempt.claimedTickMs + receiptWindowMs)) (some clockId))
  | fail {c : Cell} {target : EventRow} {attemptId : String} {reason : DeliveryFailureReason}
      {exhausted : Bool} (failing : Failing c target attemptId reason exhausted)
      (kept : exhausted = true → target.active = true → MayExhaust c) :
      Step digest (.fail target.sequence attemptId) c (c.failed target attemptId reason exhausted)
  | correct {c : Cell} {target : EventRow} {attemptId : String} {reason : DeliveryFailureReason}
      {outcome : FinalOutcome} {trigger : CorrectionTrigger}
      (failing : Failing c target attemptId reason true) (active : target.active = true)
      (phase : c.row.phase = .closed) (outcomeIs : c.row.finalOutcome = some outcome)
      (path : completedPath c.row = true) :
      Step digest (.correct target.sequence attemptId) c
        ((c.failed target attemptId reason true).corrected digest outcome trigger)
  | accept {c : Cell} {target : EventRow} {attemptId : String} (member : target ∈ c.rows)
      (claimed : ∃ a ∈ target.attempts, a.id = attemptId) :
      Step digest (.accept target.sequence attemptId) c (c.accepted target attemptId)

end Artoo.Journal
