import Mathlib.Logic.Function.Basic
import Mathlib.Data.List.Sort
import Artoo.Journal.Types

/-! The three tables of the journal database, keyed as the schema keys them, and the
statements the worker runs on them. A table is a function from its primary key. -/
namespace Artoo.Journal

structure Database where
  runs : String → Option RunRow
  receipts : String → Option ReceiptRow
  outbox : String → List EventRow

/-- A provisioned journal: the schema and no rows. -/
def Database.empty : Database := ⟨fun _ => none, fun _ => none, fun _ => []⟩

/-- `text.startsWith(p)`. -/
def startsWith (p text : String) : Bool := p.toList.isPrefixOf text.toList

inductive Suffix where
  | retained | terminal
  deriving DecidableEq, Repr

def Suffix.text : Suffix → String
  | .retained => "retained"
  | .terminal => "terminal"

/-- The loop `["retained", "terminal"].entries()`. -/
def Suffix.all : List Suffix := [.retained, .terminal]

/-- The template `sys:settlement:launch_key:suffix`. -/
def settlementEventId (launchKey : String) (suffix : Suffix) : String :=
  "sys:settlement:" ++ launchKey ++ ":" ++ suffix.text

/-- The template `sys:delivery:receipt_id:correction:1`. -/
def correctionId (receiptId : String) : String := "sys:delivery:" ++ receiptId ++ ":correction:1"

def correctionEventId (receiptId : String) (suffix : Suffix) : String :=
  correctionId receiptId ++ ":" ++ suffix.text

theorem settlementEventId_text (key : String) (suffix : Suffix) :
    settlementEventId key suffix = "sys:settlement:" ++ (key ++ (":" ++ suffix.text)) := by
  change "sys:settlement:" ++ key ++ ":" ++ suffix.text = _
  rw [String.append_assoc, String.append_assoc]

theorem settlementEventId_injective {key : String} {s t : Suffix}
    (same : settlementEventId key s = settlementEventId key t) : s = t := by
  have tails : s.text = t.text := by
    rw [settlementEventId_text, settlementEventId_text] at same
    simpa [← String.toList_inj] using same
  cases s <;> cases t <;> first | rfl | exact absurd tails (by decide)

theorem correctionEventId_injective {receiptId : String} {s t : Suffix}
    (same : correctionEventId receiptId s = correctionEventId receiptId t) : s = t := by
  have tails : s.text = t.text := by
    simpa [correctionEventId, ← String.toList_inj] using same
  cases s <;> cases t <;> first | rfl | exact absurd tails (by decide)

theorem startsWith_append (p text : String) : startsWith p (p ++ text) = true := by
  simp [startsWith]

theorem settlementEventId_reserved (key : String) (suffix : Suffix) :
    startsWith "sys:settlement:" (settlementEventId key suffix) = true := by
  rw [settlementEventId_text]
  exact startsWith_append _ _

/-- The two id templates differ in their fifth character. -/
theorem correctionEventId_unreserved (receiptId : String) (suffix : Suffix) :
    startsWith "sys:settlement:" (correctionEventId receiptId suffix) = false := by
  simp only [startsWith, correctionEventId, correctionId, String.toList_append, List.append_assoc]
  rfl

theorem settlement_ne_correction {key receiptId : String} (s t : Suffix) :
    settlementEventId key s ≠ correctionEventId receiptId t := by
  intro same
  have reserved := settlementEventId_reserved key s
  rw [same, correctionEventId_unreserved] at reserved
  cases reserved

namespace Database

/-- `INSERT INTO runs`; the primary key refuses a second row. -/
def insertRun (db : Database) (row : RunRow) : Except JournalError Database :=
  if (db.runs row.runId).isSome then .error .constraint
  else .ok { db with runs := Function.update db.runs row.runId (some row) }

/-- `UPDATE runs SET .. WHERE run_id=?`. -/
def updateRun (db : Database) (runId : String) (set : RunRow → RunRow) : Database :=
  { db with runs := Function.update db.runs runId ((db.runs runId).map set) }

/-- `INSERT INTO receipts`; the primary key refuses a second row. -/
def insertReceiptRow (db : Database) (row : ReceiptRow) : Except JournalError Database :=
  if (db.receipts row.id).isSome then .error .constraint
  else .ok { db with receipts := Function.update db.receipts row.id (some row) }

/-- `INSERT INTO outbox`, with the primary key, the unique event id, the range check on the
sequence and the reference to the run. -/
def insertOutbox (db : Database) (row : EventRow) : Except JournalError Database :=
  if (db.runs row.runId).isNone ∨ maxSequence < row.sequence ∨
      (db.outbox row.runId).any (fun e => e.sequence == row.sequence || e.eventId == row.eventId) then
    .error .constraint
  else .ok { db with
    outbox := Function.update db.outbox row.runId (db.outbox row.runId ++ [row]) }

/-- `UPDATE outbox SET .. WHERE run_id=? AND ..`. -/
def updateOutbox (db : Database) (runId : String) (where_ : EventRow → Bool)
    (set : EventRow → EventRow) : Database :=
  let rows := (db.outbox runId).map fun e => if where_ e then set e else e
  { db with outbox := Function.update db.outbox runId rows }

/-- The `changes` an update of these rows reports. -/
def changes (db : Database) (runId : String) (where_ : EventRow → Bool) : Nat :=
  (db.outbox runId).countP where_

def findSequence (db : Database) (runId : String) (sequence : Nat) : Option EventRow :=
  (db.outbox runId).find? (·.sequence == sequence)

def findEvent (db : Database) (runId eventId : String) : Option EventRow :=
  (db.outbox runId).find? (·.eventId == eventId)

/-- `SELECT count(*) .. committed=0 AND superseded=0`. -/
def activeCount (db : Database) (runId : String) : Nat := (db.outbox runId).countP EventRow.active

end Database

def sequenceLe (a b : EventRow) : Prop := a.sequence ≤ b.sequence

instance : DecidableRel sequenceLe := fun a b => Nat.decLe a.sequence b.sequence

/-- `ORDER BY sequence`. -/
def orderBySequence (rows : List EventRow) : List EventRow := rows.insertionSort sequenceLe

/-- `Map.set` on an insertion-ordered map from sequences to rows. -/
def mapSet (map : List EventRow) (row : EventRow) : List EventRow :=
  if map.any (·.sequence == row.sequence) then
    map.map fun e => if e.sequence == row.sequence then row else e
  else map ++ [row]

end Artoo.Journal
