import Artoo.Journal.Storage

/-! The worker's writes, each read as steps of the one run it touches. -/
namespace Artoo.Journal
open Artoo.Protocol Artoo.Lib

/-- Everything outside one run is as before. -/
structure Frame (runId : String) (db db' : Database) : Prop where
  runs : ∀ r, r ≠ runId → db'.runs r = db.runs r
  outbox : ∀ r, r ≠ runId → db'.outbox r = db.outbox r
  receipts : ∀ id receipt, db.receipts id = some receipt → db'.receipts id = some receipt

namespace Frame

variable {runId : String} {db db' db'' : Database}

theorem refl (runId : String) (db : Database) : Frame runId db db :=
  ⟨fun _ _ => rfl, fun _ _ => rfl, fun _ _ h => h⟩

theorem trans (first : Frame runId db db') (last : Frame runId db' db'') : Frame runId db db'' where
  runs r other := (last.runs r other).trans (first.runs r other)
  outbox r other := (last.outbox r other).trans (first.outbox r other)
  receipts id receipt found := last.receipts id receipt (first.receipts id receipt found)

theorem updateRun (set : RunRow → RunRow) : Frame runId db (db.updateRun runId set) :=
  { refl runId db with runs := fun _ other => Function.update_of_ne other _ _ }

theorem updateOutbox (where_ : EventRow → Bool) (set : EventRow → EventRow) :
    Frame runId db (db.updateOutbox runId where_ set) :=
  { refl runId db with outbox := fun _ other => Function.update_of_ne other _ _ }

end Frame

/-- The row `insertReceipt` writes. -/
def newReceipt (w : Worker) (value : RunRow) (kind : ReceiptKind) (detail : ReceiptDetail) :
    ReceiptRow :=
  { id := w.uuid, runId := value.runId, launchKey := value.launchKey,
    ownerRevision := value.revision, kind := kind, detail := detail }

def Cell.recorded (c : Cell) (receipt : ReceiptRow) : Cell :=
  { c with row := { c.row with receiptId := some receipt.id }, receipt := some receipt }

namespace Held

variable {db : Database} {c : Cell}

theorem updateRun (h : Held db c) (set : RunRow → RunRow) (runId : (set c.row).runId = c.row.runId)
    (receiptId : (set c.row).receiptId = c.row.receiptId) :
    Held (db.updateRun c.row.runId set) (c.withRow set) where
  runs := by
    simp only [Database.updateRun, Cell.withRow, runId, Function.update_self, h.runs,
      Option.map_some]
  outbox := by
    simp only [Cell.withRow, runId]
    exact h.outbox
  receipt := by
    simp only [Cell.withRow, receiptId]
    exact h.receipt

theorem updateOutbox (h : Held db c) (where_ : EventRow → Bool) (set : EventRow → EventRow) :
    Held (db.updateOutbox c.row.runId where_ set)
      { c with rows := c.rows.map fun e => if where_ e then set e else e } where
  runs := h.runs
  outbox := by simp only [Database.updateOutbox, Function.update_self, h.outbox]
  receipt := h.receipt

theorem changes (h : Held db c) (where_ : EventRow → Bool) :
    db.changes c.row.runId where_ = c.rows.countP where_ := by
  rw [Database.changes, h.outbox]

/-- An insert the constraints accept. -/
theorem insertOutbox (h : Held db c) (row : EventRow) (runId : row.runId = c.row.runId)
    (range : row.sequence ≤ maxSequence) (unused : ∀ e ∈ c.rows, e.sequence ≠ row.sequence)
    (fresh : ∀ e ∈ c.rows, e.eventId ≠ row.eventId) :
    ∃ db', db.insertOutbox row = .ok db' ∧ Held db' { c with rows := c.rows ++ [row] } ∧
      Frame c.row.runId db db' ∧ db'.receipts = db.receipts := by
  have accepted : ¬ ((db.runs row.runId).isNone ∨ maxSequence < row.sequence ∨
      (db.outbox row.runId).any
        (fun e => e.sequence == row.sequence || e.eventId == row.eventId) = true) := by
    rw [runId, h.runs, h.outbox]
    rintro (missing | beyond | taken)
    · cases missing
    · omega
    · obtain ⟨e, member, clash⟩ := List.any_eq_true.mp taken
      simp only [Bool.or_eq_true, beq_iff_eq] at clash
      exact clash.elim (unused e member) (fresh e member)
  let written := Function.update db.outbox row.runId (db.outbox row.runId ++ [row])
  refine ⟨{ db with outbox := written }, if_neg accepted, ⟨h.runs, ?_, h.receipt⟩, ?_, rfl⟩
  · simp only [written, runId, Function.update_self, h.outbox]
  · refine { Frame.refl _ db with outbox := fun r other => ?_ }
    exact Function.update_of_ne (runId ▸ other) _ _

/-- A receipt under an unused id. -/
theorem insertReceipt (h : Held db c) {w : Worker} (fresh : db.receipts w.uuid = none)
    (kind : ReceiptKind) (detail : ReceiptDetail) :
    ∃ db', Journal.insertReceipt w db c.row kind detail = .ok db' ∧
      Held db' (c.recorded (newReceipt w c.row kind detail)) ∧ Frame c.row.runId db db' := by
  let receipt := newReceipt w c.row kind detail
  let written : Database :=
    { db with receipts := Function.update db.receipts w.uuid (some receipt) }
  have accepted : db.insertReceiptRow receipt = .ok written :=
    if_neg (by simp [receipt, newReceipt, fresh])
  refine ⟨written.updateRun c.row.runId ({ · with receiptId := some w.uuid }), ?_,
    ⟨?_, h.outbox, ?_⟩, ?_⟩
  · simp only [Journal.insertReceipt, receipt, newReceipt] at accepted ⊢
    rw [accepted, ok_bind]
  · simp [Database.updateRun, written, h.runs, Cell.recorded, newReceipt]
  · simp [Database.updateRun, written, Cell.recorded, receipt, newReceipt]
  · refine { Frame.refl _ db with
      runs := fun _ other => Function.update_of_ne other _ _
      receipts := fun id saved found => ?_ }
    have other : id ≠ w.uuid := by
      rintro rfl
      simp [fresh] at found
    exact (Function.update_of_ne other _ _).trans found

end Held

/-- A transaction's effect on the database as labelled steps of the run it touches. -/
structure Moves (digest : NodeRunEvent → String) (ls : List Label) (db : Database) (c : Cell)
    (db' : Database) (c' : Cell) : Prop where
  path : Path (Step digest) ls c c'
  stored : Stored digest db' c'
  frame : Frame c.row.runId db db'

theorem Step.runId {digest : NodeRunEvent → String} {l : Label} {c c' : Cell}
    (step : Step digest l c c') : c'.row.runId = c.row.runId := by
  cases step <;> rfl

theorem path_runId {digest : NodeRunEvent → String} {ls : List Label} {c c' : Cell}
    (path : Path (Step digest) ls c c') : c'.row.runId = c.row.runId :=
  path.invariant (fun _ _ _ same step => step.runId.trans same) (P := (·.row.runId = c.row.runId)) rfl

theorem path_inv {digest : NodeRunEvent → String} {ls : List Label} {c c' : Cell}
    (path : Path (Step digest) ls c c') (inv : c.Inv digest) : c'.Inv digest :=
  path.invariant (fun _ _ _ inv step => step.inv inv) inv

theorem path_forward {digest : NodeRunEvent → String} {ls : List Label} {c c' : Cell}
    (path : Path (Step digest) ls c c') (inv : c.Inv digest) : Forward c c' :=
  path.relates Forward.refl (fun _ _ _ => Forward.trans) (fun _ _ _ inv step => step.inv inv)
    (fun _ _ _ inv step => step.forward inv) inv

namespace Moves

variable {digest : NodeRunEvent → String} {ls ms : List Label} {l : Label}
  {db db' db'' : Database} {c c' c'' : Cell}

theorem refl (h : Stored digest db c) : Moves digest [] db c db c :=
  ⟨.nil c, h, Frame.refl _ db⟩

theorem trans (first : Moves digest ls db c db' c') (last : Moves digest ms db' c' db'' c'') :
    Moves digest (ls ++ ms) db c db'' c'' where
  path := first.path.append last.path
  stored := last.stored
  frame := first.frame.trans (path_runId first.path ▸ last.frame)

theorem of_step (inv : c.Inv digest) (step : Step digest l c c') (held : Held db' c')
    (frame : Frame c.row.runId db db') : Moves digest [l] db c db' c' :=
  ⟨.single step, ⟨held, step.inv inv⟩, frame⟩

end Moves

end Artoo.Journal
