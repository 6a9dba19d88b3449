import Artoo.Journal.Budget
import Artoo.Journal.Exec
import Artoo.Server.Binding

/-! Which stored rows of a node's journal the server answers. -/
namespace Artoo.Server
open Artoo.Lib Artoo.Protocol Artoo.Domain Tx

/-- The lifecycle phases that the ingest leaves out. -/
def outsideCore : NodeRunEvent → Bool
  | .lifecycle payload => payload.phase == .paused || payload.phase == .resumed
  | _ => false

theorem mapRunEvent_eq_none {m : RunEventMessage} :
    mapRunEvent m = none ↔ outsideCore m.event = true := by
  unfold mapRunEvent outsideCore
  cases m.event with
  | lifecycle payload =>
    obtain ⟨phase, reason⟩ := payload
    cases phase <;> simp [ingestPhase]
  | _ => simp

/-- The delivery frame of a stored row. -/
def storedFrame (nodeId : String) (row : Journal.EventRow) : RunEventMessage :=
  ⟨nodeId, row.runId, row.sequence, row.content⟩

theorem storedFrame_valid {nodeId : String} {row : Journal.EventRow}
    (named : nodeId ≠ "" ∧ row.runId ≠ "") (outside : outsideCore row.content = true)
    (sequence : row.sequence ≤ Journal.maxSequence) :
    runEventMessageValid (storedFrame nodeId row) := by
  have body : runEventBodyValid row.content = true := by
    unfold outsideCore at outside
    split at outside
    · rename_i content
      rw [content]
      rfl
    · cases outside
  have most : (row.sequence : Int) ≤ maxSequence := by
    have max := Journal.maxSequence_eq
    unfold maxSequence
    omega
  simp [runEventMessageValid, storedFrame, named, body, most]

section Answers

variable {platform : Platform} {d : Delivery} {db : Database}

/-- Every frame the binding takes up is answered, but for a valid one outside the core loop. -/
theorem answered (received : d.received db)
    (core : runEventMessageValid d.frame = false ∨ mapRunEvent d.frame ≠ none) :
    ∃ status, (receive platform d db).1 = [d.ack status] := by
  have spec := @receive_spec platform d db
  generalize (receive platform d db).1 = acks at spec
  generalize applies platform d db = fresh at spec
  generalize (receive platform d db).2 = db' at spec
  cases spec with
  | dropped dropped =>
    rw [received] at dropped
    cases dropped
  | unmapped _ valid unmapped =>
    rcases core with invalid | mapped
    · rw [valid] at invalid
      cases invalid
    · exact absurd unmapped mapped
  | rejected => exact ⟨_, rfl⟩
  | accepted => exact ⟨_, rfl⟩

/-- A valid frame outside the core loop is dropped without an answer. -/
theorem unanswered (valid : runEventMessageValid d.frame) (unmapped : mapRunEvent d.frame = none) :
    (receive platform d db).1 = [] := by
  have ingested : d.ingest platform db = (.ok none, db) := by
    unfold Delivery.ingest ingestWireRunEvent qualifyRunEventMessage
    rw [if_pos valid]
    unfold orThrow
    rw [done_bind]
    dsimp only
    rw [unmapped]
    rfl
  unfold receive
  rw [ingested]
  split <;> rfl

theorem stored_row_answered {digest : NodeRunEvent → String}
    {trace : List (Journal.Action × Journal.Observation)} {s : Journal.System} {runId nodeId : String}
    {row : Journal.EventRow} (run : Journal.System.Run digest trace .initial s)
    (stored : row ∈ s.db.outbox runId) (named : nodeId ≠ "" ∧ row.runId ≠ "")
    (frame : d.frame = storedFrame nodeId row) (received : d.received db) :
    (∃ status, (receive platform d db).1 = [d.ack status]) ↔ outsideCore row.content = false := by
  constructor
  · rintro ⟨status, acks⟩
    cases outside : outsideCore row.content with
    | false => rfl
    | true =>
      have inv := Journal.System.reachable_inv run
      obtain ⟨c, _, kept, member⟩ := inv.row stored
      have sequence : row.sequence ≤ Journal.maxSequence := by
        have below := kept.inv.sequence_lt member
        have range := kept.inv.range
        omega
      have valid : runEventMessageValid d.frame := by
        rw [frame]
        exact storedFrame_valid named outside sequence
      have unmapped : mapRunEvent d.frame = none := by
        rw [mapRunEvent_eq_none, frame]
        exact outside
      rw [unanswered valid unmapped] at acks
      cases acks
  · intro inside
    apply answered received
    apply Or.inr
    rw [ne_eq, mapRunEvent_eq_none, frame]
    exact fun outside => by rw [storedFrame, inside] at outside; cases outside

end Answers

/-! ## A paused event -/

open Sample

/-- The journal of a run that stored an output and a paused event. -/
def pausedActions : List Journal.Action :=
  Journal.sampleStart ++
    [.call "first" (Journal.sampleEnv "u5" 2) (.append Journal.sampleOwner "e0" (.output .stdout "a")),
     .call "first" (Journal.sampleEnv "u6" 2)
       (.append Journal.sampleOwner "e1" (.lifecycle ⟨.paused, .absent⟩))]

def pausedJournal : Journal.System :=
  (Journal.System.initial.exec Journal.sampleDigest pausedActions).2

/-- The server while this run runs. -/
def pausedServer : Database :=
  serve platform [create, ready, assign "run" "e4", report "run" 100 .started "e5"] .empty

def deliver (row : Journal.EventRow) : Delivery :=
  { computerId := "node1", closed := false, frame := storedFrame "node1" row, actorUserId := "u1",
    input := fun _ => clock, hookInput := fun _ => clock }

theorem pausedJournal_run : ∃ trace, Journal.System.Run Journal.sampleDigest trace .initial pausedJournal := by
  have checks : Journal.allowed Journal.sampleDigest "run" .initial pausedActions = true := by
    decide +kernel
  exact ⟨_, Journal.exec_run pausedActions checks⟩

theorem stored_row_answered_output : ∃ row ∈ pausedJournal.db.outbox "run",
    ∃ status, (receive platform (deliver row) pausedServer).1 = [(deliver row).ack status] := by
  obtain ⟨trace, run⟩ := pausedJournal_run
  have output : ∃ row ∈ pausedJournal.db.outbox "run", row.runId ≠ "" ∧
      outsideCore row.content = false ∧ (deliver row).received pausedServer = true := by
    decide +kernel
  obtain ⟨row, stored, named, inside, received⟩ := output
  exact ⟨row, stored, (stored_row_answered run stored ⟨by decide, named⟩ rfl received).mpr inside⟩

theorem paused_row_dropped :
    ¬ ∀ trace (s : Journal.System) runId row, Journal.System.Run Journal.sampleDigest trace .initial s →
      row ∈ s.db.outbox runId → ∀ requests db, Path (Step platform) requests .empty db →
        (deliver row).received db →
          ∃ status, (receive platform (deliver row) db).1 = [(deliver row).ack status] := by
  intro claimed
  obtain ⟨trace, run⟩ := pausedJournal_run
  have paused : ∃ row ∈ pausedJournal.db.outbox "run", (deliver row).received pausedServer = true ∧
      (receive platform (deliver row) pausedServer).1 = [] := by decide +kernel
  obtain ⟨row, stored, received, acks⟩ := paused
  obtain ⟨status, answered⟩ := claimed trace _ "run" row run stored _ pausedServer path_serve received
  rw [acks] at answered
  cases answered

end Artoo.Server
