import Artoo.Journal.Lifecycle

/-! Delivery of the outbox: receipts, failures, corrections and claims, live and closed. -/
namespace Artoo.Journal
open Artoo.Protocol Artoo.Lib

variable {w : Worker} {db : Database} {c : Cell}

/-- Labels that neither claim nor acknowledge. -/
def Label.quiet : Label → Bool
  | .claim .. | .accept .. => false
  | _ => true

/-- What a delivery view says of the run it reports. -/
structure Describes (view : ClosedRunDeliveryView) (c : Cell) : Prop where
  revision : view.revision = c.row.deliveryRevision
  state : view.state = .delivered ↔ c.outstanding = []
  column : c.row.deliveryState = view.state
  outcome : view.originalOutcome = c.row.finalOutcome
  correction : view.correction = c.row.deliveryCorrection
  committed : view.committed = c.row.committedCount
  superseded : view.superseded = c.row.supersededCount
  outstanding : view.outstanding = c.outstanding.length

/-- What the clock latch leaves alone. -/
structure Latch (c c' : Cell) (ls : List Label) : Prop where
  row : c'.row = { c.row with deliveryClockUnknown := c'.row.deliveryClockUnknown }
  rows : c'.rows = c.rows
  quiet : ∀ l ∈ ls, l.quiet = true

/-- What a report leaves: the described run with its rows. -/
structure Reported (w : Worker) (db : Database) (c : Cell) (view : ClosedRunDeliveryView)
    (db' : Database) (c' : Cell) (ls : List Label) : Prop where
  moves : Moves w.digest ls db c db' c'
  quiet : ∀ l ∈ ls, l.quiet = true
  rows : c'.rows = c.rows
  describes : Describes view c'

theorem deliveryState_delivered (unknown : Bool) (active : List EventRow) (corrected : Bool) :
    deliveryState unknown active corrected = .delivered ↔ active = [] := by
  cases active with
  | nil => simp [deliveryState]
  | cons e rest =>
    simp only [deliveryState, List.isEmpty_cons, Bool.false_eq_true, if_false, reduceCtorEq, iff_false]
    split_ifs <;> simp

namespace Stored

theorem checkEvents_ok (h : Stored w.digest db c) {events : List EventRow}
    (known : ∀ e ∈ events, e ∈ c.rows) : checkEvents w events = .ok () := by
  induction events with
  | nil => rfl
  | cons e rest ih =>
    have member := known e List.mem_cons_self
    have tail := ih fun x hx => known x (List.mem_cons_of_mem _ hx)
    simp only [checkEvents, h.event_ok member, h.attempts_ok member, tail, ok_bind]

theorem clockLost (h : Stored w.digest db c) :
    Moves w.digest [.clockLost] db c
      (db.updateRun c.row.runId ({ · with deliveryClockUnknown := true })) c.clockLost :=
  .of_step h.inv .clockLost (h.updateRun _ rfl rfl) (Frame.updateRun _)

theorem reported (h : Stored w.digest db c) (state : DeliveryState) :
    Moves w.digest [.report] db c
      (db.updateRun c.row.runId ({ · with deliveryState := state })) (c.reported state) :=
  .of_step h.inv (.report state) (h.updateRun _ rfl rfl) (Frame.updateRun _)

theorem latchClock (h : Stored w.digest db c) (latched : Bool) :
    ∃ c' ls, Moves w.digest ls db c (if latched then
        db.updateRun c.row.runId ({ · with deliveryClockUnknown := true }) else db) c' ∧
      Latch c c' ls := by
  cases latched with
  | false => exact ⟨c, [], Moves.refl h, rfl, rfl, nofun⟩
  | true => exact ⟨c.clockLost, _, h.clockLost, rfl, rfl, by simp [Label.quiet]⟩

/-- A view never fails, changes no row and describes the run it leaves. -/
theorem deliveryView_spec (h : Stored w.digest db c) :
    Ensures (fun _ => False) (fun result => ∃ c' ls, Reported w db c result.1 result.2 c' ls)
      (deliveryView w db c.row) := by
  obtain ⟨events, read, of⟩ := h.events_ok
  obtain ⟨c₁, ls, latched, latch⟩ := h.latchClock
    (!c.outstanding.isEmpty && !clockHealthy w c.outstanding)
  let state := deliveryState (c.row.deliveryClockUnknown ||
    (!c.outstanding.isEmpty && !clockHealthy w c.outstanding)) c.outstanding
    c.row.deliveryCorrection.isSome
  have runId : c₁.row.runId = c.row.runId := path_runId latched.path
  have moves := latched.trans (latched.stored.reported state)
  simp only [deliveryView, h.correction_ok, read, h.checkEvents_ok of.subset, of.active, ok_bind]
  refine ⟨c₁.reported state, ls ++ [.report], ?_, ?_, latch.rows, ?_⟩
  · rw [runId] at moves
    exact moves
  · intro l member
    rcases List.mem_append.mp member with early | last
    · exact latch.quiet l early
    · rw [List.mem_singleton.mp last]
      rfl
  · have outstanding : (c₁.reported state).outstanding = c.outstanding :=
      congrArg (·.filter EventRow.active) latch.rows
    have row := latch.row
    exact
      { revision := (congrArg RunRow.deliveryRevision row).symm
        state := outstanding ▸ deliveryState_delivered _ _ _
        column := rfl
        outcome := (congrArg RunRow.finalOutcome row).symm
        correction := (congrArg RunRow.deliveryCorrection row).symm
        committed := (congrArg RunRow.committedCount row).symm
        superseded := (congrArg RunRow.supersededCount row).symm
        outstanding := congrArg List.length outstanding.symm }

end Stored

/-! ### Attempt histories -/

theorem Held.persisted (h : Held db c) {target : EventRow} (runId : target.runId = c.row.runId)
    (saved : List Attempt) (exhausted : Option Bool) :
    Held (persistAttempts db target saved exhausted) (c.persisted target saved exhausted) := by
  rw [persistAttempts, runId]
  exact h.updateOutbox _ _

theorem Frame.persistAttempts {runId : String} {target : EventRow} (same : target.runId = runId)
    (saved : List Attempt) (exhausted : Option Bool) :
    Frame runId db (Journal.persistAttempts db target saved exhausted) := by
  rw [Journal.persistAttempts, same]
  exact Frame.updateOutbox _ _

namespace Stored

theorem fail_moves (h : Stored w.digest db c) {target : EventRow} {attemptId : String}
    {reason : DeliveryFailureReason} {exhausted : Bool}
    (failing : Failing c target attemptId reason exhausted)
    (kept : exhausted = true → target.active = true → MayExhaust c) :
    Moves w.digest [.fail target.sequence attemptId] db c
      (persistAttempts db target (markFailure target.attempts attemptId reason) (some exhausted))
      (c.failed target attemptId reason exhausted) :=
  have runId := h.inv.runIds target failing.member
  .of_step h.inv (.fail failing kept) (h.persisted runId _ _) (Frame.persistAttempts runId _ _)

theorem accept_moves (h : Stored w.digest db c) {target : EventRow} (member : target ∈ c.rows)
    {attemptId : String} (claimed : ∃ a ∈ target.attempts, a.id = attemptId) :
    Moves w.digest [.accept target.sequence attemptId] db c
      (commitEvent (persistAttempts db target (markAccepted target.attempts attemptId) none) target)
      (c.accepted target attemptId) := by
  have runId := h.inv.runIds target member
  let saved := markAccepted target.attempts attemptId
  let p : EventRow → Bool := fun e => e.sequence == target.sequence && !e.committed
  have held : Held (persistAttempts db target saved none) (c.persisted target saved none) :=
    h.persisted runId saved none
  have unique : ((c.persisted target saved none).rows.map EventRow.sequence).Nodup := by
    have same : (c.persisted target saved none).rows.map EventRow.sequence =
        c.rows.map EventRow.sequence := map_updateAt _ fun _ _ _ => rfl
    rw [same]
    exact h.inv.unique
  have written : { target with attempts := saved } ∈ (c.persisted target saved none).rows :=
    (mem_updateAt h.inv.unique member rfl).mpr (.inl rfl)
  have changed : (persistAttempts db target saved none).changes target.runId p =
      if target.committed then 0 else 1 := by
    rw [runId]
    refine (held.changes p).trans ((countP_key (fun e => !e.committed) unique written rfl).trans ?_)
    by_cases done : target.committed = true <;> simp [done]
  have rows : (c.persisted target saved none).rows.map
      (fun e => if p e then { e with committed := true } else e) = (c.accepted target attemptId).rows := by
    simp only [Cell.persisted, Cell.accepted, Cell.setAt, updateAt, List.map_map]
    refine List.map_congr_left fun e listed => ?_
    by_cases hit : e.sequence = target.sequence
    · obtain rfl := h.inv.same_of_sequence listed member hit
      by_cases done : e.committed = true <;> simp [p, done, saved]
    · simp [p, hit]
  have flagged := held.updateOutbox p ({ · with committed := true })
  rw [rows] at flagged
  have frame : Frame c.row.runId db (persistAttempts db target saved none) :=
    Frame.persistAttempts runId saved none
  apply Moves.of_step h.inv (.accept member claimed)
  · simp only [commitEvent]
    rw [changed, runId]
    by_cases done : target.committed = true
    · have cell : { c.persisted target saved none with rows := (c.accepted target attemptId).rows } =
          c.accepted target attemptId := by
        simp [Cell.persisted, Cell.accepted, Cell.setAt, done]
      rw [cell] at flagged
      rw [if_pos done, if_neg Nat.zero_ne_one]
      exact flagged
    · have counted := flagged.updateRun
        (fun row => { row with committedCount := row.committedCount + 1 }) rfl rfl
      have cell : Cell.withRow
          { c.persisted target saved none with rows := (c.accepted target attemptId).rows }
          (fun row => { row with committedCount := row.committedCount + 1 }) =
          c.accepted target attemptId := by
        simp [Cell.persisted, Cell.accepted, Cell.setAt, Cell.withRow, done]
      rw [cell] at counted
      rw [if_neg done, if_pos rfl]
      exact counted
  · simp only [commitEvent]
    rw [runId]
    split
    · exact (frame.trans (Frame.updateOutbox _ _)).trans (Frame.updateRun _)
    · exact frame.trans (Frame.updateOutbox _ _)

end Stored

end Artoo.Journal
