import Artoo.Journal.Integrity

/-! The counters kept beside the outbox, and the end of delivery. -/
namespace Artoo.Journal
open Artoo.Protocol Artoo.Lib

variable {digest : NodeRunEvent → String} {c c' : Cell} {ls : List Label}
  {trace : List (Action × Observation)} {s t : System}

/-- The settlement row that counts at a delivery revision. -/
def currentRole : Revision → Suffix → EventRole
  | .zero => originalRole
  | .one => correctionRole

theorem delivered_iff (rows : List EventRow) : (∀ e ∈ rows, e.active = false) ↔
    ∀ e ∈ rows, e.superseded = false → e.committed = true := by
  refine forall₂_congr fun e _ => ?_
  cases committed : e.committed <;> cases superseded : e.superseded <;>
    simp [EventRow.active, committed, superseded]

/-- The highest settlement rows of a delivered run are acknowledged. -/
theorem Delivered.current (delivered : Delivered c) (inv : c.Inv digest) {outcome : FinalOutcome}
    (outcomeIs : c.row.finalOutcome = some outcome) (suffix : Suffix) :
    ∃ e ∈ c.rows, e.role = currentRole c.row.deliveryRevision suffix ∧ e.committed = true := by
  have done := (delivered_iff c.rows).mp delivered.done
  cases inv.stage with
  | open_ run => exact absurd delivered.closed run.phase
  | fenced run => simp [run.outcome] at outcomeIs
  | @settled key other closure history run =>
    have listed : settlementCore digest c.row.runId key history.length other suffix ∈
        c.rows.map EventRow.core := by
      rw [run.cores]
      exact List.mem_append_right _ (List.mem_map_of_mem (by cases suffix <;> decide))
    obtain ⟨e, member, core⟩ := List.mem_map.mp listed
    refine ⟨e, member, ?_, done e member (run.kept e member)⟩
    rw [run.revision]
    exact congrArg EventCore.role core
  | @corrected key other closure history run =>
    have listed : correctionCore digest c.row.runId closure.id (history.length + 2) other suffix ∈
        c.rows.map EventRow.core := by
      rw [run.cores]
      exact List.mem_append_right _ (List.mem_map_of_mem (by cases suffix <;> decide))
    obtain ⟨e, member, core⟩ := List.mem_map.mp listed
    have role : e.role = correctionRole suffix := congrArg EventCore.role core
    refine ⟨e, member, ?_, done e member (run.current e member ?_)⟩
    · rw [run.revision]
      exact role
    · cases suffix
      · exact .inl role
      · exact .inr role

/-- Only a correction writes the revision and the record of the correction. -/
theorem Step.keeps_correction {l : Label} (step : Step digest l c c') (sends : l.sends = false) :
    c'.row.deliveryRevision = c.row.deliveryRevision ∧
      c'.row.deliveryCorrection = c.row.deliveryCorrection := by
  cases step <;> first | exact ⟨rfl, rfl⟩ | cases sends

theorem path_delivered (path : Path (Step digest) ls c c') (inv : c.Inv digest)
    (delivered : Delivered c) :
    Delivered c' ∧ c'.row.deliveryRevision = c.row.deliveryRevision ∧
      c'.row.deliveryCorrection = c.row.deliveryCorrection := by
  induction path with
  | nil s => exact ⟨delivered, rfl, rfl⟩
  | cons step _ ih =>
    obtain ⟨next, sends⟩ := step.delivered inv delivered
    obtain ⟨revision, correction⟩ := step.keeps_correction sends
    obtain ⟨last, revision', correction'⟩ := ih (step.inv inv) next
    exact ⟨last, revision'.trans revision, correction'.trans correction⟩

/-- No claim is granted for a delivered run. -/
theorem Grant.undelivered {w : Worker} {claim : DeliveryClaim} {c₁ : Cell} {target : EventRow}
    (grant : Grant w claim c c₁ c' target) (inv : c.Inv w.digest) : ¬ Delivered c := by
  intro delivered
  obtain ⟨ms, -, path⟩ := grant.before
  have rest := (path_delivered path inv delivered).1.done target grant.gate.member
  simp [grant.gate.active] at rest

/-! ### Whole runs -/

/-- A delivered run whose correction, or its absence, is final. -/
structure Finished (digest : NodeRunEvent → String) (r : String) (revision : Revision)
    (saved : Option DeliveryCorrection) (s : System) : Prop where
  inv : s.db.Inv digest
  run : ∃ c, Stored digest s.db c ∧ c.row.runId = r ∧ Delivered c ∧
    c.row.deliveryRevision = revision ∧ c.row.deliveryCorrection = saved

variable {r : String} {revision : Revision} {saved : Option DeliveryCorrection}

theorem Finished.step {l : Action × Observation} (finished : Finished digest r revision saved s)
    (step : System.Step digest l s t) : Finished digest r revision saved t := by
  obtain ⟨inv, c, stored, names, delivered, kept⟩ := finished
  refine ⟨step.inv inv, ?_⟩
  cases step.acted inv with
  | idle db silent => exact ⟨c, db ▸ stored, names, delivered, kept⟩
  | ran shown found ran effect =>
    obtain ⟨c', stored', rfl | ⟨ls, -, account⟩⟩ := effect.onward stored
    · exact ⟨c', stored', names, delivered, kept⟩
    · have path := account.moves.path
      obtain ⟨after, revision, correction⟩ := path_delivered path stored.inv delivered
      exact ⟨c', stored', (path_runId path).trans names, after, revision.trans kept.1,
        correction.trans kept.2⟩

theorem Finished.ungranted {l : Action × Observation} (finished : Finished digest r revision saved s)
    (step : System.Step digest l s t) {call : Call} {claim : DeliveryClaim}
    (shown : committed l = some call) (grants : call.reply.granted = some claim) :
    claim.event.runId ≠ r := by
  obtain ⟨inv, c, stored, names, delivered, -⟩ := finished
  obtain ⟨w, d, c₁, c', target, rfl, -, held, -, named, -, grant⟩ := step.granted inv shown grants
  intro same
  obtain rfl := stored.toHeld.unique held.toHeld (names.trans (same.symm.trans named))
  exact grant.undelivered held.inv delivered

/-- What a reported view says of the stored run. -/
structure Tells (view : ClosedRunDeliveryView) (row : RunRow) (rows : List EventRow) : Prop where
  committed : view.committed = row.committedCount
  superseded : view.superseded = row.supersededCount
  state : view.state = .delivered ↔ ∀ e ∈ rows, e.superseded = false → e.committed = true
  current : view.state = .delivered → ∀ suffix, ∃ e ∈ rows,
    e.role = currentRole row.deliveryRevision suffix ∧ e.committed = true

theorem System.Step.tells {l : Action × Observation} (step : System.Step digest l s t)
    (inv : s.db.Inv digest) {call : Call} {view : ClosedRunDeliveryView}
    (shown : committed l = some call) (report : call.reply.report = some view) :
    ∃ row, t.db.runs call.cmd.runId = some row ∧ Tells view row (t.db.outbox call.cmd.runId) := by
  cases step.acted inv with
  | idle db silent => simp [silent] at shown
  | @ran call' p tx shown' found ran effect =>
    obtain rfl := Option.some.inj (shown'.symm.trans shown)
    cases effect with
    | same absent reads unchanged ungranted stale unreported => simp [unreported] at report
    | admitted command absent reply => simp [reply, Reply.report] at report
    | fenced command absent reply => simp [reply, Reply.report] at report
    | @moved c c' ls names stored account reports live stale =>
      have stored' := account.moves.stored
      have named := (path_runId account.moves.path).trans names
      have tells := reports view report
      have forward := path_forward account.moves.path stored.inv
      obtain ⟨outcome, outcomeIs⟩ := tells.settled
      have state : view.state = .delivered ↔ ∀ e ∈ c'.rows, e.active = false := by
        rw [tells.state, Cell.outstanding, List.filter_eq_nil_iff]
        simp
      refine ⟨c'.row, named ▸ stored'.runs, tells.committed, tells.superseded, ?_, fun reached => ?_⟩
      · rw [← named, stored'.outbox, state, delivered_iff]
      · rw [← named, stored'.outbox]
        exact Delivered.current ⟨forward.closed tells.closed, state.mp reached⟩ stored'.inv
          (forward.outcome outcome outcomeIs)

/-- The counters count, a report says delivered exactly when no current row is unacknowledged, and
from then on nothing is corrected, claimed or outstanding again. -/
theorem durable_counters (run : System.Run digest trace .initial s) :
    (∀ r row, s.db.runs r = some row →
      row.committedCount = (s.db.outbox r).countP (·.committed) ∧
        row.supersededCount = (s.db.outbox r).countP (·.superseded)) ∧
    (∀ l t call view, System.Step digest l s t → committed l = some call →
      call.reply.report = some view →
      ∃ row, t.db.runs call.cmd.runId = some row ∧ Tells view row (t.db.outbox call.cmd.runId)) ∧
    ∀ r row, s.db.runs r = some row → row.phase = .closed →
      (∀ e ∈ s.db.outbox r, e.superseded = false → e.committed = true) →
      ∀ more t, System.Run digest more s t →
        (∃ row', t.db.runs r = some row' ∧ row'.deliveryRevision = row.deliveryRevision ∧
          row'.deliveryCorrection = row.deliveryCorrection) ∧
        (∀ e ∈ t.db.outbox r, e.superseded = false → e.committed = true) ∧
        ∀ l ∈ more, ∀ call claim, committed l = some call → call.reply.granted = some claim →
          claim.event.runId ≠ r := by
  have inv := System.reachable_inv run
  refine ⟨?_, fun l t call view step => step.tells inv, ?_⟩
  · intro r row found
    obtain ⟨c, rfl, rfl, stored, rows⟩ := System.reachable_cell run found
    exact rows ▸ ⟨stored.inv.committedCount, stored.inv.supersededCount⟩
  · intro r row found closed done more t onward
    obtain ⟨c, rfl, rfl, stored, rows⟩ := System.reachable_cell run found
    have delivered : Delivered c := ⟨closed, (delivered_iff _).mpr (rows ▸ done)⟩
    have later : ∀ {more t}, System.Run digest more s t →
        Finished digest c.row.runId c.row.deliveryRevision c.row.deliveryCorrection t :=
      fun onward => onward.invariant (P := Finished digest _ _ _) (fun _ _ _ h step => h.step step)
        ⟨inv, c, stored, rfl, delivered, rfl, rfl⟩
    obtain ⟨-, c', stored', names, delivered', revision, correction⟩ := later onward
    refine ⟨⟨c'.row, names ▸ stored'.runs, revision, correction⟩, ?_, ?_⟩
    · rw [← names, stored'.outbox]
      exact (delivered_iff _).mp delivered'.done
    · intro l member call claim shown grants
      obtain ⟨before, after, u, v, rfl, path, step, -⟩ := onward.of_mem member
      exact (later path).ungranted step shown grants

/-- The settled sample run with everything acknowledged, opened again by a second worker. -/
def sampleDelivered : List Action := sampleAcknowledged ++ sampleDelivery "u14" "u15" 7 3 "sha256" ++
  [.launch "second" (some "reboot") 0]

theorem durable_counters_delivered :
    let s := (System.initial.exec sampleDigest sampleDelivered).2
    let t := (s.step sampleDigest (.call "second" (sampleEnv "u16" 9)
      (.delivery sampleScope .claim))).2
    (∃ row, s.db.runs "run" = some row ∧ row.committedCount = 4 ∧ row.supersededCount = 0) ∧
      ∀ e ∈ t.db.outbox "run", e.superseded = false → e.committed = true := by
  intro s t
  have checks : allowed sampleDigest "run" .initial sampleDelivered = true := by decide +kernel
  have check : (Action.call "second" (sampleEnv "u16" 9) (.delivery sampleScope .claim)).allowed
      "run" s = true := by decide +kernel
  have counted : (s.db.outbox "run").countP (·.committed) = 4 ∧
      (s.db.outbox "run").countP (·.superseded) = 0 := by decide +kernel
  have closed : (s.db.runs "run").any (·.phase == .closed) = true := by decide +kernel
  have done : ∀ e ∈ s.db.outbox "run", e.superseded = false → e.committed = true := by
    decide +kernel
  obtain ⟨row, found, phase⟩ := (Option.any_eq_true _ _).mp closed
  have step : System.Step sampleDigest (_, _) s t :=
    ⟨(exec_solo _ (.initial _ _) checks).allowed check, rfl⟩
  obtain ⟨counts, -, final⟩ := durable_counters (exec_run _ checks)
  obtain ⟨committed, superseded⟩ := counts "run" row found
  refine ⟨⟨row, found, committed.trans counted.1, superseded.trans counted.2⟩, ?_⟩
  exact (final "run" row found (by simpa using phase) done _ t (.single step)).2.1

end Artoo.Journal
