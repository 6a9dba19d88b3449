import Artoo.Lib.Path
import Artoo.Journal.Preservation

/-! What a run keeps from one state to any later one. -/
namespace Artoo.Journal
open Artoo.Protocol Artoo.Lib

/-- The run a fresh admission writes. -/
def Cell.admitted (input : AdmitInput) (incarnation : String) : Cell :=
  { row := { runId := input.runId, mode := input.mode, launchKey := some input.key,
             canonicalPayload := some input.canonical, ownerNonce := some input.nonce,
             ownerIncarnation := some incarnation, phase := .admitted, stopRequested := false }
    receipt := none
    rows := [] }

/-- The permanent fence a stop writes for an unknown run. -/
def Cell.fenced (runId : String) (key : Option String) (receipt : ReceiptRow) : Cell :=
  { row := { runId := runId, mode := .fenced, launchKey := key, canonicalPayload := none,
             ownerNonce := none, ownerIncarnation := none, phase := .closed, stopRequested := true,
             receiptId := some receipt.id }
    receipt := some receipt
    rows := [] }

theorem Cell.admitted_inv (digest : NodeRunEvent → String) {input : AdmitInput}
    (incarnation : String) (named : input.key ≠ "") :
    (Cell.admitted input incarnation).Inv digest where
  sequences := rfl
  eventIds := List.nodup_nil
  runIds _ member := nomatch member
  each _ member := nomatch member
  committedCount := rfl
  supersededCount := rfl
  claimOrder _ member := nomatch member
  stage := .open_
    { phase := nofun, key := ⟨input.key, rfl, named⟩, outcome := rfl, revision := rfl,
      correction := rfl, started := nofun, unstarted := fun _ => ⟨rfl, rfl⟩,
      events := fun _ member => nomatch member
      abort := fun _ member => nomatch member
      serial := fun _ member => nomatch member
      backlog := Nat.zero_le (maxBacklog - 4), range := Nat.zero_le (maxSequence - 3) }

theorem Cell.fenced_inv (digest : NodeRunEvent → String) (runId : String) (key : Option String)
    {receipt : ReceiptRow} (kind : receipt.kind = .notStartedFenced ∨ receipt.kind = .runFencedUnbound) :
    (Cell.fenced runId key receipt).Inv digest where
  sequences := rfl
  eventIds := List.nodup_nil
  runIds _ member := nomatch member
  each _ member := nomatch member
  committedCount := rfl
  supersededCount := rfl
  claimOrder _ member := nomatch member
  stage := .fenced ⟨rfl, rfl, rfl, rfl, rfl, rfl, rfl, rfl, ⟨receipt, rfl, rfl, kind⟩, rfl⟩

/-- What any later state of the same run still has. -/
structure Forward (c c' : Cell) : Prop where
  runId : c'.row.runId = c.row.runId
  launchKey : c'.row.launchKey = c.row.launchKey
  ownerNonce : c'.row.ownerNonce = c.row.ownerNonce
  ownerIncarnation : c'.row.ownerIncarnation = c.row.ownerIncarnation
  phase : c.row.phase.rank ≤ c'.row.phase.rank
  stop : c.row.stopRequested = true → c'.row.stopRequested = true
  revision : c.row.deliveryRevision = .one → c'.row.deliveryRevision = .one
  abort : ∀ cause, c.row.liveAbort = some cause → c'.row.liveAbort = some cause
  outcome : ∀ outcome, c.row.finalOutcome = some outcome → c'.row.finalOutcome = some outcome
  correction : ∀ saved, c.row.deliveryCorrection = some saved →
    c'.row.deliveryCorrection = some saved
  rows : ∀ e ∈ c.rows, ∃ e' ∈ c'.rows, Ages e e'

namespace Forward

variable {c c' c'' : Cell}

theorem refl (c : Cell) : Forward c c :=
  ⟨rfl, rfl, rfl, rfl, le_rfl, id, id, fun _ h => h, fun _ h => h, fun _ h => h,
    fun e member => ⟨e, member, Ages.refl e⟩⟩

theorem trans (first : Forward c c') (last : Forward c' c'') : Forward c c'' where
  runId := last.runId.trans first.runId
  launchKey := last.launchKey.trans first.launchKey
  ownerNonce := last.ownerNonce.trans first.ownerNonce
  ownerIncarnation := last.ownerIncarnation.trans first.ownerIncarnation
  phase := first.phase.trans last.phase
  stop h := last.stop (first.stop h)
  revision h := last.revision (first.revision h)
  abort cause h := last.abort cause (first.abort cause h)
  outcome o h := last.outcome o (first.outcome o h)
  correction saved h := last.correction saved (first.correction saved h)
  rows e member := by
    obtain ⟨e', member', older⟩ := first.rows e member
    obtain ⟨e'', member'', oldest⟩ := last.rows e' member'
    exact ⟨e'', member'', older.trans oldest⟩

theorem closed (h : Forward c c') (closed : c.row.phase = .closed) : c'.row.phase = .closed := by
  have rank := h.phase
  rw [closed] at rank
  cases phase : c'.row.phase <;> simp [phase, DurablePhase.rank] at rank ⊢

end Forward

/-- A rewritten row ages and every other row stays. -/
theorem Retouch.image {digest : NodeRunEvent → String} {c : Cell} {target : EventRow}
    {set : EventRow → EventRow} {n : Nat} (h : Retouch c target set n)
    (inv : LogInv digest c.row c.rows) {e : EventRow} (member : e ∈ c.rows) :
    ∃ e' ∈ (c.retouched target set n).rows, Ages e e' := by
  by_cases hit : e.sequence = target.sequence
  · obtain rfl := inv.same_of_sequence member h.member hit
    exact ⟨set e, (h.mem_rows inv).mpr (.inl rfl), h.ages⟩
  · exact ⟨e, (h.mem_rows inv).mpr (.inr ⟨member, hit⟩), Ages.refl e⟩

theorem Retouch.forward {digest : NodeRunEvent → String} {c : Cell} {target : EventRow}
    {set : EventRow → EventRow} {n : Nat} (h : Retouch c target set n)
    (inv : LogInv digest c.row c.rows) : Forward c (c.retouched target set n) :=
  { Forward.refl c with rows := fun _ member => h.image inv member }

theorem EventRow.retire_ages (obsolete : Bool) (e : EventRow) : Ages e (e.retire obsolete) :=
  { Ages.refl e with superseded := fun gone => by simp [retire, gone] }

/-- A correction is created where there is none. -/
theorem Cell.corrected_forward (digest : NodeRunEvent → String) {c : Cell}
    (correction : c.row.deliveryCorrection = none)
    (outcome : FinalOutcome) (trigger : CorrectionTrigger) :
    Forward c (c.corrected digest outcome trigger) :=
  { Forward.refl c with
    revision := fun _ => rfl
    correction := fun saved h => by simp [correction] at h
    rows := fun e member => ⟨e.retire (c.obsolete e),
      List.mem_append_left _ (List.mem_map.mpr ⟨e, member, rfl⟩), e.retire_ages _⟩ }

theorem Step.forward {digest : NodeRunEvent → String} {l : Label} {c c' : Cell}
    (inv : c.Inv digest) (step : Step digest l c c') : Forward c c' := by
  cases step with
  | stop fresh => exact { Forward.refl c with stop := fun _ => rfl }
  | advance next running =>
    exact { Forward.refl c with phase := (Cell.nextPhase_open next).2.2.2.2.le }
  | launch phase kind => exact { Forward.refl c with phase := by simp [Cell.launched, phase, DurablePhase.rank] }
  | settle phase kind abort fresh =>
    have run := inv.open_of_phase (by rcases phase with h | h <;> simp [h])
    exact { Forward.refl c with
      phase := by cases h : c.row.phase <;> simp [Cell.settled, DurablePhase.rank]
      stop := fun _ => rfl
      outcome := fun o h => by simp [run.outcome] at h
      rows := fun e member => ⟨e, List.mem_append_left _ member, Ages.refl e⟩ }
  | append phase abort backlog range unused reserved body =>
    exact { Forward.refl c with
      rows := fun e member => ⟨e, List.mem_append_left _ member, Ages.refl e⟩ }
  | clockLost => exact { Forward.refl c with }
  | abort phase first =>
    exact { Forward.refl c with
      stop := fun _ => rfl
      abort := fun cause h => by simp [first] at h }
  | report state => exact { Forward.refl c with }
  | claim gate time named fresh pending => exact (Cell.claimed_retouch gate).forward inv.toLogInv
  | fail failing kept => exact (Cell.failed_retouch failing).forward inv.toLogInv
  | correct failing active phase outcomeIs path =>
    obtain ⟨-, key, closure, history, run⟩ := inv.settled_of_path outcomeIs path
    have failed : Forward c (c.failed _ _ _ true) :=
      (Cell.failed_retouch failing).forward inv.toLogInv
    refine failed.trans (Cell.corrected_forward digest ?_ _ _)
    exact run.correction
  | accept member claimed => exact (Cell.accepted_retouch member).forward inv.toLogInv

/-- A closed run without an outstanding row. -/
structure Delivered (c : Cell) : Prop where
  closed : c.row.phase = .closed
  done : ∀ e ∈ c.rows, e.active = false

/-- Labels that send or repeat anything. -/
def Label.sends : Label → Bool
  | .claim .. | .correct .. => true
  | _ => false

theorem Retouch.delivered {digest : NodeRunEvent → String} {c : Cell} {target : EventRow}
    {set : EventRow → EventRow} {n : Nat} (h : Retouch c target set n)
    (inv : LogInv digest c.row c.rows) (delivered : Delivered c) :
    Delivered (c.retouched target set n) where
  closed := delivered.closed
  done e member := by
    obtain ⟨x, hx, ages, -⟩ := h.source inv member
    exact Bool.eq_false_iff.mpr fun active => by
      simpa [delivered.done x hx] using ages.active active

/-- Delivered is absorbing, and nothing is sent from it. -/
theorem Step.delivered {digest : NodeRunEvent → String} {l : Label} {c c' : Cell}
    (inv : c.Inv digest) (delivered : Delivered c) (step : Step digest l c c') :
    Delivered c' ∧ l.sends = false := by
  cases step with
  | stop fresh => exact absurd delivered.closed (inv.open_of_running fresh).phase
  | advance next running => exact absurd delivered.closed (Cell.nextPhase_open next).1
  | launch phase kind =>
    have closed := delivered.closed
    simp [phase] at closed
  | settle phase kind abort fresh =>
    have closed := delivered.closed
    rcases phase with h | h <;> simp [h] at closed
  | append phase abort backlog range unused reserved body => exact absurd delivered.closed phase
  | clockLost => exact ⟨⟨delivered.closed, delivered.done⟩, rfl⟩
  | abort phase first => exact absurd delivered.closed phase
  | report state => exact ⟨⟨delivered.closed, delivered.done⟩, rfl⟩
  | claim gate time named fresh pending =>
    simpa [gate.active] using delivered.done _ gate.member
  | fail failing kept => exact ⟨(Cell.failed_retouch failing).delivered inv.toLogInv delivered, rfl⟩
  | correct failing active phase outcomeIs path =>
    simpa [active] using delivered.done _ failing.member
  | accept member claimed =>
    exact ⟨(Cell.accepted_retouch member).delivered inv.toLogInv delivered, rfl⟩

end Artoo.Journal
