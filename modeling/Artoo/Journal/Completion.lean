import Artoo.Journal.Outbox
import Artoo.Journal.Provenance

/-! The gate before a completed terminal event, and the one correction that replaces it. -/
namespace Artoo.Journal
open Artoo.Protocol Artoo.Lib

def EventRole.correction : EventRole → Bool
  | .correctionRetention | .correctionTerminal => true
  | _ => false

variable {w : Worker} {digest : NodeRunEvent → String} {c c' : Cell} {target : EventRow} {now : Nat}

theorem Ordinary.incomplete {e : EventCore} (ordinary : Ordinary e) :
    completedContent e.content = false := by
  have body := ordinary.body
  unfold completedContent
  split
  next payload same =>
    rw [same] at body
    cases phase : payload.phase <;> simp [settlementBody, phase, LifecyclePhase.terminal] at body ⊢
  next => rfl

/-- A row is appended by the producer or is a settlement or correction row. -/
theorem CorrectedRun.core_cases {key : String} {outcome : FinalOutcome} {closure : ReceiptRow}
    {history : List EventCore} (run : CorrectedRun digest c key outcome closure history)
    {e : EventRow} (member : e ∈ c.rows) :
    Ordinary e.core ∨
      (∃ suffix, e.core = settlementCore digest c.row.runId key history.length outcome suffix) ∨
      ∃ suffix, e.core =
        correctionCore digest c.row.runId closure.id (history.length + 2) outcome suffix := by
  have listed : e.core ∈ c.rows.map EventRow.core := List.mem_map_of_mem member
  rw [run.cores] at listed
  rcases List.mem_append.mp listed with before | corrected
  · rcases List.mem_append.mp before with old | settled
    · exact .inl (run.ordinary _ old)
    · obtain ⟨suffix, -, same⟩ := List.mem_map.mp settled
      exact .inr (.inl ⟨suffix, same.symm⟩)
  · obtain ⟨suffix, -, same⟩ := List.mem_map.mp corrected
    exact .inr (.inr ⟨suffix, same.symm⟩)

/-! ### The gate of one run -/

/-- Everything below `sequence` is acknowledged, the retention row too, and nothing was corrected. -/
structure Cell.Ready (c : Cell) (sequence : Nat) : Prop where
  revision : c.row.deliveryRevision = .zero
  committed : ∀ e ∈ c.rows, e.sequence < sequence → e.committed = true
  retention : ∃ e ∈ c.rows, e.role = .originalRetention ∧ e.sequence < sequence

/-- A completed terminal event passes the gate only when its run is ready for it. -/
theorem Gate.completed (gate : Gate c target now) (inv : c.Inv digest)
    (completed : completedContent target.content = true) : c.Ready target.sequence := by
  cases inv.stage with
  | open_ run =>
    have incomplete := (run.events target gate.member).1.incomplete
    simp [EventRow.core, completed] at incomplete
  | fenced run =>
    have member := gate.member
    rw [run.rows] at member
    cases member
  | @settled key outcome closure history run =>
    rcases Cell.core_cases run.toUncorrectedRun gate.member with ordinary | ⟨suffix, same⟩
    · have incomplete := ordinary.incomplete
      simp [EventRow.core, completed] at incomplete
    · have content := congrArg EventCore.content same
      have sequence := congrArg EventCore.sequence same
      cases suffix with
      | retained =>
        simp only [EventRow.core, settlementCore] at content
        simp [content, completedContent] at completed
      | terminal =>
        simp only [EventRow.core, settlementCore] at content sequence
        rw [content] at completed
        have path : completedPath c.row = true := by
          simpa [completedPath, run.revision, run.finalOutcome, completedContent] using completed
        refine ⟨run.revision, gate.serial (.inr path), ?_⟩
        have listed : settlementCore digest c.row.runId key history.length outcome .retained ∈
            c.rows.map EventRow.core := by
          rw [run.cores]
          exact List.mem_append_right _ (List.mem_map_of_mem (by decide))
        obtain ⟨e, member, core⟩ := List.mem_map.mp listed
        have before : e.sequence = history.length + Suffix.index .retained :=
          congrArg EventCore.sequence core
        refine ⟨e, member, congrArg EventCore.role core, ?_⟩
        simp only [Suffix.index] at before sequence
        omega
  | @corrected key outcome closure history run =>
    have role := run.retired target gate.member gate.active
    rcases run.core_cases gate.member with ordinary | ⟨suffix, same⟩ | ⟨suffix, same⟩
    · have event : target.role = .event := ordinary.role
      simp [event] at role
    · have original : target.role = originalRole suffix := congrArg EventCore.role same
      cases suffix <;> simp [original, originalRole] at role
    · have content : target.content = correctionContent outcome suffix :=
        congrArg EventCore.content same
      cases suffix <;> simp [content, correctionContent, completedContent] at completed

/-- Once a run is corrected only its correction rows pass the gate. -/
theorem Gate.corrected (gate : Gate c target now) (inv : c.Inv digest)
    (revision : c.row.deliveryRevision = .one) : target.role.correction = true := by
  cases inv.stage with
  | open_ run => simp [run.revision] at revision
  | fenced run => simp [run.revision] at revision
  | settled run => simp [run.revision] at revision
  | corrected run =>
    rcases run.retired target gate.member gate.active with role | role <;>
      simp [role, EventRole.correction]

/-- The two correction rows exist exactly at revision 1. -/
theorem Cell.Inv.corrections (inv : c.Inv digest) :
    c.rows.countP (·.role.correction) = if c.row.deliveryRevision = .one then 2 else 0 := by
  have counted : c.rows.countP (·.role.correction) =
      (c.rows.map EventRow.core).countP (·.role.correction) := by
    rw [List.countP_map]
    rfl
  have ordinary : ∀ {history : List EventCore}, (∀ e ∈ history, Ordinary e) →
      history.countP (·.role.correction) = 0 := fun each =>
    List.countP_eq_zero.mpr fun e member => by simp [(each e member).role, EventRole.correction]
  rw [counted]
  cases inv.stage with
  | open_ run =>
    rw [run.revision]
    refine ordinary fun e listed => ?_
    obtain ⟨x, hx, rfl⟩ := List.mem_map.mp listed
    exact (run.events x hx).1
  | fenced run => simp [run.rows, run.revision]
  | settled run =>
    rw [run.cores, List.countP_append, ordinary run.ordinary, run.revision]
    rfl
  | corrected run =>
    rw [run.cores, List.countP_append, List.countP_append, ordinary run.ordinary, run.revision]
    rfl

/-! ### The gate of one call -/

theorem Cell.Ready.claimed (gate : Gate c target now) (inv : c.Inv digest) {sequence : Nat}
    {attempt : Attempt} (time : attempt.claimedTickMs = now) {clockId : Option String}
    (ready : c.Ready sequence) :
    (c.claimed target attempt (target.deadlineTickMs.getD (now + receiptWindowMs)) clockId).Ready
      sequence := by
  subst time
  have retouch := @claimed_retouch c target attempt clockId gate
  refine ⟨ready.revision, fun e' member before => ?_, ?_⟩
  · obtain ⟨e, old, ages, -⟩ := retouch.source inv.toLogInv member
    exact ages.committed (ready.committed e old (ages.sequence ▸ before))
  · obtain ⟨e, old, role, before⟩ := ready.retention
    obtain ⟨e', member, ages⟩ := retouch.image inv.toLogInv old
    exact ⟨e', member, ages.role.trans role, ages.sequence ▸ before⟩

/-- Quiet steps acknowledge nothing, so a run they make ready was ready before. -/
theorem Cell.Ready.before {ls : List Label} {sequence : Nat} (ready : c'.Ready sequence)
    (path : Path (Step digest) ls c c') (quiet : ∀ l ∈ ls, l.quiet = true) (inv : c.Inv digest) :
    c.Ready sequence := by
  have inv' := path_inv path inv
  have forward := path_forward path inv
  -- A row that is committed afterwards is committed by an attempt that was accepted before.
  have acknowledged : ∀ e' ∈ c'.rows, e'.committed = true →
      ∃ e ∈ c.rows, e.core = e'.core ∧ e.committed = true := by
    intro e' member done
    obtain ⟨a', attempted, accepted⟩ := (inv'.each e' member).committed.mp done
    rcases path_traced path inv e' member a' attempted with
      ⟨e, old, core, a, was, -, before⟩ | ⟨⟨now, claimed⟩, -⟩
    · rcases before accepted with same | here
      · exact ⟨e, old, core, (inv.each e old).committed.mpr ⟨a, was, same⟩⟩
      · cases quiet _ here
    · cases quiet _ claimed
  refine ⟨?_, fun e member before => ?_, ?_⟩
  · cases revision : c.row.deliveryRevision with
    | zero => rfl
    | one => exact absurd (ready.revision.symm.trans (forward.revision revision)) (by decide)
  · obtain ⟨e', member', ages⟩ := forward.rows e member
    have done := ready.committed e' member' (ages.sequence.symm ▸ before)
    obtain ⟨x, hx, core, committed⟩ := acknowledged e' member' done
    have same : x.sequence = e.sequence :=
      (congrArg EventCore.sequence core).trans ages.sequence
    exact inv.same_of_sequence hx member same ▸ committed
  · obtain ⟨e', member', role, before⟩ := ready.retention
    obtain ⟨e, member, core, -⟩ := acknowledged e' member' (ready.committed e' member' before)
    exact ⟨e, member, (congrArg EventCore.role core).trans role,
      (congrArg EventCore.sequence core).trans_lt before⟩

/-- A granted completed event finds its run ready before and after the call. -/
theorem Grant.completed {claim : DeliveryClaim} {c₁ : Cell} (grant : Grant w claim c c₁ c' target)
    (inv : c.Inv w.digest) (completed : completedContent claim.event.content = true) :
    c.Ready claim.event.sequence ∧ c'.Ready claim.event.sequence := by
  rw [grant.event] at completed ⊢
  have ready := grant.gate.completed (grant.inv inv) completed
  obtain ⟨ms, quiet, path⟩ := grant.before
  obtain ⟨revision, rfl⟩ := grant.written
  refine ⟨ready.before path quiet inv, ?_⟩
  rw [grant.deadline]
  exact ready.claimed grant.gate (path_inv path inv) rfl

/-! ### Whole runs -/

/-- The run of the claim is ready for it, by receipts that the trace shows. -/
structure Ready (trace : List (Action × Observation)) (db : Database) (claim : DeliveryClaim) : Prop
    where
  revision : ∃ row, db.runs claim.event.runId = some row ∧ row.deliveryRevision = .zero
  committed : ∀ e ∈ db.outbox claim.event.runId, e.sequence < claim.event.sequence →
    e.committed = true ∧ ∃ a ∈ e.attempts, a.accepted = true ∧ Attested trace e a
  retention : ∃ e ∈ db.outbox claim.event.runId, e.role = .originalRetention ∧
    e.sequence < claim.event.sequence

variable {trace : List (Action × Observation)} {s t : System} {claim : DeliveryClaim}

theorem Ready.of_cell {db : Database} (stored : Stored digest db c)
    (names : claim.event.runId = c.row.runId) (ready : c.Ready claim.event.sequence)
    (attested : ∀ r, ∀ e ∈ db.outbox r, ∀ a ∈ e.attempts, Attested trace e a) :
    Ready trace db claim := by
  constructor
  · exact ⟨c.row, names ▸ stored.runs, ready.revision⟩
  · intro e member before
    have listed := member
    rw [names, stored.outbox] at listed
    have done := ready.committed e listed before
    obtain ⟨a, attempted, accepted⟩ := (stored.inv.each e listed).committed.mp done
    exact ⟨done, a, attempted, accepted, attested _ e member a attempted⟩
  · rw [names, stored.outbox]
    exact ready.retention

/-- The run, the row and the state of a granted claim. -/
theorem System.Step.granted {l : Action × Observation} (step : System.Step digest l s t)
    (inv : s.db.Inv digest) {call : Call} (shown : committed l = some call)
    (grants : call.reply.granted = some claim) :
    ∃ w c c₁ c' target, w.digest = digest ∧ w.hrtime = call.env.hrtime ∧ Stored digest s.db c ∧
      Stored digest t.db c' ∧ claim.event.runId = c.row.runId ∧ c'.row.runId = c.row.runId ∧
      Grant w claim c c₁ c' target := by
  cases step.acted inv with
  | idle db silent => simp [silent] at shown
  | @ran call' p tx shown' found ran effect =>
    obtain rfl := Option.some.inj (shown'.symm.trans shown)
    cases effect with
    | same absent reads unchanged ungranted => simp [ungranted] at grants
    | admitted command absent reply => simp [reply, Reply.granted] at grants
    | fenced command absent reply => simp [reply, Reply.granted] at grants
    | moved names stored account =>
      obtain ⟨c₁, target, grant, -⟩ := account.granted grants
      exact ⟨_, _, c₁, _, target, rfl, rfl, stored, account.moves.stored, grant.runId stored.inv,
        path_runId account.moves.path, grant⟩

/-- A completed event is claimed only at revision 0 with every earlier row, the retention row too,
acknowledged; a corrected run claims nothing but its two correction rows, which are written once. -/
theorem completed_delivery_gate (run : System.Run digest trace .initial s) :
    (∀ l t call claim, System.Step digest l s t → committed l = some call →
      call.reply.granted = some claim →
      (completedContent claim.event.content = true →
        Ready trace s.db claim ∧ Ready (trace ++ [l]) t.db claim) ∧
      ∀ row, t.db.runs claim.event.runId = some row → row.deliveryRevision = .one →
        claim.event.role.correction = true ∧ claim.event.superseded = false) ∧
    ∀ r row, s.db.runs r = some row →
      (s.db.outbox r).countP (·.role.correction) = (if row.deliveryRevision = .one then 2 else 0) ∧
      ∀ more t, System.Run digest more s t → ∃ row', t.db.runs r = some row' ∧
        (row.deliveryRevision = .one → row'.deliveryRevision = .one) ∧
        ∀ saved, row.deliveryCorrection = some saved → row'.deliveryCorrection = some saved := by
  have inv := System.reachable_inv run
  refine ⟨?_, ?_⟩
  · intro l t call claim step shown grants
    obtain ⟨w, c, c₁, c', target, rfl, -, stored, stored', names, same, grant⟩ :=
      step.granted inv shown grants
    refine ⟨fun completed => ?_, fun row found revision => ?_⟩
    · obtain ⟨before, after⟩ := grant.completed stored.inv completed
      exact ⟨.of_cell stored names before (System.run_attested run),
        .of_cell stored' (names.trans same.symm) after (System.run_attested (run.snoc step))⟩
    · obtain rfl : c'.row = row := by
        rw [names, ← same, stored'.runs] at found
        exact Option.some.inj found
      obtain ⟨_, rfl⟩ := grant.written
      rw [grant.event]
      exact ⟨grant.gate.corrected (grant.inv stored.inv) revision, target.current grant.gate.active⟩
  · intro r row found
    obtain ⟨c, rfl, rfl, stored, rows⟩ := System.reachable_cell run found
    refine ⟨rows ▸ stored.inv.corrections, fun more t onward => ?_⟩
    obtain ⟨c', stored', forward⟩ := System.run_later onward inv c stored
    exact ⟨c'.row, forward.runId ▸ stored'.runs, forward.revision, forward.correction⟩

def sampleScope : ClosedScope := ⟨"run", "key", some "u7"⟩

/-- A claim of the settled sample run and its accepted receipt. -/
def sampleDelivery (attempt receipt : String) (now sequence : Nat) (hash : String) : List Action :=
  [.call "first" (sampleEnv attempt now) (.delivery sampleScope .claim),
   .call "first" (sampleEnv receipt now)
    (.delivery sampleScope (.settle (.receipt sequence hash attempt .accepted)))]

/-- The settled sample run with everything but its terminal event acknowledged. -/
def sampleAcknowledged : List Action := sampleSettled ++ sampleDelivery "u8" "u9" 4 0 "sha256:a" ++
  sampleDelivery "u10" "u11" 5 1 "sha256:b" ++ sampleDelivery "u12" "u13" 6 2 "sha256"

theorem completed_delivery_gate_claimed :
    let before := System.initial.exec sampleDigest sampleAcknowledged
    let action := Action.call "first" (sampleEnv "u14" 7) (.delivery sampleScope .claim)
    ∃ call claim, committed (action, (before.2.step sampleDigest action).1) = some call ∧
      call.reply.granted = some claim ∧ completedContent claim.event.content = true ∧
      Ready before.1 before.2.db claim := by
  intro before action
  have checks : allowed sampleDigest "run" .initial sampleAcknowledged = true := by decide +kernel
  have check : action.allowed "run" before.2 = true := by decide +kernel
  have claimed : (committed (action, (before.2.step sampleDigest action).1)).any
      (fun call => call.reply.granted.any fun claim => completedContent claim.event.content) = true := by
    decide +kernel
  obtain ⟨call, shown, granted⟩ := (Option.any_eq_true _ _).mp claimed
  obtain ⟨claim, grants, completed⟩ := (Option.any_eq_true _ _).mp granted
  have run := exec_run _ checks
  have step : System.Step sampleDigest (action, (before.2.step sampleDigest action).1) before.2
      (before.2.step sampleDigest action).2 := ⟨(exec_solo _ (.initial _ _) checks).allowed check, rfl⟩
  exact ⟨call, claim, shown, grants, completed,
    (((completed_delivery_gate run).1 _ _ call claim step shown grants).1 completed).1⟩

end Artoo.Journal
