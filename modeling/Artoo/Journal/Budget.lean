import Artoo.Journal.Completion

/-! The delivery budget of a row: one deadline, three attempts, one answer awaited at a time. -/
namespace Artoo.Journal
open Artoo.Protocol Artoo.Lib

variable {w : Worker} {digest : NodeRunEvent → String} {c c₁ c' : Cell} {target : EventRow}
  {claim : DeliveryClaim}

/-! ### One grant -/

/-- The columns a grant writes to its row. -/
def EventRow.granted (e : EventRow) (attempt : Attempt) (deadline : Nat) (clockId : Option String) :
    EventRow :=
  { e with attempts := e.attempts ++ [attempt], deadlineTickMs := some deadline, clockId := clockId }

/-- The rows after a grant: the claimed one and the others as they were. -/
theorem Grant.mem_rows (grant : Grant w claim c c₁ c' target) (inv : c.Inv w.digest) :
    ∃ attempt : Attempt, attempt.id = claim.attemptId ∧ ∀ e, e ∈ c'.rows ↔
      e = target.granted attempt claim.deadlineTickMs w.clockId ∨
        (e ∈ c₁.rows ∧ e.sequence ≠ target.sequence) := by
  obtain ⟨revision, rfl⟩ := grant.written
  refine ⟨newAttempt w revision (w.hrtime 0), grant.attemptId.symm, fun e => ?_⟩
  rw [grant.deadline]
  exact (@Cell.claimed_retouch c₁ target (newAttempt w revision (w.hrtime 0)) w.clockId
    grant.gate).mem_rows (grant.inv inv).toLogInv

/-- A row of the call's first state, when its claim is granted. -/
theorem Grant.target_of (grant : Grant w claim c c₁ c' target) (inv : c.Inv w.digest) {e : EventRow}
    (member : e ∈ c.rows) (same : e.sequence = target.sequence) : Ages e target := by
  obtain ⟨ms, -, path⟩ := grant.before
  obtain ⟨e', member', ages⟩ := (path_forward path inv).rows e member
  have hit : e'.sequence = target.sequence := ages.sequence.trans same
  exact (grant.inv inv).same_of_sequence member' grant.gate.member hit ▸ ages

/-- A first claim finds no attempt on its row. -/
theorem Grant.untried (grant : Grant w claim c c₁ c' target) (inv : c.Inv w.digest)
    (untried : ∀ e ∈ c.rows, e.sequence = target.sequence → e.attempts = []) :
    target.attempts = [] := by
  obtain ⟨ms, quiet, path⟩ := grant.before
  refine List.eq_nil_iff_forall_not_mem.mpr fun a attempted => ?_
  rcases path_traced path inv target grant.gate.member a attempted with
    ⟨e, member, core, a, was, -⟩ | ⟨⟨now, claimed⟩, -⟩
  · rw [untried e member (congrArg EventCore.sequence core)] at was
    cases was
  · cases quiet _ claimed

theorem Grant.open_ (grant : Grant w claim c c₁ c' target) : w.hrtime 0 < claim.deadlineTickMs := by
  rw [grant.deadline]
  cases deadline : target.deadlineTickMs with
  | none => simp [receiptWindowMs]
  | some d => exact grant.gate.deadline d deadline

/-- What a grant at `now` means for its row and its run. -/
structure Timely (db db' : Database) (now : Nat) (claim : DeliveryClaim) : Prop where
  kept : ∀ e ∈ db.outbox claim.event.runId, e.sequence = claim.event.sequence →
    ∀ d, e.deadlineTickMs = some d → claim.deadlineTickMs = d
  first : (∀ e ∈ db.outbox claim.event.runId, e.sequence = claim.event.sequence → e.attempts = []) →
    claim.deadlineTickMs = now + receiptWindowMs
  written : ∃ e ∈ db'.outbox claim.event.runId, e.sequence = claim.event.sequence ∧
    e.deadlineTickMs = some claim.deadlineTickMs
  open_ : now < claim.deadlineTickMs
  /-- no other attempt awaits its answer on a row still to be delivered -/
  resolved : ∀ e ∈ db'.outbox claim.event.runId, e.active = true → e.exhausted = false →
    ∀ a ∈ e.attempts, a.id ≠ claim.attemptId → a.resolved = true

theorem Grant.timely {db db' : Database} (grant : Grant w claim c c₁ c' target)
    (stored : Stored w.digest db c) (stored' : Stored w.digest db' c')
    (same : c'.row.runId = c.row.runId) : Timely db db' (w.hrtime 0) claim := by
  have inv := stored.inv
  have names : claim.event.runId = c.row.runId := grant.runId inv
  have sequence : claim.event.sequence = target.sequence := by rw [grant.event]; rfl
  have before : db.outbox claim.event.runId = c.rows := by rw [names, stored.outbox]
  have after : db'.outbox claim.event.runId = c'.rows := by rw [names, ← same, stored'.outbox]
  obtain ⟨attempt, id, rows⟩ := grant.mem_rows inv
  refine ⟨?_, ?_, ?_, grant.open_, ?_⟩
  · rw [before, sequence]
    intro e member hit d deadline
    rw [grant.deadline, (grant.target_of inv member hit).deadline d deadline]
    rfl
  · rw [before, sequence]
    intro untried
    have unset := (((grant.inv inv).each target grant.gate.member).untried (grant.untried inv untried)).1
    rw [grant.deadline, unset]
    rfl
  · rw [after, sequence]
    exact ⟨_, (rows _).mpr (.inl rfl), rfl, rfl⟩
  · rw [after]
    intro e member active fresh a attempted other
    rcases (rows e).mp member with rfl | ⟨old, -⟩
    · rcases List.mem_append.mp attempted with earlier | last
      · exact grant.gate.resolved target grant.gate.member grant.gate.active
          grant.gate.notExhausted a earlier
      · exact absurd (List.mem_singleton.mp last ▸ id) other
    · exact grant.gate.resolved e old active fresh a attempted

/-! ### Attempts of a row over a run -/

/-- The action grants a claim of the row. -/
def claims (r : String) (sequence : Nat) (l : Action × Observation) : Bool :=
  (committed l).any fun call => call.reply.granted.any fun claim =>
    claim.event.runId == r && claim.event.sequence == sequence

def tries (r : String) (sequence : Nat) (db : Database) : Nat :=
  ((db.findSequence r sequence).map (·.attempts.length)).getD 0

theorem tries_eq {db : Database} (stored : Stored digest db c) {e : EventRow} (member : e ∈ c.rows) :
    tries c.row.runId e.sequence db = e.attempts.length := by
  rw [tries, stored.toHeld.findSequence_eq stored.inv.toLogInv member]
  rfl

/-- A stored row belongs to the cell of its run. -/
theorem Database.Inv.row {db : Database} (inv : db.Inv digest) {r : String} {e : EventRow}
    (member : e ∈ db.outbox r) : ∃ c, c.row.runId = r ∧ Stored digest db c ∧ e ∈ c.rows := by
  cases known : db.runs r with
  | none =>
    rw [inv.empty r known] at member
    cases member
  | some row =>
    obtain ⟨c, rfl, rfl, stored⟩ := inv.stored r row known
    exact ⟨c, rfl, stored, stored.outbox ▸ member⟩

/-- A row that is not there has no attempts. -/
theorem tries_cases {db : Database} (inv : db.Inv digest) (r : String) (sequence : Nat) :
    tries r sequence db = 0 ∨ ∃ c, c.row.runId = r ∧ Stored digest db c ∧
      ∃ e ∈ c.rows, e.sequence = sequence ∧ tries r sequence db = e.attempts.length := by
  cases found : db.findSequence r sequence with
  | none => exact .inl (by simp [tries, found])
  | some e =>
    obtain ⟨c, rfl, stored, member⟩ := inv.row (List.mem_of_find?_eq_some found)
    exact .inr ⟨c, rfl, stored, e, member, by simpa using List.find?_some found, by simp [tries, found]⟩

theorem tries_le {db : Database} (inv : db.Inv digest) (r : String) (sequence : Nat) :
    tries r sequence db ≤ maxAttempts := by
  rcases tries_cases inv r sequence with none | ⟨c, -, stored, e, member, -, counted⟩
  · omega
  · have budget := (stored.inv.each e member).budget
    omega

theorem Ages.length {e e' : EventRow} (ages : Ages e e') : e.attempts.length ≤ e'.attempts.length := by
  simpa using ages.attempts.length_le

variable {trace : List (Action × Observation)} {s t : System}

/-- An action adds an attempt to a row only by granting its claim, and takes none away. -/
theorem System.Step.tries {l : Action × Observation} (step : System.Step digest l s t)
    (inv : s.db.Inv digest) (r : String) (sequence : Nat) :
    Journal.tries r sequence s.db + (if claims r sequence l then 1 else 0) ≤
      Journal.tries r sequence t.db := by
  by_cases claimed : claims r sequence l = true
  · obtain ⟨call, shown, granted⟩ := (Option.any_eq_true _ _).mp claimed
    obtain ⟨claim, grants, hit⟩ := (Option.any_eq_true _ _).mp granted
    simp only [Bool.and_eq_true, beq_iff_eq] at hit
    obtain ⟨rfl, rfl⟩ := hit
    obtain ⟨w, c, c₁, c', target, rfl, -, stored, stored', names, same, grant⟩ :=
      step.granted inv shown grants
    have target_sequence : claim.event.sequence = target.sequence := by rw [grant.event]; rfl
    obtain ⟨attempt, -, rows⟩ := grant.mem_rows stored.inv
    have after := tries_eq stored' ((rows _).mpr (.inl rfl))
    have length : (target.granted attempt claim.deadlineTickMs w.clockId).attempts.length =
        target.attempts.length + 1 := List.length_append
    have before : Journal.tries claim.event.runId claim.event.sequence s.db ≤
        target.attempts.length := by
      rcases tries_cases inv claim.event.runId claim.event.sequence with
        none | ⟨d, runId, held, e, member, sequence, counted⟩
      · omega
      · obtain rfl := held.toHeld.unique stored.toHeld (runId.trans names)
        have ages := grant.target_of stored.inv member (sequence.trans target_sequence)
        exact counted ▸ ages.length
    rw [if_pos claimed, names, target_sequence, ← same]
    rw [names, target_sequence, ← same] at before
    exact (Nat.add_le_add_right before 1).trans (length ▸ after).ge
  · rw [if_neg claimed, Nat.add_zero]
    rcases tries_cases inv r sequence with none | ⟨c, rfl, stored, e, member, rfl, counted⟩
    · omega
    · obtain ⟨c', stored', forward⟩ := step.later inv c stored
      obtain ⟨e', member', ages⟩ := forward.rows e member
      have after := tries_eq stored' member'
      rw [forward.runId, ages.sequence] at after
      rw [counted, after]
      exact ages.length

theorem System.run_claims (run : System.Run digest trace .initial s) (r : String) (sequence : Nat) :
    trace.countP (claims r sequence) ≤ maxAttempts := by
  have counted := run.count_le (P := fun u => u.db.Inv digest) (claims r sequence)
    (fun u => tries r sequence u.db) (fun _ _ _ inv step => step.inv inv)
    (fun _ _ _ inv step => step.tries inv r sequence) (Database.empty_inv digest)
  have bound := tries_le (System.reachable_inv run) r sequence
  omega

/-- The deadline of a row never moves, at most three attempts are claimed for it, every claim is
timely, and no call ends in a consistency error. -/
theorem delivery_budget (run : System.Run digest trace .initial s) :
    (∀ r, ∀ e ∈ s.db.outbox r, ∀ d, e.deadlineTickMs = some d →
      ∀ more t, System.Run digest more s t →
        ∃ e' ∈ t.db.outbox r, e'.sequence = e.sequence ∧ e'.deadlineTickMs = some d) ∧
    (∀ r sequence, trace.countP (claims r sequence) ≤ maxAttempts) ∧
    (∀ l t call claim, System.Step digest l s t → committed l = some call →
      call.reply.granted = some claim → Timely s.db t.db (call.env.hrtime 0) claim) ∧
    ∀ w last cmd e, w.digest = digest → FreshId s.db w.uuid → cmd.WellFormed →
      execute w ⟨s.db, last⟩ cmd = .error e →
      e.consistency = false ∧ (e = .timeoutTooEarly ∨ e = .liveTimeoutTooEarly → cmd.reported = true) := by
  have inv := System.reachable_inv run
  refine ⟨?_, System.run_claims run, ?_, ?_⟩
  · intro r e member d deadline more t onward
    obtain ⟨c, rfl, stored, listed⟩ := inv.row member
    obtain ⟨c', stored', forward⟩ := System.run_later onward inv c stored
    obtain ⟨e', member', ages⟩ := forward.rows e listed
    refine ⟨e', ?_, ages.sequence, ages.deadline d deadline⟩
    rw [← forward.runId, stored'.outbox]
    exact member'
  · intro l t call claim step shown grants
    obtain ⟨w, c, c₁, c', target, rfl, reading, stored, stored', -, same, grant⟩ :=
      step.granted inv shown grants
    exact reading ▸ grant.timely stored stored' same
  · rintro w last cmd e rfl fresh formed thrown
    have external := (execute_spec inv fresh last formed).of_error thrown
    exact ⟨external.consistency, external.timeout⟩

/-- Two attempts of the first event. The first one fails and is acknowledged all the same. -/
def sampleRetried : List Action := sampleStart ++ sampleAppends ++
  [.call "first" (sampleEnv "u7" 3) (.live sampleOwner .claim),
   .call "first" (sampleEnv "u8" 4) (.live sampleOwner (.failure 0 "u7" .transportFailure)),
   .call "first" (sampleEnv "u9" 5) (.live sampleOwner .claim),
   .call "first" (sampleEnv "u10" 6) (.live sampleOwner (.receipt 0 "sha256:a" "u7" .accepted))]

theorem delivery_budget_retried :
    let trace := (System.initial.exec sampleDigest sampleRetried).1
    trace.countP (claims "run" 0) = 2 ∧ trace.countP (claims "run" 0) ≤ maxAttempts := by
  have checks : allowed sampleDigest "run" .initial sampleRetried = true := by decide +kernel
  exact ⟨by decide +kernel, (delivery_budget (exec_run _ checks)).2.1 "run" 0⟩

/-- A claim is granted while the second attempt of an acknowledged row has no answer. -/
theorem claim_past_unanswered : ∃ trace s l t call claim,
    System.Run sampleDigest trace .initial s ∧ System.Step sampleDigest l s t ∧
      committed l = some call ∧ call.reply.granted = some claim ∧
      ∃ e ∈ s.db.outbox claim.event.runId, e ∈ t.db.outbox claim.event.runId ∧
        ∃ a ∈ e.attempts, a.resolved = false := by
  let before := System.initial.exec sampleDigest sampleRetried
  let action := Action.call "first" (sampleEnv "u11" 7) (.live sampleOwner .claim)
  have checks : allowed sampleDigest "run" .initial sampleRetried = true := by decide +kernel
  have check : action.allowed "run" before.2 = true := by decide +kernel
  have claimed : (committed (action, (before.2.step sampleDigest action).1)).any
      (fun call => call.reply.granted.any fun claim =>
        (before.2.db.outbox claim.event.runId).any fun e =>
          decide (e ∈ (before.2.step sampleDigest action).2.db.outbox claim.event.runId) &&
            e.attempts.any (!·.resolved)) = true := by decide +kernel
  obtain ⟨call, shown, granted⟩ := (Option.any_eq_true _ _).mp claimed
  obtain ⟨claim, grants, unanswered⟩ := (Option.any_eq_true _ _).mp granted
  obtain ⟨e, member, still⟩ := List.any_eq_true.mp unanswered
  obtain ⟨kept, pending⟩ := Bool.and_eq_true_iff.mp still
  obtain ⟨a, attempted, unresolved⟩ := List.any_eq_true.mp pending
  have step : System.Step sampleDigest (action, (before.2.step sampleDigest action).1) before.2
      (before.2.step sampleDigest action).2 := ⟨(exec_solo _ (.initial _ _) checks).allowed check, rfl⟩
  exact ⟨before.1, before.2, _, _, call, claim, exec_run _ checks, step, shown, grants, e, member,
    of_decide_eq_true kept, a, attempted, by simpa using unresolved⟩

end Artoo.Journal
