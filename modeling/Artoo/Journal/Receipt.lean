import Artoo.Journal.Claim

/-! Receipts and reported failures of claimed attempts, on a closed run and on a live one. -/
namespace Artoo.Journal
open Artoo.Protocol Artoo.Lib

variable {w : Worker} {db : Database} {c : Cell}

/-- What a receipt or failure may do to its run: quiet steps, and for an accepted receipt the
acknowledgement of exactly the row and attempt it names. -/
def Settle.Causes (s : Settle) (c : Cell) (l : Label) : Prop :=
  l.quiet = true ∨ l = .accept s.sequence s.attemptId ∧ s.accepted = true ∧
    ∃ e ∈ c.rows, e.sequence = s.sequence ∧ ∀ hash, s.hash = some hash → hash = e.contentSha256

/-- A deadline of the row that the accepted receipt checks. -/
theorem open_deadline {target : EventRow} {deadline : Nat}
    (due : (if (!target.committed && !target.superseded) = true then target.deadlineTickMs else none) =
      some deadline) : target.active = true ∧ target.deadlineTickMs = some deadline := by
  split at due
  · exact ⟨by assumption, due⟩
  · cases due

/-- The row a failure of the same call leaves behind. -/
theorem FailResult.row {target : EventRow} {attempt : Attempt} {reason : DeliveryFailureReason}
    {now : Nat} {db' : Database} {saved : List Attempt} {c' : Cell} {ls : List Label}
    (effect : FailResult w db c target attempt reason now db' saved c' ls)
    (inv : LogInv w.digest c.row c.rows) (member : target ∈ c.rows) :
    ∃ e ∈ c'.rows, e.core = target.core ∧ e.attempts = saved ∧
      saved.map (·.id) = target.attempts.map (·.id) := by
  have rewritten : ∀ {exhausted : Bool}, Failing c target attempt.id reason exhausted →
      { target with
        attempts := markFailure target.attempts attempt.id reason, exhausted := exhausted } ∈
      (c.failed target attempt.id reason exhausted).rows := fun failing =>
    ((Cell.failed_retouch failing).mem_rows inv).mpr (.inl rfl)
  cases effect with
  | kept => exact ⟨target, member, rfl, rfl, rfl⟩
  | failed failing late moves => exact ⟨_, rewritten failing, rfl, rfl, markFailure_ids _ _ _⟩
  | corrected failing revision moves =>
    refine ⟨_, List.mem_append_left _ (List.mem_map.mpr ⟨_, rewritten failing, rfl⟩), rfl, rfl, ?_⟩
    exact markFailure_ids _ _ _

theorem FailResult.moves {target : EventRow} {attempt : Attempt} {reason : DeliveryFailureReason}
    {now : Nat} {db' : Database} {saved : List Attempt} {c' : Cell} {ls : List Label}
    (effect : FailResult w db c target attempt reason now db' saved c' ls)
    (h : Stored w.digest db c) :
    Moves w.digest ls db c db' c' ∧ ∀ l ∈ ls, l.quiet = true := by
  cases effect with
  | kept => exact ⟨Moves.refl h, nofun⟩
  | failed failing late moves => exact ⟨moves, by simp [Label.quiet]⟩
  | corrected failing revision moves => exact ⟨moves, by simp [Label.quiet]⟩

/-- A commit addresses its row by run and sequence only. -/
theorem commit_congr {a b : EventRow} (core : a.core = b.core) (saved : List Attempt) :
    commitEvent (persistAttempts db a saved none) a =
      commitEvent (persistAttempts db b saved none) b := by
  obtain ⟨_, _, _, _, _, _⟩ := a
  obtain ⟨_, _, _, _, _, _⟩ := b
  cases core
  rfl

/-- What is known when an accepted receipt is about to be recorded. -/
structure Prepared (w : Worker) (db : Database) (c : Cell) (target : EventRow)
    (saved : List Attempt) (db' : Database) (c' : Cell) (ls : List Label) : Prop where
  moves : Moves w.digest ls db c db' c'
  quiet : ∀ l ∈ ls, l.quiet = true
  row : ∃ e ∈ c'.rows, e.core = target.core ∧ e.attempts = saved ∧
    saved.map (·.id) = target.attempts.map (·.id)

namespace Stored

/-- The timeout of an accepted receipt comes no earlier than the deadline it saw. -/
theorem beforeAccepted_spec (h : Stored w.digest db c) (last : Nat) {target : EventRow} {attempt : Attempt}
    {outcome : FinalOutcome} (member : target ∈ c.rows) (attempted : attempt ∈ target.attempts)
    (phase : c.row.phase = .closed) (outcomeIs : c.row.finalOutcome = some outcome)
    {healthy : Bool} (clocks : healthy = true → target.active = true →
      target.clockId = none ∨ target.clockId = w.clockId) :
    Ensures (External false)
      (fun result => ∃ c' ls, Prepared w db c target result.2 result.1.db c' ls)
      (beforeAccepted w ⟨db, last⟩ c.row healthy target target.attempts attempt) := by
  have nothing : Prepared w db c target target.attempts db c [] :=
    ⟨Moves.refl h, by simp, target, member, rfl, rfl, rfl⟩
  rw [beforeAccepted]
  split
  next =>
    obtain ⟨⟨view, db'⟩, viewed, c', ls, reported⟩ := h.deliveryView_spec.result
    simp only [viewed, ok_bind]
    exact ⟨c', ls, reported.moves, reported.quiet, target, reported.rows ▸ member, rfl, rfl, rfl⟩
  next steady =>
    split
    next => exact ⟨c, [], nothing⟩
    next deadline due =>
      obtain ⟨active, deadlineIs⟩ := open_deadline due
      refine (tickMs_spec w 0 last).bind fun first _ => ?_
      split
      next late =>
        have ordered : Ensures (External false) (fun second => first ≤ second) (tickMs w 1 first) := by
          simp only [tickMs]
          split
          next => exact ⟨rfl, by simp⟩
          next forwards =>
            rw [not_or, not_lt, not_lt] at forwards
            exact forwards.2
        refine ordered.bind fun second later => ?_
        have tried := List.ne_nil_of_mem attempted
        have timely : ¬ (DeliveryFailureReason.receiptTimeout = .receiptTimeout ∧
            tooEarly w target second) := by
          have known := ((h.inv.each target member).timed tried).2
          rintro ⟨-, unset | other | none | early⟩
          · simp [unset] at known
          · rcases clocks (by simpa using steady) active with unset | same
            · simp [unset] at known
            · exact other same
          · simp [deadlineIs] at none
          · simp only [deadlineIs, Option.getD_some] at early
            omega
        obtain ⟨db', saved, c', ls, failed, effect⟩ :=
          h.failAttempt_ok member attempted phase outcomeIs timely
        simp only [failed, ok_bind]
        obtain ⟨moves, quiet⟩ := effect.moves h
        exact ⟨c', ls, moves, quiet, effect.row h.inv.toLogInv member⟩
      next => exact ⟨c, [], nothing⟩

/-- The acknowledgement of the prepared row. -/
theorem prepared_accept {target : EventRow} {saved : List Attempt} {db' : Database} {c' : Cell}
    {ls : List Label} (prepared : Prepared w db c target saved db' c' ls) {attempt : Attempt}
    (attempted : attempt ∈ target.attempts) :
    ∃ c'', Moves w.digest (ls ++ [.accept target.sequence attempt.id]) db c
      (commitEvent (persistAttempts db' target (markAccepted saved attempt.id) none) target) c'' := by
  obtain ⟨e, member, core, rfl, ids⟩ := prepared.row
  have sequence : e.sequence = target.sequence := congrArg EventCore.sequence core
  have claimed : ∃ a ∈ e.attempts, a.id = attempt.id := by
    have listed : attempt.id ∈ e.attempts.map (·.id) := ids ▸ List.mem_map_of_mem attempted
    exact List.mem_map.mp listed
  have accepted := prepared.moves.stored.accept_moves member claimed
  rw [commit_congr core, sequence] at accepted
  exact ⟨_, prepared.moves.trans accepted⟩

end Stored

/-- The answer to a receipt or failure on a closed run. -/
structure Settled (w : Worker) (s : Settle) (db : Database) (c : Cell) (view : ClosedRunDeliveryView)
    (db' : Database) (c' : Cell) (ls : List Label) : Prop where
  moves : Moves w.digest ls db c db' c'
  causes : ∀ l ∈ ls, s.Causes c l
  describes : Describes view c'

/-- Every settle ends with a view of the run it leaves. -/
theorem Settled.of_view {s : Settle} {db₁ : Database} {c₁ : Cell} {ls : List Label}
    (moves : Moves w.digest ls db c db₁ c₁) (causes : ∀ l ∈ ls, s.Causes c l) :
    ∃ view db', deliveryView w db₁ (rerun db₁ c.row) = .ok (view, db') ∧
      ∃ c' ms, Settled w s db c view db' c' ms := by
  obtain ⟨⟨view, db'⟩, viewed, c', ms, reported⟩ := moves.stored.deliveryView_spec.result
  have rerun := moves.stored.rerun_eq c.row (path_runId moves.path).symm
  refine ⟨view, db', rerun ▸ viewed, c', ls ++ ms, moves.trans reported.moves, ?_, reported.describes⟩
  intro l member
  exact (List.mem_append.mp member).elim (causes l) fun later => .inl (reported.quiet l later)

/-- A receipt or failure is refused for a wrong identity, a backward clock or an early timeout. -/
theorem Stored.deliverySettle_spec (h : Stored w.digest db c) (last : Nat) (phase : c.row.phase = .closed)
    {outcome : FinalOutcome} (outcomeIs : c.row.finalOutcome = some outcome) (s : Settle) :
    Ensures (External (!s.accepted && s.reason == .receiptTimeout))
      (fun result => ∃ c' ls, Settled w s db c result.1 result.2.db c' ls)
      (deliverySettle w ⟨db, last⟩ c.row s) := by
  obtain ⟨events, read, of⟩ := h.events_ok
  simp only [deliverySettle, read, ok_bind]
  split
  next => exact ⟨rfl, nofun⟩
  next target found =>
    obtain ⟨member, sequence⟩ := h.of_findSequence found
    simp only [h.attempts_ok member, ok_bind]
    split
    next => exact ⟨rfl, nofun⟩
    next attempt known =>
      have attempted : attempt ∈ target.attempts := List.mem_of_find?_eq_some known
      have id : attempt.id = s.attemptId := by simpa using List.find?_some known
      simp only [h.event_ok member, ok_bind]
      split
      next => exact ⟨rfl, nofun⟩
      next identity =>
        have hash : ∀ hash, s.hash = some hash → hash = target.contentSha256 := by
          intro hash given
          simpa [given] using identity
        have clocks : (!c.row.deliveryClockUnknown && clockHealthy w events) = true →
            target.active = true → target.clockId = none ∨ target.clockId = w.clockId := by
          intro healthy active
          have listed := (of.mem_active active).mpr member
          exact (healthy_rows (Bool.and_eq_true_iff.mp healthy).2).2 target listed active
        by_cases accepted : s.accepted = true
        · simp only [if_pos accepted]
          refine ((h.beforeAccepted_spec last member attempted phase outcomeIs clocks).allow
            fun _ => External.mono).bind fun result prepared => ?_
          obtain ⟨c₁, ls, prepared⟩ := prepared
          obtain ⟨c₂, moves⟩ := prepared_accept prepared attempted
          have causes : ∀ l ∈ ls ++ [Label.accept target.sequence attempt.id], s.Causes c l := by
            intro l listed
            rcases List.mem_append.mp listed with early | final
            · exact .inl (prepared.quiet l early)
            · rw [List.mem_singleton.mp final, sequence, id]
              exact .inr ⟨rfl, accepted, target, member, sequence, hash⟩
          obtain ⟨view, db', viewed, c', ms, settled⟩ := Settled.of_view moves causes
          simp only [viewed, ok_bind]
          exact ⟨c', ms, settled⟩
        · simp only [if_neg accepted]
          split
          next =>
            obtain ⟨⟨view, db'⟩, viewed, c', ls, reported⟩ := h.deliveryView_spec.result
            simp only [viewed, ok_bind]
            exact ⟨c', ls, reported.moves, fun l listed => .inl (reported.quiet l listed),
              reported.describes⟩
          next =>
            refine ((tickMs_spec w 0 last).allow fun _ => External.mono).bind fun now _ => ?_
            by_cases early : s.reason = .receiptTimeout ∧ tooEarly w target now
            · have refused : failAttempt w db c.row target target.attempts attempt s.reason now =
                  .error .timeoutTooEarly := by
                rw [failAttempt]
                exact if_pos early
              simp only [refused, error_bind]
              exact ⟨rfl, fun _ => by simp [accepted, early.1]⟩
            · obtain ⟨db₁, saved, c₁, ls, failed, effect⟩ :=
                h.failAttempt_ok member attempted phase outcomeIs early
              obtain ⟨moves, quiet⟩ := effect.moves h
              obtain ⟨view, db', viewed, c', ms, settled⟩ :=
                Settled.of_view (s := s) moves fun l listed => .inl (quiet l listed)
              simp only [failed, viewed, ok_bind]
              exact ⟨c', ms, settled⟩

end Artoo.Journal
