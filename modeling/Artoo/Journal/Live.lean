import Artoo.Journal.Receipt

/-! The live operations of a started run: abort, claim, receipt and failure. -/
namespace Artoo.Journal
open Artoo.Protocol Artoo.Lib

variable {w : Worker} {db : Database} {c : Cell}

/-- Quiet moves that leave the rows and the phase alone. -/
structure Prelude (w : Worker) (db : Database) (c : Cell) (db' : Database) (c' : Cell)
    (ls : List Label) : Prop where
  moves : Moves w.digest ls db c db' c'
  quiet : ∀ l ∈ ls, l.quiet = true
  rows : c'.rows = c.rows
  phase : c'.row.phase = c.row.phase

namespace Prelude

theorem refl (h : Stored w.digest db c) : Prelude w db c db c [] := ⟨Moves.refl h, nofun, rfl, rfl⟩

theorem trans {db' db'' : Database} {c' c'' : Cell} {ls ms : List Label}
    (first : Prelude w db c db' c' ls) (last : Prelude w db' c' db'' c'' ms) :
    Prelude w db c db'' c'' (ls ++ ms) where
  moves := first.moves.trans last.moves
  quiet l member := (List.mem_append.mp member).elim (first.quiet l) (last.quiet l)
  rows := last.rows.trans first.rows
  phase := last.phase.trans first.phase

end Prelude

namespace Stored

/-- The latch keeps a first cause and is set afterwards. -/
theorem latch_prelude (h : Stored w.digest db c) (opened : c.row.phase ≠ .closed) (value : RunRow)
    (runId : value.runId = c.row.runId) (abort : value.liveAbort = c.row.liveAbort)
    (cause : LiveDeliveryAbort) :
    ∃ c' ls, Prelude w db c (latchAbort db value cause) c' ls ∧ c'.row.liveAbort.isSome = true := by
  rw [latchAbort, abort, runId]
  cases latched : c.row.liveAbort with
  | some first => exact ⟨c, [], Prelude.refl h, by simp [latched]⟩
  | none =>
    have moves : Moves w.digest [.abort] db c
        (db.updateRun c.row.runId ({ · with liveAbort := some cause, stopRequested := true }))
        (c.aborted cause) :=
      .of_step h.inv (.abort opened latched) (h.updateRun _ rfl rfl) (Frame.updateRun _)
    exact ⟨c.aborted cause, _, ⟨moves, by simp [Label.quiet], rfl, rfl⟩, rfl⟩

theorem latch_rerun (h : Stored w.digest db c) (opened : c.row.phase ≠ .closed) {value : RunRow}
    (runId : value.runId = c.row.runId) (cause : LiveDeliveryAbort) :
    ∃ c' ls, Prelude w db c (latchAbort db (rerun db value) cause) c' ls ∧
      c'.row.liveAbort.isSome = true := by
  rw [h.rerun_eq value runId]
  exact h.latch_prelude opened c.row rfl rfl cause

/-- The durable clock latch with the abort it causes. -/
theorem unhealthy_prelude (h : Stored w.digest db c) (opened : c.row.phase ≠ .closed)
    (cause : LiveDeliveryAbort) :
    ∃ c' ls, Prelude w db c (latchAbort
      (db.updateRun c.row.runId ({ · with deliveryClockUnknown := true })) c.row cause) c' ls := by
  have lost : Prelude w db c _ c.clockLost [.clockLost] :=
    ⟨h.clockLost, by simp [Label.quiet], rfl, rfl⟩
  obtain ⟨c', ls, latched, -⟩ :=
    lost.moves.stored.latch_prelude opened c.row rfl rfl cause
  exact ⟨c', _, lost.trans latched⟩

/-- Both latches of a live receipt or failure. -/
theorem latchLive_prelude (h : Stored w.digest db c) (opened : c.row.phase ≠ .closed)
    (healthy expired : Bool) (target : EventRow) (attempt : Attempt) :
    ∃ c' ls, Prelude w db c (latchLive db c.row healthy expired target attempt) c' ls := by
  have clock : ∀ cause, ∃ c₁ ls, Prelude w db c (if healthy = true then db else latchAbort
      (db.updateRun c.row.runId ({ · with deliveryClockUnknown := true })) c.row cause) c₁ ls := by
    intro cause
    split
    · exact ⟨c, [], Prelude.refl h⟩
    · exact h.unhealthy_prelude opened cause
  obtain ⟨c₁, ls, first⟩ := clock
    (liveCause target attempt "clock_unknown" "Live delivery clock continuity is unknown")
  rw [latchLive]
  split
  · have runId : c.row.runId = c₁.row.runId := (path_runId first.moves.path).symm
    obtain ⟨c', ms, last, -⟩ := first.moves.stored.latch_rerun (first.phase ▸ opened) runId
      (liveCause target attempt "receipt_timeout" "Live event receipt deadline expired")
    exact ⟨c', _, first.trans last⟩
  · exact ⟨c₁, ls, first⟩

end Stored

/-- The latch and a row update commute: they write different tables. -/
theorem latch_persist (db : Database) (value : RunRow) (cause : LiveDeliveryAbort) (target : EventRow)
    (saved : List Attempt) (exhausted : Option Bool) :
    latchAbort (persistAttempts db target saved exhausted)
        (rerun (persistAttempts db target saved exhausted) value) cause =
      persistAttempts (latchAbort db (rerun db value) cause) target saved exhausted := by
  have same : rerun (persistAttempts db target saved exhausted) value = rerun db value := rfl
  rw [same, latchAbort, latchAbort]
  split <;> rfl

/-! ### Receipts and failures -/

/-- A live failure either marks the attempt, or marks it and latches the abort first. -/
theorem Stored.live_fail (h : Stored w.digest db c) (opened : c.row.phase ≠ .closed) {value : RunRow}
    (runId : value.runId = c.row.runId) {target : EventRow} (member : target ∈ c.rows)
    (uncommitted : target.committed = false) {attempt : Attempt} (attempted : attempt ∈ target.attempts)
    (reason : DeliveryFailureReason) (exhausted : Bool)
    (done : spent (markFailure target.attempts attempt.id reason) = true → exhausted = true)
    (cause : LiveDeliveryAbort) :
    let db' := persistAttempts db target (markFailure target.attempts attempt.id reason)
      (some (exhausted || target.exhausted))
    ∃ c' ls, Moves w.digest ls db c (if exhausted then latchAbort db' (rerun db' value) cause else db') c' ∧
      ∀ l ∈ ls, l.quiet = true := by
  intro db'
  have failing : ∀ {d : Cell}, target ∈ d.rows →
      Failing d target attempt.id reason (exhausted || target.exhausted) := fun listed =>
    ⟨listed, uncommitted, ⟨attempt, attempted, rfl⟩, fun was => by simp [was],
      fun used => by simp [done used]⟩
  cases exhausted with
  | false =>
    have kept : (false || target.exhausted) = true → target.active = true → MayExhaust c := by
      intro was active
      exact .inl ⟨opened, (h.inv.open_of_phase opened).abort target member active (by simpa using was)⟩
    exact ⟨_, _, h.fail_moves (failing member) kept, by simp [Label.quiet]⟩
  | true =>
    obtain ⟨c₁, ls, latched, aborted⟩ := h.latch_rerun opened runId cause
    have kept : (true || target.exhausted) = true → target.active = true → MayExhaust c₁ :=
      fun _ _ => .inl ⟨latched.phase ▸ opened, aborted⟩
    have failed := latched.moves.stored.fail_moves (failing (latched.rows ▸ member)) kept
    have moves := latched.moves.trans failed
    rw [← latch_persist] at moves
    refine ⟨_, _, moves, fun l listed => ?_⟩
    rcases List.mem_append.mp listed with early | last
    · exact latched.quiet l early
    · rw [List.mem_singleton.mp last]
      rfl

/-- A live receipt or failure is refused for a missing claim or an early timeout. -/
theorem Stored.liveSettle_spec (h : Stored w.digest db c) (opened : c.row.phase ≠ .closed)
    (healthy : Bool) (now : Nat) (s : Settle) :
    Ensures (External (!s.accepted && s.reason == .receiptTimeout))
      (fun db' => ∃ c' ls, Moves w.digest ls db c db' c' ∧ ∀ l ∈ ls, s.Causes c l)
      (liveSettle w db c.row healthy now s) := by
  rw [liveSettle]
  split
  next => exact ⟨rfl, nofun⟩
  next target found =>
    obtain ⟨member, sequence⟩ := h.of_findSequence found
    split
    next => exact ⟨rfl, nofun⟩
    next =>
      simp only [h.event_ok member, h.attempts_ok member, ok_bind]
      split
      next => exact ⟨rfl, nofun⟩
      next attempt known =>
        have attempted : attempt ∈ target.attempts := List.mem_of_find?_eq_some known
        have id : attempt.id = s.attemptId := by simpa using List.find?_some known
        split
        next => exact ⟨rfl, nofun⟩
        next identity =>
          have hash : ∀ hash, s.hash = some hash → hash = target.contentSha256 := by
            intro hash given
            simpa [given] using identity
          obtain ⟨c₁, ls, before⟩ := h.latchLive_prelude opened healthy
            (healthy && target.deadlineTickMs.any (decide <| · ≤ now)) target attempt
          have listed : target ∈ c₁.rows := before.rows ▸ member
          have quiet : ∀ l ∈ ls, s.Causes c l := fun l hl => .inl (before.quiet l hl)
          split
          next accepted =>
            refine ⟨_, _, before.moves.trans
              (before.moves.stored.accept_moves listed ⟨attempt, attempted, rfl⟩), fun l hl => ?_⟩
            rcases List.mem_append.mp hl with early | last
            · exact quiet l early
            · rw [List.mem_singleton.mp last, sequence, id]
              exact .inr ⟨rfl, accepted, target, member, sequence, hash⟩
          next refused =>
            split
            next => exact ⟨c₁, _, before.moves, quiet⟩
            next uncommitted =>
              split
              next early => exact ⟨rfl, fun _ => by simp [refused, early.1]⟩
              next =>
                have runId : c.row.runId = c₁.row.runId := (path_runId before.moves.path).symm
                have fresh : target.committed = false := by
                  simp only [Bool.or_eq_true, not_or, Bool.not_eq_true] at uncommitted
                  exact uncommitted.1
                obtain ⟨c', ms, moves, quiet'⟩ := before.moves.stored.live_fail (before.phase ▸ opened)
                  runId listed fresh attempted s.reason
                  (healthy && target.deadlineTickMs.any (decide <| · ≤ now) ||
                    s.reason == .rejected || spent (markFailure target.attempts attempt.id s.reason))
                  (fun used => by simp [used])
                  (liveCause target attempt s.reason.text "Live event delivery failed")
                refine ⟨c', _, before.moves.trans moves, fun l hl => ?_⟩
                exact (List.mem_append.mp hl).elim (quiet l) fun later => .inl (quiet' l later)

/-! ### Claims -/

/-- The first outstanding row of the ordered events. -/
theorem EventsOf.first {events : List EventRow} (of : EventsOf c events) {target : EventRow}
    (found : events.find? EventRow.active = some target) :
    target ∈ c.rows ∧ target.active = true ∧
      ∀ e ∈ c.rows, e.active = true → ¬ e.sequence < target.sequence := by
  obtain ⟨active, before, after, rfl, skipped⟩ := List.find?_eq_some_iff_append.mp found
  refine ⟨of.subset target (by simp), active, fun e member current earlier => ?_⟩
  have listed := (of.mem_active current).mpr member
  rcases List.mem_append.mp listed with early | rest
  · exact absurd current (by simpa using skipped e early)
  · rcases List.mem_cons.mp rest with rfl | later
    · omega
    · have ordered := (List.pairwise_cons.mp (List.pairwise_append.mp of.ordered).2.1).1 e later
      omega

/-- What the live claim checks before it is granted. -/
theorem live_gate {digest : NodeRunEvent → String} (inv : c.Inv digest) (run : OpenRun c)
    {target : EventRow} {now : Nat} (member : target ∈ c.rows) (active : target.active = true)
    (first : ∀ e ∈ c.rows, e.active = true → ¬ e.sequence < target.sequence)
    (abort : c.row.liveAbort = none) (notExhausted : target.exhausted = false)
    (deadline : ∀ d, target.deadlineTickMs = some d → now < d)
    (settled : awaiting target.attempts = false) (budget : target.attempts.length < maxAttempts) :
    Gate c target now where
  inOrder e listed current before := absurd before (first e listed current)
  serial _ e listed before := by
    by_contra uncommitted
    refine first e listed ?_ before
    simpa [EventRow.active, (run.events e listed).2] using uncommitted
  member := member
  active := active
  notExhausted := notExhausted
  budget := budget
  deadline := deadline
  resolved e listed current _ := by
    by_cases same : e.sequence = target.sequence
    · obtain rfl := inv.same_of_sequence listed member same
      exact (inv.each e listed).resolved settled
    · -- A later row was never tried: its predecessor is still uncommitted.
      intro a attempted
      have tried := List.ne_nil_of_mem attempted
      have later : target.sequence < e.sequence := by
        have := first e listed current
        omega
      have committed := run.serial e listed tried target member later
      simp [target.uncommitted active] at committed
  live _ := ⟨abort, (run.events target member).1.role⟩

/-- The answer of `live_claim`. -/
inductive LiveAnswer (w : Worker) (healthy : Bool) (now : Nat) (db : Database) (c : Cell) :
    LiveClaimReply → Database → Cell → List Label → Prop where
  | waiting {view : LiveDeliveryView} (h : Stored w.digest db c) :
      LiveAnswer w healthy now db c (.waiting view) db c []
  | stopRequired {view : LiveDeliveryView} {db' : Database} {c' : Cell} {ls : List Label}
      (before : Prelude w db c db' c' ls) : LiveAnswer w healthy now db c (.stopRequired view) db' c' ls
  | claimed {claim : DeliveryClaim} {db' : Database} {c' : Cell} {ls : List Label}
      (steady : healthy = true) (granted : Granted w now db c claim db' c' ls) :
      LiveAnswer w healthy now db c (.claimed claim) db' c' ls

theorem Stored.liveClaim_spec (h : Stored w.digest db c) (fresh : FreshId db w.uuid)
    (opened : c.row.phase ≠ .closed) {active : List EventRow} (of : EventsOf c active)
    {healthy : Bool} {now : Nat} (clock : healthy = true → w.clockId.isSome = true)
    (time : now ≤ maxSafeInteger) :
    Ensures (fun _ => False)
      (fun result => ∃ c' ls, LiveAnswer w healthy now db c result.1 result.2 c' ls)
      (liveClaim w db c.row active healthy now) := by
  have stop : ∀ cause view, ∃ c' ls,
      LiveAnswer w healthy now db c (.stopRequired view) (latchAbort db c.row cause) c' ls := by
    intro cause view
    obtain ⟨c', ls, latched, -⟩ := h.latch_prelude opened c.row rfl rfl cause
    exact ⟨c', ls, .stopRequired latched⟩
  rw [liveClaim]
  split
  next => exact ⟨c, [], .stopRequired (Prelude.refl h)⟩
  next running =>
    simp only [Bool.or_eq_true, not_or, Bool.not_eq_true, Option.isSome_eq_false_iff,
      Option.isNone_iff_eq_none] at running
    split
    next =>
      obtain ⟨c', ls, lost⟩ := h.unhealthy_prelude opened
        ⟨"clock_unknown", "Live delivery clock continuity is unknown", none, none⟩
      exact ⟨c', ls, .stopRequired lost⟩
    next steady =>
      split
      next => exact ⟨c, [], .waiting h⟩
      next target found =>
        have run := h.inv.open_of_phase opened
        obtain ⟨member, current, first⟩ := of.first found
        have role : target.role = .event := (run.events target member).1.role
        rw [if_neg (not_not_intro role)]
        simp only [h.event_ok member, h.attempts_ok member, ok_bind]
        split
        next => exact stop _ _
        next open_ =>
          split
          next => exact ⟨c, [], .waiting h⟩
          next settled =>
            split
            next => exact stop _ _
            next budget =>
              simp only [Bool.or_eq_true, not_or, Bool.not_eq_true] at open_
              have deadline : ∀ d, target.deadlineTickMs = some d → now < d := by
                intro d deadline
                simpa [deadline] using open_.2
              have gate := live_gate h.inv run member current first running.1 open_.1 deadline
                (by simpa using settled) (by omega)
              have claimant : Claimant w c now :=
                ⟨fresh.named, fresh.unnamed h.toHeld, clock (by simpa using steady), time⟩
              exact ⟨_, _, .claimed (by simpa using steady) (h.claim_granted claimant gate .zero)⟩

end Artoo.Journal
