import Artoo.Journal.Budget

/-! The live path: events are claimed in order, and an abort ends it for good. -/
namespace Artoo.Journal
open Artoo.Protocol Artoo.Lib

variable {digest : NodeRunEvent → String} {c : Cell} {trace : List (Action × Observation)} {s t : System}

/-- The claim a reply grants on the live path. -/
def Reply.live : Reply → Option DeliveryClaim
  | .liveClaim (.claimed claim) => some claim
  | _ => none

theorem Reply.of_live {reply : Reply} {claim : DeliveryClaim} (grants : reply.live = some claim) :
    reply = .liveClaim (.claimed claim) := by
  unfold Reply.live at grants
  split at grants
  · rw [Option.some.inj grants]
  · cases grants

/-- Every smaller number is the sequence of a row. -/
theorem LogInv.below {row : RunRow} {rows : List EventRow} (inv : LogInv digest row rows) {target : EventRow}
    (member : target ∈ rows) {n : Nat} (smaller : n < target.sequence) : ∃ e ∈ rows, e.sequence = n := by
  have range := inv.sequence_lt member
  have listed : n ∈ rows.map (·.sequence) := by
    rw [inv.sequences]
    exact List.mem_range.mpr (smaller.trans range)
  exact List.mem_map.mp listed

/-- A live claim meets an open run without an abort, each earlier event of it committed. -/
theorem System.Step.live {l : Action × Observation} (step : System.Step digest l s t)
    (inv : s.db.Inv digest) {call : Call} {claim : DeliveryClaim} (shown : committed l = some call)
    (grants : call.reply.live = some claim) :
    ∃ c, claim.event.runId = c.row.runId ∧ Stored digest s.db c ∧ c.row.liveAbort = none ∧
      ∀ n < claim.event.sequence, ∃ e ∈ c.rows, e.sequence = n ∧ e.committed = true := by
  cases step.acted inv with
  | idle db silent => simp [silent] at shown
  | @ran call' p tx shown' found ran effect =>
    obtain rfl := Option.some.inj (shown'.symm.trans shown)
    have reply := Reply.of_live grants
    cases effect with
    | same absent reads unchanged ungranted => simp [reply, Reply.granted] at ungranted
    | admitted command absent other => simp [reply] at other
    | fenced command absent other => simp [reply] at other
    | @moved c c' ls names stored account reports live stale =>
      obtain ⟨opened, ms, granted⟩ := live claim reply
      cases granted with
      | @mk target revision _ gate moves =>
        refine ⟨c, stored.inv.runIds target gate.member, stored, (gate.live opened).1, fun n smaller => ?_⟩
        obtain ⟨e, member, rfl⟩ := stored.inv.below gate.member smaller
        exact ⟨e, member, rfl, gate.serial (.inl opened) e member smaller⟩

/-- An aborted run has no completed outcome, open or closed. -/
theorem Cell.Inv.aborted (inv : c.Inv digest) {cause : LiveDeliveryAbort}
    (abort : c.row.liveAbort = some cause) {outcome : FinalOutcome}
    (outcomeIs : c.row.finalOutcome = some outcome) : outcome.terminal.phase ≠ .completed := by
  have latched : c.row.liveAbort.isSome = true := by simp [abort]
  cases inv.stage with
  | open_ run => simp [run.outcome] at outcomeIs
  | fenced run => simp [run.outcome] at outcomeIs
  | settled run | corrected run =>
    obtain rfl := Option.some.inj (run.finalOutcome.symm.trans outcomeIs)
    exact run.abort latched

/-- A live claim comes after the commit of every earlier event. Once an abort is latched its cause
stays, no live claim of the run follows and no outcome of the run is completed. -/
theorem live_delivery_order (run : System.Run digest trace .initial s) :
    (∀ l t call claim, System.Step digest l s t → committed l = some call →
      call.reply.live = some claim → ∀ n < claim.event.sequence,
        ∃ e ∈ s.db.outbox claim.event.runId, e.sequence = n ∧ e.committed = true) ∧
    ∀ r row cause, s.db.runs r = some row → row.liveAbort = some cause →
      ∀ more t, System.Run digest more s t →
        (∃ row', t.db.runs r = some row' ∧ row'.liveAbort = some cause ∧
          ∀ outcome, row'.finalOutcome = some outcome → outcome.terminal.phase ≠ .completed) ∧
        ∀ l ∈ more, ∀ call claim, committed l = some call → call.reply.live = some claim →
          claim.event.runId ≠ r := by
  have inv := System.reachable_inv run
  refine ⟨?_, ?_⟩
  · intro l t call claim step shown grants n smaller
    obtain ⟨c, names, stored, -, committed⟩ := step.live inv shown grants
    rw [names, stored.outbox]
    exact committed n smaller
  · intro r row cause found latched more t onward
    obtain ⟨c, rfl, rfl, stored, -⟩ := System.reachable_cell run found
    have later : ∀ {more t}, System.Run digest more s t →
        ∃ c', Stored digest t.db c' ∧ c'.row.runId = c.row.runId ∧ c'.row.liveAbort = some cause := by
      intro more t onward
      obtain ⟨c', stored', forward⟩ := System.run_later onward inv c stored
      exact ⟨c', stored', forward.runId, forward.abort cause latched⟩
    refine ⟨?_, ?_⟩
    · obtain ⟨c', stored', names, abort⟩ := later onward
      exact ⟨c'.row, names ▸ stored'.runs, abort, fun outcome => stored'.inv.aborted abort⟩
    · rintro l member call claim shown grants same
      obtain ⟨before, after, u, v, rfl, path, step, -⟩ := onward.of_mem member
      obtain ⟨d, stored', names, abort⟩ := later path
      obtain ⟨d', names', stored'', clear, -⟩ := step.live (System.run_inv path inv) shown grants
      obtain rfl := stored'.toHeld.unique stored''.toHeld (names.trans (same.symm.trans names'))
      simp [abort] at clear

/-- The sample run with its first event acknowledged and its second one claimed, live. -/
def sampleLive : List Action := sampleStart ++ sampleAppends ++
  [.call "first" (sampleEnv "u7" 3) (.live sampleOwner .claim),
   .call "first" (sampleEnv "u8" 4) (.live sampleOwner (.receipt 0 "sha256:a" "u7" .accepted)),
   .call "first" (sampleEnv "u9" 5) (.live sampleOwner .claim),
   .call "first" (sampleEnv "u10" 6) (.live sampleOwner (.receipt 1 "sha256:b" "u9" .rejected))]

theorem live_delivery_order_aborted :
    let s := (System.initial.exec sampleDigest sampleLive).2
    let t := (s.step sampleDigest (.call "first" (sampleEnv "u11" 7) (.live sampleOwner .claim))).2
    ∃ row cause row', s.db.runs "run" = some row ∧ row.liveAbort = some cause ∧
      t.db.runs "run" = some row' ∧ row'.liveAbort = some cause := by
  intro s t
  have checks : allowed sampleDigest "run" .initial sampleLive = true := by decide +kernel
  have check : (Action.call "first" (sampleEnv "u11" 7) (.live sampleOwner .claim)).allowed "run" s =
      true := by decide +kernel
  have latched : (s.db.runs "run").any (·.liveAbort.isSome) = true := by decide +kernel
  obtain ⟨row, found, aborted⟩ := (Option.any_eq_true _ _).mp latched
  obtain ⟨cause, abort⟩ := Option.isSome_iff_exists.mp aborted
  have step : System.Step sampleDigest (_, _) s t :=
    ⟨(exec_solo _ (.initial _ _) checks).allowed check, rfl⟩
  obtain ⟨⟨row', found', kept, -⟩, -⟩ :=
    (live_delivery_order (exec_run _ checks)).2 "run" row cause found abort _ t (.single step)
  exact ⟨row, cause, row', found, abort, found', kept⟩

end Artoo.Journal
