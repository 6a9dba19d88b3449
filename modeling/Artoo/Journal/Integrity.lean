import Artoo.Journal.LiveOrder

/-! What a settled run stores, what never moves back, and what an error leaves behind. -/
namespace Artoo.Journal
open Artoo.Protocol Artoo.Lib

variable {digest : NodeRunEvent → String} {c : Cell} {trace : List (Action × Observation)} {s t : System}

/-! ### Stored rows -/

/-- The columns that only move forward or are written once. -/
structure Advances (row row' : RunRow) : Prop where
  phase : row.phase.rank ≤ row'.phase.rank
  revision : row.deliveryRevision = .one → row'.deliveryRevision = .one
  stop : row.stopRequested = true → row'.stopRequested = true
  abort : ∀ cause, row.liveAbort = some cause → row'.liveAbort = some cause
  outcome : ∀ outcome, row.finalOutcome = some outcome → row'.finalOutcome = some outcome

theorem Forward.advances {c c' : Cell} (forward : Forward c c') : Advances c.row c'.row :=
  ⟨forward.phase, forward.revision, forward.stop, forward.abort, forward.outcome⟩

/-- The rows of a run closed by `closure`: the producer's, then the settlement of the stored outcome,
then at revision 1 its correction. -/
structure SettledRows (digest : NodeRunEvent → String) (row : RunRow) (closure : ReceiptRow)
    (rows : List EventRow) (key : String) (outcome : FinalOutcome) (history : List EventCore) : Prop
    where
  phase : row.phase = .closed
  stop : row.stopRequested = true
  launchKey : row.launchKey = some key
  finalOutcome : row.finalOutcome = some outcome
  ordinary : ∀ e ∈ history, Ordinary e
  cores : rows.map EventRow.core = history ++
    Suffix.all.map (settlementCore digest row.runId key history.length outcome) ++
    if row.deliveryRevision = .one then
      Suffix.all.map (correctionCore digest row.runId closure.id (history.length + 2) outcome)
    else []

theorem Cell.Inv.settled_rows (inv : c.Inv digest) {closure : ReceiptRow}
    (recorded : c.receipt = some closure) (kind : closure.kind = .processExitConfirmed) :
    ∃ key outcome history, SettledRows digest c.row closure c.rows key outcome history := by
  cases inv.stage with
  | open_ run =>
    by_cases started : c.row.phase = .started
    · obtain ⟨receipt, found, -, accepted⟩ := run.started started
      obtain rfl := Option.some.inj (found.symm.trans recorded)
      simp [accepted] at kind
    · simp [(run.unstarted started).1] at recorded
  | fenced run =>
    obtain ⟨receipt, found, -, fence⟩ := run.receipt
    obtain rfl := Option.some.inj (found.symm.trans recorded)
    rcases fence with fence | fence <;> simp [fence] at kind
  | @settled key outcome other history run =>
    obtain rfl := Option.some.inj (run.receipt.symm.trans recorded)
    refine ⟨key, outcome, history, run.phase, run.stop, run.launchKey, run.finalOutcome,
      run.ordinary, ?_⟩
    rw [run.cores, run.revision, if_neg nofun, List.append_nil]
  | @corrected key outcome other history run =>
    obtain rfl := Option.some.inj (run.receipt.symm.trans recorded)
    refine ⟨key, outcome, history, run.phase, run.stop, run.launchKey, run.finalOutcome,
      run.ordinary, ?_⟩
    rw [run.cores, run.revision, if_pos rfl]

/-- A scope is refused because it differs, never because the run it names is inconsistent. -/
theorem closedRun_refused {w : Worker} {db : Database} (inv : db.Inv w.digest) {scope : ClosedScope}
    {e : JournalError} (refused : closedRun w db scope = .error e) : e = .closedScopeDiffers := by
  rw [closedRun] at refused
  split at refused
  next => exact (Except.error.inj refused).symm
  next value found =>
    obtain ⟨c, rfl, -, stored⟩ := inv.find found
    simp only [stored.view_ok, ok_bind] at refused
    split at refused
    next => exact (Except.error.inj refused).symm
    next =>
      split at refused
      next => exact (Except.error.inj refused).symm
      next => cases refused

/-! ### Errors -/

/-- The worker answers every later call with an error. -/
def Stopped (incarnation : String) (s : System) : Prop :=
  ∃ p, s.processes incarnation = some p ∧ p.unavailable = true

theorem System.call_stopped {incarnation : String} (stopped : Stopped incarnation s)
    (digest : NodeRunEvent → String) (env : Env) (cmd : Command) :
    s.call digest incarnation env cmd = (.failed .unavailable, s) := by
  obtain ⟨p, found, down⟩ := stopped
  simp [System.call, found, down]

/-- Only the process that is called changes. -/
theorem System.call_other {incarnation other : String} (different : other ≠ incarnation)
    (digest : NodeRunEvent → String) (env : Env) (cmd : Command) :
    (s.call digest incarnation env cmd).2.processes other = s.processes other := by
  rw [System.call]
  split
  next => rfl
  next p found =>
    split
    next => rfl
    next => exact Function.update_of_ne different _ _

theorem Stopped.call {incarnation : String} (stopped : Stopped incarnation s)
    (digest : NodeRunEvent → String) (other : String) (env : Env) (cmd : Command) :
    Stopped incarnation (s.call digest other env cmd).2 := by
  by_cases same : incarnation = other
  · subst same
    rw [System.call_stopped stopped]
    exact stopped
  · obtain ⟨p, found, down⟩ := stopped
    exact ⟨p, (System.call_other same digest env cmd).trans found, down⟩

theorem System.deliver_processes (s : System) (incarnation : String) (cmd : Command) (reply : Reply) :
    (s.deliver incarnation cmd reply).processes = s.processes := by
  unfold System.deliver
  split <;> rfl

/-- A stopped worker stays stopped: a restart opens another one. -/
theorem System.Step.stopped {l : Action × Observation} (step : System.Step digest l s t)
    {incarnation : String} (stopped : Stopped incarnation s) : Stopped incarnation t := by
  obtain ⟨action, observation⟩ := l
  obtain ⟨allowed, result⟩ := step
  cases action with
  | launch other clockId reading =>
    cases result
    obtain ⟨p, found, down⟩ := stopped
    refine ⟨p, (Function.update_of_ne ?_ _ _).trans found, down⟩
    rintro rfl
    simp [Action.Allowed, found] at allowed
  | claimStart i =>
    simp only [System.step] at result
    split at result
    next => cases result; exact stopped
    next => split at result <;> cases result <;> exact stopped
  | invoke i fault =>
    simp only [System.step] at result
    split at result
    next => cases result; exact stopped
    next p _ =>
      split at result
      next => cases result; exact stopped
      next =>
        cases result
        exact stopped.call digest p.incarnation (lookupEnv fault) (.lookup p.owner.runId)
  | call other env cmd =>
    have kept := stopped.call digest other env cmd
    simp only [System.step] at result
    generalize s.call digest other env cmd = pair at kept result
    obtain ⟨outcome, u⟩ := pair
    cases outcome with
    | failed e | lost reply => cases result; exact kept
    | replied reply =>
      cases result
      obtain ⟨p, found, down⟩ := kept
      exact ⟨p, (congrFun (u.deliver_processes other cmd reply) incarnation).trans found, down⟩

theorem System.run_stopped (run : System.Run digest trace s t) {incarnation : String}
    (stopped : Stopped incarnation s) : Stopped incarnation t :=
  run.invariant (P := Stopped incarnation) (fun _ _ _ h step => step.stopped h) stopped

/-- What an error of one call leaves behind. -/
structure Contained (digest : NodeRunEvent → String) (incarnation : String) (env : Env) (cmd : Command)
    (outcome : Outcome) (s t : System) : Prop where
  /-- before the commit: the state as it was -/
  rolledBack : ∀ e, outcome = .failed e → t.db = s.db
  /-- after the commit: the state of the committed call -/
  kept : ∀ reply, outcome = .lost reply → ∃ p tx, s.processes incarnation = some p ∧
    execute (p.worker digest incarnation env) ⟨s.db, p.last⟩ cmd = .ok (reply, tx) ∧ t.db = tx.db
  /-- an open worker serves nothing more -/
  stopped : (s.processes incarnation).isSome = true → outcome.thrown.isSome = true →
    ∀ more u, System.Run digest more t u → ∀ env' cmd' shown,
      (.call incarnation env' cmd', shown) ∈ more → shown = .called (.failed .unavailable)

theorem transaction_cases (fault : Fault) (tx : Tx) (result : Except JournalError (Reply × Tx)) :
    (∃ e, transaction fault tx result = (.failed e, tx)) ∨ ∃ reply tx', result = .ok (reply, tx') ∧
      (transaction fault tx result = (.replied reply, tx') ∨
        transaction fault tx result = (.lost reply, tx')) := by
  cases fault with
  | before => exact .inl ⟨_, rfl⟩
  | none =>
    cases result with
    | error e => exact .inl ⟨e, rfl⟩
    | ok pair => exact .inr ⟨_, _, rfl, .inl rfl⟩
  | after =>
    cases result with
    | error e => exact .inl ⟨e, rfl⟩
    | ok pair => exact .inr ⟨_, _, rfl, .inr rfl⟩

/-- A call keeps the database, or commits what it executed. -/
theorem System.call_cases (digest : NodeRunEvent → String) (s : System) (incarnation : String)
    (env : Env) (cmd : Command) :
    (∃ e t, s.call digest incarnation env cmd = (.failed e, t) ∧ t.db = s.db) ∨
      ∃ p tx reply t, s.processes incarnation = some p ∧
        execute (p.worker digest incarnation env) ⟨s.db, p.last⟩ cmd = .ok (reply, tx) ∧
        t.db = tx.db ∧ (s.call digest incarnation env cmd = (.replied reply, t) ∨
          s.call digest incarnation env cmd = (.lost reply, t)) := by
  rw [System.call]
  split
  next => exact .inl ⟨_, s, rfl, rfl⟩
  next p found =>
    split
    next => exact .inl ⟨_, s, rfl, rfl⟩
    next =>
      dsimp only
      rcases transaction_cases env.fault ⟨s.db, p.last⟩
        (execute (p.worker digest incarnation env) ⟨s.db, p.last⟩ cmd) with
        ⟨e, rolled⟩ | ⟨reply, tx, ran, shown | shown⟩
      · rw [rolled]
        exact .inl ⟨e, _, rfl, rfl⟩
      · rw [shown]
        exact .inr ⟨p, tx, reply, _, found, ran, rfl, .inl rfl⟩
      · rw [shown]
        exact .inr ⟨p, tx, reply, _, found, ran, rfl, .inr rfl⟩

/-- An error stops the worker it comes from. -/
theorem System.call_thrown {incarnation : String} (opened : (s.processes incarnation).isSome = true)
    (digest : NodeRunEvent → String) (env : Env) (cmd : Command)
    (thrown : (s.call digest incarnation env cmd).1.thrown.isSome = true) :
    Stopped incarnation (s.call digest incarnation env cmd).2 := by
  revert thrown
  rw [System.call]
  split
  next none => simp [none] at opened
  next p found =>
    split
    next down => exact fun _ => ⟨p, found, down⟩
    next => exact fun thrown => ⟨_, Function.update_self _ _ _, thrown⟩

theorem System.Step.contained {incarnation : String} {env : Env} {cmd : Command} {outcome : Outcome}
    (step : System.Step digest (.call incarnation env cmd, .called outcome) s t) :
    Contained digest incarnation env cmd outcome s t := by
  have result := step.result
  simp only [System.step] at result
  have cases_ := s.call_cases digest incarnation env cmd
  have thrown := fun opened => @System.call_thrown s incarnation opened digest env cmd
  generalize s.call digest incarnation env cmd = pair at cases_ thrown result
  obtain ⟨shown, u⟩ := pair
  have down : (s.processes incarnation).isSome = true → outcome.thrown.isSome = true →
      Stopped incarnation t := by
    intro opened error
    cases shown with
    | failed e | lost reply => cases result; exact thrown opened error
    | replied reply => cases result; cases error
  refine ⟨?_, ?_, fun opened error more v onward env' cmd' observed member => ?_⟩
  · rintro e rfl
    rcases cases_ with ⟨e', u', same, db⟩ | ⟨p, tx, reply, u', found, ran, db, same | same⟩ <;>
      cases same <;> cases result
    exact db
  · rintro reply rfl
    rcases cases_ with ⟨e', u', same, db⟩ | ⟨p, tx, reply', u', found, ran, db, same | same⟩ <;>
      cases same <;> cases result
    exact ⟨p, tx, found, ran, db⟩
  · obtain ⟨before, after, x, y, rfl, path, next, -⟩ := onward.of_mem member
    have refused := System.call_stopped (System.run_stopped path (down opened error)) digest env' cmd'
    have shown := next.result
    simp only [System.step, refused] at shown
    exact (Prod.ext_iff.mp shown).1.symm

/-- A run only moves forward, a settled run stores exactly what its outcome determines, the checks
of its reads pass, and an error leaves the state before the call or the committed one. -/
theorem settlement_integrity (run : System.Run digest trace .initial s) :
    (∀ r row, s.db.runs r = some row → ∀ more t, System.Run digest more s t →
      ∃ row', t.db.runs r = some row' ∧ Advances row row') ∧
    (∀ r row closure, s.db.runs r = some row → row.receiptId.bind s.db.receipts = some closure →
      closure.kind = .processExitConfirmed →
      ∃ key outcome history,
        SettledRows digest row closure (s.db.outbox r) key outcome history) ∧
    (∀ w r row, w.digest = digest → s.db.runs r = some row →
      (∃ viewed, view w s.db row = .ok viewed) ∧
        correction w s.db row = .ok row.deliveryCorrection) ∧
    (∀ w scope e, w.digest = digest → closedRun w s.db scope = .error e → e = .closedScopeDiffers) ∧
    (∀ w last cmd e, w.digest = digest → FreshId s.db w.uuid → cmd.WellFormed →
      execute w ⟨s.db, last⟩ cmd = .error e → e.consistency = false) ∧
    ∀ incarnation env cmd outcome t,
      System.Step digest (.call incarnation env cmd, .called outcome) s t →
      Contained digest incarnation env cmd outcome s t := by
  have inv := System.reachable_inv run
  refine ⟨?_, ?_, ?_, ?_, ?_, ?_⟩
  · intro r row found more t onward
    obtain ⟨c, rfl, rfl, stored, -⟩ := System.reachable_cell run found
    obtain ⟨c', stored', forward⟩ := System.run_later onward inv c stored
    exact ⟨c'.row, forward.runId ▸ stored'.runs, forward.advances⟩
  · intro r row closure found recorded kind
    obtain ⟨c, rfl, rfl, stored, rows⟩ := System.reachable_cell run found
    rw [← rows]
    exact stored.inv.settled_rows (stored.receipt.symm.trans recorded) kind
  · rintro w r row rfl found
    obtain ⟨c, rfl, rfl, stored, -⟩ := System.reachable_cell run found
    exact ⟨⟨_, stored.view_ok⟩, stored.correction_ok⟩
  · rintro w scope e rfl refused
    exact closedRun_refused inv refused
  · rintro w last cmd e rfl fresh formed thrown
    exact ((execute_spec inv fresh last formed).of_error thrown).consistency
  · intro incarnation env cmd outcome t step
    exact step.contained

/-- The settled sample run, corrected after the rejection of its first event. -/
def sampleCorrected : List Action := sampleSettled ++
  [.call "first" (sampleEnv "u8" 4) (.delivery sampleScope .claim),
   .call "first" (sampleEnv "u9" 5)
    (.delivery sampleScope (.settle (.receipt 0 "sha256:a" "u8" .rejected)))]

theorem settlement_integrity_corrected :
    let s := (System.initial.exec sampleDigest sampleCorrected).2
    ∃ row closure key outcome history, s.db.runs "run" = some row ∧ row.deliveryRevision = .one ∧
      SettledRows sampleDigest row closure (s.db.outbox "run") key outcome history := by
  intro s
  have checks : allowed sampleDigest "run" .initial sampleCorrected = true := by decide +kernel
  have closed : (s.db.runs "run").any (fun row => row.deliveryRevision == .one &&
      (row.receiptId.bind s.db.receipts).any (·.kind == .processExitConfirmed)) = true := by
    decide +kernel
  obtain ⟨row, found, both⟩ := (Option.any_eq_true _ _).mp closed
  obtain ⟨revision, receipt⟩ := Bool.and_eq_true_iff.mp both
  obtain ⟨closure, recorded, kind⟩ := (Option.any_eq_true _ _).mp receipt
  obtain ⟨key, outcome, history, rows⟩ := (settlement_integrity (exec_run _ checks)).2.1 "run" row
    closure found recorded (by simpa using kind)
  exact ⟨row, closure, key, outcome, history, found, by simpa using revision, rows⟩

/-- A call whose answer is lost after the commit throws, and the state it leaves is not the old one. -/
theorem thrown_after_commit : ∃ trace s incarnation env cmd outcome t,
    System.Run sampleDigest trace .initial s ∧
      System.Step sampleDigest (.call incarnation env cmd, .called outcome) s t ∧
      outcome.thrown.isSome = true ∧ t.db ≠ s.db := by
  let opening : List Action := [.launch "first" (some "boot") 0]
  let s := (System.initial.exec sampleDigest opening).2
  let env : Env := ⟨"u1", fun _ => 1, .after⟩
  let cmd : Command := .admitRun ⟨"run", .perRun, "key", "{}", "nonce"⟩
  let t := (s.step sampleDigest (.call "first" env cmd)).2
  have checks : allowed sampleDigest "run" .initial opening = true := by decide +kernel
  have check : (Action.call "first" env cmd).allowed "run" s = true := by decide +kernel
  have step : System.Step sampleDigest
      (.call "first" env cmd, .called (s.call sampleDigest "first" env cmd).1) s t :=
    ⟨(exec_solo opening (.initial _ _) checks).allowed check, rfl⟩
  refine ⟨_, s, "first", env, cmd, _, t, exec_run opening checks, step, by decide +kernel, ?_⟩
  intro same
  have absent : (s.db.runs "run").isSome = false := by decide +kernel
  have known : (t.db.runs "run").isSome = true := by decide +kernel
  rw [same, absent] at known
  cases known

end Artoo.Journal
