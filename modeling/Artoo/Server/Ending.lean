import Artoo.Server.LiveRun

/-! How runs end: what the event log says of the status, and when write leases are released. -/
namespace Artoo.Server
open Artoo.Lib Artoo.Protocol Artoo.Domain Tx

/-- The status an event reports. -/
def endStatus : EventType → Option RunStatus
  | .runCompleted => some .completed
  | .runFailed => some .failed
  | .runCancelled => some .cancelled
  | _ => none

/-- The reports of an end that the source has no branch for. -/
def unforeseen (s : RunStatus) : IngestPhase → Bool
  | .completed => s == .queued || s == .starting || s == .awaitingInput || s == .paused
  | .failed => s == .awaitingInput || s == .paused
  | _ => false

def strayReport (platform : Platform) (op : Op) (db : Database) : Bool :=
  match op.envelope platform with
  | some (⟨runId, _, _, .lifecycle phase _⟩, _) =>
    (db.runs.get? runId).any fun run => unforeseen run.status phase
  | _ => false

/-- A start failure of a run that is no longer being started. -/
def lateStartFailure (op : Op) (db : Database) : Bool :=
  match op with
  | .failRunStart runId _ _ =>
    (db.runs.get? runId).any fun run => run.status != .queued && run.status != .starting
  | _ => false

/-- What shows that the process of a run has exited or never started. -/
inductive ExitConfirmed (platform : Platform) (db : Database) (op : Op) (runId : String) : Prop where
  | reported {env : IngestEnvelope} {identity : Option String} {phase : IngestPhase}
      {failureReason : Option String} {run : RunRow} {task : TaskRow} :
      op.envelope platform = some (env, identity) → env.runId = runId →
      env.event = .lifecycle phase failureReason → phase ≠ .started →
      Reads env identity db run task → ExitConfirmed platform db op runId
  /-- the transaction of a cancellation follows the confirmed stop of the process -/
  | stopped : op = .cancelRun runId → ExitConfirmed platform db op runId
  | neverStarted {errorCode message : String} {run : RunRow} :
      op = .failRunStart runId errorCode message → db.runs.get? runId = some run →
      run.status = .queued ∨ run.status = .starting → ExitConfirmed platform db op runId
  | absent {computerId : String} : op = .failRunDaemonDisconnect runId computerId true →
      ExitConfirmed platform db op runId

/-- Every settlement but those of stray reports and late start failures reports the status it
leaves, and releases leases only of a run it leaves ended. -/
structure Ends (σ : Settlement) (s : RunStatus) : Prop where
  reports : ∀ t, endStatus σ.type = some t → σ.run s = t
  releases : σ.releases = true → isRunTerminal (σ.run s)

instance (σ : Settlement) (s : RunStatus) : Decidable (Ends σ s) :=
  decidable_of_iff ((∀ t, endStatus σ.type = some t → σ.run s = t) ∧
      (σ.releases = true → isRunTerminal (σ.run s)))
    ⟨fun h => ⟨h.1, h.2⟩, fun h => ⟨h.reports, h.releases⟩⟩

theorem liveVerdict_ends (phase : IngestPhase) :
    ∀ s, isRunTerminal s = false → unforeseen s phase = false → Ends (liveVerdict s phase) s := by
  cases phase <;> decide

theorem reconciled_ends (releases : Bool) :
    ∀ s, isRunTerminal s → Ends (.reconciled releases) s := by
  cases releases <;> decide

theorem verdict_ends {run : RunRow} {phase : IngestPhase}
    (foreseen : unforeseen run.status phase = false) : Ends (verdict run phase) run.status := by
  cases finished : isRunTerminal run.status with
  | true =>
    obtain ⟨releases, is⟩ := @verdict_ended run phase finished
    rw [is]
    exact reconciled_ends releases _ finished
  | false =>
    rw [verdict_live finished]
    exact liveVerdict_ends phase _ finished foreseen

theorem cancelled_settles : ∀ s, isRunTerminal s = false → Ends .cancelled s := by decide

theorem startFailed_settles : ∀ s, s = .queued ∨ s = .starting → Ends .startFailed s := by decide

theorem disconnected_settles (confirmed : Bool) :
    ∀ s, applyRunTransition s .runFailed = some .failed → Ends (.disconnected s confirmed) s := by
  cases confirmed <;> decide

theorem startDisconnected_settles (confirmed : Bool) :
    ∀ s, s = .queued ∨ s = .starting → Ends (.startDisconnected confirmed) s := by
  cases confirmed <;> decide

section Step

variable {platform : Platform} {db db' : Database} {op : Op} {f : Effect} {m : Move}

/-- The settlement of an operation, and what it ends. -/
structure Settling (platform : Platform) (db : Database) (op : Op) (σ : Settlement) (runId : String)
    (run : RunRow) : Prop where
  found : db.runs.get? runId = some run
  ends : Ends σ run.status
  exit : σ.releases = true → ExitConfirmed platform db op runId

theorem verdict_exit {env : IngestEnvelope} {identity : Option String} {phase : IngestPhase}
    {failureReason : Option String} {run : RunRow} {task : TaskRow}
    (parsed : op.envelope platform = some (env, identity))
    (lifecycle : env.event = .lifecycle phase failureReason) (reads : Reads env identity db run task)
    (releases : (verdict run phase).releases = true) : ExitConfirmed platform db op env.runId := by
  apply ExitConfirmed.reported parsed rfl lifecycle ?_ reads
  rintro rfl
  unfold verdict at releases
  split at releases
  · rename_i impossible
    simp at impossible
  · split at releases <;> cases releases

/-- An allowed move reports no end and releases only the lease it names, or it settles a run. -/
theorem Allows.settling (h : Allows platform db op f m) (foreseen : strayReport platform op db = false)
    (timely : lateStartFailure op db = false) :
    ((∀ type runId, ¬ f.reports type runId) ∧ ∀ l, f.released l → op = .releaseLease l.id) ∨
      ∃ σ runId run, Settling platform db op σ runId run ∧ f = σ.effect runId ∧
        m = .settle σ runId run.taskId := by
  have none_ : ∀ {g : Effect}, g = silent ∨ g = lapsing →
      (∀ type runId, ¬ g.reports type runId) ∧ ∀ l, g.released l → op = .releaseLease l.id := by
    rintro g (rfl | rfl)
    · exact ⟨fun _ _ h => h, fun _ h => h.elim⟩
    · exact ⟨fun _ _ h => h, fun _ h => h.elim⟩
  cases h with
  | idle =>
    apply Or.inl
    apply none_
    unfold Op.aside
    split
    · exact Or.inr rfl
    · exact Or.inr rfl
    · exact Or.inl rfl
  | create => exact Or.inl (none_ (Or.inl rfl))
  | markReady => exact Or.inl (none_ (Or.inl rfl))
  | assign => exact Or.inl (none_ (Or.inr rfl))
  | accept => exact Or.inl (none_ (Or.inl rfl))
  | requestChanges => exact Or.inl (none_ (Or.inl rfl))
  | retry => exact Or.inl (none_ (Or.inl rfl))
  | requestApproval => exact Or.inl (none_ (Or.inl rfl))
  | resolveApproval => exact Or.inl (none_ (Or.inl rfl))
  | @cancelRun runId run found live =>
    exact Or.inr ⟨_, _, run, ⟨found, cancelled_settles _ live, fun _ => .stopped rfl⟩, rfl, rfl⟩
  | @failRunStart runId errorCode message run found =>
    have early : run.status = .queued ∨ run.status = .starting := by
      simp only [lateStartFailure, found, Option.any_some, Bool.and_eq_false_iff, bne_eq_false_iff_eq]
        at timely
      exact timely
    exact Or.inr ⟨_, _, run,
      ⟨found, startFailed_settles _ early, fun _ => .neverStarted rfl found early⟩, rfl, rfl⟩
  | @confirmed runId computerId run found failed =>
    have finished : isRunTerminal run.status := by rw [failed]; rfl
    exact Or.inr ⟨_, _, run, ⟨found, reconciled_ends true _ finished, fun _ => .absent rfl⟩, rfl, rfl⟩
  | @disconnected runId computerId confirmed run found edge =>
    refine Or.inr ⟨_, _, run, ⟨found, disconnected_settles confirmed _ edge, ?_⟩, rfl, rfl⟩
    intro releases
    cases confirmed with
    | true => exact .absent rfl
    | false => cases releases
  | @startDisconnected runId computerId confirmed run found early =>
    refine Or.inr ⟨_, _, run, ⟨found, startDisconnected_settles confirmed _ early, ?_⟩, rfl, rfl⟩
    intro releases
    cases confirmed with
    | true => exact .absent rfl
    | false => cases releases
  | releaseLease =>
    refine Or.inl ⟨fun _ _ h => h, fun l named => ?_⟩
    rw [named]
  | @ingest op env identity phase failureReason run task parsed lifecycle reads fresh =>
    have expected : unforeseen run.status phase = false := by
      have found := reads.foundRun
      obtain ⟨runId, nodeId, sequence, event⟩ := env
      cases lifecycle
      simpa [strayReport, parsed, found] using foreseen
    exact Or.inr ⟨_, _, run, ⟨reads.foundRun, verdict_ends expected,
      verdict_exit parsed lifecycle reads⟩, rfl, rfl⟩

theorem Appends.new {e : EventRow} (h : Appends f db db') (there : e ∈ db'.events.rows)
    (fresh : e ∉ db.events.rows) (reported : e.type ∈ lifecycleEvents) :
    f.reports e.type e.runId := by
  obtain ⟨new, rows, all⟩ := h
  rw [rows] at there
  rcases List.mem_append.mp there with old | appended
  · exact absurd old fresh
  · exact all e appended reported

theorem LeasesStep.release {l l' : LeaseRow} (h : LeasesStep f db db') (there : l ∈ db.leases)
    (after : l' ∈ db'.leases) (same : l'.id = l.id) (held : l.status = .held)
    (released : l'.status = .released) : f.released l := by
  obtain ⟨l'', found, step⟩ := h l.id l (Table.get?_of_mem there)
  rw [← same, Table.get?_of_mem after] at found
  cases found
  cases step with
  | same => cases held.symm.trans released
  | released now _ allowed => exact allowed
  | expired => cases released

theorem endStatus_lifecycle {type : EventType} {t : RunStatus} (h : endStatus type = some t) :
    type ∈ lifecycleEvents := by
  unfold endStatus at h
  split at h <;> first | decide | cases h

/-- The run of a settlement, as the transaction leaves it. -/
theorem Moves.settled {σ : Settlement} {runId : String} {run : RunRow}
    (h : Moves platform op f (.settle σ runId run.taskId) db db')
    (found : db.runs.get? runId = some run) :
    ∃ row ∈ db'.runs.rows, row.id = runId ∧ row.status = σ.run run.status := by
  have view : (Server.board db').run runId = some (run.view.move σ.run) := by
    rw [h.board]
    change ((Server.board db).settle σ runId run.taskId).run runId = _
    rw [Board.run_settle, if_pos rfl, board_run found]
    rfl
  obtain ⟨row, there, same⟩ := Option.map_eq_some_iff.mp view
  refine ⟨row, Table.mem_of_get? there, Table.key_of_get? there, ?_⟩
  exact congrArg RunView.status same

/-- An appended report of an end names a run that has this status. -/
theorem Moves.reported (h : Moves platform op f m db db') (foreseen : strayReport platform op db = false)
    (timely : lateStartFailure op db = false) {e : EventRow} {t : RunStatus}
    (there : e ∈ db'.events.rows) (fresh : e ∉ db.events.rows) (ends : endStatus e.type = some t) :
    ∃ run ∈ db'.runs.rows, e.runId = some run.id ∧ run.status = t := by
  have reports := h.events.new there fresh (endStatus_lifecycle ends)
  rcases h.allowed.settling foreseen timely with ⟨nothing, _⟩ | ⟨σ, runId, run, settling, rfl, rfl⟩
  · exact absurd reports (nothing _ _)
  · obtain ⟨row, member, key, status⟩ := h.settled settling.found
    refine ⟨row, member, by rw [reports.2, key], ?_⟩
    rw [status]
    exact settling.ends.reports t (reports.1 ▸ ends)

theorem Allows.of_report {env : IngestEnvelope} {identity : Option String}
    (h : Allows platform db op f m) (parsed : op.envelope platform = some (env, identity)) :
    f = silent ∨ ∃ phase failureReason run, env.event = .lifecycle phase failureReason ∧
      db.runs.get? env.runId = some run ∧ f = (verdict run phase).effect env.runId := by
  cases h with
  | idle =>
    apply Or.inl
    cases op <;> first | rfl | cases parsed
  | create => exact Or.inl rfl
  | @ingest op env' identity' phase failureReason run task parsed' lifecycle reads fresh =>
    rw [parsed] at parsed'
    cases parsed'
    exact Or.inr ⟨phase, failureReason, run, lifecycle, reads.foundRun, rfl⟩
  | _ => cases parsed

/-- A report of a run that has ended names no other end, and releases leases only of a run that
failed by a disconnect. -/
theorem Moves.ended {env : IngestEnvelope} {identity : Option String} {run : RunRow}
    (h : Moves platform op f m db db') (parsed : op.envelope platform = some (env, identity))
    (found : db.runs.get? env.runId = some run) (finished : isRunTerminal run.status) :
    (∀ type runId, f.reports type runId → endStatus type = none) ∧
      ∀ l, f.released l → ownedByRun env.runId l ∧ run.status = .failed ∧
        run.failureReason = some disconnectReason ∧
          ∃ phase failureReason, env.event = .lifecycle phase failureReason ∧ phase ≠ .started := by
  rcases h.allowed.of_report parsed with rfl | ⟨phase, failureReason, run', lifecycle, found', rfl⟩
  · exact ⟨fun _ _ reported => reported.elim, fun _ released => released.elim⟩
  · rw [found] at found'
    cases found'
    by_cases closes : (phase != .started && run.status == .failed &&
        run.failureReason == some disconnectReason) = true
    · have is : verdict run phase = .reconciled true := if_pos closes
      rw [is]
      simp only [Bool.and_eq_true, bne_iff_ne, beq_iff_eq] at closes
      exact ⟨fun _ _ reported => by rw [reported.1]; rfl, fun l released =>
        ⟨released.2, closes.1.2, closes.2, phase, failureReason, lifecycle, closes.1.1⟩⟩
    · have is : verdict run phase = .reconciled false := by
        unfold verdict
        rw [if_neg closes, if_pos finished]
      rw [is]
      exact ⟨fun _ _ reported => by rw [reported.1]; rfl, fun l released => nomatch released.1⟩

/-- A start failure reports the failure of a run that was being started. -/
theorem Moves.startFailure {runId errorCode message : String} {e : EventRow} {s : RunStatus}
    (h : Moves platform (.failRunStart runId errorCode message) f m db db')
    (timely : lateStartFailure (.failRunStart runId errorCode message) db = false)
    (there : e ∈ db'.events.rows) (fresh : e ∉ db.events.rows) (ends : endStatus e.type = some s) :
    s = .failed ∧ e.runId = some runId ∧
      (∃ run, db.runs.get? runId = some run ∧ (run.status = .queued ∨ run.status = .starting)) ∧
        ∃ run ∈ db'.runs.rows, run.id = runId ∧ run.status = .failed := by
  have reported := h.events.new there fresh (endStatus_lifecycle ends)
  have allowed := h.allowed
  cases allowed with
  | idle => exact reported.elim
  | create => exact reported.elim
  | @failRunStart _ _ _ run found =>
    have early : run.status = .queued ∨ run.status = .starting := by
      simpa [lateStartFailure, found, or_iff_not_imp_left] using timely
    obtain ⟨row, member, key, status⟩ := h.settled found
    have failed : Settlement.startFailed.run run.status = .failed := by
      rcases early with early | early <;> rw [early] <;> rfl
    rw [reported.1] at ends
    cases ends
    exact ⟨rfl, reported.2, ⟨run, found, early⟩, row, member, key, status.trans failed⟩
  | ingest parsed => cases parsed

/-- A disconnect without a confirmed exit keeps every lease. -/
theorem Allows.unconfirmed {runId computerId : String} {l : LeaseRow}
    (h : Allows platform db (.failRunDaemonDisconnect runId computerId false) f m) :
    ¬ f.released l := by
  intro released
  cases h with
  | idle => exact released.elim
  | create => exact released.elim
  | disconnected => cases released.1
  | startDisconnected => cases released.1
  | ingest parsed => cases parsed

theorem ownedByRun_inj {runId other : String} {l : LeaseRow} (h : ownedByRun runId l)
    (h' : ownedByRun other l) : runId = other := by
  simp only [ownedByRun, Bool.and_eq_true, beq_iff_eq] at h h'
  exact h.2.symm.trans h'.2

end Step

/-- The events a step appends. -/
def Appended (db db' : Database) (e : EventRow) : Prop := e ∈ db'.events.rows ∧ e ∉ db.events.rows

/-- The held leases a step releases. -/
def Released (db db' : Database) (l : LeaseRow) : Prop :=
  l ∈ db.leases.rows ∧ l.status = .held ∧
    ∃ l' ∈ db'.leases.rows, l'.id = l.id ∧ l'.status = .released

section Claims

variable {platform : Platform} {r : Request} {db db' : Database}

theorem log_agrees_with_run {env : IngestEnvelope} {identity : Option String}
    (step : Step platform r db db') (ingest : r.op.envelope platform = some (env, identity))
    (foreseen : strayReport platform r.op db = false) :
    (∀ e s, Appended db db' e → endStatus e.type = some s →
      ∃ run ∈ db'.runs.rows, e.runId = some run.id ∧ run.status = s) ∧
    ∀ run, db.runs.get? env.runId = some run → isRunTerminal run.status →
      (∀ e, Appended db db' e → endStatus e.type = none) ∧
      ∀ l, Released db db' l → ownedByRun env.runId l ∧ run.status = .failed ∧
        run.failureReason = some disconnectReason ∧
          ∃ phase failureReason, env.event = .lifecycle phase failureReason ∧ phase ≠ .started := by
  obtain ⟨f, m, moves⟩ := step_moves step
  have timely : lateStartFailure r.op db = false := by
    cases op : r.op <;> first | rfl | (rw [op] at ingest; cases ingest)
  constructor
  · exact fun e s ⟨there, fresh⟩ => moves.reported foreseen timely there fresh
  · intro run found finished
    obtain ⟨reports, releases⟩ := moves.ended ingest found finished
    constructor
    · rintro e ⟨there, fresh⟩
      cases ends : endStatus e.type with
      | none => rfl
      | some s =>
        have reported := moves.events.new there fresh (endStatus_lifecycle ends)
        rw [reports _ _ reported] at ends
        cases ends
    · rintro l ⟨there, held, l', after, same, released⟩
      exact releases l (moves.leases.release there after same held released)

theorem leases_follow_writer (step : Step platform r db db')
    (foreseen : strayReport platform r.op db = false) (timely : lateStartFailure r.op db = false) :
    (∀ l runId, Released db db' l → ownedByRun runId l → r.op = .releaseLease l.id ∨
      ((∃ run ∈ db'.runs.rows, run.id = runId ∧ isRunTerminal run.status) ∧
        ExitConfirmed platform db r.op runId)) ∧
    (∀ runId errorCode message, r.op = .failRunStart runId errorCode message →
      ∀ e s, Appended db db' e → endStatus e.type = some s → s = .failed ∧ e.runId = some runId ∧
        (∃ run, db.runs.get? runId = some run ∧ (run.status = .queued ∨ run.status = .starting)) ∧
          ∃ run ∈ db'.runs.rows, run.id = runId ∧ run.status = .failed) ∧
    (∀ runId computerId, r.op = .failRunDaemonDisconnect runId computerId false →
      ∀ l, ¬ Released db db' l) := by
  obtain ⟨f, m, moves⟩ := step_moves step
  refine ⟨?_, ?_, ?_⟩
  · rintro l runId ⟨there, held, l', after, same, released⟩ owned
    have allowed := moves.leases.release there after same held released
    rcases moves.allowed.settling foreseen timely with
      ⟨_, names⟩ | ⟨σ, owner, run, settling, rfl, rfl⟩
    · exact Or.inl (names l allowed)
    · obtain ⟨row, member, key, status⟩ := moves.settled settling.found
      cases ownedByRun_inj owned allowed.2
      refine Or.inr ⟨⟨row, member, key, ?_⟩, settling.exit allowed.1⟩
      rw [status]
      exact settling.ends.releases allowed.1
  · rintro runId errorCode message op e s ⟨there, fresh⟩ ends
    rw [op] at moves timely
    exact moves.startFailure timely there fresh ends
  · rintro runId computerId op l ⟨there, held, l', after, same, released⟩
    rw [op] at moves
    exact moves.allowed.unconfirmed (moves.leases.release there after same held released)

end Claims

/-! ## Runs on fixed inputs -/

open Sample

instance (db db' : Database) (l : LeaseRow) : Decidable (Released db db' l) := by
  unfold Released
  infer_instance

instance (db db' : Database) (e : EventRow) : Decidable (Appended db db' e) := by
  unfold Appended
  infer_instance

/-- One run that holds a lease of `src`, queued and then running. -/
def queued : Database := serve platform [create, ready, assign "r1" "e4" ["src"]] .empty

def running : Database := serve platform [report "r1" 0 .started "e5"] queued

def disconnected : Database := serve platform [disconnect "r1" "e6" false] running

theorem log_agrees_with_run_completed :
    ∃ e, Appended running ((report "r1" 1 .completed "e6").run platform running) e ∧
      endStatus e.type = some .completed ∧
        ∃ run ∈ ((report "r1" 1 .completed "e6").run platform running).runs.rows,
          e.runId = some run.id ∧ run.status = .completed := by
  have appended : ∃ e ∈ ((report "r1" 1 .completed "e6").run platform running).events.rows,
      e ∉ running.events.rows ∧ endStatus e.type = some .completed := by decide +kernel
  obtain ⟨e, there, fresh, ends⟩ := appended
  exact ⟨e, ⟨there, fresh⟩, ends,
    (log_agrees_with_run rfl rfl (by decide +kernel)).1 e .completed ⟨there, fresh⟩ ends⟩

theorem path_queued : ∃ requests, Path (Step platform) requests .empty queued := ⟨_, path_serve⟩

theorem path_running : ∃ requests, Path (Step platform) requests .empty running := by
  obtain ⟨requests, path⟩ := path_queued
  exact ⟨_, path.append path_serve⟩

theorem path_disconnected : ∃ requests, Path (Step platform) requests .empty disconnected := by
  obtain ⟨requests, path⟩ := path_running
  exact ⟨_, path.append path_serve⟩

/-- The owner's late report of a run that failed by a disconnect releases its leases, and the
completion of a queued run is logged. -/
theorem ended_run_released :
    (¬ ∀ requests r db db' env identity run, Path (Step platform) requests .empty db →
      Step platform r db db' → r.op.envelope platform = some (env, identity) →
        db.runs.get? env.runId = some run → isRunTerminal run.status → ∀ l, ¬ Released db db' l) ∧
    ¬ ∀ requests r db db' env identity, Path (Step platform) requests .empty db →
      Step platform r db db' → r.op.envelope platform = some (env, identity) →
        ∀ e s, Appended db db' e → endStatus e.type = some s →
          ∃ run ∈ db'.runs.rows, e.runId = some run.id ∧ run.status = s := by
  constructor
  · intro claimed
    obtain ⟨requests, reached⟩ := path_disconnected
    have ended : ∃ run ∈ disconnected.runs.rows, run.id = "r1" ∧ isRunTerminal run.status := by
      decide +kernel
    obtain ⟨run, there, key, finished⟩ := ended
    have found : disconnected.runs.get? "r1" = some run := key ▸ Table.get?_of_mem there
    have released : ∃ l ∈ disconnected.leases.rows,
        Released disconnected ((report "r1" 1 .failed "e7").run platform disconnected) l := by
      decide +kernel
    obtain ⟨l, _, released⟩ := released
    exact claimed requests (report "r1" 1 .failed "e7") _ _ _ _ run reached rfl rfl found finished l
      released
  · intro claimed
    obtain ⟨requests, reached⟩ := path_queued
    have appended : ∃ e ∈ ((report "r1" 0 .completed "e5").run platform queued).events.rows,
        e ∉ queued.events.rows ∧ endStatus e.type = some .completed := by decide +kernel
    obtain ⟨e, there, fresh, ends⟩ := appended
    have logged := claimed requests (report "r1" 0 .completed "e5") _ _ _ _ reached rfl rfl e _
      ⟨there, fresh⟩ ends
    have live : ∀ run ∈ ((report "r1" 0 .completed "e5").run platform queued).runs.rows,
        run.status ≠ .completed := by decide +kernel
    obtain ⟨run, member, _, completed⟩ := logged
    exact live run member completed

theorem leases_follow_writer_stopped :
    ∃ l, Released running ((cancel "r1" "e6").run platform running) l ∧
      ∃ run ∈ ((cancel "r1" "e6").run platform running).runs.rows,
        run.id = "r1" ∧ isRunTerminal run.status := by
  have released : ∃ l ∈ running.leases.rows, ownedByRun "r1" l ∧
      Released running ((cancel "r1" "e6").run platform running) l := by decide +kernel
  obtain ⟨l, _, owned, released⟩ := released
  have step : Step platform (cancel "r1" "e6") running
      ((cancel "r1" "e6").run platform running) := rfl
  rcases (leases_follow_writer step rfl rfl).1 l "r1" released owned with named | ended
  · cases named
  · exact ⟨l, released, ended.1⟩

/-- A lease of a running run is released by hand, and by a late start failure of this run, which is
logged. -/
theorem running_run_released :
    (¬ ∀ requests r db db' l runId, Path (Step platform) requests .empty db →
      Step platform r db db' → Released db db' l → ownedByRun runId l →
        ∃ run ∈ db'.runs.rows, run.id = runId ∧ isRunTerminal run.status) ∧
    ¬ ∀ requests db runId eventId e, Path (Step platform) requests .empty db →
      Appended db ((failStart runId eventId).run platform db) e → e.type = .runFailed →
        ∃ run ∈ ((failStart runId eventId).run platform db).runs.rows,
          run.id = runId ∧ run.status = .failed := by
  constructor
  · intro claimed
    obtain ⟨requests, reached⟩ := path_running
    have released : ∃ l ∈ running.leases.rows, ownedByRun "r1" l ∧
        Released running ((release "l1" "e6").run platform running) l := by decide +kernel
    have live : ∀ run ∈ ((release "l1" "e6").run platform running).runs.rows,
        isRunTerminal run.status = false := by decide +kernel
    obtain ⟨l, _, owned, released⟩ := released
    obtain ⟨run, there, _, finished⟩ := claimed requests (release "l1" "e6") _ _ l "r1" reached rfl
      released owned
    rw [live run there] at finished
    cases finished
  · intro claimed
    obtain ⟨requests, reached⟩ := path_running
    have logged : ∃ e ∈ ((failStart "r1" "e6").run platform running).events.rows,
        e ∉ running.events.rows ∧ e.type = .runFailed := by decide +kernel
    have live : ∀ run ∈ ((failStart "r1" "e6").run platform running).runs.rows,
        run.status ≠ .failed := by decide +kernel
    obtain ⟨e, there, fresh, failed⟩ := logged
    obtain ⟨run, member, _, finished⟩ := claimed requests running "r1" "e6" e reached ⟨there, fresh⟩ failed
    exact live run member finished

end Artoo.Server
