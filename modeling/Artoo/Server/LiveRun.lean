import Mathlib.Data.Fintype.Option
import Artoo.Server.System

/-! Tasks and their runs: which runs of a task can be live at once, and which tasks have one. -/
namespace Artoo.Server
open Artoo.Lib Artoo.Protocol Artoo.Domain Tx

/-- The task statuses a live run of the task fits. -/
def fits : RunStatus → Option TaskStatus → Bool
  | .queued, t => t == some .assigned
  | .starting, t => t == some .assigned
  | .running, t => t == some .running || t == some .awaitingApproval
  | .awaitingInput, _ => false
  | .paused, _ => false
  | _, _ => true

theorem fits_ended {s : RunStatus} (h : isRunTerminal s) (t : Option TaskStatus) : fits s t := by
  cases s <;> first | rfl | cases h

/-- The statuses of a run that works for a task in this status. -/
def serves : TaskStatus → RunStatus → Bool
  | .assigned, s => s == .queued || s == .starting
  | _, s => s == .running || s == .awaitingInput || s == .paused

/-- The task statuses that stand for work in progress. -/
def inProgress (t : TaskStatus) : Bool := t == .assigned || t == .running || t == .awaitingApproval

namespace Board

theorem run_settle {b : Board} {σ : Settlement} {runId taskId id : String} :
    (b.settle σ runId taskId).run id =
      if runId = id then (b.run id).map (RunView.move σ.run) else b.run id := rfl

theorem task_settle {b : Board} {σ : Settlement} {runId taskId id : String} :
    (b.settle σ runId taskId).task id = if taskId = id then (b.task id).map σ.task else b.task id :=
  rfl

/-- A run keeps its task through a settlement. -/
theorem of_run_settle {b : Board} {σ : Settlement} {runId taskId id : String} {v : RunView}
    (found : (b.settle σ runId taskId).run id = some v) :
    ∃ w, b.run id = some w ∧ v.taskId = w.taskId ∧
      v.status = if runId = id then σ.run w.status else w.status := by
  rw [run_settle] at found
  by_cases hit : runId = id
  · rw [if_pos hit] at found
    obtain ⟨w, there, rfl⟩ := Option.map_eq_some_iff.mp found
    exact ⟨w, there, rfl, (if_pos hit).symm⟩
  · rw [if_neg hit] at found
    exact ⟨v, found, rfl, (if_neg hit).symm⟩

/-- Each task has one live run at most, and its status fits that run. -/
structure Exclusive (b : Board) : Prop where
  fit : ∀ id v, b.run id = some v → fits v.status (b.task v.taskId)
  unique : ∀ i j v w, b.run i = some v → b.run j = some w → v.taskId = w.taskId →
    isRunTerminal v.status = false → isRunTerminal w.status = false → i = j

/-- A task in progress has a run that works for it. -/
def Served (b : Board) : Prop :=
  ∀ taskId t, b.task taskId = some t → inProgress t →
    ∃ id v, b.run id = some v ∧ v.taskId = taskId ∧ serves t v.status

/-- A task status that no run fits: the task has no live run. -/
theorem Exclusive.ended {b : Board} (h : b.Exclusive) {id : String} {v : RunView}
    (found : b.run id = some v) (idle : ∀ s, fits s (b.task v.taskId) → isRunTerminal s) :
    isRunTerminal v.status :=
  idle _ (h.fit id v found)

/-- A change of the tasks alone, where every run still fits. -/
theorem Exclusive.tasks {b : Board} (c : Board) (h : b.Exclusive) (runs : c.run = b.run)
    (fit : ∀ taskId s, fits s (b.task taskId) → fits s (c.task taskId)) : c.Exclusive := by
  constructor
  · intro id v found
    rw [runs] at found
    exact fit _ _ (h.fit id v found)
  · intro i j v w left right
    rw [runs] at left right
    exact h.unique i j v w left right

theorem Exclusive.mapTask {b : Board} {taskId : String} {g : TaskStatus → TaskStatus}
    (h : b.Exclusive) (fit : ∀ s t, fits s (some t) → fits s (some (g t))) :
    (b.mapTask taskId g).Exclusive := by
  apply h.tasks (b.mapTask taskId g) rfl
  intro id s fitted
  change fits s (if taskId = id then (b.task id).map g else b.task id)
  split
  · cases found : b.task id with
    | none =>
      rw [found] at fitted
      exact fitted
    | some t =>
      rw [found] at fitted
      exact fit s t fitted
  · exact fitted

theorem Exclusive.unlock {b : Board} {ids : List String} (h : b.Exclusive) :
    (b.unlock ids).Exclusive := by
  induction ids generalizing b with
  | nil => exact h
  | cons id ids ih =>
    apply ih
    apply h.mapTask
    decide

/-- A settlement of a run keeps the fit: of the run itself, and of the runs beside an ended one. -/
theorem Exclusive.settle {b : Board} {σ : Settlement} {runId : String} {v : RunView}
    (h : b.Exclusive) (found : b.run runId = some v)
    (own : ∀ t, fits v.status t → fits (σ.run v.status) (t.map σ.task))
    (beside : isRunTerminal v.status → ∀ id w, b.run id = some w → w.taskId = v.taskId →
      isRunTerminal w.status = false → fits w.status (b.task v.taskId) →
        fits w.status ((b.task v.taskId).map σ.task))
    (ends : isRunTerminal v.status → isRunTerminal (σ.run v.status)) :
    (b.settle σ runId v.taskId).Exclusive := by
  constructor
  · intro id w settled
    obtain ⟨u, there, task, status⟩ := of_run_settle settled
    rw [task_settle, task, status]
    by_cases self : runId = id
    · rw [← self, found] at there
      cases there
      rw [if_pos self, if_pos rfl]
      exact own _ (h.fit runId v found)
    · rw [if_neg self]
      by_cases same : v.taskId = u.taskId
      · rw [if_pos same]
        have fitted := h.fit id u there
        cases ended : isRunTerminal u.status with
        | true => exact fits_ended ended _
        | false =>
          cases finished : isRunTerminal v.status with
          | true =>
            rw [← same] at fitted ⊢
            exact beside finished id u there same.symm ended fitted
          | false => exact absurd (h.unique _ _ v u found there same finished ended) self
      · rw [if_neg same]
        exact h.fit id u there
  · intro i j x y left right same liveX liveY
    obtain ⟨u, thereU, taskU, statusU⟩ := of_run_settle left
    obtain ⟨w, thereW, taskW, statusW⟩ := of_run_settle right
    have alive : ∀ {id : String} {z : RunView} {s : RunStatus}, b.run id = some z →
        s = (if runId = id then σ.run z.status else z.status) → isRunTerminal s = false →
        isRunTerminal z.status = false := by
      intro id z s there status live
      rw [status] at live
      by_cases self : runId = id
      · rw [← self, found] at there
        cases there
        rw [if_pos self] at live
        cases finished : isRunTerminal v.status with
        | true => rw [ends finished] at live; cases live
        | false => rfl
      · rwa [if_neg self] at live
    exact h.unique i j u w thereU thereW (by rw [← taskU, ← taskW, same])
      (alive thereU statusU liveX) (alive thereW statusW liveY)

/-- A task that is new to the board has no run yet. -/
theorem Exclusive.create {b : Board} {taskId : String} (h : b.Exclusive)
    (absent : b.task taskId = none) : (b.putTask taskId .backlog).Exclusive := by
  apply h.tasks (b.putTask taskId .backlog) rfl
  intro id s fitted
  change fits s (if taskId = id then some .backlog else b.task id)
  split
  · rename_i same
    rw [← same, absent] at fitted
    apply fits_ended
    revert fitted s
    decide
  · exact fitted

/-- A task in approval can be blocked once its runs have ended. -/
theorem Exclusive.block {b : Board} {taskId : String} (h : b.Exclusive)
    (ended : b.task taskId = some .awaitingApproval → ∀ id w, b.run id = some w →
      w.taskId = taskId → isRunTerminal w.status) :
    (b.mapTask taskId (step .awaitingApproval .blocked)).Exclusive := by
  constructor
  · intro id w there
    change fits w.status (if taskId = w.taskId then (b.task w.taskId).map _ else b.task w.taskId)
    split
    · rename_i same
      by_cases waiting : b.task taskId = some .awaitingApproval
      · exact fits_ended (ended waiting id w there same.symm) _
      · have fitted := h.fit id w there
        rw [← same] at fitted ⊢
        cases found : b.task taskId with
        | none =>
          rw [found] at fitted
          exact fitted
        | some t =>
          rw [found] at fitted waiting
          have other : t ≠ .awaitingApproval := fun at_ => waiting (congrArg some at_)
          rw [Option.map_some, step, if_neg other]
          exact fitted
    · exact h.fit id w there
  · exact h.unique

theorem Exclusive.reconciled {b : Board} {runId taskId : String} {releases : Bool}
    (h : b.Exclusive) : (b.settle (.reconciled releases) runId taskId).Exclusive := by
  have same : b.settle (.reconciled releases) runId taskId = b := by
    unfold Board.settle
    exact mapTask_id.trans mapRun_id
  rw [same]
  exact h

theorem startFailed_fits :
    ∀ s t, fits s t → fits (Settlement.startFailed.run s) (t.map Settlement.startFailed.task) := by
  decide

theorem startFailed_ends :
    ∀ s, isRunTerminal s → isRunTerminal (Settlement.startFailed.run s) := by decide

/-- A start failure of an ended run must not find the task assigned to another run. -/
theorem Exclusive.startFailed {b : Board} {runId : String} {v : RunView} (h : b.Exclusive)
    (found : b.run runId = some v)
    (beside : isRunTerminal v.status → ∀ id w, b.run id = some w → w.taskId = v.taskId →
      isRunTerminal w.status = false → b.task v.taskId ≠ some .assigned) :
    (b.settle .startFailed runId v.taskId).Exclusive := by
  apply h.settle found (startFailed_fits v.status) ?_ (startFailed_ends v.status)
  intro finished id w there same live fitted
  have unassigned := beside finished id w there same live
  cases task : b.task v.taskId with
  | none =>
    rw [task] at fitted
    exact fitted
  | some t =>
    have kept : Settlement.startFailed.task t = t :=
      if_neg fun assigned => unassigned (by rw [task, assigned])
    rw [task] at fitted
    rw [Option.map_some, kept]
    exact fitted

/-- A new run for a task that has no live one. -/
theorem Exclusive.assign {b : Board} {runId : String} {v : RunView} (h : b.Exclusive)
    (ready : b.task v.taskId = some .ready) (absent : b.run runId = none)
    (queued : v.status = .queued) :
    ((b.mapTask v.taskId (step .ready .assigned)).putRun runId v).Exclusive := by
  have idle : ∀ id w, b.run id = some w → w.taskId = v.taskId → isRunTerminal w.status := by
    intro id w found same
    apply h.ended found
    rw [same, ready]
    decide
  have moved : (b.mapTask v.taskId (step .ready .assigned)).Exclusive := by
    apply h.tasks (b.mapTask v.taskId (step .ready .assigned)) rfl
    intro taskId s fitted
    change fits s (if v.taskId = taskId then (b.task taskId).map _ else b.task taskId)
    split
    · rename_i same
      rw [← same, ready] at fitted
      apply fits_ended
      revert fitted s
      decide
    · exact fitted
  have others : ∀ {id : String} {w : RunView},
      ((b.mapTask v.taskId (step .ready .assigned)).putRun runId v).run id = some w →
        (id = runId ∧ w = v) ∨ b.run id = some w := by
    intro id w found
    change (if runId = id then some v else b.run id) = some w at found
    split at found
    · rename_i same
      cases found
      exact Or.inl ⟨same.symm, rfl⟩
    · exact Or.inr found
  constructor
  · intro id w found
    rcases others found with ⟨rfl, rfl⟩ | old
    · change fits w.status (if w.taskId = w.taskId then (b.task w.taskId).map _ else _)
      rw [if_pos rfl, ready, queued]
      rfl
    · exact moved.fit id w old
  · intro i j x y left right same liveX liveY
    rcases others left with ⟨rfl, rfl⟩ | oldX
    · rcases others right with ⟨rfl, rfl⟩ | oldY
      · rfl
      · rw [idle _ _ oldY same.symm] at liveY
        cases liveY
    · rcases others right with ⟨rfl, rfl⟩ | oldY
      · rw [idle _ _ oldX same] at liveX
        cases liveX
      · exact h.unique i j x y oldX oldY same liveX liveY

/-! ## Service -/

theorem Served.mapTask {b : Board} {taskId : String} {g : TaskStatus → TaskStatus}
    (h : b.Served) (kept : ∀ t, inProgress (g t) → inProgress t ∧ ∀ s, serves t s → serves (g t) s) :
    (b.mapTask taskId g).Served := by
  intro id t found working
  change (if taskId = id then (b.task id).map g else b.task id) = some t at found
  split at found
  · obtain ⟨u, there, rfl⟩ := Option.map_eq_some_iff.mp found
    obtain ⟨worked, serving⟩ := kept u working
    obtain ⟨runId, v, run, task, served⟩ := h id u there worked
    exact ⟨runId, v, run, task, serving _ served⟩
  · exact h id t found working

theorem Served.unlock {b : Board} {ids : List String} (h : b.Served) : (b.unlock ids).Served := by
  induction ids generalizing b with
  | nil => exact h
  | cons id ids ih =>
    apply ih
    apply h.mapTask
    decide

theorem Served.putTask {b : Board} {taskId : String} {t : TaskStatus} (h : b.Served)
    (idle : inProgress t = false) : (b.putTask taskId t).Served := by
  intro id u found working
  change (if taskId = id then some t else b.task id) = some u at found
  split at found
  · cases found
    rw [idle] at working
    cases working
  · exact h id u found working

theorem Served.assign {b : Board} {runId : String} {v : RunView} (h : b.Served)
    (absent : b.run runId = none) (queued : v.status = .queued) :
    ((b.mapTask v.taskId (step .ready .assigned)).putRun runId v).Served := by
  intro id t found working
  change (if v.taskId = id then (b.task id).map _ else b.task id) = some t at found
  have old : ∀ u, b.task id = some u → inProgress u → serves u = serves t →
      ∃ i w, (if runId = i then some v else b.run i) = some w ∧ w.taskId = id ∧
        serves t w.status := by
    intro u there worked same
    obtain ⟨i, w, run, task, served⟩ := h id u there worked
    refine ⟨i, w, ?_, task, same ▸ served⟩
    split
    · rename_i taken
      rw [← taken, absent] at run
      cases run
    · exact run
  by_cases own : v.taskId = id
  · rw [if_pos own] at found
    obtain ⟨u, there, rfl⟩ := Option.map_eq_some_iff.mp found
    by_cases ready : u = .ready
    · refine ⟨runId, v, if_pos rfl, own, ?_⟩
      rw [ready, queued]
      rfl
    · have same : step .ready .assigned u = u := if_neg ready
      rw [same] at working old ⊢
      exact old u there working rfl
  · rw [if_neg own] at found
    exact old t found working rfl

/-- A settlement of a run keeps its task served: by this run, or by another as before. -/
theorem Served.settle {b : Board} {σ : Settlement} {runId : String} {v : RunView} (h : b.Served)
    (found : b.run runId = some v)
    (kept : ∀ t, b.task v.taskId = some t → inProgress (σ.task t) →
      serves (σ.task t) (σ.run v.status) ∨
        ∃ id w, id ≠ runId ∧ b.run id = some w ∧ w.taskId = v.taskId ∧ serves (σ.task t) w.status) :
    (b.settle σ runId v.taskId).Served := by
  intro id t settled working
  rw [task_settle] at settled
  have same : ∀ i w, i ≠ runId → b.run i = some w →
      (b.settle σ runId v.taskId).run i = some w := by
    intro i w other run
    rw [run_settle, if_neg (Ne.symm other), run]
  by_cases own : v.taskId = id
  · rw [if_pos own] at settled
    obtain ⟨u, there, rfl⟩ := Option.map_eq_some_iff.mp settled
    rcases kept u (own ▸ there) working with self | ⟨i, w, other, run, task, served⟩
    · refine ⟨runId, v.move σ.run, ?_, own, self⟩
      rw [run_settle, if_pos rfl, found]
      rfl
    · exact ⟨i, w, same i w other run, task.trans own, served⟩
  · rw [if_neg own] at settled
    obtain ⟨i, w, run, task, served⟩ := h id t settled working
    have other : i ≠ runId := by
      rintro rfl
      rw [found] at run
      cases run
      exact own task
    exact ⟨i, w, same i w other run, task, served⟩

/-- When the settlement of a run in status `s` leaves its task served. -/
def Serving (σ : Settlement) (s : RunStatus) (t : TaskStatus) : Prop :=
  inProgress (σ.task t) → serves (σ.task t) (σ.run s) ∨
    (inProgress t ∧ serves t s = false ∧ ∀ other, serves t other → serves (σ.task t) other)

instance (σ : Settlement) (s : RunStatus) (t : TaskStatus) : Decidable (Serving σ s t) := by
  unfold Serving
  infer_instance

theorem Served.serving {b : Board} {σ : Settlement} {runId : String} {v : RunView} (h : b.Served)
    (found : b.run runId = some v) (serving : ∀ t, b.task v.taskId = some t → Serving σ v.status t) :
    (b.settle σ runId v.taskId).Served := by
  apply h.settle found
  intro t task working
  rcases serving t task working with self | ⟨worked, unserved, kept⟩
  · exact Or.inl self
  · obtain ⟨id, w, there, same, served⟩ := h v.taskId t task worked
    refine Or.inr ⟨id, w, ?_, there, same, kept _ served⟩
    rintro rfl
    rw [found] at there
    cases there
    rw [unserved] at served
    cases served

end Board

/-! ## Steps -/

def hasLiveRun (taskId : String) (db : Database) : Bool :=
  db.runs.rows.any fun r => r.taskId == taskId && !isRunTerminal r.status

def taskIs (db : Database) (taskId : String) (s : TaskStatus) : Bool :=
  (db.tasks.get? taskId).any (·.status == s)

/-- The steps that free a task of a live run: the rejection of a request of the run, and a start
failure of an ended run of the task. -/
def abandons (op : Op) (db : Database) : Bool :=
  match op with
  | .resolveApproval approvalId req =>
    (db.approvals.get? approvalId).any fun a =>
      req.decision == .rejected && !isGate a &&
        (applyApprovalTransition a.status .reject).isSome &&
        taskIs db a.taskId .awaitingApproval && hasLiveRun a.taskId db
  | .failRunStart runId _ _ =>
    (db.runs.get? runId).any fun r =>
      isRunTerminal r.status && taskIs db r.taskId .assigned && hasLiveRun r.taskId db
  | _ => false

def endsRun : RunIngestEvent → Bool
  | .lifecycle .completed _ | .lifecycle .failed _ => true
  | _ => false

/-- The completion or failure of the one run of a task that waits for an approval. -/
def strands (platform : Platform) (op : Op) (db : Database) : Bool :=
  match op.envelope platform with
  | some (env, identity) =>
    endsRun env.event && decide (0 ≤ env.sequence ∧ env.sequence ≤ maxSequence) &&
      (db.ingests.get? env.key).isNone &&
      (db.runs.get? env.runId).any fun run =>
        (identity.isNone || env.nodeId == run.computerId) && run.status == .running &&
          taskIs db run.taskId .awaitingApproval &&
          !db.runs.rows.any fun other =>
            other.id != run.id && other.taskId == run.taskId &&
              serves .awaitingApproval other.status
  | none => false

theorem verdict_ended {run : RunRow} {phase : IngestPhase} (ended : isRunTerminal run.status) :
    ∃ releases, verdict run phase = .reconciled releases := by
  unfold verdict
  split
  · exact ⟨true, rfl⟩
  · exact ⟨false, rfl⟩

/-- The settlement of a live run by its status. -/
def liveVerdict (s : RunStatus) : IngestPhase → Settlement
  | .started => .started
  | .completed => .completed
  | .failed => if s == .queued || s == .starting then .startFailed else .failed
  | .cancelled => .cancelled

theorem verdict_live {run : RunRow} {phase : IngestPhase} (live : isRunTerminal run.status = false) :
    verdict run phase = liveVerdict run.status phase := by
  have still : run.status ≠ .failed := by
    intro failed
    rw [failed] at live
    cases live
  cases phase <;> simp [verdict, liveVerdict, still, live]

theorem decisionMove_gate {a : ApprovalRow} {d : Decision} (gate : isGate a = true) :
    decisionMove a d = .idle := by
  unfold decisionMove
  split
  · exact if_pos gate
  · exact if_pos gate
  · rfl

theorem decisionMove_approved {a : ApprovalRow} (request : isGate a = false) :
    decisionMove a .approved = .task a.taskId .awaitingApproval .running :=
  if_neg (by simp [request])

theorem decisionMove_rejected {a : ApprovalRow} (request : isGate a = false) :
    decisionMove a .rejected = .task a.taskId .awaitingApproval .blocked :=
  if_neg (by simp [request])

theorem cancelled_ends (s : RunStatus) : isRunTerminal (Settlement.cancelled.run s) := by
  cases s <;> rfl

theorem failed_edge_live :
    ∀ s, applyRunTransition s .runFailed = some .failed → isRunTerminal s = false := by decide

theorem liveVerdict_fits (s : RunStatus) (t : Option TaskStatus) (phase : IngestPhase)
    (fitted : fits s t) : fits ((liveVerdict s phase).run s) (t.map (liveVerdict s phase).task) := by
  cases phase <;>
    · revert s t
      decide

theorem hasLiveRun_of {db : Database} {taskId id : String} {v : RunView}
    (found : (board db).run id = some v) (same : v.taskId = taskId)
    (live : isRunTerminal v.status = false) : hasLiveRun taskId db := by
  obtain ⟨row, there, rfl⟩ := Option.map_eq_some_iff.mp found
  apply List.any_eq_true.mpr
  refine ⟨row, Table.mem_of_get? there, ?_⟩
  simp only [Bool.and_eq_true, beq_iff_eq, Bool.not_eq_true']
  exact ⟨same, live⟩

theorem taskIs_eq {db : Database} {taskId : String} {s : TaskStatus} :
    taskIs db taskId s = ((board db).task taskId == some s) := by
  change _ = ((db.tasks.get? taskId).map _ == some s)
  unfold taskIs
  cases db.tasks.get? taskId <;> rfl

section Step

variable {platform : Platform} {db db' : Database} {op : Op} {f : Effect} {m : Move}

/-- Every step that does not abandon a live run keeps one live run a task. -/
theorem Allows.exclusive (h : Allows platform db op f m) (exclusive : (board db).Exclusive)
    (safe : abandons op db = false) : ((board db).apply m).Exclusive := by
  cases h with
  | idle => exact exclusive
  | create op absent => exact exclusive.create absent
  | markReady => exact exclusive.mapTask (by decide)
  | assign ready absent ofTask queued =>
    cases ofTask
    exact exclusive.assign ready absent queued
  | accept =>
    apply Board.Exclusive.unlock
    exact exclusive.mapTask (by decide)
  | requestChanges => exact exclusive.mapTask (by decide)
  | retry => exact exclusive.mapTask (by decide)
  | requestApproval => exact exclusive.mapTask (by decide)
  | @resolveApproval approvalId req approval found edge =>
    cases gate : isGate approval with
    | true =>
      rw [decisionMove_gate gate]
      exact exclusive
    | false =>
      cases decision : req.decision with
      | approved =>
        rw [decisionMove_approved gate]
        exact exclusive.mapTask (by decide)
      | rejected =>
        rw [decisionMove_rejected gate]
        apply exclusive.block
        intro waiting id w there same
        cases live : isRunTerminal w.status with
        | true => rfl
        | false =>
          have still := hasLiveRun_of there same live
          rw [decision] at edge
          change (applyApprovalTransition approval.status .reject).isSome at edge
          simp [abandons, found, decision, gate, edge, taskIs_eq, waiting, still] at safe
      | needsMoreInfo => exact exclusive
  | @cancelRun runId run found live =>
    apply exclusive.settle (board_run found)
    · exact fun t _ => fits_ended (cancelled_ends _) _
    · exact fun finished => absurd finished (by simp [live])
    · exact fun finished => absurd finished (by simp [live])
  | @failRunStart runId errorCode message run found =>
    apply exclusive.startFailed (board_run found)
    intro finished id w there same live assigned
    have still := hasLiveRun_of there same live
    simp only [RunRow.view_taskId, RunRow.view_status] at finished assigned still
    simp [abandons, found, taskIs_eq, assigned, finished, still] at safe
  | confirmed => exact exclusive.reconciled
  | @disconnected runId computerId confirmed run found edge =>
    have live : isRunTerminal run.status = false := failed_edge_live _ edge
    apply exclusive.settle (board_run found)
    · have ends : isRunTerminal (step run.status .failed run.status) := by simp [step]; rfl
      exact fun t _ => fits_ended ends _
    · exact fun finished => by cases finished.symm.trans live
    · exact fun finished => by cases finished.symm.trans live
  | @startDisconnected runId computerId confirmed run found early =>
    apply exclusive.startFailed (board_run found)
    intro finished
    rcases early with early | early <;>
      · rw [RunRow.view_status, early] at finished
        cases finished
  | releaseLease => exact exclusive
  | @ingest op env identity phase failureReason run task parsed lifecycle reads fresh =>
    cases finished : isRunTerminal run.status with
    | true =>
      obtain ⟨releases, is⟩ := @verdict_ended run phase finished
      rw [is]
      exact exclusive.reconciled
    | false =>
      rw [verdict_live finished]
      apply exclusive.settle (board_run reads.foundRun)
      · exact fun t => liveVerdict_fits run.status t phase
      · exact fun ended => absurd ended (by simp [finished])
      · exact fun ended => absurd ended (by simp [finished])

theorem reconciled_serving (releases : Bool) :
    ∀ s t, Board.Serving (.reconciled releases) s t := by
  cases releases <;> decide

theorem startFailed_serving : ∀ s t, Board.Serving .startFailed s t := by decide

theorem cancelled_serving : ∀ s t, Board.Serving .cancelled s t := by decide

theorem disconnected_serving (confirmed : Bool) :
    ∀ s t, applyRunTransition s .runFailed = some .failed →
      Board.Serving (.disconnected s confirmed) s t := by
  cases confirmed <;> decide

theorem liveVerdict_serving (phase : IngestPhase) :
    ∀ s t, isRunTerminal s = false →
      (phase = .completed ∨ phase = .failed → s = .running → t ≠ .awaitingApproval) →
        Board.Serving (liveVerdict s phase) s t := by
  cases phase <;> decide

/-- The other run of the task, where the ingest of an ending strands nothing. -/
theorem other_run {env : IngestEnvelope} {identity : Option String} {phase : IngestPhase}
    {failureReason : Option String} {run : RunRow} {task : TaskRow}
    (parsed : op.envelope platform = some (env, identity))
    (lifecycle : env.event = .lifecycle phase failureReason)
    (reads : Reads env identity db run task) (fresh : db.ingests.get? env.key = none)
    (safe : strands platform op db = false) (ends : phase = .completed ∨ phase = .failed)
    (running : run.status = .running)
    (waiting : (board db).task run.taskId = some .awaitingApproval) :
    ∃ other ∈ db.runs, other.id ≠ run.id ∧ other.taskId = run.taskId ∧
      serves .awaitingApproval other.status := by
  have owned : (identity.isNone || env.nodeId == run.computerId) = true := by
    cases named : identity with
    | none => rfl
    | some i => simpa using reads.owner (by rw [named]; rfl)
  have terminal : endsRun env.event = true := by
    rw [lifecycle]
    rcases ends with rfl | rfl <;> rfl
  have others : (db.runs.rows.any fun other => other.id != run.id && other.taskId == run.taskId &&
      serves .awaitingApproval other.status) = true := by
    simpa [strands, parsed, terminal, fresh, reads.range.1, reads.range.2, reads.foundRun, owned,
      running, taskIs_eq, waiting] using safe
  obtain ⟨other, there, all⟩ := List.any_eq_true.mp others
  simp only [Bool.and_eq_true, bne_iff_ne, beq_iff_eq] at all
  exact ⟨other, there, all.1.1, all.1.2, all.2⟩

/-- Every step that strands no task keeps a run for each task in progress. -/
theorem Allows.served (h : Allows platform db op f m) (served : (board db).Served)
    (safe : strands platform op db = false) : ((board db).apply m).Served := by
  cases h with
  | idle => exact served
  | create op absent => exact served.putTask rfl
  | markReady => exact served.mapTask (by decide)
  | assign ready absent ofTask queued =>
    cases ofTask
    exact served.assign absent queued
  | accept =>
    apply Board.Served.unlock
    exact served.mapTask (by decide)
  | requestChanges => exact served.mapTask (by decide)
  | retry => exact served.mapTask (by decide)
  | requestApproval => exact served.mapTask (by decide)
  | @resolveApproval approvalId req approval found edge =>
    cases gate : isGate approval with
    | true =>
      rw [decisionMove_gate gate]
      exact served
    | false =>
      cases req.decision with
      | approved =>
        rw [decisionMove_approved gate]
        exact served.mapTask (by decide)
      | rejected =>
        rw [decisionMove_rejected gate]
        exact served.mapTask (by decide)
      | needsMoreInfo => exact served
  | cancelRun found live => exact served.serving (board_run found) fun t _ => cancelled_serving _ t
  | failRunStart found => exact served.serving (board_run found) fun t _ => startFailed_serving _ t
  | confirmed found failed =>
    exact served.serving (board_run found) fun t _ => reconciled_serving true _ t
  | disconnected found edge =>
    exact served.serving (board_run found) fun t _ => disconnected_serving _ _ t edge
  | startDisconnected found early =>
    exact served.serving (board_run found) fun t _ => startFailed_serving _ t
  | releaseLease => exact served
  | @ingest op env identity phase failureReason run task parsed lifecycle reads fresh =>
    have current := board_run reads.foundRun
    cases finished : isRunTerminal run.status with
    | true =>
      obtain ⟨releases, is⟩ := @verdict_ended run phase finished
      rw [is]
      exact served.serving current fun t _ => reconciled_serving releases _ t
    | false =>
      rw [verdict_live finished]
      by_cases waits : (phase = .completed ∨ phase = .failed) ∧ run.status = .running ∧
          (board db).task run.taskId = some .awaitingApproval
      · obtain ⟨ends, running, waiting⟩ := waits
        obtain ⟨other, there, differs, ofTask, works⟩ :=
          other_run parsed lifecycle reads fresh safe ends running waiting
        apply served.settle current
        intro t found _
        have awaits : t = .awaitingApproval := by
          rw [RunRow.view_taskId, waiting] at found
          exact (Option.some.inj found).symm
        have key : run.id = env.runId := Table.key_of_get? reads.foundRun
        refine Or.inr ⟨other.id, other.view, key ▸ differs, ?_, ofTask, ?_⟩
        · exact board_run (Table.get?_of_mem there)
        · have kept : ∀ s, serves ((liveVerdict run.status phase).task .awaitingApproval) s =
              serves .awaitingApproval s := by
            rw [running]
            rcases ends with rfl | rfl <;> decide
          rw [awaits, kept]
          exact works
      · apply served.serving current
        intro t found
        apply liveVerdict_serving phase run.status t finished
        rintro ends running rfl
        exact waits ⟨ends, running, found⟩

end Step

/-- A task in progress has a run that has not ended. -/
def NoneStranded (db : Database) : Prop :=
  ∀ task ∈ db.tasks.rows, inProgress task.status →
    ∃ run ∈ db.runs.rows, run.taskId = task.id ∧ isRunTerminal run.status = false

/-- The runs of a task that have not ended are one. -/
def OneLive (db : Database) : Prop :=
  ∀ run ∈ db.runs.rows, ∀ other ∈ db.runs.rows, run.taskId = other.taskId →
    isRunTerminal run.status = false → isRunTerminal other.status = false → run.id = other.id

instance (db : Database) : Decidable (NoneStranded db) := by
  unfold NoneStranded
  infer_instance

instance (db : Database) : Decidable (OneLive db) := by
  unfold OneLive
  infer_instance

theorem Board.Served.noneStranded {db : Database} (h : (board db).Served) : NoneStranded db := by
  intro task member working
  obtain ⟨id, v, found, same, served⟩ := h task.id task.status
    (board_task (Table.get?_of_mem member)) working
  obtain ⟨run, there, rfl⟩ := Option.map_eq_some_iff.mp found
  refine ⟨run, Table.mem_of_get? there, same, ?_⟩
  have live : ∀ t s, serves t s → isRunTerminal s = false := by decide
  exact live _ _ served

theorem Board.Exclusive.oneLive {db : Database} (h : (board db).Exclusive) : OneLive db := by
  intro run member other there same live alive
  exact h.unique run.id other.id run.view other.view (board_run (Table.get?_of_mem member))
    (board_run (Table.get?_of_mem there)) same live alive

section Runs

variable {platform : Platform} {requests : List Request} {db : Database}

theorem tasks_in_progress_served
    (h : Path (Avoiding platform (strands platform)) requests .empty db) : NoneStranded db := by
  have kept : ∀ r s t, (board s).Served → Avoiding platform (strands platform) r s t →
      (board t).Served := by
    rintro r s t served ⟨step, safe⟩
    obtain ⟨f, m, moves⟩ := step_moves step
    rw [moves.board]
    exact moves.allowed.served served safe
  have initial : (board .empty).Served := by
    intro taskId t found
    cases found
  exact (h.invariant kept initial).noneStranded

theorem one_live_run (h : Path (Avoiding platform abandons) requests .empty db) :
    OneLive db := by
  have kept : ∀ r s t, (board s).Exclusive → Avoiding platform abandons r s t →
      (board t).Exclusive := by
    rintro r s t exclusive ⟨step, safe⟩
    obtain ⟨f, m, moves⟩ := step_moves step
    rw [moves.board]
    exact moves.allowed.exclusive exclusive safe
  have initial : (board .empty).Exclusive := by
    constructor
    · intro id v found
      cases found
    · intro i j v w found
      cases found
  exact (h.invariant kept initial).oneLive

end Runs

/-! ## Runs that leave the condition -/

open Sample

theorem tasks_in_progress_served_approved :
    NoneStranded (serve platform [create, ready, assign "r1" "e4", report "r1" 0 .started "e5",
      ask "a1" "e6", decide_ "a1" .approved "e7", report "r1" 1 .completed "e8"] .empty) :=
  tasks_in_progress_served (path_avoiding (by decide +kernel))

/-- The run completes while its task waits for an approval. -/
theorem completed_in_approval :
    ¬ ∀ requests db, Path (Step platform) requests .empty db → NoneStranded db := by
  intro claimed
  exact absurd (claimed [create, ready, assign "r1" "e4", report "r1" 0 .started "e5",
    ask "a1" "e6", report "r1" 1 .completed "e7"] _ path_serve) (by decide +kernel)

theorem one_live_run_retried :
    OneLive (serve platform [create, ready, assign "r1" "e4", report "r1" 0 .started "e5",
      report "r1" 1 .failed "e6", retry "e7", assign "r2" "e8"] .empty) :=
  one_live_run (path_avoiding (by decide +kernel))

/-- A request of the first run is rejected, the task is retried and gets a second run. -/
theorem rejected_and_retried :
    ¬ ∀ requests db, Path (Step platform) requests .empty db → OneLive db := by
  intro claimed
  exact absurd (claimed [create, ready, assign "r1" "e4", report "r1" 0 .started "e5",
    ask "a1" "e6", decide_ "a1" .rejected "e7", retry "e8", assign "r2" "e9"] _ path_serve)
    (by decide +kernel)

end Artoo.Server
