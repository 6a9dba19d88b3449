import Artoo.Server.Effects
import Artoo.Server.Reads

/-! The statuses of runs and tasks as a board, and the settlements of a run: every path that
starts or ends a run moves its status and the status of its task, reports one lifecycle event and
may release its leases. -/
namespace Artoo.Server
open Artoo.Lib Artoo.Protocol Artoo.Domain Tx

/-- What a run is bound to, and its status. -/
structure RunView where
  taskId : String
  computerId : String
  agentInstanceId : String
  workspaceRoot : Option String
  workspaceBranch : Option String
  status : RunStatus
  deriving DecidableEq, Repr

@[ext] structure Board where
  run : String → Option RunView
  task : String → Option TaskStatus

def RunRow.view (row : RunRow) : RunView :=
  ⟨row.taskId, row.computerId, row.agentInstanceId, row.workspaceRoot, row.workspaceBranch,
    row.status⟩

@[simp] theorem RunRow.view_status {row : RunRow} : row.view.status = row.status := rfl

@[simp] theorem RunRow.view_taskId {row : RunRow} : row.view.taskId = row.taskId := rfl

def board (db : Database) : Board :=
  ⟨fun id => (db.runs.get? id).map RunRow.view, fun id => (db.tasks.get? id).map (·.status)⟩

def RunView.move (g : RunStatus → RunStatus) (v : RunView) : RunView := { v with status := g v.status }

namespace Board

def mapRun (b : Board) (runId : String) (g : RunStatus → RunStatus) : Board :=
  { b with run := fun id => if runId = id then (b.run id).map (RunView.move g) else b.run id }

def mapTask (b : Board) (taskId : String) (g : TaskStatus → TaskStatus) : Board :=
  { b with task := fun id => if taskId = id then (b.task id).map g else b.task id }

@[simp] theorem mapRun_task {b : Board} {runId : String} {g : RunStatus → RunStatus} :
    (b.mapRun runId g).task = b.task := rfl

@[simp] theorem mapTask_run {b : Board} {taskId : String} {g : TaskStatus → TaskStatus} :
    (b.mapTask taskId g).run = b.run := rfl

theorem mapRun_congr {b : Board} {runId : String} {g h : RunStatus → RunStatus}
    (same : ∀ v, b.run runId = some v → g v.status = h v.status) :
    b.mapRun runId g = b.mapRun runId h := by
  unfold mapRun
  congr 1
  funext id
  by_cases hit : runId = id
  · rw [if_pos hit, if_pos hit, ← hit]
    cases found : b.run runId with
    | none => rfl
    | some v => simp [RunView.move, same v found]
  · rw [if_neg hit, if_neg hit]

theorem mapTask_congr {b : Board} {taskId : String} {g h : TaskStatus → TaskStatus}
    (same : ∀ s, b.task taskId = some s → g s = h s) : b.mapTask taskId g = b.mapTask taskId h := by
  unfold mapTask
  congr 1
  funext id
  by_cases hit : taskId = id
  · rw [if_pos hit, if_pos hit, ← hit]
    cases found : b.task taskId with
    | none => rfl
    | some s => simp [same s found]
  · rw [if_neg hit, if_neg hit]

theorem mapRun_mapRun {b : Board} {runId : String} {g h : RunStatus → RunStatus} :
    (b.mapRun runId g).mapRun runId h = b.mapRun runId (h ∘ g) := by
  unfold mapRun
  congr 1
  funext id
  by_cases hit : runId = id
  · simp only [if_pos hit, Option.map_map]
    rfl
  · simp only [if_neg hit]

theorem mapRun_id {b : Board} {runId : String} : b.mapRun runId id = b := by
  unfold mapRun
  congr 1
  funext other
  by_cases hit : runId = other
  · rw [if_pos hit]
    cases b.run other <;> rfl
  · rw [if_neg hit]

theorem mapTask_id {b : Board} {taskId : String} : b.mapTask taskId id = b := by
  unfold mapTask
  congr 1
  funext other
  by_cases hit : taskId = other
  · rw [if_pos hit, Option.map_id, id]
  · rw [if_neg hit]

theorem mapTask_same {b : Board} {taskId : String} {g : TaskStatus → TaskStatus}
    (same : ∀ s, b.task taskId = some s → g s = s) : b.mapTask taskId g = b :=
  (mapTask_congr same).trans mapTask_id

theorem mapRun_same {b : Board} {runId : String} {g : RunStatus → RunStatus}
    (same : ∀ v, b.run runId = some v → g v.status = v.status) : b.mapRun runId g = b :=
  (mapRun_congr same).trans mapRun_id

end Board

/-- A guarded update of a status. -/
def step {σ : Type} [DecidableEq σ] (source target s : σ) : σ := if s = source then target else s

theorem board_afterRun {runId : String} {source target : RunStatus} {patch : RunPatch}
    {db : Database} :
    board (afterRun runId source target patch db) = (board db).mapRun runId (step source target) := by
  unfold board afterRun Board.mapRun
  congr 1
  funext id
  rw [Table.get?_adjust]
  · by_cases hit : runId = id
    · rw [if_pos hit, if_pos hit, Option.map_map, Option.map_map]
      congr 1
      funext row
      by_cases at_source : row.status = source
      · simp [guarded, RunPatch.apply, RunRow.view, RunView.move, step, at_source]
      · simp [guarded, RunRow.view, RunView.move, step, at_source]
    · rw [if_neg hit, if_neg hit]
  · intro row
    unfold guarded
    split <;> rfl

theorem board_afterTask {taskId : String} {source target : TaskStatus} {now : String}
    {db : Database} :
    board (afterTask taskId source target now db) =
      (board db).mapTask taskId (step source target) := by
  unfold board afterTask Board.mapTask
  congr 1
  funext id
  rw [Table.get?_adjust]
  · by_cases hit : taskId = id
    · rw [if_pos hit, if_pos hit, Option.map_map, Option.map_map]
      congr 1
      funext row
      by_cases at_source : row.status = source
      · simp [guarded, setTaskStatus, step, at_source]
      · simp [guarded, step, at_source]
    · rw [if_neg hit, if_neg hit]
  · intro row
    unfold guarded setTaskStatus
    split <;> rfl

theorem changes_board {db : Database} {runId : String} {source : RunStatus} :
    changes RunRow.status source (db.runs.get? runId) =
      ((board db).run runId).any (·.status == source) := by
  change _ = ((db.runs.get? runId).map RunRow.view).any _
  unfold changes
  cases db.runs.get? runId <;> rfl

theorem board_run {db : Database} {runId : String} {run : RunRow}
    (found : db.runs.get? runId = some run) : (board db).run runId = some run.view := by
  change (db.runs.get? runId).map RunRow.view = _
  rw [found]
  rfl

theorem Quiet.board {f : Effect} {db db' : Database} (h : Quiet f db db') :
    board db' = board db := by
  unfold Server.board
  rw [h.runs, h.tasks]

theorem wp_buildEvents {specs : List EventSpec} {db : Database}
    (other : ∀ spec ∈ specs, spec.type ∉ lifecycleEvents) :
    wp (specs.mapM buildEvent)
      (fun built db' => db' = db ∧ ∀ e ∈ built, e.type ∉ lifecycleEvents) db := by
  induction specs with
  | nil => exact ⟨rfl, by simp⟩
  | cons spec specs ih =>
    rw [List.mapM_cons]
    intro id now
    apply wp_seq (ih fun s member => other s (List.mem_cons_of_mem _ member))
    rintro built _ ⟨rfl, rest⟩
    refine ⟨rfl, fun e member => ?_⟩
    rcases List.mem_cons.mp member with rfl | member
    · exact other spec List.mem_cons_self
    · exact rest e member

theorem keeps_appendEvent {f : Effect} {e : EventRow} (other : e.type ∉ lifecycleEvents) :
    Keeps (Quiet f) (appendEvent e) := by
  intro db
  unfold appendEvent
  rw [wp_insert, Option.isSome_eq_false_iff, Option.isNone_iff_eq_none]
  exact fun fresh => Quiet.append fresh fun reported => absurd reported other

/-- The transition of a task, and the events it logs when it fires. -/
theorem wp_taskTo (f : Effect) (target : TaskStatus) {taskId : String} {source : TaskStatus}
    {trigger : TaskTrigger} {now : String} {events : TaskStatus → List EventSpec}
    {post : TransitionResult TaskStatus → Database → Prop} {db : Database}
    (edge : applyTaskTransition source trigger = some target)
    (other : ∀ spec ∈ events target, spec.type ∉ lifecycleEvents)
    (h : ∀ db', Quiet f (afterTask taskId source target now db) db' →
      post ⟨changes TaskRow.status source (db.tasks.get? taskId), target⟩ db') :
    wp (transitionTask taskId source trigger now events) post db := by
  unfold transitionTask
  simp only [wp_bind, wp_orThrow, wp_update, edge, Option.some.injEq, forall_eq']
  rw [changes_eq, writeAll_guarded Database.tasks Write.task (fun t db => { db with tasks := t })
    (fun _ _ => rfl) fun _ => rfl]
  split
  · apply wp_seq (wp_buildEvents other)
    rintro built _ ⟨rfl, types⟩
    have appended : Keeps (Quiet f) (built.forM appendEvent) :=
      keeps_forM fun e member => keeps_appendEvent (types e member)
    exact wp_keeps appended fun _ => h
  · exact h _ (Std.Refl.refl _)

/-! ## Settlements -/

/-- What a transaction that starts or ends a run does to the statuses, and what it reports. -/
structure Settlement where
  run : RunStatus → RunStatus := id
  task : TaskStatus → TaskStatus := id
  type : EventType
  releases : Bool

namespace Settlement

def started : Settlement where
  run := step .starting .running ∘ step .queued .starting
  task := step .assigned .running
  type := .runStarted
  releases := false

def completed : Settlement where
  run := step .running .completed
  task := step .running .review
  type := .runCompleted
  releases := true

def startFailed : Settlement where
  run := step .starting .failed ∘ step .queued .starting
  task := step .assigned .ready
  type := .runFailed
  releases := true

def failed : Settlement where
  run := step .running .failed
  task := step .running .blocked
  type := .runFailed
  releases := true

def cancelled : Settlement where
  run := fun s => if isRunTerminal s then s else .cancelled
  task := fun s => if taskTerminal.contains s then s else .cancelled
  type := .runCancelled
  releases := true

/-- A terminal event of a run that has ended; it releases only what a disconnect kept. -/
def reconciled (releases : Bool) : Settlement where
  type := .runReconciled
  releases

/-- The disconnect of a run whose process had started, by its status. -/
def disconnected (source : RunStatus) (confirmed : Bool) : Settlement where
  run := step source .failed
  task := fun s => if canTransitionTask s .runFailed then .blocked else s
  type := .runFailed
  releases := confirmed

def startDisconnected (confirmed : Bool) : Settlement where
  run := step .starting .failed ∘ step .queued .starting
  task := step .assigned .ready
  type := .runFailed
  releases := confirmed

def effect (σ : Settlement) (runId : String) : Effect where
  reports := fun type id => type = σ.type ∧ id = some runId
  released := fun l => σ.releases ∧ ownedByRun runId l

end Settlement

def Board.settle (b : Board) (σ : Settlement) (runId taskId : String) : Board :=
  (b.mapRun runId σ.run).mapTask taskId σ.task

structure Settles (σ : Settlement) (runId taskId : String) (db db' : Database) : Prop where
  board : board db' = (board db).settle σ runId taskId
  ingests : db'.ingests = db.ingests
  leases : LeasesStep (σ.effect runId) db db'
  events : Appends (σ.effect runId) db db'

/-- Transitions alone touch runs and tasks. -/
structure Moved (db db' : Database) : Prop where
  ingests : db'.ingests = db.ingests
  leases : db'.leases = db.leases
  events : db'.events = db.events

/-- The transitions come first; the rest of the transaction is quiet. -/
theorem Settles.of_quiet {σ : Settlement} {runId taskId : String} {db mid db' : Database}
    (quiet : Quiet (σ.effect runId) mid db') (moved : Moved db mid)
    (settled : Server.board mid = (Server.board db).settle σ runId taskId) :
    Settles σ runId taskId db db' where
  board := quiet.board.trans settled
  ingests := quiet.ingests.trans moved.ingests
  leases := LeasesStep.trans (.of_eq moved.leases) quiet.leases
  events := Appends.trans (.of_eq moved.events) quiet.events

/-- The settlement an ingested lifecycle event makes, by the run as it is. -/
def verdict (run : RunRow) (phase : IngestPhase) : Settlement :=
  if phase != .started && run.status == .failed && run.failureReason == some disconnectReason then
    .reconciled true
  else if isRunTerminal run.status then .reconciled false
  else
    match phase with
    | .started => .started
    | .completed => .completed
    | .failed => if run.status == .queued || run.status == .starting then .startFailed else .failed
    | .cancelled => .cancelled

section Ingest

variable {s : IngestScope} {db : Database}

theorem keeps_emitted (σ : Settlement) {type : EventType} {payload : Payload}
    {message : Option EmitMessage} (is : σ.type = type) :
    Keeps (Quiet (σ.effect s.env.runId)) (emit s type payload message) :=
  keeps_emit fun _ => ⟨is.symm, rfl⟩

theorem keeps_released (σ : Settlement) {runId : String} (releases : σ.releases) :
    Keeps (Quiet (σ.effect runId)) (releaseRunLeases runId) :=
  keeps_releaseRunLeases fun _ owned => ⟨releases, owned⟩

theorem keeps_reported (σ : Settlement) {type : EventType} {payload : Payload}
    {message : Option EmitMessage} (is : σ.type = type) (releases : σ.releases) :
    Keeps (Quiet (σ.effect s.env.runId)) (do
      let eventId ← emit s type payload message
      releaseRunLeases s.env.runId
      return eventId) :=
  keeps_bind (keeps_emitted σ is) fun _ => keeps_bind (keeps_released σ releases) fun _ => keeps_done

theorem wp_ingestStarted :
    wp (ingestStarted s) (fun _ db' => Settles .started s.env.runId s.run.taskId db db') db := by
  unfold ingestStarted
  rw [wp_bind, wp_runTo .starting rfl, wp_bind, wp_runTo .running rfl, wp_bind]
  apply wp_taskTo (Settlement.started.effect s.env.runId) .running rfl (by simp)
  intro mid quiet
  apply wp_mono (keeps_emitted .started rfl mid)
  intro _ db' later
  refine Settles.of_quiet (IsTrans.trans _ _ _ quiet later) ⟨rfl, rfl, rfl⟩ ?_
  rw [board_afterTask, board_afterRun, board_afterRun, Board.mapRun_mapRun]
  rfl

theorem wp_ingestCompleted :
    wp (ingestCompleted s) (fun _ db' => Settles .completed s.env.runId s.run.taskId db db') db := by
  unfold ingestCompleted
  rw [wp_bind, wp_runTo .completed rfl, wp_bind]
  apply wp_taskTo (Settlement.completed.effect s.env.runId) .review rfl (by simp)
  intro mid quiet
  apply wp_mono (keeps_reported .completed rfl rfl mid)
  intro _ db' later
  refine Settles.of_quiet (IsTrans.trans _ _ _ quiet later) ⟨rfl, rfl, rfl⟩ ?_
  rw [board_afterTask, board_afterRun]
  rfl

theorem wp_ingestFailedBeforeStart {failureReason : String} :
    wp (ingestFailedBeforeStart s failureReason)
      (fun _ db' => Settles .startFailed s.env.runId s.run.taskId db db') db := by
  unfold ingestFailedBeforeStart
  rw [wp_bind, wp_runTo .starting rfl, wp_bind, wp_runTo .failed rfl, wp_bind]
  apply wp_taskTo (Settlement.startFailed.effect s.env.runId) .ready rfl (by simp)
  intro mid quiet
  apply wp_mono (keeps_reported .startFailed rfl rfl mid)
  intro _ db' later
  refine Settles.of_quiet (IsTrans.trans _ _ _ quiet later) ⟨rfl, rfl, rfl⟩ ?_
  rw [board_afterTask, board_afterRun, board_afterRun, Board.mapRun_mapRun]
  rfl

theorem wp_ingestFailed {failureReason : String} :
    wp (ingestFailed s failureReason)
      (fun _ db' => Settles .failed s.env.runId s.run.taskId db db') db := by
  unfold ingestFailed
  rw [wp_bind, wp_runTo .failed rfl, wp_bind]
  apply wp_taskTo (Settlement.failed.effect s.env.runId) .blocked rfl (by simp)
  intro mid quiet
  refine wp_within (Quiet (Settlement.failed.effect s.env.runId)) ?_ ?_
  · apply keeps_bind (keeps_emitted .failed rfl)
    intro eventId
    apply keeps_bind (keeps_released .failed rfl)
    intro _
    split
    · exact keeps_bind keeps_propagateBlocked fun _ => keeps_done
    · exact keeps_done
  · intro _ db' later
    refine Settles.of_quiet (IsTrans.trans _ _ _ quiet later) ⟨rfl, rfl, rfl⟩ ?_
    rw [board_afterTask, board_afterRun]
    rfl

theorem cancelRun_edge {source : RunStatus} (live : isRunTerminal source = false) :
    applyRunTransition source .cancel = some .cancelled := by
  rw [run_cancel, live]
  rfl

theorem cancelTask_edge {source : TaskStatus} (can : canTransitionTask source .cancel = true) :
    applyTaskTransition source .cancel = some .cancelled := by
  cases source <;> first | rfl | cases can

theorem step_cancelTask {source : TaskStatus} (can : canTransitionTask source .cancel = true) :
    step source .cancelled source = Settlement.cancelled.task source := by
  cases source <;> first | rfl | cases can

theorem closed_cancelTask {source : TaskStatus} (cannot : ¬ canTransitionTask source .cancel = true) :
    Settlement.cancelled.task source = source := by
  cases source <;> first | rfl | exact absurd rfl cannot

/-- The moves of a cancellation, where the statuses are the current ones. -/
theorem board_cancelled {runId taskId : String} {run : RunRow} {target : TaskStatus → TaskStatus}
    (current : db.runs.get? runId = some run) (live : isRunTerminal run.status = false)
    (task : ∀ status, (board db).task taskId = some status →
      target status = Settlement.cancelled.task status) :
    ((board db).mapRun runId (step run.status .cancelled)).mapTask taskId target =
      (board db).settle .cancelled runId taskId := by
  have moved : (board db).mapRun runId (step run.status .cancelled) =
      (board db).mapRun runId Settlement.cancelled.run := by
    apply Board.mapRun_congr
    intro v found
    have view : run.view = v := by simpa [board, current] using found
    subst view
    change step run.status .cancelled run.status =
      if isRunTerminal run.status then run.status else .cancelled
    simp [step, live]
  unfold Board.settle
  rw [moved]
  exact Board.mapTask_congr task

theorem wp_ingestCancelled (currentRun : db.runs.get? s.env.runId = some s.run)
    (currentTask : db.tasks.get? s.run.taskId = some s.task)
    (live : isRunTerminal s.run.status = false) :
    wp (ingestCancelled s) (fun _ db' => Settles .cancelled s.env.runId s.run.taskId db db') db := by
  have status : ∀ t, (board db).task s.run.taskId = some t → s.task.status = t := by
    intro t found
    simpa [board, currentTask] using found
  unfold ingestCancelled
  rw [wp_bind, wp_runTo .cancelled (cancelRun_edge live)]
  split
  · rename_i can
    rw [wp_bind]
    apply wp_taskTo (Settlement.cancelled.effect s.env.runId) .cancelled (cancelTask_edge can)
      (by simp [runCancelledUpdate, agentSpec, lifecycleEvents])
    intro mid quiet
    apply wp_keeps keeps_propagateBlocked
    intro _ mid' signalled
    apply wp_mono (keeps_reported .cancelled rfl rfl mid')
    intro _ db' later
    have all := IsTrans.trans _ _ _ (IsTrans.trans _ _ _ quiet signalled) later
    refine Settles.of_quiet all ⟨rfl, rfl, rfl⟩ ?_
    rw [board_afterTask, board_afterRun]
    apply board_cancelled currentRun live
    intro t found
    rw [← status t found]
    exact step_cancelTask can
  · rename_i cannot
    apply wp_mono (keeps_reported .cancelled rfl rfl _)
    intro _ db' later
    refine Settles.of_quiet later ⟨rfl, rfl, rfl⟩ ?_
    rw [board_afterRun, ← @Board.mapTask_id (Board.mapRun _ _ _) s.run.taskId]
    apply board_cancelled currentRun live
    intro t found
    rw [← status t found]
    exact (closed_cancelTask cannot).symm

/-- An ingested lifecycle event settles the run by its verdict. -/
theorem wp_ingestLifecycle {phase : IngestPhase} {failureReason : Option String}
    (currentRun : db.runs.get? s.env.runId = some s.run)
    (currentTask : db.tasks.get? s.run.taskId = some s.task) :
    wp (ingestLifecycle s phase failureReason)
      (fun _ db' => Settles (verdict s.run phase) s.env.runId s.run.taskId db db') db := by
  have still : ∀ releases, board db = (board db).settle (.reconciled releases) s.env.runId s.run.taskId := by
    intro releases
    unfold Board.settle
    rw [Settlement.reconciled, Board.mapRun_id, Board.mapTask_id]
  unfold ingestLifecycle verdict
  split
  · apply wp_mono (keeps_reported (.reconciled true) rfl rfl db)
    exact fun _ db' quiet => Settles.of_quiet quiet ⟨rfl, rfl, rfl⟩ (still true)
  · split
    · apply wp_mono (keeps_emitted (.reconciled false) rfl db)
      exact fun _ db' quiet => Settles.of_quiet quiet ⟨rfl, rfl, rfl⟩ (still false)
    · rename_i live
      cases phase with
      | started => exact wp_ingestStarted
      | completed => exact wp_ingestCompleted
      | failed =>
        dsimp only
        split
        · exact wp_ingestFailedBeforeStart
        · exact wp_ingestFailed
      | cancelled => exact wp_ingestCancelled currentRun currentTask (by simpa using live)

end Ingest

/-! ## The other paths that end a run -/

theorem wp_failRunStart {runId errorCode message : String} {db : Database} :
    wp (failRunStart runId errorCode message)
      (fun _ db' => ∃ run, db.runs.get? runId = some run ∧
        Settles .startFailed runId run.taskId db db') db := by
  unfold failRunStart
  simp only [wp_bind, wp_nowIso, wp_select, wp_orThrow]
  intro now run found
  rw [wp_runTo .starting rfl, wp_runTo .failed rfl]
  apply wp_taskTo (Settlement.startFailed.effect runId) .ready rfl (by simp)
  intro mid quiet
  have key : run.id = runId := Table.key_of_get? found
  have reported : Keeps (Quiet (Settlement.startFailed.effect runId)) (logEvent (systemSpec
      .runFailed run (db.tasks.get? run.taskId) (runPayload runId ++
        [("failure_reason", .str (errorCode ++ ": " ++ message)), ("recoverable", .bool true)]))) :=
    keeps_logEvent fun _ => ⟨rfl, by simp [systemSpec, key]⟩
  apply wp_mono (reported mid)
  intro _ mid' logged
  apply wp_mono (keeps_released .startFailed rfl mid')
  intro _ db' later
  have all := IsTrans.trans _ _ _ (IsTrans.trans _ _ _ quiet logged) later
  refine ⟨run, found, Settles.of_quiet all ⟨rfl, rfl, rfl⟩ ?_⟩
  rw [board_afterTask, board_afterRun, board_afterRun, Board.mapRun_mapRun]
  rfl

theorem wp_cancelTask (f : Effect) {ctx : Context} {run : RunRow} {task : Option TaskRow}
    {now : String} {db : Database} (current : db.tasks.get? run.taskId = task) :
    wp (cancelTask ctx run task now)
      (fun _ db' => ∃ mid, Quiet f mid db' ∧ Moved db mid ∧
        board mid = (board db).mapTask run.taskId Settlement.cancelled.task) db := by
  unfold cancelTask
  have status : ∀ t, (board db).task run.taskId = some t → task.map (·.status) = some t := by
    intro t found
    rw [← found, ← current]
    rfl
  cases task with
  | none =>
    refine ⟨db, Std.Refl.refl db, ⟨rfl, rfl, rfl⟩, (Board.mapTask_same ?_).symm⟩
    intro t found
    cases status t found
  | some task =>
    dsimp only
    split
    · rename_i can
      rw [wp_bind]
      apply wp_taskTo f .cancelled (cancelTask_edge can)
      · intro spec member
        rw [List.mem_singleton.mp member]
        exact (by decide : EventType.taskUpdated ∉ lifecycleEvents)
      · intro db' quiet
        refine ⟨_, quiet, ⟨rfl, rfl, rfl⟩, ?_⟩
        rw [board_afterTask]
        apply Board.mapTask_congr
        intro t found
        rw [← Option.some.inj (status t found)]
        exact step_cancelTask can
    · rename_i cannot
      refine ⟨db, Std.Refl.refl db, ⟨rfl, rfl, rfl⟩, (Board.mapTask_same ?_).symm⟩
      intro t found
      rw [← Option.some.inj (status t found)]
      exact closed_cancelTask cannot

theorem live_of_canCancel {s : RunStatus} (can : canTransitionRun s .cancel = true) :
    isRunTerminal s = false := by
  cases s <;> first | rfl | cases can

/-- A cancellation settles a live run, or finds it already cancelled. -/
theorem wp_cancelRun {ctx : Context} {runId : String} {db : Database} :
    wp (cancelRun ctx runId)
      (fun _ db' => db' = db ∨ ∃ run, db.runs.get? runId = some run ∧
        isRunTerminal run.status = false ∧ Settles .cancelled runId run.taskId db db') db := by
  unfold cancelRun
  rw [wp_bind, wp_nowIso]
  intro now
  rw [wp_bind, wp_select, wp_bind, wp_orThrow]
  intro run found
  split
  · exact Or.inl rfl
  · rw [wp_bind, wp_throwIf, Bool.not_eq_eq_eq_not, Bool.not_false]
    intro can
    have live := live_of_canCancel can
    rw [wp_bind, wp_runTo .cancelled (cancelRun_edge live), wp_bind, wp_select]
    apply wp_seq (wp_cancelTask (Settlement.cancelled.effect runId) rfl)
    rintro taskCancelled mid' ⟨mid, quiet, moved, settled⟩
    have released : Keeps (Quiet (Settlement.cancelled.effect runId)) (do
        releaseRunLeases runId
        let updated ← select (·.runs.get? runId)
        orThrow updated (.error "cancelRun: run missing after transition")) :=
      keeps_bind (keeps_released .cancelled rfl) fun _ =>
        keeps_bind keeps_select fun _ => keeps_orThrow
    refine wp_within (Quiet (Settlement.cancelled.effect runId)) ?_ ?_
    · apply keeps_bind (keeps_logEvent (by exact fun _ => ⟨rfl, rfl⟩))
      intro _
      dsimp only
      split
      · exact keeps_bind keeps_propagateBlocked fun _ => released
      · exact released
    · intro _ db' later
      refine Or.inr ⟨run, found, live, ?_⟩
      refine Settles.of_quiet (IsTrans.trans _ _ _ quiet later)
        ⟨moved.ingests, moved.leases, moved.events⟩ ?_
      rw [settled, board_afterRun]
      exact board_cancelled found live fun _ _ => rfl

section Disconnect

variable {run : RunRow} {task : Option TaskRow} {now : String} {confirmed : Bool} {db : Database}

theorem keeps_emitDisconnected (σ : Settlement) (is : σ.type = .runFailed)
    (releases : σ.releases = confirmed) :
    Keeps (Quiet (σ.effect run.id)) (emitDisconnected run task confirmed) := by
  unfold emitDisconnected
  apply keeps_bind (keeps_logEvent (by exact fun _ => ⟨is.symm, rfl⟩))
  intro _
  split
  · rename_i exited
    exact keeps_released σ (releases.trans exited)
  · exact keeps_done

theorem keeps_confirmDisconnect {computerId : String} :
    Keeps (Quiet ((Settlement.reconciled true).effect run.id)) (confirmDisconnect run computerId) := by
  unfold confirmDisconnect
  apply keeps_bind (keeps_released (.reconciled true) rfl)
  intro _
  apply keeps_bind reads_unconfirmed.keeps
  intro unconfirmed
  split
  · apply keeps_bind keeps_select
    intro task
    exact keeps_bind (keeps_logEvent (by exact fun _ => ⟨rfl, rfl⟩)) fun _ => keeps_done
  · exact keeps_done

theorem settle_reconciled {b : Board} {runId taskId : String} {releases : Bool} :
    b.settle (.reconciled releases) runId taskId = b := by
  unfold Board.settle
  rw [Settlement.reconciled, Board.mapRun_id, Board.mapTask_id]

theorem blockTask_edge {source : TaskStatus} (can : canTransitionTask source .runFailed = true) :
    applyTaskTransition source .runFailed = some .blocked := by
  cases source <;> first | rfl | cases can

theorem wp_disconnectStarted (current : db.runs.get? run.id = some run)
    (currentTask : db.tasks.get? run.taskId = task)
    (edge : applyRunTransition run.status .runFailed = some .failed) :
    wp (disconnectStarted run task now confirmed)
      (fun _ db' => Settles (.disconnected run.status confirmed) run.id run.taskId db db') db := by
  have fires : changes RunRow.status run.status (db.runs.get? run.id) = true := by
    simp [changes, current]
  have status : ∀ t, (board db).task run.taskId = some t → task.map (·.status) = some t := by
    intro t found
    rw [← found, ← currentTask]
    rfl
  -- the rest of the transaction, where the task stays
  have stays : (∀ t, task.map (·.status) = some t → canTransitionTask t .runFailed = false) →
      ∀ db', Quiet ((Settlement.disconnected run.status confirmed).effect run.id)
        (afterRun run.id run.status .failed
          { endedAt := now, failureReason := disconnectReason } db) db' →
        Settles (.disconnected run.status confirmed) run.id run.taskId db db' := by
    intro cannot db' quiet
    refine Settles.of_quiet quiet ⟨rfl, rfl, rfl⟩ ?_
    rw [board_afterRun]
    refine (Board.mapTask_same ?_).symm
    intro t found
    have closed := cannot t (status t found)
    simp [Settlement.disconnected, closed]
  unfold disconnectStarted
  rw [wp_bind, wp_runTo .failed edge, fires, if_neg (by decide)]
  have reported := @keeps_emitDisconnected run task confirmed
    (.disconnected run.status confirmed) rfl rfl
  have settled : Keeps (Quiet ((Settlement.disconnected run.status confirmed).effect run.id)) (do
      emitDisconnected run task confirmed
      return true) := keeps_bind reported fun _ => keeps_done
  cases task with
  | none =>
    apply wp_within _ settled
    intro _ db' quiet
    apply stays _ db' quiet
    intro t found
    cases found
  | some t =>
    dsimp only
    by_cases can : canTransitionTask t.status .runFailed = true
    · rw [if_pos can, wp_bind]
      apply wp_taskTo ((Settlement.disconnected run.status confirmed).effect run.id) .blocked
        (blockTask_edge can) (by simp)
      intro mid quiet
      refine wp_within (Quiet ((Settlement.disconnected run.status confirmed).effect run.id)) ?_ ?_
      · apply keeps_bind reported
        intro _
        dsimp only
        split
        · exact keeps_bind keeps_propagateBlocked fun _ => keeps_done
        · exact keeps_done
      · intro _ db' later
        refine Settles.of_quiet (IsTrans.trans _ _ _ quiet later) ⟨rfl, rfl, rfl⟩ ?_
        rw [board_afterTask, board_afterRun]
        apply Board.mapTask_congr
        intro u found
        rw [← Option.some.inj (status u found)]
        simp [Settlement.disconnected, can, step]
    · rw [if_neg can]
      apply wp_within _ settled
      intro _ db' quiet
      apply stays _ db' quiet
      intro u found
      cases found
      exact Bool.not_eq_true _ ▸ can

theorem wp_disconnectUnstarted (current : db.runs.get? run.id = some run)
    (unstarted : run.status = .queued ∨ run.status = .starting) :
    wp (disconnectUnstarted run task now confirmed)
      (fun _ db' => Settles (.startDisconnected confirmed) run.id run.taskId db db') db := by
  have reported := @keeps_emitDisconnected run task confirmed (.startDisconnected confirmed) rfl rfl
  -- from `starting` on, whatever the first transition did
  have finish : ∀ mid : Database, Moved db mid →
      changes RunRow.status .starting (mid.runs.get? run.id) = true →
      board mid = (board db).mapRun run.id (step .queued .starting) →
      wp (do
        let result ← transitionRun run.id .starting .startFailed
          { endedAt := now, failureReason := disconnectReason }
        if !result.changed then return false
        else
          let _ ← transitionTask run.taskId .assigned .assignFailedRetryable now
          emitDisconnected run task confirmed
          return true)
        (fun _ db' => Settles (.startDisconnected confirmed) run.id run.taskId db db') mid := by
    intro mid moved fires boarded
    rw [wp_bind, wp_runTo .failed rfl, fires, if_neg (by decide), wp_bind]
    apply wp_taskTo ((Settlement.startDisconnected confirmed).effect run.id) .ready rfl (by simp)
    intro mid' quiet
    apply wp_within _ (keeps_bind reported fun _ => keeps_done)
    intro _ db' later
    refine Settles.of_quiet (IsTrans.trans _ _ _ quiet later)
      ⟨moved.ingests, moved.leases, moved.events⟩ ?_
    rw [board_afterTask, board_afterRun, boarded, Board.mapRun_mapRun]
    rfl
  unfold disconnectUnstarted
  rcases unstarted with queued | starting
  · rw [queued]
    change wp (transitionRun run.id .queued .start >>= fun _ => _) _ db
    rw [wp_bind, wp_runTo .starting rfl]
    refine finish _ ⟨rfl, rfl, rfl⟩ ?_ board_afterRun
    rw [changes_board, board_afterRun]
    simp [Board.mapRun, board_run current, RunView.move, RunRow.view, step, queued]
  · rw [starting]
    refine finish db ⟨rfl, rfl, rfl⟩ (by simp [changes, current, starting]) ?_
    refine (Board.mapRun_same ?_).symm
    intro v found
    have view : run.view = v := Option.some.inj ((board_run current).symm.trans found)
    simp [← view, RunRow.view, step, starting]

/-- A disconnect leaves the run alone, confirms an earlier one, or fails a live run. -/
theorem wp_failRunDaemonDisconnect {runId computerId : String} :
    wp (failRunDaemonDisconnect runId computerId confirmed)
      (fun _ db' => db' = db ∨ ∃ run, db.runs.get? runId = some run ∧ run.computerId = computerId ∧
        ((run.status = .failed ∧ confirmed = true ∧
            Settles (.reconciled true) runId run.taskId db db') ∨
          (applyRunTransition run.status .runFailed = some .failed ∧
            Settles (.disconnected run.status confirmed) runId run.taskId db db') ∨
          ((run.status = .queued ∨ run.status = .starting) ∧
            Settles (.startDisconnected confirmed) runId run.taskId db db'))) db := by
  unfold failRunDaemonDisconnect
  rw [wp_bind, wp_nowIso]
  intro now
  rw [wp_bind, wp_select]
  cases found : db.runs.get? runId with
  | none => exact Or.inl rfl
  | some run =>
    have key : run.id = runId := Table.key_of_get? found
    subst key
    dsimp only
    split
    · exact Or.inl rfl
    · rename_i owner
      have owned : run.computerId = computerId := by simpa using owner
      split
      · rename_i disconnected
        simp only [Bool.and_eq_true, beq_iff_eq] at disconnected
        apply wp_within _ (keeps_bind keeps_confirmDisconnect fun _ => keeps_done)
        intro _ db' quiet
        refine Or.inr ⟨run, rfl, owned, Or.inl ⟨disconnected.1.1, disconnected.2, ?_⟩⟩
        exact Settles.of_quiet quiet ⟨rfl, rfl, rfl⟩ settle_reconciled.symm
      · split
        · exact Or.inl rfl
        · rename_i live
          rw [wp_bind, wp_select]
          split
          · rename_i started
            have edge : applyRunTransition run.status .runFailed = some .failed := by
              simp only [Bool.or_eq_true, beq_iff_eq] at started
              rcases started with (running | paused) | awaiting
              · rw [running]; rfl
              · rw [paused]; rfl
              · rw [awaiting]; rfl
            apply wp_mono (wp_disconnectStarted found rfl edge)
            exact fun _ _ settled => Or.inr ⟨run, rfl, owned, Or.inr (Or.inl ⟨edge, settled⟩)⟩
          · rename_i unstarted
            have early : run.status = .queued ∨ run.status = .starting := by
              cases status : run.status <;> simp_all [isRunTerminal, runTerminal]
            apply wp_mono (wp_disconnectUnstarted found early)
            exact fun _ _ settled => Or.inr ⟨run, rfl, owned, Or.inr (Or.inr ⟨early, settled⟩)⟩

end Disconnect

end Artoo.Server
