import Artoo.Server.Binding

/-! What no transaction takes back: runs keep what they are bound to, tasks and receipts stay.
So every receipt of a wire frame keeps attesting a frame that was ingested. -/
namespace Artoo.Server
open Artoo.Lib Artoo.Protocol Artoo.Domain Tx

namespace Board

/-- A later board: a run changes its status only. -/
structure Extends (b c : Board) : Prop where
  run : ∀ id v, b.run id = some v → ∃ s, c.run id = some { v with status := s }
  task : ∀ id t, b.task id = some t → ∃ u, c.task id = some u

theorem Extends.refl (b : Board) : b.Extends b :=
  ⟨fun _ v found => ⟨v.status, found⟩, fun _ t found => ⟨t, found⟩⟩

theorem Extends.trans {a b c : Board} (first : a.Extends b) (last : b.Extends c) : a.Extends c := by
  constructor
  · intro id v found
    obtain ⟨s, kept⟩ := first.run id v found
    obtain ⟨t, there⟩ := last.run id _ kept
    exact ⟨t, there⟩
  · intro id t found
    obtain ⟨u, kept⟩ := first.task id t found
    exact last.task id u kept

theorem extends_mapTask {b : Board} {taskId : String} {g : TaskStatus → TaskStatus} :
    b.Extends (b.mapTask taskId g) := by
  refine ⟨fun _ v found => ⟨v.status, found⟩, fun id t found => ?_⟩
  change ∃ u, (if taskId = id then (b.task id).map g else b.task id) = some u
  rw [found]
  split
  · exact ⟨g t, rfl⟩
  · exact ⟨t, rfl⟩

theorem extends_mapRun {b : Board} {runId : String} {g : RunStatus → RunStatus} :
    b.Extends (b.mapRun runId g) := by
  refine ⟨fun id v found => ?_, fun _ t found => ⟨t, found⟩⟩
  change ∃ s, (if runId = id then (b.run id).map (RunView.move g) else b.run id) = some _
  rw [found]
  split
  · exact ⟨g v.status, rfl⟩
  · exact ⟨v.status, rfl⟩

theorem extends_putTask {b : Board} {taskId : String} {t : TaskStatus} :
    b.Extends (b.putTask taskId t) := by
  refine ⟨fun _ v found => ⟨v.status, found⟩, fun id u found => ?_⟩
  change ∃ w, (if taskId = id then some t else b.task id) = some w
  split
  · exact ⟨t, rfl⟩
  · exact ⟨u, found⟩

theorem extends_putRun {b : Board} {runId : String} {v : RunView} (absent : b.run runId = none) :
    b.Extends (b.putRun runId v) := by
  refine ⟨fun id w found => ?_, fun _ t found => ⟨t, found⟩⟩
  change ∃ s, (if runId = id then some v else b.run id) = some _
  split
  · rename_i same
    rw [same, found] at absent
    cases absent
  · exact ⟨w.status, found⟩

theorem extends_unlock {b : Board} {taskIds : List String} : b.Extends (b.unlock taskIds) := by
  induction taskIds generalizing b with
  | nil => exact .refl b
  | cons id ids ih => exact extends_mapTask.trans ih

end Board

section Step

variable {platform : Platform} {db db' : Database} {op : Op} {f : Effect} {m : Move}

theorem Allows.extends_ (h : Allows platform db op f m) :
    (board db).Extends ((board db).apply m) := by
  cases h with
  | idle | releaseLease => exact .refl _
  | create => exact Board.extends_putTask
  | markReady | requestChanges | retry | requestApproval => exact Board.extends_mapTask
  | assign ready absent =>
    exact Board.extends_mapTask.trans (Board.extends_putRun absent)
  | accept => exact Board.extends_mapTask.trans Board.extends_unlock
  | resolveApproval =>
    unfold decisionMove
    split
    · split
      · exact .refl _
      · exact Board.extends_mapTask
    · split
      · exact .refl _
      · exact Board.extends_mapTask
    · exact .refl _
  | cancelRun | failRunStart | confirmed | disconnected | startDisconnected | ingest =>
    exact Board.extends_mapRun.trans Board.extends_mapTask

/-- What stays of a database. -/
structure Onward (db db' : Database) : Prop where
  board : (board db).Extends (board db')
  ingests : ∀ key receipt, db.ingests.get? key = some receipt →
    db'.ingests.get? key = some receipt

instance : Std.Refl Onward := ⟨fun db => ⟨.refl (board db), fun _ _ found => found⟩⟩

instance : IsTrans Database Onward :=
  ⟨fun _ _ _ first last => ⟨first.board.trans last.board,
    fun key receipt found => last.ingests key receipt (first.ingests key receipt found)⟩⟩

theorem Does.onward (h : Does platform op db db') : Onward db db' := by
  obtain ⟨f, m, moves⟩ := h.moves
  refine ⟨moves.board ▸ moves.allowed.extends_, ?_⟩
  intro key receipt found
  cases h with
  | makes _ made => rw [made.ingests, found]
  | ingested _ ingested =>
    cases ingested with
    | repeated => exact found
    | @first run task new _ mid reads fresh applies keyed =>
      change (mid.ingests.put new).get? key = _
      rw [Table.get?_put_other, applies.ingests, found]
      intro taken
      rw [← taken, keyed, fresh] at found
      cases found

end Step

theorem reportedRetention_congr {env : IngestEnvelope} {run other : RunRow}
    (computer : run.computerId = other.computerId) (root : run.workspaceRoot = other.workspaceRoot)
    (branch : run.workspaceBranch = other.workspaceBranch) :
    reportedRetention env run = reportedRetention env other := by
  unfold reportedRetention
  rw [computer, root, branch]

/-- What a receipt attests: the ingest of a valid frame of the node that owns the run. -/
structure Attests (platform : Platform) (frame : RunEventMessage) (env : IngestEnvelope)
    (db : Database) (receipt : IngestRow) : Prop where
  valid : runEventMessageValid frame
  mapped : mapRunEvent frame = some env
  key : env.key = receipt.key
  identity : receipt.bodyIdentity = some (bodyIdentity platform frame.event)
  owned : ∃ run, db.runs.get? env.runId = some run ∧ env.nodeId = run.computerId ∧
    (∃ task, db.tasks.get? run.taskId = some task) ∧ ∃ r, reportedRetention env run = .done r

theorem Attests.onward {platform : Platform} {frame : RunEventMessage} {env : IngestEnvelope}
    {db db' : Database} {receipt : IngestRow} (h : Attests platform frame env db receipt)
    (later : Onward db db') : Attests platform frame env db' receipt := by
  obtain ⟨run, found, owner, ⟨task, there⟩, r, reported⟩ := h.owned
  obtain ⟨s, kept⟩ := later.board.run _ _ (board_run found)
  obtain ⟨row, present, same⟩ := Option.map_eq_some_iff.mp kept
  obtain ⟨u, stays⟩ := later.board.task _ _ (board_task there)
  obtain ⟨task', there', _⟩ := Option.map_eq_some_iff.mp stays
  have computer : row.computerId = run.computerId := congrArg RunView.computerId same
  have ofTask : row.taskId = run.taskId := congrArg RunView.taskId same
  have congr : reportedRetention env row = reportedRetention env run :=
    reportedRetention_congr computer (congrArg RunView.workspaceRoot same)
      (congrArg RunView.workspaceBranch same)
  refine ⟨h.valid, h.mapped, h.key, h.identity, row, present, owner.trans computer.symm,
    ⟨task', ofTask ▸ there'⟩, r, congr.trans reported⟩

def Op.frame : Op → Option RunEventMessage
  | .ingestWireRunEvent _ frame => some frame
  | _ => none

/-- The wire frames of a list of requests. -/
def frames (requests : List Request) : List RunEventMessage := requests.filterMap (·.op.frame)

/-- Every receipt of a wire frame attests one of the frames. -/
def Attested (platform : Platform) (fs : List RunEventMessage) (db : Database) : Prop :=
  ∀ receipt ∈ db.ingests, receipt.bodyIdentity.isSome →
    ∃ frame ∈ fs, ∃ env, Attests platform frame env db receipt

theorem envelope_wire {platform : Platform} {services : Services} {frame : RunEventMessage}
    {env : IngestEnvelope} {identity : Option String}
    (h : (Op.ingestWireRunEvent services frame).envelope platform = some (env, identity)) :
    runEventMessageValid frame ∧ mapRunEvent frame = some env ∧
      identity = some (bodyIdentity platform frame.event) := by
  unfold Op.envelope qualifyRunEventMessage at h
  cases valid : runEventMessageValid frame with
  | false => simp [valid] at h
  | true =>
    cases mapped : mapRunEvent frame with
    | none => simp [valid, mapped] at h
    | some env' =>
      simp only [valid, if_true, mapped, Option.bind_eq_bind, Option.bind_some, Option.some.injEq,
        Prod.mk.injEq] at h
      exact ⟨rfl, congrArg some h.1, h.2.symm⟩

theorem Does.attests {platform : Platform} {op : Op} {db db' : Database} {receipt : IngestRow}
    (h : Does platform op db db') (there : receipt ∈ db'.ingests)
    (named : receipt.bodyIdentity.isSome) :
    receipt ∈ db.ingests ∨
      ∃ frame env, op.frame = some frame ∧ Attests platform frame env db' receipt := by
  have later := h.onward
  cases h with
  | makes _ made => exact Or.inl (made.ingests ▸ there)
  | @ingested env identity result _ parsed ingested =>
    cases ingested with
    | repeated => exact Or.inl there
    | @first run task new _ mid reads fresh applies keyed bodied =>
      rcases Table.mem_put.mp there with rfl | ⟨old, _⟩
      · rw [bodied] at named
        cases op with
        | ingestWireRunEvent services frame =>
          obtain ⟨valid, mapped, rfl⟩ := envelope_wire parsed
          have attests : Attests platform frame env db receipt :=
            ⟨valid, mapped, keyed.symm, bodied, run, reads.foundRun, reads.owner rfl,
              ⟨task, reads.foundTask⟩, reads.retention⟩
          exact Or.inr ⟨frame, env, rfl, attests.onward later⟩
        | ingestRunEvent services env' =>
          cases parsed
          cases named
        | _ => cases parsed
      · exact Or.inl (applies.ingests ▸ old)

theorem attested_path {platform : Platform} {requests : List Request} {db db' : Database}
    (h : Path (Step platform) requests db db') {fs : List RunEventMessage}
    (attested : Attested platform fs db) : Attested platform (fs ++ frames requests) db' := by
  induction h generalizing fs with
  | nil db => simpa [frames] using attested
  | @cons r rest a b c first _ ih =>
    have does := step_does first
    have next : Attested platform (fs ++ r.op.frame.toList) b := by
      intro receipt there named
      rcases does.attests there named with old | ⟨frame, env, is, attests⟩
      · obtain ⟨frame, member, env, attests⟩ := attested receipt old named
        exact ⟨frame, List.mem_append_left _ member, env, attests.onward does.onward⟩
      · exact ⟨frame, List.mem_append_right _ (by simp [is]), env, attests⟩
    have split : fs ++ frames (r :: rest) = fs ++ r.op.frame.toList ++ frames rest := by
      unfold frames
      rw [List.filterMap_cons, List.append_assoc]
      cases r.op.frame <;> rfl
    rw [split]
    exact ih next

end Artoo.Server
