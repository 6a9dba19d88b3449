import Artoo.Server.Ingest
import Artoo.Server.Reads

/-! The moves of the board: what each server transaction does to the statuses of tasks and runs. -/
namespace Artoo.Server
open Artoo.Lib Artoo.Protocol Artoo.Domain Tx

inductive Move where
  | idle
  | create (taskId : String)
  | task (taskId : String) (source target : TaskStatus)
  | accept (taskId : String) (unlocked : List String)
  | assign (taskId runId : String) (view : RunView)
  | settle (σ : Settlement) (runId taskId : String)

namespace Board

def putTask (b : Board) (taskId : String) (s : TaskStatus) : Board :=
  { b with task := fun id => if taskId = id then some s else b.task id }

def putRun (b : Board) (runId : String) (v : RunView) : Board :=
  { b with run := fun id => if runId = id then some v else b.run id }

def unlock (b : Board) (taskIds : List String) : Board :=
  taskIds.foldl (fun b id => b.mapTask id (step .backlog .ready)) b

def apply (b : Board) : Move → Board
  | .idle => b
  | .create taskId => b.putTask taskId .backlog
  | .task taskId source target => b.mapTask taskId (step source target)
  | .accept taskId unlocked => (b.mapTask taskId (step .review .done)).unlock unlocked
  | .assign taskId runId view => (b.mapTask taskId (step .ready .assigned)).putRun runId view
  | .settle σ runId taskId => b.settle σ runId taskId

end Board

/-- A transaction that makes a move, and for the rest has an effect. -/
structure Makes (f : Effect) (m : Move) (db db' : Database) : Prop where
  board : board db' = (board db).apply m
  ingests : db'.ingests = db.ingests
  leases : LeasesStep f db db'
  events : Appends f db db'

variable {f : Effect}

theorem Quiet.makes {db db' : Database} (h : Quiet f db db') : Makes f .idle db db' :=
  ⟨h.board, h.ingests, h.leases, h.events⟩

theorem Makes.quiet {m : Move} {a b c : Database} (first : Makes f m a b) (last : Quiet f b c) :
    Makes f m a c :=
  ⟨last.board.trans first.board, last.ingests.trans first.ingests, first.leases.trans last.leases,
    first.events.trans last.events⟩

theorem Quiet.thenMakes {m : Move} {a b c : Database} (first : Quiet f a b) (last : Makes f m b c) :
    Makes f m a c :=
  ⟨by rw [last.board, first.board], last.ingests.trans first.ingests,
    first.leases.trans last.leases, first.events.trans last.events⟩

theorem Settles.makes {σ : Settlement} {runId taskId : String} {db db' : Database}
    (h : Settles σ runId taskId db db') :
    Makes (σ.effect runId) (.settle σ runId taskId) db db' :=
  ⟨h.board, h.ingests, h.leases, h.events⟩

theorem makes_afterTask {taskId : String} {source target : TaskStatus} {now : String}
    {db : Database} : Makes f (.task taskId source target) db (afterTask taskId source target now db) :=
  ⟨board_afterTask, rfl, .of_eq rfl, .of_eq rfl⟩

/-- What stands in the board, read from the database. -/
theorem board_task {db : Database} {taskId : String} {task : TaskRow}
    (found : db.tasks.get? taskId = some task) : (board db).task taskId = some task.status := by
  change (db.tasks.get? taskId).map _ = _
  rw [found]
  rfl

theorem makes_insertTask {row : TaskRow} {db : Database} (backlog : row.status = .backlog) :
    Makes f (.create row.id) db { db with tasks := db.tasks.put row } := by
  refine ⟨?_, rfl, .of_eq rfl, .of_eq rfl⟩
  unfold Server.board Board.apply Board.putTask
  congr 1
  funext id
  change ((db.tasks.put row).get? id).map _ = _
  rw [Table.get?_put]
  split
  · rw [Option.map_some, backlog]
  · rfl

theorem makes_insertRun {row : RunRow} {taskId : String} {a db : Database}
    (first : Makes f (.task taskId .ready .assigned) a db) :
    Makes f (.assign taskId row.id row.view) a { db with runs := db.runs.put row } := by
  refine ⟨?_, first.ingests, first.leases, first.events⟩
  have moved : Server.board db = (Server.board a).mapTask taskId (step .ready .assigned) := first.board
  change _ = ((Server.board a).mapTask taskId (step .ready .assigned)).putRun row.id row.view
  rw [← moved]
  unfold Server.board Board.putRun
  congr 1
  funext id
  change ((db.runs.put row).get? id).map _ = _
  rw [Table.get?_put]
  split <;> rfl

theorem keeps_startTurn {ctx : Context} {task : TaskRow} {turnId runId now : String} :
    Keeps (Quiet f) (startTurn ctx task turnId runId now) := by
  unfold startTurn
  apply keeps_bind (keeps_update (by intro _; trivial))
  intro _
  exact keeps_bind (keeps_logOther .assistantTurnUpdated rfl (by decide)) fun _ => keeps_done

theorem keeps_bindExecutionApprovalToRun {taskId runId : String} :
    Keeps (Quiet f) (bindExecutionApprovalToRun taskId runId) := by
  unfold bindExecutionApprovalToRun
  exact keeps_bind (keeps_update (by intro _; trivial)) fun _ => keeps_done

end Artoo.Server
