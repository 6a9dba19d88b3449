import Artoo.Planning.Accept

/-! Goals: creation, the human transitions, and cancellation with its fence. -/
namespace Artoo.Planning
open Artoo.Lib Artoo.Domain Artoo.Protocol
open Artoo.Server (TaskRow EventSpec EventType)

structure CreateGoalInput where
  projectId : String
  title : String
  priority : Option String := none
  stopConditions : List StopRule := []
  budgets : GoalBudgets := {}

def insertGoal (row : GoalRow) : Txn Unit :=
  Tx.add (fun st => (st.goals.get? row.id).isSome) (.goal row) .constraint

/-- Projects are not stored here; `projectFound` is the answer of their table. -/
def createGoal (ctx : Context) (input : CreateGoalInput) (projectFound : Bool) : Txn Unit := do
  Tx.ofResult (supportedGoalPolicy input.budgets input.stopConditions)
  Tx.check (!projectFound)
    (.app (.notFound ("project not found: " ++ input.projectId) [("project_id", .str input.projectId)]))
  let now ← nowIso
  let goalId ← generate
  let roomId ← generate
  insertGoal
    { id := goalId, projectId := input.projectId, priority := input.priority.getD "p2",
      status := .draft, stopConditions := input.stopConditions, budgets := input.budgets,
      updatedAt := now }
  updateGoal goalId fun row => { row with roomId := some roomId, updatedAt := now }
  let _ ← logEvent
    { type := .goalCreated, actorType := .user, actorId := ctx.actorUserId, correlationId := goalId,
      projectId := input.projectId, roomId := roomId, goalId := goalId,
      payload := [("goal_id", .str goalId), ("room_id", .str roomId), ("title", .str input.title)] }

def eventTypeForTrigger (trigger : GoalTrigger) (target : GoalStatus) : EventType :=
  match trigger with
  | .pause => .goalPaused
  | .resume => .goalResumed
  | .cancel => .goalCancelled
  | _ => if target = .completed then .goalCompleted else .goalStatusChanged

def transitionRefused (status : GoalStatus) (trigger : GoalTrigger) : Failure :=
  .app (.invalidState ("cannot '" ++ trigger.name ++ "' a goal in status '" ++ status.name ++ "'")
    [("status", .str status.name), ("trigger", .str trigger.name)])

def lockGoal (id : String) : Txn (List GoalRow) :=
  Tx.queryForUpdate (fun st => (st.goals.get? id).toList) fun g => .goal g.id

/-- The transition of a goal that is there. -/
def applyGoal (ctx : Context) (row : GoalRow) (trigger : GoalTrigger) (now : String) : Txn Unit := do
  Tx.check (!canTransitionGoal row.status trigger) (transitionRefused row.status trigger)
  let target ← goalTransition row.status trigger
  updateGoal row.id fun g =>
    { g with
      status := target
      runningSince :=
        if target == .running && row.runningSince.isNone then some now else row.runningSince
      updatedAt := now }
  let changed := goalSpec row .user ctx.actorUserId
    [("goal_id", .str row.id), ("from", .str row.status.name), ("to", .str target.name),
      ("trigger", .str trigger.name)]
  let _ ← logEvent { changed with type := eventTypeForTrigger trigger target }

def transitionGoal (ctx : Context) (id : String) (trigger : GoalTrigger) : Txn Unit := do
  let now ← nowIso
  let found ← lockGoal id
  match found.head? with
  | none => return ()
  | some row => applyGoal ctx row trigger now

def pauseGoal (ctx : Context) (id : String) : Txn Unit := transitionGoal ctx id .pause

def resumeGoal (ctx : Context) (id : String) : Txn Unit := transitionGoal ctx id .resume

/-- The first transaction of a cancellation: a goal that may be cancelled is paused. -/
def fenceGoal (ctx : Context) (id now : String) : Txn (Option GoalRow) := do
  let found ← lockGoal id
  match found.head? with
  | none => return none
  | some row =>
    if row.status == .cancelled then return row
    else
      Tx.check (!canTransitionGoal row.status .cancel)
        (.app (.invalidState ("cannot cancel goal in status '" ++ row.status.name ++ "'")))
      if row.status == .paused then return row
      else
        updateGoal id fun g => { g with status := .paused, updatedAt := now }
        let fenced := goalSpec row .user ctx.actorUserId
          [("goal_id", .str id), ("from", .str row.status.name), ("to", .str "paused"),
            ("reason", .str "cancellation_requested")]
        let _ ← logEvent { fenced with type := .goalPaused }
        return row

def goalCancelledEvent (ctx : Context) (goalId : String) (task : TaskRow) (target : TaskStatus) :
    List EventSpec :=
  [{ type := .taskUpdated, actorType := .user, actorId := ctx.actorUserId, correlationId := task.id,
     projectId := task.projectId, taskId := task.id, roomId := task.roomId, goalId := goalId,
     payload := [("status", .str target.name), ("reason", .str "goal_cancelled")] }]

def cancelChild (ctx : Context) (goalId now : String) (task : TaskRow) : Txn Unit :=
  if !canTransitionTask task.status .cancel then return ()
  else do
    let _ ← core (Server.transitionTask task.id task.status .cancel now
      (goalCancelledEvent ctx goalId task))
    core (Server.propagateBlocked task.id "goal_cancelled")

def heldLeaseIds (goalId : String) (st : Store) : List String :=
  (st.core.leases.select fun l => ofGoal st goalId l.taskId && l.status == .held).map (·.id)

/-- The last transaction, once the runs of the goal have been stopped. -/
def cancelFenced (ctx : Context) (id now : String) : Txn Unit := do
  let found ← lockGoal id
  let row ← Tx.require (found.head?.filter (·.status == .paused))
    (.app (.conflict "goal changed during cancellation; retry cancellation"))
  let live ← Tx.query (liveGoalRuns id)
  let held ← Tx.query (heldLeaseIds id)
  let unsettled ← unsettledGoalRunIds id
  Tx.check (!live.isEmpty || !held.isEmpty || !unsettled.isEmpty)
    (.app (.conflict "goal paused: process stop is still unconfirmed"))
  let children ← Tx.query fun st => st.core.tasks.select (·.goalId == some id)
  children.forM (cancelChild ctx id now)
  updateGoal id fun g => { g with status := .cancelled, updatedAt := now }
  let cancelled := goalSpec row .user ctx.actorUserId
    [("goal_id", .str id), ("from", .str "paused"), ("to", .str "cancelled"),
      ("trigger", .str "cancel"), ("process_exit_confirmed", .bool true)]
  let _ ← logEvent { cancelled with type := .goalCancelled }

end Artoo.Planning
