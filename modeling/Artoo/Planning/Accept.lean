import Artoo.Planning.Plans

/-! The acceptance of a plan: the first one plans its goal, a later one replaces the current plan
of a paused goal whose executions have stopped. -/
namespace Artoo.Planning
open Artoo.Lib Artoo.Domain Artoo.Protocol
open Artoo.Server (DependencyType DependencyRow TaskRow RunRow ActorType Payload AppError EventSpec
  EventRow TransitionResult)

/-- Settings that the server cannot honor are refused. -/
def supportedGoalPolicy (budgets : GoalBudgets) (stopConditions : List StopRule) :
    Except Failure Unit :=
  if budgets.maxCostUsd.isSome then
    .error (.app (.validation
      "max_cost_usd is not supported: execution cost metering is not available"
      [("field", .str "budgets.max_cost_usd")]))
  else
    match stopConditions.find? fun rule => rule.type != .budgetExceeded || rule.action != .pause with
    | some rule =>
      .error (.app (.validation "Only budget_exceeded stop rules with action pause are supported"
        [("field", .str "stop_conditions.rules"), ("type", .str rule.type.name),
          ("action", .str rule.action.name)]))
    | none => .ok ()

/-- The rows of a table whose task belongs to the goal. -/
def ofGoal (st : Store) (goalId taskId : String) : Bool :=
  (st.core.tasks.get? taskId).any (·.goalId == some goalId)

def liveGoalRuns (goalId : String) (st : Store) : List String :=
  (st.core.runs.select fun r => ofGoal st goalId r.taskId && !isRunTerminal r.status).map (·.id)

def heldGoalRuns (goalId : String) (st : Store) : List String :=
  (st.core.leases.select fun l => ofGoal st goalId l.taskId && l.status == .held).filterMap (·.runId)

/-- Also the runs that failed but whose process may live. -/
def unsettledGoalRunIds (goalId : String) : Txn (List String) := do
  let live ← Tx.query (liveGoalRuns goalId)
  let held ← Tx.query (heldGoalRuns goalId)
  let unconfirmed ← core (Server.unconfirmedDisconnectRunIds fun _ t => t.goalId == some goalId)
  return (live ++ held ++ unconfirmed).eraseDups

/-- The tasks of the goal that come from its current plan. -/
def currentTasks (goal : GoalRow) (currentPlanId : String) (st : Store) : List TaskRow :=
  st.core.tasks.select fun t => t.goalId == some goal.id &&
    (st.sources.get? t.id).any (·.sourcePlanId == currentPlanId)

def executedTasks (goalId : String) (st : Store) : List String :=
  (st.core.runs.select fun r => ofGoal st goalId r.taskId).map (·.taskId)

def retiredEvent (ctx : Context) (goal : GoalRow) (task : TaskRow) (currentPlanId planId : String)
    (target : TaskStatus) : List EventSpec :=
  let updated := goalSpec goal .user ctx.actorUserId
    [("status", .str target.name), ("reason", .str "plan_superseded"),
      ("source_plan_id", .str currentPlanId), ("replacement_plan_id", .str planId)]
  [{ updated with type := .taskUpdated, taskId := task.id, roomId := task.roomId }]

/-- Cancels what was never run of the tasks of the plan that is replaced; yields their ids. -/
def retireTasks (ctx : Context) (goal : GoalRow) (currentPlanId planId now : String)
    (historical : List String) : List TaskRow → Txn (List String)
  | [] => return []
  | task :: rest => do
    if historical.contains task.id || !canTransitionTask task.status .cancel then
      retireTasks ctx goal currentPlanId planId now historical rest
    else
      let _ ← core (Server.transitionTask task.id task.status .cancel now
        (retiredEvent ctx goal task currentPlanId planId))
      let retired ← retireTasks ctx goal currentPlanId planId now historical rest
      return task.id :: retired

def runIdsDetails (runIds : List String) : Payload := [("run_ids", .arr (runIds.map .str))]

/-- What precedes the acceptance of a plan that replaces the current one. -/
def replaceCurrent (ctx : Context) (goal : GoalRow) (plan : PlanRow) (currentPlanId now : String) :
    Txn (List String) := do
  let current ← Tx.query (·.plans.get? currentPlanId)
  Tx.check (!current.any fun c => decide (c.version < plan.version))
    (.app (.conflict "A replacement plan must be newer than the current accepted plan"))
  let unsettled ← unsettledGoalRunIds goal.id
  Tx.check (!unsettled.isEmpty)
    (.app (.conflict "Cannot replace a plan until all goal executions have confirmed they stopped"
      (runIdsDetails unsettled)))
  let previous ← Tx.query (currentTasks goal currentPlanId)
  let historical ← Tx.query (executedTasks goal.id)
  let retired ← retireTasks ctx goal currentPlanId plan.id now historical previous
  retired.forM fun taskId => core (Server.propagateBlocked taskId "plan_superseded")
  return retired

def retireCurrent (ctx : Context) (goal : GoalRow) (plan : PlanRow) (now : String) :
    Txn (List String) :=
  match goal.currentPlanId with
  | some currentPlanId => replaceCurrent ctx goal plan currentPlanId now
  | none => return []

def acceptRefusal (goal : GoalRow) : String :=
  if goal.currentPlanId.isSome then "Pause the goal before accepting a replacement plan"
  else "A first plan requires a draft goal (is '" ++ goal.status.name ++ "')"

def mayAccept (goal : GoalRow) : Bool :=
  if goal.currentPlanId.isSome then goal.status == .paused else goal.status == .draft

/-- `update plans set status = 'superseded' where goal_id = … and status = 'accepted'`. -/
def supersedeAccepted (goalId : String) : Txn Unit := do
  let _ ← Tx.change (fun st => st.plans.select fun p => p.goalId == goalId && p.status == .accepted)
    fun row => .plan { row with status := .superseded }

def acceptedStatus (goal : GoalRow) : Txn GoalStatus :=
  if goal.currentPlanId.isSome then return .paused else goalTransition .draft .planAccepted

def stringOrNull : Option String → Json
  | some s => .str s
  | none => .null

/-- The acceptance of a proposed plan, under the lock of its goal. -/
def acceptProposed (ctx : Context) (goal : GoalRow) (plan : PlanRow) (now : String) :
    Txn MaterializeResult := do
  Tx.check (!mayAccept goal)
    (.app (.invalidState (acceptRefusal goal) (goalStatusDetails goal.status)))
  Tx.ofResult (supportedGoalPolicy goal.budgets goal.stopConditions)
  let retired ← retireCurrent ctx goal plan now
  let _ ← planTransition .proposed .accept
  supersedeAccepted plan.goalId
  updatePlan plan.id fun row => { row with status := .accepted, acceptedAt := some now }
  let status ← acceptedStatus goal
  updateGoal plan.goalId fun row =>
    { row with status, currentPlanId := some plan.id, updatedAt := now }
  let accepted := goalSpec goal .user ctx.actorUserId
    [("goal_id", .str plan.goalId), ("plan_id", .str plan.id),
      ("previous_plan_id", stringOrNull goal.currentPlanId),
      ("retired_task_ids", .arr (retired.map .str))]
  let _ ← logEvent { accepted with type := .goalPlanAccepted }
  materializeInTx ctx plan.id now

def acceptPlan (ctx : Context) (planId : String) : Txn MaterializeResult := do
  let now ← nowIso
  let lookup ← Tx.query (·.plans.get? planId)
  let lookup ← Tx.require lookup (planNotFound planId)
  let goal ← requireGoalInOrg lookup.goalId
  let found ← Tx.query (·.plans.get? planId)
  let plan ← Tx.require found (planNotFound planId)
  if plan.status == .accepted then materializeInTx ctx planId now
  else
    Tx.check (plan.status != .proposed)
      (.app (.invalidState ("cannot accept a plan in status '" ++ plan.status.name ++ "'")
        [("status", .str plan.status.name)]))
    acceptProposed ctx goal plan now

end Artoo.Planning
