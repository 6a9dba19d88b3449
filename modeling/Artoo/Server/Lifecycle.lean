import Artoo.Server.Approval
import Artoo.Server.Run

/-! The life of a task: creation, triage, assignment, review and retry. -/
namespace Artoo.Server
open Artoo.Lib Artoo.Protocol Artoo.Domain

structure CreateTaskRequest where
  projectId : String
  parentTaskId : Option String := none
  acceptanceCriteria : List String := []

def insertTask (row : TaskRow) : Txn Unit :=
  insert (fun db => (db.tasks.get? row.id).isSome) (.task row)

def createTask (ctx : Context) (req : CreateTaskRequest) : Txn TaskRow := do
  let now ← nowIso
  let id ← generate
  let roomId ← generate
  let row : TaskRow :=
    { id, projectId := req.projectId, parentTaskId := req.parentTaskId, roomId := roomId,
      status := .backlog, acceptanceCriteria := req.acceptanceCriteria, updatedAt := now }
  insertTask row
  let spec : EventSpec :=
    { type := .taskCreated, actorType := .user, actorId := ctx.actorUserId, correlationId := id,
      projectId := req.projectId, taskId := id, roomId := roomId }
  let _ ← logEvent spec
  let _ ← logEvent { spec with type := .roomCreated, actorType := .system, actorId := "system" }
  let stored ← select (·.tasks.get? id)
  orThrow stored (.error "createTask: row missing after insert")

def taskUpdated (ctx : Context) (task : TaskRow) (extra : Payload) (target : TaskStatus) : EventSpec :=
  { type := .taskUpdated, actorType := .user, actorId := ctx.actorUserId, correlationId := task.id,
    projectId := task.projectId, taskId := task.id, roomId := task.roomId,
    payload := ("status", .str target.name) :: extra }

def markReady (ctx : Context) (taskId : String) : Txn TaskRow := do
  let now ← nowIso
  let found ← select (·.tasks.get? taskId)
  let row ← orThrow found (taskNotFound taskId)
  throwIf row.acceptanceCriteria.isEmpty
    (.app (.validation "acceptance_criteria must be non-empty to mark a task ready"))
  let incoming ← select fun db => incomingEdges db.dependencies.rows taskId
  let statusById ← select statusMap
  let satisfied ← isDependentSatisfied incoming statusById
  throwIf (!satisfied) (.app (.invalidState "upstream gating dependencies are not all satisfied"))
  throwIf (!canTransitionTask row.status .triage)
    (.app (.invalidState ("cannot mark ready from '" ++ row.status.name ++ "'")
      (statusDetails row.status)))
  let _ ← transitionTask taskId row.status .triage now fun target => [taskUpdated ctx row [] target]
  let updated ← select (·.tasks.get? taskId)
  orThrow updated (.error "markReady: task missing after transition")

/-- The loop of `resolveExecutionPolicyTask`; at most 32 links are followed. -/
def followPolicy (task : TaskRow) : Nat → List String → TaskRow → Txn TaskRow
  | links, visited, current =>
    match current.executionPolicyTaskId, links with
    | none, _ => .done current
    | some _, 0 => .fail (.app (.validation "Cyclic task execution policy"))
    | some parentId, links + 1 =>
      if visited.contains current.id then
        .fail (.app (.validation "Cyclic task execution policy"))
      else do
        let found ← select (·.tasks.get? parentId)
        let mismatch : Failure :=
          .app (.validation "Task execution policy must belong to the same project and goal")
        let parent ← orThrow found mismatch
        throwIf (parent.projectId != task.projectId || parent.goalId != task.goalId) mismatch
        followPolicy task links (current.id :: visited) parent

def resolveExecutionPolicyTask (task : TaskRow) : Txn TaskRow := followPolicy task 32 [] task

/-- The tasks whose gates a follow-up inherits. -/
def executionPolicySources (task policyTask : TaskRow) : Txn (List String) :=
  match task.executionPolicyTaskId, task.parentTaskId with
  | some _, some parentId => do
    let unverified : Failure :=
      .app (.validation "Cannot verify the follow-up task's execution policy source")
    let found ← select (·.tasks.get? parentId)
    let parent ← orThrow found unverified
    throwIf (parent.projectId != task.projectId || parent.goalId != task.goalId) unverified
    let policy ← resolveExecutionPolicyTask parent
    throwIf (policy.id != policyTask.id) unverified
    return [task.id, parent.id, policyTask.id].eraseDups
  | _, _ => .done [task.id, policyTask.id].eraseDups

def assertInheritedApprovalRequired (task policyTask : TaskRow) : Txn Unit := do
  if policyTask.id == task.id then return ()
  else
    let sources ← executionPolicySources task policyTask
    let inherited ← select fun db =>
      db.approvals.select fun a => (sources.filter (· != task.id)).contains a.taskId && isGate a
    if inherited.isEmpty then return ()
    else
      let own ← select (gates task.id)
      throwIf own.isEmpty
        (.app (.conflict "Execution approval is required for this follow-up task"))

structure AssignRequest where
  writePaths : Option (List String) := none
  workspaceBranch : Option String := none
  branchBacked : Bool := false

structure Selected where
  computerId : String
  agentInstanceId : String
  agentId : String

/-- What an assignment reads from tables that are not modelled here: consents, goals, plans,
agents, context packs. A refusal is the error that is thrown. -/
structure AssignServices where
  sharingRefused : Option Failure := none
  executionRefused : TaskRow → Option Failure := fun _ => none
  controlsRefused : TaskRow → Option Failure := fun _ => none
  inheritedWritePaths : Except Failure (List String) := .ok []
  schedule : Except Failure Selected
  instanceRefused : Option Failure := none
  workspaceRoot : String → Except Failure (Option String) := fun _ => .ok none
  contextRefused : Option Failure := none

def refuse : Option Failure → Txn Unit
  | some e => .fail e
  | none => .done ()

def ofExcept {α : Type} : Except Failure α → Txn α
  | .ok a => .done a
  | .error e => .fail e

def pendingTurn (turn : TurnRow) : Bool := turn.status == .queued || turn.status == .waiting

/-- The checks of the assistant turn that asks for the assignment. -/
def claimTurn (taskId : String) (turnId : String) : Txn Unit := do
  let turns ← selectForUpdate (fun db => (db.turns.get? turnId).toList.filter (·.taskId == taskId))
    (.turn ·.id)
  let changed : Failure :=
    .app (.conflict "Assistant turn was cancelled, changed, or already dispatched")
  let turn ← orThrow turns.head? changed
  throwIf (!pendingTurn turn || turn.runId.isSome) changed
  let active ← select fun db => db.turns.select fun t =>
    t.roomId == turn.roomId && t.threadRootId == turn.threadRootId && t.status == .running
  throwIf (!active.isEmpty)
    (.app (.conflict "Another assistant turn is still running in this room"))

/-- `select … from agent_instances … for update`. -/
def lockInstance (id : String) : Txn Unit :=
  .stmt (fun _ => [.agentInstance id]) (fun _ => []) fun _ => .done ()

def insertRun (row : RunRow) : Txn Unit := insert (fun db => (db.runs.get? row.id).isSome) (.run row)

def turnStarted (ctx : Context) (task : TaskRow) (turnId runId : String) : EventSpec :=
  { type := .assistantTurnUpdated, actorType := .user, actorId := ctx.actorUserId,
    correlationId := turnId, projectId := task.projectId, taskId := task.id, roomId := task.roomId,
    runId := runId,
    payload := [("turn_id", .str turnId), ("status", .str "running"), ("run_id", .str runId)] }

def startTurn (ctx : Context) (task : TaskRow) (turnId runId now : String) : Txn Unit := do
  let _ ← update (fun db => (db.turns.get? turnId).toList) fun row =>
    .turn { row with runId := runId, status := .running, error := none, updatedAt := now }
  let _ ← logEvent (turnStarted ctx task turnId runId)

/-- The refusals before scheduling, under the lock of the task; yields the write paths. -/
def assertAssignable (services : AssignServices) (task : TaskRow) (req : AssignRequest)
    (assistantTurnId : Option String) : Txn (List String) := do
  throwIf (task.status != .ready)
    (.app (.invalidState ("task must be 'ready' to assign (is '" ++ task.status.name ++ "')")
      (statusDetails task.status)))
  match assistantTurnId with
  | some turnId => claimTurn task.id turnId
  | none => pure ()
  let policyTask ← resolveExecutionPolicyTask task
  refuse (services.executionRefused policyTask)
  let unconfirmed ← unconfirmedDisconnectRunIds fun r _ => r.taskId == task.id
  throwIf (!unconfirmed.isEmpty) (.app (.conflict
    "execution node has not confirmed the previous process stopped; reconnect it before assigning this task again"))
  refuse (services.controlsRefused policyTask)
  assertInheritedApprovalRequired task policyTask
  assertExecutionApprovalGranted task.id
  match req.writePaths with
  | some paths => return paths
  | none =>
    if assistantTurnId.isSome || task.executionPolicyTaskId.isSome
    then ofExcept services.inheritedWritePaths else return []

def assignedEvent (task : TaskRow) (selected : Selected) (runId decisionId : String) : EventSpec :=
  { type := .taskAssigned, actorType := .system, actorId := "scheduler", correlationId := task.id,
    projectId := task.projectId, taskId := task.id, roomId := task.roomId, runId := runId,
    payload := [("run_id", .str runId), ("agent_instance_id", .str selected.agentInstanceId),
      ("scheduler_decision_id", .str decisionId)] }

def branchOf (req : AssignRequest) (runId : String) : Option String :=
  req.workspaceBranch <|> if req.branchBacked then some ("artoo/run-" ++ runId) else none

def assignTask (ctx : Context) (services : AssignServices) (taskId : String) (req : AssignRequest)
    (assistantTurnId : Option String) : Txn RunRow := do
  let now ← nowIso
  refuse services.sharingRefused
  let tasks ← lockTask taskId
  let task ← orThrow tasks.head? (taskNotFound taskId)
  let writePaths ← assertAssignable services task req assistantTurnId
  let selected ← ofExcept services.schedule
  lockInstance selected.agentInstanceId
  refuse services.instanceRefused
  let decisionId ← generate
  let runId ← generate
  -- the transition comes first, so a stale assignment creates no run
  let transition ← transitionTask taskId .ready .assign now
  throwIf (!transition.changed) (.app (.conflict "task is no longer ready (already assigned?)"))
  let workspaceRoot ← ofExcept (services.workspaceRoot runId)
  refuse services.contextRefused
  insertRun
    { id := runId, taskId, computerId := selected.computerId,
      agentInstanceId := selected.agentInstanceId, status := .queued, workspaceRoot,
      workspaceBranch := branchOf req runId, createdAt := now }
  bindExecutionApprovalToRun taskId runId
  match assistantTurnId with
  | some turnId => startTurn ctx task turnId runId now
  | none => pure ()
  let _ ← reserveRunLeases ctx { taskId, runId, projectId := task.projectId, paths := writePaths }
  let _ ← update (fun db => (db.tasks.get? taskId).toList) fun row =>
    .task { row with assigneeId := selected.agentId, updatedAt := now }
  let _ ← logEvent (assignedEvent task selected runId decisionId)
  let stored ← select (·.runs.get? runId)
  orThrow stored (.error "assignTask: run missing after insert")

inductive ReviewOutcome where
  | accepted | changesRequested
  deriving DecidableEq, Repr

def ReviewOutcome.name : ReviewOutcome → String
  | .accepted => "accepted" | .changesRequested => "changes_requested"

def ReviewOutcome.trigger : ReviewOutcome → TaskTrigger
  | .accepted => .accept | .changesRequested => .requestChanges

/-- What a review or a retry reads from goals, plans and the sync cursor. -/
structure ReviewServices where
  staleBase : Option Failure := none
  executionRefused : TaskRow → Option Failure := fun _ => none
  controlsRefused : TaskRow → Option Failure := fun _ => none
  goalCompleted : Option EventSpec := none

def reviewEvents (ctx : Context) (task : TaskRow) (outcome : ReviewOutcome)
    (comment : Option String) (artifactIds : List String) (target : TaskStatus) : List EventSpec :=
  let updated := taskUpdated ctx task [] target
  [{ updated with
     type := .reviewCompleted
     payload := [("outcome", .str outcome.name), ("comment", commentJson comment),
       ("artifact_ids", .arr (artifactIds.map .str))] },
   updated]

/-- A parent is accepted once its children are done or cancelled. -/
def assertChildrenClosed (taskId : String) (outcome : ReviewOutcome) : Txn Unit := do
  let pending ← select fun db => db.tasks.select fun t =>
    t.parentTaskId == some taskId && t.status != .done && t.status != .cancelled
  throwIf (outcome == .accepted && !pending.isEmpty) (.app (.invalidState
    "cannot accept parent task until all child tasks are done or cancelled"
    [("open_children", natJson pending.length)]))

def assertMayRetry (services : ReviewServices) (task : TaskRow) : Txn Unit := do
  let policyTask ← resolveExecutionPolicyTask task
  refuse (services.executionRefused policyTask)
  refuse (services.controlsRefused policyTask)

def completeGoal : Option EventSpec → Txn Unit
  | none => .done ()
  | some spec => do
    let _ ← logEvent { spec with type := .goalCompleted }

def reviewTask (ctx : Context) (services : ReviewServices) (taskId : String)
    (outcome : ReviewOutcome) (comment : Option String) : Txn TaskRow := do
  let now ← nowIso
  let tasks ← lockTask taskId
  let task ← orThrow tasks.head? (taskNotFound taskId)
  refuse services.staleBase
  throwIf (task.status != .review)
    (.app (.invalidState ("task must be 'review' to review (is '" ++ task.status.name ++ "')")
      (statusDetails task.status)))
  if outcome == .changesRequested then assertMayRetry services task
  assertChildrenClosed taskId outcome
  let artifactIds ← select fun db => (db.artifacts.select (·.taskId == taskId)).map (·.id)
  let result ← transitionTask taskId .review outcome.trigger now
    (reviewEvents ctx task outcome comment artifactIds)
  throwIf (!result.changed) (.app (.conflict "task is no longer in review"))
  if outcome == .accepted then
    unlockDownstream taskId
    completeGoal services.goalCompleted
  let updated ← select (·.tasks.get? taskId)
  orThrow updated (.error "reviewTask: task missing after transition")

def retryTask (ctx : Context) (services : ReviewServices) (taskId : String) : Txn TaskRow := do
  let now ← nowIso
  let found ← select (·.tasks.get? taskId)
  let task ← orThrow found (taskNotFound taskId)
  throwIf (!canTransitionTask task.status .retry)
    (.app (.invalidState ("cannot retry from '" ++ task.status.name ++ "'")
      (statusDetails task.status)))
  assertMayRetry services task
  let _ ← transitionTask taskId task.status .retry now fun target =>
    [taskUpdated ctx task [("retried", .bool true)] target]
  let updated ← select (·.tasks.get? taskId)
  orThrow updated (.error "retryTask: task missing after transition")

/-- The room of a conversation and the task its next turn would continue. -/
structure Conversation where
  roomId : String
  projectId : String
  goalId : Option String := none
  taskId : Option String := none
  refused : Option Failure := none

/-- `order by created_at desc, id desc limit 1`. -/
def latestApproval (rows : List ApprovalRow) : Option ApprovalRow :=
  rows.foldl (fun best row =>
    match best with
    | none => some row
    | some b =>
      if b.createdAt < row.createdAt || (b.createdAt == row.createdAt && decide (b.id < row.id))
      then some row else best) none

/-- A turn of a closed or absent task opens a follow-up; it inherits the gates of its source. -/
def followUpTask (ctx : Context) (room : Conversation) (original : Option TaskRow) (body now : String) :
    Txn TaskRow := do
  let policyTask ← original.mapM resolveExecutionPolicyTask
  let id ← generate
  let row : TaskRow :=
    { id, projectId := room.projectId, parentTaskId := original.map (·.id),
      executionPolicyTaskId := policyTask.map (·.id), roomId := room.roomId,
      goalId := room.goalId <|> original.bind (·.goalId), status := .backlog,
      acceptanceCriteria := (original.map (·.acceptanceCriteria)).getD
        ["Answer the conversation request and explain any work performed."], updatedAt := now }
  insertTask row
  let _ ← logEvent
    { type := .taskCreated, actorType := .user, actorId := ctx.actorUserId, correlationId := id,
      projectId := room.projectId, taskId := id, roomId := room.roomId,
      payload := [("task_id", .str id), ("source", .str "assistant_conversation")] }
  let sources := original.toList.map (·.id) ++ policyTask.toList.map (·.id)
  let inherited ← select fun db =>
    db.approvals.select fun a => sources.contains a.taskId && isGate a
  match latestApproval inherited with
  | none => return row
  | some prior =>
    let approvalId ← generate
    let summary := String.ofList (("Review follow-up execution: " ++ body).toList.take 4000)
    insertApproval (newGate ctx approvalId id summary prior.risk now)
    let _ ← logEvent (gateRequested ctx row (gatePayload approvalId summary prior.risk))
    return row

def closedTask (t : TaskRow) : Bool := t.status == .done || t.status == .cancelled

def enqueueAssistantTurn (ctx : Context) (room : Conversation) (threadRootId : Option String)
    (body : String) : Txn TurnRow := do
  refuse room.refused
  let original ← select fun db => room.taskId.bind db.tasks.get?
  let now ← nowIso
  let task ← match original.filter fun t => !closedTask t with
    | some task => pure task
    | none => followUpTask ctx room original body now
  let id ← generate
  let messageId ← generate
  insertMessage
    { id := messageId, roomId := room.roomId, taskId := task.id, runId := none, threadRootId,
      actorType := .user, actorId := ctx.actorUserId, kind := "text", body,
      payload := [("assistant_turn_id", .str id), ("intent", .str "assistant")], createdAt := now }
  let turn : TurnRow :=
    { id, roomId := room.roomId, threadRootId, taskId := task.id, responseMessageId := none,
      runId := none, status := .queued, error := none, updatedAt := now }
  insert (fun db => (db.turns.get? id).isSome) (.turn turn)
  let _ ← logEvent
    { type := .messageCreated, actorType := .user, actorId := ctx.actorUserId, correlationId := id,
      projectId := room.projectId, taskId := task.id, roomId := room.roomId,
      payload := [("message_id", .str messageId), ("kind", .str "text")] }
  return turn

end Artoo.Server
