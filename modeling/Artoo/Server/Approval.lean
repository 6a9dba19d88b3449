import Artoo.Server.Receipt

/-! The approval service: requests, execution gates and their resolution. -/
namespace Artoo.Server
open Artoo.Lib Artoo.Protocol Artoo.Domain

def riskName : Risk → String
  | .low => "low" | .medium => "medium" | .high => "high"

def ApprovalAction.name : ApprovalAction → String
  | .executionStart => "execution.start"
  | .other name => name

structure RequestApprovalParams where
  taskId : String
  runId : Option String := none
  action : ApprovalAction
  risk : Risk
  summary : String

def insertApproval (row : ApprovalRow) : Txn Unit :=
  insert (fun db => (db.approvals.get? row.id).isSome) (.approval row)

def updateApproval (id : String) (set : ApprovalRow → ApprovalRow) : Txn (List ApprovalRow) :=
  update (fun db => (db.approvals.get? id).toList) fun row => .approval (set row)

def approvalPayload (id : String) (action : ApprovalAction) (summary : String) (risk : Risk) :
    Payload :=
  [("approval_id", .str id), ("action", .str action.name), ("risk", .str (riskName risk)),
   ("summary", .str summary)]

def taskNotFound (taskId : String) : Failure :=
  .app (.notFound ("task not found: " ++ taskId) [("task_id", .str taskId)])

def statusDetails (status : TaskStatus) : Payload := [("status", .str status.name)]

/-- A review record of a running task. -/
def requestApproval (params : RequestApprovalParams) : Txn ApprovalRow := do
  let now ← nowIso
  let found ← select (·.tasks.get? params.taskId)
  let task ← orThrow found (taskNotFound params.taskId)
  throwIf (task.status != .running) (.app (.invalidState
    ("task must be 'running' to request approval (is '" ++ task.status.name ++ "')")
    (statusDetails task.status)))
  let id ← generate
  insertApproval
    { id, taskId := params.taskId, runId := params.runId, requestedByType := .system,
      requestedById := "control_plane", action := params.action, risk := params.risk,
      summary := params.summary, payloadRef := none, status := .pending, createdAt := now }
  let transition ← transitionTask params.taskId .running .approvalRequested now fun _ =>
    [{ type := .approvalRequested, actorType := .system, actorId := "control_plane",
       correlationId := params.taskId, projectId := task.projectId, taskId := params.taskId,
       roomId := task.roomId, runId := params.runId,
       payload := approvalPayload id params.action params.summary params.risk }]
  throwIf (!transition.changed)
    (.app (.conflict "task is no longer running; approval was not requested"))
  let stored ← select (·.approvals.get? id)
  orThrow stored (.error "requestApproval: approval missing after insert")

/-- `String.prototype.trim`. -/
@[irreducible] def trim (s : String) : String :=
  String.ofList ((s.toList.dropWhile isTrimmed).reverse.dropWhile isTrimmed).reverse

/-- The execution gates of a task. -/
def gates (taskId : String) (db : Database) : List ApprovalRow :=
  db.approvals.select fun a => a.taskId == taskId && a.action == .executionStart

def notSuperseded (a : ApprovalRow) : Bool := a.payloadRef != some .superseded

def lockTask (taskId : String) : Txn (List TaskRow) :=
  selectForUpdate (fun db => (db.tasks.get? taskId).toList) (.task ·.id)

def supersede (now : String) (row : ApprovalRow) : ApprovalRow :=
  if row.status == .pending || row.status == .needsMoreInfo then
    { row with payloadRef := some .superseded, status := .expired, resolvedAt := now }
  else { row with payloadRef := some .superseded }

def activeBlocker (b : BlockerRow) : Bool :=
  b.status == .opened || b.status == .mitigated || b.status == .acceptedRisk

def blockersOf (sourceIds : List String) (p : BlockerRow → Bool) (db : Database) :
    List BlockerRow :=
  db.blockers.select fun b =>
    b.sourceKind == some .approval && b.sourceId.any sourceIds.contains && p b

def setBlocker (id : String) (set : BlockerRow → BlockerRow) : Txn Unit := do
  let _ ← update (fun db => (db.blockers.get? id).toList) fun row => .blocker (set row)

/-- Active blockers follow the gate that replaces theirs. -/
def relinkBlockers (prior : List ApprovalRow) (id now : String) : Txn (List BlockerRow) :=
  if prior.isEmpty then return []
  else do
    let linked ← selectForUpdate (blockersOf (prior.map (·.id)) activeBlocker) (.blocker ·.id)
    linked.forM fun b => setBlocker b.id fun row => { row with sourceId := id, updatedAt := now }
    return linked

def relinkedPayload (id : String) (b : BlockerRow) : Json :=
  .obj [("blocker_id", .str b.id), ("previous_source_id", optionJson' b.sourceId),
        ("source_id", .str id)]
where
  optionJson' : Option String → Json
    | none => .null
    | some s => .str s

def gatePayload (id summary : String) (risk : Risk) : Payload :=
  [("approval_id", .str id), ("action", .str "execution.start"), ("summary", .str summary),
   ("risk", .str (riskName risk))]

def gateRequested (ctx : Context) (task : TaskRow) (payload : Payload) : EventSpec :=
  { type := .approvalRequested, actorType := .user, actorId := ctx.actorUserId,
    correlationId := task.id, projectId := task.projectId, taskId := task.id,
    roomId := task.roomId, payload }

def newGate (ctx : Context) (id taskId summary : String) (risk : Risk) (now : String) :
    ApprovalRow :=
  { id, taskId, runId := none, requestedByType := .user, requestedById := ctx.actorUserId,
    action := .executionStart, risk, summary, payloadRef := some .current, status := .pending,
    createdAt := now }

def requestExecutionApproval (ctx : Context) (taskId rawSummary : String) (risk : Risk) :
    Txn ApprovalRow := do
  let summary := trim rawSummary
  throwIf (summary == "" || decide (4000 < utf16Length summary))
    (.app (.validation "A summary (1-4000 characters) and valid risk are required"))
  let tasks ← lockTask taskId
  let task ← orThrow tasks.head? (.app (.notFound "task not found"))
  throwIf (task.status != .ready)
    (.app (.invalidState "Only a ready task can request approval before execution"))
  let prior ← select (gates taskId)
  let current := prior.filter notSuperseded
  let id ← generate
  let now ← nowIso
  current.forM fun approval => do
    let _ ← updateApproval approval.id (supersede now)
  insertApproval (newGate ctx id taskId summary risk now)
  let relinked ← relinkBlockers prior id now
  let _ ← logEvent (gateRequested ctx task (gatePayload id summary risk ++
    [("superseded_approval_ids", .arr (current.map fun a => .str a.id)),
     ("relinked_blockers", .arr (relinked.map (relinkedPayload id)))]))
  let stored ← select (·.approvals.get? id)
  orThrow stored (.error "Cannot read properties of undefined")

/-- The gate that lets an assignment pass: approved and not used by a run yet. -/
def grantsExecution (gate : ApprovalRow) : Bool :=
  gate.payloadRef == some .current && gate.status == .approved && gate.runId.isNone

def assertExecutionApprovalGranted (taskId : String) : Txn Unit := do
  let gates ← select (gates taskId)
  let current := gates.filter notSuperseded
  throwIf ((!gates.isEmpty && current.length != 1) || current.any fun g => !grantsExecution g)
    (.app (.conflict "Execution approval is required before this task can start"))

/-- The gates `bindExecutionApprovalToRun` updates. -/
def approvedGates (taskId : String) (db : Database) : List ApprovalRow :=
  (gates taskId db).filter fun g => g.status == .approved && g.payloadRef == some .current

def bindExecutionApprovalToRun (taskId runId : String) : Txn Unit := do
  let _ ← update (approvedGates taskId) fun row => .approval { row with runId := runId }

inductive Decision where
  | approved | rejected | needsMoreInfo
  deriving DecidableEq, Repr

def Decision.name : Decision → String
  | .approved => "approved" | .rejected => "rejected" | .needsMoreInfo => "needs_more_info"

def Decision.trigger : Decision → ApprovalTrigger
  | .approved => .approve | .rejected => .reject | .needsMoreInfo => .needMoreInfo

/-- A decision that settles the request; more information keeps it open. -/
def Decision.settles (d : Decision) : Bool := d != .needsMoreInfo

structure ResolveApprovalRequest where
  decision : Decision
  comment : Option String := none

def commentJson : Option String → Json
  | none => .null
  | some s => .str s

def resolvedEvent (ctx : Context) (task : TaskRow) (approval : ApprovalRow)
    (req : ResolveApprovalRequest) : EventSpec :=
  { type := .approvalResolved, actorType := .user, actorId := ctx.actorUserId,
    correlationId := approval.taskId, projectId := task.projectId, taskId := approval.taskId,
    roomId := task.roomId, runId := approval.runId,
    payload := [("approval_id", .str approval.id), ("decision", .str req.decision.name),
      ("comment", commentJson req.comment)] }

/-- The task follows the decision on a request of a running task. -/
def decideTask (taskId : String) (decision : Decision) (now : String) : Txn Unit := do
  let transition ← transitionTask taskId .awaitingApproval
    (if decision == .approved then .approvalGranted else .approvalRejected) now
  throwIf (!transition.changed)
    (.app (.conflict "task approval state changed during approval resolution"))

def blockerResolvedEvent (approvalId : String) (b : BlockerRow) : EventSpec :=
  { type := .blockerResolved, actorType := .system, actorId := "system", correlationId := b.id,
    roomId := b.roomId, taskId := b.taskId, runId := b.runId, goalId := b.goalId,
    payload := [("blocker_id", .str b.id), ("source_kind", .str "approval"),
      ("source_id", .str approvalId)] }

def resolveGateBlockers (approvalId now : String) : Txn Unit := do
  let linked ← selectForUpdate
    (blockersOf [approvalId] fun b => b.status == .opened || b.status == .mitigated) (.blocker ·.id)
  linked.forM fun b => do
    setBlocker b.id fun row =>
      { row with
        status := .resolved, updatedAt := now
        mitigation := "auto-resolved by approval " ++ approvalId }
    let _ ← logEvent (blockerResolvedEvent approvalId b)

def isGate (a : ApprovalRow) : Bool := a.action == .executionStart

def resolveApproval (ctx : Context) (approvalId : String) (req : ResolveApprovalRequest) :
    Txn ApprovalRow := do
  let now ← nowIso
  let found ← select (·.approvals.get? approvalId)
  let initial ← orThrow found (.app (.notFound ("approval not found: " ++ approvalId)
    [("approval_id", .str approvalId)]))
  -- the approval is read again under the lock of its task
  let tasks ← lockTask initial.taskId
  let task ← orThrow tasks.head? (.error "resolveApproval: task missing for approval")
  let approvals ← selectForUpdate (fun db => (db.approvals.get? approvalId).toList) (.approval ·.id)
  let approval ← orThrow approvals.head? (.app (.notFound "approval no longer exists"))
  throwIf (isGate approval && approval.payloadRef != some .current) (.app (.conflict
    "This execution approval has been superseded; review the current request"))
  let target ← orThrow (applyApprovalTransition approval.status req.decision.trigger)
    (.app (.invalidState ("cannot resolve approval in status '" ++ approval.status.name ++ "'")
      [("status", .str approval.status.name)]))
  let expected := if isGate approval then TaskStatus.ready else .awaitingApproval
  throwIf (task.status != expected) (.app (.invalidState
    ("task must be '" ++ expected.name ++ "' to resolve approval (is '" ++ task.status.name ++ "')")
    (statusDetails task.status)))
  let _ ← updateApproval approvalId fun row =>
    { row with status := target, resolvedBy := ctx.actorUserId, resolvedAt := now }
  if !isGate approval && req.decision.settles then decideTask approval.taskId req.decision now
  let _ ← logEvent (resolvedEvent ctx task approval req)
  if isGate approval && req.decision.settles then resolveGateBlockers approvalId now
  let stored ← select (·.approvals.get? approvalId)
  orThrow stored (.error "resolveApproval: approval missing after update")

end Artoo.Server
