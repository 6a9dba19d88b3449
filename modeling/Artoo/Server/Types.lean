import Artoo.Lib.Table
import Artoo.Lib.Transaction
import Artoo.Protocol.RunEvent
import Artoo.Domain.State
import Artoo.Domain.Lease

/-! The rows of the server's database, its row writes and locks, and its errors. The organization
is one constant of the server, so the organization columns are not stored. -/
namespace Artoo.Server
open Artoo.Lib Artoo.Protocol Artoo.Domain

abbrev Payload := List (String × Json)

inductive ActorType where
  | user | agent | system | bridge
  deriving DecidableEq, Repr

inductive EventType where
  | runStarted | runCompleted | runFailed | runCancelled | runReconciled | runOutput | runUsage
  | runAnswerDiscarded | runWorkspaceRetained | artifactCreated | messageCreated
  | taskCreated | taskUpdated | taskAssigned | reviewCompleted | leaseAcquired | leaseReleased
  | leaseExpired | dagNodeBlocked | dagNodeReady | approvalRequested | approvalResolved
  | blockerResolved | assistantTurnUpdated | roomCreated | goalPaused | goalBudgetExceeded
  | goalCompleted | goalCreated | goalResumed | goalCancelled | goalStatusChanged
  | goalPlanProposed | goalPlanRejected | goalPlanAccepted | goalPlanMaterialized
  deriving DecidableEq, Repr

structure EventRow where
  id : String
  projectId : Option String
  type : EventType
  actorType : ActorType
  actorId : String
  taskId : Option String
  roomId : Option String
  runId : Option String
  goalId : Option String
  correlationId : String
  sequence : Option Int
  payload : Payload
  occurredAt : String
  deriving DecidableEq

structure TaskRow where
  id : String
  projectId : String
  parentTaskId : Option String := none
  executionPolicyTaskId : Option String := none
  roomId : Option String := none
  goalId : Option String := none
  status : TaskStatus
  assigneeId : Option String := none
  acceptanceCriteria : List String := []
  updatedAt : String
  deriving DecidableEq, Repr

structure RunRow where
  id : String
  taskId : String
  computerId : String
  agentInstanceId : String
  status : RunStatus
  startedAt : Option String := none
  endedAt : Option String := none
  failureReason : Option String := none
  workspaceRoot : Option String := none
  workspaceBranch : Option String := none
  createdAt : String
  deriving DecidableEq, Repr

inductive LeaseHolderType where
  | run | task | agent | system
  deriving DecidableEq, Repr

inductive LeaseStatus where
  | held | released | expired
  deriving DecidableEq, Repr

structure LeaseRow where
  id : String
  projectId : String
  taskId : String
  runId : Option String
  holderType : LeaseHolderType
  holderId : String
  path : String
  mode : LeaseMode
  status : LeaseStatus
  acquiredAt : String
  expiresAt : Option String
  releasedAt : Option String
  deriving DecidableEq, Repr

inductive ApprovalAction where
  | executionStart
  | other (name : String)
  deriving DecidableEq, Repr

/-- The `payload_ref` values of an execution gate. -/
inductive GateRef where
  | current | superseded
  deriving DecidableEq, Repr

inductive Risk where
  | low | medium | high
  deriving DecidableEq, Repr

structure ApprovalRow where
  id : String
  taskId : String
  runId : Option String
  requestedByType : ActorType
  requestedById : String
  action : ApprovalAction
  risk : Risk
  summary : String
  payloadRef : Option GateRef
  status : ApprovalStatus
  resolvedBy : Option String := none
  resolvedAt : Option String := none
  createdAt : String
  deriving DecidableEq, Repr

inductive TurnStatus where
  | queued | waiting | running | completed | failed | cancelled
  deriving DecidableEq, Repr

structure TurnRow where
  id : String
  roomId : String
  threadRootId : Option String
  taskId : String
  responseMessageId : Option String
  runId : Option String
  status : TurnStatus
  error : Option String
  updatedAt : String
  deriving DecidableEq, Repr

structure MessageRow where
  id : String
  roomId : String
  taskId : Option String
  runId : Option String
  threadRootId : Option String := none
  replyCount : Nat := 0
  actorType : ActorType
  actorId : String
  kind : String
  body : String
  payload : Payload
  createdAt : String
  deriving DecidableEq

structure ArtifactRow where
  id : String
  taskId : String
  runId : Option String
  type : ArtifactType
  uri : String
  checksum : Option String
  createdAt : String
  deriving DecidableEq, Repr

structure UsageRow where
  runId : String
  measured : RunUsagePayload
  updatedAt : String
  deriving DecidableEq, Repr

/-- An `integration_queue` row; it enters as `queued`. -/
structure QueueRow where
  id : String
  projectId : String
  taskId : String
  runId : Option String
  sequence : Nat
  artifactRef : Option String
  enqueuedAt : String
  deriving DecidableEq, Repr

/-- A `run_event_ingest` receipt. -/
structure IngestRow where
  nodeId : String
  runId : String
  sequence : Int
  eventId : String
  bodyIdentity : Option String
  createdAt : String
  deriving DecidableEq, Repr

def IngestRow.key (r : IngestRow) : String × String × Int := (r.nodeId, r.runId, r.sequence)

inductive BlockerSource where
  | approval
  | other (kind : String)
  deriving DecidableEq, Repr

inductive BlockerStatus where
  | opened | mitigated | acceptedRisk | resolved
  deriving DecidableEq, Repr

structure BlockerRow where
  id : String
  roomId : String
  taskId : Option String
  runId : Option String
  goalId : Option String
  sourceKind : Option BlockerSource
  sourceId : Option String
  mitigation : Option String
  status : BlockerStatus
  updatedAt : String
  deriving DecidableEq, Repr

inductive DependencyType where
  | blocks | artifactRequired | contractRequired | reviewRequired | softContext
  deriving DecidableEq, Repr

structure DependencyRow where
  id : String
  fromTaskId : String
  toTaskId : String
  type : DependencyType
  deriving DecidableEq, Repr

/-- `event_log` is kept in the order of its position column. -/
structure Database where
  tasks : Table TaskRow.id
  runs : Table RunRow.id
  leases : Table LeaseRow.id
  approvals : Table ApprovalRow.id
  events : Table EventRow.id
  ingests : Table IngestRow.key
  messages : Table MessageRow.id
  artifacts : Table ArtifactRow.id
  turns : Table TurnRow.id
  usage : Table UsageRow.runId
  queue : Table QueueRow.id
  blockers : Table BlockerRow.id
  dependencies : Table DependencyRow.id

def Database.empty : Database :=
  ⟨.empty, .empty, .empty, .empty, .empty, .empty, .empty, .empty, .empty, .empty, .empty, .empty,
    .empty⟩

/-- One written row, with the values of all its columns. -/
inductive Write where
  | task (row : TaskRow)
  | run (row : RunRow)
  | lease (row : LeaseRow)
  | approval (row : ApprovalRow)
  | event (row : EventRow)
  | ingest (row : IngestRow)
  | message (row : MessageRow)
  | artifact (row : ArtifactRow)
  | turn (row : TurnRow)
  | usage (row : UsageRow)
  | queue (row : QueueRow)
  | blocker (row : BlockerRow)
  deriving DecidableEq

/-- A row lock. `instance` rows are locked by an assignment and not stored here. -/
inductive Lock where
  | task (id : String)
  | run (id : String)
  | lease (id : String)
  | approval (id : String)
  | event (id : String)
  | ingest (key : String × String × Int)
  | message (id : String)
  | artifact (id : String)
  | turn (id : String)
  | usage (runId : String)
  | queue (id : String)
  | blocker (id : String)
  | agentInstance (id : String)
  deriving DecidableEq, Repr

def Write.apply : Write → Database → Database
  | .task row, db => { db with tasks := db.tasks.put row }
  | .run row, db => { db with runs := db.runs.put row }
  | .lease row, db => { db with leases := db.leases.put row }
  | .approval row, db => { db with approvals := db.approvals.put row }
  | .event row, db => { db with events := db.events.put row }
  | .ingest row, db => { db with ingests := db.ingests.put row }
  | .message row, db => { db with messages := db.messages.put row }
  | .artifact row, db => { db with artifacts := db.artifacts.put row }
  | .turn row, db => { db with turns := db.turns.put row }
  | .usage row, db => { db with usage := db.usage.put row }
  | .queue row, db => { db with queue := db.queue.put row }
  | .blocker row, db => { db with blockers := db.blockers.put row }

def Write.lock : Write → Lock
  | .task row => .task row.id
  | .run row => .run row.id
  | .lease row => .lease row.id
  | .approval row => .approval row.id
  | .event row => .event row.id
  | .ingest row => .ingest row.key
  | .message row => .message row.id
  | .artifact row => .artifact row.id
  | .turn row => .turn row.id
  | .usage row => .usage row.runId
  | .queue row => .queue row.id
  | .blocker row => .blocker row.id

instance : Tables Database Write Lock := ⟨Write.apply, fun w => [w.lock]⟩

inductive ApiErrorCode where
  | validationError | notFound | conflict | invalidState | permissionDenied
  deriving DecidableEq, Repr

structure AppError where
  code : ApiErrorCode
  message : String
  httpStatus : Nat
  details : Payload := []
  deriving DecidableEq

namespace AppError

def validation (message : String) (details : Payload := []) : AppError :=
  ⟨.validationError, message, 400, details⟩

def notFound (message : String) (details : Payload := []) : AppError :=
  ⟨.notFound, message, 404, details⟩

def conflict (message : String) (details : Payload := []) : AppError :=
  ⟨.conflict, message, 409, details⟩

def invalidState (message : String) (details : Payload := []) : AppError :=
  ⟨.invalidState, message, 409, details⟩

def permissionDenied (message : String) (details : Payload := []) : AppError :=
  ⟨.permissionDenied, message, 403, details⟩

end AppError

/-- What a transaction throws. -/
inductive Failure where
  | app (e : AppError)
  | error (message : String)
  | invalidTaskTransition (status : TaskStatus) (trigger : TaskTrigger)
  | invalidRunTransition (status : RunStatus) (trigger : RunTrigger)
  | invalidApprovalTransition (status : ApprovalStatus) (trigger : ApprovalTrigger)
  /-- a unique or check constraint, a value that is not of its column's type -/
  | constraint
  deriving DecidableEq

abbrev Txn := Tx Database Write Lock String Failure

/-- Functions of the runtime and the database that the source calls. -/
structure Platform where
  /-- the hex digest of the canonical text of a value -/
  sha256 : Json → String
  toLowerCase : String → String
  /-- the text a `timestamptz` column returns for a stored text -/
  timestamptz : String → Option String
  /-- `new Date(Date.parse(text)).toISOString()`, when the date is finite and representable -/
  isoInstant : String → Option String

/-- The parts of `ServerContext` that the modelled services read; ids and times are drawn. -/
structure Context where
  actorUserId : String
  platform : Platform

end Artoo.Server
