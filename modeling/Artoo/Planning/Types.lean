import Artoo.Domain.Goal
import Artoo.Lib.Statement
import Artoo.Server.Types

/-! Goals, plans and what a plan adds to the rows of its tasks; their row writes and locks. -/
namespace Artoo.Planning
open Artoo.Lib Artoo.Domain
open Artoo.Server (DependencyType DependencyRow ActorType Payload AppError Database)

structure DependencySpec where
  ref : String
  type : DependencyType
  deriving DecidableEq, Repr

structure ArtifactSpec where
  type : String
  description : String
  deriving DecidableEq, Repr

structure TaskSpec where
  title : String
  description : String := ""
  acceptanceCriteria : List String
  requiredCapabilities : List String := []
  dependencies : List DependencySpec := []
  approvalGates : List String := []
  writeScopes : List String := []
  expectedArtifacts : List ArtifactSpec := []
  deriving DecidableEq, Repr

structure PlanRow where
  id : String
  goalId : String
  version : Nat
  authorType : ActorType
  authorId : String
  rationale : String
  status : PlanStatus
  taskSpecs : List TaskSpec
  materializedAt : Option String := none
  materializationEventId : Option String := none
  createdAt : String
  acceptedAt : Option String := none
  deriving DecidableEq, Repr

structure GoalBudgets where
  maxElapsedMs : Option Nat := none
  maxCostUsd : Option Rat := none
  maxRetries : Option Nat := none
  maxConcurrentRuns : Option Nat := none
  allowedRuntimes : Option (List String) := none
  deriving DecidableEq, Repr

inductive StopRuleType where
  | budgetExceeded | approvalTimeout | consecutiveFailures | custom
  deriving DecidableEq, Repr

def StopRuleType.name : StopRuleType → String
  | .budgetExceeded => "budget_exceeded" | .approvalTimeout => "approval_timeout"
  | .consecutiveFailures => "consecutive_failures" | .custom => "custom"

inductive StopAction where
  | pause | cancel | notify
  deriving DecidableEq, Repr

def StopAction.name : StopAction → String
  | .pause => "pause" | .cancel => "cancel" | .notify => "notify"

structure StopRule where
  type : StopRuleType
  action : StopAction
  deriving DecidableEq, Repr

structure GoalRow where
  id : String
  projectId : String
  roomId : Option String := none
  priority : String := "p2"
  status : GoalStatus
  stopConditions : List StopRule := []
  budgets : GoalBudgets := {}
  currentPlanId : Option String := none
  runningSince : Option String := none
  retryCount : Nat := 0
  updatedAt : String
  deriving DecidableEq, Repr

/-- The columns of a task row that a plan fills; a task without such a row has them null. -/
structure TaskSource where
  taskId : String
  sourcePlanId : String
  sourcePlanSpecRef : String
  title : String
  description : String
  priority : String
  requiredCapabilities : List String
  deriving DecidableEq, Repr

/-- `concurrencyLimit` is the `concurrency_limit` of the configuration, when it is a number. -/
structure InstanceRow where
  id : String
  agentId : String
  computerId : String
  runtime : String
  concurrencyLimit : Option Rat := none
  deriving DecidableEq, Repr

/-- The rows of `task_dependencies` are in `core`. -/
structure Store where
  core : Database
  goals : Table GoalRow.id
  plans : Table PlanRow.id
  sources : Table TaskSource.taskId
  instances : Table InstanceRow.id

def Store.empty : Store := ⟨.empty, .empty, .empty, .empty, .empty⟩

inductive Write where
  | core (w : Server.Write)
  | goal (row : GoalRow)
  | plan (row : PlanRow)
  | source (row : TaskSource)
  | dependency (row : DependencyRow)
  | removeDependency (row : DependencyRow)
  deriving DecidableEq

/-- A row lock, or the entry of a unique index that an insert waits for. -/
inductive Lock where
  | core (k : Server.Lock)
  | goal (id : String)
  | plan (id : String)
  | planVersion (goalId : String) (version : Nat)
  | source (taskId : String)
  | planSpec (planId specRef : String)
  | dependency (id : String)
  | edge (fromTaskId toTaskId : String) (type : DependencyType)
  deriving DecidableEq, Repr

def Write.apply : Write → Store → Store
  | .core w, st => { st with core := w.apply st.core }
  | .goal row, st => { st with goals := st.goals.put row }
  | .plan row, st => { st with plans := st.plans.put row }
  | .source row, st => { st with sources := st.sources.put row }
  | .dependency row, st =>
    { st with core := { st.core with dependencies := st.core.dependencies.put row } }
  | .removeDependency row, st =>
    { st with core := { st.core with dependencies := st.core.dependencies.remove row.id } }

def edgeLocks (row : DependencyRow) : List Lock :=
  [.dependency row.id, .edge row.fromTaskId row.toTaskId row.type]

def Write.locks : Write → List Lock
  | .core w => [.core w.lock]
  | .goal row => [.goal row.id]
  | .plan row => [.plan row.id, .planVersion row.goalId row.version]
  | .source row => [.source row.taskId, .planSpec row.sourcePlanId row.sourcePlanSpecRef]
  | .dependency row => edgeLocks row
  | .removeDependency row => edgeLocks row

instance : Tables Store Write Lock := ⟨Write.apply, Write.locks⟩

/-- What a transaction throws. -/
inductive Failure where
  | core (e : Server.Failure)
  /-- a `ZodError`, with the path of each issue -/
  | invalid (issues : List (List String))
  | invalidGoalTransition (status : GoalStatus) (trigger : GoalTrigger)
  | invalidPlanTransition (status : PlanStatus) (trigger : PlanTrigger)
  deriving DecidableEq

def Failure.app (e : AppError) : Failure := .core (.app e)

def Failure.constraint : Failure := .core .constraint

abbrev Txn := Tx Store Write Lock String Failure

/-- Functions of the runtime that the source calls. -/
structure Runtime where
  /-- `Number(text)`, when it is an integer -/
  number : String → Option Int
  /-- `Date.parse(text)`, when it is a date -/
  dateParse : String → Option Int
  /-- `a.localeCompare(b) <= 0` -/
  precedes : String → String → Bool

structure Context extends Server.Context where
  runtime : Runtime

end Artoo.Planning
