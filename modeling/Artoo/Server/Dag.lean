import Artoo.Server.Statements

/-! The dependency graph of tasks: unlocking and blocking of the dependents of a task. -/
namespace Artoo.Server
open Artoo.Lib Artoo.Protocol Artoo.Domain

def isGatingDependency (type : DependencyType) : Bool := type != .softContext

inductive EvidenceKind where
  | artifact | contract
  deriving DecidableEq, Repr

def requiredEvidenceKind : DependencyType → Option EvidenceKind
  | .artifactRequired => some .artifact
  | .contractRequired => some .contract
  | _ => none

/-- The gating dependents of a task, each once and in the order of the edges. -/
def downstream (sourceTaskId : String) (db : Database) : List String :=
  ((db.dependencies.rows.filter fun e =>
    e.fromTaskId == sourceTaskId && isGatingDependency e.type).map (·.toTaskId)).eraseDups

def incomingEdges (edges : List DependencyRow) (taskId : String) : List DependencyRow :=
  edges.filter (·.toTaskId == taskId)

def isTaskUnlocked (incoming : List DependencyRow) (statusById : String → Option TaskStatus) : Bool :=
  (incoming.filter fun e => isGatingDependency e.type).all fun e =>
    statusById e.fromTaskId == some .done

def hasEvidence (db : Database) (taskId : String) : EvidenceKind → Bool
  | .artifact => db.artifacts.rows.any (·.taskId == taskId)
  | .contract => db.artifacts.rows.any fun a => a.taskId == taskId && a.type == .contract

def hasRequiredEvidence (incoming : List DependencyRow) (db : Database) : Bool :=
  (incoming.filter fun e => isGatingDependency e.type).all fun e =>
    match requiredEvidenceKind e.type with
    | none => true
    | some need => hasEvidence db e.fromTaskId need

def statusMap (db : Database) (taskId : String) : Option TaskStatus :=
  (db.tasks.get? taskId).map (·.status)

def isDependentSatisfied (incoming : List DependencyRow)
    (statusById : String → Option TaskStatus) : Txn Bool :=
  if !isTaskUnlocked incoming statusById then return false
  else select fun db => hasRequiredEvidence incoming db

def dagNodeReady (completedTaskId : String) (dependent : TaskRow) (target : TaskStatus) :
    List EventSpec :=
  let spec : EventSpec :=
    { type := .dagNodeReady, actorType := .system, actorId := "control_plane",
      correlationId := dependent.id, projectId := dependent.projectId, taskId := dependent.id,
      roomId := dependent.roomId }
  [{ spec with payload := [("unlocked_by", .str completedTaskId), ("status", .str target.name)] },
   { spec with type := .taskUpdated, payload := [("status", .str target.name)] }]

def unlockDownstream (completedTaskId : String) : Txn Unit := do
  let downstreamIds ← select (downstream completedTaskId)
  let edges ← select (·.dependencies.rows)
  let statusById ← select statusMap
  let now ← nowIso
  downstreamIds.forM fun dependentId => do
    let found ← select (·.tasks.get? dependentId)
    match found with
    | none => return ()
    | some dependent =>
      if dependent.status != .backlog || dependent.acceptanceCriteria.isEmpty then return ()
      else
        let satisfied ← isDependentSatisfied (incomingEdges edges dependentId) statusById
        if satisfied then
          let _ ← transitionTask dependentId .backlog .triage now (dagNodeReady completedTaskId dependent)

def dagNodeBlocked (sourceTaskId reason : String) (dependent : TaskRow) : EventSpec :=
  { type := .dagNodeBlocked, actorType := .system, actorId := "control_plane",
    correlationId := dependent.id, projectId := dependent.projectId, taskId := dependent.id,
    roomId := dependent.roomId,
    payload := [("blocked_by", .str sourceTaskId), ("reason", .str reason)] }

/-- Signals the waiting dependents; their status stays as it is. -/
def propagateBlocked (sourceTaskId reason : String) : Txn Unit := do
  let downstreamIds ← select (downstream sourceTaskId)
  downstreamIds.forM fun dependentId => do
    let found ← select (·.tasks.get? dependentId)
    match found with
    | none => return ()
    | some dependent =>
      if dependent.status == .backlog || dependent.status == .ready then
        let _ ← logEvent (dagNodeBlocked sourceTaskId reason dependent)

end Artoo.Server
