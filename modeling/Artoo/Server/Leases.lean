import Artoo.Server.Statements

/-! The file lease service. -/
namespace Artoo.Server
open Artoo.Lib Artoo.Protocol Artoo.Domain

def leasePathRoot : String := ""

def leasePast (lease : LeaseRow) (now : String) : Bool :=
  match lease.expiresAt with
  | none => false
  | some expiresAt => !decide (now < expiresAt)

/-- Held and not past its expiry, as texts compare. -/
def isActive (lease : LeaseRow) (now : String) : Bool := lease.status == .held && !leasePast lease now

def LeaseHolderType.name : LeaseHolderType → String
  | .run => "run" | .task => "task" | .agent => "agent" | .system => "system"

def leaseModeName : LeaseMode → String
  | .read => "read" | .write => "write"

def optionJson : Option String → Json
  | none => .null
  | some s => .str s

def leasePayload (lease : LeaseRow) : Payload :=
  [("lease_id", .str lease.id), ("project_id", .str lease.projectId),
   ("task_id", .str lease.taskId), ("run_id", optionJson lease.runId), ("path", .str lease.path),
   ("mode", .str (leaseModeName lease.mode)), ("holder_type", .str lease.holderType.name),
   ("holder_id", .str lease.holderId)]

def leaseEvent (type : EventType) (lease : LeaseRow) : EventSpec :=
  { type, actorType := .system, actorId := "control_plane", correlationId := lease.taskId,
    projectId := lease.projectId, taskId := lease.taskId, runId := lease.runId,
    payload := leasePayload lease }

/-- `update(fileLeases).set(…).where(eq(id, …))`. -/
def updateLease (id : String) (set : LeaseRow → LeaseRow) : Txn (List LeaseRow) :=
  update (fun db => (db.leases.get? id).toList) fun row => .lease (set row)

def expireStaleLeases (leases : List LeaseRow) (now : String) : Txn Unit :=
  leases.forM fun lease => do
    if lease.status == .held && leasePast lease now then
      let _ ← updateLease lease.id fun row => { row with status := .expired }
      let _ ← logEvent (leaseEvent .leaseExpired lease)

/-- The held leases of a project. -/
def heldLeases (projectId : String) (db : Database) : List LeaseRow :=
  db.leases.select fun l => l.projectId == projectId && l.status == .held

structure AcquireLeaseRequest where
  taskId : String
  runId : Option String := none
  path : String
  mode : LeaseMode
  holderType : Option LeaseHolderType := none
  holderId : Option String := none
  expiresAt : Option String := none

def LeaseRow.scope (l : LeaseRow) : LeaseScope := ⟨l.path, l.mode⟩

def conflictDetails (path : String) (conflict : LeaseRow) : Payload :=
  [("path", .str path), ("conflicting_lease_id", .str conflict.id),
   ("conflicting_path", .str conflict.path),
   ("conflicting_mode", .str (leaseModeName conflict.mode)),
   ("conflicting_holder_id", .str conflict.holderId)]

/-- The value a nullable `timestamptz` column keeps. -/
def storeTimestamp (platform : Platform) : Option String → Txn (Option String)
  | none => .done none
  | some text => do
    let stored ← orThrow (platform.timestamptz text) .constraint
    return some stored

def insertLease (row : LeaseRow) : Txn Unit := insert (fun db => (db.leases.get? row.id).isSome) (.lease row)

def acquireLease (ctx : Context) (req : AcquireLeaseRequest) : Txn LeaseRow := do
  let now ← nowIso
  let found ← select (·.tasks.get? req.taskId)
  let task ← orThrow found
    (.app (.notFound ("task not found: " ++ req.taskId) [("task_id", .str req.taskId)]))
  match normalizeLeasePath ctx.platform.toLowerCase leasePathRoot req.path with
  | .error reason =>
    .fail (.app (.validation ("invalid lease path: " ++ reason) [("path", .str req.path)]))
  | .ok path =>
    let holderType := req.holderType.getD (if req.runId.isSome then .run else .task)
    let holderId := req.holderId.getD (req.runId.getD req.taskId)
    let projectLeases ← select (heldLeases task.projectId)
    expireStaleLeases projectLeases now
    let active := projectLeases.filter (isActive · now)
    let existing := active.find? fun l =>
      l.taskId == req.taskId && l.runId == req.runId && l.holderType == holderType &&
        l.holderId == holderId && l.path == path && l.mode == req.mode
    match existing with
    | some lease => return lease
    | none =>
      match active.find? fun l => leasesConflict ⟨path, req.mode⟩ l.scope with
      | some conflict =>
        .fail (.app (.conflict "file lease conflict"
          (("mode", .str (leaseModeName req.mode)) :: conflictDetails path conflict)))
      | none =>
        let id ← generate
        let expiresAt ← storeTimestamp ctx.platform req.expiresAt
        let row : LeaseRow :=
          { id, projectId := task.projectId, taskId := req.taskId, runId := req.runId, holderType,
            holderId, path, mode := req.mode, status := .held, acquiredAt := now, expiresAt,
            releasedAt := none }
        insertLease row
        let _ ← logEvent (leaseEvent .leaseAcquired row)
        let stored ← select (·.leases.get? id)
        orThrow stored (.error "acquireLease: row missing after insert")

/-- The release of one row, and its event. -/
def releaseRow (lease : LeaseRow) (now : String) : Txn Unit := do
  let _ ← updateLease lease.id fun row => { row with status := .released, releasedAt := now }
  let _ ← logEvent (leaseEvent .leaseReleased lease)

def releaseLease (leaseId : String) : Txn LeaseRow := do
  let now ← nowIso
  let found ← select (·.leases.get? leaseId)
  let lease ← orThrow found
    (.app (.notFound ("lease not found: " ++ leaseId) [("lease_id", .str leaseId)]))
  if lease.status == .held then releaseRow lease now
  let stored ← select (·.leases.get? leaseId)
  orThrow stored (.error "releaseLease: row missing after update")

/-- The expiry that a listing of a project's leases performs. -/
def listLeases (projectId : String) (status : Option LeaseStatus) : Txn (List LeaseRow) := do
  let projectLeases ← select fun db => db.leases.select fun l => l.projectId == projectId
  let now ← nowIso
  expireStaleLeases projectLeases now
  select fun db => db.leases.select fun l =>
    l.projectId == projectId && (match status with | none => true | some s => l.status == s)

/-- The canonical keys of the declared paths, each once and in order. -/
def leaseKeys (ctx : Context) : List String → List String → Txn (List String)
  | [], keys => .done keys
  | raw :: rest, keys =>
    match normalizeLeasePath ctx.platform.toLowerCase leasePathRoot raw with
    | .error reason =>
      .fail (.app (.validation ("invalid write path: " ++ reason) [("path", .str raw)]))
    | .ok path => leaseKeys ctx rest (if keys.contains path then keys else keys ++ [path])

def ownedByRun (runId : String) (l : LeaseRow) : Bool := l.holderType == .run && l.holderId == runId

structure ReserveParams where
  taskId : String
  runId : String
  projectId : String
  paths : List String

/-- The loop over the keys; `active` grows by the leases it reserves. -/
def reserveKeys (params : ReserveParams) (now : String) :
    List String → List LeaseRow → List String → Txn (List String)
  | [], _, reserved => .done reserved
  | path :: keys, active, reserved =>
    match active.find? fun l => ownedByRun params.runId l && l.path == path && l.mode == .write with
    | some existing => reserveKeys params now keys active (reserved ++ [existing.id])
    | none =>
      match active.find? fun l =>
          !ownedByRun params.runId l && leasesConflict ⟨path, .write⟩ l.scope with
      | some conflict =>
        .fail (.app (.conflict "file lease conflict on write_paths" (conflictDetails path conflict)))
      | none => do
        let id ← generate
        let row : LeaseRow :=
          { id, projectId := params.projectId, taskId := params.taskId, runId := some params.runId,
            holderType := .run, holderId := params.runId, path, mode := .write, status := .held,
            acquiredAt := now, expiresAt := none, releasedAt := none }
        insertLease row
        let _ ← logEvent (leaseEvent .leaseAcquired row)
        reserveKeys params now keys (active ++ [row]) (reserved ++ [id])

def reserveRunLeases (ctx : Context) (params : ReserveParams) : Txn (List String) := do
  if params.paths.isEmpty then return []
  else
    let now ← nowIso
    let keys ← leaseKeys ctx params.paths []
    let projectLeases ← select (heldLeases params.projectId)
    expireStaleLeases projectLeases now
    reserveKeys params now keys (projectLeases.filter (isActive · now)) []

/-- The held leases of a run. -/
def runLeases (runId : String) (db : Database) : List LeaseRow :=
  db.leases.select fun l => l.holderType == .run && l.holderId == runId && l.status == .held

def releaseRunLeases (runId : String) : Txn Unit := do
  let now ← nowIso
  let held ← select (runLeases runId)
  held.forM (releaseRow · now)

end Artoo.Server
