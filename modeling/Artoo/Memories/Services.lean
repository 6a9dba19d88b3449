import Artoo.Lib.LockModes
import Artoo.Lib.Statement
import Artoo.Protocol.RunEvent

/-! Memories: their rows, and the transactions that propose, decide and supersede them. -/
namespace Artoo.Memories
open Artoo.Lib Artoo.Protocol

inductive MemoryStatus where
  | proposed | accepted | rejected | superseded
  deriving DecidableEq, Repr

inductive MemoryTrigger where
  | accept | reject | supersede
  deriving DecidableEq, Repr

inductive MemoryScope where
  | task | project | organization | code
  deriving DecidableEq, Repr

def MemoryStatus.name : MemoryStatus → String
  | .proposed => "proposed" | .accepted => "accepted" | .rejected => "rejected"
  | .superseded => "superseded"

def MemoryTrigger.name : MemoryTrigger → String
  | .accept => "accept" | .reject => "reject" | .supersede => "supersede"

def MemoryScope.name : MemoryScope → String
  | .task => "task" | .project => "project" | .organization => "organization" | .code => "code"

def memoryTransitions : List (MemoryStatus × MemoryTrigger × MemoryStatus) :=
  [(.proposed, .accept, .accepted), (.proposed, .reject, .rejected),
    (.proposed, .supersede, .superseded), (.accepted, .supersede, .superseded)]

def applyMemoryTransition (source : MemoryStatus) (trigger : MemoryTrigger) : Option MemoryStatus :=
  (memoryTransitions.find? fun t => t.1 == source && t.2.1 == trigger).map (·.2.2)

/-- The content of a memory, which the schema has checked. -/
structure ProposeMemoryRequest where
  scope : MemoryScope
  projectId : Option String := none
  taskId : Option String := none
  sourceTaskId : Option String := none
  sourceRunId : Option String := none
  sourceMessageId : Option String := none
  sourceArtifactId : Option String := none
  text : Option String := none
  payload : Option (List (String × Json)) := none
  tags : List String := []
  confidence : Rat := 1

structure MemoryRow where
  id : String
  status : MemoryStatus
  content : ProposeMemoryRequest
  authorId : String
  supersedesId : Option String := none
  supersededById : Option String := none
  createdAt : String
  updatedAt : String

structure EventRow where
  id : String
  type : String
  actorId : String
  correlationId : String
  projectId : Option String
  taskId : Option String
  payload : List (String × Json)
  occurredAt : String

structure Store where
  memories : Table MemoryRow.id := .empty
  events : Table EventRow.id := .empty

inductive Write where
  | memory (row : MemoryRow)
  | event (row : EventRow)

inductive Lock where
  | memory (id : String)
  | event (id : String)
  deriving DecidableEq, Repr

def Write.apply : Write → Store → Store
  | .memory row, st => { st with memories := st.memories.put row }
  | .event row, st => { st with events := st.events.put row }

def Write.locks : Write → List Lock
  | .memory row => [.memory row.id]
  | .event row => [.event row.id]

instance : Tables Store Write Lock := ⟨Write.apply, Write.locks⟩

instance : Conflicts Lock := ⟨fun j k => j == k⟩

inductive AppError where
  | notFound (message : String)
  | invalidState (message : String)
  | error (message : String)
  | constraint
  deriving DecidableEq, Repr

abbrev Txn := Tx Store Write Lock String AppError

def appendEvent (type actorId correlationId : String) (content : ProposeMemoryRequest)
    (payload : List (String × Json)) : Txn Unit := do
  let id ← Tx.drawn
  let occurredAt ← Tx.drawn
  Tx.add (fun st => (st.events.get? id).isSome)
    (.event { id, type, actorId, correlationId, projectId := content.projectId,
              taskId := content.taskId, payload, occurredAt })
    .constraint

def insertMemory (row : MemoryRow) : Txn Unit :=
  Tx.add (fun st => (st.memories.get? row.id).isSome) (.memory row) .constraint

def loadMemory (id : String) : Txn MemoryRow := do
  let found ← Tx.query (·.memories.get? id)
  Tx.require found (.error ("memory missing after write: " ++ id))

/-- A memory as another call finds it, not locked. -/
def findMemory (id : String) : Txn MemoryRow := do
  let found ← Tx.query (·.memories.get? id)
  Tx.require found (.notFound ("memory not found: " ++ id))

/-- `tx.update(memories).set(…).where(eq(memories.id, id))`. -/
def updateMemory (id : String) (set : MemoryRow → MemoryRow) : Txn (List MemoryRow) :=
  Tx.change (fun st => (st.memories.get? id).toList) fun row => .memory (set row)

def proposeMemory (actor : String) (req : ProposeMemoryRequest) : Txn MemoryRow := do
  let now ← Tx.drawn
  let id ← Tx.drawn
  insertMemory { id, status := .proposed, content := req, authorId := actor, createdAt := now,
                 updatedAt := now }
  appendEvent "memory.proposed" actor id req
    [("memory_id", .str id), ("scope", .str req.scope.name), ("status", .str "proposed")]
  loadMemory id

def transitionMemory (actor id : String) (trigger : MemoryTrigger) (comment : Option String) :
    Txn MemoryRow := do
  let now ← Tx.drawn
  let row ← findMemory id
  let target ← Tx.require (applyMemoryTransition row.status trigger) (.invalidState
    ("cannot '" ++ trigger.name ++ "' a memory in status '" ++ row.status.name ++ "'"))
  let _ ← updateMemory id fun row => { row with status := target, updatedAt := now }
  appendEvent ("memory." ++ target.name) actor id row.content
    [("memory_id", .str id), ("from_status", .str row.status.name), ("to_status", .str target.name),
      ("comment", comment.elim .null .str)]
  loadMemory id

def supersedeMemory (actor oldId : String) (req : ProposeMemoryRequest) :
    Txn (MemoryRow × MemoryRow) := do
  let now ← Tx.drawn
  let oldRow ← findMemory oldId
  Tx.check (oldRow.status != .accepted) (.invalidState
    ("can only supersede an accepted memory (status '" ++ oldRow.status.name ++ "')"))
  let newId ← Tx.drawn
  insertMemory { id := newId, status := .accepted, content := req, authorId := actor,
                 supersedesId := some oldId, createdAt := now, updatedAt := now }
  let target ← Tx.require (applyMemoryTransition .accepted .supersede) (.error "MemoryTransitionError")
  let _ ← updateMemory oldId fun row =>
    { row with status := target, supersededById := some newId, updatedAt := now }
  appendEvent "memory.superseded" actor oldId oldRow.content
    [("memory_id", .str oldId), ("superseded_by_id", .str newId), ("from_status", .str "accepted"),
      ("to_status", .str target.name)]
  appendEvent "memory.accepted" actor newId req
    [("memory_id", .str newId), ("supersedes_id", .str oldId), ("status", .str "accepted")]
  let memory ← loadMemory newId
  let superseded ← loadMemory oldId
  return (memory, superseded)

/-- The calls of the API; a route decides by `accept` and `reject` only. -/
inductive Call where
  | propose (actor : String) (req : ProposeMemoryRequest)
  | transition (actor id : String) (trigger : MemoryTrigger) (comment : Option String)
  | supersede (actor oldId : String) (req : ProposeMemoryRequest)

def Call.program : Call → Txn Unit
  | .propose actor req => do
    let _ ← proposeMemory actor req
  | .transition actor id trigger comment => do
    let _ ← transitionMemory actor id trigger comment
  | .supersede actor oldId req => do
    let _ ← supersedeMemory actor oldId req

end Artoo.Memories
