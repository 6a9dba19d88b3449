import Artoo.Server.Types
import Mathlib.Data.List.Sort

/-! Event envelopes, the topics they are published to and the frames that carry them. -/
namespace Artoo.Realtime
open Artoo.Protocol
open Artoo.Server (Payload)

structure EventEnvelope where
  id : String
  type : String
  schemaVersion : String
  organizationId : String
  projectId : Option String := none
  taskId : Option String := none
  roomId : Option String := none
  runId : Option String := none
  actorType : String
  actorId : String
  occurredAt : String
  correlationId : String
  idempotencyKey : Option String := none
  sequence : Option Int := none
  payload : Payload := []
  deriving DecidableEq

/-- A row of `event_log`; the position is the value of its sequence. -/
structure EventRow extends EventEnvelope where
  position : Nat
  deriving DecidableEq

def toEnvelope (row : EventRow) : EventEnvelope := row.toEventEnvelope

structure EventFrame where
  topic : String
  event : EventEnvelope
  cursor : Nat
  deriving DecidableEq

def inboxEventTypes : List String := ["run.failed", "review.completed", "task.assigned"]

def eventBatchLimit : Nat := 500

/-- `text.startsWith(start)`. -/
def startsWith (text start : String) : Bool := start.toList.isPrefixOf text.toList

def broadcastInboxEvent (type : String) : Bool :=
  inboxEventTypes.contains type ||
    ["approval.", "computer.", "daemon.", "agent.", "agent_instance.", "device."].any (startsWith type)

def isNotification (type : String) : Bool := startsWith type "notification."

/-- A property of a value; of anything but an object it is undefined. -/
def field (name : String) : Json → Option Json
  | .obj fields => fields.lookup name
  | _ => none

def items : Option Json → List Json
  | some (.arr xs) => xs
  | _ => []

/-- The user that a reference names. -/
def userRef (typeField idField : String) (ref : Json) : Option String :=
  match field typeField ref, field idField ref with
  | some (.str "user"), some (.str id) => some id
  | _, _ => none

/-- `Set.add`, in insertion order. -/
def addOnce (set : List String) (item : String) : List String :=
  if set.contains item then set else set ++ [item]

def toSet (xs : List String) : List String := xs.foldl addOnce []

def mentionRecipients (event : EventEnvelope) : List String :=
  toSet ((items (event.payload.lookup "mentions")).filterMap (userRef "actor_type" "actor_id") ++
    (items (event.payload.lookup "assignments")).filterMap (userRef "assignee_type" "assignee_id"))

def inboxTopic (userId : String) : String := "inbox:" ++ userId

def isInbox (topic : String) : Bool := startsWith topic "inbox:"

/-- The topics of the entities of an event. -/
def entityTopics (event : EventEnvelope) : List String :=
  (event.taskId.map ("task:" ++ ·)).toList ++ (event.roomId.map ("room:" ++ ·)).toList ++
    (event.runId.map ("run:" ++ ·)).toList ++ (event.projectId.map ("project:" ++ ·)).toList

def notifies (event : EventEnvelope) (userId : String) : Bool :=
  event.payload.lookup "user_id" == some (.str userId)

def topicsForEvent (event : EventEnvelope) (ownerId : String) : List String :=
  if isNotification event.type then
    if notifies event ownerId then [inboxTopic ownerId] else []
  else
    entityTopics event ++
      (if broadcastInboxEvent event.type then [inboxTopic ownerId] else []) ++
      (if event.type == "message.mention" && (mentionRecipients event).contains ownerId
        then [inboxTopic ownerId] else [])

/-- The order of the index on `position`. -/
def EventRow.upTo (a b : EventRow) : Prop := a.position ≤ b.position

instance : DecidableRel EventRow.upTo :=
  fun a b => inferInstanceAs (Decidable (a.position ≤ b.position))

instance : Std.Total EventRow.upTo := ⟨fun a b => Nat.le_total a.position b.position⟩

instance : IsTrans EventRow EventRow.upTo := ⟨fun _ _ _ => Nat.le_trans⟩

/-- The committed rows of `event_log` by position. -/
structure EventLog where
  rows : List EventRow
  ordered : rows.Pairwise EventRow.upTo

namespace EventLog

def empty : EventLog := ⟨[], .nil⟩

def insert (log : EventLog) (row : EventRow) : EventLog :=
  ⟨log.rows.orderedInsert EventRow.upTo row, log.ordered.orderedInsert row⟩

def ofRows (rows : List EventRow) : EventLog := rows.foldr (fun row log => log.insert row) empty

theorem ofRows_rows {rows : List EventRow} (sorted : rows.Pairwise EventRow.upTo) :
    (ofRows rows).rows = rows := by
  have sorts : (ofRows rows).rows = rows.insertionSort EventRow.upTo := by
    clear sorted
    induction rows with
    | nil => rfl
    | cons row rows ih => exact congrArg (List.orderedInsert EventRow.upTo row) ih
  rw [sorts, sorted.insertionSort_eq]

instance : Membership EventRow EventLog := ⟨fun log row => row ∈ log.rows⟩

@[simp] theorem mem_insert {log : EventLog} {row other : EventRow} :
    other ∈ log.insert row ↔ other = row ∨ other ∈ log := List.mem_orderedInsert _

@[simp] theorem not_mem_empty {row : EventRow} : row ∉ empty := List.not_mem_nil

end EventLog

/-- `select … where organization_id = … and position > since order by position limit …`. -/
def eventsAfter (log : EventLog) (organizationId : String) (since : Int) (limit : Nat) :
    List EventRow :=
  (log.rows.filter fun row =>
    row.organizationId == organizationId && decide (since < row.position)).take limit

/-- What a request or a connection acts for. -/
structure RealtimeContext where
  organizationId : String
  actorUserId : String
  deriving DecidableEq

/-- The topics of one event of a drain; `members` are the users it has loaded. -/
def liveTopics (ctx : RealtimeContext) (members : List String) (event : EventEnvelope) :
    List String :=
  toSet ((topicsForEvent event ctx.actorUserId).filter (fun topic => !isInbox topic) ++
    (if event.type == "message.mention" then (mentionRecipients event).map inboxTopic else []) ++
    (match isNotification event.type, event.payload.lookup "user_id" with
      | true, some (.str userId) => [inboxTopic userId]
      | _, _ => []) ++
    members.flatMap (topicsForEvent event))

/-- The users are loaded only when some row of the batch is for everyone's inbox. -/
def loadMembers (users : List String) (rows : List EventRow) : List String :=
  if rows.any fun row => broadcastInboxEvent row.type then users else []

/-- The frames that a drain gives to the hub. -/
def drainFrames (ctx : RealtimeContext) (users : List String) (rows : List EventRow) :
    List EventFrame :=
  rows.flatMap fun row => (liveTopics ctx (loadMembers users rows) (toEnvelope row)).map fun topic =>
    { topic, event := toEnvelope row, cursor := row.position }

/-- The marker that asks a client to take a new snapshot. -/
def syncRequired (ctx : RealtimeContext) (id now : String) : EventEnvelope :=
  { id, type := "sync.required", schemaVersion := "2026-06-11",
    organizationId := ctx.organizationId, actorType := "system", actorId := "artoo",
    occurredAt := now, correlationId := id,
    payload := [("reason", .str "catch_up_limit"), ("snapshot_required", .bool true)] }

/-- The frames of the rows for one user and the topics it wants. -/
def catchUpFrames (userId : String) (wanted : List String) (rows : List EventRow) :
    List EventFrame :=
  rows.flatMap fun row => ((topicsForEvent (toEnvelope row) userId).filter wanted.contains).map
    fun topic => { topic, event := toEnvelope row, cursor := row.position }

/-- The replay after a cursor; `id` and `now` are drawn when the rows exceed the batch. -/
def collectCatchUp (ctx : RealtimeContext) (id now : String) (log : EventLog)
    (sinceCursor : Int) : List String → List EventFrame
  | [] => []
  | first :: more =>
    let wanted := first :: more
    let rows := eventsAfter log ctx.organizationId sinceCursor (eventBatchLimit + 1)
    let frames := catchUpFrames ctx.actorUserId wanted (rows.take eventBatchLimit)
    match rows[eventBatchLimit]? with
    | none => frames
    | some row => frames ++ [{ topic := first, event := syncRequired ctx id now, cursor := row.position }]

/-- The topics that a connection of the user may subscribe to. -/
def allowedTopics (ctx : RealtimeContext) (topics : List String) : List String :=
  topics.filter fun topic => !isInbox topic || topic == inboxTopic ctx.actorUserId

end Artoo.Realtime
