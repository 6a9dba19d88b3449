import Artoo.Assistants.Types

/-! Assistant turns: the transactions that enqueue, dispatch, answer, settle, cancel and retry
them. -/
namespace Artoo.Assistants
open Artoo.Lib Artoo.Domain
open Artoo.Server (TurnStatus)

/-- What a request is answered. -/
inductive Reply where
  | turn (turn : TurnRow)
  | enqueued (turn : TurnRow) (message : MessageRow)
  | discussion (row : DiscussionRow)
  | done
  | failed (e : Failure)
  deriving DecidableEq

def requireTurn (id : String) : Txn TurnRow := do
  Tx.require (← Tx.query (·.turns.get? id)) (.app .notFound "Assistant turn not found")

def lockTurn (id : String) : Txn (List TurnRow) :=
  Tx.queryForUpdate (fun db => (db.turns.get? id).toList) fun row => .turn row.id

def lockTask (id : String) : Txn (List TaskRow) :=
  Tx.queryForUpdate (fun db => (db.tasks.get? id).toList) fun row => .task row.id

def setTurn (id : String) (set : TurnRow → TurnRow) : Txn Unit := do
  let _ ← Tx.change (fun db => (db.turns.get? id).toList) fun row => .turn (set row)

def addTask (row : TaskRow) : Txn Unit :=
  Tx.add (fun db => (db.tasks.get? row.id).isSome) (.task row) (.error "duplicate task")

def addMessage (row : MessageRow) : Txn Unit :=
  Tx.add (fun db => (db.messages.get? row.id).isSome) (.message row) (.error "duplicate message")

def addRun (row : RunRow) : Txn Unit :=
  Tx.add (fun db => (db.runs.get? row.id).isSome) (.run row) (.error "duplicate run")

def addTurn (row : TurnRow) : Txn Unit :=
  Tx.add (fun db => db.turns.rows.any fun t => t.id == row.id || t.request == row.request)
    (.turn row) (.error "duplicate turn")

/-- `update messages set reply_count = reply_count + 1`. -/
def countReply (rootId : Option String) : Txn Unit := do
  let _ ← Tx.change (fun db => (rootId.bind db.messages.get?).toList) fun row =>
    .message { row with replyCount := row.replyCount + 1 }

/-! ## Enqueue -/

structure SendAssistantTurnRequest where
  body : String
  clientRequestId : String
  agentInstanceId : Option String := none
  threadRootId : Option String := none

def requireThreadRoot (roomId : String) : Option String → Txn (Option MessageRow)
  | none => return none
  | some rootId => do
    let root ← Tx.query fun db => (db.messages.get? rootId).filter (·.roomId == roomId)
    let root ← Tx.require (root.filter (·.threadRootId.isNone))
      (.app .validation "Assistant thread root must be a top-level message in this room")
    return some root

def refuseDiscussionThread (root : Option MessageRow) : Txn Unit := do
  let discussion ← Tx.query fun db =>
    db.discussions.rows.any fun d => root.any fun m => d.threadRootId == m.id
  Tx.check discussion (.app .validation ("Use team discussion to add input to this planning thread; " ++
    "the coordinator chooses the next agent."))

/-- `order by position desc limit 1`. -/
def latestTurn (rows : List TurnRow) : Option TurnRow :=
  rows.foldl (fun best row =>
    if best.any fun b => row.position ≤ b.position then best else some row) none

def closedGoal (goal : GoalRow) : Bool :=
  goal.status == .completed || goal.status == .cancelled || goal.status == .archived

/-- A follow-up, where the task of the conversation is closed or there is none. -/
def followUpTask (room : RoomRow) (projectId : String) (original : Option TaskRow) :
    Txn TaskRow := do
  mayRefuse
  let goalId := room.goalId <|> original.bind (·.goalId)
  let goal ← Tx.query fun db => goalId.bind db.goals.get?
  Tx.check (goal.any closedGoal) (.app .invalidState ("This goal is closed. Create a follow-up " ++
    "goal to run more work; team discussion remains available."))
  let id ← generate
  let row : TaskRow :=
    { id, projectId, roomId := room.id, goalId, parentTaskId := original.map (·.id) }
  addTask row
  return row

def closedTask (task : TaskRow) : Bool := task.status == .done || task.status == .cancelled

def conversationTask (room : RoomRow) (projectId : String) (root : Option MessageRow)
    (threadRootId : Option String) : Txn TaskRow := do
  let previous ← Tx.query fun db =>
    latestTurn (db.turns.select fun t => t.conversation == (room.id, threadRootId))
  let existingTaskId := previous.map (·.taskId) <|> root.bind (·.taskId) <|> room.taskId
  let original ← Tx.query fun db => existingTaskId.bind db.tasks.get?
  match original.filter (!closedTask ·) with
  | some task => return task
  | none => followUpTask room projectId original

def requestMessage (id turnId actor : String) (room : RoomRow) (task : TaskRow)
    (request : SendAssistantTurnRequest) : MessageRow :=
  { id, roomId := room.id, threadRootId := request.threadRootId, taskId := task.id, turnId
    actorType := .user, actorId := actor, body := request.body }

def requestTurn (id messageId actor : String) (position : Nat) (room : RoomRow) (task : TaskRow)
    (request : SendAssistantTurnRequest) : TurnRow :=
  { id, position, roomId := room.id, threadRootId := request.threadRootId, taskId := task.id
    actorUserId := actor, clientRequestId := request.clientRequestId
    agentInstanceId := request.agentInstanceId, userMessageId := messageId }

/-- The turn and its message. -/
def newTurn (actor : String) (room : RoomRow) (projectId : String) (root : Option MessageRow)
    (request : SendAssistantTurnRequest) : Txn Reply := do
  -- content moderation and AI sharing
  mayRefuse
  let waiting ← Tx.query fun db => (db.turns.select fun t => t.roomId == room.id && t.pending).length
  Tx.check (20 ≤ waiting) (.app .rateLimited
    "This conversation already has 20 pending turns; wait or cancel a queued turn")
  let task ← conversationTask room projectId root request.threadRootId
  let id ← generate
  let messageId ← generate
  let message := requestMessage messageId id actor room task request
  addMessage message
  countReply (root.map (·.id))
  let position ← nextPosition
  let turn := requestTurn id messageId actor position room task request
  addTurn turn
  return .enqueued turn message

def repeatedTurn (request : SendAssistantTurnRequest) (turn : TurnRow) : Txn Reply := do
  let message ← Tx.require (← Tx.query (·.messages.get? turn.userMessageId))
    (.error "the message of the turn is missing")
  Tx.check (message.body != request.body || turn.agentInstanceId != request.agentInstanceId ||
    turn.threadRootId != request.threadRootId)
    (.app .conflict "This assistant request identity was already used for different content")
  return .enqueued turn message

def enqueueAssistantTurn (actor roomId : String) (request : SendAssistantTurnRequest) :
    Txn Reply := do
  let noRoom : Failure := .app .notFound "Project room not found"
  let rooms ← Tx.queryForUpdate (fun db => (db.rooms.get? roomId).toList) fun row => .room row.id
  let room ← Tx.require rooms.head? noRoom
  let projectId ← Tx.require room.projectId noRoom
  let root ← requireThreadRoot roomId request.threadRootId
  refuseDiscussionThread root
  let duplicate ← Tx.query fun db =>
    db.turns.rows.find? fun t => t.request == (roomId, actor, request.clientRequestId)
  match duplicate with
  | some turn => repeatedTurn request turn
  | none => newTurn actor room projectId root request

/-! ## Settlement -/

def noAnswer : String :=
  "The runtime finished without a structured answer. Inspect its run output."

/-- The status a turn is set to: it only completes with an answer. -/
def outcomeOf (row : TurnRow) (status : TurnStatus) (error : Option String) :
    TurnStatus × Option String :=
  if status = .completed && row.responseMessageId.isNone then (.failed, some noAnswer)
  else (status, error)

def TurnRow.settle (row : TurnRow) (outcome : TurnStatus × Option String) : TurnRow :=
  { row with status := outcome.1, error := outcome.2 }

def changeTurn (id : String) (status : TurnStatus) (error : Option String)
    (expectedRunId : Option String := none) : Txn Unit := do
  let rows ← lockTurn id
  match rows.head?.filter fun row => row.pending && row.runId == expectedRunId with
  | none => return ()
  | some row =>
    if row.settle (outcomeOf row status error) = row then return ()
    else setTurn id (·.settle (outcomeOf row status error))

/-! ## Dispatch -/

/-- The guarded update of a task's status; whether a row was changed. -/
def transitionTask (taskId : String) (source : TaskStatus) (trigger : TaskTrigger) : Txn Bool := do
  let target ← Tx.require (applyTaskTransition source trigger) (.error "InvalidTransitionError")
  let changed ← Tx.change
    (fun db => ((db.tasks.get? taskId).filter (·.status == source)).toList) fun row =>
    .task { row with status := target }
  return !changed.isEmpty

def transitionRun (runId : String) (source : RunStatus) (trigger : RunTrigger)
    (failureReason : Option String := none) : Txn Unit := do
  let target ← Tx.require (applyRunTransition source trigger) (.error "InvalidTransitionError")
  let _ ← Tx.change
    (fun db => ((db.runs.get? runId).filter (·.status == source)).toList) fun row =>
    .run { row with status := target, failureReason := failureReason <|> row.failureReason }

def markReady (taskId : String) : Txn Unit := do
  let row ← Tx.require (← Tx.query (·.tasks.get? taskId)) (.app .notFound "task not found")
  mayRefuse
  Tx.check (!canTransitionTask row.status .triage)
    (.app .invalidState "cannot mark ready from this status")
  let _ ← transitionTask taskId row.status .triage

def retryTask (taskId : String) : Txn Unit := do
  let row ← Tx.require (← Tx.query (·.tasks.get? taskId)) (.app .notFound "task not found")
  Tx.check (!canTransitionTask row.status .retry)
    (.app .invalidState "cannot retry from this status")
  mayRefuse
  let _ ← transitionTask taskId row.status .retry

/-- A review that asks for changes. -/
def requestChanges (taskId : String) : Txn Unit := do
  let rows ← lockTask taskId
  let row ← Tx.require rows.head? (.app .notFound "task not found")
  Tx.check (row.status != .review) (.app .invalidState "task must be 'review' to review")
  mayRefuse
  let changed ← transitionTask taskId .review .requestChanges
  Tx.check (!changed) (.app .conflict "task is no longer in review")

def turnChanged : Failure :=
  .app .conflict "Assistant turn was cancelled, changed, or already dispatched"

/-- The checks of the turn that asks for the assignment. -/
def claimTurn (taskId turnId : String) : Txn TurnRow := do
  let rows ← Tx.queryForUpdate
    (fun db => ((db.turns.get? turnId).filter (·.taskId == taskId)).toList) fun row => .turn row.id
  let turn ← Tx.require rows.head? turnChanged
  Tx.check ((turn.status != .queued && turn.status != .waiting) || turn.runId.isSome) turnChanged
  mayRefuse
  let active ← Tx.query fun db => db.turns.select fun t =>
    t.conversation == turn.conversation && t.status == .running
  Tx.check (!active.isEmpty)
    (.app .conflict "Another assistant turn is still running in this room")
  return turn

/-- The part of the context pack that may refuse a run: a discussion's task runs only while the
discussion does. -/
def buildRunContextPack (taskId : String) : Txn Unit := do
  let discussion ← Tx.query fun db => db.discussions.rows.find? (·.taskId == taskId)
  let at_ ← now
  Tx.check (discussion.any fun d => d.status != .running || d.deadlineAt ≤ at_)
    (.app .invalidState "This planning discussion has stopped or reached its time limit")
  mayRefuse

def TurnRow.start (row : TurnRow) (runId : String) : TurnRow :=
  { row with runId, status := .running, error := none }

/-- Another turn of the conversation runs: `assistant_turns_one_running_per_conversation`. -/
def otherRuns (turnId : String) (db : Database) : Bool :=
  (db.turns.get? turnId).any fun row => db.turns.rows.any fun t =>
    t.id != turnId && t.status == .running && t.conversation == row.conversation

def startTurn (turnId runId : String) : Txn Unit :=
  .stmt (fun _ => [])
    (fun db => if otherRuns turnId db then [] else
      (db.turns.get? turnId).toList.map fun row => .turn (row.start runId))
    fun db => if otherRuns turnId db then .fail (.error "unique constraint") else .done ()

def runOf (id taskId agentInstanceId : String) : RunRow := { id, taskId, agentInstanceId }

def startRun (taskId agentInstanceId runId : String) (assistantTurnId : Option String) :
    Txn Unit := do
  buildRunContextPack taskId
  addRun (runOf runId taskId agentInstanceId)
  match assistantTurnId with
  | some turnId => startTurn turnId runId
  | none => return ()

def claimFor (taskId : String) : Option String → Txn Unit
  | none => return ()
  | some turnId => do
    let _ ← claimTurn taskId turnId

def assignTask (taskId : String) (assistantTurnId : Option String) : Txn String := do
  mayRefuse
  let rows ← lockTask taskId
  let task ← Tx.require rows.head? (.app .notFound "task not found")
  Tx.check (task.status != .ready) (.app .invalidState "task must be 'ready' to assign")
  claimFor taskId assistantTurnId
  -- the goal, the plan, the approvals, the leases and the scheduler
  mayRefuse
  let selected ← generate
  let runId ← generate
  let changed ← transitionTask taskId .ready .assign
  Tx.check (!changed) (.app .conflict "task is no longer ready (already assigned?)")
  startRun taskId selected runId assistantTurnId
  return runId

/-! ## Answers -/

def TurnRow.answer (row : TurnRow) (messageId : String) : TurnRow :=
  { row with responseMessageId := messageId }

def answerMessage (id roomId text : String) (run : RunRow) (turn : Option TurnRow) : MessageRow :=
  { id, roomId, threadRootId := turn.bind (·.threadRootId), taskId := run.taskId, runId := run.id
    turnId := turn.map (·.id), actorType := .agent, actorId := run.agentInstanceId, body := text }

def writeAnswer (messageId roomId text : String) (run : RunRow) (turn : Option TurnRow) :
    Txn Unit := do
  addMessage (answerMessage messageId roomId text run turn)
  match turn with
  | none => return ()
  | some row => do
    setTurn row.id (·.answer messageId)
    countReply row.threadRootId

/-- The answer of a run; it is discarded where the turn has one, or the run has failed or was
cancelled. -/
def ingestAnswer (runId text : String) : Txn Unit := do
  let runs ← Tx.queryForUpdate (fun db => (db.runs.get? runId).toList) fun row => .run row.id
  let run ← Tx.require runs.head? (.app .notFound "run not found")
  let task ← Tx.require (← Tx.query (·.tasks.get? run.taskId)) (.app .notFound "task not found")
  mayRefuse
  let turns ← Tx.queryForUpdate (fun db => db.turns.select (·.runId == some runId)) fun row =>
    .turn row.id
  let turn := turns.head?
  match turn.map (·.roomId) <|> task.roomId with
  | none => return ()
  | some roomId =>
    if turn.any (·.responseMessageId.isSome) || run.status = .failed || run.status = .cancelled then
      return ()
    else do
      let messageId ← generate
      writeAnswer messageId roomId text run turn

/-! ## Cancellation and retry -/

/-- `cancelRun`, once the process was asked to stop. -/
def cancelRun (runId : String) : Txn Unit := do
  let current ← Tx.require (← Tx.query (·.runs.get? runId)) (.app .notFound "run not found")
  if current.status = .cancelled then return ()
  else do
    Tx.check (!canTransitionRun current.status .cancel)
      (.app .invalidState "cannot cancel run in this status")
    mayRefuse
    let run ← Tx.require (← Tx.query (·.runs.get? runId)) (.app .notFound "run not found")
    if run.status = .cancelled then return ()
    else do
      transitionRun runId run.status .cancel
      let task ← Tx.query (·.tasks.get? run.taskId)
      match task.filter fun t => canTransitionTask t.status .cancel with
      | none => return ()
      | some task => do
        let _ ← transitionTask task.id task.status .cancel

def TurnRow.cancel (row : TurnRow) : TurnRow := { row with status := .cancelled, error := none }

/-- The transaction of `cancelAssistantTurn`; `turn` is what it read before. -/
def cancelPending (turn : TurnRow) : Txn Unit := do
  let _ ← lockTask turn.taskId
  let rows ← lockTurn turn.id
  let current ← Tx.require rows.head? (.error "turn missing")
  Tx.check (current.runId.isSome && turn.runId.isNone)
    (.app .conflict "This turn just started; retry cancellation to stop its execution")
  if current.pending then setTurn turn.id (·.cancel) else return ()

def terminalRun (run : RunRow) : Bool := isRunTerminal run.status

def TurnRow.retry (row : TurnRow) : TurnRow :=
  { row with status := .queued, runId := none, responseMessageId := none, error := none
             retries := row.retries + 1 }

def refuseUnsettled (row : TurnRow) : Txn Unit := do
  Tx.check (row.status != .waiting && row.status != .failed)
    (.app .invalidState "Only a waiting or failed assistant turn can be retried")
  let run ← Tx.query fun db => row.runId.bind db.runs.get?
  Tx.check (run.any (!terminalRun ·)) (.app .conflict "The previous execution has not stopped")
  let earlier ← Tx.query fun db => db.turns.rows.any fun t =>
    t.conversation == row.conversation && decide (t.position < row.position) && t.pending
  Tx.check earlier (.app .conflict "An earlier turn is still pending")

def retryAssistantTurn (id : String) : Txn Unit := do
  let original ← requireTurn id
  mayRefuse
  let _ ← lockTask original.taskId
  let rows ← lockTurn id
  let row ← Tx.require rows.head? (.error "turn missing")
  refuseUnsettled row
  setTurn id (·.retry)

end Artoo.Assistants
