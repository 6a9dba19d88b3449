import Artoo.Assistants.Turns

/-! Planning discussions: the transactions that start, advance, stop and conclude them. -/
namespace Artoo.Assistants
open Artoo.Lib Artoo.Domain

def lockDiscussion (id : String) : Txn DiscussionRow := do
  let rows ← Tx.queryForUpdate (fun db => (db.discussions.get? id).toList) fun row =>
    .discussion row.id
  Tx.require rows.head? (.app .notFound "Discussion not found")

/-- `update discussions set … returning`: the row as it is written. -/
def setDiscussion (row : DiscussionRow) : Txn DiscussionRow := do
  let _ ← Tx.change (fun db => (db.discussions.get? row.id).toList) fun _ => .discussion row
  return row

/-! ## Start -/

structure StartDiscussionRequest where
  team : Team
  rounds : Nat
  maxMinutes : Nat
  roomId : Option String := none

def requireRoom (goal : GoalRow) (roomId : Option String) : Txn RoomRow := do
  let room ← Tx.query fun db => (roomId.bind db.rooms.get?).filter fun r =>
    r.projectId == some goal.projectId && (some r.id == goal.roomId || r.channel)
  Tx.require room
    (.app .validation "Choose this goal's room or a channel in the same project")

def requireTeam (goal : GoalRow) (team : Team) : Txn Unit := do
  let selected ← Tx.query fun db =>
    db.agents.select fun a => (team.members.map (·.agentInstanceId)).contains a.id
  Tx.check (selected.length != team.size)
    (.app .validation "Every participant must be an agent instance in this team")
  Tx.check (goal.allowedRuntimes.any fun allowed => selected.any fun a => !allowed.contains a.runtime)
    (.app .validation "A selected agent runtime is outside this goal's allowed runtimes")

/-- `discussions_one_active_goal` is the unique key. -/
def addDiscussion (row : DiscussionRow) : Txn Unit :=
  Tx.add (fun db => db.discussions.rows.any fun d =>
      d.id == row.id || (d.active && d.goalId == row.goalId))
    (.discussion row) (.error "duplicate discussion")

def newDiscussion (id actor taskId rootId : String) (goal : GoalRow) (room : RoomRow)
    (request : StartDiscussionRequest) (at_ : Int) : DiscussionRow :=
  { id, goalId := goal.id, roomId := room.id, threadRootId := rootId, taskId, actorUserId := actor
    team := request.team, rounds := request.rounds, maxMinutes := request.maxMinutes
    deadlineAt := at_ + request.maxMinutes * 60000 }

def rootMessage (id actor taskId : String) (room : RoomRow) (body : String) : MessageRow :=
  { id, roomId := room.id, taskId, actorType := .user, actorId := actor, body }

def openDiscussion (actor : String) (goal : GoalRow) (room : RoomRow)
    (request : StartDiscussionRequest) : Txn Reply := do
  let at_ ← now
  let id ← generate
  let taskId ← generate
  let rootId ← generate
  let body ← generate
  addTask { id := taskId, projectId := goal.projectId, roomId := room.id }
  addMessage (rootMessage rootId actor taskId room body)
  let row := newDiscussion id actor taskId rootId goal room request at_
  addDiscussion row
  return .discussion row

def startDiscussion (actor goalId : String) (request : StartDiscussionRequest) : Txn Reply := do
  mayRefuse
  let goals ← Tx.queryForUpdate (fun db => (db.goals.get? goalId).toList) fun row => .goal row.id
  let goal ← Tx.require goals.head? (.app .notFound "Goal not found")
  Tx.check (!canProposePlan goal.status goal.currentPlanId.isSome)
    (.app .invalidState "Pause the goal before discussing a replacement plan")
  let ongoing ← Tx.query fun db => db.discussions.select fun d => d.goalId == goalId && d.active
  Tx.check (!ongoing.isEmpty) (.app .conflict "This goal already has an active discussion")
  let room ← requireRoom goal (request.roomId <|> goal.roomId)
  requireTeam goal request.team
  openDiscussion actor goal room request

/-! ## Advance -/

namespace DiscussionRow

def stop (d : DiscussionRow) (error : Option String) : DiscussionRow :=
  { d with status := .stopping, error }

def conclude (d : DiscussionRow) : DiscussionRow :=
  { d with status := if d.error.isSome then .failed else .cancelled }

/-- The step of an answered turn is counted; the last one makes the discussion ready. -/
def count (d : DiscussionRow) (messageId : String) : DiscussionRow :=
  if d.currentStep + 1 = d.totalSteps then
    { d with activeTurnId := none, currentStep := d.currentStep + 1, status := .ready
             finalMessageId := messageId }
  else { d with activeTurnId := none, currentStep := d.currentStep + 1 }

def ask (d : DiscussionRow) (turnId : String) : DiscussionRow := { d with activeTurnId := turnId }

end DiscussionRow

def promptMessage (id turnId prompt : String) (d : DiscussionRow) : MessageRow :=
  { id, roomId := d.roomId, threadRootId := d.threadRootId, taskId := d.taskId, turnId
    actorType := .system, actorId := "discussion-coordinator", body := prompt }

def promptTurn (id messageId : String) (position : Nat) (d : DiscussionRow) : TurnRow :=
  { id, position, roomId := d.roomId, threadRootId := d.threadRootId, taskId := d.taskId
    actorUserId := d.actorUserId, clientRequestId := d.requestId d.currentStep
    agentInstanceId := (d.participant d.currentStep).agentInstanceId, userMessageId := messageId }

/-- The turn of the current step. -/
def askNext (d : DiscussionRow) : Txn DiscussionRow := do
  let turnId ← generate
  let messageId ← generate
  let prompt ← generate
  addMessage (promptMessage messageId turnId prompt d)
  countReply d.threadRootId
  let position ← nextPosition
  addTurn (promptTurn turnId messageId position d)
  setDiscussion (d.ask turnId)

def sharingCodes : List ApiErrorCode := [.aiConsentRequired, .aiSharingUnconfigured]

/-- Without AI sharing the discussion stops; another error is thrown. -/
def proceed (d : DiscussionRow) : Txn DiscussionRow := do
  let sharing := (← Tx.drawn).refusal
  match sharing with
  | none => askNext d
  | some (.app code message) =>
    if sharingCodes.contains code then setDiscussion (d.stop message) else .fail (.app code message)
  | some e => .fail e

def unusable : String := "An agent did not finish with a usable answer"

/-- A completed turn with an answer is counted, a pending one is left alone. -/
def collect (d : DiscussionRow) (turnId : String) : Txn DiscussionRow := do
  let turn ← Tx.query (·.turns.get? turnId)
  if turn.any (·.pending) then return d
  else
    match (turn.filter (·.status == .completed)).bind (·.responseMessageId) with
    | none => setDiscussion (d.stop ((turn.bind (·.error)).getD unusable))
    | some answer => do
      let row ← setDiscussion (d.count answer)
      if row.status = .ready then return row else proceed row

def goalMoved (goal : GoalRow) : Bool :=
  closedGoal goal || goal.status == .running || goal.status == .awaitingApproval

def stopReason (d : DiscussionRow) (at_ : Int) : String :=
  if d.deadlineAt ≤ at_ then "Discussion time limit reached"
  else "Goal state changed; this planning discussion has stopped"

def concludeIdle (d : DiscussionRow) : Txn DiscussionRow :=
  if d.activeTurnId.isNone then setDiscussion d.conclude else return d

def advance (id : String) : Txn DiscussionRow := do
  let row ← lockDiscussion id
  if !row.active then return row
  else
    let goal ← Tx.require (← Tx.query (·.goals.get? row.goalId)) (.error "goal missing")
    let at_ ← now
    if row.status = .stopping then concludeIdle row
    else if row.deadlineAt ≤ at_ || goalMoved goal then do
      concludeIdle (← setDiscussion (row.stop (some (stopReason row at_))))
    else
      match row.activeTurnId with
      | some turnId => collect row turnId
      | none => proceed row

/-! ## Stop -/

/-- The transaction of `finishStopping`. -/
def concludeStopping (id : String) : Txn Unit := do
  let current ← lockDiscussion id
  if current.status = .stopping then
    let _ ← setDiscussion current.conclude
  else return ()

/-- The transaction of `cancelDiscussion`. -/
def stopDiscussion (id : String) : Txn DiscussionRow := do
  let current ← lockDiscussion id
  if current.status = .running then setDiscussion (current.stop none) else return current

def proposeDiscussionPlan (id : String) : Txn Reply := do
  let row ← lockDiscussion id
  if row.planId.isSome then return .discussion row
  else do
    let final ← Tx.require (row.finalMessageId.filter fun _ => row.status == .ready)
      (.app .invalidState
        "Wait for the discussion's final synthesis before proposing a plan")
    let _ ← Tx.require (← Tx.query (·.messages.get? final)) (.error "answer missing")
    -- the answer's proposal and the plan
    mayRefuse
    let planId ← generate
    return .discussion (← setDiscussion { row with planId := planId })

end Artoo.Assistants
