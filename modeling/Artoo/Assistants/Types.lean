import Artoo.Lib.Processes
import Artoo.Lib.Statement
import Artoo.Domain.Goal
import Artoo.Server.Types
import Mathlib.Data.List.Sort

/-! Rooms, conversations, assistant turns and planning discussions; row writes and locks. A
timestamp is its instant in milliseconds. -/
namespace Artoo.Assistants
open Artoo.Lib Artoo.Domain
open Artoo.Server (TurnStatus ActorType)

structure UserRow where
  id : String
  email : String
  deriving DecidableEq, Repr

structure RoomRow where
  id : String
  projectId : Option String := none
  goalId : Option String := none
  taskId : Option String := none
  /-- `type` is "project" -/
  channel : Bool := false
  deriving DecidableEq, Repr

structure GoalRow where
  id : String
  projectId : String
  roomId : Option String := none
  status : GoalStatus := .draft
  currentPlanId : Option String := none
  allowedRuntimes : Option (List String) := none
  deriving DecidableEq, Repr

structure AgentInstanceRow where
  id : String
  runtime : String
  deriving DecidableEq, Repr

structure TaskRow where
  id : String
  projectId : String
  roomId : Option String := none
  goalId : Option String := none
  parentTaskId : Option String := none
  status : TaskStatus := .backlog
  deriving DecidableEq, Repr

structure RunRow where
  id : String
  taskId : String
  agentInstanceId : String
  status : RunStatus := .queued
  failureReason : Option String := none
  deriving DecidableEq, Repr

/-- `turnId` is the `assistant_turn_id` of the payload. -/
structure MessageRow where
  id : String
  roomId : String
  threadRootId : Option String := none
  taskId : Option String := none
  runId : Option String := none
  turnId : Option String := none
  actorType : ActorType
  actorId : String
  body : String
  replyCount : Nat := 0
  deriving DecidableEq, Repr

/-- A room, or a thread of it. -/
abbrev Conversation := String × Option String

/-- `retries` counts the explicit retries; it is not stored, and nothing reads it. -/
structure TurnRow where
  id : String
  position : Nat
  roomId : String
  threadRootId : Option String := none
  taskId : String
  actorUserId : String
  clientRequestId : String
  agentInstanceId : Option String := none
  userMessageId : String
  responseMessageId : Option String := none
  runId : Option String := none
  status : TurnStatus := .queued
  error : Option String := none
  retries : Nat := 0
  deriving DecidableEq, Repr

def TurnRow.conversation (t : TurnRow) : Conversation := (t.roomId, t.threadRootId)

/-- The columns of `assistant_turns_request_unique`. -/
def TurnRow.request (t : TurnRow) : String × String × String :=
  (t.roomId, t.actorUserId, t.clientRequestId)

def pendingStatuses : List TurnStatus := [.queued, .waiting, .running]

def TurnRow.pending (t : TurnRow) : Bool := pendingStatuses.contains t.status

structure Participant where
  agentInstanceId : String
  role : String
  deriving DecidableEq, Repr

/-- The participants that the request schema admits. -/
structure Team where
  members : List Participant
  least : 2 ≤ members.length
  most : members.length ≤ 6
  distinct : (members.map (·.agentInstanceId)).Nodup
  deriving DecidableEq

def Team.size (team : Team) : Nat := team.members.length

theorem Team.size_pos (team : Team) : 0 < team.size := Nat.lt_of_lt_of_le Nat.two_pos team.least

def Team.at_ (team : Team) (n : Nat) : Participant :=
  team.members.get ⟨n % team.size, Nat.mod_lt n team.size_pos⟩

inductive DiscussionStatus where
  | running | stopping | ready | failed | cancelled
  deriving DecidableEq, Repr

structure DiscussionRow where
  id : String
  goalId : String
  roomId : String
  threadRootId : String
  taskId : String
  actorUserId : String
  team : Team
  rounds : Nat
  maxMinutes : Nat
  status : DiscussionStatus := .running
  currentStep : Nat := 0
  activeTurnId : Option String := none
  finalMessageId : Option String := none
  planId : Option String := none
  error : Option String := none
  deadlineAt : Int
  deriving DecidableEq

namespace DiscussionRow

def active (d : DiscussionRow) : Bool := d.status == .running || d.status == .stopping

/-- The steps before the final synthesis. -/
def debateSteps (d : DiscussionRow) : Nat := d.rounds * d.team.size

def totalSteps (d : DiscussionRow) : Nat := d.team.size * d.rounds + 1

/-- Who speaks at a step. -/
def participant (d : DiscussionRow) (step : Nat) : Participant :=
  d.team.at_ (if step < d.debateSteps then step else 0)

def requestId (d : DiscussionRow) (step : Nat) : String := s!"{d.id}_step_{step}"

end DiscussionRow

/-- `fences` has, for a discussion that no longer runs, how often its last turn had been retried
when it stopped; it is not stored, and nothing reads it. -/
structure Database where
  users : Table UserRow.id := .empty
  rooms : Table RoomRow.id := .empty
  goals : Table GoalRow.id := .empty
  agents : Table AgentInstanceRow.id := .empty
  tasks : Table TaskRow.id := .empty
  runs : Table RunRow.id := .empty
  messages : Table MessageRow.id := .empty
  turns : Table TurnRow.id := .empty
  discussions : Table DiscussionRow.id := .empty
  fences : String → Option Nat := fun _ => none

def Database.retriesOf (db : Database) (turnId : Option String) : Nat :=
  ((turnId.bind db.turns.get?).map (·.retries)).getD 0

/-- The fences, with those of the discussions that have just stopped. -/
def Database.fence (db : Database) : Database :=
  { db with
    fences := fun id => (db.fences id).or <|
      ((db.discussions.get? id).filter (·.status != .running)).map fun d =>
        db.retriesOf d.activeTurnId }

inductive Write where
  | user (row : UserRow)
  | room (row : RoomRow)
  | goal (row : GoalRow)
  | agent (row : AgentInstanceRow)
  | task (row : TaskRow)
  | run (row : RunRow)
  | message (row : MessageRow)
  | turn (row : TurnRow)
  | discussion (row : DiscussionRow)
  /-- at the end of every transaction -/
  | fence
  deriving DecidableEq

/-- A row lock, or the entry of a unique index. -/
inductive Lock where
  | user (id : String)
  | room (id : String)
  | goal (id : String)
  | agent (id : String)
  | task (id : String)
  | run (id : String)
  | message (id : String)
  | turn (id : String)
  | discussion (id : String)
  | request (key : String × String × String)
  | conversation (scope : Conversation)
  | activeDiscussion (goalId : String)
  deriving DecidableEq, Repr

def Write.apply : Write → Database → Database
  | .user row, db => { db with users := db.users.put row }
  | .room row, db => { db with rooms := db.rooms.put row }
  | .goal row, db => { db with goals := db.goals.put row }
  | .agent row, db => { db with agents := db.agents.put row }
  | .task row, db => { db with tasks := db.tasks.put row }
  | .run row, db => { db with runs := db.runs.put row }
  | .message row, db => { db with messages := db.messages.put row }
  | .turn row, db => { db with turns := db.turns.put row }
  | .discussion row, db => { db with discussions := db.discussions.put row }
  | .fence, db => db.fence

/-- A message of a turn is only written where the row of the turn is locked too. -/
def Write.locks : Write → List Lock
  | .user row => [.user row.id]
  | .room row => [.room row.id]
  | .goal row => [.goal row.id]
  | .agent row => [.agent row.id]
  | .task row => [.task row.id]
  | .run row => [.run row.id]
  | .message row => .message row.id :: row.turnId.toList.map .turn
  | .turn row => [.turn row.id, .request row.request] ++
      if row.status = .running then [.conversation row.conversation] else []
  | .discussion row => .discussion row.id ::
      if row.active then [.activeDiscussion row.goalId] else []
  | .fence => []

instance : Tables Database Write Lock := ⟨Write.apply, Write.locks⟩

inductive ApiErrorCode where
  | validation | notFound | conflict | invalidState | rateLimited | aiConsentRequired
  | aiSharingUnconfigured
  deriving DecidableEq, Repr

/-- An `AppError`, all of which have a status below 500, or another error. -/
inductive Failure where
  | app (code : ApiErrorCode) (message : String)
  | error (message : String)
  deriving DecidableEq, Repr

def Failure.message : Failure → String
  | .app _ message => message
  | .error message => message

/-- A drawn value: random text, an instant, a gap in a sequence, or the error of a check that reads
tables outside this model. -/
structure Draw where
  text : String := ""
  instant : Int := 0
  gap : Nat := 0
  refusal : Option Failure := none

abbrev Txn := Tx Database Write Lock Draw Failure

structure Deployment where
  allowedEmails : Option (List String) := none
  hostedDomain : Option String := none
  toLowerCase : String → String

def generate : Txn String := return (← Tx.drawn).text

def now : Txn Int := return (← Tx.drawn).instant

/-- The checks on tables outside this model. -/
def mayRefuse : Txn Unit := do
  match (← Tx.drawn).refusal with
  | some e => .fail e
  | none => return ()

/-- `nextval`: above every position that is visible. -/
def nextPosition : Txn Nat := do
  let gap := (← Tx.drawn).gap
  let top ← Tx.query fun db => (db.turns.rows.map (·.position)).foldl max 0
  return top + 1 + gap

end Artoo.Assistants
