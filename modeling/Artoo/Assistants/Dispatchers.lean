import Artoo.Assistants.Discussions

/-! Requests and the two dispatchers as processes: the stages of each, one transaction or one read a
stage. More than one dispatcher may run, and a stopped one is a process that exits. -/
namespace Artoo.Assistants
open Artoo.Lib Artoo.Domain
open Artoo.Server (TurnStatus)

/-- What follows when a stopping discussion was dealt with: the answer of `cancelDiscussion`, or the
dispatcher's next discussions. -/
inductive After where
  | reply
  | next (left : List String)

inductive Caller where
  | client
  | finishStopping (row : DiscussionRow) (after : After)

/-- Calls of other services, one transaction each. -/
inductive Call where
  | assignTask (taskId : String)
  | ingestAnswer (runId text : String)
  | transitionRun (runId : String) (source : RunStatus) (trigger : RunTrigger)
      (failureReason : Option String)
  | transitionTask (taskId : String) (source : TaskStatus) (trigger : TaskTrigger)
  | createTask (row : TaskRow)
  | saveUser (row : UserRow)
  | saveRoom (row : RoomRow)
  | saveGoal (row : GoalRow)
  | saveAgent (row : AgentInstanceRow)
  | postMessage (row : MessageRow)

/-- A message of another service belongs to no turn. -/
def postMessage (row : MessageRow) : Txn Unit := do
  addMessage { row with turnId := none, runId := none }
  countReply row.threadRootId

def save (w : Write) : Txn Unit := do
  let _ ← Tx.change (fun _ => [()]) fun _ => w

def Call.program : Call → Txn Unit
  | .assignTask taskId => do
    let _ ← Assistants.assignTask taskId none
  | .ingestAnswer runId text => Assistants.ingestAnswer runId text
  | .transitionRun runId source trigger failureReason =>
    Assistants.transitionRun runId source trigger failureReason
  | .transitionTask taskId source trigger => do
    let _ ← Assistants.transitionTask taskId source trigger
  | .createTask row => addTask row
  | .saveUser row => save (.user row)
  | .saveRoom row => save (.room row)
  | .saveGoal row => save (.goal row)
  | .saveAgent row => save (.agent row)
  | .postMessage row => Assistants.postMessage row

inductive Stage where
  | enqueue (actor roomId : String) (request : SendAssistantTurnRequest)
  | retry (id : String)
  /-- `cancelAssistantTurn`: what it reads, the run it stops, its transaction -/
  | cancelTurn (id : String) (caller : Caller)
  | cancelRun (turn : TurnRow) (runId : String) (caller : Caller)
  | cancelPending (turn : TurnRow) (caller : Caller)
  | startDiscussion (actor goalId : String) (request : StartDiscussionRequest)
  | cancelDiscussion (id : String)
  | propose (id : String)
  | call (call : Call)
  /-- the assistant dispatcher: its snapshot, the next turn of it, and what is done with the turn -/
  | pump
  | item (left : List TurnRow) (seen : List Conversation)
  | settle (item : TurnRow) (runId : String) (left : List TurnRow) (seen : List Conversation)
  | admission (item : TurnRow) (left : List TurnRow) (seen : List Conversation)
  | assign (item : TurnRow) (left : List TurnRow) (seen : List Conversation)
  | failed (item : TurnRow) (error : Failure) (left : List TurnRow) (seen : List Conversation)
  /-- the discussion dispatcher: the active discussions, the advance of one, and `finishStopping` -/
  | coordinate
  | advance (id : String) (left : List String)
  | finishStopping (row : DiscussionRow) (after : After)
  | conclude (row : DiscussionRow) (after : After)
  | replied (reply : Reply)

def nextDiscussion : List String → Stage
  | [] => .replied .done
  | id :: left => .advance id left

def After.stage (row : DiscussionRow) : After → Stage
  | .reply => .replied (.discussion row)
  | .next left => nextDiscussion left

/-- `cancelDiscussion` only rethrows what is no `AppError`; the dispatcher goes on. -/
def After.failed (row : DiscussionRow) (e : Failure) : After → Stage
  | .reply =>
    match e with
    | .app _ _ => .replied (.discussion row)
    | .error _ => .replied (.failed e)
  | .next left => nextDiscussion left

def Caller.returns (turn : TurnRow) : Caller → Stage
  | .client => .replied (.turn turn)
  | .finishStopping row after => .conclude row after

def Caller.throws (e : Failure) : Caller → Stage
  | .client => .replied (.failed e)
  | .finishStopping row after => after.failed row e

/-! ## The assistant dispatcher -/

/-- The pending turns by position, a hundred of them. -/
def pendingTurns (db : Database) : List TurnRow :=
  ((db.turns.select (·.pending)).insertionSort fun a b => a.position ≤ b.position).take 100

/-- One turn of a conversation is looked at; the others wait. -/
def nextTurn (item : TurnRow) (left : List TurnRow) (seen : List Conversation) : Stage :=
  if !item.pending || seen.contains item.conversation then .item left seen
  else
    match item.runId with
    | some runId => .settle item runId left (item.conversation :: seen)
    | none => .admission item left (item.conversation :: seen)

def itemStage (left : List TurnRow) (seen : List Conversation) : Txn Stage :=
  match left with
  | [] => return .replied .done
  | snapshot :: left => do
    let item ← requireTurn snapshot.id
    return nextTurn item left seen

def runOutcome : Option RunRow → TurnStatus × Option String
  | none => (.failed, some "Execution record is unavailable")
  | some run =>
    match run.status with
    | .completed => (.completed, none)
    | .cancelled => (.cancelled, none)
    | _ => (.failed, some (run.failureReason.getD "Execution record is unavailable"))

def settleStage (item : TurnRow) (runId : String) : Txn Unit := do
  let run ← Tx.query (·.runs.get? runId)
  if run.all terminalRun then
    changeTurn item.id (runOutcome run).1 (runOutcome run).2 (some runId)
  else return ()

def Deployment.admits (d : Deployment) (user : UserRow) : Bool :=
  d.allowedEmails.all (·.contains (d.toLowerCase user.email)) &&
    d.hostedDomain.all fun domain => (d.toLowerCase user.email).endsWith ("@" ++ domain)

/-- What the status of its task asks for before a turn is assigned. -/
def prepareTask (item : TurnRow) (task : TaskRow) (goesOn : Stage) (waits : Stage) : Txn Stage := do
  match task.status with
  | .assigned | .running | .awaitingApproval => do
    changeTurn item.id .waiting (some "Waiting for the current execution or approval to finish")
    return waits
  | .done | .cancelled => do
    changeTurn item.id .cancelled
      (some "The task was closed before this queued turn started; send a new follow-up if needed")
    return waits
  | .backlog => do
    markReady task.id
    return goesOn
  | .blocked => do
    retryTask task.id
    return goesOn
  | .review => do
    requestChanges task.id
    return goesOn
  | .ready => return goesOn

def admitTask (item : TurnRow) (goesOn waits : Stage) (task : Option TaskRow) : Txn Stage :=
  match task with
  | none => do
    changeTurn item.id .failed (some "Conversation task is unavailable")
    return waits
  | some task => prepareTask item task goesOn waits

def admitStage (d : Deployment) (item : TurnRow) (goesOn waits : Stage) : Txn Stage := do
  let actor ← Tx.query (·.users.get? item.actorUserId)
  if actor.any d.admits then do
    let task ← Tx.query (·.tasks.get? item.taskId)
    admitTask item goesOn waits task
  else do
    changeTurn item.id .cancelled (some "The requesting user is no longer admitted to this team")
    return waits

/-- An assignment that has committed keeps its run. -/
def failedStage (item : TurnRow) (e : Failure) : Txn Unit := do
  let current ← requireTurn item.id
  if current.runId.isSome then return ()
  else
    changeTurn item.id (match e with | .app _ _ => .waiting | .error _ => .failed) (some e.message)

/-! ## The discussion dispatcher -/

def activeDiscussions (db : Database) : List String :=
  (db.discussions.select (·.active)).map (·.id)

/-- The pending turn of a stopping discussion is cancelled, unless its execution has ended. -/
def finishStoppingStage (row : DiscussionRow) (after : After) : Txn Stage :=
  match row.activeTurnId with
  | none => return after.stage row
  | some turnId =>
    if row.status = .stopping then do
      -- a process that may still run is stopped first
      mayRefuse
      let turn ← Tx.query (·.turns.get? turnId)
      let execution ← Tx.query fun db => (turn.bind (·.runId)).bind db.runs.get?
      if turn.any (·.pending) && !execution.any terminalRun then
        return .cancelTurn turnId (.finishStopping row after)
      else return .conclude row after
    else return after.stage row

def cancelTurnStage (id : String) (caller : Caller) : Txn Stage := do
  let turn ← requireTurn id
  if turn.status = .cancelled then return caller.returns turn
  else do
    Tx.check (!turn.pending) (.app .invalidState "This assistant turn has already finished")
    match turn.runId with
    | some runId => return .cancelRun turn runId caller
    | none => return .cancelPending turn caller

/-! ## Stages -/

def Stage.program (d : Deployment) : Stage → Txn Stage
  | .enqueue actor roomId request =>
    return .replied (← enqueueAssistantTurn actor roomId request)
  | .retry id => do
    retryAssistantTurn id
    return .replied .done
  | .cancelTurn id caller => cancelTurnStage id caller
  | .cancelRun turn runId caller => do
    Assistants.cancelRun runId
    return .cancelPending turn caller
  | .cancelPending turn caller => do
    Assistants.cancelPending turn
    return caller.returns turn
  | .startDiscussion actor goalId request =>
    return .replied (← Assistants.startDiscussion actor goalId request)
  | .cancelDiscussion id => do
    let row ← stopDiscussion id
    return .finishStopping row .reply
  | .propose id => return .replied (← proposeDiscussionPlan id)
  | .call c => do
    c.program
    return .replied .done
  | .pump => return .item (← Tx.query pendingTurns) []
  | .item left seen => itemStage left seen
  | .settle turn runId left seen => do
    settleStage turn runId
    return .item left seen
  | .admission turn left seen => admitStage d turn (.assign turn left seen) (.item left seen)
  | .assign turn left seen => do
    let _ ← assignTask turn.taskId (some turn.id)
    return .item left seen
  | .failed turn e left seen => do
    failedStage turn e
    return .item left seen
  | .coordinate => return nextDiscussion (← Tx.query activeDiscussions)
  | .advance id left => do
    let row ← Assistants.advance id
    return .finishStopping row (.next left)
  | .finishStopping row after => finishStoppingStage row after
  | .conclude row after => do
    concludeStopping row.id
    return after.stage row
  | .replied reply => return .replied reply

/-- Where an error leads. Within the handling of a turn the dispatcher catches it. -/
def Stage.recover : Stage → Failure → Stage
  | .settle turn _ left seen, e | .admission turn left seen, e | .assign turn left seen, e =>
    .failed turn e left seen
  | .cancelTurn _ caller, e | .cancelRun _ _ caller, e | .cancelPending _ caller, e =>
    caller.throws e
  | .finishStopping row after, e | .conclude row after, e => after.failed row e
  | .advance _ left, _ => nextDiscussion left
  | _, e => .replied (.failed e)

def Stage.starts : Stage → Bool
  | .enqueue _ _ _ | .retry _ | .cancelTurn _ .client | .startDiscussion _ _ _ | .cancelDiscussion _
  | .propose _ | .call _ | .pump | .coordinate => true
  | _ => false

/-- A transaction, and the fences at its end. -/
def fenced (p : Txn Stage) : Txn Stage := do
  let next ← p
  .stmt (fun _ => []) (fun _ => [.fence]) fun _ => .done next

def code (d : Deployment) : Code Database Write Lock Draw Failure Stage where
  program stage := fenced (stage.program d)
  recover := Stage.recover
  starts := Stage.starts

abbrev Server := Crew Database Write Lock Draw Failure Stage

abbrev ServerStep (d : Deployment) : Nat × Crew.Move Draw Failure Stage → Server → Server → Prop :=
  Crew.Steps (code d)

end Artoo.Assistants
