import Artoo.Server.Leases
import Artoo.Server.Dag
import Artoo.Server.Receipt

/-! The run service: cancellation, ingest of run events, and the two failure paths. -/
namespace Artoo.Server
open Artoo.Lib Artoo.Protocol Artoo.Domain

inductive IngestPhase where
  | started | completed | failed | cancelled
  deriving DecidableEq, Repr

def IngestPhase.name : IngestPhase → String
  | .started => "started" | .completed => "completed" | .failed => "failed"
  | .cancelled => "cancelled"

inductive RunIngestEvent where
  | lifecycle (phase : IngestPhase) (failureReason : Option String)
  | output (stream : OutputStream) (text : String)
  | answer (text : String)
  | usage (usage : RunUsagePayload)
  | workspaceRetained (retention : RunWorkspaceRetainedPayload)
  | artifact (artifactType : ArtifactType) (uri : String) (checksum : Option String)
  deriving DecidableEq

structure IngestEnvelope where
  runId : String
  nodeId : String
  sequence : Int
  event : RunIngestEvent
  deriving DecidableEq

structure IngestResult where
  deduped : Bool
  runStatus : RunStatus
  taskStatus : TaskStatus
  /-- the goal whose budget is enforced after the commit -/
  budgetGoalId : Option String := none
  deriving DecidableEq, Repr

def ingestPhase : LifecyclePhase → Option IngestPhase
  | .started => some .started
  | .completed => some .completed
  | .failed => some .failed
  | .cancelled => some .cancelled
  | .paused | .resumed => none

/-- `mapRunEvent`; paused and resumed are not part of the core loop. -/
def mapRunEvent (message : RunEventMessage) : Option IngestEnvelope :=
  let event : Option RunIngestEvent :=
    match message.event with
    | .output stream text => some (.output stream text)
    | .answer text => some (.answer text)
    | .usage payload => some (.usage payload)
    | .workspaceRetained payload => some (.workspaceRetained payload)
    | .artifact payload => some (.artifact payload.type payload.uri payload.checksum.toOption)
    | .lifecycle payload =>
      (ingestPhase payload.phase).map fun phase => .lifecycle phase payload.reason.toOption
  event.map fun event =>
    { runId := message.runId, nodeId := message.nodeId, sequence := message.sequence, event }

/-- The rows an ingest has read, and its time. -/
structure IngestScope where
  env : IngestEnvelope
  run : RunRow
  task : TaskRow
  now : String

structure EmitMessage where
  kind : String
  body : String

def agentSpec (s : IngestScope) (type : EventType) (payload : Payload) : EventSpec :=
  { type, actorType := .agent, actorId := s.run.agentInstanceId, correlationId := s.run.taskId,
    projectId := s.task.projectId, taskId := s.run.taskId, roomId := s.task.roomId,
    runId := s.env.runId, sequence := s.env.sequence, payload }

def insertMessage (row : MessageRow) : Txn Unit :=
  insert (fun db => (db.messages.get? row.id).isSome) (.message row)

/-- The room message of a milestone, where the task has a room. -/
def emitMessage (s : IngestScope) (payload : Payload) : Option EmitMessage → Option String → Txn Unit
  | some message, some roomId => do
    let id ← generate
    insertMessage
      { id, roomId, taskId := s.run.taskId, runId := s.env.runId, actorType := .agent,
        actorId := s.run.agentInstanceId, kind := message.kind, body := message.body, payload,
        createdAt := s.now }
  | _, _ => .done ()

def emit (s : IngestScope) (type : EventType) (payload : Payload)
    (message : Option EmitMessage := none) : Txn String := do
  let event ← logEvent (agentSpec s type payload)
  emitMessage s payload message s.task.roomId
  return event.id

def runPayload (runId : String) : Payload := [("run_id", .str runId)]

/-- The retention events of a run, latest first. -/
def retentionEvents (runId : String) (db : Database) : List EventRow :=
  (db.events.select fun e => e.runId == some runId && e.type == .runWorkspaceRetained).reverse

/-- A later report may only correct a completed one to an incomplete delivery. -/
def correctionAllowed (ctx : Context) (s : IngestScope) (retention : StoredWorkspaceRetained)
    (latest : Option EventRow) : Bool :=
  match latest with
  | none => true
  | some latest =>
    (projectWorkspaceRetention ctx.platform s.run (some latest)).any fun previous =>
      previous.retained.report.outcome == .completed &&
        retention.report.outcome == .incompleteDelivery &&
        decide (previous.sequence < s.env.sequence)

def ingestRetention (ctx : Context) (s : IngestScope) (retention : StoredWorkspaceRetained) :
    Txn String := do
  let events ← select (retentionEvents s.env.runId)
  throwIf (!correctionAllowed ctx s retention events.head?) (.app (.conflict
    "only a later incomplete-delivery correction may follow a completed retention report"))
  let event ← logEvent
    { agentSpec s .runWorkspaceRetained (storedRetainedPayload retention) with
      actorType := .system, actorId := s.run.computerId }
  return event.id

def disconnectReason : String := "daemon_disconnect"

def runCancelledUpdate (s : IngestScope) (target : TaskStatus) : List EventSpec :=
  [{ agentSpec s .taskUpdated
      [("status", .str target.name), ("cancelled_run_id", .str s.env.runId)] with
    runId := none, sequence := none }]

def ingestStarted (s : IngestScope) : Txn String := do
  let _ ← transitionRun s.env.runId .queued .start { startedAt := s.now }
  let _ ← transitionRun s.env.runId .starting .processStarted
  let _ ← transitionTask s.run.taskId .assigned .runStarted s.now
  emit s .runStarted (runPayload s.env.runId) (some ⟨"run_event", "Run started"⟩)

def ingestCompleted (s : IngestScope) : Txn String := do
  let _ ← transitionRun s.env.runId .running .runCompleted { endedAt := s.now }
  let _ ← transitionTask s.run.taskId .running .runCompleted s.now
  let eventId ← emit s .runCompleted (runPayload s.env.runId)
    (some ⟨"run_event", "Run completed; task ready for review"⟩)
  releaseRunLeases s.env.runId
  return eventId

def ingestFailedBeforeStart (s : IngestScope) (failureReason : String) : Txn String := do
  let _ ← transitionRun s.env.runId .queued .start { startedAt := s.now }
  let _ ← transitionRun s.env.runId .starting .startFailed
    { endedAt := s.now, failureReason := failureReason }
  let _ ← transitionTask s.run.taskId .assigned .assignFailedRetryable s.now
  let eventId ← emit s .runFailed
    (runPayload s.env.runId ++ [("failure_reason", .str failureReason), ("recoverable", .bool true)])
    (some ⟨"run_event", "Run failed before start; task ready for assignment"⟩)
  releaseRunLeases s.env.runId
  return eventId

def ingestFailed (s : IngestScope) (failureReason : String) : Txn String := do
  let _ ← transitionRun s.env.runId .running .runFailed
    { endedAt := s.now, failureReason := failureReason }
  let taskBlocked ← transitionTask s.run.taskId .running .runFailed s.now
  let eventId ← emit s .runFailed
    (runPayload s.env.runId ++ [("failure_reason", .str failureReason)])
    (some ⟨"run_event", "Run failed"⟩)
  releaseRunLeases s.env.runId
  if taskBlocked.changed then propagateBlocked s.run.taskId ("run_failed: " ++ failureReason)
  return eventId

def ingestCancelled (s : IngestScope) : Txn String := do
  let _ ← transitionRun s.env.runId s.run.status .cancel { endedAt := s.now }
  if canTransitionTask s.task.status .cancel then
    let _ ← transitionTask s.run.taskId s.task.status .cancel s.now (runCancelledUpdate s)
    propagateBlocked s.run.taskId "run_cancelled"
  let eventId ← emit s .runCancelled (runPayload s.env.runId) (some ⟨"run_event", "Run cancelled"⟩)
  releaseRunLeases s.env.runId
  return eventId

def reconciledPayload (s : IngestScope) (phase : IngestPhase) : Payload :=
  runPayload s.env.runId ++ [("observed_phase", .str phase.name)]

/-- The branches of a lifecycle event, in the order of the source. -/
def ingestLifecycle (s : IngestScope) (phase : IngestPhase) (failureReason : Option String) :
    Txn String :=
  if phase != .started && s.run.status == .failed && s.run.failureReason == some disconnectReason then do
    -- the owner's terminal event closes the uncertainty a disconnect left
    let eventId ← emit s .runReconciled
      (reconciledPayload s phase ++ [("process_exit_confirmed", .bool true)])
    releaseRunLeases s.env.runId
    return eventId
  else if isRunTerminal s.run.status then
    emit s .runReconciled
      (reconciledPayload s phase ++ [("settled_status", .str s.run.status.name)])
  else
    match phase with
    | .started => ingestStarted s
    | .completed => ingestCompleted s
    | .failed =>
      if s.run.status == .queued || s.run.status == .starting then
        ingestFailedBeforeStart s (failureReason.getD "unknown")
      else ingestFailed s (failureReason.getD "unknown")
    | .cancelled => ingestCancelled s

/-- What the ingest reads from tables that are not modelled here. -/
structure Services where
  previewForActiveSynthesis : TurnRow → String → String → Option Json := fun _ _ _ => none
  /-- the events that pause a goal over its budget -/
  overBudget : String → Option (EventSpec × EventSpec) := fun _ => none

def turnPayload : Option TurnRow → Payload
  | some turn => [("assistant_turn_id", .str turn.id), ("intent", .str "assistant")]
  | none => []

/-- The reply counter of the thread root, after this reply. -/
def replyToThread (turn : Option TurnRow) : Txn Payload :=
  match turn.bind (·.threadRootId) with
  | none => .done []
  | some root => do
    let updated ← update (fun db => (db.messages.get? root).toList)
      fun row => .message { row with replyCount := row.replyCount + 1 }
    match updated.head? with
    | some row =>
      return [("thread_root_id", .str root), ("root_reply_count", natJson (row.replyCount + 1))]
    | none => .fail (.error "Cannot read properties of undefined (reading 'replyCount')")

def turnOfRun (runId : String) (db : Database) : List TurnRow :=
  db.turns.select fun t => t.runId == some runId

def setTurn (turn : TurnRow) (set : TurnRow → TurnRow) : Txn Unit := do
  let _ ← update (fun db => (db.turns.get? turn.id).toList) fun row => .turn (set row)

def answerTurn (s : IngestScope) (messageId : String) : Option TurnRow → Txn Unit
  | some turn =>
    setTurn turn fun row => { row with responseMessageId := messageId, updatedAt := s.now }
  | none => .done ()

def ingestAnswer (services : Services) (s : IngestScope) (text : String) : Txn String := do
  throwIf (!runAnswerValid text) (.app (.validation "invalid assistant answer"))
  let turns ← selectForUpdate (turnOfRun s.env.runId) (.turn ·.id)
  let turn := turns.head?
  let answered := (turn.bind (·.responseMessageId)).isSome
  let settled := s.run.status == .failed || s.run.status == .cancelled
  match (turn.map (·.roomId)) <|> s.task.roomId with
  | none => discard s
  | some responseRoomId =>
    if answered || settled then discard s
    else
      let messageId ← generate
      let plan := turn.bind fun t => services.previewForActiveSynthesis t text s.run.agentInstanceId
      insertMessage
        { id := messageId, roomId := responseRoomId, taskId := s.run.taskId, runId := s.env.runId,
          threadRootId := turn.bind (·.threadRootId), actorType := .agent,
          actorId := s.run.agentInstanceId, kind := "text", body := text,
          payload := runPayload s.env.runId ++ turnPayload turn ++ field "discussion_plan" plan id,
          createdAt := s.now }
      answerTurn s messageId turn
      let reply ← replyToThread turn
      let event ← logEvent
        { agentSpec s .messageCreated
            ([("message_id", .str messageId), ("kind", .str "text"), ("run_id", .str s.env.runId)] ++
              turnPayload turn ++ reply) with
          correlationId := (turn.map (·.id)).getD s.run.taskId, roomId := responseRoomId }
      return event.id
where
  discard (s : IngestScope) : Txn String :=
    emit s .runAnswerDiscarded
      (runPayload s.env.runId ++ [("reason", .str "settled_or_already_answered")])

def ingestUsage (s : IngestScope) (usage : RunUsagePayload) : Txn String := do
  throwIf (!runUsageValid usage) (.app (.validation "invalid provider usage"))
  let _ ← update (fun _ => [()]) fun _ =>
    .usage { runId := s.env.runId, measured := usage, updatedAt := s.now }
  emit s .runUsage (usagePayload usage)

def needsIntegration (type : ArtifactType) : Bool := type == .patch || type == .pullRequest

/-- The greatest sequence of the project's queue. -/
def lastQueueSequence (projectId : String) (db : Database) : Nat :=
  ((db.queue.select (·.projectId == projectId)).map (·.sequence)).foldl max 0

def enqueueArtifactForIntegration (s : IngestScope) (artifactId : String) (type : ArtifactType) :
    Txn Unit :=
  if !needsIntegration type then return ()
  else do
    let now ← nowIso
    let last ← select (lastQueueSequence s.task.projectId)
    let id ← generate
    insert (fun db => (db.queue.get? id).isSome)
      (.queue { id, projectId := s.task.projectId, taskId := s.run.taskId, runId := s.env.runId,
                sequence := last + 1, artifactRef := artifactId, enqueuedAt := now })

def storedArtifact (runId uri : String) (db : Database) : Option ArtifactRow :=
  (db.artifacts.select fun a => a.runId == some runId && a.uri == uri).head?

def ingestArtifact (s : IngestScope) (type : ArtifactType) (uri : String)
    (checksum : Option String) : Txn String := do
  let stored ← select (storedArtifact s.env.runId uri)
  throwIf ("/api/v1/artifacts/".isPrefixOf uri &&
      !(stored.any fun a => a.checksum == checksum && a.type == type))
    (.app (.validation "artifact must be uploaded by its execution node before it is announced"))
  let artifactId ←
    match stored with
    | some artifact => pure artifact.id
    | none => do
      let id ← generate
      insert (fun db => (db.artifacts.get? id).isSome)
        (.artifact { id, taskId := s.run.taskId, runId := s.env.runId, type, uri, checksum,
                     createdAt := s.now })
      pure id
  let eventId ← emit s .artifactCreated
    [("artifact_id", .str artifactId), ("type", .str (artifactTypeName type)), ("uri", .str uri)]
    (some ⟨"artifact", "Artifact created: " ++ artifactTypeName type⟩)
  enqueueArtifactForIntegration s artifactId type
  return eventId

/-- The report must name the owner's bound worktree; other events carry none. -/
def reportedRetention (env : IngestEnvelope) (run : RunRow) : Txn (Option StoredWorkspaceRetained) :=
  match env.event with
  | .workspaceRetained report =>
    if !runWorkspaceRetainedValid report || env.nodeId != run.computerId ||
        some report.workspaceRoot != run.workspaceRoot ||
        some report.workspaceBranch != run.workspaceBranch then
      .fail (.app (.validation "retention must report the owning node's exact bound worktree"))
    else if !storedRetainedValid ⟨report, run.computerId⟩ then .fail (.error "ZodError")
    else return some ⟨report, run.computerId⟩
  | _ => return none

/-- The receipt check of a repeated frame. -/
def checkReceipt (ctx : Context) (s : IngestScope) (wireIdentity : Option String)
    (retention : Option StoredWorkspaceRetained) (existing : IngestRow) : Txn Unit :=
  match wireIdentity, existing.bodyIdentity with
  | some _, none =>
    .fail (.app (.conflict "legacy run event receipt has no qualified body identity"))
  | some identity, some stored =>
    throwIf (stored != identity) (.app (.conflict "run event receipt body mismatch"))
  | none, some _ =>
    .fail (.app (.conflict "qualified run event receipt requires the original wire frame"))
  | none, none =>
    match retention with
    | none => .done ()
    | some retention => do
      let stored ← select (·.events.get? existing.eventId)
      let projected := projectWorkspaceRetention ctx.platform s.run stored
      throwIf (!(projected.any fun p => p.sequence == s.env.sequence && p.retained == retention))
        (.app (.conflict "retention sequence was already used by a different event"))

def applyRunEvent (ctx : Context) (services : Services) (s : IngestScope)
    (retention : Option StoredWorkspaceRetained) : Txn String :=
  match s.env.event with
  | .workspaceRetained _ =>
    match retention with
    | some retention => ingestRetention ctx s retention
    | none => .fail (.app (.validation "invalid retention report"))
  | .lifecycle phase failureReason => ingestLifecycle s phase failureReason
  | .answer text => ingestAnswer services s text
  | .usage usage => ingestUsage s usage
  | .output stream text =>
    emit s .runOutput [("stream", .str (outputStreamName stream)), ("text", .str text)]
  | .artifact type uri checksum => ingestArtifact s type uri checksum

def isTerminalPhase : RunIngestEvent → Bool
  | .lifecycle .started _ => false
  | .lifecycle _ _ => true
  | _ => false

def ingestRunEventInternal (ctx : Context) (services : Services) (env : IngestEnvelope)
    (wireIdentity : Option String) : Txn IngestResult := do
  throwIf (!(decide (0 ≤ env.sequence) && decide (env.sequence ≤ maxSequence)))
    (.app (.validation "run event sequence must fit a nonnegative int32"))
  let now ← nowIso
  let runs ← selectForUpdate (fun db => (db.runs.get? env.runId).toList) (.run ·.id)
  let run ← orThrow runs.head?
    (.app (.notFound ("run not found: " ++ env.runId) (runPayload env.runId)))
  throwIf (wireIdentity.isSome && env.nodeId != run.computerId)
    (.app (.permissionDenied "run is not owned by this node"))
  let found ← select (·.tasks.get? run.taskId)
  let task ← orThrow found (.error "ingestRunEvent: task missing for run")
  let s : IngestScope := { env, run, task, now }
  let retention ← reportedRetention env run
  let duplicate ← select (·.ingests.get? (env.nodeId, env.runId, env.sequence))
  match duplicate with
  | some existing =>
    checkReceipt ctx s wireIdentity retention existing
    return { deduped := true, runStatus := run.status, taskStatus := task.status }
  | none =>
    let eventId ← applyRunEvent ctx services s retention
    insert (fun db => (db.ingests.get? (env.nodeId, env.runId, env.sequence)).isSome)
      (.ingest { nodeId := env.nodeId, runId := env.runId, sequence := env.sequence, eventId,
                 bodyIdentity := wireIdentity, createdAt := now })
    let finalRun ← select (·.runs.get? env.runId)
    let finalTask ← select (·.tasks.get? run.taskId)
    return { deduped := false
             runStatus := (finalRun.map (·.status)).getD run.status
             taskStatus := (finalTask.map (·.status)).getD task.status
             budgetGoalId := if isTerminalPhase env.event then task.goalId else none }

/-- Domain-only callers never obtain full protocol-body qualification. -/
def ingestRunEvent (ctx : Context) (services : Services) (env : IngestEnvelope) : Txn IngestResult :=
  ingestRunEventInternal ctx services env none

structure WireIngestResult where
  result : IngestResult
  receiptBodyIdentity : String
  deriving DecidableEq, Repr

def ingestWireRunEvent (ctx : Context) (services : Services) (frame : RunEventMessage) :
    Txn (Option WireIngestResult) := do
  let qualified ← orThrow (qualifyRunEventMessage ctx.platform frame) (.error "ZodError")
  match mapRunEvent qualified.1 with
  | none => return none
  | some env =>
    let result ← ingestRunEventInternal ctx services env (some qualified.2)
    return some { result, receiptBodyIdentity := qualified.2 }

/-- The goal budget hook after a commit; of its writes the events are modelled. -/
def enforceGoalBudget (services : Services) (goalId : String) : Txn Unit :=
  match services.overBudget goalId with
  | none => .done ()
  | some (paused, exceeded) => do
    let _ ← logEvent { paused with type := .goalPaused }
    let _ ← logEvent { exceeded with type := .goalBudgetExceeded }

def systemSpec (type : EventType) (run : RunRow) (task : Option TaskRow) (payload : Payload) :
    EventSpec :=
  { type, actorType := .system, actorId := "control_plane", correlationId := run.taskId,
    projectId := task.map (·.projectId), taskId := run.taskId, roomId := task.bind (·.roomId),
    runId := run.id, payload }

/-- The check before `stopProcess`, on the run as it was read; `some` when it is already
cancelled. -/
def cancelRunPrecheck (runId : String) : Txn (Option RunRow) := do
  let found ← select (·.runs.get? runId)
  let current ← orThrow found (.app (.notFound ("run not found: " ++ runId) (runPayload runId)))
  if current.status == .cancelled then return some current
  else
    throwIf (!canTransitionRun current.status .cancel)
      (.app (.invalidState ("cannot cancel run in status '" ++ current.status.name ++ "'")
        [("status", .str current.status.name)]))
    return none

def cancelTaskUpdate (ctx : Context) (run : RunRow) (task : TaskRow) (target : TaskStatus) :
    List EventSpec :=
  [{ type := .taskUpdated, actorType := .user, actorId := ctx.actorUserId,
     correlationId := run.taskId, projectId := task.projectId, taskId := run.taskId,
     roomId := task.roomId,
     payload := [("status", .str target.name), ("cancelled_run_id", .str run.id)] }]

def cancelTask (ctx : Context) (run : RunRow) (task : Option TaskRow) (now : String) : Txn Bool :=
  match task with
  | none => .done false
  | some task =>
    if canTransitionTask task.status .cancel then do
      let cancelTransition ← transitionTask run.taskId task.status .cancel now
        (cancelTaskUpdate ctx run task)
      return cancelTransition.changed
    else .done false

/-- The transaction of `cancelRun`, after the process has stopped. -/
def cancelRun (ctx : Context) (runId : String) : Txn RunRow := do
  let now ← nowIso
  let found ← select (·.runs.get? runId)
  let run ← orThrow found (.app (.notFound ("run not found: " ++ runId) (runPayload runId)))
  if run.status == .cancelled then return run
  else
    throwIf (!canTransitionRun run.status .cancel)
      (.app (.invalidState ("cannot cancel run in status '" ++ run.status.name ++ "'")
        [("status", .str run.status.name)]))
    -- the source does not look at the result of this transition
    let _ ← transitionRun runId run.status .cancel { endedAt := now }
    let task ← select (·.tasks.get? run.taskId)
    let taskCancelled ← cancelTask ctx run task now
    let _ ← logEvent
      { systemSpec .runCancelled run task (runPayload runId) with
        actorType := .user, actorId := ctx.actorUserId, runId := runId }
    if taskCancelled then propagateBlocked run.taskId "run_cancelled"
    releaseRunLeases runId
    let updated ← select (·.runs.get? runId)
    orThrow updated (.error "cancelRun: run missing after transition")

def failRunStart (runId errorCode message : String) : Txn Unit := do
  let now ← nowIso
  let reason := errorCode ++ ": " ++ message
  let found ← select (·.runs.get? runId)
  let run ← orThrow found (.app (.notFound ("run not found: " ++ runId) (runPayload runId)))
  let task ← select (·.tasks.get? run.taskId)
  -- the results of the transitions are not looked at
  let _ ← transitionRun runId .queued .start { startedAt := now }
  let _ ← transitionRun runId .starting .startFailed { endedAt := now, failureReason := reason }
  let _ ← transitionTask run.taskId .assigned .assignFailedRetryable now
  let _ ← logEvent (systemSpec .runFailed run task
    (runPayload runId ++ [("failure_reason", .str reason), ("recoverable", .bool true)]))
  releaseRunLeases runId

/-- The runs of a filter that failed by a disconnect. -/
def disconnectedRuns (p : RunRow → TaskRow → Bool) (db : Database) : List RunRow :=
  db.runs.select fun r =>
    r.status == .failed && r.failureReason == some disconnectReason &&
      (db.tasks.get? r.taskId).any (p r)

def confirmsExit (e : EventRow) : Bool :=
  (e.type == .runFailed || e.type == .runReconciled) &&
    e.payload.lookup "process_exit_confirmed" == some (.bool true)

def unconfirmedDisconnectRunIds (p : RunRow → TaskRow → Bool) : Txn (List String) := do
  let candidates ← select (disconnectedRuns p)
  if candidates.isEmpty then return []
  else
    let evidence ← select fun db => db.events.select confirmsExit
    return (candidates.filter fun r => !evidence.any (·.runId == some r.id)).map (·.id)

def disconnectPayload (runId : String) (processExitConfirmed : Bool) : Payload :=
  runPayload runId ++ [("failure_reason", .str disconnectReason), ("recoverable", .bool true),
    ("process_exit_confirmed", .bool processExitConfirmed)]

def emitDisconnected (run : RunRow) (task : Option TaskRow) (processExitConfirmed : Bool) :
    Txn Unit := do
  let _ ← logEvent (systemSpec .runFailed run task (disconnectPayload run.id processExitConfirmed))
  if processExitConfirmed then releaseRunLeases run.id

/-- A run that already failed by the disconnect: its exit is confirmed now. -/
def confirmDisconnect (run : RunRow) (computerId : String) : Txn Unit := do
  releaseRunLeases run.id
  let unconfirmed ← unconfirmedDisconnectRunIds fun r _ => r.computerId == computerId
  if unconfirmed.contains run.id then
    let task ← select (·.tasks.get? run.taskId)
    let _ ← logEvent (systemSpec .runReconciled run task
      (runPayload run.id ++ [("process_exit_confirmed", .bool true),
        ("reason", .str "owner_confirmed_absent")]))

/-- The disconnect of a run whose process had started. -/
def disconnectStarted (run : RunRow) (task : Option TaskRow) (now : String)
    (processExitConfirmed : Bool) : Txn Bool := do
  let result ← transitionRun run.id run.status .runFailed
    { endedAt := now, failureReason := disconnectReason }
  if !result.changed then return false
  else
    match task with
    | some t =>
      if canTransitionTask t.status .runFailed then
        let taskBlocked ← transitionTask run.taskId t.status .runFailed now
        emitDisconnected run task processExitConfirmed
        if taskBlocked.changed then
          propagateBlocked run.taskId ("run_failed: " ++ disconnectReason)
      else emitDisconnected run task processExitConfirmed
    | none => emitDisconnected run task processExitConfirmed
    return true

/-- The disconnect of a run that is still being started. -/
def disconnectUnstarted (run : RunRow) (task : Option TaskRow) (now : String)
    (processExitConfirmed : Bool) : Txn Bool := do
  if run.status == .queued then
    let _ ← transitionRun run.id .queued .start
  let result ← transitionRun run.id .starting .startFailed
    { endedAt := now, failureReason := disconnectReason }
  if !result.changed then return false
  else
    let _ ← transitionTask run.taskId .assigned .assignFailedRetryable now
    emitDisconnected run task processExitConfirmed
    return true

def failRunDaemonDisconnect (runId computerId : String) (processExitConfirmed : Bool) :
    Txn Bool := do
  let now ← nowIso
  let found ← select (·.runs.get? runId)
  match found with
  | none => return false
  | some run =>
    if run.computerId != computerId then return false
    else if run.status == .failed && run.failureReason == some disconnectReason &&
        processExitConfirmed then
      confirmDisconnect run computerId
      return false
    else if isRunTerminal run.status then return false
    else
      let task ← select (·.tasks.get? run.taskId)
      if run.status == .running || run.status == .paused || run.status == .awaitingInput then
        disconnectStarted run task now processExitConfirmed
      else disconnectUnstarted run task now processExitConfirmed

end Artoo.Server
