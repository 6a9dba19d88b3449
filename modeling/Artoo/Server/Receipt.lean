import Artoo.Server.Statements

/-! The run event frame, the identity of its body and the schemas its payloads are checked by. -/
namespace Artoo.Server
open Artoo.Lib Artoo.Protocol Artoo.Domain

structure RunEventMessage where
  nodeId : String
  runId : String
  sequence : Int
  event : NodeRunEvent
  deriving DecidableEq

def maxSafeInteger : Nat := 9007199254740991

def maxSequence : Int := 2147483647

/-- The UTF-16 code units of a string; its length and order are theirs. -/
def utf16Units (s : String) : List Nat :=
  s.toList.flatMap fun c =>
    if c.toNat < 0x10000 then [c.toNat]
    else [0xD800 + (c.toNat - 0x10000) / 0x400, 0xDC00 + (c.toNat - 0x10000) % 0x400]

def utf16Length (s : String) : Nat := (utf16Units s).length

def stringWithin (least most : Nat) (s : String) : Bool :=
  decide (least ≤ utf16Length s) && decide (utf16Length s ≤ most)

def hasNul (s : String) : Bool := s.toList.contains (Char.ofNat 0)

/-- `value === value.trim()`. -/
def trimmed (s : String) : Bool :=
  (s.toList.head?.all fun c => !isTrimmed c) && (s.toList.getLast?.all fun c => !isTrimmed c)

def identityValid (s : String) : Bool := stringWithin 1 256 s

def retainedPathValid (s : String) : Bool := stringWithin 1 4096 s && !hasNul s

def retainedBranchValid (s : String) : Bool := stringWithin 1 1024 s && !hasNul s && trimmed s

def runAnswerValid (text : String) : Bool := stringWithin 1 200000 text

def runUsageValid (u : RunUsagePayload) : Bool :=
  u.inputTokens.all (· ≤ maxSafeInteger) && u.outputTokens.all (· ≤ maxSafeInteger) &&
    u.cachedInputTokens.all (· ≤ maxSafeInteger) && u.costUsd.all (fun c => decide (0 ≤ c)) &&
    u.currency.all (· == "USD") && u.providerSessionId.all (stringWithin 1 500)

def runWorkspaceRetainedValid (r : RunWorkspaceRetainedPayload) : Bool :=
  retainedPathValid r.workspaceRoot && retainedBranchValid r.workspaceBranch

/-- `runEventBodySchema`. -/
def runEventBodyValid : NodeRunEvent → Bool
  | .answer text => runAnswerValid text
  | .usage payload => runUsageValid payload
  | .workspaceRetained payload => runWorkspaceRetainedValid payload
  | _ => true

/-- `runEventMessageSchema`. -/
def runEventMessageValid (m : RunEventMessage) : Bool :=
  m.nodeId != "" && m.runId != "" && decide (0 ≤ m.sequence) && decide (m.sequence ≤ maxSequence) &&
    runEventBodyValid m.event

def artifactTypeName : ArtifactType → String
  | .patch => "patch" | .pullRequest => "pull_request" | .file => "file"
  | .screenshot => "screenshot" | .report => "report" | .logBundle => "log_bundle"
  | .url => "url" | .testResult => "test_result" | .contract => "contract"

def outputStreamName : OutputStream → String
  | .stdout => "stdout" | .stderr => "stderr"

def lifecyclePhaseName : LifecyclePhase → String
  | .started => "started" | .completed => "completed" | .failed => "failed"
  | .cancelled => "cancelled" | .paused => "paused" | .resumed => "resumed"

def outcomeName : WorkspaceRetentionOutcome → String
  | .completed => "completed" | .failed => "failed" | .cancelled => "cancelled"
  | .incompleteDelivery => "incomplete_delivery" | .unconfirmed => "unconfirmed"

def field {α : Type} (name : String) (value : Option α) (json : α → Json) : Payload :=
  value.toList.map fun a => (name, json a)

def nullishField (name : String) : Nullish String → Payload
  | .absent => []
  | .null => [(name, .null)]
  | .value s => [(name, .str s)]

def natJson (n : Nat) : Json := .num n

def usagePayload (u : RunUsagePayload) : Payload :=
  field "input_tokens" u.inputTokens natJson ++ field "output_tokens" u.outputTokens natJson ++
    field "cached_input_tokens" u.cachedInputTokens natJson ++ field "cost_usd" u.costUsd .num ++
    field "currency" u.currency .str ++ field "provider_session_id" u.providerSessionId .str

def retainedPayload (r : RunWorkspaceRetainedPayload) : Payload :=
  [("version", .num 1), ("workspace_root", .str r.workspaceRoot),
   ("workspace_branch", .str r.workspaceBranch), ("outcome", .str (outcomeName r.outcome))]

def eventPayload : NodeRunEvent → String × Payload
  | .output stream text =>
    ("run.output", [("stream", .str (outputStreamName stream)), ("text", .str text)])
  | .answer text => ("run.answer", [("text", .str text)])
  | .usage payload => ("run.usage", usagePayload payload)
  | .lifecycle payload =>
    ("run.lifecycle", ("phase", .str (lifecyclePhaseName payload.phase)) ::
      nullishField "reason" payload.reason)
  | .artifact payload =>
    ("artifact.created", [("type", .str (artifactTypeName payload.type)), ("uri", .str payload.uri),
      ("metadata", .obj payload.metadata)] ++ nullishField "checksum" payload.checksum)
  | .workspaceRetained payload => ("run.workspace.retained", retainedPayload payload)

def eventJson (event : NodeRunEvent) : Json :=
  .obj [("type", .str (eventPayload event).1), ("payload", .obj (eventPayload event).2)]

/-- The order of the code units, which `sort` goes by. -/
def unitsLe : List Nat → List Nat → Bool
  | [], _ => true
  | _ :: _, [] => false
  | a :: as, b :: bs => a < b || (a == b && unitsLe as bs)

mutual

/-- The value with the keys of its objects sorted, as `canonicalJson` prints it. -/
def canonicalJson : Json → Json
  | .arr xs => .arr (canonicalItems xs)
  | .obj fields =>
    .obj ((canonicalFields fields).mergeSort fun a b => unitsLe (utf16Units a.1) (utf16Units b.1))
  | value => value

def canonicalItems : List Json → List Json
  | [] => []
  | x :: xs => canonicalJson x :: canonicalItems xs

def canonicalFields : List (String × Json) → List (String × Json)
  | [] => []
  | (k, v) :: rest => (k, canonicalJson v) :: canonicalFields rest

end

def bodyIdentity (platform : Platform) (event : NodeRunEvent) : String :=
  "run-event-body-v1:sha256:" ++ platform.sha256 (canonicalJson (eventJson event))

/-- The parse of a frame throws where the schema refuses it. -/
def qualifyRunEventMessage (platform : Platform) (raw : RunEventMessage) :
    Option (RunEventMessage × String) :=
  if runEventMessageValid raw then some (raw, bodyIdentity platform raw.event) else none

/-- The report with the reporter the server adds. -/
structure StoredWorkspaceRetained where
  report : RunWorkspaceRetainedPayload
  reporterComputerId : String
  deriving DecidableEq, Repr

def storedRetainedValid (r : StoredWorkspaceRetained) : Bool :=
  runWorkspaceRetainedValid r.report && identityValid r.reporterComputerId

def storedRetainedPayload (r : StoredWorkspaceRetained) : Payload :=
  retainedPayload r.report ++ [("reporter_computer_id", .str r.reporterComputerId)]

def outcomes : List WorkspaceRetentionOutcome :=
  [.completed, .failed, .cancelled, .incompleteDelivery, .unconfirmed]

def lookupString (name : String) (payload : Payload) : Option String :=
  match payload.lookup name with
  | some (.str s) => some s
  | _ => none

/-- `StoredWorkspaceRetainedPayloadSchema.safeParse` of a stored payload. -/
def parseStoredRetained (payload : Payload) : Option StoredWorkspaceRetained := do
  let root ← lookupString "workspace_root" payload
  let branch ← lookupString "workspace_branch" payload
  let name ← lookupString "outcome" payload
  let outcome ← outcomes.find? fun o => outcomeName o == name
  let reporter ← lookupString "reporter_computer_id" payload
  let parsed : StoredWorkspaceRetained := ⟨⟨root, branch, outcome⟩, reporter⟩
  if payload.length == 5 && payload.lookup "version" == some (.num 1) && storedRetainedValid parsed
  then some parsed else none

structure WorkspaceRetentionProjection where
  retained : StoredWorkspaceRetained
  eventId : String
  sequence : Int
  reportedAt : String
  deriving DecidableEq, Repr

/-- The position column of the event is not read back: it is always a positive integer. -/
def projectWorkspaceRetention (platform : Platform) (run : RunRow) (event : Option EventRow) :
    Option WorkspaceRetentionProjection := do
  let event ← event
  if event.type != .runWorkspaceRetained || event.runId != some run.id ||
      event.taskId != some run.taskId || event.actorType != .system ||
      event.actorId != run.computerId || run.workspaceRoot.isNone || run.workspaceBranch.isNone then
    none
  else
    let retained ← parseStoredRetained event.payload
    if retained.reporterComputerId != run.computerId ||
        some retained.report.workspaceRoot != run.workspaceRoot ||
        some retained.report.workspaceBranch != run.workspaceBranch then none
    else
      let reportedAt ← platform.isoInstant event.occurredAt
      let sequence ← event.sequence
      if identityValid event.id && decide (0 ≤ sequence) && decide (sequence ≤ maxSafeInteger)
      then some { retained, eventId := event.id, sequence, reportedAt } else none

end Artoo.Server
