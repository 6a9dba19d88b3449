import Artoo.Lib.Path
import Artoo.Server.Operations

/-! The server as a state machine: every service transaction is one step on the database. -/
namespace Artoo.Server
open Artoo.Lib Artoo.Protocol Artoo.Domain Tx

inductive Op where
  | createTask (req : CreateTaskRequest)
  | enqueueAssistantTurn (room : Conversation) (threadRootId : Option String) (body : String)
  | markReady (taskId : String)
  | assignTask (services : AssignServices) (taskId : String) (req : AssignRequest)
      (assistantTurnId : Option String)
  | reviewTask (services : ReviewServices) (taskId : String) (outcome : ReviewOutcome)
      (comment : Option String)
  | retryTask (services : ReviewServices) (taskId : String)
  | requestApproval (params : RequestApprovalParams)
  | requestExecutionApproval (taskId summary : String) (risk : Risk)
  | resolveApproval (approvalId : String) (req : ResolveApprovalRequest)
  | cancelRun (runId : String)
  | failRunStart (runId errorCode message : String)
  | failRunDaemonDisconnect (runId computerId : String) (processExitConfirmed : Bool)
  | ingestRunEvent (services : Services) (env : IngestEnvelope)
  | ingestWireRunEvent (services : Services) (frame : RunEventMessage)
  | enforceGoalBudget (services : Services) (goalId : String)
  | acquireLease (req : AcquireLeaseRequest)
  | releaseLease (leaseId : String)
  | listLeases (projectId : String) (status : Option LeaseStatus)

def Op.program (ctx : Context) : Op → Txn Unit
  | .createTask req => do
    let _ ← Server.createTask ctx req
  | .enqueueAssistantTurn room threadRootId body => do
    let _ ← Server.enqueueAssistantTurn ctx room threadRootId body
  | .markReady taskId => do
    let _ ← Server.markReady ctx taskId
  | .assignTask services taskId req assistantTurnId => do
    let _ ← Server.assignTask ctx services taskId req assistantTurnId
  | .reviewTask services taskId outcome comment => do
    let _ ← Server.reviewTask ctx services taskId outcome comment
  | .retryTask services taskId => do
    let _ ← Server.retryTask ctx services taskId
  | .requestApproval params => do
    let _ ← Server.requestApproval params
  | .requestExecutionApproval taskId summary risk => do
    let _ ← Server.requestExecutionApproval ctx taskId summary risk
  | .resolveApproval approvalId req => do
    let _ ← Server.resolveApproval ctx approvalId req
  | .cancelRun runId => do
    let _ ← Server.cancelRun ctx runId
  | .failRunStart runId errorCode message => Server.failRunStart runId errorCode message
  | .failRunDaemonDisconnect runId computerId confirmed => do
    let _ ← Server.failRunDaemonDisconnect runId computerId confirmed
  | .ingestRunEvent services env => do
    let _ ← Server.ingestRunEvent ctx services env
  | .ingestWireRunEvent services frame => do
    let _ ← Server.ingestWireRunEvent ctx services frame
  | .enforceGoalBudget services goalId => Server.enforceGoalBudget services goalId
  | .acquireLease req => do
    let _ ← Server.acquireLease ctx req
  | .releaseLease leaseId => do
    let _ ← Server.releaseLease leaseId
  | .listLeases projectId status => do
    let _ ← Server.listLeases projectId status

/-- A service call, its actor and the ids and times it draws. -/
structure Request where
  op : Op
  actorUserId : String
  input : Nat → String

def Request.run (platform : Platform) (r : Request) (db : Database) : Database :=
  ((r.op.program ⟨r.actorUserId, platform⟩).execute r.input db).2

def Step (platform : Platform) (r : Request) (db db' : Database) : Prop := r.run platform db = db'

def serve (platform : Platform) (requests : List Request) (db : Database) : Database :=
  requests.foldl (fun db r => r.run platform db) db

/-- The steps that are not of a bad kind. -/
def Avoiding (platform : Platform) (bad : Op → Database → Bool) (r : Request)
    (db db' : Database) : Prop := Step platform r db db' ∧ bad r.op db = false

def avoids (platform : Platform) (bad : Op → Database → Bool) : List Request → Database → Bool
  | [], _ => true
  | r :: rest, db => !bad r.op db && avoids platform bad rest (r.run platform db)

theorem path_avoiding {platform : Platform} {bad : Op → Database → Bool} {requests : List Request}
    {db : Database} (h : avoids platform bad requests db = true) :
    Path (Avoiding platform bad) requests db (serve platform requests db) := by
  induction requests generalizing db with
  | nil => exact .nil db
  | cons r rest ih =>
    unfold avoids at h
    rw [Bool.and_eq_true, Bool.not_eq_true'] at h
    exact .cons ⟨rfl, h.1⟩ (ih h.2)

theorem path_serve {platform : Platform} {requests : List Request} {db : Database} :
    Path (Step platform) requests db (serve platform requests db) := by
  induction requests generalizing db with
  | nil => exact .nil db
  | cons r rest ih => exact .cons rfl ih

/-! A task of one project and its runs on one node, for runs on fixed inputs. -/
namespace Sample

def clock : String := "2026-01-05T10:00:00.000Z"

/-- On the lower case paths and the frames of the samples the runtime answers like this. -/
def platform : Platform where
  sha256 _ := "5feceb66ffc86f38d952786c6d696c79c2dbc239dd4e91b46729d73a27fb57e9"
  toLowerCase := id
  timestamptz := some
  isoInstant := some

def request (op : Op) (draws : List String) : Request := ⟨op, "u1", fun n => draws.getD n clock⟩

def create : Request :=
  request (.createTask { projectId := "p1", acceptanceCriteria := ["tests pass"] })
    [clock, "t1", "room1", "e1", clock, "e2"]

def ready : Request := request (.markReady "t1") [clock, "e3"]

def assign (runId eventId : String) (writePaths : List String := []) (leaseId : String := "l1") :
    Request :=
  request (.assignTask { schedule := .ok ⟨"node1", "i1", "agent1"⟩ } "t1"
      { writePaths := some writePaths } none)
    (if writePaths.isEmpty then [clock, "d-" ++ runId, runId, eventId]
     else [clock, "d-" ++ runId, runId, clock, leaseId, "e-" ++ leaseId, clock, eventId])

def report (runId : String) (sequence : Int) (phase : IngestPhase) (eventId : String) : Request :=
  request (.ingestRunEvent {} ⟨runId, "node1", sequence, .lifecycle phase none⟩)
    [clock, eventId, clock, "m-" ++ eventId]

def ask (approvalId eventId : String) : Request :=
  request (.requestApproval
      { taskId := "t1", action := .other "deploy", risk := .low, summary := "deploy it" })
    [clock, approvalId, eventId]

def decide_ (approvalId : String) (decision : Decision) (eventId : String) : Request :=
  request (.resolveApproval approvalId { decision }) [clock, eventId]

def retry (eventId : String) : Request := request (.retryTask {} "t1") [clock, eventId]

def disconnect (runId eventId : String) (confirmed : Bool) : Request :=
  request (.failRunDaemonDisconnect runId "node1" confirmed) [clock, eventId]

def cancel (runId eventId : String) : Request :=
  request (.cancelRun runId) [clock, "t-" ++ eventId, clock, eventId, clock, clock, "l-" ++ eventId]

def failStart (runId eventId : String) : Request :=
  request (.failRunStart runId "start_failed" "spawn failed") [clock, eventId, clock, clock,
    "l-" ++ eventId]

def release (leaseId eventId : String) : Request := request (.releaseLease leaseId) [clock, eventId]

end Sample

/-- The frame an ingest works on, and the identity of its body on the wire path. -/
def Op.envelope (platform : Platform) : Op → Option (IngestEnvelope × Option String)
  | .ingestRunEvent _ env => some (env, none)
  | .ingestWireRunEvent _ frame => do
    let qualified ← qualifyRunEventMessage platform frame
    let env ← mapRunEvent qualified.1
    some (env, some qualified.2)
  | _ => none

/-- Stale leases lapse where a transaction looks for conflicts or lists them. -/
def lapsing : Effect := { expired := fun _ => True }

/-- The effect of an operation that makes no move. -/
def Op.aside : Op → Effect
  | .acquireLease _ | .listLeases _ _ => lapsing
  | _ => silent

def releasing (leaseId : String) : Effect := { released := fun l => l.id = leaseId }

/-- The moves an operation may make on a database, and their effects. -/
inductive Allows (platform : Platform) (db : Database) : Op → Effect → Move → Prop where
  | idle (op : Op) : Allows platform db op op.aside .idle
  | create (op : Op) {taskId : String} : (board db).task taskId = none →
      Allows platform db op silent (.create taskId)
  | markReady {taskId : String} :
      Allows platform db (.markReady taskId) silent (.task taskId .backlog .ready)
  | assign {services : AssignServices} {taskId : String} {req : AssignRequest}
      {assistantTurnId : Option String} {runId : String} {view : RunView} :
      (board db).task taskId = some .ready → (board db).run runId = none →
      view.taskId = taskId → view.status = .queued →
      Allows platform db (.assignTask services taskId req assistantTurnId) lapsing
        (.assign taskId runId view)
  | accept {services : ReviewServices} {taskId : String} {comment : Option String}
      {unlocked : List String} :
      Allows platform db (.reviewTask services taskId .accepted comment) silent
        (.accept taskId unlocked)
  | requestChanges {services : ReviewServices} {taskId : String} {comment : Option String} :
      Allows platform db (.reviewTask services taskId .changesRequested comment) silent
        (.task taskId .review .ready)
  | retry {services : ReviewServices} {taskId : String} :
      Allows platform db (.retryTask services taskId) silent (.task taskId .blocked .ready)
  | requestApproval {params : RequestApprovalParams} :
      Allows platform db (.requestApproval params) silent
        (.task params.taskId .running .awaitingApproval)
  | resolveApproval {approvalId : String} {req : ResolveApprovalRequest} {approval : ApprovalRow} :
      db.approvals.get? approvalId = some approval →
      (applyApprovalTransition approval.status req.decision.trigger).isSome →
      Allows platform db (.resolveApproval approvalId req) silent
        (decisionMove approval req.decision)
  | cancelRun {runId : String} {run : RunRow} : db.runs.get? runId = some run →
      isRunTerminal run.status = false →
      Allows platform db (.cancelRun runId) (Settlement.cancelled.effect runId)
        (.settle .cancelled runId run.taskId)
  | failRunStart {runId errorCode message : String} {run : RunRow} :
      db.runs.get? runId = some run →
      Allows platform db (.failRunStart runId errorCode message)
        (Settlement.startFailed.effect runId) (.settle .startFailed runId run.taskId)
  | confirmed {runId computerId : String} {run : RunRow} : db.runs.get? runId = some run →
      run.status = .failed →
      Allows platform db (.failRunDaemonDisconnect runId computerId true)
        ((Settlement.reconciled true).effect runId) (.settle (.reconciled true) runId run.taskId)
  | disconnected {runId computerId : String} {confirmed : Bool} {run : RunRow} :
      db.runs.get? runId = some run → applyRunTransition run.status .runFailed = some .failed →
      Allows platform db (.failRunDaemonDisconnect runId computerId confirmed)
        ((Settlement.disconnected run.status confirmed).effect runId)
        (.settle (.disconnected run.status confirmed) runId run.taskId)
  | startDisconnected {runId computerId : String} {confirmed : Bool} {run : RunRow} :
      db.runs.get? runId = some run → run.status = .queued ∨ run.status = .starting →
      Allows platform db (.failRunDaemonDisconnect runId computerId confirmed)
        ((Settlement.startDisconnected confirmed).effect runId)
        (.settle (.startDisconnected confirmed) runId run.taskId)
  | releaseLease {leaseId : String} :
      Allows platform db (.releaseLease leaseId) (releasing leaseId) .idle
  | ingest {op : Op} {env : IngestEnvelope} {identity : Option String} {phase : IngestPhase}
      {failureReason : Option String} {run : RunRow} {task : TaskRow} :
      op.envelope platform = some (env, identity) → env.event = .lifecycle phase failureReason →
      Reads env identity db run task → db.ingests.get? env.key = none →
      Allows platform db op ((verdict run phase).effect env.runId)
        (.settle (verdict run phase) env.runId run.taskId)

/-- What a step does: a move, or an ingest that also stores a receipt. -/
inductive Does (platform : Platform) (op : Op) (db : Database) : Database → Prop where
  | makes {f : Effect} {m : Move} {db' : Database} : Allows platform db op f m →
      Makes f m db db' → Does platform op db db'
  | ingested {env : IngestEnvelope} {identity : Option String} {result : IngestResult}
      {db' : Database} : op.envelope platform = some (env, identity) →
      Ingested env identity db result db' → Does platform op db db'

section Program

variable {platform : Platform} {db : Database}

theorem wp_discard {α : Type} {op : Op} {ctx : Context} {post : α → Database → Prop} (p : Txn α)
    (program : op.program ctx = do let _ ← p) (spec : wp p post db)
    (covers : ∀ a db', post a db' → Does ctx.platform op db db') :
    wp (op.program ctx) (fun _ db' => Does ctx.platform op db db') db := by
  rw [program]
  exact wp_seq spec covers

theorem does_quiet {op : Op} {db' : Database} (h : Quiet op.aside db db') : Does platform op db db' :=
  .makes (.idle op) h.makes

theorem wp_does_quiet {α : Type} {op : Op} {ctx : Context} {f : Effect} (p : Txn α)
    (program : op.program ctx = do let _ ← p) (allowed : Allows ctx.platform db op f .idle)
    (kept : Keeps (Quiet f) p) : wp (op.program ctx) (fun _ db' => Does ctx.platform op db db') db :=
  wp_discard p program (kept db) fun _ _ quiet => .makes allowed quiet.makes

/-- The spec of every operation. -/
theorem wp_program (ctx : Context) (op : Op) :
    wp (op.program ctx) (fun _ db' => Does ctx.platform op db db') db := by
  have lapses : ∀ l, lapsing.expired l := fun _ => trivial
  cases op with
  | createTask req =>
    apply wp_discard (createTask ctx req) (by rfl) (@wp_createTask silent _ _ _)
    rintro _ db' ⟨_, absent, made⟩
    exact .makes (.create _ absent) made
  | enqueueAssistantTurn room threadRootId body =>
    apply wp_discard (enqueueAssistantTurn ctx room threadRootId body) (by rfl)
      (@wp_enqueueAssistantTurn silent _ _ _ _ _)
    rintro _ db' (made | ⟨_, absent, made⟩)
    · exact .makes (.idle _) made
    · exact .makes (.create _ absent) made
  | markReady taskId =>
    apply wp_discard (markReady ctx taskId) (by rfl) wp_markReady
    exact fun _ _ made => .makes .markReady made
  | assignTask services taskId req assistantTurnId =>
    apply wp_discard (assignTask ctx services taskId req assistantTurnId) (by rfl) (wp_assignTask lapses)
    rintro _ db' ⟨_, _, ready, absent, ofTask, queued, made⟩
    exact .makes (.assign ready absent ofTask queued) made
  | reviewTask services taskId outcome comment =>
    apply wp_discard (reviewTask ctx services taskId outcome comment) (by rfl) wp_reviewTask
    rintro _ db' (⟨rfl, _, made⟩ | ⟨rfl, made⟩)
    · exact .makes .accept made
    · exact .makes .requestChanges made
  | retryTask services taskId =>
    apply wp_discard (retryTask ctx services taskId) (by rfl) wp_retryTask
    exact fun _ _ made => .makes .retry made
  | requestApproval params =>
    apply wp_discard (requestApproval params) (by rfl) wp_requestApproval
    exact fun _ _ made => .makes .requestApproval made
  | requestExecutionApproval taskId summary risk =>
    exact wp_does_quiet (requestExecutionApproval ctx taskId summary risk) (by rfl) (.idle _)
      keeps_requestExecutionApproval
  | resolveApproval approvalId req =>
    apply wp_discard (resolveApproval ctx approvalId req) (by rfl) wp_resolveApproval
    rintro _ db' ⟨_, found, edge, made⟩
    exact .makes (.resolveApproval found edge) made
  | cancelRun runId =>
    apply wp_discard (cancelRun ctx runId) (by rfl) wp_cancelRun
    rintro _ db' (rfl | ⟨_, found, live, settled⟩)
    · exact does_quiet (Std.Refl.refl _)
    · exact .makes (.cancelRun found live) settled.makes
  | failRunStart runId errorCode message =>
    apply wp_mono wp_failRunStart
    rintro _ db' ⟨_, found, settled⟩
    exact .makes (.failRunStart found) settled.makes
  | failRunDaemonDisconnect runId computerId confirmed =>
    apply wp_discard (failRunDaemonDisconnect runId computerId confirmed) (by rfl)
      wp_failRunDaemonDisconnect
    rintro _ db' (rfl | ⟨_, found, _, ⟨failed, rfl, settled⟩ | ⟨edge, settled⟩ | ⟨early, settled⟩⟩)
    · exact does_quiet (Std.Refl.refl _)
    · exact .makes (.confirmed found failed) settled.makes
    · exact .makes (.disconnected found edge) settled.makes
    · exact .makes (.startDisconnected found early) settled.makes
  | ingestRunEvent services env =>
    apply wp_discard (ingestRunEvent ctx services env) (by rfl) wp_ingestRunEventInternal
    exact fun _ _ ingested => .ingested rfl ingested
  | ingestWireRunEvent services frame =>
    apply wp_discard (ingestWireRunEvent ctx services frame) (by rfl) wp_ingestWireRunEvent
    rintro _ db' (_ | ⟨valid, mapped, ingested⟩)
    · exact does_quiet (Std.Refl.refl _)
    · exact .ingested (by simp [Op.envelope, qualifyRunEventMessage, valid, mapped]) ingested
  | enforceGoalBudget services goalId =>
    exact wp_mono (keeps_enforceGoalBudget db) fun _ _ => does_quiet
  | acquireLease req =>
    exact wp_does_quiet (acquireLease ctx req) (by rfl) (.idle _) (keeps_acquireLease lapses)
  | releaseLease leaseId =>
    exact wp_does_quiet (releaseLease leaseId) (by rfl) .releaseLease
      (keeps_releaseLease fun _ named => named)
  | listLeases projectId status =>
    exact wp_does_quiet (listLeases projectId status) (by rfl) (.idle _) (keeps_listLeases lapses)

theorem step_does {r : Request} {db' : Database} (h : Step platform r db db') :
    Does platform r.op db db' := by
  rw [← h]
  unfold Request.run
  rcases wp_execute (wp_program ⟨r.actorUserId, platform⟩ r.op) with ⟨_, _, done⟩ | ⟨_, same⟩
  · exact done
  · rw [same]
    exact does_quiet (Std.Refl.refl _)

/-- A step makes an allowed move, whatever it stores besides. -/
structure Moves (platform : Platform) (op : Op) (f : Effect) (m : Move) (db db' : Database) :
    Prop where
  allowed : Allows platform db op f m
  board : board db' = (board db).apply m
  leases : LeasesStep f db db'
  events : Appends f db db'

theorem Makes.moves {op : Op} {f : Effect} {m : Move} {db' : Database}
    (allowed : Allows platform db op f m) (made : Makes f m db db') :
    Moves platform op f m db db' :=
  ⟨allowed, made.board, made.leases, made.events⟩

theorem Does.moves {op : Op} {db' : Database} (h : Does platform op db db') :
    ∃ f m, Moves platform op f m db db' := by
  cases h with
  | makes allowed made => exact ⟨_, _, made.moves allowed⟩
  | @ingested env identity result _ parsed ingested =>
    cases ingested with
    | repeated => exact ⟨_, .idle, .idle op, rfl, .of_eq rfl, .of_eq rfl⟩
    | @first run task receipt _ mid reads fresh applies =>
      have key : run.id = env.runId := Table.key_of_get? reads.foundRun
      unfold Applies at applies
      split at applies
      · rename_i phase failureReason lifecycle
        rw [key] at applies
        exact ⟨_, _, .ingest parsed lifecycle reads fresh, applies.board, applies.leases,
          applies.events⟩
      · have aside : op.aside = silent := by
          cases op <;> first | rfl | cases parsed
        exact ⟨_, .idle, .idle op, applies.board, aside ▸ applies.leases, aside ▸ applies.events⟩

theorem step_moves {r : Request} {db' : Database} (h : Step platform r db db') :
    ∃ f m, Moves platform r.op f m db db' :=
  (step_does h).moves

end Program

end Artoo.Server
