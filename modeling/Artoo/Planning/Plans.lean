import Artoo.Planning.Types
import Artoo.Server.Dag
import Artoo.Server.Lifecycle
import Mathlib.Data.List.Sort

/-! Plans: the rules for their content, proposal, rejection, and acceptance with its
materialization into tasks and dependencies. -/
namespace Artoo.Planning
open Artoo.Lib Artoo.Domain Artoo.Protocol
open Artoo.Server (DependencyType DependencyRow TaskRow RunRow ActorType Payload AppError EventSpec
  EventRow TransitionResult)

variable {α : Type}

/-- A transaction of the tables that goals and plans do not touch. -/
def core (p : Server.Txn α) : Txn α := p.lift Store.core Write.core Lock.core Failure.core

def generate : Txn String := core Server.generate

def nowIso : Txn String := core Server.nowIso

def logEvent (spec : EventSpec) : Txn EventRow := core (Server.logEvent spec)

/-! ## The content of a plan -/

structure DependencyInput where
  ref : String
  type : String

structure ArtifactInput where
  type : String
  description : Option String := none

structure ProposePlanSpecInput where
  title : String
  description : Option String := none
  acceptanceCriteria : List String
  requiredCapabilities : Option (List String) := none
  dependencies : Option (List DependencyInput) := none
  approvalGates : Option (List String) := none
  writeScopes : Option (List String) := none
  expectedArtifacts : Option (List ArtifactInput) := none

structure ProposePlanInput where
  rationale : Option String := none
  taskSpecs : List ProposePlanSpecInput
  authorType : Option ActorType := none
  authorId : Option String := none

def dependencyType : String → Option DependencyType
  | "blocks" => some .blocks
  | "artifact_required" => some .artifactRequired
  | "contract_required" => some .contractRequired
  | "review_required" => some .reviewRequired
  | "soft_context" => some .softContext
  | _ => none

def dependencyName : DependencyType → String
  | .blocks => "blocks"
  | .artifactRequired => "artifact_required"
  | .contractRequired => "contract_required"
  | .reviewRequired => "review_required"
  | .softContext => "soft_context"

@[simp] theorem dependencyType_name (type : DependencyType) :
    dependencyType (dependencyName type) = some type := by
  cases type <;> rfl

/-- The paths of the issues that `TaskSpecSchema` reports. -/
def specIssues (spec : ProposePlanSpecInput) : List (List String) :=
  (if spec.title.isEmpty then [["title"]] else []) ++
  (if spec.acceptanceCriteria.isEmpty then [["acceptance_criteria"]] else []) ++
  ((spec.acceptanceCriteria.zipIdx.filter fun c => c.1.isEmpty).map fun c =>
    ["acceptance_criteria", toString c.2]) ++
  (((spec.dependencies.getD []).zipIdx.filter fun d => (dependencyType d.1.type).isNone).map fun d =>
    ["dependencies", toString d.2, "type"])

/-- `TaskSpecSchema.parse`, with its defaults. -/
def parseTaskSpec (spec : ProposePlanSpecInput) : Except Failure TaskSpec :=
  if (specIssues spec).isEmpty then
    .ok
      { title := spec.title, description := spec.description.getD "",
        acceptanceCriteria := spec.acceptanceCriteria,
        requiredCapabilities := spec.requiredCapabilities.getD [],
        dependencies := (spec.dependencies.getD []).filterMap fun d =>
          (dependencyType d.type).map fun type => { ref := d.ref, type },
        approvalGates := spec.approvalGates.getD [], writeScopes := spec.writeScopes.getD [],
        expectedArtifacts := (spec.expectedArtifacts.getD []).map fun a =>
          { type := a.type, description := a.description.getD "" } }
  else .error (.invalid (specIssues spec))

/-- A stored spec, as it is parsed again. -/
def TaskSpec.input (spec : TaskSpec) : ProposePlanSpecInput :=
  { title := spec.title, description := some spec.description,
    acceptanceCriteria := spec.acceptanceCriteria,
    requiredCapabilities := some spec.requiredCapabilities,
    dependencies := some (spec.dependencies.map fun d =>
      { ref := d.ref, type := dependencyName d.type }),
    approvalGates := some spec.approvalGates, writeScopes := some spec.writeScopes,
    expectedArtifacts := some (spec.expectedArtifacts.map fun a =>
      { type := a.type, description := some a.description }) }

def parseStored (specs : List TaskSpec) : Except Failure (List TaskSpec) :=
  specs.mapM fun spec => parseTaskSpec spec.input

def natJson (n : Nat) : Json := .num n

def unsupportedControl (message field : String) (specIndex : Nat) : Failure :=
  .app (.validation message
    [("field", .str ("task_specs[" ++ toString specIndex ++ "]." ++ field)),
     ("spec_index", natJson specIndex)])

def assertSupportedPlanTaskControls (spec : TaskSpec) (specIndex : Nat) : Except Failure Unit :=
  if !spec.approvalGates.isEmpty then
    .error (unsupportedControl
      "Plan task approval_gates are not supported in this preview; request execution approval on the task before assignment"
      "approval_gates" specIndex)
  else if !spec.writeScopes.isEmpty then
    .error (unsupportedControl
      "Plan task write_scopes are not enforced in this preview; configure local workspace roots and runtime permissions instead"
      "write_scopes" specIndex)
  else .ok ()

def assertAllControls (specs : List TaskSpec) : Except Failure Unit :=
  specs.zipIdx.forM fun s => assertSupportedPlanTaskControls s.1 s.2

structure PlanEdge where
  fromId : String
  toId : String
  type : DependencyType
  deriving DecidableEq, Repr

def PlanEdge.pair (e : PlanEdge) : String × String := (e.fromId, e.toId)

/-- The dependencies of all specs with the index of their spec, in the order of the two loops. -/
def specDependencies (specs : List TaskSpec) : List (Nat × DependencySpec) :=
  specs.zipIdx.flatMap fun s => s.1.dependencies.map fun dep => (s.2, dep)

/-- The index that a reference means, among `count` specs. -/
def resolveRef (number : String → Option Int) (count : Nat) (ref : String) : Option Nat :=
  match number ref with
  | some n => if 0 ≤ n ∧ n < count then some n.toNat else none
  | none => none

def unknownRef (i : Nat) (ref : String) : Failure :=
  .app (.validation ("task spec " ++ toString i ++ " has an unknown dependency ref '" ++ ref ++ "'")
    [("spec_index", natJson i), ("ref", .str ref)])

def selfRef (i : Nat) : Failure :=
  .app (.validation ("task spec " ++ toString i ++ " cannot depend on itself")
    [("spec_index", natJson i)])

def cyclicRef (i : Nat) (ref : String) : Failure :=
  .app (.conflict "plan dependencies would create a cycle"
    [("spec_index", natJson i), ("ref", .str ref)])

/-- One round of `buildEdges`. -/
def buildEdge (number : String → Option Int) (count : Nat) (idForIndex : Nat → String)
    (edges : List PlanEdge) (d : Nat × DependencySpec) : Except Failure (List PlanEdge) :=
  match resolveRef number count d.2.ref with
  | none => .error (unknownRef d.1 d.2.ref)
  | some refIdx =>
    if refIdx = d.1 then .error (selfRef d.1)
    else if wouldCreateCycle (edges.map PlanEdge.pair) (idForIndex refIdx) (idForIndex d.1) then
      .error (cyclicRef d.1 d.2.ref)
    else .ok (edges ++ [⟨idForIndex refIdx, idForIndex d.1, d.2.type⟩])

def buildEdges (number : String → Option Int) (specs : List TaskSpec) (idForIndex : Nat → String) :
    Except Failure (List PlanEdge) :=
  (specDependencies specs).foldlM (buildEdge number specs.length idForIndex) []

def validatePlanTaskSpecs (number : String → Option Int) (input : List ProposePlanSpecInput) :
    Except Failure (List TaskSpec) := do
  let specs ← input.mapM parseTaskSpec
  assertAllControls specs
  if specs.isEmpty then throw (.app (.validation "a plan must contain at least one task spec"))
  let _ ← buildEdges number specs toString
  return specs

/-! ## Proposal and rejection -/

def goalNotFound (goalId : String) : Failure :=
  .app (.notFound ("goal not found: " ++ goalId) [("goal_id", .str goalId)])

def requireGoalInOrg (goalId : String) : Txn GoalRow := do
  let found ← Tx.queryForUpdate (fun st => (st.goals.get? goalId).toList) fun g => .goal g.id
  Tx.require found.head? (goalNotFound goalId)

def planNotFound (planId : String) : Failure :=
  .app (.notFound ("plan not found: " ++ planId) [("plan_id", .str planId)])

def goalStatusDetails (status : GoalStatus) : Payload := [("goal_status", .str status.name)]

def planTaken (row : PlanRow) (st : Store) : Bool :=
  (st.plans.get? row.id).isSome ||
    st.plans.rows.any fun p => p.goalId == row.goalId && p.version == row.version

def insertPlan (row : PlanRow) : Txn Unit := Tx.add (planTaken row) (.plan row) .constraint

/-- `update plans set … where id = …`. -/
def updatePlan (planId : String) (set : PlanRow → PlanRow) : Txn Unit := do
  let _ ← Tx.change (fun st => (st.plans.get? planId).toList) fun row => .plan (set row)

def updateGoal (goalId : String) (set : GoalRow → GoalRow) : Txn Unit := do
  let _ ← Tx.change (fun st => (st.goals.get? goalId).toList) fun row => .goal (set row)

/-- The fields that the events of a goal share. -/
def goalSpec (goal : GoalRow) (actorType : ActorType) (actorId : String) (payload : Payload) :
    EventSpec :=
  { type := .goalStatusChanged, actorType, actorId, correlationId := goal.id,
    projectId := goal.projectId, roomId := goal.roomId, goalId := goal.id, payload }

def latestVersion (plans : List PlanRow) : Nat := plans.foldl (fun m p => max m p.version) 0

def proposePlanInTx (ctx : Context) (goalId : String) (input : ProposePlanInput) : Txn PlanRow := do
  let specs ← Tx.ofResult (validatePlanTaskSpecs ctx.runtime.number input.taskSpecs)
  let now ← nowIso
  let planId ← generate
  let goal ← requireGoalInOrg goalId
  let existing ← Tx.query fun st => st.plans.select (·.goalId == goalId)
  let hasAccepted := existing.any (·.status == .accepted)
  Tx.check (!canProposePlan goal.status hasAccepted)
    (.app (.invalidState ("cannot propose a plan while goal is '" ++ goal.status.name ++ "'" ++
        if hasAccepted then " (re-plan requires pause/block first)" else "")
      (goalStatusDetails goal.status ++ [("has_accepted_plan", .bool hasAccepted)])))
  let nextVersion := latestVersion existing + 1
  insertPlan
    { id := planId, goalId, version := nextVersion, authorType := input.authorType.getD .user,
      authorId := input.authorId.getD ctx.actorUserId, rationale := input.rationale.getD "",
      status := .proposed, taskSpecs := specs, createdAt := now }
  let proposed := goalSpec goal .user ctx.actorUserId
    [("goal_id", .str goalId), ("plan_id", .str planId), ("version", natJson nextVersion)]
  let _ ← logEvent { proposed with type := .goalPlanProposed }
  let row ← Tx.query (·.plans.get? planId)
  Tx.require row (.core (.error "proposePlan: row missing after insert"))

def proposePlan (ctx : Context) (goalId : String) (input : ProposePlanInput) : Txn PlanRow :=
  proposePlanInTx ctx goalId input

/-- The transition of a plan, or its `InvalidGoalTransitionError`. -/
def planTransition (status : PlanStatus) (trigger : PlanTrigger) : Txn PlanStatus :=
  Tx.require (applyPlanTransition status trigger) (.invalidPlanTransition status trigger)

def goalTransition (status : GoalStatus) (trigger : GoalTrigger) : Txn GoalStatus :=
  Tx.require (applyGoalTransition status trigger) (.invalidGoalTransition status trigger)

def rejectPlan (ctx : Context) (planId : String) : Txn (Option PlanRow) := do
  let lookup ← Tx.query (·.plans.get? planId)
  match lookup with
  | none => return none
  | some lookup =>
    let goal ← requireGoalInOrg lookup.goalId
    let found ← Tx.query (·.plans.get? planId)
    match found with
    | none => return none
    | some row =>
      Tx.check (row.status != .proposed)
        (.app (.invalidState ("cannot reject a plan in status '" ++ row.status.name ++ "'")
          [("status", .str row.status.name)]))
      let _ ← planTransition row.status .reject
      updatePlan planId fun row => { row with status := .rejected }
      let rejected := goalSpec goal .user ctx.actorUserId
        [("goal_id", .str row.goalId), ("plan_id", .str planId)]
      let _ ← logEvent { rejected with type := .goalPlanRejected }
      let updated ← Tx.query (·.plans.get? planId)
      return updated

/-! ## Materialization -/

structure MaterializeResult where
  plan : PlanRow
  taskIds : List String
  deriving DecidableEq

/-- The task rows of a plan come with their source columns; a reference is unique in a plan. -/
def sourceTaken (source : TaskSource) (st : Store) : Bool :=
  (st.sources.get? source.taskId).isSome ||
    st.sources.rows.any fun s =>
      s.sourcePlanId == source.sourcePlanId && s.sourcePlanSpecRef == source.sourcePlanSpecRef

def insertSource (source : TaskSource) : Txn Unit :=
  Tx.add (sourceTaken source) (.source source) .constraint

/-- The task of a spec; its room is not stored here. -/
def insertSpecTask (goal : GoalRow) (planId now : String) (i : Nat) (spec : TaskSpec)
    (taskId : String) : Txn Unit := do
  let roomId ← generate
  core (Server.insertTask
    { id := taskId, projectId := goal.projectId, roomId := roomId, goalId := goal.id,
      status := .backlog, acceptanceCriteria := spec.acceptanceCriteria, updatedAt := now })
  insertSource
    { taskId, sourcePlanId := planId, sourcePlanSpecRef := toString i, title := spec.title,
      description := spec.description, priority := goal.priority,
      requiredCapabilities := spec.requiredCapabilities }
  let created : EventSpec :=
    { type := .taskCreated, actorType := .system, actorId := "plan_materializer",
      correlationId := goal.id, projectId := goal.projectId, taskId := taskId, roomId := roomId,
      goalId := goal.id }
  let _ ← logEvent
    { created with payload := [("title", .str spec.title), ("source_plan_id", .str planId),
        ("source_plan_spec_ref", .str (toString i))] }
  let _ ← logEvent { created with type := .roomCreated }

def edgeTaken (row : DependencyRow) (st : Store) : Bool :=
  (st.core.dependencies.get? row.id).isSome ||
    st.core.dependencies.rows.any fun e =>
      e.fromTaskId == row.fromTaskId && e.toTaskId == row.toTaskId && e.type == row.type

def insertDependency (row : DependencyRow) : Txn Unit :=
  Tx.add (edgeTaken row) (.dependency row) .constraint

def insertEdge (e : PlanEdge) : Txn Unit := do
  let id ← generate
  insertDependency { id, fromTaskId := e.fromId, toTaskId := e.toId, type := e.type }

/-- The number that a stored spec reference means. -/
def refNumber (number : String → Option Int) (source : TaskSource) : Int :=
  (number source.sourcePlanSpecRef).getD 0

def planTasks (number : String → Option Int) (planId : String) (st : Store) : List String :=
  ((st.sources.select (·.sourcePlanId == planId)).insertionSort fun a b =>
    refNumber number a ≤ refNumber number b).map (·.taskId)

/-- Replacing a plan keeps the pause until a human resumes the goal. -/
def materializedStatus (status : GoalStatus) : Txn GoalStatus :=
  if status == .paused then return .paused else goalTransition .planned .dagMaterialized

/-- The tasks, dependencies and stamps of a plan that is not materialized yet. -/
def materializeNew (ctx : Context) (goal : GoalRow) (planId now : String) (specs : List TaskSpec) :
    Txn MaterializeResult := do
  Tx.check (goal.status != .planned && goal.status != .paused)
    (.app (.invalidState
      ("goal must be planned or paused to materialize (is '" ++ goal.status.name ++ "')")
      (goalStatusDetails goal.status)))
  let taskIds ← specs.mapM fun _ => generate
  let edgeRows ← Tx.ofResult (buildEdges ctx.runtime.number specs fun i => taskIds.getD i "")
  (specs.zip taskIds).zipIdx.forM fun s => insertSpecTask goal planId now s.2 s.1.1 s.1.2
  edgeRows.forM insertEdge
  let goalStatus ← materializedStatus goal.status
  updateGoal goal.id fun row =>
    { row with status := goalStatus, runningSince := goal.runningSince <|> some now, updatedAt := now }
  let materialized := goalSpec goal .system "plan_materializer"
    [("goal_id", .str goal.id), ("plan_id", .str planId), ("task_ids", .arr (taskIds.map .str))]
  let matEvent ← core (Server.buildEvent { materialized with type := .goalPlanMaterialized })
  updatePlan planId fun row =>
    { row with materializedAt := some now, materializationEventId := some matEvent.id }
  core (Server.appendEvent matEvent)
  let updated ← Tx.query (·.plans.get? planId)
  let plan ← Tx.require updated (planNotFound planId)
  return { plan, taskIds }

/-- Re-entrant on `materializedAt`. -/
def materializeInTx (ctx : Context) (planId now : String) : Txn MaterializeResult := do
  let lookup ← Tx.query (·.plans.get? planId)
  let lookup ← Tx.require lookup (planNotFound planId)
  let goal ← requireGoalInOrg lookup.goalId
  let found ← Tx.query (·.plans.get? planId)
  let plan ← Tx.require found (planNotFound planId)
  Tx.check (plan.status != .accepted)
    (.app (.invalidState ("only an accepted plan can materialize (is '" ++ plan.status.name ++ "')")
      [("status", .str plan.status.name)]))
  Tx.check (goal.currentPlanId != some planId)
    (.app (.invalidState "plan is not the goal's current plan" [("plan_id", .str planId)]))
  let specs ← Tx.ofResult (parseStored plan.taskSpecs)
  Tx.ofResult (assertAllControls specs)
  if plan.materializedAt.isSome then
    let taskIds ← Tx.query (planTasks ctx.runtime.number planId)
    return { plan, taskIds }
  else materializeNew ctx goal planId now specs

def materializePlan (ctx : Context) (planId : String) : Txn MaterializeResult := do
  let now ← nowIso
  materializeInTx ctx planId now

end Artoo.Planning
