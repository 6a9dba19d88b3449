import Mathlib.Data.Fintype.OfMap
import Artoo.Lib.Graph

/-! The goal and plan state machines, and the cycle check of the task graph. -/
namespace Artoo.Domain
open Artoo.Lib

inductive GoalStatus where
  | draft | planned | running | awaitingApproval | paused | blocked | completed | cancelled | archived
  deriving DecidableEq, Repr

def GoalStatus.name : GoalStatus → String
  | .draft => "draft" | .planned => "planned" | .running => "running"
  | .awaitingApproval => "awaiting_approval" | .paused => "paused" | .blocked => "blocked"
  | .completed => "completed" | .cancelled => "cancelled" | .archived => "archived"

inductive GoalTrigger where
  | planAccepted | planRejected | dagMaterialized | approvalRequired | approvalGranted
  | approvalRejected | pause | resume | blockedDetected | blockerResolved | allTasksTerminal
  | cancel | archive
  deriving DecidableEq, Repr

def GoalTrigger.name : GoalTrigger → String
  | .planAccepted => "plan_accepted" | .planRejected => "plan_rejected"
  | .dagMaterialized => "dag_materialized" | .approvalRequired => "approval_required"
  | .approvalGranted => "approval_granted" | .approvalRejected => "approval_rejected"
  | .pause => "pause" | .resume => "resume" | .blockedDetected => "blocked_detected"
  | .blockerResolved => "blocker_resolved" | .allTasksTerminal => "all_tasks_terminal"
  | .cancel => "cancel" | .archive => "archive"

structure GoalTransition where
  source : GoalStatus
  target : GoalStatus
  trigger : GoalTrigger
  human : Bool
  deriving DecidableEq, Repr

instance : Fintype GoalStatus :=
  .ofList [.draft, .planned, .running, .awaitingApproval, .paused, .blocked, .completed, .cancelled,
    .archived] (by intro s; cases s <;> decide)

def goalTransitions : List GoalTransition :=
  [⟨.draft, .planned, .planAccepted, false⟩,
   ⟨.draft, .cancelled, .cancel, true⟩,
   ⟨.planned, .running, .dagMaterialized, false⟩,
   ⟨.planned, .draft, .planRejected, false⟩,
   ⟨.planned, .cancelled, .cancel, true⟩,
   ⟨.running, .awaitingApproval, .approvalRequired, false⟩,
   ⟨.running, .paused, .pause, true⟩,
   ⟨.running, .blocked, .blockedDetected, false⟩,
   ⟨.running, .completed, .allTasksTerminal, false⟩,
   ⟨.running, .cancelled, .cancel, true⟩,
   ⟨.awaitingApproval, .running, .approvalGranted, false⟩,
   ⟨.awaitingApproval, .blocked, .approvalRejected, false⟩,
   ⟨.awaitingApproval, .paused, .pause, true⟩,
   ⟨.awaitingApproval, .cancelled, .cancel, true⟩,
   ⟨.paused, .running, .resume, true⟩,
   ⟨.paused, .cancelled, .cancel, true⟩,
   ⟨.blocked, .running, .blockerResolved, false⟩,
   ⟨.blocked, .paused, .pause, true⟩,
   ⟨.blocked, .cancelled, .cancel, true⟩,
   ⟨.completed, .archived, .archive, true⟩,
   ⟨.cancelled, .archived, .archive, true⟩]

def findGoalTransition (s : GoalStatus) (trigger : GoalTrigger) : Option GoalTransition :=
  goalTransitions.find? fun t => t.source == s && t.trigger == trigger

def canTransitionGoal (s : GoalStatus) (trigger : GoalTrigger) : Bool :=
  (findGoalTransition s trigger).isSome

/-- `none` is the `InvalidGoalTransitionError`. -/
def applyGoalTransition (s : GoalStatus) (trigger : GoalTrigger) : Option GoalStatus :=
  (findGoalTransition s trigger).map GoalTransition.target

inductive PlanStatus where
  | proposed | accepted | rejected | superseded
  deriving DecidableEq, Repr

def PlanStatus.name : PlanStatus → String
  | .proposed => "proposed" | .accepted => "accepted" | .rejected => "rejected"
  | .superseded => "superseded"

inductive PlanTrigger where
  | accept | reject | newVersionAccepted
  deriving DecidableEq, Repr

structure PlanTransition where
  source : PlanStatus
  target : PlanStatus
  trigger : PlanTrigger
  deriving DecidableEq, Repr

def planTransitions : List PlanTransition :=
  [⟨.proposed, .accepted, .accept⟩,
   ⟨.proposed, .rejected, .reject⟩,
   ⟨.accepted, .superseded, .newVersionAccepted⟩]

def applyPlanTransition (s : PlanStatus) (trigger : PlanTrigger) : Option PlanStatus :=
  (planTransitions.find? fun t => t.source == s && t.trigger == trigger).map PlanTransition.target

/-- A plan is proposed before the first is accepted, or while the goal is stopped. -/
def canProposePlan (goalStatus : GoalStatus) (hasAcceptedPlan : Bool) : Bool :=
  if !hasAcceptedPlan then goalStatus == .draft || goalStatus == .planned
  else goalStatus == .paused || goalStatus == .blocked

/-- Whether an edge from `fromTaskId` to `toTaskId` would close a cycle. -/
def wouldCreateCycle (edges : List (String × String)) (fromTaskId toTaskId : String) : Bool :=
  if fromTaskId = toTaskId then true
  else search edges fromTaskId (edges.length + 1) [toTaskId] []

theorem wouldCreateCycle_iff {edges : List (String × String)} {fromTaskId toTaskId : String} :
    wouldCreateCycle edges fromTaskId toTaskId = true ↔ Reaches edges toTaskId fromTaskId := by
  unfold wouldCreateCycle
  split
  · rename_i same
    rw [same]
    exact ⟨fun _ => .refl, fun _ => rfl⟩
  · exact search_iff

theorem wouldCreateCycle_eq_false {edges : List (String × String)} {fromTaskId toTaskId : String} :
    wouldCreateCycle edges fromTaskId toTaskId = false ↔ ¬ Reaches edges toTaskId fromTaskId := by
  rw [← wouldCreateCycle_iff, Bool.not_eq_true]

end Artoo.Domain
