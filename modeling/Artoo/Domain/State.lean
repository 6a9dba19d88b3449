import Mathlib.Data.Fintype.OfMap

/-! The task, run and approval state machines. -/
namespace Artoo.Domain

inductive TaskStatus where
  | backlog | ready | assigned | running | awaitingApproval | blocked | review | done | cancelled
  deriving DecidableEq, Repr

def TaskStatus.name : TaskStatus → String
  | .backlog => "backlog" | .ready => "ready" | .assigned => "assigned" | .running => "running"
  | .awaitingApproval => "awaiting_approval" | .blocked => "blocked" | .review => "review"
  | .done => "done" | .cancelled => "cancelled"

inductive TaskTrigger where
  | triage | assign | runStarted | assignFailedRetryable | assignFailedPermission
  | approvalRequested | approvalGranted | approvalRejected | runCompleted | runFailed
  | retry | accept | requestChanges | cancel
  deriving DecidableEq, Repr

structure TaskTransition where
  source : TaskStatus
  target : TaskStatus
  trigger : TaskTrigger
  reentrant : Bool
  deriving DecidableEq, Repr

def taskStatuses : List TaskStatus :=
  [.backlog, .ready, .assigned, .running, .awaitingApproval, .blocked, .review, .done, .cancelled]

instance : Fintype TaskStatus := .ofList taskStatuses (by intro s; cases s <;> decide)

def taskTerminal : List TaskStatus := [.done, .cancelled]

def taskNonTerminal : List TaskStatus := taskStatuses.filter fun s => !taskTerminal.contains s

def taskTransitions : List TaskTransition :=
  [⟨.backlog, .ready, .triage, false⟩,
   ⟨.ready, .assigned, .assign, false⟩,
   ⟨.assigned, .running, .runStarted, false⟩,
   ⟨.assigned, .ready, .assignFailedRetryable, true⟩,
   ⟨.assigned, .blocked, .assignFailedPermission, false⟩,
   ⟨.running, .awaitingApproval, .approvalRequested, false⟩,
   ⟨.awaitingApproval, .running, .approvalGranted, false⟩,
   ⟨.awaitingApproval, .blocked, .approvalRejected, false⟩,
   ⟨.running, .review, .runCompleted, false⟩,
   ⟨.running, .blocked, .runFailed, false⟩,
   ⟨.awaitingApproval, .blocked, .runFailed, false⟩,
   ⟨.blocked, .ready, .retry, true⟩,
   ⟨.review, .done, .accept, false⟩,
   ⟨.review, .ready, .requestChanges, true⟩] ++
  taskNonTerminal.map fun s => ⟨s, .cancelled, .cancel, false⟩

def findTaskTransition (s : TaskStatus) (trigger : TaskTrigger) : Option TaskTransition :=
  taskTransitions.find? fun t => t.source == s && t.trigger == trigger

def canTransitionTask (s : TaskStatus) (trigger : TaskTrigger) : Bool :=
  (findTaskTransition s trigger).isSome

/-- `none` is the `InvalidTransitionError`. -/
def applyTaskTransition (s : TaskStatus) (trigger : TaskTrigger) : Option TaskStatus :=
  (findTaskTransition s trigger).map TaskTransition.target

inductive RunStatus where
  | queued | starting | running | awaitingInput | paused | completed | failed | cancelled
  deriving DecidableEq, Repr

def RunStatus.name : RunStatus → String
  | .queued => "queued" | .starting => "starting" | .running => "running"
  | .awaitingInput => "awaiting_input" | .paused => "paused" | .completed => "completed"
  | .failed => "failed" | .cancelled => "cancelled"

inductive RunTrigger where
  | start | processStarted | startFailed | runCompleted | runFailed | cancel
  | inputRequested | inputProvided | pause | resume
  deriving DecidableEq, Repr

structure RunTransition where
  source : RunStatus
  target : RunStatus
  trigger : RunTrigger
  deriving DecidableEq, Repr

instance : Fintype RunStatus :=
  .ofList [.queued, .starting, .running, .awaitingInput, .paused, .completed, .failed, .cancelled]
    (by intro s; cases s <;> decide)

def runTerminal : List RunStatus := [.completed, .failed, .cancelled]

def runTransitions : List RunTransition :=
  [⟨.queued, .starting, .start⟩,
   ⟨.queued, .cancelled, .cancel⟩,
   ⟨.starting, .running, .processStarted⟩,
   ⟨.starting, .failed, .startFailed⟩,
   ⟨.starting, .cancelled, .cancel⟩,
   ⟨.running, .completed, .runCompleted⟩,
   ⟨.running, .failed, .runFailed⟩,
   ⟨.running, .cancelled, .cancel⟩,
   ⟨.running, .awaitingInput, .inputRequested⟩,
   ⟨.awaitingInput, .running, .inputProvided⟩,
   ⟨.awaitingInput, .cancelled, .cancel⟩,
   ⟨.awaitingInput, .failed, .runFailed⟩,
   ⟨.running, .paused, .pause⟩,
   ⟨.paused, .running, .resume⟩,
   ⟨.paused, .cancelled, .cancel⟩,
   ⟨.paused, .failed, .runFailed⟩]

def isRunTerminal (s : RunStatus) : Bool := runTerminal.contains s

def findRunTransition (s : RunStatus) (trigger : RunTrigger) : Option RunTransition :=
  runTransitions.find? fun t => t.source == s && t.trigger == trigger

def canTransitionRun (s : RunStatus) (trigger : RunTrigger) : Bool :=
  (findRunTransition s trigger).isSome

def applyRunTransition (s : RunStatus) (trigger : RunTrigger) : Option RunStatus :=
  (findRunTransition s trigger).map RunTransition.target

/-- Exactly the runs that have not ended can be cancelled, and they end cancelled. -/
theorem run_cancel (s : RunStatus) :
    applyRunTransition s .cancel = if isRunTerminal s then none else some .cancelled := by
  cases s <;> rfl

inductive ApprovalStatus where
  | pending | approved | rejected | needsMoreInfo | expired
  deriving DecidableEq, Repr

def ApprovalStatus.name : ApprovalStatus → String
  | .pending => "pending" | .approved => "approved" | .rejected => "rejected"
  | .needsMoreInfo => "needs_more_info" | .expired => "expired"

inductive ApprovalTrigger where
  | approve | reject | needMoreInfo | expire
  deriving DecidableEq, Repr

structure ApprovalTransition where
  source : ApprovalStatus
  target : ApprovalStatus
  trigger : ApprovalTrigger
  deriving DecidableEq, Repr

def approvalTransitions : List ApprovalTransition :=
  [⟨.pending, .approved, .approve⟩,
   ⟨.pending, .rejected, .reject⟩,
   ⟨.pending, .needsMoreInfo, .needMoreInfo⟩,
   ⟨.pending, .expired, .expire⟩,
   ⟨.needsMoreInfo, .approved, .approve⟩,
   ⟨.needsMoreInfo, .rejected, .reject⟩,
   ⟨.needsMoreInfo, .expired, .expire⟩]

def findApprovalTransition (s : ApprovalStatus) (trigger : ApprovalTrigger) :
    Option ApprovalTransition :=
  approvalTransitions.find? fun t => t.source == s && t.trigger == trigger

def canTransitionApproval (s : ApprovalStatus) (trigger : ApprovalTrigger) : Bool :=
  (findApprovalTransition s trigger).isSome

def applyApprovalTransition (s : ApprovalStatus) (trigger : ApprovalTrigger) :
    Option ApprovalStatus :=
  (findApprovalTransition s trigger).map ApprovalTransition.target

end Artoo.Domain
