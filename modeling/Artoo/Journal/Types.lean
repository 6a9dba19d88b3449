import Artoo.Protocol.RunEvent

/-! Rows, receipts, replies and errors of the node's durable run journal.
The namespace and node columns hold one constant per journal and are not stored. -/
namespace Artoo.Journal
open Artoo.Protocol

def maxSequence : Nat := Nat.pow 2 31 - 1
def maxBacklog : Nat := 10000
def receiptWindowMs : Nat := 30000
def maxAttempts : Nat := 3
/-- `Number.MAX_SAFE_INTEGER`. -/
def maxSafeInteger : Nat := Nat.pow 2 53 - 1

inductive RunMode where
  | perRun | legacy | fenced
  deriving DecidableEq, Repr

inductive DurablePhase where
  | admitted | preparing | launchIntent | started | closed
  deriving DecidableEq, Repr

/-- Position of a phase in the only order the worker moves it. -/
def DurablePhase.rank : DurablePhase → Nat
  | .admitted => 0 | .preparing => 1 | .launchIntent => 2 | .started => 3 | .closed => 4

inductive ReceiptKind where
  | accepted | notStartedFenced | runFencedUnbound | processExitConfirmed
  deriving DecidableEq, Repr

inductive EventRole where
  | event | originalRetention | originalTerminal | correctionRetention | correctionTerminal
  deriving DecidableEq, Repr

inductive DeliveryFailureReason where
  | rejected | transportFailure | receiptTimeout
  deriving DecidableEq, Repr

inductive DeliveryState where
  | pending | correcting | delivered | blocked
  deriving DecidableEq, Repr

/-- The column type `0 | 1` of the delivery revision. -/
inductive Revision where
  | zero | one
  deriving DecidableEq, Repr

inductive ProofSource where
  | returnedHandle | startupError
  deriving DecidableEq, Repr

inductive ReceiptStatus where
  | accepted | rejected
  deriving DecidableEq, Repr

structure LiveDeliveryAbort where
  code : String
  message : String
  sequence : Option Nat
  attemptId : Option String
  deriving DecidableEq, Repr

/-- The durable outcome text: the terminal lifecycle and the retention report. -/
structure FinalOutcome where
  terminal : RunLifecyclePayload
  retained : RunWorkspaceRetainedPayload
  deriving DecidableEq, Repr

structure EventIdentity where
  eventId : String
  sequence : Nat
  contentSha256 : String
  deriving DecidableEq, Repr

structure CorrectionTrigger where
  sequence : Nat
  attemptId : String
  reason : DeliveryFailureReason
  deriving DecidableEq, Repr

/-- The revision field is the literal 1 and is not stored. -/
structure DeliveryCorrection where
  id : String
  physicalReceiptId : Option String
  trigger : CorrectionTrigger
  retention : EventIdentity
  terminal : EventIdentity
  deriving DecidableEq, Repr

inductive ReceiptDetail where
  | permanentFence
  | startup
  | settlement (producer : Json) (proofSource : ProofSource) (outcome : FinalOutcome)
      (events : List EventIdentity)
  deriving DecidableEq

structure ReceiptRow where
  id : String
  runId : String
  launchKey : Option String
  ownerRevision : Nat
  kind : ReceiptKind
  detail : ReceiptDetail
  deriving DecidableEq

structure RunRow where
  runId : String
  mode : RunMode
  launchKey : Option String
  canonicalPayload : Option String
  ownerNonce : Option String
  ownerIncarnation : Option String
  revision : Nat := 1
  phase : DurablePhase
  stopRequested : Bool
  nextSequence : Nat := 0
  receiptId : Option String := none
  finalOutcome : Option FinalOutcome := none
  deliveryRevision : Revision := .zero
  deliveryState : DeliveryState := .pending
  deliveryCorrection : Option DeliveryCorrection := none
  deliveryClockUnknown : Bool := false
  liveAbort : Option LiveDeliveryAbort := none
  committedCount : Nat := 0
  supersededCount : Nat := 0
  deriving DecidableEq

structure Attempt where
  id : String
  revision : Revision
  claimedTickMs : Nat
  failure : Option DeliveryFailureReason
  accepted : Bool
  deriving DecidableEq, Repr

/-- `failure === null && !accepted`: neither acknowledged nor given up. -/
def Attempt.pending (a : Attempt) : Bool := a.failure.isNone && !a.accepted

/-- `failure !== null || accepted`. -/
def Attempt.resolved (a : Attempt) : Bool := a.failure.isSome || a.accepted

structure EventRow where
  runId : String
  sequence : Nat
  eventId : String
  content : NodeRunEvent
  contentSha256 : String
  committed : Bool := false
  role : EventRole
  superseded : Bool := false
  attempts : List Attempt := []
  deadlineTickMs : Option Nat := none
  clockId : Option String := none
  exhausted : Bool := false
  deriving DecidableEq

/-- `committed=0 AND superseded=0`. -/
def EventRow.active (e : EventRow) : Bool := !e.committed && !e.superseded

inductive Ownership where
  | localClaim | unknown | fenced
  deriving DecidableEq, Repr

structure JournalRun where
  runId : String
  mode : RunMode
  launchKey : Option String
  revision : Nat
  phase : DurablePhase
  stopRequested : Bool
  ownership : Ownership
  receipt : Option ReceiptRow
  finalOutcome : Option FinalOutcome
  liveAbort : Option LiveDeliveryAbort
  deriving DecidableEq

structure StoredEvent where
  runId : String
  sequence : Nat
  eventId : String
  content : NodeRunEvent
  contentSha256 : String
  committed : Bool
  role : EventRole
  superseded : Bool
  deriving DecidableEq

inductive LiveState where
  | pending | waiting | stopRequired
  deriving DecidableEq, Repr

structure LiveDeliveryView where
  state : LiveState
  abort : Option LiveDeliveryAbort
  deriving DecidableEq, Repr

structure ClosedRunDeliveryView where
  revision : Revision
  state : DeliveryState
  originalOutcome : Option FinalOutcome
  physicalReceiptId : Option String
  correction : Option DeliveryCorrection
  committed : Nat
  superseded : Nat
  outstanding : Nat
  possibleCompletedExposure : Bool
  deriving DecidableEq, Repr

/-- The `kind: "claimed"` answer of both claim operations. -/
structure DeliveryClaim where
  event : StoredEvent
  attemptId : String
  revision : Revision
  clockId : Option String
  deadlineTickMs : Nat
  deriving DecidableEq

inductive LiveClaimReply where
  | claimed (claim : DeliveryClaim)
  | waiting (view : LiveDeliveryView)
  | stopRequired (view : LiveDeliveryView)
  deriving DecidableEq

inductive ClosedClaimKind where
  | blocked | complete | waiting
  deriving DecidableEq, Repr

inductive ClosedClaimReason where
  | delivered | clockContinuityUnknown | awaitingExistingAttempt
  | completedRetentionNotAccepted | state (s : DeliveryState)
  deriving DecidableEq, Repr

inductive ClosedClaimReply where
  | claimed (claim : DeliveryClaim)
  | other (kind : ClosedClaimKind) (reason : ClosedClaimReason) (view : ClosedRunDeliveryView)
  deriving DecidableEq

inductive AdmissionKind where
  | fresh | pending | replay | conflict | fenced | unknown
  deriving DecidableEq, Repr

inductive AppendReply where
  | stored (event : StoredEvent) (revision : Nat)
  | conflict (event : StoredEvent) (revision : Nat)
  | closedOrAborted
  | full
  deriving DecidableEq

inductive Reply where
  | lookup (run : Option JournalRun)
  | admission (kind : AdmissionKind) (run : JournalRun)
  | advanced (run : JournalRun)
  | blocked (run : JournalRun)
  | stopConflict (run : JournalRun)
  | stoppedIntent (run : JournalRun)
  | recorded (run : JournalRun)
  | settled (run : JournalRun)
  | append (reply : AppendReply)
  | pending (events : List StoredEvent)
  | liveView (view : LiveDeliveryView)
  | liveClaim (reply : LiveClaimReply)
  | delivery (view : ClosedRunDeliveryView)
  | deliveryClaim (reply : ClosedClaimReply)
  deriving DecidableEq

/-- Every `throw` of the worker, the SQL constraints and the storage failures. -/
inductive JournalError where
  | receiptReferenceMissing | closedWithoutFence | closureWithoutOutcome
  | closureWithoutTerminalEvent | notOwner | digestDiffers | activeBoundExceeded
  | invalidAttemptHistory | closedScopeDiffers | correctionRevisionDiffers
  | correctionIdentityDiffers | incompleteCorrection | correctionCapacity
  | timeoutTooEarly | notLiveOwner | startupNotDurable | liveEventMissing
  | liveClaimMissing | liveTimeoutTooEarly | terminalInLiveDelivery | claimedAttemptMissing
  | receiptIdentityDiffers | deadlineWithoutAttempt | budgetDiffers | expiredClaim
  | abortForbidsCompleted | settlementDiffers | noProducerStage | eventContentsMissing
  | settlementCapacity | clockContinuity | outcomeMissing
  | constraint | storage | boundary | unavailable
  deriving DecidableEq, Repr

namespace JournalError

/-- The texts of the source. The last five come from the runtime or SQLite. -/
def message : JournalError → String
  | receiptReferenceMissing => "Journal receipt reference is missing"
  | closedWithoutFence => "Closed journal row lacks its durable fence receipt"
  | closureWithoutOutcome => "Physical closure lacks a durable terminal outcome"
  | closureWithoutTerminalEvent => "Physical closure lacks an exact required terminal event"
  | notOwner => "Journal mutation lacks this process's exact fresh claim"
  | digestDiffers => "Journal event content digest differs"
  | activeBoundExceeded => "Active outbox bound exceeded"
  | invalidAttemptHistory => "Invalid durable delivery attempt history"
  | closedScopeDiffers =>
    "Closed-run delivery requires an exact durable physical settlement, key and receipt"
  | correctionRevisionDiffers => "Delivery correction revision differs"
  | correctionIdentityDiffers => "Delivery correction identity differs"
  | incompleteCorrection => "Incomplete atomic delivery correction"
  | correctionCapacity => "Reserved correction capacity/sequence is unavailable"
  | timeoutTooEarly => "A receipt timeout requires the original elapsed monotonic deadline"
  | notLiveOwner => "Live delivery requires this current fresh owner before physical settlement"
  | startupNotDurable => "Live delivery requires authenticated durable startup"
  | liveEventMissing => "Live receipt event is missing"
  | liveClaimMissing => "Live receipt lacks an exact durable claim"
  | liveTimeoutTooEarly => "Live timeout requires its original elapsed deadline"
  | terminalInLiveDelivery => "Terminal event cannot enter live delivery"
  | claimedAttemptMissing => "Receipt/failure has no exact durable claimed attempt"
  | receiptIdentityDiffers => "Receipt identity differs from its durable claimed event"
  | deadlineWithoutAttempt => "Deadline has no claimed attempt"
  | budgetDiffers => "Delivery attempt budget differs from exhaustion state"
  | expiredClaim => "Expired delivery cannot receive a new claim"
  | abortForbidsCompleted => "Live delivery abort forbids completed settlement"
  | settlementDiffers => "An immutable terminal settlement already differs"
  | noProducerStage => "Physical settlement has no corresponding owned producer stage"
  | eventContentsMissing => "Two required terminal event contents are necessary"
  | settlementCapacity => "Required terminal events cannot be durably allocated"
  | clockContinuity => "Delivery monotonic clock continuity failed"
  | outcomeMissing => "Cannot read properties of null (reading 'terminal')"
  | constraint => "constraint failed"
  | storage => "disk I/O error"
  | boundary => "Journal namespace path identity changed; continuity is unknown"
  | unavailable => "Journal remains unavailable after a storage error"

/-- The throws that report an inconsistent journal, as opposed to a refused request, a clock
that runs backwards or a failing disk. -/
def consistency : JournalError → Bool
  | receiptReferenceMissing | closedWithoutFence | closureWithoutOutcome
  | closureWithoutTerminalEvent | digestDiffers | activeBoundExceeded | invalidAttemptHistory
  | correctionRevisionDiffers | correctionIdentityDiffers | incompleteCorrection
  | correctionCapacity | terminalInLiveDelivery | deadlineWithoutAttempt | budgetDiffers
  | expiredClaim | settlementCapacity | outcomeMissing | constraint => true
  | _ => false

end JournalError

end Artoo.Journal
