import Artoo.Journal.Store

/-! The worker's operations on the open database, statement by statement. An error
discards the database built so far: that is the rollback of the transaction. -/
namespace Artoo.Journal
open Artoo.Protocol

/-- What one command reads besides the database: the constants of the open worker, the
random id it would draw and the raw readings its clock would return. -/
structure Worker where
  incarnation : String
  clockId : Option String
  digest : NodeRunEvent → String
  uuid : String
  hrtime : Nat → Nat

/-- `run(value.run_id)!`: rows are never deleted. -/
def rerun (db : Database) (value : RunRow) : RunRow := (db.runs value.runId).getD value

def receipt (db : Database) : Option String → Except JournalError (Option ReceiptRow)
  | none => .ok none
  | some id =>
    match db.receipts id with
    | none => .error .receiptReferenceMissing
    | some value => .ok (some value)

def event (w : Worker) (value : EventRow) : Except JournalError StoredEvent :=
  if w.digest value.content ≠ value.contentSha256 then .error .digestDiffers
  else .ok { runId := value.runId, sequence := value.sequence, eventId := value.eventId,
             content := value.content, contentSha256 := value.contentSha256,
             committed := value.committed, role := value.role, superseded := value.superseded }

/-- One pass of the loop in `view` over the two settlement rows. -/
def checkSettled (w : Worker) (db : Database) (value : RunRow) (key : String) (suffix : Suffix)
    (expected : NodeRunEvent) : Except JournalError StoredEvent :=
  match db.findEvent value.runId (settlementEventId key suffix) with
  | none => .error .closureWithoutTerminalEvent
  | some saved =>
    if saved.content ≠ expected then .error .closureWithoutTerminalEvent else event w saved

/-- The check of `view` on a physically closed run. -/
def checkClosure (w : Worker) (db : Database) (value : RunRow) : Except JournalError Unit :=
  match value.finalOutcome, value.launchKey with
  | some outcome, some key =>
    if key = "" then .error .closureWithoutOutcome
    else do
      let _ ← checkSettled w db value key .retained (.workspaceRetained outcome.retained)
      let _ ← checkSettled w db value key .terminal (.lifecycle outcome.terminal)
      .ok ()
  | _, _ => .error .closureWithoutOutcome

def view (w : Worker) (db : Database) (value : RunRow) : Except JournalError JournalRun := do
  let recorded ← receipt db value.receiptId
  let kind := recorded.map (·.kind)
  if value.phase = .closed ∧ (kind = none ∨ kind = some .accepted) then .error .closedWithoutFence
  else do
    let _ ← if kind = some .processExitConfirmed then checkClosure w db value else .ok ()
    .ok { runId := value.runId, mode := value.mode, launchKey := value.launchKey,
          revision := value.revision, phase := value.phase, stopRequested := value.stopRequested,
          ownership := if value.phase = .closed then .fenced
            else if value.ownerIncarnation = some w.incarnation then .localClaim else .unknown,
          receipt := recorded, finalOutcome := value.finalOutcome, liveAbort := value.liveAbort }

/-- The credentials `inputFor` puts into every command of a permit. -/
structure Owner where
  runId : String
  nonce : String
  key : String
  deriving DecidableEq, Repr

def owned (w : Worker) (db : Database) (input : Owner) : Except JournalError RunRow :=
  match db.runs input.runId with
  | none => .error .notOwner
  | some value =>
    if value.ownerIncarnation ≠ some w.incarnation ∨ value.ownerNonce ≠ some input.nonce ∨
        value.launchKey ≠ some input.key then .error .notOwner
    else .ok value

def insertReceipt (w : Worker) (db : Database) (value : RunRow) (kind : ReceiptKind)
    (detail : ReceiptDetail) : Except JournalError Database := do
  let db ← db.insertReceiptRow
    { id := w.uuid, runId := value.runId, launchKey := value.launchKey,
      ownerRevision := value.revision, kind := kind, detail := detail }
  .ok (db.updateRun value.runId ({ · with receiptId := some w.uuid }))

/-- The original settlement row of one suffix, once the run is closed. -/
def originalRow (db : Database) (runId : String) (suffix : Suffix) : Option EventRow :=
  match db.runs runId with
  | none => none
  | some current =>
    match current.launchKey with
    | none => none
    | some key =>
      if key = "" ∨ current.phase ≠ .closed then none
      else db.findEvent runId (settlementEventId key suffix)

/-- Active backlog is bounded even when committed live history grows. -/
def runEvents (db : Database) (runId : String) : Except JournalError (List EventRow) :=
  let active := (orderBySequence ((db.outbox runId).filter EventRow.active)).take (maxBacklog + 1)
  if maxBacklog < active.length then .error .activeBoundExceeded
  else
    let original := Suffix.all.filterMap (originalRow db runId)
    .ok (orderBySequence ((active ++ original).foldl mapSet []))

def attempts (value : EventRow) : Except JournalError (List Attempt) :=
  let saved := value.attempts
  if maxAttempts < saved.length ∨ ¬ (saved.map (·.id)).Nodup ∨
      saved.any (fun a => a.id == "" || decide (maxSafeInteger < a.claimedTickMs)) ∨
      (saved ≠ [] ∧ (value.clockId = none ∨ value.deadlineTickMs = none)) then
    .error .invalidAttemptHistory
  else .ok saved

/-- The identity of a closed run that a delivery command carries. -/
structure ClosedScope where
  runId : String
  key : String
  physicalReceiptId : Option String
  deriving DecidableEq, Repr

def closedRun (w : Worker) (db : Database) (input : ClosedScope) : Except JournalError RunRow :=
  match db.runs input.runId with
  | none => .error .closedScopeDiffers
  | some value =>
    if value.phase ≠ .closed ∨ value.mode ≠ .perRun ∨ value.launchKey ≠ some input.key ∨
        value.receiptId ≠ input.physicalReceiptId then .error .closedScopeDiffers
    else do
      let viewed ← view w db value
      if viewed.receipt.map (·.kind) ≠ some .processExitConfirmed then .error .closedScopeDiffers
      else .ok value

/-- One pass of the loop in `correction` over the two correction rows. -/
def checkCorrectionRow (w : Worker) (db : Database) (value : RunRow) (role : EventRole)
    (identity : EventIdentity) : Except JournalError StoredEvent :=
  match db.findSequence value.runId identity.sequence with
  | none => .error .incompleteCorrection
  | some saved =>
    if saved.role ≠ role ∨ saved.eventId ≠ identity.eventId ∨
        saved.contentSha256 ≠ identity.contentSha256 then .error .incompleteCorrection
    else event w saved

def correction (w : Worker) (db : Database) (value : RunRow) :
    Except JournalError (Option DeliveryCorrection) :=
  match value.deliveryCorrection with
  | none => if value.deliveryRevision = .zero then .ok none else .error .correctionRevisionDiffers
  | some saved =>
    if value.deliveryRevision = .zero then .error .correctionRevisionDiffers
    else if saved.id ≠ correctionId (value.receiptId.getD "null") ∨
        saved.physicalReceiptId ≠ value.receiptId then .error .correctionIdentityDiffers
    else do
      let _ ← checkCorrectionRow w db value .correctionRetention saved.retention
      let _ ← checkCorrectionRow w db value .correctionTerminal saved.terminal
      .ok (some saved)

def clockHealthy (w : Worker) (events : List EventRow) : Bool :=
  w.clockId.isSome && events.all fun e =>
    e.committed || e.superseded || e.clockId.isNone || e.clockId == w.clockId

/-- `tickMs()`: a reading below the last one of this process is refused. -/
def tickMs (w : Worker) (reading last : Nat) : Except JournalError Nat :=
  let now := w.hrtime reading
  if maxSafeInteger < now ∨ now < last then .error .clockContinuity else .ok now

/-- `JSON.parse(content).payload.phase === "completed"`. -/
def completedContent : NodeRunEvent → Bool
  | .lifecycle payload => payload.phase == .completed
  | _ => false

/-- `for (const e of events) { event(e); attempts(e); }`. -/
def checkEvents (w : Worker) : List EventRow → Except JournalError Unit
  | [] => .ok ()
  | e :: rest => do
    let _ ← event w e
    let _ ← attempts e
    checkEvents w rest

/-- The state of the outstanding rows `active`, given the durable clock latch. -/
def deliveryState (unknown : Bool) (active : List EventRow) (corrected : Bool) : DeliveryState :=
  if active.isEmpty then .delivered
  else if unknown || active.all (·.exhausted) then .blocked
  else if corrected then .correcting else .pending

def deliveryView (w : Worker) (db : Database) (value : RunRow) :
    Except JournalError (ClosedRunDeliveryView × Database) := do
  let saved ← correction w db value
  let events ← runEvents db value.runId
  let active := events.filter EventRow.active
  let _ ← checkEvents w events
  let latched := !active.isEmpty && !clockHealthy w active
  let db := if latched then
      db.updateRun value.runId ({ · with deliveryClockUnknown := true })
    else db
  let state := deliveryState (value.deliveryClockUnknown || latched) active saved.isSome
  let db := db.updateRun value.runId ({ · with deliveryState := state })
  .ok ({ revision := value.deliveryRevision, state := state, originalOutcome := value.finalOutcome,
         physicalReceiptId := value.receiptId, correction := saved,
         committed := value.committedCount, superseded := value.supersededCount,
         outstanding := active.length,
         possibleCompletedExposure := events.any fun e =>
           e.role == .originalTerminal && !e.attempts.isEmpty && completedContent e.content }, db)

def persistAttempts (db : Database) (value : EventRow) (saved : List Attempt)
    (exhausted : Option Bool) : Database :=
  db.updateOutbox value.runId (·.sequence == value.sequence) fun e =>
    { e with attempts := saved, exhausted := exhausted.getD e.exhausted }

def commitEvent (db : Database) (value : EventRow) : Database :=
  let target := fun e : EventRow => e.sequence == value.sequence && !e.committed
  let changed := db.changes value.runId target
  let db := db.updateOutbox value.runId target ({ · with committed := true })
  if changed = 1 then
    db.updateRun value.runId fun row => { row with committedCount := row.committedCount + 1 }
  else db

/-- Both contents a correction writes, in order. -/
def correctionContent (original : FinalOutcome) : Suffix → NodeRunEvent
  | .retained => .workspaceRetained { original.retained with outcome := .incompleteDelivery }
  | .terminal => .lifecycle { phase := .failed, reason := .value "incomplete_delivery" }

def correctionRole : Suffix → EventRole
  | .retained => .correctionRetention
  | .terminal => .correctionTerminal

def Suffix.index : Suffix → Nat
  | .retained => 0
  | .terminal => 1

/-- The row the correction inserts for one suffix. -/
def correctionRow (digest : NodeRunEvent → String) (value : RunRow) (original : FinalOutcome)
    (suffix : Suffix) : EventRow :=
  { runId := value.runId, sequence := value.nextSequence + suffix.index,
    eventId := correctionEventId (value.receiptId.getD "null") suffix,
    content := correctionContent original suffix,
    contentSha256 := digest (correctionContent original suffix),
    role := correctionRole suffix }

def EventRow.identity (e : EventRow) : EventIdentity := ⟨e.eventId, e.sequence, e.contentSha256⟩

/-- The settlement row's id as the correction addresses it. -/
def originalEventId (value : RunRow) (suffix : Suffix) : String :=
  settlementEventId (value.launchKey.getD "null") suffix

/-- One `UPDATE outbox SET superseded=1` with the number of rows it changed. -/
def supersede (db : Database) (runId : String) (where_ : EventRow → Bool) : Nat × Database :=
  (db.changes runId where_, db.updateOutbox runId where_ ({ · with superseded := true }))

/-- The updates that take the old rows out of delivery. Committed settlement rows are reached
through their event ids. -/
def supersedeOld (db : Database) (value : RunRow) : Nat × Database :=
  let (active, db) := supersede db value.runId fun e =>
    e.active && decide (e.sequence < value.nextSequence)
  let (retained, db) := supersede db value.runId fun e =>
    e.eventId == originalEventId value .retained && !e.superseded
  let (last, db) := supersede db value.runId fun e =>
    e.eventId == originalEventId value .terminal && !e.superseded
  (active + retained + last, db)

def createCorrection (w : Worker) (db : Database) (value : RunRow) (trigger : EventRow)
    (attempt : Attempt) (reason : DeliveryFailureReason) : Except JournalError Database :=
  if value.deliveryRevision ≠ .zero then .ok db
  else match value.finalOutcome with
  | none => .error .outcomeMissing
  | some original =>
    if original.terminal.phase ≠ .completed then .ok db
    else do
      let events ← runEvents db value.runId
      let pending := (events.filter EventRow.active).length
      if maxBacklog - 2 < pending ∨ maxSequence - 1 < value.nextSequence then
        .error .correctionCapacity
      else do
        let retention := correctionRow w.digest value original .retained
        let terminal := correctionRow w.digest value original .terminal
        let db ← db.insertOutbox retention
        let db ← db.insertOutbox terminal
        let saved : DeliveryCorrection :=
          { id := correctionId (value.receiptId.getD "null"), physicalReceiptId := value.receiptId,
            trigger := ⟨trigger.sequence, attempt.id, reason⟩,
            retention := retention.identity, terminal := terminal.identity }
        let (superseded, db) := supersedeOld db value
        let db := db.updateRun value.runId fun row =>
          { row with supersededCount := row.supersededCount + superseded }
        .ok (db.updateRun value.runId fun row =>
          { row with deliveryRevision := .one, deliveryState := .correcting,
                     deliveryCorrection := some saved, nextSequence := row.nextSequence + 2 })

/-- `if (attempt.failure === null) attempt.failure = reason` on the parsed history. -/
def markFailure (saved : List Attempt) (id : String) (reason : DeliveryFailureReason) :
    List Attempt :=
  saved.map fun a => if a.id == id then { a with failure := a.failure.or (some reason) } else a

/-- `attempt.accepted = true` on the parsed history. -/
def markAccepted (saved : List Attempt) (id : String) : List Attempt :=
  saved.map fun a => if a.id == id then { a with accepted := true } else a

/-- `saved.length >= maxAttempts && saved.every((a) => a.failure !== null || a.accepted)`. -/
def spent (saved : List Attempt) : Bool := decide (maxAttempts ≤ saved.length) && saved.all (·.resolved)

/-- The delivery revision is 0 and the stored outcome is completed. -/
def completedPath (value : RunRow) : Bool :=
  value.deliveryRevision == .zero && value.finalOutcome.any (·.terminal.phase == .completed)

/-- Returns the history as the caller's array holds it afterwards. -/
def failAttempt (w : Worker) (db : Database) (value : RunRow) (target : EventRow)
    (saved : List Attempt) (attempt : Attempt) (reason : DeliveryFailureReason) (now : Nat) :
    Except JournalError (Database × List Attempt) :=
  if reason = .receiptTimeout ∧ (target.clockId = none ∨ target.clockId ≠ w.clockId ∨
      target.deadlineTickMs = none ∨ now < target.deadlineTickMs.getD 0) then .error .timeoutTooEarly
  else if target.committed || attempt.accepted then .ok (db, saved)
  else if value.deliveryRevision = .zero ∧ value.finalOutcome = none then .error .outcomeMissing
  else
    let saved := markFailure saved attempt.id reason
    let exhausted := (reason == .rejected && completedPath value) ||
      decide (target.deadlineTickMs.getD 0 ≤ now) || spent saved || target.exhausted
    let db := persistAttempts db target saved (some exhausted)
    if !target.superseded && exhausted then do
      let db ← createCorrection w db value target attempt reason
      .ok (db, saved)
    else .ok (db, saved)

def liveView (value : RunRow) : LiveDeliveryView :=
  { state := if value.liveAbort.isSome || value.stopRequested then .stopRequired else .pending,
    abort := value.liveAbort }

/-- The first cause is kept. -/
def latchAbort (db : Database) (value : RunRow) (cause : LiveDeliveryAbort) : Database :=
  if value.liveAbort.isNone then
    db.updateRun value.runId ({ · with liveAbort := some cause, stopRequested := true })
  else db

def DeliveryFailureReason.text : DeliveryFailureReason → String
  | .rejected => "rejected"
  | .transportFailure => "transport_failure"
  | .receiptTimeout => "receipt_timeout"

/-- What a receipt or a reported failure says about one claimed attempt. A failure carries
no content hash. -/
structure Settle where
  sequence : Nat
  attemptId : String
  hash : Option String
  accepted : Bool
  reason : DeliveryFailureReason
  deriving DecidableEq, Repr

def Settle.receipt (sequence : Nat) (hash attemptId : String) (status : ReceiptStatus) : Settle :=
  ⟨sequence, attemptId, some hash, status == .accepted, .rejected⟩

def Settle.failure (sequence : Nat) (attemptId : String) (reason : DeliveryFailureReason) : Settle :=
  ⟨sequence, attemptId, none, false, reason⟩

/-- The database state and the last clock reading of the process. -/
structure Tx where
  db : Database
  last : Nat

def liveCause (target : EventRow) (attempt : Attempt) (code message : String) : LiveDeliveryAbort :=
  ⟨code, message, some target.sequence, some attempt.id⟩

/-- Both latches of a live receipt or failure: an unknown clock, then an expired deadline. -/
def latchLive (db : Database) (value : RunRow) (healthy expired : Bool) (target : EventRow)
    (attempt : Attempt) : Database :=
  let db := if healthy then db
    else latchAbort (db.updateRun value.runId ({ · with deliveryClockUnknown := true })) value
      (liveCause target attempt "clock_unknown" "Live delivery clock continuity is unknown")
  if !target.committed && expired then
    latchAbort db (rerun db value)
      (liveCause target attempt "receipt_timeout" "Live event receipt deadline expired")
  else db

/-- `live_receipt` and `live_failure` once the run is known to be started. -/
def liveSettle (w : Worker) (db : Database) (value : RunRow) (healthy : Bool) (now : Nat)
    (s : Settle) : Except JournalError Database :=
  match db.findSequence value.runId s.sequence with
  | none => .error .liveEventMissing
  | some target =>
    if target.role ≠ .event then .error .liveEventMissing
    else do
      let _ ← event w target
      let saved ← attempts target
      match saved.find? (·.id == s.attemptId) with
      | none => .error .liveClaimMissing
      | some attempt =>
        if s.hash.any (· != target.contentSha256) then .error .liveClaimMissing
        else
          let expired := healthy && target.deadlineTickMs.any (decide <| · ≤ now)
          let db := latchLive db value healthy expired target attempt
          if s.accepted then
            .ok (commitEvent (persistAttempts db target (markAccepted saved attempt.id) none) target)
          else if target.committed || attempt.accepted then .ok db
          else if s.reason = .receiptTimeout ∧ healthy ∧ ¬ expired then .error .liveTimeoutTooEarly
          else
            let saved := markFailure saved attempt.id s.reason
            let exhausted := expired || s.reason == .rejected || spent saved
            let db := persistAttempts db target saved (some (exhausted || target.exhausted))
            .ok (if exhausted then
                latchAbort db (rerun db value)
                  (liveCause target attempt s.reason.text "Live event delivery failed")
              else db)

/-- The columns a claim writes. -/
def claimRow (w : Worker) (db : Database) (value : RunRow) (target : EventRow) (attempt : Attempt)
    (deadline : Nat) : Database :=
  db.updateOutbox value.runId (·.sequence == target.sequence) fun e =>
    { e with attempts := target.attempts ++ [attempt], deadlineTickMs := some deadline,
             clockId := w.clockId }

def newAttempt (w : Worker) (revision : Revision) (now : Nat) : Attempt :=
  { id := w.uuid, revision := revision, claimedTickMs := now, failure := none, accepted := false }

/-- `last && last.failure === null && !last.accepted`. -/
def awaiting (saved : List Attempt) : Bool := saved.getLast?.any (·.pending)

/-- `live_claim` once the run is known to be started. -/
def liveClaim (w : Worker) (db : Database) (value : RunRow) (active : List EventRow)
    (healthy : Bool) (now : Nat) : Except JournalError (LiveClaimReply × Database) :=
  let stop (db : Database) (cause : LiveDeliveryAbort) : LiveClaimReply × Database :=
    let db := latchAbort db value cause
    (.stopRequired (liveView (rerun db value)), db)
  if value.liveAbort.isSome || value.stopRequested then .ok (.stopRequired (liveView value), db)
  else if !healthy then
    .ok (stop (db.updateRun value.runId ({ · with deliveryClockUnknown := true }))
      ⟨"clock_unknown", "Live delivery clock continuity is unknown", none, none⟩)
  else match active.find? EventRow.active with
  | none => .ok (.waiting (liveView value), db)
  | some target =>
    if target.role ≠ .event then .error .terminalInLiveDelivery
    else do
      let stored ← event w target
      let saved ← attempts target
      if target.exhausted || target.deadlineTickMs.any (decide <| · ≤ now) then
        .ok (stop db ⟨"receipt_timeout", "Live event delivery budget expired",
          some target.sequence, saved.getLast?.map (·.id)⟩)
      else if awaiting saved then .ok (.waiting { liveView value with state := .waiting }, db)
      else if maxAttempts ≤ saved.length then
        .ok (stop db ⟨"attempt_budget", "Live event attempt budget exhausted",
          some target.sequence, none⟩)
      else
        let deadline := target.deadlineTickMs.getD (now + receiptWindowMs)
        .ok (.claimed ⟨stored, w.uuid, .zero, w.clockId, deadline⟩,
          claimRow w db value target (newAttempt w .zero now) deadline)

/-- What an accepted receipt does before it is recorded. -/
def beforeAccepted (w : Worker) (tx : Tx) (value : RunRow) (healthy : Bool) (target : EventRow)
    (saved : List Attempt) (attempt : Attempt) : Except JournalError (Tx × List Attempt) :=
  -- Latch unknown before the receipt removes an old-clock pending row.
  if !healthy then do
    let (_, db) ← deliveryView w tx.db value
    .ok (⟨db, tx.last⟩, saved)
  else match (if !target.committed && !target.superseded then target.deadlineTickMs else none) with
  | none => .ok (tx, saved)
  | some deadline => do
    let first ← tickMs w 0 tx.last
    -- An expired success path is corrected before this historical receipt.
    if deadline ≤ first then do
      let second ← tickMs w 1 first
      let (db, saved) ← failAttempt w tx.db value target saved attempt .receiptTimeout second
      .ok (⟨db, second⟩, saved)
    else .ok (⟨tx.db, first⟩, saved)

/-- `delivery_receipt` and `delivery_failure` on a closed run. -/
def deliverySettle (w : Worker) (tx : Tx) (value : RunRow) (s : Settle) :
    Except JournalError (ClosedRunDeliveryView × Tx) := do
  let events ← runEvents tx.db value.runId
  match tx.db.findSequence value.runId s.sequence with
  | none => .error .claimedAttemptMissing
  | some target => do
    let saved ← attempts target
    match saved.find? (·.id == s.attemptId) with
    | none => .error .claimedAttemptMissing
    | some attempt => do
      let _ ← event w target
      if s.hash.any (· != target.contentSha256) then .error .receiptIdentityDiffers
      else
        let healthy := !value.deliveryClockUnknown && clockHealthy w events
        if s.accepted then do
          let (tx, saved) ← beforeAccepted w tx value healthy target saved attempt
          let db := commitEvent (persistAttempts tx.db target (markAccepted saved attempt.id) none) target
          let (view, db) ← deliveryView w db (rerun db value)
          .ok (view, ⟨db, tx.last⟩)
        else if !healthy then do
          let (view, db) ← deliveryView w tx.db value
          .ok (view, ⟨db, tx.last⟩)
        else do
          let now ← tickMs w 0 tx.last
          let (db, _) ← failAttempt w tx.db value target saved attempt s.reason now
          let (view, db) ← deliveryView w db (rerun db value)
          .ok (view, ⟨db, now⟩)

/-- The first loop of `delivery_claim`: time out what expired, up to a new correction. -/
def expire (w : Worker) (now : Nat) : List EventRow → Database → RunRow →
    Except JournalError (Database × RunRow)
  | [], db, value => .ok (db, value)
  | target :: rest, db, value =>
    if target.committed || target.superseded || target.exhausted ||
        !target.deadlineTickMs.any (decide <| · ≤ now) then expire w now rest db value
    else do
      let saved ← attempts target
      match saved.getLast? with
      | none => .error .deadlineWithoutAttempt
      | some attempt => do
        let (db, _) ← failAttempt w db value target saved attempt .receiptTimeout now
        let current := rerun db value
        if value.deliveryRevision = .zero ∧ current.deliveryRevision = .one then .ok (db, current)
        else expire w now rest db current

/-- 1 when the last attempt failed, else 0. -/
def priority (e : EventRow) : Nat :=
  if e.attempts.getLast?.any (·.failure.isSome) then 1 else 0

/-- `priority(a) - priority(b) || a.sequence - b.sequence` is not positive. -/
def retryLe (a b : EventRow) : Prop :=
  priority a < priority b ∨ priority a = priority b ∧ a.sequence ≤ b.sequence

instance : DecidableRel retryLe := fun a b => by unfold retryLe; infer_instance

/-- The second loop of `delivery_claim`. `none`: every row was skipped. -/
def claimNext (w : Worker) (db : Database) (value : RunRow) (events : List EventRow)
    (successPath : Bool) (now : Nat) :
    List EventRow → Except JournalError (Option (ClosedClaimReply × Database))
  | [] => .ok none
  | target :: rest => do
    let saved ← attempts target
    if target.exhausted then claimNext w db value events successPath now rest
    else if awaiting saved then do
      let (view, db) ← deliveryView w db value
      .ok (some (.other .waiting .awaitingExistingAttempt view, db))
    else if target.role = .originalTerminal ∧ successPath ∧
        ¬ (events.find? (·.role == .originalRetention)).any (·.committed) then do
      let (view, db) ← deliveryView w db value
      .ok (some (.other .waiting .completedRetentionNotAccepted view, db))
    else if maxAttempts ≤ saved.length then .error .budgetDiffers
    else
      let deadline := target.deadlineTickMs.getD (now + receiptWindowMs)
      if deadline ≤ now then .error .expiredClaim
      else do
        let stored ← event w target
        .ok (some (.claimed ⟨stored, w.uuid, value.deliveryRevision, w.clockId, deadline⟩,
          claimRow w db value target (newAttempt w value.deliveryRevision now) deadline))

/-- `delivery_claim` on a closed run. -/
def deliveryClaim (w : Worker) (tx : Tx) (value : RunRow) :
    Except JournalError (ClosedClaimReply × Tx) := do
  let events ← runEvents tx.db value.runId
  if events.all (fun e => e.committed || e.superseded) then do
    let (view, db) ← deliveryView w tx.db value
    .ok (.other .complete .delivered view, ⟨db, tx.last⟩)
  else if value.deliveryClockUnknown || !clockHealthy w events then do
    let (view, db) ← deliveryView w tx.db value
    .ok (.other .blocked .clockContinuityUnknown view, ⟨db, tx.last⟩)
  else do
    let now ← tickMs w 0 tx.last
    let (db, value) ← expire w now events tx.db value
    let events ← runEvents db value.runId
    let active := events.filter EventRow.active
    if value.finalOutcome = none then .error .outcomeMissing
    else do
      let successPath := completedPath value
      -- The comparator reads the attempt history of both rows.
      let _ ← if successPath || decide (active.length < 2) then .ok [] else active.mapM attempts
      let ordered := if successPath then active else active.insertionSort retryLe
      match ← claimNext w db value events successPath now ordered with
      | some (reply, db) => .ok (reply, ⟨db, now⟩)
      | none => do
        let (view, db) ← deliveryView w db value
        let kind : ClosedClaimKind := match view.state with
          | .delivered => .complete
          | .blocked => .blocked
          | _ => .waiting
        .ok (.other kind (.state view.state) view, ⟨db, now⟩)

inductive DeliveryOp where
  | inspect
  | settle (s : Settle)
  | claim
  deriving DecidableEq, Repr

def executeDelivery (w : Worker) (tx : Tx) (scope : ClosedScope) (op : DeliveryOp) :
    Except JournalError (Reply × Tx) := do
  let value ← closedRun w tx.db scope
  let _ ← correction w tx.db value
  match op with
  | .inspect => do
    let (view, db) ← deliveryView w tx.db value
    .ok (.delivery view, ⟨db, tx.last⟩)
  | .settle s => do
    let (view, tx) ← deliverySettle w tx value s
    .ok (.delivery view, tx)
  | .claim => do
    let (reply, tx) ← deliveryClaim w tx value
    .ok (.deliveryClaim reply, tx)

inductive LiveOp where
  | receipt (sequence : Nat) (hash attemptId : String) (status : ReceiptStatus)
  | failure (sequence : Nat) (attemptId : String) (reason : DeliveryFailureReason)
  | abort (cause : LiveDeliveryAbort)
  | claim
  deriving DecidableEq, Repr

def LiveOp.settle : LiveOp → Option Settle
  | .receipt sequence hash attemptId status => some (.receipt sequence hash attemptId status)
  | .failure sequence attemptId reason => some (.failure sequence attemptId reason)
  | _ => none

/-- The receipt a closed run takes through the delivery path instead. -/
def LiveOp.late : LiveOp → Option Settle
  | .receipt sequence hash attemptId status => some (.receipt sequence hash attemptId status)
  | _ => none

/-- A live receipt or failure at the reading `now`; `none` is the claim. -/
def executeTimed (w : Worker) (tx : Tx) (value : RunRow) (active : List EventRow) (healthy : Bool)
    (now : Nat) : Option Settle → Except JournalError (Reply × Tx)
  | some s => do
    let db ← liveSettle w tx.db value healthy now s
    .ok (.liveView (liveView (rerun db value)), ⟨db, tx.last⟩)
  | none => do
    let (reply, db) ← liveClaim w tx.db value active healthy now
    .ok (.liveClaim reply, ⟨db, tx.last⟩)

/-- The live operations after durable startup is established. -/
def executeStarted (w : Worker) (tx : Tx) (value : RunRow) (op : Option Settle) :
    Except JournalError (Reply × Tx) := do
  let active ← runEvents tx.db value.runId
  if !value.deliveryClockUnknown && clockHealthy w active then do
    let now ← tickMs w 0 tx.last
    executeTimed w ⟨tx.db, now⟩ value active true now op
  else executeTimed w tx value active false 0 op

def executeLive (w : Worker) (tx : Tx) (owner : Owner) (op : LiveOp) :
    Except JournalError (Reply × Tx) := do
  let value ← owned w tx.db owner
  match (if value.phase = .closed then op.late else none) with
  | some s => do
    -- A late callback of the owner is checked again through the closed receipt path.
    let (_, tx) ← executeDelivery w tx ⟨owner.runId, owner.key, value.receiptId⟩ (.settle s)
    .ok (.liveView (liveView (rerun tx.db value)), tx)
  | none =>
    if value.mode ≠ .perRun ∨ value.phase = .closed then .error .notLiveOwner
    else match op with
    | .abort cause =>
      let db := latchAbort tx.db value cause
      .ok (.liveView (liveView (rerun db value)), ⟨db, tx.last⟩)
    | _ => do
      let recorded ← if value.phase = .started then receipt tx.db value.receiptId else .ok none
      if value.phase ≠ .started ∨ recorded.map (·.kind) ≠ some .accepted then
        .error .startupNotDurable
      else executeStarted w tx value op.settle

structure AdmitInput where
  runId : String
  mode : RunMode
  key : String
  canonical : String
  nonce : String
  deriving DecidableEq, Repr

/-- The answer to an admission of a known run. -/
def existingKind (w : Worker) (existing : RunRow) (input : AdmitInput) : AdmissionKind :=
  if existing.launchKey ≠ none ∧ (existing.launchKey ≠ some input.key ∨
      (existing.mode ≠ .fenced ∧ existing.mode ≠ input.mode)) then .conflict
  else if existing.phase = .closed then .fenced
  else if existing.ownerIncarnation ≠ some w.incarnation then .unknown
  else if existing.receiptId.isSome then .replay else .pending

def admitRun (w : Worker) (db : Database) (input : AdmitInput) :
    Except JournalError (Reply × Database) :=
  match db.runs input.runId with
  | some existing => do
    let record ← view w db existing
    .ok (.admission (existingKind w existing input) record, db)
  | none => do
    let row : RunRow :=
      { runId := input.runId, mode := input.mode, launchKey := some input.key,
        canonicalPayload := some input.canonical, ownerNonce := some input.nonce,
        ownerIncarnation := some w.incarnation, phase := .admitted, stopRequested := false }
    let db ← db.insertRun row
    let record ← view w db (rerun db row)
    .ok (.admission .fresh record, db)

def nextPhase : DurablePhase → Option DurablePhase
  | .admitted => some .preparing
  | .preparing => some .launchIntent
  | _ => none

def advance (w : Worker) (db : Database) (input : Owner) (revision : Nat) (phase : DurablePhase) :
    Except JournalError (Reply × Database) := do
  let value ← owned w db input
  if value.stopRequested ∨ value.revision ≠ revision ∨ nextPhase value.phase ≠ some phase then do
    let record ← view w db value
    .ok (.blocked record, db)
  else do
    let db := db.updateRun value.runId fun row => { row with phase := phase, revision := row.revision + 1 }
    let record ← view w db (rerun db value)
    .ok (.advanced record, db)

def stop (w : Worker) (db : Database) (runId : String) (key : Option String) :
    Except JournalError (Reply × Database) :=
  match db.runs runId with
  | none => do
    let row : RunRow :=
      { runId := runId, mode := .fenced, launchKey := key, canonicalPayload := none,
        ownerNonce := none, ownerIncarnation := none, phase := .closed, stopRequested := true }
    let db ← db.insertRun row
    let kind := if key.isNone then ReceiptKind.runFencedUnbound else .notStartedFenced
    let db ← insertReceipt w db (rerun db row) kind .permanentFence
    let record ← view w db (rerun db row)
    .ok (.stoppedIntent record, db)
  | some value =>
    if key.isSome ∧ value.launchKey.isSome ∧ key ≠ value.launchKey then do
      let record ← view w db value
      .ok (.stopConflict record, db)
    else do
      let db := if value.stopRequested then db
        else db.updateRun runId fun row => { row with stopRequested := true, revision := row.revision + 1 }
      let record ← view w db (rerun db value)
      .ok (.stoppedIntent record, db)

def started (w : Worker) (db : Database) (input : Owner) : Except JournalError (Reply × Database) := do
  let value ← owned w db input
  if value.phase ≠ .launchIntent then do
    let record ← view w db value
    .ok (.blocked record, db)
  else do
    let db := db.updateRun value.runId fun row =>
      { row with phase := .started, revision := row.revision + 1 }
    let db ← insertReceipt w db (rerun db value) .accepted .startup
    let record ← view w db (rerun db value)
    .ok (.recorded record, db)

structure ClosedInput where
  proofSource : ProofSource
  detail : Json
  outcome : FinalOutcome
  eventContents : List NodeRunEvent
  deriving DecidableEq

/-- The stage a proof of closure belongs to. -/
def ProofSource.phase : ProofSource → DurablePhase
  | .returnedHandle => .started
  | .startupError => .launchIntent

def originalRole : Suffix → EventRole
  | .retained => .originalRetention
  | .terminal => .originalTerminal

def settlementRow (digest : NodeRunEvent → String) (value : RunRow) (content : NodeRunEvent)
    (suffix : Suffix) : EventRow :=
  { runId := value.runId, sequence := value.nextSequence + suffix.index,
    eventId := originalEventId value suffix, content := content,
    contentSha256 := digest content, role := originalRole suffix }

def producerClosed (w : Worker) (db : Database) (owner : Owner) (input : ClosedInput) :
    Except JournalError (Reply × Database) := do
  let value ← owned w db owner
  if value.liveAbort.isSome ∧ input.outcome.terminal.phase = .completed then
    .error .abortForbidsCompleted
  else if value.phase = .closed then
    if value.finalOutcome ≠ some input.outcome then .error .settlementDiffers
    else do
      let record ← view w db value
      .ok (.settled record, db)
  else if value.phase ≠ input.proofSource.phase then .error .noProducerStage
  else match input.eventContents with
  | [retained, terminal] =>
    let pending := db.activeCount value.runId
    if maxBacklog - 4 < pending ∨ maxSequence - 3 < value.nextSequence then .error .settlementCapacity
    else do
      let retention := settlementRow w.digest value retained .retained
      let final := settlementRow w.digest value terminal .terminal
      let db ← db.insertOutbox retention
      let db ← db.insertOutbox final
      let db := db.updateRun value.runId fun row =>
        { row with phase := .closed, stopRequested := true, revision := row.revision + 1,
                   nextSequence := row.nextSequence + 2, finalOutcome := some input.outcome }
      let db ← insertReceipt w db (rerun db value) .processExitConfirmed
        (.settlement input.detail input.proofSource input.outcome
          [retention.identity, final.identity])
      let record ← view w db (rerun db value)
      .ok (.settled record, db)
  | _ => .error .eventContentsMissing

def append (w : Worker) (db : Database) (owner : Owner) (eventId : String) (content : NodeRunEvent) :
    Except JournalError (Reply × Database) := do
  let value ← owned w db owner
  match db.findEvent value.runId eventId with
  | some prior => do
    let stored ← event w prior
    .ok (.append (if prior.content = content then .stored stored value.revision
      else .conflict stored value.revision), db)
  | none =>
    if value.phase = .closed ∨ value.liveAbort.isSome then .ok (.append .closedOrAborted, db)
    else if maxBacklog - 4 ≤ db.activeCount value.runId ∨ maxSequence - 4 < value.nextSequence then
      .ok (.append .full, db)
    else do
      let row : EventRow :=
        { runId := value.runId, sequence := value.nextSequence, eventId := eventId,
          content := content, contentSha256 := w.digest content, role := .event }
      let db ← db.insertOutbox row
      let db := db.updateRun value.runId fun row =>
        { row with nextSequence := row.nextSequence + 1, revision := row.revision + 1 }
      let stored ← event w row
      .ok (.append (.stored stored (value.revision + 1)), db)

/-- The private commands of the worker channel. -/
inductive Command where
  | lookup (runId : String)
  | admitRun (input : AdmitInput)
  | advance (owner : Owner) (revision : Nat) (phase : DurablePhase)
  | stop (runId : String) (key : Option String)
  | started (owner : Owner)
  | producerClosed (owner : Owner) (input : ClosedInput)
  | append (owner : Owner) (eventId : String) (content : NodeRunEvent)
  | pending (runId : String) (limit : Nat)
  | live (owner : Owner) (op : LiveOp)
  | delivery (scope : ClosedScope) (op : DeliveryOp)
  deriving DecidableEq

/-- Carry the clock reading through an operation that reads no clock. -/
def keepClock (tx : Tx) (result : Except JournalError (Reply × Database)) :
    Except JournalError (Reply × Tx) := do
  let (reply, db) ← result
  .ok (reply, ⟨db, tx.last⟩)

def execute (w : Worker) (tx : Tx) : Command → Except JournalError (Reply × Tx)
  | .lookup runId =>
    match tx.db.runs runId with
    | none => .ok (.lookup none, tx)
    | some value => do
      let record ← view w tx.db value
      .ok (.lookup (some record), tx)
  | .admitRun input => keepClock tx (admitRun w tx.db input)
  | .advance owner revision phase => keepClock tx (advance w tx.db owner revision phase)
  | .stop runId key => keepClock tx (stop w tx.db runId key)
  | .started owner => keepClock tx (started w tx.db owner)
  | .producerClosed owner input => keepClock tx (producerClosed w tx.db owner input)
  | .append owner eventId content => keepClock tx (append w tx.db owner eventId content)
  | .pending runId limit => do
    let found ← ((orderBySequence ((tx.db.outbox runId).filter (!·.committed))).take limit).mapM (event w)
    .ok (.pending found, tx)
  | .live owner op => executeLive w tx owner op
  | .delivery scope op => executeDelivery w tx scope op

end Artoo.Journal
