import Artoo.Lib.Total

/-! The managed WebSocket transport. A step is a stretch of code between two calls out of the
transport, of which a write to the socket is one; anything may come before the code after it. The
trace is not stored. -/
namespace Artoo.Node
open Artoo.Lib

def handshakeMs : Int := 10000

def probeIntervalMs : Int := 10000

def probeTimeoutMs : Int := 10000

def maxCommands : Nat := 16

def maxCommandBytes : Int := 4 * 1024 * 1024

def maxReceipts : Nat := 64

def maxReceiptBytes : Int := 8 * 1024 * 1024

def maxLegacyEvents : Nat := 1000

def maxLegacyBytes : Int := 8 * 1024 * 1024

def retentionReceiptMs : Int := 30000

def maxBodyBytes : Int := 1024 * 1024

def managedReceiptContract : String := "run-event-body-v1"

inductive RunDeliveryMode where
  | legacy | managed
  deriving DecidableEq, Repr

inductive EventKind where
  | output | workspaceRetained | other
  deriving DecidableEq, Repr

/-- A parsed frame, with its text and that of its event. -/
structure RunEventMessage where
  nodeId : String
  runId : String
  sequence : Int
  kind : EventKind
  body : String
  encoded : String

/-- The run and the sequence; the other parts of the key are those of the transport. -/
abbrev Tuple := String × Int

def RunEventMessage.identity (m : RunEventMessage) : Tuple := (m.runId, m.sequence)

def byteLength (s : String) : Int := s.utf8ByteSize

def RunEventMessage.bytes (m : RunEventMessage) : Int := byteLength m.encoded

structure Probe where
  id : String
  deadline : Int

structure Generation where
  id : Nat
  nonce : String
  dead : Bool := false
  usable : Bool := false
  openedAt : Option Int := none
  /-- `readyIdentity`, and the session id in it -/
  ready : Option (String × String) := none
  probe : Option Probe := none
  /-- the sizes of the buffered commands -/
  commands : List Int := []
  commandBytes : Int := 0

/-- `promise` numbers the promise that the entry settles. -/
structure ReceiptObserver where
  identity : Tuple
  generation : Nat
  hash : String
  bytes : Int
  exposed : Bool := false
  promise : Nat

structure LegacyPendingEvent where
  identity : Tuple
  bytes : Int
  retention : Bool
  retentionDeadline : Option Int
  sentGeneration : Option Nat := none
  promise : Nat

def LegacyPendingEvent.unsent (item : LegacyPendingEvent) (gid : Nat) : LegacyPendingEvent :=
  if item.sentGeneration = some gid then { item with sentGeneration := none } else item

theorem LegacyPendingEvent.unsent_identity (item : LegacyPendingEvent) (gid : Nat) :
    (item.unsent gid).identity = item.identity := by
  unfold unsent
  split
  · rfl
  · rfl

inductive Status where
  | accepted | rejected
  deriving DecidableEq, Repr

/-- How a promise settles; an error hides whether the event was received. -/
inductive Outcome where
  | status (s : Status)
  | error
  deriving DecidableEq, Repr

inductive Trace where
  /-- a legacy event takes its sequence -/
  | sequenced (runId : String) (sequence : Int)
  /-- the entries of managed and of legacy events -/
  | observing (promise : Nat) (identity : Tuple)
  | pending (promise : Nat) (identity : Tuple)
  | wrote (promise : Nat) (identity : Tuple) (generation : Nat)
  | acked (generation : Nat) (identity : Tuple) (status : Status)
  | settled (promise : Nat) (outcome : Outcome)
  deriving DecidableEq

structure Options where
  journalNamespace : String
  nodeId : String
  allowLegacyRuns : Bool
  sha256 : String → String

structure Transport where
  receiptObservers : Table ReceiptObserver.identity := .empty
  receiptBytes : Int := 0
  legacyPending : Table LegacyPendingEvent.identity := .empty
  legacyPendingBytes : Int := 0
  runModes : String → Option RunDeliveryMode := fun _ => none
  legacySequences : String → Option Int := fun _ => none
  current : Option Generation := none
  generation : Nat := 0
  /-- the timer that connects again -/
  reconnect : Bool := false
  started : Bool := false
  closed : Bool := false
  everUsable : Bool := false
  promises : Nat := 0
  trace : List Trace := []

/-- A call that throws changes nothing. -/
abbrev Call := Except String Transport

def refuse (refused : Bool) (message : String) : Except String Unit :=
  if refused then .error message else .ok ()

namespace Transport

/-- The generation of a number, where it is the current one and the transport is open. -/
def live (t : Transport) (id : Nat) : Option Generation :=
  t.current.filter fun g => g.id == id && !g.dead && !t.closed

def log (t : Transport) (event : Trace) : Transport := { t with trace := event :: t.trace }

def setCurrent (t : Transport) (g : Generation) : Transport := { t with current := some g }

/-! ## Entries -/

def settleReceipt (t : Transport) (identity : Tuple) (outcome : Outcome) : Transport :=
  match t.receiptObservers.get? identity with
  | none => t
  | some item =>
    { t with
      receiptObservers := t.receiptObservers.remove identity
      receiptBytes := t.receiptBytes - item.bytes }.log (.settled item.promise outcome)

def settleLegacy (t : Transport) (identity : Tuple) (outcome : Outcome) : Transport :=
  match t.legacyPending.get? identity with
  | none => t
  | some item =>
    { t with
      legacyPending := t.legacyPending.remove identity
      legacyPendingBytes := t.legacyPendingBytes - item.bytes }.log (.settled item.promise outcome)

def failLegacy (t : Transport) : Transport :=
  (t.legacyPending.rows.map (·.identity)).foldl (fun t identity => t.settleLegacy identity .error) t

def expired (item : LegacyPendingEvent) (now : Int) : Bool :=
  item.retentionDeadline.any (· ≤ now)

def hasCapacity (t : Transport) (bytes : Int) : Bool :=
  decide (t.receiptObservers.rows.length < maxReceipts) &&
    decide (t.receiptBytes + bytes ≤ maxReceiptBytes)

/-! ## Runs -/

def bindRun (o : Options) (runId : String) (mode : RunDeliveryMode) (t : Transport) : Call := do
  refuse t.closed "Managed transport is closed"
  refuse (runId == "") "Run delivery binding is invalid"
  refuse (mode == .legacy && !o.allowLegacyRuns) "Ordinary runs require mixed routing"
  let previous := t.runModes runId
  refuse (previous.any (· != mode)) "Run delivery mode cannot change"
  return { t with
    runModes := fun id => if id = runId then some mode else t.runModes id
    legacySequences := fun id =>
      if id = runId ∧ mode = .legacy ∧ previous = none then some (-1) else t.legacySequences id }

def assertRunMode (o : Options) (t : Transport) (runId : String) (mode : RunDeliveryMode) :
    Except String Unit :=
  refuse (o.allowLegacyRuns && t.runModes runId != some mode)
    ("Run is not bound to " ++ (if mode = .legacy then "legacy" else "managed") ++ " delivery")

/-! ## Legacy events -/

/-- One entry is written to the socket of a generation, unless it was already or has expired. -/
def sendLegacyPending (t : Transport) (gid : Nat) (identity : Tuple) (now : Int)
    (socketOpen : Bool) : Transport :=
  match t.legacyPending.get? identity, (t.live gid).filter (·.usable) with
  | some item, some g =>
    if !socketOpen || item.sentGeneration = some g.id then t
    else if expired item now then t.settleLegacy identity .error
    else
      { t with
        legacyPending := t.legacyPending.put { item with sentGeneration := some g.id } }.log
        (.wrote item.promise identity g.id)
  | _, _ => t

def legacyEntry (m : RunEventMessage) (now : Int) (promise : Nat) : LegacyPendingEvent :=
  let retention := m.kind == .workspaceRetained
  { identity := m.identity, bytes := m.bytes, retention, promise
    retentionDeadline := if retention then some (now + retentionReceiptMs) else none }

/-- The sequence is taken; a best-effort event is written, or not, and leaves no entry. -/
def takeSequence (t : Transport) (m : RunEventMessage) : Transport :=
  { t with
    legacySequences := fun id =>
      if id = m.runId then some m.sequence else t.legacySequences id }.log
    (.sequenced m.runId m.sequence)

def addLegacy (t : Transport) (m : RunEventMessage) (now : Int) : Transport :=
  { t with
    legacyPending := t.legacyPending.put (legacyEntry m now t.promises)
    legacyPendingBytes := t.legacyPendingBytes + m.bytes
    promises := t.promises + 1 }.log (.pending t.promises m.identity)

def sendLegacy (o : Options) (m : RunEventMessage) (bestEffort : Bool) (now : Int)
    (socketOpen : Bool) (t : Transport) : Call := do
  refuse t.closed "Managed transport is closed"
  refuse (bestEffort && m.kind != .output) "best-effort delivery is only supported for run.output"
  refuse (m.nodeId != o.nodeId) "Ordinary event node identity differs"
  assertRunMode o t m.runId .legacy
  refuse (decide (maxBodyBytes < byteLength m.body)) "Ordinary event exceeds the bounded payload size"
  refuse (decide (maxCommandBytes < m.bytes)) "Ordinary event frame exceeds the bounded frame size"
  match t.legacyPending.get? m.identity with
  | some previous =>
    refuse bestEffort "best-effort output cannot reuse a pending run event sequence"
    refuse (previous.retention || m.kind == .workspaceRetained)
      "workspace retention event is already pending"
    .error "Ordinary run event sequence is already pending"
  | none =>
    refuse (!bestEffort && (decide (maxLegacyEvents ≤ t.legacyPending.rows.length) ||
      decide (maxLegacyBytes < t.legacyPendingBytes + m.bytes))) "node event delivery buffer is full"
    refuse ((t.legacySequences m.runId).any (m.sequence ≤ ·))
      "Ordinary event sequence must strictly increase"
    let t := t.takeSequence m
    if bestEffort then return t
    else
      let t := t.addLegacy m now
      match t.current with
      | some g => return t.sendLegacyPending g.id m.identity now socketOpen
      | none => return t

/-- `transport.send` of a run event. -/
def send (o : Options) (m : RunEventMessage) (bestEffort : Bool) (now : Int) (socketOpen : Bool)
    (t : Transport) : Call := do
  refuse (!o.allowLegacyRuns)
    "Managed run.event must use a durable one-shot claim, never transport.send"
  t.sendLegacy o m bestEffort now socketOpen

/-! ## Generations -/

/-- The legacy events that a generation wrote wait again. -/
def forget (t : Transport) (gid : Nat) : Transport :=
  { t with
    legacyPending := t.legacyPending.modify (·.unsent gid) fun item => item.unsent_identity gid }

def failObservers (t : Transport) (gid : Nat) : Transport :=
  ((t.receiptObservers.select (·.generation == gid)).map (·.identity)).foldl
    (fun t identity => t.settleReceipt identity .error) t

def dispose (t : Transport) (g : Generation) : Transport :=
  ((t.setCurrent { g with
      dead := true, usable := false, commands := [], commandBytes := 0
      probe := none }).failObservers g.id).forget g.id

/-- The end of the transport, by an error or by `close`. -/
def fatal (t : Transport) : Transport :=
  if t.closed then t
  else
    let t := { t with closed := true, reconnect := false }
    (match t.current with
      | some g => t.dispose g
      | none => t).failLegacy

def lose (t : Transport) (gid : Nat) (permanent : Bool) : Transport :=
  match t.live gid with
  | none => t
  | some g =>
    if permanent || !t.everUsable then t.fatal
    else { t.dispose g with reconnect := true }

def connect (t : Transport) (nonce : String) : Transport :=
  if t.closed then t
  else { t with
    generation := t.generation + 1
    current := some { id := t.generation + 1, nonce } }

def start (t : Transport) (nonce : String) : Transport :=
  if t.started || t.closed then t else { t with started := true }.connect nonce

/-- The timer fires. -/
def connectAgain (t : Transport) (nonce : String) : Transport :=
  if t.reconnect then { t with reconnect := false }.connect nonce else t

def opened (t : Transport) (gid : Nat) (now : Int) : Transport :=
  match t.live gid with
  | none => t
  | some g => t.setCurrent { g with openedAt := some now }

/-! ## Messages -/

structure ReadyPayload where
  version : Int
  nodeId : String
  helloNonce : String
  receiptContract : String
  sequenceMax : Int
  probeIntervalMs : Int
  probeTimeoutMs : Int
  sessionId : String
  /-- its JSON text -/
  identity : String

def compatible (o : Options) (g : Generation) (p : ReadyPayload) : Bool :=
  p.version == 1 && p.nodeId == o.nodeId && p.helloNonce == g.nonce &&
    p.receiptContract == managedReceiptContract && p.sequenceMax == 2147483647 &&
    p.probeIntervalMs == Node.probeIntervalMs && p.probeTimeoutMs == Node.probeTimeoutMs

/-- Within the handshake. -/
def inHandshake (g : Generation) (now : Int) : Bool :=
  g.openedAt.any fun at_ => now < at_ + handshakeMs

def probe (t : Transport) (gid : Nat) (id : String) (now : Int) : Transport :=
  match t.live gid with
  | none => t
  | some g =>
    if g.ready.isNone || g.probe.isSome then t
    else
      let deadline := if g.usable then now + probeTimeoutMs
        else min (now + probeTimeoutMs) (g.openedAt.getD 0 + handshakeMs)
      t.setCurrent { g with probe := some ⟨id, deadline⟩ }

def onReady (o : Options) (t : Transport) (gid : Nat) (p : ReadyPayload) (probeId : String)
    (now : Int) : Transport :=
  match t.live gid with
  | none => t
  | some g =>
    if !compatible o g p then t.lose gid true
    else
      match g.ready with
      | some (identity, _) => if identity ≠ p.identity then t.lose gid true else t
      | none =>
        if !inHandshake g now then t.lose gid false
        else (t.setCurrent { g with ready := some (p.identity, p.sessionId) }).probe gid probeId now

/-- The pong of the pending probe; the first one makes the session usable. -/
def onPong (o : Options) (t : Transport) (gid : Nat) (nodeId sessionId probeId : String)
    (now : Int) : Transport :=
  match t.live gid with
  | none => t
  | some g =>
    match g.probe, g.ready with
    | some pending, some (_, session) =>
      if nodeId ≠ o.nodeId ∨ sessionId ≠ session ∨ probeId ≠ pending.id then t
      else if pending.deadline ≤ now then t.lose gid false
      else if g.usable then t.setCurrent { g with probe := none }
      else if !inHandshake g now then (t.setCurrent { g with probe := none }).lose gid false
      else t.setCurrent { g with probe := none, usable := true }
    | _, _ => t

/-- After the heartbeat and `onSessionUsable`. -/
def qualify (t : Transport) (gid : Nat) : Transport :=
  match (t.live gid).filter (·.usable) with
  | none => t
  | some _ => { t with everUsable := true }

/-- The buffered commands are taken to be delivered. -/
def drain (t : Transport) (gid : Nat) : Transport :=
  match (t.live gid).filter (·.usable) with
  | none => t
  | some g => t.setCurrent { g with commands := [], commandBytes := 0 }

/-- `run.event.ack`. -/
def onAck (o : Options) (t : Transport) (gid : Nat) (identity : Tuple) (status : Status)
    (now : Int) : Transport :=
  match (t.live gid).filter (·.usable) with
  | none => t
  | some g =>
    let received := t.log (.acked g.id identity status)
    if o.allowLegacyRuns && t.runModes identity.1 = some .legacy then
      match t.legacyPending.get? identity with
      | none => received
      | some item =>
        if item.sentGeneration ≠ some g.id then received
        else if expired item now then received.settleLegacy identity .error
        else received.settleLegacy identity (.status status)
    else if o.allowLegacyRuns && t.runModes identity.1 ≠ some .managed then received
    else
      match t.receiptObservers.get? identity with
      | none => received
      | some item =>
        if item.generation ≠ g.id || !item.exposed then received
        else received.settleReceipt identity (.status status)

/-- Another command: delivered, buffered before the session is usable, or too many. -/
def onCommand (t : Transport) (gid : Nat) (bytes : Int) : Transport :=
  match t.live gid with
  | none => t
  | some g =>
    if maxCommandBytes < bytes then t.lose gid true
    else if g.usable then t
    else if maxCommands ≤ g.commands.length ∨ maxCommandBytes < g.commandBytes + bytes then
      t.lose gid true
    else t.setCurrent { g with
      commands := g.commands ++ [bytes], commandBytes := g.commandBytes + bytes }

/-! ## Managed events -/

structure ManagedExposureContext where
  journalNamespace : String
  nodeId : String
  runId : String
  eventId : String
  sequence : Int
  contentSha256 : String
  attemptId : String
  clockId : String
  deadline : Int

def assertSession (t : Transport) (socketOpen : Bool) : Except String Generation :=
  match t.current with
  | none => .error "Current managed session is not usable"
  | some g =>
    if t.closed || g.dead || !g.usable || g.ready.isNone || !socketOpen then
      .error "Current managed session is not usable"
    else .ok g

def differs (o : Options) (m : RunEventMessage) (c : ManagedExposureContext) : Bool :=
  c.journalNamespace != o.journalNamespace || c.nodeId != o.nodeId || m.nodeId != o.nodeId ||
    c.runId != m.runId || c.sequence != m.sequence || c.eventId == "" || c.attemptId == "" ||
    c.clockId == ""

/-- What may have changed when the checks are made again before the write. -/
structure Again where
  aborted : Bool
  socketOpen : Bool
  now : Int

def observe (t : Transport) (g : Generation) (m : RunEventMessage) (hash : String) : Transport :=
  { t with
    receiptObservers := t.receiptObservers.put
      { identity := m.identity, generation := g.id, hash, bytes := m.bytes, promise := t.promises }
    receiptBytes := t.receiptBytes + m.bytes
    promises := t.promises + 1 }.log (.observing t.promises m.identity)

/-- The write of an observed frame. -/
def expose (t : Transport) (identity : Tuple) : Transport :=
  match t.receiptObservers.get? identity with
  | none => t
  | some item =>
    { t with
      receiptObservers := t.receiptObservers.put { item with exposed := true } }.log
      (.wrote item.promise identity item.generation)

def exposeOnce (o : Options) (m : RunEventMessage) (c : ManagedExposureContext) (aborted : Bool)
    (now : Int) (socketOpen : Bool) (again : Again) (t : Transport) : Call := do
  refuse aborted "aborted"
  let g ← t.assertSession socketOpen
  refuse (decide (c.deadline < 0)) "Managed exposure deadline is invalid"
  refuse (differs o m c) "Managed exposure context differs"
  assertRunMode o t m.runId .managed
  refuse (decide (maxBodyBytes < byteLength m.body) || o.sha256 m.body != c.contentSha256)
    "Managed frame differs from durable event bytes"
  match t.receiptObservers.get? m.identity with
  | some previous =>
    .error (if previous.hash = c.contentSha256 then "Managed tuple already has an exposed observer"
      else "Managed pending tuple body changed")
  | none =>
    refuse (!t.hasCapacity m.bytes) "Managed receipt observation capacity is full"
    refuse (decide (c.deadline ≤ now)) "Managed event expired before exposure"
    let t := t.observe g m c.contentSha256
    if again.aborted || !again.socketOpen || decide (c.deadline ≤ again.now) then
      return t.settleReceipt m.identity .error
    else return t.expose m.identity

end Transport

/-! ## Steps -/

inductive Op where
  | bindRun (runId : String) (mode : RunDeliveryMode)
  | send (m : RunEventMessage) (bestEffort : Bool) (now : Int) (socketOpen : Bool)
  /-- a round of `flushLegacy` -/
  | flush (gid : Nat) (identity : Tuple) (now : Int) (socketOpen : Bool)
  /-- the retention timer of an entry -/
  | retentionTimeout (identity : Tuple)
  | exposeOnce (m : RunEventMessage) (c : Transport.ManagedExposureContext) (aborted : Bool)
      (now : Int) (socketOpen : Bool) (again : Transport.Again)
  /-- the timer of an observer, or a write that threw -/
  | retire (identity : Tuple)
  | start (nonce : String)
  | connectAgain (nonce : String)
  | opened (gid : Nat) (now : Int)
  | ready (gid : Nat) (p : Transport.ReadyPayload) (probeId : String) (now : Int)
  | probe (gid : Nat) (id : String) (now : Int)
  | pong (gid : Nat) (nodeId sessionId probeId : String) (now : Int)
  | qualify (gid : Nat)
  | drain (gid : Nat)
  | ack (gid : Nat) (identity : Tuple) (status : Status) (now : Int)
  | command (gid : Nat) (bytes : Nat)
  /-- an error, a close or a timeout of the socket, or a write that threw -/
  | lose (gid : Nat) (permanent : Bool)
  | close

def Transport.attempt (t : Transport) : Call → Transport
  | .ok t' => t'
  | .error _ => t

def Transport.step (o : Options) (t : Transport) : Op → Transport
  | .bindRun runId mode => t.attempt (t.bindRun o runId mode)
  | .send m bestEffort now socketOpen => t.attempt (t.send o m bestEffort now socketOpen)
  | .flush gid identity now socketOpen => t.sendLegacyPending gid identity now socketOpen
  | .retentionTimeout identity => t.settleLegacy identity .error
  | .exposeOnce m c aborted now socketOpen again =>
    t.attempt (t.exposeOnce o m c aborted now socketOpen again)
  | .retire identity => t.settleReceipt identity .error
  | .start nonce => t.start nonce
  | .connectAgain nonce => t.connectAgain nonce
  | .opened gid now => t.opened gid now
  | .ready gid p probeId now => t.onReady o gid p probeId now
  | .probe gid id now => t.probe gid id now
  | .pong gid nodeId sessionId probeId now => t.onPong o gid nodeId sessionId probeId now
  | .qualify gid => t.qualify gid
  | .drain gid => t.drain gid
  | .ack gid identity status now => t.onAck o gid identity status now
  | .command gid bytes => t.onCommand gid bytes
  | .lose gid permanent => t.lose gid permanent
  | .close => t.fatal

def Transport.run (o : Options) (ops : List Op) : Transport := ops.foldl (Transport.step o) {}

end Artoo.Node
