import Mathlib.Data.Int.Notation
import Mathlib.Data.List.Basic

/-! A run of the process adapter: the callbacks of its child and of its stops, and the stream of its
events. -/
namespace Artoo.Node.ProcessRun

abbrev Text := List Char

inductive Stream where
  | stdout | stderr
  deriving DecidableEq

inductive LifecyclePhase where
  | started | completed | failed | cancelled
  deriving DecidableEq

/-- `α` the descriptors of artifacts, `μ` the measured answers and usages. -/
inductive RunEvent (α μ : Type) where
  | output (stream : Stream) (text : Text)
  | artifact (descriptor : α)
  | measured (value : μ)
  | lifecycle (phase : LifecyclePhase) (reason : Option Text)
  deriving DecidableEq

/-- Node's `StringDecoder`: what is not yet a whole character is kept. -/
structure StringDecoder (δ : Type) where
  start : δ
  write : δ → List UInt8 → δ × Text
  finish : δ → δ × Text

/-- What is read of the output lines. It measures answers and usages only. -/
structure StructuredOutput (τ μ : Type) where
  start : τ
  consume : τ → Text → τ
  finish : τ → Bool → List μ
  failureReason : τ → Option Text

/-- With all that was fed to it. -/
structure LineEmitter (δ : Type) where
  buffer : Text := []
  decoder : δ
  fed : Text := []

/-- A promise of `stopProcessTree`. -/
inductive Termination where
  | notBegun | pending
  | settled (result : Except Text Unit)

/-- Where a handler of `close` waits for the termination. -/
structure Closing where
  cancelling : Bool
  code : Option ℤ
  signal : Option Text

structure World (α μ τ δ : Type) where
  items : List (RunEvent α μ) := []
  ended : Bool := false
  finalized : Bool := false
  spawned : Bool := false
  childExitObserved : Bool := false
  childStdioClosed : Bool := false
  childSpawnFailed : Bool := false
  groupAbsent : Bool := false
  /-- The handlers of `exit` that report a failure of the termination. -/
  watching : ℕ := 0
  termination : Termination := .notBegun
  closing : List Closing := []
  stopReason : Option Text := none
  startupAborted : Bool := false
  guardianAttempted : Bool := false
  closed : Bool := false
  stdout : LineEmitter δ
  stderr : LineEmitter δ
  structured : τ

section Run

variable {α μ τ δ : Type}

/-- What is fixed for a run. Redaction only replaces texts. -/
structure Process (α μ τ δ : Type) where
  pid : Option ℕ
  windows : Bool
  /-- started with an admission: it is stopped through its control -/
  owned : Bool
  discussion : Bool
  structured : StructuredOutput τ μ
  decoder : StringDecoder δ
  redact : Text → Text
  redactLine : Text → Text
  redactMeasured : μ → μ

variable (c : Process α μ τ δ)

/-! ## The queue and the lines -/

def push (event : RunEvent α μ) (w : World α μ τ δ) : World α μ τ δ :=
  if w.ended then w else { w with items := w.items ++ [event] }

def emit (event : RunEvent α μ) (w : World α μ τ δ) : World α μ τ δ :=
  push (match event with
    | .measured value => .measured (c.redactMeasured value)
    | .lifecycle phase reason => .lifecycle phase (reason.map c.redact)
    | event => event) w

/-- `replace(/\r$/, "")` -/
def dropReturn (line : Text) : Text := if line.getLast? = some '\r' then line.dropLast else line

def onLine (stream : Stream) (raw : Text) (w : World α μ τ δ) : World α μ τ δ :=
  match stream with
  | .stdout =>
    let w := push (.output .stdout (c.redactLine raw)) w
    { w with structured := c.structured.consume w.structured raw }
  | .stderr => push (.output .stderr (c.redactLine raw)) w

def emitter (stream : Stream) (w : World α μ τ δ) : LineEmitter δ :=
  match stream with
  | .stdout => w.stdout
  | .stderr => w.stderr

def setEmitter (stream : Stream) (e : LineEmitter δ) (w : World α μ τ δ) : World α μ τ δ :=
  match stream with
  | .stdout => { w with stdout := e }
  | .stderr => { w with stderr := e }

def onLines (stream : Stream) (lines : List Text) (w : World α μ τ δ) : World α μ τ δ :=
  lines.foldl (fun w line => onLine c stream (dropReturn line) w) w

/-- `feed` of a string: the lines that it completes, and the rest. -/
def feedText (stream : Stream) (text : Text) (w : World α μ τ δ) : World α μ τ δ :=
  let e := emitter stream w
  let pieces := (e.buffer ++ text).splitOn '\n'
  onLines c stream pieces.dropLast
    (setEmitter stream { e with buffer := pieces.getLastD [], fed := e.fed ++ text } w)

def feed (stream : Stream) (chunk : List UInt8) (w : World α μ τ δ) : World α μ τ δ :=
  let e := emitter stream w
  let (decoder, text) := c.decoder.write e.decoder chunk
  feedText c stream text (setEmitter stream { e with decoder } w)

def flush (stream : Stream) (w : World α μ τ δ) : World α μ τ δ :=
  let e := emitter stream w
  let (decoder, text) := c.decoder.finish e.decoder
  let rest := e.buffer ++ text
  let w := setEmitter stream { e with buffer := [], decoder } w
  if rest = [] then w else onLine c stream (dropReturn rest) w

def flushBoth (w : World α μ τ δ) : World α μ τ δ := flush c .stderr (flush c .stdout w)

/-! ## Ending -/

def finalize (w : World α μ τ δ) : World α μ τ δ := { w with finalized := true }

def emitMeasured (success : Bool) (w : World α μ τ δ) : World α μ τ δ :=
  (c.structured.finish w.structured success).foldl (fun w value => emit c (.measured value) w) w

def pushArtifacts (descriptors : List α) (w : World α μ τ δ) : World α μ τ δ :=
  descriptors.foldl (fun w descriptor => push (.artifact descriptor) w) w

def resolveClosed (w : World α μ τ δ) : World α μ τ δ := { w with closed := true }

def endQueue (w : World α μ τ δ) : World α μ τ δ := resolveClosed { w with ended := true }

def finishWith (phase : LifecyclePhase) (reason : Text) (w : World α μ τ δ) : World α μ τ δ :=
  if w.finalized then w
  else
    let w := emitMeasured c false (flushBoth c (finalize w))
    endQueue (emit c (.lifecycle phase (some reason)) w)

def complete (descriptors : List α) (w : World α μ τ δ) : World α μ τ δ :=
  let w := finalize (flushBoth c w)
  let w := emitMeasured c true (pushArtifacts descriptors w)
  endQueue (push (.lifecycle .completed none) w)

def exitText : Option ℤ → Text
  | some code => s!"exit {code}".toList
  | none => "exit unknown".toList

def await (closing : Closing) (w : World α μ τ δ) : World α μ τ δ :=
  { w with closing := w.closing ++ [closing] }

def goOn (index : ℕ) (w : World α μ τ δ) : World α μ τ δ :=
  { w with closing := w.closing.eraseIdx index }

/-- After the exit of the process group. The artifacts are collected, or this fails. -/
def afterGroup (code : Option ℤ) (signal : Option Text) (collected : Except Text (List α))
    (w : World α μ τ δ) : World α μ τ δ :=
  if w.stopReason.isSome then await ⟨true, code, signal⟩ w
  else
    let w := flushBoth c w
    if code = some 0 then
      match c.structured.failureReason w.structured with
      | some reason => finishWith c .failed reason w
      | none => match if c.discussion then .ok [] else collected with
        | .error message => finishWith c .failed message w
        | .ok descriptors => complete c descriptors w
    else
      let reason := match signal with
        | some signal => "signal ".toList ++ signal
        | none => (c.structured.failureReason w.structured).getD (exitText code)
      finishWith c .failed reason w

/-! ## Callbacks -/

def beginTermination (w : World α μ τ δ) : World α μ τ δ :=
  match w.termination with
  | .notBegun =>
    if c.pid.isNone then { w with termination := .settled (.ok ()), groupAbsent := true }
    else { w with termination := .pending }
  | _ => w

def kill (w : World α μ τ δ) : World α μ τ δ := if w.finalized then w else beginTermination c w

def stopWith (reason : Text) (w : World α μ τ δ) : World α μ τ δ :=
  kill c { w with stopReason := some reason }

/-- `queue.push` of the start, and what follows at once: the guardian is attempted. -/
def onSpawn (w : World α μ τ δ) : World α μ τ δ :=
  if w.spawned then w
  else
    let w := push (.lifecycle .started none) { w with spawned := true }
    if w.startupAborted || w.finalized || c.pid.isNone then w else { w with guardianAttempted := true }

def onError (message : Text) (w : World α μ τ δ) : World α μ τ δ :=
  if !w.spawned then { w with childSpawnFailed := c.pid.isNone }
  else feedText c .stderr (message ++ ['\n']) w

def cleanupFailed (message : Text) : Text := "CLI cleanup failed: ".toList ++ message ++ ['\n']

def onExit (w : World α μ τ δ) : World α μ τ δ :=
  let w := { w with childExitObserved := true }
  if c.windows || c.pid.isNone then w
  else
    let w := beginTermination c w
    match w.termination with
    | .settled (.error message) => feedText c .stderr (cleanupFailed message) w
    | .settled (.ok ()) => w
    | _ => { w with watching := w.watching + 1 }

def stdioClosed (w : World α μ τ δ) : World α μ τ δ := { w with childStdioClosed := true }

def onClose (code : Option ℤ) (signal : Option Text) (collected : Except Text (List α))
    (w : World α μ τ δ) : World α μ τ δ :=
  let w := stdioClosed w
  if !c.windows && c.pid.isSome then
    await ⟨false, code, signal⟩ (beginTermination c w)
  else afterGroup c code signal collected w

/-- `stopProcessTree` settles. -/
def onTerminated (result : Except Text Unit) (w : World α μ τ δ) : World α μ τ δ :=
  match w.termination with
  | .pending =>
    let w := { w with termination := .settled result }
    match result with
    | .ok () => { w with groupAbsent := true, watching := 0 }
    | .error message =>
      (List.replicate w.watching (cleanupFailed message)).foldl
        (fun w text => feedText c .stderr text w) { w with watching := 0 }
  | _ => w

/-- A handler of `close` goes on after an await. -/
def onResume (index : ℕ) (collected : Except Text (List α)) (w : World α μ τ δ) : World α μ τ δ :=
  match w.closing[index]? with
  | none => w
  | some closing =>
    match w.termination with
    | .pending => w
    | .settled (.error _) =>
      if closing.cancelling then resolveClosed (goOn index w) else goOn index w
    | _ =>
      if closing.cancelling then finishWith c .cancelled (w.stopReason.getD []) (goOn index w)
      else afterGroup c closing.code closing.signal collected (goOn index w)

/-- `stop` of the control of an owned run; `closed`, `exited` and `running` are what it observes: a closure
that is confirmed, an exit code or a signal, and a child and a group that are present. -/
def ownedStop (reason : Text) (closed exited running : Bool) (w : World α μ τ δ) : World α μ τ δ :=
  if closed || w.childExitObserved || w.childStdioClosed || exited || !running then w
  else stopWith c reason w

def userCancelled : Text := "user_cancelled".toList

inductive Event (α : Type) where
  | spawn
  | error (message : Text)
  | data (stream : Stream) (chunk : List UInt8)
  | exit
  | close (code : Option ℤ) (signal : Option Text) (collected : Except Text (List α))
  | terminated (result : Except Text Unit)
  | resume (index : ℕ) (collected : Except Text (List α))
  | stop (reason : Text)
  | ownedStop (reason : Text) (closed exited running : Bool)
  | startupAbort
  | guardianError

def step (w : World α μ τ δ) : Event α → World α μ τ δ
  | .spawn => onSpawn c w
  | .error message => onError c message w
  | .data stream chunk => feed c stream chunk w
  | .exit => onExit c w
  | .close code signal collected => onClose c code signal collected w
  | .terminated result => onTerminated c result w
  | .resume index collected => onResume c index collected w
  | .stop reason => if c.owned then w else stopWith c reason w
  | .ownedStop reason closed exited running =>
    if c.owned then ownedStop c reason closed exited running w else w
  | .startupAbort => stopWith c userCancelled { w with startupAborted := true }
  | .guardianError => if w.guardianAttempted then stopWith c userCancelled w else w

def initial : World α μ τ δ where
  stdout := { decoder := c.decoder.start }
  stderr := { decoder := c.decoder.start }
  structured := c.structured.start

def run (events : List (Event α)) : World α μ τ δ := events.foldl (step c) (initial c)

end Run

end Artoo.Node.ProcessRun
