import Mathlib.Algebra.Order.Field.Rat
import Mathlib.Data.List.Basic

/-! The owned runner of Git: one child in a process group of its own, whose callbacks, timers and cleanup
settle one promise. -/
namespace Artoo.Node.OwnedGit

inductive Trigger where
  | invalidInput | unsupportedPlatform | spawnFailed | aborted | timeout | outputLimit | streamFailed
  | signaled | lingeringGroup
  deriving DecidableEq, Repr

inductive OwnedGitErrorCode where
  | trigger (trigger : Trigger)
  | cleanupUncertain
  deriving DecidableEq, Repr

inductive GroupState where
  | notLaunched | present | absent | unknown
  deriving DecidableEq, Repr

inductive DrainOutcome where
  | notEntered | closed | interrupted | expired
  deriving DecidableEq, Repr

inductive Signal where
  | sigterm | sigkill
  deriving DecidableEq, Repr

structure OwnedGitRequest where
  cwd : String
  args : List String := []
  kind : String
  aborted : Bool := false

structure OwnedGitOptions where
  supportedPlatform : Bool := true
  gitExecutable : String
  readTimeoutMs : ℤ
  materializeTimeoutMs : ℤ
  maxOutputBytes : ℤ
  terminationTimeoutMs : ℤ := 5000
  normalExitDrainMs : ℤ := 250

/-- What `process.kill` does, and the code of its error. -/
inductive KillResult where
  | sent
  | failed (code : Option String)
  deriving DecidableEq, Repr

/-- The readings of the clock and the results of `process.kill`, in the order of the calls. -/
structure Oracle where
  now : ℕ → ℚ
  kill : ℕ → KillResult

inductive Settlement where
  | resolved (status : ℤ)
  | rejected (code : OwnedGitErrorCode)
  deriving DecidableEq, Repr

/-- What is done to the process group: an observation that it is absent, or a signal to it. -/
inductive Act where
  | absent
  | signal (signal : Signal)
  deriving DecidableEq, Repr

/-- The variables of a call; the numbers of the next clock reading and of the next `process.kill`; and
what has happened: the reasons of the terminations, the exits, and the acts on the group. -/
structure World where
  childPid : Option ℕ := none
  pid : Option ℕ := none
  spawnAttempted : Bool := false
  synchronousSpawnFailure : Bool := false
  asyncSpawnFailure : Bool := false
  spawned : Bool := false
  exitObserved : Bool := false
  closeObserved : Bool := false
  status : Option ℤ := none
  exitSignal : Option String := none
  groupState : GroupState := .notLaunched
  groupChecks : ℕ := 0
  trigger : Option Trigger := none
  spawnErrorCode : Option String := none
  observedBytes : ℕ := 0
  capturedBytes : ℕ := 0
  outputTruncated : Bool := false
  stdout : List UInt8 := []
  stderr : List UInt8 := []
  settled : Bool := false
  terminationStarted : Option ℚ := none
  termSent : Bool := false
  killSent : Bool := false
  normalDrainStarted : Option ℚ := none
  normalDrainElapsed : ℚ := 0
  normalDrainOutcome : DrainOutcome := .notEntered
  readings : ℕ := 0
  kills : ℕ := 0
  reasons : List Trigger := []
  exits : List (Option ℤ × Option String) := []
  acts : List Act := []
  /-- with the confirmation of the cleanup -/
  settlements : List (Settlement × Bool) := []

section Runner

variable (options : OwnedGitOptions) (oracle : Oracle)

/-! ## Settling -/

def cleanupConfirmed (w : World) : Bool :=
  if w.pid.isNone then
    !w.spawnAttempted || w.synchronousSpawnFailure || (w.asyncSpawnFailure && w.closeObserved)
  else w.exitObserved && w.closeObserved && w.groupState == .absent

def World.read (w : World) : World := { w with readings := w.readings + 1 }

/-- The timers and observers go with it. -/
def finish (errorCode : Option OwnedGitErrorCode) (w : World) : World :=
  if w.settled then w
  else
    let settlement := match errorCode, w.status with
      | some code, _ => .rejected code
      | none, some status => .resolved status
      | none, none => .rejected (.trigger .spawnFailed)
    { w with settled := true, settlements := w.settlements ++ [(settlement, cleanupConfirmed w)] }

/-! ## The process group -/

/-- `process.kill(-pid, 0)` -/
def probeGroup (w : World) : World :=
  if w.pid.isNone || w.groupState == .absent then w
  else
    let w := { w with groupChecks := w.groupChecks + 1, kills := w.kills + 1 }
    match oracle.kill (w.kills - 1) with
    | .sent => { w with groupState := .present }
    | .failed code =>
      if code = some "ESRCH" then { w with groupState := .absent, acts := w.acts ++ [.absent] }
      else { w with groupState := .unknown }

/-- `process.kill(-pid, name)` -/
def signalGroup (name : Signal) (w : World) : World :=
  let w := { w with acts := w.acts ++ [.signal name], kills := w.kills + 1 }
  match oracle.kill (w.kills - 1) with
  | .sent => w
  | .failed code =>
    if code = some "ESRCH" then { w with groupState := .absent, acts := w.acts ++ [.absent] }
    else { w with groupState := .unknown }

def sendGroupSignal (name : Signal) (w : World) : World :=
  if w.pid.isNone || !w.spawned then w
  else
    let w := probeGroup oracle w
    if w.groupState = .absent then w else signalGroup oracle name w

/-! ## Termination -/

def terminateGroup (w : World) : World :=
  if w.spawned && !w.termSent then sendGroupSignal oracle .sigterm { w with termSent := true } else w

def killGroup (elapsed : ℚ) (w : World) : World :=
  let grace : ℤ := min 1000 (options.terminationTimeoutMs / 2)
  if w.spawned && !w.killSent && (grace : ℚ) ≤ elapsed then
    sendGroupSignal oracle .sigkill { w with killSent := true }
  else w

def probeSpawned (w : World) : World := if w.spawned then probeGroup oracle w else w

def pollCleanup (w : World) : World :=
  match w.settled, w.terminationStarted with
  | false, some started =>
    let w := probeSpawned oracle w
    if w.pid.isNone && w.closeObserved then
      finish (some (.trigger (w.trigger.getD .spawnFailed))) w
    else if w.exitObserved && w.closeObserved && w.groupState == .absent then
      finish (w.trigger.map .trigger) w
    else
      let elapsed := oracle.now w.readings - started
      let w := killGroup options oracle elapsed (terminateGroup oracle w.read)
      if (options.terminationTimeoutMs : ℚ) ≤ elapsed then finish (some .cleanupUncertain) w else w
  | _, _ => w

def drainRead (started : ℚ) (w : World) : World :=
  { w with normalDrainElapsed := oracle.now w.readings - started, readings := w.readings + 1 }

def interruptDrain (w : World) : World :=
  match w.normalDrainStarted with
  | some started =>
    if w.normalDrainOutcome = .notEntered then
      { drainRead oracle started w with normalDrainOutcome := .interrupted }
    else w
  | none => w

def noted (reason : Trigger) (w : World) : World :=
  { w with trigger := w.trigger.or (some reason), reasons := w.reasons ++ [reason] }

def terminating (w : World) : World :=
  { w with terminationStarted := some (oracle.now w.readings), readings := w.readings + 1 }

def terminate (reason : Trigger) (w : World) : World :=
  if w.settled then w
  else
    let w := interruptDrain oracle (noted reason w)
    if w.terminationStarted.isNone then pollCleanup options oracle (terminating oracle w) else w

/-! ## The end of a normal exit -/

def pollNormalDrain (w : World) : World :=
  match w.settled || w.trigger.isSome, w.normalDrainStarted with
  | false, some started =>
    let w := drainRead oracle started (probeGroup oracle w)
    if (options.normalExitDrainMs : ℚ) ≤ w.normalDrainElapsed then
      terminate options oracle .lingeringGroup { w with normalDrainOutcome := .expired }
    else if w.exitObserved && w.closeObserved && w.groupState == .absent then
      finish none { w with normalDrainOutcome := .closed }
    else w
  | _, _ => w

/-! ## Callbacks -/

def onSpawn (w : World) : World :=
  let w := { w with spawned := true, pid := w.childPid, groupState := .present }
  if w.trigger.isSome then pollCleanup options oracle w else w

def onChildError (code : Option String) (w : World) : World :=
  let w := { w with
    spawnErrorCode := code, asyncSpawnFailure := !w.spawned && w.childPid.isNone }
  let w := if w.pid.isNone && w.childPid.isSome then
      { w with pid := w.childPid, spawned := true, groupState := .present }
    else w
  terminate options oracle .spawnFailed w

def beginDrain (w : World) : World :=
  if w.normalDrainStarted.isNone then
    { w with normalDrainStarted := some (oracle.now w.readings), readings := w.readings + 1 }
  else w

def onExit (code : Option ℤ) (childSignal : Option String) (w : World) : World :=
  let w := { w with
    exitObserved := true
    status := code
    exitSignal := childSignal
    exits := w.exits ++ [(code, childSignal)] }
  if w.trigger.isSome then w
  else if childSignal.isSome then terminate options oracle .signaled w
  else if code.isNone then terminate options oracle .spawnFailed w
  else pollNormalDrain options oracle (beginDrain oracle w)

def onClose (code : Option ℤ) (childSignal : Option String) (w : World) : World :=
  let w := { w with
    closeObserved := true
    status := w.status.or code
    exitSignal := w.exitSignal.or childSignal }
  if w.trigger.isSome || w.terminationStarted.isSome then pollCleanup options oracle w
  else if w.normalDrainStarted.isSome then pollNormalDrain options oracle w
  else terminate options oracle (if w.spawned then .lingeringGroup else .spawnFailed) w

inductive Target where
  | stdout | stderr
  deriving DecidableEq, Repr

def keep (target : Target) (kept : List UInt8) (w : World) : World :=
  let w := { w with capturedBytes := w.capturedBytes + kept.length }
  match target with
  | .stdout => { w with stdout := w.stdout ++ kept }
  | .stderr => { w with stderr := w.stderr ++ kept }

def retain (target : Target) (chunk : List UInt8) (w : World) : World :=
  let w := { w with observedBytes := w.observedBytes + chunk.length }
  let remaining := options.maxOutputBytes - w.capturedBytes
  if 0 < remaining then keep target (chunk.take remaining.toNat) w else w

def capture (target : Target) (chunk : List UInt8) (w : World) : World :=
  if w.settled then w
  else
    let w := retain options target chunk w
    if options.maxOutputBytes < w.observedBytes then
      terminate options oracle .outputLimit { w with outputTruncated := true }
    else w

/-! ## A call -/

def bounded (value max : ℤ) : Bool := 1 ≤ value && value ≤ max

def absolutePath (path : String) : Bool :=
  path.toList.head? == some '/' && !path.toList.contains (Char.ofNat 0)

def validInput (request : OwnedGitRequest) : Bool :=
  absolutePath request.cwd && absolutePath options.gitExecutable &&
    request.args.all (fun arg => !arg.toList.contains (Char.ofNat 0)) &&
    ["read", "materialize"].contains request.kind && bounded options.readTimeoutMs 30000 &&
    bounded options.materializeTimeoutMs 600000 &&
    bounded options.maxOutputBytes (16 * 1024 * 1024) &&
    bounded options.terminationTimeoutMs 30000 && bounded options.normalExitDrainMs 5000

/-- What `spawn` does: it throws, or it returns a child, without a pid where it could not start. -/
inductive SpawnResult where
  | throws (code : Option String)
  | child (pid : Option ℕ)

def refuse (trigger : Trigger) (w : World) : World :=
  finish (some (.trigger trigger)) { w with trigger := some trigger, reasons := w.reasons ++ [trigger] }

def launch (request : OwnedGitRequest) (result : SpawnResult) : World :=
  if !options.supportedPlatform then refuse .unsupportedPlatform {}
  else if !validInput options request then refuse .invalidInput {}
  else if request.aborted then refuse .aborted {}
  else match result with
    | .throws code =>
      refuse .spawnFailed
        { spawnAttempted := true, synchronousSpawnFailure := true, spawnErrorCode := code }
    | .child pid => { spawnAttempted := true, childPid := pid, pid }

/-- The callbacks. A timer may fire at any time, also when it is cleared in the code. -/
inductive Event where
  | spawn
  | error (code : Option String)
  | exit (code : Option ℤ) (signal : Option String)
  | close (code : Option ℤ) (signal : Option String)
  | data (target : Target) (chunk : List UInt8)
  | streamError
  | abort
  | operationTimer
  | cleanupTimer
  | drainTimer
  deriving DecidableEq, Repr

/-- After it is settled nothing is observed any more. -/
def step (w : World) (event : Event) : World :=
  if w.settled then w
  else match event with
    | .spawn => if w.childPid.isSome then onSpawn options oracle w else w
    | .error code => onChildError options oracle code w
    | .exit code signal => onExit options oracle code signal w
    | .close code signal => onClose options oracle code signal w
    | .data target chunk => capture options oracle target chunk w
    | .streamError => terminate options oracle .streamFailed w
    | .abort => terminate options oracle .aborted w
    | .operationTimer => terminate options oracle .timeout w
    | .cleanupTimer => pollCleanup options oracle w
    | .drainTimer => pollNormalDrain options oracle w

def run (w : World) (events : List Event) : World := events.foldl (step options oracle) w

def runOwnedGit (request : OwnedGitRequest) (result : SpawnResult) (events : List Event) : World :=
  run options oracle (launch options request result) events

end Runner

end Artoo.Node.OwnedGit
