import Artoo.Lib.Routines
import Artoo.Node.Porcelain

/-! The worktree of an owned attempt: its target is made once, materialized once, and verified again
before each later use. Handles are numbers; the answers of Git and of the file system are arbitrary. -/
namespace Artoo.Node.WorktreeReservation
open Artoo.Lib Artoo.Node.Porcelain

/-- A `WorktreeReservationError`, or an error of the file system, of Git or of an abort. -/
inductive Failure where
  | reservation (code message : String) (retainedRoot : Option Text)
  | other (message : String)
  deriving DecidableEq

structure DirectoryIdentity where
  path : Text
  identity : Text
  deriving DecidableEq

/-- What `lstat` says; the identity is `dev:ino`. -/
structure Stat where
  identity : Text
  directory : Bool
  symbolicLink : Bool

inductive Kind where
  | read | materialize
  deriving DecidableEq

/-- The output is none where it is not UTF-8. -/
structure GitResult where
  status : ℤ
  stdout : Option Text

structure FreshWorktreeValidation where
  canonicalTarget : Text
  canonicalSource : Text
  canonicalSourceCheckout : Text
  canonicalGitDirectory : Text
  canonicalCommonDirectory : Text
  sourceHead : Text

inductive Made where
  | created
  | exists_
  | failed (message : String)
  deriving DecidableEq

/-- What is read outside: at once, or after an await. The preflight reads nothing of the attempt but its
input and options, and changes nothing. -/
inductive Query where
  | aborted
  | realpath (path : Text)
  | lstat (path : Text)
  | readdir (path : Text)
  | mkdir (path : Text)
  | git (cwd : Text) (args : List Text) (kind : Kind)
  | preflight
  deriving DecidableEq

abbrev Answer : Query → Type
  | .aborted => Option String
  | .realpath _ => Except String Text
  | .lstat _ => Except String Stat
  | .readdir _ => Except String (List Text)
  | .mkdir _ => Made
  | .git _ _ _ => Except String GitResult
  | .preflight => Except String FreshWorktreeValidation

inductive Phase where
  | prepared | reserving | reserved | materializing | materialized | failed
  deriving DecidableEq, Repr

/-- What is fixed with the handle of a prepared worktree. -/
structure Attempt where
  root : Text
  sourceRepo : Text
  allowedRoots : List Text
  validation : FreshWorktreeValidation
  branch : Text
  boundaries : List DirectoryIdentity
  allowedPaths : List Text

/-- What the calls share: with the phases so far, and how many handles there are. -/
structure State where
  phase : Phase := .prepared
  target : Option DirectoryIdentity := none
  reservedStates : ℕ := 0
  materializedStates : ℕ := 0
  history : List Phase := [.prepared]

abbrev Task (α : Type) := Routine State Query Answer Failure α

/-! ## Paths -/

def slash : Char := '/'

/-- `dirname` of an absolute path -/
def dirname (path : Text) : Text :=
  let rest := ((path.reverse.dropWhile (· == slash)).dropWhile (· != slash)).drop 1
  if rest = [] then [slash] else if rest = [slash] then [slash, slash] else rest.reverse

/-- The names of an absolute path, without dot segments. -/
def names (path : Text) : List Text :=
  (path.splitOn slash).foldl (fun before name =>
    if name = [] ∨ name = ['.'] then before
    else if name = ['.', '.'] then before.dropLast
    else before ++ [name]) []

def within (child parent : Text) : Bool := (names parent).isPrefixOf (names child)

def overlaps (a b : Text) : Bool := within a b || within b a

/-! ## Readings -/

def fail {α : Type} (code message : String) : Task α := .fail (.reservation code message none)

def throwIf (condition : Bool) (code message : String) : Task Unit :=
  if condition then fail code message else pure ()

def ofExcept {α : Type} : Except String α → Task α
  | .ok a => pure a
  | .error message => .fail (.other message)

def phase : Task Phase := do return (← Routine.read).phase

def setPhase (next : Phase) : Task Unit :=
  Routine.modify fun s => { s with phase := next, history := s.history ++ [next] }

def assertNotAborted : Task Unit := do
  let reason : Option String ← Routine.reading Query.aborted
  match reason with
  | some message => .fail (.other message)
  | none => pure ()

def realpath (path : Text) : Task Text := do ofExcept (← Routine.reading (.realpath path))

def observe (path : Text) : Task DirectoryIdentity := do
  let info ← ofExcept (← Routine.reading (.lstat path))
  throwIf (!info.directory || info.symbolicLink) "invalid_directory"
    "An observed canonical directory is no longer a plain directory"
  throwIf ((← realpath path) != path) "invalid_directory"
    "An observed canonical directory is no longer a plain directory"
  return { path, identity := info.identity }

section Attempt

variable (a : Attempt)

/-! ## Boundaries -/

def movedMessage : String := "A configured path now resolves to a different directory"

def anyMoved : List (Text × Text) → Task Bool
  | [] => pure false
  | (root, path) :: rest => do if (← realpath root) ≠ path then pure true else anyMoved rest

def assertIdentity (expected : DirectoryIdentity) : Task PUnit := do
  throwIf ((← observe expected.path).identity != expected.identity) "changed_identity"
    "An observed directory identity changed"

def assertTarget : Option DirectoryIdentity → Task Unit
  | none => pure ()
  | some target => do
    throwIf ((← realpath a.root) != target.path) "changed_identity"
      "The owned target now resolves to a different directory"

def assertEmpty : Task Unit := do
  let entries ← ofExcept (← Routine.reading (.readdir a.root))
  throwIf (!entries.isEmpty) "occupied_reservation" "The owned reservation is no longer empty"

def assertConfigured : Task Unit := do
  throwIf ((← realpath (dirname a.root)) != dirname a.validation.canonicalTarget) "changed_identity"
    movedMessage
  throwIf ((← realpath a.sourceRepo) != a.validation.canonicalSource) "changed_identity" movedMessage
  throwIf (← anyMoved (a.allowedRoots.zip a.allowedPaths)) "changed_identity" movedMessage

def assertBoundaries (requireEmpty : Bool) : Task Unit := do
  assertConfigured a
  let target := (← Routine.read).target
  a.boundaries.forM assertIdentity
  target.toList.forM assertIdentity
  assertTarget a target
  if requireEmpty then assertEmpty a else pure ()

/-! ## Git -/

def git (cwd : Text) (args : List Text) (allowedStatuses : List ℤ) (kind : Kind) : Task GitResult := do
  let admittedPhase ← phase
  throwIf (admittedPhase == .failed) "invalid_handle" "The owned attempt has already failed"
  assertNotAborted
  assertBoundaries a false
  let result ← ofExcept (← Routine.waiting (.git cwd args kind))
  throwIf ((← phase) != admittedPhase) "invalid_handle"
    "The owned attempt changed state during Git validation"
  assertNotAborted
  assertBoundaries a false
  throwIf (!allowedStatuses.contains result.status) "git_failed"
    s!"Git {String.ofList (args.headD [])} failed (exit {result.status}); no cleanup was attempted"
  return result

/-- `/[\x00-\x1f\x7f]/` -/
def isControl (c : Char) : Bool := c.toNat ≤ 0x1f || c.toNat == 0x7f

def line : Option Text → Task Text
  | none => fail "invalid_git_output" "Git output is not UTF-8"
  | some output => do
    let value := decode output
    throwIf (value.getLast? != some '\n' || value.dropLast.isEmpty || value.dropLast.any isControl)
      "invalid_git_output" "Git output is not one unambiguous line"
    return value.dropLast

def canonicalGitPath (cwd : Text) (arg : String) : Task Text := do
  let result ← git a cwd ["rev-parse".toList, arg.toList] [0] .read
  let value ← line result.stdout
  realpath (if isAbsolute .posix value then value else cwd ++ slash :: value)

def records : Option Text → Task (List WorktreeRecord)
  | none => .fail (.other "Git output is not valid UTF-8")
  | some output => match parseWorktreePorcelain .posix output with
    | .ok records => pure records
    | .error e => .fail (.other e.message)

def branchRef : Text := "refs/heads/".toList ++ a.branch

/-- The number of entries of the worktree itself. -/
def assertRecords (materialized : Bool) : List WorktreeRecord → List Text → ℕ → Task ℕ
  | [], _, ownEntries => pure ownEntries
  | record :: rest, identities, ownEntries => do
    let path ← realpath record.path
    let directory ← observe path
    throwIf (identities.contains directory.identity) "invalid_registry"
      "Worktree records alias one physical directory"
    let target := (← Routine.read).target
    if materialized && path == a.validation.canonicalTarget &&
        target.any (·.identity == directory.identity) then
      throwIf (record.head != some a.validation.sourceHead || record.branch != some (branchRef a) ||
        record.detached || record.bare || record.locked || record.prunable) "unexpected_worktree"
        "The owned worktree registration has unexpected state"
      assertRecords materialized rest (directory.identity :: identities) (ownEntries + 1)
    else
      throwIf (overlaps path a.validation.canonicalTarget) "unsafe_topology"
        "Target overlaps another registered worktree"
      assertRecords materialized rest (directory.identity :: identities) ownEntries

def changedRepository : String := "Source checkout or Git metadata location changed"

def mismatch : String :=
  "Materialized checkout does not match the requested root, branch, commit and repository"

def assertCheckout (ownEntries : ℕ) : Task Unit := do
  let value := a.validation
  throwIf (ownEntries != 1) "unexpected_worktree" "Expected exactly one owned worktree registration"
  throwIf ((← canonicalGitPath a a.root "--show-toplevel") != value.canonicalTarget)
    "unexpected_worktree" mismatch
  throwIf ((← canonicalGitPath a a.root "--git-common-dir") != value.canonicalCommonDirectory)
    "unexpected_worktree" mismatch
  let branch ← git a a.root ["symbolic-ref".toList, "--quiet".toList, "HEAD".toList] [0] .read
  throwIf ((← line branch.stdout) != branchRef a) "unexpected_worktree" mismatch
  let head ← git a a.root ["rev-parse".toList, "--verify".toList, "HEAD^\x7bcommit\x7d".toList] [0] .read
  throwIf ((← line head.stdout) != value.sourceHead) "unexpected_worktree" mismatch
  let metadata ← canonicalGitPath a a.root "--absolute-git-dir"
  throwIf (!within metadata value.canonicalCommonDirectory ||
    !a.allowedPaths.any (within metadata ·)) "outside_allowlist"
    "New worktree metadata is outside its authorized common directory"

def assertRepository (materialized : Bool) : Task Unit := do
  let value := a.validation
  let source := value.canonicalSource
  throwIf ((← canonicalGitPath a source "--show-toplevel") != value.canonicalSourceCheckout)
    "changed_repository" changedRepository
  throwIf ((← canonicalGitPath a source "--absolute-git-dir") != value.canonicalGitDirectory)
    "changed_repository" changedRepository
  throwIf ((← canonicalGitPath a source "--git-common-dir") != value.canonicalCommonDirectory)
    "changed_repository" changedRepository
  let _ ← git a source
    ["cat-file".toList, "-e".toList, value.sourceHead ++ "^\x7bcommit\x7d".toList] [0] .read
  let listing ← git a source
    ["worktree".toList, "list".toList, "--porcelain".toList, "-z".toList] [0] .read
  let listed ← records listing.stdout
  let ownEntries ← assertRecords a materialized listed [] 0
  if materialized then assertCheckout a ownEntries else pure ()

/-! ## Operations -/

def retained : Failure → Failure
  | .reservation code message _ => .reservation code
      s!"{message}. Reservation/partial worktree retained at {String.ofList a.root}" (some a.root)
  | .other message => .reservation "verification_failed"
      s!"{message}. Reservation/partial worktree retained at {String.ofList a.root}" (some a.root)

def retainFailure {α : Type} (e : Failure) : Task α := do
  setPhase .failed
  .fail (retained a e)

def makeTarget : Task Unit := do
  let made : Made ← Routine.reading (Query.mkdir a.root)
  match made with
  | .created => pure ()
  | .exists_ => fail "occupied_target" "Target is occupied; reservation was not acquired"
  | .failed message => .fail (.other message)

def movedLocation (current : FreshWorktreeValidation) : Bool :=
  current.canonicalTarget != a.validation.canonicalTarget ||
    current.canonicalSource != a.validation.canonicalSource ||
    current.canonicalSourceCheckout != a.validation.canonicalSourceCheckout ||
    current.canonicalGitDirectory != a.validation.canonicalGitDirectory ||
    current.canonicalCommonDirectory != a.validation.canonicalCommonDirectory

def claimTarget : Task Unit := do
  assertNotAborted
  assertBoundaries a false
  let current ← ofExcept (← Routine.waiting .preflight)
  throwIf (movedLocation a current) "changed_identity"
    "A preflight location changed before reservation"
  assertBoundaries a false
  assertNotAborted
  makeTarget a

/-- The number of the new handle. -/
def observeTarget : Task ℕ := do
  let target ← observe a.validation.canonicalTarget
  Routine.modify fun s => { s with target := some target }
  assertBoundaries a true
  setPhase .reserved
  let handle := (← Routine.read).reservedStates
  Routine.modify fun s => { s with reservedStates := s.reservedStates + 1 }
  return handle

/-- Its errors say whether the target was acquired. -/
def reserveBody : Routine State Query Answer (Bool × Failure) ℕ := do
  (claimTarget a).recover fun e => .fail (false, e)
  (observeTarget a).recover fun e => .fail (true, e)

def reserveOwnedWorktree : Task ℕ := do
  throwIf ((← phase) != .prepared) "invalid_handle" "A fresh prepared handle is required"
  setPhase .reserving
  (reserveBody a).recover fun failure => do
    setPhase .failed
    if failure.1 then retainFailure a failure.2 else .fail failure.2

def worktreeAdd : Query :=
  .git a.validation.canonicalSource
    ["worktree".toList, "add".toList, "-b".toList, a.branch, "--".toList, a.root,
      a.validation.sourceHead] .materialize

def addWorktree : Task GitResult :=
  git a a.validation.canonicalSource
    ["worktree".toList, "add".toList, "-b".toList, a.branch, "--".toList, a.root,
      a.validation.sourceHead] [0] .materialize

def materializeBody : Task ℕ := do
  assertNotAborted
  assertBoundaries a true
  assertRepository a false
  assertBoundaries a true
  assertNotAborted
  let _ ← addWorktree a
  assertBoundaries a false
  assertRepository a true
  assertBoundaries a false
  assertNotAborted
  throwIf ((← phase) != .materializing) "invalid_handle" "The materialization attempt was invalidated"
  setPhase .materialized
  let handle := (← Routine.read).materializedStates
  Routine.modify fun s => { s with materializedStates := s.materializedStates + 1 }
  return handle

def materializeOwnedWorktree (reservation : ℕ) : Task ℕ := do
  let state ← Routine.read
  throwIf (!decide (reservation < state.reservedStates) || state.phase != .reserved) "invalid_handle"
    "An unused owned reservation is required"
  setPhase .materializing
  (materializeBody a).recover (retainFailure a)

def assertOwnedWorktreeLocalBoundary (worktree : ℕ) : Task Unit := do
  let state ← Routine.read
  throwIf (!decide (worktree < state.materializedStates) || state.phase != .materialized)
    "invalid_handle" "A still-valid materialized worktree handle is required"
  Routine.recover (do
    assertNotAborted
    assertBoundaries a false) (retainFailure a)

def assertOwnedMaterializedWorktree (worktree : ℕ) : Task Unit := do
  let state ← Routine.read
  throwIf (!decide (worktree < state.materializedStates) || state.phase != .materialized)
    "invalid_handle" "A verified materialized worktree handle is required"
  Routine.recover (do
    assertBoundaries a false
    assertRepository a true
    assertOwnedWorktreeLocalBoundary a worktree) (retainFailure a)

inductive Call where
  | reserve
  | materialize (reservation : ℕ)
  | assertMaterialized (worktree : ℕ)
  | assertLocalBoundary (worktree : ℕ)
  deriving DecidableEq

def code : Call → Task Unit
  | .reserve => do let _ ← reserveOwnedWorktree a
  | .materialize reservation => do let _ ← materializeOwnedWorktree a reservation
  | .assertMaterialized worktree => assertOwnedMaterializedWorktree a worktree
  | .assertLocalBoundary worktree => assertOwnedWorktreeLocalBoundary a worktree

abbrev Oracle := ℕ → (q : Query) → Answer q

abbrev World := Thread State Query Answer Failure Unit

/-- The calls on the handles of a prepared worktree, in any order and interleaving. -/
def run (oracle : Oracle) (events : List (Thread.Event Call)) : World :=
  Thread.run (code a) oracle { shared := { state := {} } } events

end Attempt

end Artoo.Node.WorktreeReservation
