import Artoo.Lib.Components
import Artoo.Lib.Ensures
import Artoo.Protocol.RunEvent
import Mathlib.Algebra.GroupWithZero.Nat

/-! The root of a run's worktree: the administrator's base directory, and a segment for the instance
and one for the run. -/
namespace Artoo.Protocol
open Artoo.Lib

inductive PathKind where
  | posix | windows
  deriving DecidableEq, Repr

inductive WorkspaceAllocationErrorCode where
  | invalidConfiguration | unsupportedOs | invalidBasePath | invalidIdentifier | pathTooLong
  deriving DecidableEq, Repr

structure WorkspaceAllocationError where
  code : WorkspaceAllocationErrorCode
  message : String
  deriving DecidableEq, Repr

abbrev Allocation := Except WorkspaceAllocationError

/-- `branchBacked` is a boolean by its type. -/
structure AllocationInput where
  workspaceRoot : Option String
  branchBacked : Bool
  targetComputerOs : String
  agentInstanceId : String
  runId : String
  worktreeBase : Option Json

structure WorktreeBaseConfiguration where
  basePath : String
  deriving DecidableEq, Repr

def maxIdAsciiLength : Nat := 64

def posixMaxPathBytes : Nat := 4095

def windowsMaxPathUnits : Nat := 259

/-- `Buffer.byteLength(…, "utf8")`. -/
def byteCount (cs : List Char) : Nat := (cs.map Char.utf8Size).sum

/-- The length in UTF-16 code units. -/
def unitCount (cs : List Char) : Nat := (cs.map fun c => if c.toNat < 0x10000 then 1 else 2).sum

def failWhen (refused : Bool) (code : WorkspaceAllocationErrorCode) (message : String) :
    Allocation Unit :=
  if refused then .error ⟨code, message⟩ else .ok ()

def invalidBase (refused : Bool) (reason : String) : Allocation Unit :=
  failWhen refused .invalidBasePath reason

def pathKind (os : String) : Allocation PathKind :=
  if os = "darwin" ∨ os = "macos" ∨ os = "linux" then .ok .posix
  else if os = "win32" ∨ os = "windows" then .ok .windows
  else .error ⟨.unsupportedOs, "Per-run worktrees require a supported target computer OS"⟩

def PathKind.isSeparator : PathKind → Char → Bool
  | .posix, c => c == '/'
  | .windows, c => c == '/' || c == '\\'

/-! ## The base directory -/

def unsupportedCharacter (c : Char) : Bool :=
  decide (c.toNat < 0x20) || c.toNat == 0x7f || c == ';' || c == ','

def isDriveRoot : List Char → Bool
  | drive :: ':' :: s :: _ => drive.isAlpha && PathKind.windows.isSeparator s
  | _ => false

/-- Two equal separators, a server and a share. -/
def isUncRoot : List Char → Bool
  | '\\' :: '\\' :: rest | '/' :: '/' :: rest =>
    !(rest.takeWhile fun c => !PathKind.windows.isSeparator c).isEmpty &&
      !(((rest.dropWhile fun c => !PathKind.windows.isSeparator c).drop 1).takeWhile fun c =>
        !PathKind.windows.isSeparator c).isEmpty
  | _ => false

/-- `win32.isAbsolute`. -/
def isAbsoluteWindows (path : List Char) : Bool :=
  path.head?.any PathKind.windows.isSeparator || isDriveRoot path

def isDeviceName (stem : List Char) : Bool :=
  let upper := String.ofList (stem.map Char.toUpper)
  ["CON", "PRN", "AUX", "NUL", "CLOCK$", "CONIN$", "CONOUT$"].contains upper ||
    match stem.map Char.toUpper with
    | ['C', 'O', 'M', n] | ['L', 'P', 'T', n] => "123456789¹²³".toList.contains n
    | _ => false

/-- The name before the first point, without the blanks at its end. -/
def deviceStem (part : List Char) : List Char :=
  ((part.takeWhile (· != '.')).reverse.dropWhile (· == ' ')).reverse

def validatePosixBase (base : List Char) : Allocation (List (List Char)) := do
  invalidBase (base.head? != some '/' || base.take 2 == ['/', '/'] || base.contains '\\')
    "Worktree base must be a fully qualified POSIX path with one leading slash and no Windows separators"
  invalidBase (posixMaxPathBytes < byteCount base)
    "POSIX worktree base exceeds the version 1 byte limit"
  let parts := components PathKind.posix.isSeparator base
  invalidBase (parts.any fun part => 255 < byteCount part)
    "POSIX worktree base component exceeds the version 1 byte limit"
  return parts

def validateWindowsPart (part : List Char) : Allocation Unit := do
  invalidBase (255 < unitCount part || part.any ("<>:\"|?*".toList.contains ·) ||
      part.getLast?.any fun c => c == '.' || c == ' ')
    "Windows worktree base contains an unsupported component"
  invalidBase (isDeviceName (deviceStem part))
    "Windows device names are not supported in a worktree base"

def validateWindowsBase (base : List Char) : Allocation (List (List Char)) := do
  let driveRoot := isDriveRoot base
  invalidBase ((!driveRoot && !isUncRoot base) || !isAbsoluteWindows base)
    "Worktree base must be a fully qualified Windows drive or UNC share path"
  invalidBase (windowsMaxPathUnits < unitCount base)
    "Windows worktree base exceeds the version 1 UTF-16 limit"
  let parts := components PathKind.windows.isSeparator (base.drop (if driveRoot then 3 else 2))
  parts.forM validateWindowsPart
  return parts

/-- A string has no lone surrogates here. -/
def validateBase (base : List Char) (kind : PathKind) : Allocation Unit := do
  invalidBase (base.any unsupportedCharacter)
    "Worktree base contains malformed Unicode, control characters, or unsupported configuration delimiters"
  let parts ← match kind with
    | .posix => validatePosixBase base
    | .windows => validateWindowsBase base
  invalidBase (parts.any fun part => part == ['.'] || part == ['.', '.'])
    "Worktree base must not contain dot or parent-traversal segments"

def invalidConfiguration (message : String) : WorkspaceAllocationError :=
  ⟨.invalidConfiguration, message⟩

/-- The keys of an object are apart. -/
def validateWorktreeBaseConfiguration (value : Json) (targetComputerOs : String) :
    Allocation WorktreeBaseConfiguration :=
  match value with
  | .obj fields =>
    if fields.length != 3 ||
        !(fields.all fun f => ["version", "strategy", "basePath"].contains f.1) then
      .error (invalidConfiguration
        "Worktree base setting requires exactly version 1, per-run strategy and basePath")
    else
      match fields.lookup "version", fields.lookup "strategy", fields.lookup "basePath" with
      | some (.num version), some (.str strategy), some (.str basePath) =>
        if version = 1 ∧ strategy = "per-run" then do
          let kind ← pathKind targetComputerOs
          validateBase basePath.toList kind
          return { basePath }
        else
          .error (invalidConfiguration
            "Worktree base setting requires exactly version 1, per-run strategy and basePath")
      | _, _, _ =>
        .error (invalidConfiguration
          "Worktree base setting requires exactly version 1, per-run strategy and basePath")
  | _ => .error (invalidConfiguration "Worktree base setting must be a versioned object")

/-! ## The segments -/

inductive IdPrefix where
  | ai | run
  deriving DecidableEq, Repr

def IdPrefix.name : IdPrefix → String
  | .ai => "ai" | .run => "run"

def isIdChar (c : Char) : Bool := c.isAlphanum || c == '_' || c == '-'

/-- `/^ai_[A-Za-z0-9_-]+$/`, or so for a run. -/
def isIdentifier (id : List Char) (p : IdPrefix) : Bool :=
  let start := p.name.toList ++ ['_']
  start.isPrefixOf id && !(id.drop start.length).isEmpty && (id.drop start.length).all isIdChar

/-- Two hexadecimal digits a character. -/
def hexOf (id : List Char) : List Char :=
  id.flatMap fun c => [Nat.digitChar (c.toNat / 16), Nat.digitChar (c.toNat % 16)]

def encodedId (id : String) (p : IdPrefix) : Allocation (List Char) :=
  if maxIdAsciiLength < unitCount id.toList || !isIdentifier id.toList p then
    .error ⟨.invalidIdentifier,
      p.name ++ " identifier must be a prefixed ASCII segment of at most 64 characters"⟩
  else .ok (hexOf id.toList)

def allocationSuffix (separator : Char) (instanceHex runHex : List Char) : List Char :=
  "artoo-runs".toList ++ separator :: ("i-".toList ++ instanceHex) ++
    separator :: ("r-".toList ++ runHex)

def PathKind.separator : PathKind → Char
  | .posix => '/' | .windows => '\\'

/-- The base, a separator unless it ends in one, and the suffix. -/
def rootOf (kind : PathKind) (base suffix : List Char) : List Char :=
  base ++ (if base.getLast?.any kind.isSeparator then [] else [kind.separator]) ++ suffix

def tooLong (kind : PathKind) (root : List Char) : Bool :=
  match kind with
  | .windows => windowsMaxPathUnits < unitCount root
  | .posix => posixMaxPathBytes < byteCount root

def allocateWorkspaceRoot (input : AllocationInput) : Allocation (Option String) :=
  match input.branchBacked, input.worktreeBase with
  | true, some base => do
    let config ← validateWorktreeBaseConfiguration base input.targetComputerOs
    let kind ← pathKind input.targetComputerOs
    let instanceHex ← encodedId input.agentInstanceId .ai
    let runHex ← encodedId input.runId .run
    let root := rootOf kind config.basePath.toList
      (allocationSuffix kind.separator instanceHex runHex)
    failWhen (tooLong kind root) .pathTooLong
      "Allocated worktree root exceeds the version 1 target path limit"
    return some (String.ofList root)
  | _, _ => .ok input.workspaceRoot

end Artoo.Protocol
