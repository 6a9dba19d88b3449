import Mathlib.Data.List.Zip

/-! File lease paths: normalization to a relative path and overlap by path segment. -/
namespace Artoo.Domain

inductive LeaseMode where
  | read | write
  deriving DecidableEq, Repr

structure LeaseScope where
  path : String
  mode : LeaseMode
  deriving DecidableEq, Repr

inductive NormalizeLeasePathResult where
  | ok (path : String)
  | error (reason : String)
  deriving DecidableEq, Repr

def segments (path : String) : List String :=
  ((path.toList.splitOn '/').filter fun s => !s.isEmpty).map String.ofList

def toPosix (p : List Char) : List Char := p.map fun c => if c == '\\' then '/' else c

/-- `/^[a-zA-Z]:/.test(p) || p.startsWith("/")`. -/
def isAbsolutePosix : List Char → Bool
  | '/' :: _ => true
  | drive :: ':' :: _ => drive.isAlpha
  | _ => false

/-- The characters `String.prototype.trim` removes. -/
def isTrimmed (c : Char) : Bool :=
  let n := c.toNat
  n == 0x20 || (0x09 ≤ n && n ≤ 0x0D) || n == 0xA0 || n == 0x1680 || (0x2000 ≤ n && n ≤ 0x200A) ||
    n == 0x2028 || n == 0x2029 || n == 0x202F || n == 0x205F || n == 0x3000 || n == 0xFEFF

/-- The loop over the segments; the stack is kept in reverse. -/
def resolveSegments : List String → List String → Option (List String)
  | [], stack => some stack.reverse
  | seg :: rest, stack =>
    if seg == "." then resolveSegments rest stack
    else if seg == ".." then
      match stack with
      | [] => none
      | _ :: below => resolveSegments rest below
    else resolveSegments rest (seg :: stack)

/-- `toLowerCase` is the string method of the runtime. -/
def normalizeLeasePath (toLowerCase : String → String) (workspaceRoot rawPath : String) :
    NormalizeLeasePathResult :=
  let nul := Char.ofNat 0
  if rawPath.toList.contains nul || workspaceRoot.toList.contains nul then
    .error "path contains a null byte"
  else if rawPath.toList.all isTrimmed then .error "path is empty"
  else
    let posixRoot := ((toPosix workspaceRoot.toList).reverse.dropWhile (· == '/')).reverse
    let root := (toLowerCase (String.ofList posixRoot)).toList
    let raw := (toLowerCase (String.ofList (toPosix rawPath.toList))).toList
    let relative : Option (List Char) :=
      if isAbsolutePosix raw then
        if raw == root then some []
        else if !root.isEmpty && (root ++ ['/']).isPrefixOf raw then some (raw.drop (root.length + 1))
        else none
      else some raw
    match relative with
    | none => .error "absolute path escapes the workspace root"
    | some relative =>
      match resolveSegments (segments (String.ofList relative)) [] with
      | none => .error "path escapes the workspace root"
      | some stack => .ok ("/".intercalate stack)

/-- Equal over the shared length: one path is an ancestor of the other. -/
def pathsOverlap (a b : String) : Bool :=
  ((segments a).zip (segments b)).all fun pair => pair.1 == pair.2

def leasesConflict (a b : LeaseScope) : Bool :=
  pathsOverlap a.path b.path && (a.mode == .write || b.mode == .write)

theorem pathsOverlap_comm (a b : String) : pathsOverlap a b = pathsOverlap b a := by
  unfold pathsOverlap
  rw [← List.zip_swap, List.all_map]
  congr 1
  funext pair
  exact beq_eq_beq.mpr ⟨Eq.symm, Eq.symm⟩

theorem leasesConflict_comm (a b : LeaseScope) : leasesConflict a b = leasesConflict b a := by
  unfold leasesConflict
  rw [pathsOverlap_comm, Bool.or_comm]

/-- A path overlaps itself, so two writers of one path conflict. -/
theorem pathsOverlap_self (a : String) : pathsOverlap a a := by
  unfold pathsOverlap List.zip
  rw [List.zipWith_self, List.all_map]
  simp

example : leasesConflict ⟨"src/foo", .write⟩ ⟨"src/foo/bar.ts", .read⟩ = true ∧
    leasesConflict ⟨"src/foo", .write⟩ ⟨"src/foobar", .write⟩ = false := by decide +kernel

end Artoo.Domain
