import Artoo.Lib.Components
import Artoo.Lib.Utf16

/-! The workspace guard: a path lies within a scope if it is resolved to a place in or under one of
the allowed roots. -/
namespace Artoo.Protocol
open Artoo.Lib

/-- What the guard uses of `node:path`, `path.posix` or `path.win32`. -/
structure PathApi where
  sep : UInt16
  resolve : Units → Units

def slash : UInt16 := 0x2F

def backslash : UInt16 := 0x5C

def dot : Units := [0x2E]

def dotDot : Units := [0x2E, 0x2E]

/-! ## The guard -/

section Guard

variable (toLowerCase : Units → Units)

def caseFold (value : Units) (pathApi : PathApi) : Units :=
  if pathApi.sep = backslash then toLowerCase value else value

def withSep (sep : UInt16) (path : Units) : Units :=
  if path.getLast? = some sep then path else path ++ [sep]

def isPathWithinScope (target : Units) (allowedRoots : List Units) (pathApi : PathApi) : Bool :=
  let resolvedTarget := caseFold toLowerCase (pathApi.resolve target) pathApi
  allowedRoots.any fun root =>
    let resolvedRoot := caseFold toLowerCase (pathApi.resolve root) pathApi
    resolvedTarget == resolvedRoot || (withSep pathApi.sep resolvedRoot).isPrefixOf resolvedTarget

end Guard

/-! ## `path.posix.resolve` -/

/-- The working directory, which is absolute. -/
structure Base where
  cwd : Units
  absolute : cwd.head? = some slash

def normalizeStep (parts : List Units) (part : Units) : List Units :=
  if part = dot then parts else if part = dotDot then parts.dropLast else parts ++ [part]

/-- The names that lead from the root to the place of a path. -/
def normalize (path : Units) : List Units :=
  (components (· == slash) path).foldl normalizeStep []

def Base.absolutePath (base : Base) (path : Units) : Units :=
  if path.head? = some slash then path else base.cwd ++ slash :: path

def Base.resolve (base : Base) (path : Units) : Units :=
  slash :: [slash].intercalate (normalize (base.absolutePath path))

def posix (base : Base) : PathApi := { sep := slash, resolve := base.resolve }

/-! ## Segments -/

/-- A root that is only a separator has one segment, the empty one. -/
def segments (sep : UInt16) (path : Units) : List Units := (trimmed sep path).splitOn sep

/-- Only a root ends with a separator, and it never lacks it. -/
def TrimsSeparators (toLowerCase : Units → Units) (pathApi : PathApi) : Prop :=
  ∀ p q, caseFold toLowerCase (pathApi.resolve p) pathApi ≠
    caseFold toLowerCase (pathApi.resolve q) pathApi ++ [pathApi.sep]

theorem withSep_eq (sep : UInt16) (path : Units) : withSep sep path = trimmed sep path ++ [sep] := by
  unfold withSep
  rcases trimmed_cases sep path with is | ⟨last, is⟩
  · rw [← is, if_pos]
    rw [is, List.getLast?_concat]
  · rw [if_neg last, is]

/-- The test on the strings is one on their segments. -/
theorem segments_of_prefixed {sep : UInt16} {root target : Units} (trims : root ≠ target ++ [sep]) :
    target = root ∨ withSep sep root <+: target ↔ segments sep root <+: segments sep target := by
  unfold segments
  rw [splitOn_of_prefixed, withSep_eq]
  rcases trimmed_cases sep target with ends | ⟨last, same⟩
  · have front : trimmed sep root ++ [sep] <+: target ↔
        trimmed sep root = trimmed sep target ∨ trimmed sep root ++ [sep] <+: trimmed sep target := by
      conv_lhs => rw [ends]
      rw [List.prefix_concat_iff, List.append_cancel_right_eq]
    rw [← front]
    constructor
    · rintro (rfl | within)
      · exact ⟨[], by rw [List.append_nil, ← ends]⟩
      · exact within
    · exact Or.inr
  · rw [same]
    constructor
    · rintro (rfl | within)
      · exact Or.inl same
      · exact Or.inr within
    · rintro (here | within)
      · rcases trimmed_cases sep root with rootEnds | ⟨_, rootSame⟩
        · rw [here] at rootEnds
          exact absurd rootEnds trims
        · exact Or.inl (here.symm.trans rootSame)
      · exact Or.inr within

section Within

variable {toLowerCase : Units → Units} {pathApi : PathApi} {target : Units} {roots : List Units}

theorem isPathWithinScope_iff (trims : TrimsSeparators toLowerCase pathApi) :
    isPathWithinScope toLowerCase target roots pathApi = true ↔ ∃ root ∈ roots,
      segments pathApi.sep (caseFold toLowerCase (pathApi.resolve root) pathApi) <+:
        segments pathApi.sep (caseFold toLowerCase (pathApi.resolve target) pathApi) := by
  unfold isPathWithinScope
  simp only [List.any_eq_true, Bool.or_eq_true, beq_iff_eq, List.isPrefixOf_iff_prefix]
  constructor
  · rintro ⟨root, there, within⟩
    exact ⟨root, there, (segments_of_prefixed (trims root target)).mp within⟩
  · rintro ⟨root, there, within⟩
    exact ⟨root, there, (segments_of_prefixed (trims root target)).mpr within⟩

/-- A name that only extends the last one of the root is no place under it. -/
theorem not_within_sibling {root rest : Units} {c : UInt16} (other : c ≠ pathApi.sep)
    (plain : (caseFold toLowerCase (pathApi.resolve root) pathApi).getLast? ≠ some pathApi.sep)
    (extends_ : caseFold toLowerCase (pathApi.resolve target) pathApi =
      caseFold toLowerCase (pathApi.resolve root) pathApi ++ c :: rest) :
    isPathWithinScope toLowerCase target [root] pathApi = false := by
  unfold isPathWithinScope withSep
  simp only [List.any_cons, List.any_nil, Bool.or_false, extends_, if_neg plain]
  rw [Bool.or_eq_false_iff]
  constructor
  · simp
  · rw [← Bool.not_eq_true, List.isPrefixOf_iff_prefix, List.prefix_append_right_inj]
    intro starts
    exact other (List.cons_prefix_cons.mp starts).1.symm

end Within

/-! ## Posix -/

section Posix

variable {toLowerCase : Units → Units} {base : Base} {p q : Units}

@[simp] theorem caseFold_posix : caseFold toLowerCase p (posix base) = p := by
  unfold caseFold
  rw [if_neg]
  change slash ≠ backslash
  decide

/-- A name of a path, not a step of one. -/
def Name (part : Units) : Prop := part ≠ [] ∧ slash ∉ part ∧ part ≠ dot ∧ part ≠ dotDot

theorem name_of_mem_components {part : Units} (there : part ∈ components (· == slash) p) :
    part ≠ [] ∧ slash ∉ part := by
  unfold components at there
  obtain ⟨inside, some_⟩ := List.mem_filter.mp there
  rw [← List.splitOn_eq_splitOnP] at inside
  exact ⟨by simpa using some_, (splitOn_parts inside).1⟩

theorem names_foldl {parts stack : List Units} (each : ∀ part ∈ parts, part ≠ [] ∧ slash ∉ part)
    (names : ∀ part ∈ stack, Name part) : ∀ part ∈ parts.foldl normalizeStep stack, Name part := by
  induction parts generalizing stack with
  | nil => exact names
  | cons first parts ih =>
    apply ih fun part there => each part (List.mem_cons_of_mem _ there)
    have here := each first List.mem_cons_self
    unfold normalizeStep
    split_ifs with isDot isDotDot
    · exact names
    · exact fun part there => names part (List.dropLast_subset _ there)
    · intro part there
      rcases List.mem_append.mp there with old | new
      · exact names part old
      · rw [List.mem_singleton.mp new]
        exact ⟨here.1, here.2, isDot, isDotDot⟩

theorem names_normalize : ∀ part ∈ normalize p, Name part :=
  names_foldl (fun _ there => name_of_mem_components there) nofun

variable (base p) in
theorem resolve_cases :
    (normalize (base.absolutePath p) = [] ∧ base.resolve p = [slash]) ∨
    (normalize (base.absolutePath p) ≠ [] ∧ (base.resolve p).getLast? ≠ some slash) := by
  by_cases none : normalize (base.absolutePath p) = []
  · left
    refine ⟨none, ?_⟩
    unfold Base.resolve
    rw [none]
    rfl
  · right
    refine ⟨none, ?_⟩
    obtain ⟨c, last, other⟩ := getLast_intercalate none fun part there =>
      ⟨(names_normalize part there).1, (names_normalize part there).2.1⟩
    unfold Base.resolve
    rw [← List.singleton_append, List.getLast?_append, last]
    simpa using other

/-- The empty segment before the first separator, and the names. -/
theorem segments_resolve :
    segments slash (base.resolve p) = [] :: normalize (base.absolutePath p) := by
  unfold segments
  rcases resolve_cases base p with ⟨none, is⟩ | ⟨some_, last⟩
  · rw [none, is]
    rfl
  · rw [trimmed_of_ne last]
    unfold Base.resolve
    rw [← List.nil_append (slash :: _), List.splitOn_append_cons_self, List.splitOn_nil,
      List.splitOn_intercalate slash (fun part there => (names_normalize part there).2.1) some_]
    rfl

theorem trims_posix : TrimsSeparators toLowerCase (posix base) := by
  intro p q same
  rw [caseFold_posix, caseFold_posix] at same
  change base.resolve p = base.resolve q ++ [slash] at same
  rcases resolve_cases base p with ⟨_, is⟩ | ⟨_, last⟩
  · rw [is] at same
    have length := congrArg List.length same
    simp [Base.resolve] at length
  · rw [same] at last
    simp at last

theorem absolutePath_append {scope : Units} (some_ : scope ≠ []) :
    base.absolutePath (scope ++ p) = base.absolutePath scope ++ p := by
  unfold Base.absolutePath
  rw [List.head?_append_of_ne_nil _ some_]
  split_ifs <;> simp

/-- A separator at the end of a scope changes nothing. -/
theorem resolve_snoc {scope : Units} (some_ : scope ≠ []) :
    base.resolve (scope ++ [slash]) = base.resolve scope := by
  unfold Base.resolve normalize
  rw [absolutePath_append some_, components_snoc (by decide)]

/-- Two dots lead to the directory above. -/
theorem normalize_dotDot {scope : Units} :
    normalize (scope ++ slash :: dotDot) = (normalize scope).dropLast := by
  have last : components (· == slash) dotDot = [dotDot] := rfl
  unfold normalize
  rw [components_append (by decide), List.foldl_append, last]
  rfl

theorem not_within_dotDot {scope : Units} (below : normalize (base.absolutePath scope) ≠ []) :
    ¬ normalize (base.absolutePath scope) <+:
      normalize (base.absolutePath (scope ++ slash :: dotDot)) := by
  intro within
  have length := within.length_le
  have pos := List.length_pos_iff.mpr below
  cases scope with
  | nil =>
    have top : normalize (base.absolutePath ([] ++ slash :: dotDot)) = [] := rfl
    rw [top, List.length_nil] at length
    omega
  | cons c scope =>
    rw [absolutePath_append (List.cons_ne_nil _ _), normalize_dotDot, List.length_dropLast] at length
    omega

end Posix

/-- A path is within the scope if the segments of a root are the first ones of it, as `resolve` and
the folding of case give them. On posix the segments are names, whatever the paths are spelled with. -/
theorem isPathWithinScope_segments (toLowerCase : Units → Units) :
    (∀ pathApi, TrimsSeparators toLowerCase pathApi → ∀ target roots,
      isPathWithinScope toLowerCase target roots pathApi = true ↔ ∃ root ∈ roots,
        segments pathApi.sep (caseFold toLowerCase (pathApi.resolve root) pathApi) <+:
          segments pathApi.sep (caseFold toLowerCase (pathApi.resolve target) pathApi)) ∧
    ∀ base : Base,
      (∀ target roots, isPathWithinScope toLowerCase target roots (posix base) = true ↔
        ∃ root ∈ roots,
          segments slash (base.resolve root) <+: segments slash (base.resolve target)) ∧
      (∀ p, ∃ names, segments slash (base.resolve p) = [] :: names ∧ ∀ name ∈ names, Name name) ∧
      (∀ target scope c rest, c ≠ slash → base.resolve scope ≠ [slash] →
        base.resolve target = base.resolve scope ++ c :: rest →
        isPathWithinScope toLowerCase target [scope] (posix base) = false) ∧
      (∀ scope, base.resolve scope ≠ [slash] →
        isPathWithinScope toLowerCase (scope ++ slash :: dotDot) [scope] (posix base) = false) ∧
      (∀ target scope, scope ≠ [] →
        isPathWithinScope toLowerCase target [scope ++ [slash]] (posix base) =
          isPathWithinScope toLowerCase target [scope] (posix base)) ∧
      ∀ target, isPathWithinScope toLowerCase target [[slash]] (posix base) = true := by
  refine ⟨fun pathApi trims target roots => isPathWithinScope_iff trims, fun base => ?_⟩
  have within : ∀ target roots, isPathWithinScope toLowerCase target roots (posix base) = true ↔
      ∃ root ∈ roots, segments slash (base.resolve root) <+: segments slash (base.resolve target) := by
    intro target roots
    have trims : TrimsSeparators toLowerCase (posix base) := trims_posix
    have iff : isPathWithinScope toLowerCase target roots (posix base) = true ↔ _ :=
      isPathWithinScope_iff trims
    simp only [caseFold_posix] at iff
    exact iff
  refine ⟨within, ?_, ?_, ?_, ?_, ?_⟩
  · intro p
    exact ⟨normalize (base.absolutePath p), segments_resolve, names_normalize⟩
  · intro target scope c rest other below extends_
    apply not_within_sibling other
    · rw [caseFold_posix]
      rcases resolve_cases base scope with ⟨_, is⟩ | ⟨_, last⟩
      · exact absurd is below
      · exact last
    · rw [caseFold_posix, caseFold_posix]
      exact extends_
  · intro scope below
    rw [← Bool.not_eq_true, within]
    rintro ⟨root, there, first⟩
    rw [List.mem_singleton.mp there, segments_resolve, segments_resolve] at first
    rcases resolve_cases base scope with ⟨_, is⟩ | ⟨some_, _⟩
    · exact below is
    · exact not_within_dotDot some_ ((List.prefix_cons_inj []).mp first)
  · intro target scope some_
    unfold isPathWithinScope
    simp only [List.any_cons, List.any_nil]
    rw [show (posix base).resolve (scope ++ [slash]) = (posix base).resolve scope from
      resolve_snoc some_]
  · intro target
    rw [within]
    refine ⟨[slash], List.mem_singleton_self _, ?_⟩
    rw [segments_resolve, segments_resolve]
    exact (List.prefix_cons_inj []).mpr (List.nil_prefix)

def lowerAscii (path : Units) : Units := path.map fun u => if 65 ≤ u ∧ u ≤ 90 then u + 32 else u

/-- `path.win32`, on two spellings of directories of the drive C. -/
def windowsDirectories : PathApi where
  sep := backslash
  resolve p := if p = units "c:/WS/src" then units "c:\\WS\\src" else units "C:\\ws"

theorem trims_windowsDirectories : TrimsSeparators lowerAscii windowsDirectories := by
  have cases : ∀ p, windowsDirectories.resolve p = units "c:\\WS\\src" ∨
      windowsDirectories.resolve p = units "C:\\ws" := by
    intro p
    by_cases is : p = units "c:/WS/src"
    · exact Or.inl (if_pos is)
    · exact Or.inr (if_neg is)
  intro p q
  rcases cases p with left | left <;> rcases cases q with right | right <;>
    · rw [left, right]
      decide

/-- A directory of Windows lies under a root that is spelled in another case. -/
theorem isPathWithinScope_windows : isPathWithinScope lowerAscii (units "c:/WS/src")
    [units "C:\\ws\\"] windowsDirectories = true := by
  rw [(isPathWithinScope_segments lowerAscii).1 _ trims_windowsDirectories]
  exact ⟨_, List.mem_singleton_self _, by decide⟩

end Artoo.Protocol
