import Artoo.Domain.Lease
import Artoo.Lib.Casing
import Artoo.Lib.Components

/-! Normalized lease paths: their shape, and their overlap by the resolved segments. -/
namespace Artoo.Domain
open Artoo.Lib

variable {casing : Casing} {workspaceRoot rawPath : String} {segs stack out : List String}
  {path : String}

/-! ## Segments -/

/-- A name of a file or a directory. -/
structure Name (s : String) : Prop where
  nonempty : s ≠ ""
  slash : '/' ∉ s.toList

/-- A segment is a name, of characters of the path. -/
theorem segments_names {s : String} (there : s ∈ segments path) :
    Name s ∧ s.toList ⊆ path.toList := by
  unfold segments at there
  obtain ⟨part, is, rfl⟩ := List.mem_map.mp there
  obtain ⟨member, some_⟩ := List.mem_filter.mp is
  obtain ⟨apart, inside⟩ := splitOn_parts member
  rw [String.toList_ofList]
  refine ⟨⟨fun empty => ?_, ?_⟩, inside⟩
  · rw [String.ofList_eq_empty_iff] at empty
    simp [empty] at some_
  · rw [String.toList_ofList]
    exact apart

theorem toList_intercalate_names {names : List String} :
    ("/".intercalate names).toList = List.intercalate ['/'] (names.map String.toList) := by
  rw [String.toList_intercalate]
  rfl

/-- The segments of joined names are the names. -/
theorem segments_intercalate {names : List String} (sound : ∀ s ∈ names, Name s) :
    segments ("/".intercalate names) = names := by
  unfold segments
  rw [toList_intercalate_names]
  cases names with
  | nil => rfl
  | cons first rest =>
    have apart : ∀ l ∈ (first :: rest).map String.toList, '/' ∉ l := by
      intro l there
      obtain ⟨s, member, rfl⟩ := List.mem_map.mp there
      exact (sound s member).slash
    rw [List.splitOn_intercalate '/' apart (by simp), List.filter_eq_self.mpr, List.map_map]
    · simp
    · intro l there
      obtain ⟨s, member, rfl⟩ := List.mem_map.mp there
      simpa using (sound s member).nonempty

/-! ## Resolution -/

/-- What is left of the segments. -/
theorem resolveSegments_of_mem {P : String → Prop} (h : resolveSegments segs stack = some out)
    (below : ∀ s ∈ stack, P s) (ahead : ∀ s ∈ segs, s ≠ "." → s ≠ ".." → P s) :
    ∀ s ∈ out, P s := by
  induction segs generalizing stack with
  | nil =>
    cases h
    exact fun s there => below s (List.mem_reverse.mp there)
  | cons seg rest ih =>
    have later : ∀ s ∈ rest, s ≠ "." → s ≠ ".." → P s :=
      fun s there => ahead s (List.mem_cons_of_mem _ there)
    unfold resolveSegments at h
    split at h
    · exact ih h below later
    · rename_i dot
      split at h
      · cases stack with
        | nil => cases h
        | cons top under => exact ih h (fun s there => below s (List.mem_cons_of_mem _ there)) later
      · rename_i dots
        refine ih h (fun s there => ?_) later
        rcases List.mem_cons.mp there with rfl | old
        · exact ahead s List.mem_cons_self (by simpa using dot) (by simpa using dots)
        · exact below s old

theorem resolveSegments_self (plain : ∀ s ∈ segs, s ≠ "." ∧ s ≠ "..") :
    resolveSegments segs stack = some (stack.reverse ++ segs) := by
  induction segs generalizing stack with
  | nil => simp [resolveSegments]
  | cons seg rest ih =>
    obtain ⟨dot, dots⟩ := plain seg List.mem_cons_self
    unfold resolveSegments
    rw [if_neg (by simpa using dot), if_neg (by simpa using dots),
      ih fun s there => plain s (List.mem_cons_of_mem _ there)]
    simp

/-! ## Normal forms -/

/-- A lower-case path relative to the root; none where it is absolute and outside. -/
def relativeTo (root raw : List Char) : Option (List Char) :=
  if isAbsolutePosix raw then
    if raw == root then some []
    else if !root.isEmpty && (root ++ ['/']).isPrefixOf raw then some (raw.drop (root.length + 1))
    else none
  else some raw

def posixRoot (toLowerCase : String → String) (workspaceRoot : String) : List Char :=
  (toLowerCase (String.ofList
    ((toPosix workspaceRoot.toList).reverse.dropWhile (· == '/')).reverse)).toList

def posixPath (toLowerCase : String → String) (rawPath : String) : List Char :=
  (toLowerCase (String.ofList (toPosix rawPath.toList))).toList

def relativePath (toLowerCase : String → String) (workspaceRoot rawPath : String) :
    Option (List Char) :=
  relativeTo (posixRoot toLowerCase workspaceRoot) (posixPath toLowerCase rawPath)

def resolvedSegments (toLowerCase : String → String) (workspaceRoot rawPath : String) :
    Option (List String) :=
  (relativePath toLowerCase workspaceRoot rawPath).bind fun relative =>
    resolveSegments (segments (String.ofList relative)) []

def blank (path : String) : Bool := path.toList.all isTrimmed

def nulFree (path : String) : Bool := !path.toList.contains (Char.ofNat 0)

variable {toLowerCase : String → String}

theorem normalizeLeasePath_ok : normalizeLeasePath toLowerCase workspaceRoot rawPath = .ok path ↔
    nulFree rawPath ∧ nulFree workspaceRoot ∧ blank rawPath = false ∧
      ∃ names, resolvedSegments toLowerCase workspaceRoot rawPath = some names ∧
        path = "/".intercalate names := by
  unfold normalizeLeasePath
  extract_lets nul posixRoot root raw relative
  have same : relative = relativePath toLowerCase workspaceRoot rawPath := rfl
  have white : rawPath.toList.all isTrimmed = blank rawPath := rfl
  clear_value relative
  rw [same, white]
  unfold nulFree resolvedSegments
  cases rawPath.toList.contains (Char.ofNat 0) <;> cases workspaceRoot.toList.contains (Char.ofNat 0)
  case false.false =>
    cases blank rawPath with
    | true => simp
    | false =>
      cases relativePath toLowerCase workspaceRoot rawPath with
      | none => simp
      | some relative =>
        cases h : resolveSegments (segments (String.ofList relative)) [] with
        | none => simp [h]
        | some names => simp [h, eq_comm]
  all_goals simp

/-- A character that normalization leaves alone. -/
structure Plain (casing : Casing) (c : Char) : Prop where
  lower : casing.lower c = [c]
  posix : c ≠ '\\'
  nul : c ≠ Char.ofNat 0

theorem relativeTo_subset {root raw relative : List Char}
    (h : relativeTo root raw = some relative) : relative ⊆ raw := by
  unfold relativeTo at h
  split at h
  · split at h
    · cases h
      exact List.nil_subset _
    · split at h
      · cases h
        exact fun _ there => List.mem_of_mem_drop there
      · cases h
  · cases h
    exact fun _ there => there

theorem relativePath_plain {relative : List Char} {c : Char}
    (h : relativePath casing.toLowerCase workspaceRoot rawPath = some relative)
    (free : nulFree rawPath) (there : c ∈ relative) : Plain casing c := by
  have source : c ∈ posixPath casing.toLowerCase rawPath := relativeTo_subset h there
  have kept : c.toNat < 128 → c.isAlpha = false →
      ∃ x ∈ rawPath.toList, c = if x == '\\' then '/' else x := by
    intro ascii other
    have old := Casing.mem_of_toLowerCase source ascii other
    rw [String.toList_ofList] at old
    obtain ⟨x, member, is⟩ := List.mem_map.mp old
    exact ⟨x, member, is.symm⟩
  refine ⟨Casing.lower_of_mem source, ?_, ?_⟩
  · rintro rfl
    obtain ⟨x, _, is⟩ := kept (by decide) (by decide)
    split at is
    · exact absurd is (by decide)
    · rename_i other
      exact other (by simp [← is])
  · rintro rfl
    obtain ⟨x, member, is⟩ := kept (by decide) (by decide)
    split at is
    · exact absurd is (by decide)
    · have nul : rawPath.toList.contains (Char.ofNat 0) = true :=
        List.contains_iff_mem.mpr (is ▸ member)
      unfold nulFree at free
      rw [nul] at free
      cases free

/-- What resolution leaves: names that are no dot segments. -/
structure Directory (casing : Casing) (s : String) : Prop where
  name : Name s
  dot : s ≠ "."
  dots : s ≠ ".."
  plain : ∀ c ∈ s.toList, Plain casing c

theorem resolved_directories {names : List String}
    (h : resolvedSegments casing.toLowerCase workspaceRoot rawPath = some names)
    (free : nulFree rawPath) : ∀ s ∈ names, Directory casing s := by
  obtain ⟨relative, is, resolved⟩ := Option.bind_eq_some_iff.mp h
  apply resolveSegments_of_mem (P := Directory casing) resolved (fun _ there => absurd there List.not_mem_nil)
  intro s there dot dots
  obtain ⟨name, inside⟩ := segments_names there
  rw [String.toList_ofList] at inside
  exact ⟨name, dot, dots, fun c member => relativePath_plain is free (inside member)⟩

theorem mem_joined {names : List String} {c : Char} (there : c ∈ ("/".intercalate names).toList) :
    c = '/' ∨ ∃ s ∈ names, c ∈ s.toList := by
  induction names with
  | nil => exact absurd there (by simp)
  | cons first rest ih =>
    cases rest with
    | nil =>
      rw [String.intercalate_singleton] at there
      exact Or.inr ⟨first, List.mem_cons_self, there⟩
    | cons second rest =>
      rw [String.intercalate_cons_cons] at there
      simp only [String.toList_append, List.mem_append] at there
      rcases there with (here | slash) | later
      · exact Or.inr ⟨first, List.mem_cons_self, here⟩
      · exact Or.inl (by simpa using slash)
      · rcases ih later with slash | ⟨s, member, inside⟩
        · exact Or.inl slash
        · exact Or.inr ⟨s, List.mem_cons_of_mem _ member, inside⟩

theorem joined_plain {names : List String} (sound : ∀ s ∈ names, Directory casing s) :
    ∀ c ∈ ("/".intercalate names).toList, Plain casing c := by
  intro c there
  rcases mem_joined there with rfl | ⟨s, member, inside⟩
  · exact ⟨casing.lower_ascii _ (by decide), by decide, by decide⟩
  · exact (sound s member).plain c inside

/-- A relative path without empty or dot segments, of POSIX form. -/
structure Canonical (path : String) : Prop where
  segment : path ≠ "" → ∀ s ∈ path.toList.splitOn '/', s ≠ [] ∧ s ≠ ['.'] ∧ s ≠ ['.', '.']
  relative : path.toList.head? ≠ some '/'
  posix : '\\' ∉ path.toList

theorem joined_canonical {names : List String} (sound : ∀ s ∈ names, Directory casing s) :
    Canonical ("/".intercalate names) := by
  have segment : "/".intercalate names ≠ "" → ∀ s ∈ ("/".intercalate names).toList.splitOn '/',
      s ≠ [] ∧ s ≠ ['.'] ∧ s ≠ ['.', '.'] := by
    intro some_ s there
    have filled : names.map String.toList ≠ [] := by
      rintro empty
      rw [List.map_eq_nil_iff] at empty
      exact some_ (by simp [empty])
    have apart : ∀ l ∈ names.map String.toList, '/' ∉ l := by
      intro l member
      obtain ⟨t, old, rfl⟩ := List.mem_map.mp member
      exact (sound t old).name.slash
    rw [toList_intercalate_names, List.splitOn_intercalate '/' apart filled] at there
    obtain ⟨t, old, rfl⟩ := List.mem_map.mp there
    have directory := sound t old
    refine ⟨fun is => directory.name.nonempty ?_, fun is => directory.dot ?_,
      fun is => directory.dots ?_⟩
    all_goals
      apply String.toList_inj.mp
      exact is
  refine ⟨segment, fun head => ?_, fun there => (joined_plain sound _ there).posix rfl⟩
  obtain ⟨rest, is⟩ := List.head?_eq_some_iff.mp head
  have some_ : "/".intercalate names ≠ "" := by
    intro empty
    rw [empty] at is
    cases is
  have first : [] ∈ ("/".intercalate names).toList.splitOn '/' := by
    rw [is, List.splitOn_cons_eq_if_modifyHead]
    simp
  exact (segment some_ [] first).1 rfl

/-! ## Fixed points -/

/-- A letter and a colon. -/
def drivePrefix (path : String) : Bool :=
  match path.toList with
  | drive :: ':' :: _ => drive.isAlpha
  | _ => false

theorem isAbsolutePosix_eq_false (relative : path.toList.head? ≠ some '/')
    (drive : drivePrefix path = false) : isAbsolutePosix path.toList = false := by
  unfold drivePrefix at drive
  unfold isAbsolutePosix
  split
  · rename_i is
    rw [is] at relative
    exact absurd rfl relative
  · rename_i is
    rw [is] at drive
    exact drive
  · rfl

theorem posixPath_plain (plain : ∀ c ∈ path.toList, Plain casing c) :
    posixPath casing.toLowerCase path = path.toList := by
  have posix : toPosix path.toList = path.toList := by
    unfold toPosix
    apply List.map_congr_left (g := id) _ |>.trans (List.map_id _)
    intro c there
    rw [if_neg (by simpa using (plain c there).posix)]
    rfl
  unfold posixPath
  rw [posix, String.ofList_toList, Casing.toLowerCase_fixed fun c there => (plain c there).lower]

theorem joined_fixed {names : List String} (sound : ∀ s ∈ names, Directory casing s)
    (root : nulFree workspaceRoot) (filled : blank ("/".intercalate names) = false)
    (drive : drivePrefix ("/".intercalate names) = false) :
    normalizeLeasePath casing.toLowerCase workspaceRoot ("/".intercalate names) =
      .ok ("/".intercalate names) := by
  have plain := joined_plain sound
  have free : nulFree ("/".intercalate names) := by
    unfold nulFree
    rw [Bool.not_eq_true', ← Bool.not_eq_true, List.contains_iff_mem]
    exact fun there => (plain _ there).nul rfl
  have relative : relativePath casing.toLowerCase workspaceRoot ("/".intercalate names) =
      some ("/".intercalate names).toList := by
    unfold relativePath relativeTo
    rw [posixPath_plain plain, isAbsolutePosix_eq_false (joined_canonical sound).relative drive]
    rfl
  refine normalizeLeasePath_ok.mpr ⟨free, root, filled, names, ?_, rfl⟩
  unfold resolvedSegments
  rw [relative, Option.bind_some, String.ofList_toList,
    segments_intercalate fun s there => (sound s there).name,
    resolveSegments_self fun s there => ⟨(sound s there).dot, (sound s there).dots⟩]
  rfl

/-! ## Overlap -/

theorem zip_all_iff {a b : List String} :
    (a.zip b).all (fun pair => pair.1 == pair.2) ↔ a <+: b ∨ b <+: a := by
  induction a generalizing b with
  | nil => simp
  | cons x a ih =>
    cases b with
    | nil => simp
    | cons y b =>
      rw [List.zip_cons_cons, List.all_cons, Bool.and_eq_true, ih, List.cons_prefix_cons,
        List.cons_prefix_cons, beq_iff_eq]
      constructor
      · rintro ⟨same, below | above⟩
        · exact Or.inl ⟨same, below⟩
        · exact Or.inr ⟨same.symm, above⟩
      · rintro (⟨rfl, below⟩ | ⟨rfl, above⟩)
        · exact ⟨rfl, Or.inl below⟩
        · exact ⟨rfl, Or.inr above⟩

/-- Normal forms are canonical, and they overlap where one list of resolved segments is a prefix of
the other. One that is neither blank nor begins as a drive is its own normal form. -/
theorem normalized_lease_paths {a b normalA normalB : String}
    (okA : normalizeLeasePath casing.toLowerCase workspaceRoot a = .ok normalA)
    (okB : normalizeLeasePath casing.toLowerCase workspaceRoot b = .ok normalB) :
    Canonical normalA ∧
      (blank normalA = false → drivePrefix normalA = false →
        normalizeLeasePath casing.toLowerCase workspaceRoot normalA = .ok normalA) ∧
      ∃ segmentsA segmentsB,
        resolvedSegments casing.toLowerCase workspaceRoot a = some segmentsA ∧
        resolvedSegments casing.toLowerCase workspaceRoot b = some segmentsB ∧
        (pathsOverlap normalA normalB ↔ segmentsA <+: segmentsB ∨ segmentsB <+: segmentsA) := by
  obtain ⟨freeA, root, _, namesA, resolvedA, rfl⟩ := normalizeLeasePath_ok.mp okA
  obtain ⟨freeB, _, _, namesB, resolvedB, rfl⟩ := normalizeLeasePath_ok.mp okB
  have soundA := resolved_directories resolvedA freeA
  have soundB := resolved_directories resolvedB freeB
  refine ⟨joined_canonical soundA, joined_fixed soundA root, namesA, namesB, resolvedA, resolvedB, ?_⟩
  unfold pathsOverlap
  rw [segments_intercalate fun s there => (soundA s there).name,
    segments_intercalate fun s there => (soundB s there).name, zip_all_iff]

theorem normalized_lease_paths_nested :
    Canonical "src/foo" ∧
      normalizeLeasePath Casing.ascii.toLowerCase "/work" "src/foo" = .ok "src/foo" ∧
      pathsOverlap "src/foo" "src/foo/bar.ts" := by
  have okA : normalizeLeasePath Casing.ascii.toLowerCase "/work" "/Work/./SRC\\Foo" =
      .ok "src/foo" := by decide +kernel
  have okB : normalizeLeasePath Casing.ascii.toLowerCase "/work" "lib/../src/foo//bar.ts" =
      .ok "src/foo/bar.ts" := by decide +kernel
  obtain ⟨canonical, fixed, segmentsA, segmentsB, isA, isB, overlap⟩ :=
    normalized_lease_paths okA okB
  have listA : resolvedSegments Casing.ascii.toLowerCase "/work" "/Work/./SRC\\Foo" =
      some ["src", "foo"] := by decide +kernel
  have listB : resolvedSegments Casing.ascii.toLowerCase "/work" "lib/../src/foo//bar.ts" =
      some ["src", "foo", "bar.ts"] := by decide +kernel
  rw [listA] at isA
  rw [listB] at isB
  cases isA
  cases isB
  exact ⟨canonical, fixed (by decide +kernel) (by decide +kernel), overlap.mpr (by decide)⟩

/-- The workspace root normalizes to the empty path, and that is no path; nor is what begins as a
drive below the root. -/
theorem normalized_not_fixed :
    normalizeLeasePath Casing.ascii.toLowerCase "/work" "." = .ok "" ∧
      normalizeLeasePath Casing.ascii.toLowerCase "/work" "" = .error "path is empty" ∧
      normalizeLeasePath Casing.ascii.toLowerCase "/work" "./C:/src" = .ok "c:/src" ∧
      normalizeLeasePath Casing.ascii.toLowerCase "/work" "c:/src" =
        .error "absolute path escapes the workspace root" := by
  decide +kernel

end Artoo.Domain
