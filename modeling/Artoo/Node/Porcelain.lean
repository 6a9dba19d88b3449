import Artoo.Lib.Blocks
import Artoo.Lib.Components
import Artoo.Protocol.WorkspaceAllocation
import Mathlib.Data.List.TakeWhile

/-! The worktrees of a repository, as `git worktree list --porcelain -z` prints them. -/
namespace Artoo.Node.Porcelain
open Artoo.Lib Artoo.Protocol

abbrev Text := List Char

/-- An error with the code `invalid_git_output`. -/
structure WorktreePreflightError where
  message : String
  deriving DecidableEq, Repr

structure WorktreeRecord where
  path : Text
  head : Option Text := none
  branch : Option Text := none
  detached : Bool := false
  bare : Bool := false
  locked : Bool := false
  prunable : Bool := false
  deriving DecidableEq

def nul : Char := Char.ofNat 0

def byteOrderMark : Char := Char.ofNat 0xFEFF

def fail {α : Type} (message : String) : Except WorktreePreflightError α := .error ⟨message⟩

/-! ## Paths -/

def isAbsolute : PathKind → Text → Bool
  | .posix, path => path.head? == some '/'
  | .windows, path => isAbsoluteWindows path

def hasDotSegments (kind : PathKind) (path : Text) : Bool :=
  (path.splitOnP kind.isSeparator).any fun part => part == ['.'] || part == ['.', '.']

/-! ## Fields -/

/-- What stands before the first blank of a field. -/
def keyOf (field : Text) : Text := field.takeWhile (· != ' ')

def valueOf (field : Text) : Option Text :=
  if ' ' ∈ field then some ((field.dropWhile (· != ' ')).drop 1) else none

/-- `/^(?:[0-9a-f]{40}|[0-9a-f]{64})$/` -/
def isHash (value : Text) : Bool :=
  (value.length == 40 || value.length == 64) && value.all fun c => c.isDigit || 'a' ≤ c && c ≤ 'f'

def isBranch (value : Text) : Bool := "refs/heads/".toList.isPrefixOf value && 11 < unitCount value

/-- The attributes of a record that are read so far. -/
structure Fields where
  head : Option Text := none
  branch : Option Text := none
  detached : Bool := false
  bare : Bool := false
  locked : Bool := false
  prunable : Bool := false
  seen : List Text := []

def readField (fields : Fields) (field : Text) : Except WorktreePreflightError Fields :=
  let key := keyOf field
  let value := valueOf field
  if key ∈ fields.seen then fail "Git worktree attribute is duplicated"
  else
    let fields := { fields with seen := key :: fields.seen }
    if key = "HEAD".toList ∧ value.any isHash then .ok { fields with head := value }
    else if key = "branch".toList ∧ value.any isBranch then .ok { fields with branch := value }
    else if key = "detached".toList ∧ value = none then .ok { fields with detached := true }
    else if key = "bare".toList ∧ value = none then .ok { fields with bare := true }
    else if key = "locked".toList then .ok { fields with locked := true }
    else if key = "prunable".toList then .ok { fields with prunable := true }
    else fail "Git worktree attribute is unsupported or malformed"

/-! ## Records -/

/-- The head is never the empty text. -/
def ambiguous (fields : Fields) : Bool :=
  if fields.bare then fields.head.isSome || fields.branch.isSome || fields.detached
  else fields.head.isNone || fields.branch.isSome == fields.detached

def Fields.record (fields : Fields) (path : Text) : WorktreeRecord where
  path
  head := fields.head
  branch := fields.branch
  detached := fields.detached
  bare := fields.bare
  locked := fields.locked
  prunable := fields.prunable

def readBlock (kind : PathKind) (seenPaths : List Text) (block : Text) :
    Except WorktreePreflightError WorktreeRecord :=
  match block.splitOn nul with
  | [] => fail "Git worktree record has no leading path"
  | first :: fields =>
    if !"worktree ".toList.isPrefixOf first then fail "Git worktree record has no leading path"
    else
      let path := first.drop "worktree ".length
      if !isAbsolute kind path || hasDotSegments kind path || seenPaths.contains path then
        fail "Git worktree path is invalid or duplicated"
      else do
        let fields ← fields.foldlM readField {}
        if ambiguous fields then fail "Git worktree record lacks an unambiguous checkout state"
        else .ok (fields.record path)

def readBlocks (kind : PathKind) (seenPaths : List Text) :
    List Text → Except WorktreePreflightError (List WorktreeRecord)
  | [] => .ok []
  | block :: blocks => do
    let record ← readBlock kind seenPaths block
    let records ← readBlocks kind (record.path :: seenPaths) blocks
    return record :: records

/-! ## The output -/

/-- `TextDecoder` on the UTF-8 of a text: a byte order mark is dropped. -/
def decode : Text → Text
  | [] => []
  | c :: rest => if c = byteOrderMark then rest else c :: rest

def parseWorktreePorcelain (kind : PathKind) (output : Text) :
    Except WorktreePreflightError (List WorktreeRecord) :=
  let text := decode output
  if !([nul, nul].isSuffixOf text) then fail "Git worktree output is not complete NUL porcelain"
  else readBlocks kind [] (splitTwice nul (text.take (text.length - 2)))

/-! ## Listings -/

inductive Attribute where
  | head (hash : { value : Text // isHash value = true })
  | branch (name : { value : Text // isBranch value = true })
  | detached
  | bare
  | locked (reason : Option Text)
  | prunable (reason : Option Text)

def Attribute.key : Attribute → Text
  | .head _ => "HEAD".toList | .branch _ => "branch".toList | .detached => "detached".toList
  | .bare => "bare".toList | .locked _ => "locked".toList | .prunable _ => "prunable".toList

def Attribute.value : Attribute → Option Text
  | .head hash => some hash | .branch name => some name | .detached => none | .bare => none
  | .locked reason => reason | .prunable reason => reason

def fieldText (key : Text) : Option Text → Text
  | some value => key ++ ' ' :: value
  | none => key

def Attribute.text (a : Attribute) : Text := fieldText a.key a.value

def Attribute.hash : Attribute → Option Text
  | .head hash => some hash
  | _ => none

def Attribute.name : Attribute → Option Text
  | .branch name => some name
  | _ => none

/-- The record of a path with attributes. -/
def recordOf (path : Text) (attributes : List Attribute) : WorktreeRecord where
  path
  head := attributes.findSome? Attribute.hash
  branch := attributes.findSome? Attribute.name
  detached := attributes.any fun a => a matches .detached
  bare := attributes.any fun a => a matches .bare
  locked := attributes.any fun a => a matches .locked _
  prunable := attributes.any fun a => a matches .prunable _

/-- Bare, or a head on a branch, or a detached head. -/
def Checkout (r : WorktreeRecord) : Prop :=
  (r.bare = true ∧ r.head = none ∧ r.branch = none ∧ r.detached = false) ∨
  (r.bare = false ∧ r.head ≠ none ∧ r.branch ≠ none ∧ r.detached = false) ∨
  (r.bare = false ∧ r.head ≠ none ∧ r.branch = none ∧ r.detached = true)

structure Listed (kind : PathKind) where
  path : Text
  attributes : List Attribute
  absolute : isAbsolute kind path = true
  dotFree : hasDotSegments kind path = false
  pathPlain : nul ∉ path
  plain : ∀ a ∈ attributes, nul ∉ a.text
  distinct : (attributes.map Attribute.key).Nodup
  checkout : Checkout (recordOf path attributes)

variable {kind : PathKind}

def Listed.record (l : Listed kind) : WorktreeRecord := recordOf l.path l.attributes

def Listed.fields (l : Listed kind) : List Text :=
  ("worktree ".toList ++ l.path) :: l.attributes.map Attribute.text

/-- Each field is terminated, and so is the record. -/
def Listed.encode (l : Listed kind) : Text := l.fields.flatMap (· ++ [nul]) ++ [nul]

def encode (listing : List (Listed kind)) : Text := listing.flatMap Listed.encode

/-! ## One field -/

theorem ne_blank {cs : Text} (plain : ' ' ∉ cs) : ∀ c ∈ cs, (c != ' ') = true := by
  intro c there
  rw [bne_iff_ne]
  rintro rfl
  exact plain there

theorem keyOf_fieldText {key : Text} {value : Option Text} (plain : ' ' ∉ key) :
    keyOf (fieldText key value) = key ∧ valueOf (fieldText key value) = value := by
  cases value with
  | none =>
    unfold keyOf valueOf fieldText
    exact ⟨List.takeWhile_eq_self_iff.mpr (ne_blank plain), if_neg plain⟩
  | some value =>
    unfold keyOf valueOf fieldText
    rw [List.takeWhile_append_of_pos (ne_blank plain), List.dropWhile_append_of_pos (ne_blank plain)]
    simp

theorem fieldText_keyOf (field : Text) : fieldText (keyOf field) (valueOf field) = field := by
  unfold keyOf valueOf
  split
  · rename_i blank
    have whole := List.takeWhile_append_dropWhile (p := (· != ' ')) (l := field)
    have some_ : field.dropWhile (· != ' ') ≠ [] := by
      rw [Ne, List.dropWhile_eq_nil_iff]
      exact fun each => by simpa using each ' ' blank
    have head := List.head_dropWhile_not (· != ' ') some_
    cases rest : field.dropWhile (· != ' ') with
    | nil => exact absurd rest some_
    | cons c later =>
      simp only [rest, List.head_cons] at head
      have is : c = ' ' := by simpa using head
      unfold fieldText
      rw [rest, is] at whole
      exact whole
  · rename_i none
    exact List.takeWhile_eq_self_iff.mpr (ne_blank none)

theorem blank_key (a : Attribute) : ' ' ∉ a.key := by
  cases a <;> exact of_decide_eq_true rfl

theorem keyOf_text (a : Attribute) : keyOf a.text = a.key := (keyOf_fieldText (blank_key a)).1

theorem valueOf_text (a : Attribute) : valueOf a.text = a.value := (keyOf_fieldText (blank_key a)).2

def Fields.add (fields : Fields) (a : Attribute) : Fields :=
  let fields := { fields with seen := a.key :: fields.seen }
  match a with
  | .head hash => { fields with head := some hash }
  | .branch name => { fields with branch := some name }
  | .detached => { fields with detached := true }
  | .bare => { fields with bare := true }
  | .locked _ => { fields with locked := true }
  | .prunable _ => { fields with prunable := true }

theorem readField_text {fields : Fields} {a : Attribute} (fresh : a.key ∉ fields.seen) :
    readField fields a.text = .ok (fields.add a) := by
  unfold readField
  rw [keyOf_text, valueOf_text, if_neg fresh]
  cases a with
  | head hash => rw [if_pos ⟨rfl, hash.2⟩]; rfl
  | branch name =>
    have other : ¬ (Attribute.branch name).key = "HEAD".toList := of_decide_eq_true rfl
    rw [if_neg fun is => other is.1, if_pos ⟨rfl, name.2⟩]
    rfl
  | detached => rfl
  | bare => rfl
  | locked reason => rfl
  | prunable reason => rfl

theorem readField_ok {fields after : Fields} {field : Text}
    (read : readField fields field = .ok after) :
    ∃ a : Attribute, a.text = field ∧ a.key ∉ fields.seen ∧ after = fields.add a := by
  -- the attribute that has the key and the value of the field
  have found : ∀ a : Attribute, a.key = keyOf field → a.value = valueOf field →
      a.text = field := by
    intro a key value
    unfold Attribute.text
    rw [key, value, fieldText_keyOf]
  unfold readField at read
  dsimp only at read
  split_ifs at read with seen head branch detached bare locked prunable
  · cases read
  · obtain ⟨hash, is, valid⟩ := (Option.any_eq_true _ _).mp head.2
    refine ⟨.head ⟨hash, valid⟩, found _ head.1.symm is.symm, ?_, ?_⟩
    · exact fun there => seen (head.1 ▸ there)
    · rw [← Except.ok.inj read, is, head.1]
      rfl
  · obtain ⟨name, is, valid⟩ := (Option.any_eq_true _ _).mp branch.2
    refine ⟨.branch ⟨name, valid⟩, found _ branch.1.symm is.symm, ?_, ?_⟩
    · exact fun there => seen (branch.1 ▸ there)
    · rw [← Except.ok.inj read, is, branch.1]
      rfl
  · refine ⟨.detached, found _ detached.1.symm detached.2.symm, ?_, ?_⟩
    · exact fun there => seen (detached.1 ▸ there)
    · rw [← Except.ok.inj read, detached.1]
      rfl
  · refine ⟨.bare, found _ bare.1.symm bare.2.symm, ?_, ?_⟩
    · exact fun there => seen (bare.1 ▸ there)
    · rw [← Except.ok.inj read, bare.1]
      rfl
  · refine ⟨.locked (valueOf field), found _ locked.symm rfl, ?_, ?_⟩
    · exact fun there => seen (locked ▸ there)
    · rw [← Except.ok.inj read, locked]
      rfl
  · refine ⟨.prunable (valueOf field), found _ prunable.symm rfl, ?_, ?_⟩
    · exact fun there => seen (prunable ▸ there)
    · rw [← Except.ok.inj read, prunable]
      rfl
  · cases read

/-! ## The fields of a record -/

theorem seen_add (fields : Fields) (a : Attribute) : (fields.add a).seen = a.key :: fields.seen := by
  cases a <;> rfl

theorem readFields_text {attributes : List Attribute} {fields : Fields}
    (distinct : (attributes.map Attribute.key).Nodup)
    (fresh : ∀ a ∈ attributes, a.key ∉ fields.seen) :
    (attributes.map Attribute.text).foldlM readField fields =
      .ok (attributes.foldl Fields.add fields) := by
  induction attributes generalizing fields with
  | nil => rfl
  | cons a attributes ih =>
    rw [List.map_cons, List.nodup_cons] at distinct
    rw [List.map_cons, List.foldlM_cons, readField_text (fresh a List.mem_cons_self)]
    apply ih distinct.2
    intro b there
    rw [seen_add, List.mem_cons, not_or]
    exact ⟨fun same => distinct.1 (List.mem_map.mpr ⟨b, there, same⟩),
      fresh b (List.mem_cons_of_mem _ there)⟩

theorem readFields_ok {texts : List Text} {fields after : Fields}
    (read : texts.foldlM readField fields = .ok after) :
    ∃ attributes : List Attribute, attributes.map Attribute.text = texts ∧
      (attributes.map Attribute.key).Nodup ∧ (∀ a ∈ attributes, a.key ∉ fields.seen) ∧
      after = attributes.foldl Fields.add fields := by
  induction texts generalizing fields with
  | nil => exact ⟨[], rfl, List.nodup_nil, nofun, (Except.ok.inj read).symm⟩
  | cons text texts ih =>
    rw [List.foldlM_cons] at read
    obtain ⟨next, first, rest⟩ := bind_eq_ok.mp read
    obtain ⟨a, is, fresh, rfl⟩ := readField_ok first
    obtain ⟨attributes, same, distinct, later, rfl⟩ := ih rest
    refine ⟨a :: attributes, by rw [List.map_cons, is, same], ?_, ?_, rfl⟩
    · rw [List.map_cons, List.nodup_cons]
      refine ⟨fun there => ?_, distinct⟩
      obtain ⟨b, inside, eq⟩ := List.mem_map.mp there
      apply later b inside
      rw [seen_add, eq]
      exact List.mem_cons_self
    · intro b there
      rcases List.mem_cons.mp there with rfl | inside
      · exact fresh
      · have apart := later b inside
        rw [seen_add, List.mem_cons, not_or] at apart
        exact apart.2

/-- An attribute is there at most once, so the value that is set last is the first one. -/
theorem foldl_value {g : Fields → Option Text} {v : Attribute → Option Text}
    (adds : ∀ fields a, g (fields.add a) = (v a).or (g fields))
    (keyed : ∀ a b, v a ≠ none → v b ≠ none → a.key = b.key) {attributes : List Attribute}
    {fields : Fields} (distinct : (attributes.map Attribute.key).Nodup) :
    g (attributes.foldl Fields.add fields) = (attributes.findSome? v).or (g fields) := by
  induction attributes generalizing fields with
  | nil => rfl
  | cons a attributes ih =>
    rw [List.map_cons, List.nodup_cons] at distinct
    rw [List.foldl_cons, ih distinct.2, adds, List.findSome?_cons]
    cases is : v a with
    | none => rfl
    | some value =>
      have others : attributes.findSome? v = none := by
        rw [List.findSome?_eq_none_iff]
        intro b there
        by_contra some_
        exact distinct.1 (List.mem_map.mpr ⟨b, there, keyed b a some_ (by rw [is]; nofun)⟩)
      rw [others]
      rfl

theorem foldl_flag {g : Fields → Bool} {v : Attribute → Bool}
    (adds : ∀ fields a, g (fields.add a) = (v a || g fields)) {attributes : List Attribute}
    {fields : Fields} :
    g (attributes.foldl Fields.add fields) = (attributes.any v || g fields) := by
  induction attributes generalizing fields with
  | nil => rfl
  | cons a attributes ih =>
    rw [List.foldl_cons, ih, adds, List.any_cons]
    cases v a <;> cases attributes.any v <;> rfl

theorem record_foldl {path : Text} {attributes : List Attribute}
    (distinct : (attributes.map Attribute.key).Nodup) :
    (attributes.foldl Fields.add {}).record path = recordOf path attributes := by
  have head : (attributes.foldl Fields.add {}).head =
      (attributes.findSome? Attribute.hash).or none := foldl_value
    (by intro fields a; cases a <;> rfl)
    (by intro a b left right; cases a <;> cases b <;> trivial) distinct
  have branch : (attributes.foldl Fields.add {}).branch =
      (attributes.findSome? Attribute.name).or none := foldl_value
    (by intro fields a; cases a <;> rfl)
    (by intro a b left right; cases a <;> cases b <;> trivial) distinct
  have detached : (attributes.foldl Fields.add {}).detached =
      ((attributes.any fun a => a matches .detached) || false) :=
    foldl_flag (by intro fields a; cases a <;> rfl)
  have bare : (attributes.foldl Fields.add {}).bare =
      ((attributes.any fun a => a matches .bare) || false) :=
    foldl_flag (by intro fields a; cases a <;> rfl)
  have locked : (attributes.foldl Fields.add {}).locked =
      ((attributes.any fun a => a matches .locked _) || false) :=
    foldl_flag (by intro fields a; cases a <;> rfl)
  have prunable : (attributes.foldl Fields.add {}).prunable =
      ((attributes.any fun a => a matches .prunable _) || false) :=
    foldl_flag (by intro fields a; cases a <;> rfl)
  unfold Fields.record recordOf
  rw [head, branch, detached, bare, locked, prunable]
  simp only [Option.or_none, Bool.or_false]

theorem ambiguous_iff {fields : Fields} {path : Text} :
    ambiguous fields = false ↔ Checkout (fields.record path) := by
  unfold ambiguous Checkout Fields.record
  cases fields.bare <;> cases fields.head <;> cases fields.branch <;> cases fields.detached <;> simp

/-! ## One record -/

def Listed.body (l : Listed kind) : Text := [nul].intercalate l.fields

theorem flatMap_terminated {fields : List Text} (some_ : fields ≠ []) :
    fields.flatMap (· ++ [nul]) = [nul].intercalate fields ++ [nul] := by
  induction fields with
  | nil => exact absurd rfl some_
  | cons first fields ih =>
    cases fields with
    | nil => simp
    | cons second fields =>
      rw [List.flatMap_cons, ih (List.cons_ne_nil _ _), List.intercalate_cons_cons]
      simp

theorem Listed.encode_eq (l : Listed kind) : l.encode = l.body ++ [nul, nul] := by
  unfold Listed.encode Listed.body
  have some_ : l.fields ≠ [] := List.cons_ne_nil _ _
  rw [flatMap_terminated some_, List.append_assoc]
  rfl

theorem text_ne_nil (a : Attribute) : a.text ≠ [] := by
  intro is
  have key := keyOf_text a
  rw [is] at key
  cases a <;> cases key

theorem Listed.fields_plain (l : Listed kind) : ∀ field ∈ l.fields, field ≠ [] ∧ nul ∉ field := by
  intro field there
  rcases List.mem_cons.mp there with rfl | inside
  · refine ⟨List.cons_ne_nil _ _, ?_⟩
    rw [List.mem_append, not_or]
    exact ⟨of_decide_eq_true rfl, l.pathPlain⟩
  · obtain ⟨a, member, rfl⟩ := List.mem_map.mp inside
    exact ⟨text_ne_nil a, l.plain a member⟩

theorem Listed.body_split (l : Listed kind) : l.body.splitOn nul = l.fields :=
  List.splitOn_intercalate nul (fun field there => (l.fields_plain field there).2)
    (List.cons_ne_nil _ _)

theorem Listed.body_sparse (l : Listed kind) : Sparse nul l.body :=
  sparse_intercalate l.fields_plain

theorem readBlock_body {seen : List Text} (l : Listed kind) (fresh : l.path ∉ seen) :
    readBlock kind seen l.body = .ok l.record := by
  have starts : "worktree ".toList.isPrefixOf ("worktree ".toList ++ l.path) = true :=
    List.isPrefixOf_iff_prefix.mpr (List.prefix_append _ _)
  have path : ("worktree ".toList ++ l.path).drop "worktree ".length = l.path := rfl
  have record : (l.attributes.foldl Fields.add {}).record l.path = l.record :=
    record_foldl l.distinct
  have clear : ambiguous (l.attributes.foldl Fields.add {}) = false := by
    apply ambiguous_iff.mpr
    rw [record]
    exact l.checkout
  have apart : seen.contains l.path = false := by simpa using fresh
  unfold readBlock
  rw [l.body_split]
  unfold Listed.fields
  dsimp only
  rw [starts, path, l.absolute, l.dotFree, apart, readFields_text l.distinct (by simp)]
  change (if ambiguous _ = true then _ else Except.ok _) = _
  rw [clear, record]
  rfl

theorem readBlock_ok {seen : List Text} {block : Text} {r : WorktreeRecord}
    (read : readBlock kind seen block = .ok r) :
    ∃ l : Listed kind, l.body = block ∧ l.path ∉ seen ∧ l.record = r := by
  have whole : [nul].intercalate (block.splitOn nul) = block := List.intercalate_splitOn nul
  have plain : ∀ part ∈ block.splitOn nul, nul ∉ part := fun part there => (splitOn_parts there).1
  unfold readBlock at read
  cases is : block.splitOn nul with
  | nil => exact absurd is (List.splitOn_ne_nil _ _)
  | cons first texts =>
    rw [is] at read whole plain
    dsimp only at read
    split_ifs at read with starts valid
    · cases read
    · cases read
    · obtain ⟨fields, fine, last⟩ := bind_eq_ok.mp read
      obtain ⟨attributes, rfl, distinct, -, rfl⟩ := readFields_ok fine
      split_ifs at last with unclear
      · cases last
      · simp only [Bool.or_eq_true, Bool.not_eq_true', not_or, Bool.not_eq_true, Bool.not_eq_false,
          List.contains_iff_mem] at starts valid unclear
        obtain ⟨path, rfl⟩ := List.isPrefixOf_iff_prefix.mp starts
        have dropped : ("worktree ".toList ++ path).drop "worktree ".length = path := rfl
        rw [dropped] at valid last
        have clear : Checkout ((attributes.foldl Fields.add {}).record path) :=
          ambiguous_iff.mp unclear
        rw [record_foldl distinct] at clear
        have pathPlain : nul ∉ path := fun there =>
          plain _ List.mem_cons_self (List.mem_append_right _ there)
        have textPlain : ∀ a ∈ attributes, nul ∉ a.text := fun a there =>
          plain _ (List.mem_cons_of_mem _ (List.mem_map_of_mem there))
        refine ⟨⟨path, attributes, valid.1.1, valid.1.2, pathPlain, textPlain, distinct, clear⟩,
          whole, by simpa using valid.2, ?_⟩
        rw [record_foldl distinct] at last
        exact Except.ok.inj last

/-! ## A listing -/

theorem readBlocks_bodies {seen : List Text} {listing : List (Listed kind)}
    (distinct : (listing.map Listed.path).Nodup) (fresh : ∀ l ∈ listing, l.path ∉ seen) :
    readBlocks kind seen (listing.map Listed.body) = .ok (listing.map Listed.record) := by
  induction listing generalizing seen with
  | nil => rfl
  | cons l listing ih =>
    rw [List.map_cons, List.nodup_cons] at distinct
    have later : ∀ m ∈ listing, m.path ∉ l.path :: seen := by
      intro m there
      rw [List.mem_cons, not_or]
      exact ⟨fun same => distinct.1 (List.mem_map.mpr ⟨m, there, same⟩),
        fresh m (List.mem_cons_of_mem _ there)⟩
    rw [List.map_cons, List.map_cons, readBlocks, readBlock_body l (fresh l List.mem_cons_self)]
    change (readBlocks kind (l.path :: seen) _ >>= _) = _
    rw [ih distinct.2 later]
    rfl

theorem readBlocks_ok {seen blocks : List Text} {records : List WorktreeRecord}
    (read : readBlocks kind seen blocks = .ok records) :
    ∃ listing : List (Listed kind), listing.map Listed.body = blocks ∧
      (listing.map Listed.path).Nodup ∧ (∀ l ∈ listing, l.path ∉ seen) ∧
      listing.map Listed.record = records := by
  induction blocks generalizing seen records with
  | nil => exact ⟨[], rfl, List.nodup_nil, nofun, Except.ok.inj read⟩
  | cons block blocks ih =>
    obtain ⟨r, first, read⟩ := bind_eq_ok.mp read
    obtain ⟨rest, later, read⟩ := bind_eq_ok.mp read
    obtain ⟨l, is, fresh, rfl⟩ := readBlock_ok first
    obtain ⟨listing, bodies, distinct, apart, rfl⟩ := ih later
    refine ⟨l :: listing, by rw [List.map_cons, is, bodies], ?_, ?_, Except.ok.inj read⟩
    · rw [List.map_cons, List.nodup_cons]
      refine ⟨fun there => ?_, distinct⟩
      obtain ⟨m, inside, same⟩ := List.mem_map.mp there
      exact apart m inside (same ▸ List.mem_cons_self)
    · intro m there
      rcases List.mem_cons.mp there with rfl | inside
      · exact fresh
      · exact fun old => apart m inside (List.mem_cons_of_mem _ old)

theorem encode_eq (listing : List (Listed kind)) :
    encode listing = terminated nul (listing.map Listed.body) := by
  unfold encode terminated
  rw [List.flatMap_map]
  exact List.flatMap_congr fun l _ => l.encode_eq

/-- A text that is read is the encoding of a listing. -/
def Lists (kind : PathKind) (text : Text) (records : List WorktreeRecord) : Prop :=
  ∃ listing : List (Listed kind), listing ≠ [] ∧ (listing.map Listed.path).Nodup ∧
    text = encode listing ∧ records = listing.map Listed.record

theorem parseWorktreePorcelain_iff {output : Text} {records : List WorktreeRecord} :
    parseWorktreePorcelain kind output = .ok records ↔ Lists kind (decode output) records := by
  unfold parseWorktreePorcelain
  dsimp only
  constructor
  · intro read
    split_ifs at read with ends
    · cases read
    · rw [Bool.not_eq_true', Bool.not_eq_false, List.isSuffixOf_iff_suffix] at ends
      obtain ⟨text, is⟩ := ends
      obtain ⟨listing, bodies, distinct, -, rfl⟩ := readBlocks_ok read
      rw [← is, List.length_append] at bodies
      have front : (text ++ [nul, nul]).take (text.length + 2 - 2) = text := by simp
      change listing.map Listed.body = splitTwice nul ((text ++ [nul, nul]).take (text.length + 2 - 2)) at bodies
      rw [front] at bodies
      refine ⟨listing, ?_, distinct, ?_, rfl⟩
      · rintro rfl
        exact splitTwice_ne_nil nul text bodies.symm
      · rw [encode_eq, bodies, terminated_splitTwice, is]
  · rintro ⟨listing, some_, distinct, is, rfl⟩
    rw [encode_eq] at is
    have bodies : listing.map Listed.body ≠ [] := by simpa using some_
    obtain ⟨text, ends⟩ := terminated_ends (s := nul) bodies
    have blocks : splitTwice nul text = listing.map Listed.body := by
      apply splitTwice_of_terminated bodies _ ends.symm
      intro b there
      obtain ⟨l, -, rfl⟩ := List.mem_map.mp there
      exact l.body_sparse
    have front : (text ++ [nul, nul]).take ((text ++ [nul, nul]).length - 2) = text := by simp
    rw [is, ends, if_neg, front, blocks]
    · exact readBlocks_bodies distinct (by simp)
    · simp

theorem lists_starts {text : Text} {records : List WorktreeRecord} (lists : Lists kind text records) :
    text.head? = some 'w' := by
  obtain ⟨listing, some_, -, rfl, -⟩ := lists
  cases listing with
  | nil => exact absurd rfl some_
  | cons l listing => rfl

/-- A byte order mark before a complete encoding is not seen; every other text is read as the listing
that it is the encoding of, or not at all. -/
theorem parseWorktreePorcelain_listing (kind : PathKind) (output : Text) :
    (∀ records, parseWorktreePorcelain kind output = .ok records ↔ Lists kind output records) ↔
      ¬ ∃ rest records, output = byteOrderMark :: rest ∧ Lists kind rest records := by
  constructor
  · rintro reads ⟨rest, records, rfl, lists⟩
    have read : parseWorktreePorcelain kind (byteOrderMark :: rest) = .ok records :=
      parseWorktreePorcelain_iff.mpr lists
    have first := lists_starts ((reads records).mp read)
    exact absurd first (of_decide_eq_true rfl)
  · intro unmarked records
    rw [parseWorktreePorcelain_iff]
    cases output with
    | nil => exact Iff.rfl
    | cons c rest =>
      by_cases mark : c = byteOrderMark
      · rw [mark] at unmarked ⊢
        constructor
        · exact fun lists => absurd ⟨rest, records, rfl, lists⟩ unmarked
        · exact fun lists => absurd (lists_starts lists) (of_decide_eq_true rfl)
      · have same : decode (c :: rest) = c :: rest := if_neg mark
        rw [same]

/-- The output of one bare repository, after a byte order mark. -/
theorem parseWorktreePorcelain_marked :
    let output := byteOrderMark :: "worktree /r\x00bare\x00\x00".toList
    parseWorktreePorcelain .posix output = .ok [{ path := "/r".toList, bare := true }] ∧
    ¬ Lists .posix output [{ path := "/r".toList, bare := true }] := by
  refine ⟨by decide, fun lists => ?_⟩
  exact absurd (lists_starts lists) (of_decide_eq_true rfl)

end Artoo.Node.Porcelain
