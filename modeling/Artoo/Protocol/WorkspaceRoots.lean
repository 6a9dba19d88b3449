import Artoo.Lib.Ascii
import Artoo.Protocol.WorkspaceAllocation

/-! The roots of different runs lie apart in their base, on a file system that folds case too. -/
namespace Artoo.Protocol
open Artoo.Lib

/-! ## The encoding of identifiers -/

/-- The characters of the segments: those that no folding of case identifies. -/
def Plain (c : Char) : Prop := c.isLower ∨ c.isDigit ∨ c = '-'

instance {c : Char} : Decidable (Plain c) := inferInstanceAs (Decidable (_ ∨ _ ∨ _))

theorem plain_of_all {cs : List Char} (all : (cs.all fun c => decide (Plain c)) = true) :
    ∀ c ∈ cs, Plain c := fun c member => of_decide_eq_true (List.all_eq_true.mp all c member)

theorem plain_lt {c : Char} (plain : Plain c) : c.toNat < 128 := by
  unfold Plain at plain
  rw [isLower_iff, isDigit_iff] at plain
  rcases plain with is | is | rfl
  · omega
  · omega
  · decide

theorem plain_utf8Size {c : Char} (plain : Plain c) : c.utf8Size = 1 := by
  have small := plain_lt plain
  exact Char.utf8Size_eq_one_iff.mpr (UInt32.le_iff_toNat_le.mpr (Nat.le_of_lt_succ small))

theorem plain_digitChar {n : Nat} (lt : n < 16) : Plain (Nat.digitChar n) := by
  have all : ∀ m : Fin 16, Plain (Nat.digitChar m) := by decide
  exact all ⟨n, lt⟩

theorem digitChar_inj {m n : Nat} (left : m < 16) (right : n < 16)
    (same : Nat.digitChar m = Nat.digitChar n) : m = n := by
  have all : ∀ i j : Fin 16, Nat.digitChar i = Nat.digitChar j → i = j := by decide
  exact Fin.mk.inj (all ⟨m, left⟩ ⟨n, right⟩ same)

def Ascii (cs : List Char) : Prop := ∀ c ∈ cs, c.toNat < 128

theorem plain_hexOf {cs : List Char} (ascii : Ascii cs) : ∀ c ∈ hexOf cs, Plain c := by
  intro c member
  obtain ⟨d, there, inside⟩ := List.mem_flatMap.mp member
  have bound := ascii d there
  rcases List.mem_cons.mp inside with rfl | last
  · exact plain_digitChar (by omega)
  · rw [List.mem_singleton.mp last]
    exact plain_digitChar (by omega)

theorem hexOf_injective {a b : List Char} (left : Ascii a) (right : Ascii b)
    (same : hexOf a = hexOf b) : a = b := by
  induction a generalizing b with
  | nil =>
    cases b with
    | nil => rfl
    | cons d b => cases same
  | cons c a ih =>
    cases b with
    | nil => cases same
    | cons d b =>
      have boundC := left c List.mem_cons_self
      have boundD := right d List.mem_cons_self
      simp only [hexOf, List.flatMap_cons, List.cons_append, List.nil_append, List.cons.injEq] at same
      have high := digitChar_inj (by omega) (by omega) same.1
      have low := digitChar_inj (by omega) (by omega) same.2.1
      have code : c.toNat = d.toNat := by omega
      have rest := ih (fun e member => left e (List.mem_cons_of_mem _ member))
        (fun e member => right e (List.mem_cons_of_mem _ member)) same.2.2
      rw [Char.toNat_inj.mp code, rest]

theorem length_hexOf {cs : List Char} : (hexOf cs).length = 2 * cs.length := by
  induction cs with
  | nil => rfl
  | cons c cs ih =>
    simp only [hexOf, List.flatMap_cons, List.cons_append, List.nil_append, List.length_cons] at ih ⊢
    omega

theorem isIdChar_ascii {c : Char} (is : isIdChar c = true) : c.toNat < 128 := by
  change (((c.isUpper || c.isLower) || c.isDigit) || c == '_' || c == '-') = true at is
  simp only [Bool.or_eq_true, isUpper_iff, isLower_iff, isDigit_iff, beq_iff_eq] at is
  rcases is with (is | rfl) | rfl
  · omega
  · decide
  · decide

theorem isIdentifier_ascii {id : List Char} {p : IdPrefix} (is : isIdentifier id p = true) :
    Ascii id := by
  unfold isIdentifier at is
  simp only [Bool.and_eq_true, List.isPrefixOf_iff_prefix, List.all_eq_true] at is
  obtain ⟨⟨⟨rest, rfl⟩, _⟩, chars⟩ := is
  rw [List.drop_left] at chars
  intro c member
  rcases List.mem_append.mp member with start | inRest
  · have all : ((p.name.toList ++ ['_']).all fun c => decide (c.toNat < 128)) = true := by
      cases p <;> decide
    exact of_decide_eq_true (List.all_eq_true.mp all c start)
  · exact isIdChar_ascii (chars c inRest)

theorem length_le_unitCount {cs : List Char} : cs.length ≤ unitCount cs := by
  unfold unitCount
  induction cs with
  | nil => simp
  | cons c cs ih =>
    rw [List.map_cons, List.sum_cons, List.length_cons]
    split <;> omega

/-- A segment: plain, of bounded length, and one to one with its identifier. -/
theorem encodedId_ok {id : String} {p : IdPrefix} {hex : List Char}
    (is : encodedId id p = .ok hex) :
    hex = hexOf id.toList ∧ Ascii id.toList ∧ hex.length ≤ 128 := by
  unfold encodedId at is
  split at is
  · cases is
  · rename_i passes
    cases is
    simp only [Bool.or_eq_true, decide_eq_true_eq, Bool.not_eq_true', not_or, not_lt,
      Bool.not_eq_false] at passes
    refine ⟨rfl, isIdentifier_ascii passes.2, ?_⟩
    have short := Nat.le_trans length_le_unitCount passes.1
    rw [length_hexOf]
    change _ ≤ 64 at short
    omega

/-! ## The components of a root -/

theorem plain_apart {kind : PathKind} {c : Char} (plain : Plain c) : kind.isSeparator c = false := by
  have slash : c ≠ '/' := fun is => absurd (is ▸ plain) (by decide)
  have backslash : c ≠ '\\' := fun is => absurd (is ▸ plain) (by decide)
  cases kind <;> simp [PathKind.isSeparator, slash, backslash]

def segmentsOf (instanceHex runHex : List Char) : List (List Char) :=
  ["artoo-runs".toList, "i-".toList ++ instanceHex, "r-".toList ++ runHex]

theorem plain_segments {instanceHex runHex : List Char} (left : ∀ c ∈ instanceHex, Plain c)
    (right : ∀ c ∈ runHex, Plain c) :
    ∀ part ∈ segmentsOf instanceHex runHex, part ≠ [] ∧ ∀ c ∈ part, Plain c := by
  have name : ∀ c ∈ "artoo-runs".toList, Plain c := plain_of_all (by decide)
  have instance_ : ∀ c ∈ "i-".toList, Plain c := plain_of_all (by decide)
  have run : ∀ c ∈ "r-".toList, Plain c := plain_of_all (by decide)
  simp only [segmentsOf, List.forall_mem_cons, List.not_mem_nil, false_imp_iff, implies_true,
    and_true, List.mem_append]
  refine ⟨⟨by decide, name⟩, ⟨by simp, ?_⟩, ⟨by simp, ?_⟩⟩
  · exact fun c member => member.elim (instance_ c) (left c)
  · exact fun c member => member.elim (run c) (right c)

section Roots

variable {kind : PathKind} {base instanceHex runHex : List Char}

theorem isSeparator_separator : kind.isSeparator kind.separator = true := by
  cases kind <;> rfl

theorem components_suffix (left : ∀ c ∈ instanceHex, Plain c) (right : ∀ c ∈ runHex, Plain c) :
    components kind.isSeparator (allocationSuffix kind.separator instanceHex runHex) =
      segmentsOf instanceHex runHex := by
  have parts := plain_segments left right
  have single : ∀ part ∈ segmentsOf instanceHex runHex, components kind.isSeparator part = [part] :=
    fun part member => components_single (fun c there => plain_apart ((parts part member).2 c there))
      (parts part member).1
  unfold allocationSuffix
  rw [List.append_assoc, List.cons_append, components_append isSeparator_separator,
    components_append isSeparator_separator]
  rw [single _ (by simp [segmentsOf]), single _ (by simp [segmentsOf]),
    single _ (by simp [segmentsOf])]
  rfl

theorem components_rootOf {suffix : List Char} :
    components kind.isSeparator (rootOf kind base suffix) =
      components kind.isSeparator base ++ components kind.isSeparator suffix := by
  unfold rootOf
  split
  · rename_i ends
    obtain ⟨s, last, is⟩ := (Option.any_eq_true _ _).mp ends
    obtain ⟨front, rfl⟩ := List.getLast?_eq_some_iff.mp last
    rw [List.append_nil, List.append_assoc, List.singleton_append, components_append is,
      components_snoc is]
  · rw [List.append_assoc, List.singleton_append, components_append isSeparator_separator]

end Roots

/-! ## The base -/

/-- A component within the limit of the target. -/
def Bounded (kind : PathKind) (part : List Char) : Prop :=
  match kind with
  | .posix => byteCount part ≤ 255
  | .windows => unitCount part ≤ 255

/-- A component that an allocated root may have: bounded, and no step up or on the spot. -/
def GoodPart (kind : PathKind) (part : List Char) : Prop :=
  Bounded kind part ∧ part ≠ ['.'] ∧ part ≠ ['.', '.']

theorem failWhen_ok {refused : Bool} {code : WorkspaceAllocationErrorCode} {message : String}
    {u : Unit} : failWhen refused code message = .ok u ↔ refused = false := by
  cases refused with
  | true => simp [failWhen]
  | false => simp [failWhen]

theorem invalidBase_ok {refused : Bool} {reason : String} {u : Unit} :
    invalidBase refused reason = .ok u ↔ refused = false := failWhen_ok

theorem forM_ok {parts : List (List Char)} {check : List Char → Allocation Unit} {u : Unit}
    (is : parts.forM check = .ok u) : ∀ part ∈ parts, check part = .ok () := by
  induction parts with
  | nil => simp
  | cons part parts ih =>
    change (check part >>= fun _ => parts.forM check) = _ at is
    obtain ⟨_, first, rest⟩ := bind_eq_ok.mp is
    exact List.forall_mem_cons.mpr ⟨first, ih rest⟩

theorem validatePosixBase_ok {base : List Char} {parts : List (List Char)}
    (is : validatePosixBase base = .ok parts) :
    parts = components PathKind.posix.isSeparator base ∧ ∀ part ∈ parts, Bounded .posix part := by
  unfold validatePosixBase at is
  obtain ⟨_, _, is⟩ := bind_eq_ok.mp is
  obtain ⟨_, _, is⟩ := bind_eq_ok.mp is
  obtain ⟨_, small, is⟩ := bind_eq_ok.mp is
  cases is
  refine ⟨rfl, fun part member => ?_⟩
  have bound := List.any_eq_false.mp (invalidBase_ok.mp small) part member
  simpa [Bounded] using bound

/-- The components after the drive or the two leading separators are all but the drive. -/
theorem components_windows {base : List Char} (root : isDriveRoot base = true ∨ isUncRoot base = true) :
    ∀ part ∈ components PathKind.windows.isSeparator base,
      part ∈ components PathKind.windows.isSeparator
          (base.drop (if isDriveRoot base then 3 else 2)) ∨
        ∃ drive : Char, drive.isAlpha = true ∧ part = [drive, ':'] := by
  intro part member
  cases driven : isDriveRoot base with
  | true =>
    unfold isDriveRoot at driven
    split at driven
    · rename_i drive s rest
      simp only [Bool.and_eq_true] at driven
      have head : components PathKind.windows.isSeparator (drive :: ':' :: s :: rest) =
          components PathKind.windows.isSeparator [drive, ':'] ++
            components PathKind.windows.isSeparator rest :=
        components_append (a := [drive, ':']) driven.2
      have letter : ∀ c ∈ [drive, ':'], PathKind.windows.isSeparator c = false := by
        intro c inside
        rcases List.mem_cons.mp inside with rfl | last
        · have slash : c ≠ '/' := fun is => absurd (is ▸ driven.1) (by decide)
          have backslash : c ≠ '\\' := fun is => absurd (is ▸ driven.1) (by decide)
          simp [PathKind.isSeparator, slash, backslash]
        · rw [List.mem_singleton.mp last]
          rfl
      rw [head, components_single letter (by simp)] at member
      rcases List.mem_append.mp member with first | later
      · exact Or.inr ⟨drive, driven.1, List.mem_singleton.mp first⟩
      · exact Or.inl later
    · cases driven
  | false =>
    rcases root with is | unc
    · cases driven.symm.trans is
    · refine Or.inl ?_
      unfold isUncRoot at unc
      split at unc
      · rename_i rest
        have first : components PathKind.windows.isSeparator ('\\' :: '\\' :: rest) =
            components PathKind.windows.isSeparator [] ++ components PathKind.windows.isSeparator
              ('\\' :: rest) := components_append (a := []) rfl
        have second : components PathKind.windows.isSeparator ('\\' :: rest) =
            components PathKind.windows.isSeparator [] ++
              components PathKind.windows.isSeparator rest := components_append (a := []) rfl
        rw [first, second] at member
        exact member
      · rename_i rest
        have first : components PathKind.windows.isSeparator ('/' :: '/' :: rest) =
            components PathKind.windows.isSeparator [] ++ components PathKind.windows.isSeparator
              ('/' :: rest) := components_append (a := []) rfl
        have second : components PathKind.windows.isSeparator ('/' :: rest) =
            components PathKind.windows.isSeparator [] ++
              components PathKind.windows.isSeparator rest := components_append (a := []) rfl
        rw [first, second] at member
        exact member
      · cases unc

theorem validateWindowsBase_ok {base : List Char} {parts : List (List Char)}
    (is : validateWindowsBase base = .ok parts) :
    (isDriveRoot base = true ∨ isUncRoot base = true) ∧
      parts = components PathKind.windows.isSeparator
        (base.drop (if isDriveRoot base then 3 else 2)) ∧
      ∀ part ∈ parts, Bounded .windows part := by
  unfold validateWindowsBase at is
  obtain ⟨_, rooted, is⟩ := bind_eq_ok.mp is
  obtain ⟨_, _, is⟩ := bind_eq_ok.mp is
  obtain ⟨_, checked, is⟩ := bind_eq_ok.mp is
  cases is
  have rooted := invalidBase_ok.mp rooted
  simp only [Bool.or_eq_false_iff, Bool.and_eq_false_iff, Bool.not_eq_false'] at rooted
  refine ⟨rooted.1, rfl, fun part member => ?_⟩
  have valid := forM_ok checked part member
  unfold validateWindowsPart at valid
  obtain ⟨_, small, _⟩ := bind_eq_ok.mp valid
  have small := invalidBase_ok.mp small
  simp only [Bool.or_eq_false_iff, decide_eq_false_iff_not, not_lt] at small
  exact small.1.1

/-- The components that the check of a base goes through. -/
def baseParts (base : List Char) : PathKind → Allocation (List (List Char))
  | .posix => validatePosixBase base
  | .windows => validateWindowsBase base

theorem validateBase_ok {base : List Char} {kind : PathKind} {u : Unit}
    (is : validateBase base kind = .ok u) :
    ∀ part ∈ components kind.isSeparator base, GoodPart kind part := by
  unfold validateBase at is
  obtain ⟨_, _, is⟩ := bind_eq_ok.mp is
  obtain ⟨parts, found, dots⟩ : ∃ parts, baseParts base kind = .ok parts ∧
      invalidBase (parts.any fun part => part == ['.'] || part == ['.', '.'])
        "Worktree base must not contain dot or parent-traversal segments" = .ok u := by
    cases kind <;> exact bind_eq_ok.mp is
  have noDots : ∀ part ∈ parts, part ≠ ['.'] ∧ part ≠ ['.', '.'] := by
    intro part member
    have off := List.any_eq_false.mp (invalidBase_ok.mp dots) part member
    simpa using off
  intro part member
  cases kind with
  | posix =>
    obtain ⟨rfl, bounded⟩ := validatePosixBase_ok found
    exact ⟨bounded part member, noDots part member⟩
  | windows =>
    obtain ⟨rooted, rfl, bounded⟩ := validateWindowsBase_ok found
    rcases components_windows rooted part member with rest | ⟨drive, letter, rfl⟩
    · exact ⟨bounded part rest, noDots part rest⟩
    · refine ⟨?_, by simp, by simp⟩
      unfold Bounded unitCount
      simp only [List.map_cons, List.map_nil, List.sum_cons, List.sum_nil]
      split <;> split <;> omega

/-! ## The roots -/

section Allocated

variable {input : AllocationInput} {setting : Json} {root : String}

/-- What an allocated root is made of. -/
theorem allocate_ok (backed : input.branchBacked = true) (configured : input.worktreeBase = some setting)
    (is : allocateWorkspaceRoot input = .ok (some root)) :
    ∃ kind config instanceHex runHex,
      validateWorktreeBaseConfiguration setting input.targetComputerOs = .ok config ∧
        pathKind input.targetComputerOs = .ok kind ∧
        encodedId input.agentInstanceId .ai = .ok instanceHex ∧
        encodedId input.runId .run = .ok runHex ∧
        root.toList = rootOf kind config.basePath.toList
          (allocationSuffix kind.separator instanceHex runHex) ∧
        tooLong kind root.toList = false := by
  unfold allocateWorkspaceRoot at is
  rw [backed, configured] at is
  dsimp only at is
  obtain ⟨config, valid, is⟩ := bind_eq_ok.mp is
  obtain ⟨kind, kinded, is⟩ := bind_eq_ok.mp is
  obtain ⟨instanceHex, first, is⟩ := bind_eq_ok.mp is
  obtain ⟨runHex, second, is⟩ := bind_eq_ok.mp is
  obtain ⟨_, short, is⟩ := bind_eq_ok.mp is
  cases is
  refine ⟨kind, config, instanceHex, runHex, valid, kinded, first, second, ?_, ?_⟩
  · rw [String.toList_ofList]
  · rw [String.toList_ofList]
    exact failWhen_ok.mp short

theorem validated_base {os : String} {config : WorktreeBaseConfiguration} {kind : PathKind}
    (valid : validateWorktreeBaseConfiguration setting os = .ok config)
    (kinded : pathKind os = .ok kind) :
    validateBase config.basePath.toList kind = .ok () := by
  unfold validateWorktreeBaseConfiguration at valid
  split at valid
  · split at valid
    · cases valid
    · split at valid
      · split at valid
        · obtain ⟨kind', kinded', valid⟩ := bind_eq_ok.mp valid
          obtain ⟨u, checked, valid⟩ := bind_eq_ok.mp valid
          cases valid
          cases kinded.symm.trans kinded'
          exact checked
        · cases valid
      · cases valid
  · cases valid

end Allocated

/-- A file system's folding of names, of case or more: it identifies no two plain ones. -/
structure CaseFold where
  fold : List Char → List Char
  apart : ∀ a b, (∀ c ∈ a, Plain c) → (∀ c ∈ b, Plain c) → fold a = fold b → a = b

/-- `inner` is `outer` or lies in it, up to the folding. -/
def CaseFold.Within (f : CaseFold) (kind : PathKind) (outer inner : String) : Prop :=
  (components kind.isSeparator outer.toList).map f.fold <+:
    (components kind.isSeparator inner.toList).map f.fold

/-- The target's limit on a whole path. -/
def WithinLimit (kind : PathKind) (root : String) : Prop :=
  match kind with
  | .posix => byteCount root.toList ≤ posixMaxPathBytes
  | .windows => unitCount root.toList ≤ windowsMaxPathUnits

/-- The root lies in the base directory, by its text and by its components, none of which is too long
or leads up again. -/
def Inside (kind : PathKind) (base root : String) : Prop :=
  base.toList <+: root.toList ∧
    components kind.isSeparator base.toList <+: components kind.isSeparator root.toList ∧
    ∀ part ∈ components kind.isSeparator root.toList, GoodPart kind part

/-! ## Roots apart -/

section Segments

variable {instanceHex runHex : List Char}

theorem byteCount_plain {cs : List Char} (plain : ∀ c ∈ cs, Plain c) : byteCount cs = cs.length := by
  unfold byteCount
  induction cs with
  | nil => rfl
  | cons c cs ih =>
    have size : c.utf8Size = 1 := plain_utf8Size (plain c List.mem_cons_self)
    rw [List.map_cons, List.sum_cons, List.length_cons, size,
      ih fun d member => plain d (List.mem_cons_of_mem _ member)]
    omega

theorem unitCount_plain {cs : List Char} (plain : ∀ c ∈ cs, Plain c) : unitCount cs = cs.length := by
  unfold unitCount
  induction cs with
  | nil => rfl
  | cons c cs ih =>
    have small := plain_lt (plain c List.mem_cons_self)
    rw [List.map_cons, List.sum_cons, List.length_cons, if_pos (by omega),
      ih fun d member => plain d (List.mem_cons_of_mem _ member)]
    omega

theorem bounded_plain {kind : PathKind} {part : List Char} (plain : ∀ c ∈ part, Plain c)
    (short : part.length ≤ 255) : Bounded kind part := by
  cases kind with
  | posix =>
    unfold Bounded
    rw [byteCount_plain plain]
    exact short
  | windows =>
    unfold Bounded
    rw [unitCount_plain plain]
    exact short

/-- A segment is no step up or on the spot: a point is not plain. -/
theorem goodPart_plain {kind : PathKind} {part : List Char} (plain : ∀ c ∈ part, Plain c)
    (short : part.length ≤ 255) : GoodPart kind part := by
  refine ⟨bounded_plain plain short, ?_, ?_⟩
  · rintro rfl
    exact absurd (plain '.' List.mem_cons_self) (by decide)
  · rintro rfl
    exact absurd (plain '.' List.mem_cons_self) (by decide)

theorem short_segments (left : instanceHex.length ≤ 128) (right : runHex.length ≤ 128) :
    ∀ part ∈ segmentsOf instanceHex runHex, part.length ≤ 255 := by
  have name : "artoo-runs".toList.length = 10 := rfl
  have markI : "i-".toList.length = 2 := rfl
  have markR : "r-".toList.length = 2 := rfl
  simp only [segmentsOf, List.forall_mem_cons, List.not_mem_nil, false_imp_iff, implies_true,
    and_true, List.length_append]
  omega

theorem segmentsOf_inj {instanceHex' runHex' : List Char}
    (same : segmentsOf instanceHex runHex = segmentsOf instanceHex' runHex') :
    instanceHex = instanceHex' ∧ runHex = runHex' := by
  simp only [segmentsOf, List.cons.injEq, List.append_cancel_left_eq, true_and, and_true] at same
  exact same

/-- A folding keeps apart two lists of plain names. -/
theorem CaseFold.map_inj (f : CaseFold) {xs ys : List (List Char)}
    (left : ∀ part ∈ xs, ∀ c ∈ part, Plain c) (right : ∀ part ∈ ys, ∀ c ∈ part, Plain c)
    (same : xs.map f.fold = ys.map f.fold) : xs = ys := by
  induction xs generalizing ys with
  | nil =>
    cases ys with
    | nil => rfl
    | cons y ys => cases same
  | cons x xs ih =>
    cases ys with
    | nil => cases same
    | cons y ys =>
      rw [List.map_cons, List.map_cons, List.cons.injEq] at same
      have head := f.apart x y (left x List.mem_cons_self) (right y List.mem_cons_self) same.1
      have rest := ih (fun part member => left part (List.mem_cons_of_mem _ member))
        (fun part member => right part (List.mem_cons_of_mem _ member)) same.2
      rw [head, rest]

end Segments

section Apart

variable {input input' : AllocationInput} {setting : Json} {root root' : String}

/-- Two allocations under one setting, for one kind of target. -/
theorem same_ids_of_within {kind : PathKind} {base : List Char} {i r i' r' : List Char}
    (f : CaseFold) (plain : ∀ c ∈ i, Plain c) (plainR : ∀ c ∈ r, Plain c)
    (plain' : ∀ c ∈ i', Plain c) (plainR' : ∀ c ∈ r', Plain c)
    (is : root.toList = rootOf kind base (allocationSuffix kind.separator i r))
    (is' : root'.toList = rootOf kind base (allocationSuffix kind.separator i' r'))
    (within : f.Within kind root root') : i = i' ∧ r = r' := by
  unfold CaseFold.Within at within
  rw [is, is', components_rootOf, components_rootOf, components_suffix plain plainR,
    components_suffix plain' plainR', List.map_append, List.map_append,
    List.prefix_append_right_inj] at within
  -- Three segments each: a prefix is the whole.
  have same := within.eq_of_length rfl
  have left := plain_segments plain plainR
  have right := plain_segments plain' plainR'
  exact segmentsOf_inj (f.map_inj (fun part member => (left part member).2)
    (fun part member => (right part member).2) same)

/-- What holds of one allocated root. -/
theorem allocated_inside (backed : input.branchBacked = true)
    (configured : input.worktreeBase = some setting)
    (is : allocateWorkspaceRoot input = .ok (some root)) :
    ∃ kind config, pathKind input.targetComputerOs = .ok kind ∧
      validateWorktreeBaseConfiguration setting input.targetComputerOs = .ok config ∧
        Inside kind config.basePath root ∧ WithinLimit kind root := by
  obtain ⟨kind, config, i, r, valid, kinded, first, second, made, short⟩ :=
    allocate_ok backed configured is
  refine ⟨kind, config, kinded, valid, ⟨?_, ?_, ?_⟩, ?_⟩
  · rw [made, rootOf, List.append_assoc]
    exact List.prefix_append _ _
  · rw [made, components_rootOf]
    exact List.prefix_append _ _
  · obtain ⟨rfl, asciiI, shortI⟩ := encodedId_ok first
    obtain ⟨rfl, asciiR, shortR⟩ := encodedId_ok second
    rw [made, components_rootOf, components_suffix (plain_hexOf asciiI) (plain_hexOf asciiR)]
    intro part member
    rcases List.mem_append.mp member with inBase | segment
    · exact validateBase_ok (validated_base valid kinded) part inBase
    · have plain := plain_segments (plain_hexOf asciiI) (plain_hexOf asciiR) part segment
      exact goodPart_plain plain.2 (short_segments shortI shortR part segment)
  · cases kind with
    | posix =>
      simp only [tooLong, decide_eq_false_iff_not, not_lt] at short
      exact short
    | windows =>
      simp only [tooLong, decide_eq_false_iff_not, not_lt] at short
      exact short

end Apart

/-- Two runs' roots under one setting of the base: inside it, within the limits, and unless the runs
are the same, not equal nor one in the other on any file system that tells plain names apart. -/
theorem workspace_roots (f : CaseFold) (x y : AllocationInput) (setting : Json) (p q : String)
    (backed : x.branchBacked = true) (backed' : y.branchBacked = true)
    (configured : x.worktreeBase = some setting) (configured' : y.worktreeBase = some setting)
    (os : x.targetComputerOs = y.targetComputerOs)
    (is : allocateWorkspaceRoot x = .ok (some p)) (is' : allocateWorkspaceRoot y = .ok (some q)) :
    ∃ kind config, pathKind x.targetComputerOs = .ok kind ∧
      validateWorktreeBaseConfiguration setting x.targetComputerOs = .ok config ∧
        (Inside kind config.basePath p ∧ WithinLimit kind p) ∧
        (Inside kind config.basePath q ∧ WithinLimit kind q) ∧
        ((x.agentInstanceId, x.runId) ≠ (y.agentInstanceId, y.runId) →
          p ≠ q ∧ ¬ f.Within kind p q ∧ ¬ f.Within kind q p) := by
  obtain ⟨kind, config, kinded, valid, inside⟩ := allocated_inside backed configured is
  obtain ⟨kindY, configY, kindedY, validY, insideY⟩ := allocated_inside backed' configured' is'
  rw [← os] at kindedY validY
  cases kinded.symm.trans kindedY
  cases valid.symm.trans validY
  refine ⟨kind, config, kinded, valid, inside, insideY, fun apart => ?_⟩
  obtain ⟨_, _, i, r, valid₁, kinded₁, first₁, second₁, made₁, _⟩ :=
    allocate_ok backed configured is
  obtain ⟨_, _, i', r', valid₂, kinded₂, first₂, second₂, made₂, _⟩ :=
    allocate_ok backed' configured' is'
  rw [← os] at kinded₂ valid₂
  cases kinded.symm.trans kinded₁
  cases kinded.symm.trans kinded₂
  cases valid.symm.trans valid₁
  cases valid.symm.trans valid₂
  obtain ⟨rfl, asciiI, _⟩ := encodedId_ok first₁
  obtain ⟨rfl, asciiR, _⟩ := encodedId_ok second₁
  obtain ⟨rfl, asciiI', _⟩ := encodedId_ok first₂
  obtain ⟨rfl, asciiR', _⟩ := encodedId_ok second₂
  have notWithin : ¬ f.Within kind p q := by
    intro within
    have same := same_ids_of_within f (plain_hexOf asciiI) (plain_hexOf asciiR)
      (plain_hexOf asciiI') (plain_hexOf asciiR') made₁ made₂ within
    have ids := String.toList_inj.mp (hexOf_injective asciiI asciiI' same.1)
    have runs := String.toList_inj.mp (hexOf_injective asciiR asciiR' same.2)
    exact apart (Prod.ext ids runs)
  have notWithin' : ¬ f.Within kind q p := by
    intro within
    have same := same_ids_of_within f (plain_hexOf asciiI') (plain_hexOf asciiR')
      (plain_hexOf asciiI) (plain_hexOf asciiR) made₂ made₁ within
    have ids := String.toList_inj.mp (hexOf_injective asciiI' asciiI same.1)
    have runs := String.toList_inj.mp (hexOf_injective asciiR' asciiR same.2)
    exact apart (Prod.ext ids.symm runs.symm)
  refine ⟨?_, notWithin, notWithin'⟩
  rintro rfl
  exact notWithin (List.prefix_refl _)

namespace Sample

theorem map_toLower_plain {a : List Char} (plain : ∀ c ∈ a, Plain c) :
    a.map Char.toLower = a := by
  have each : ∀ c ∈ a, Char.toLower c = c := by
    intro c member
    unfold Char.toLower
    rw [dif_neg]
    intro upper
    have bounds := isUpper_iff.mp (decide_eq_true upper)
    have isPlain := plain c member
    unfold Plain at isPlain
    rw [isLower_iff, isDigit_iff] at isPlain
    rcases isPlain with is | is | rfl
    · omega
    · omega
    · exact absurd bounds (by decide)
  rw [List.map_congr_left each, List.map_id']

def asciiFold : CaseFold where
  fold := List.map Char.toLower
  apart := by
    intro a b left right same
    rw [map_toLower_plain left, map_toLower_plain right] at same
    exact same

def setting : Json :=
  .obj [("version", .num 1), ("strategy", .str "per-run"), ("basePath", .str "/Approved/Runs/")]

def allocation (instance_ : String) : AllocationInput where
  workspaceRoot := none
  branchBacked := true
  targetComputerOs := "linux"
  agentInstanceId := instance_
  runId := "run_1"
  worktreeBase := some setting

def rootA : String := "/Approved/Runs/artoo-runs/i-61695f41/r-72756e5f31"

def roota : String := "/Approved/Runs/artoo-runs/i-61695f61/r-72756e5f31"

end Sample

/-- Two instances whose ids differ in case only. -/
theorem workspace_roots_case :
    Sample.rootA ≠ Sample.roota ∧ ¬ Sample.asciiFold.Within .posix Sample.rootA Sample.roota ∧
      ¬ Sample.asciiFold.Within .posix Sample.roota Sample.rootA := by
  obtain ⟨kind, config, kinded, _, _, _, apart⟩ :=
    workspace_roots Sample.asciiFold (Sample.allocation "ai_A") (Sample.allocation "ai_a")
      Sample.setting Sample.rootA Sample.roota rfl rfl rfl rfl rfl (by decide +kernel)
      (by decide +kernel)
  cases kinded
  exact apart (by decide)

end Artoo.Protocol
