import Artoo.Lib.Decimal
import Artoo.Lib.Double
import Artoo.Planning.Content
import Mathlib.Data.List.TakeWhile

/-! The references of a plan's dependencies: what `Number` makes of their text. -/
namespace Artoo.Planning
open Artoo.Lib Artoo.Domain

/-! ## `Number` of a string -/

def isHexDigit (c : Char) : Bool :=
  c.isDigit || ('a' ≤ c && c ≤ 'f') || ('A' ≤ c && c ≤ 'F')

def hexDigit (c : Char) : Nat :=
  if c.isDigit then decimalDigit c
  else if 'a' ≤ c then c.toNat - 'a'.toNat + 10 else c.toNat - 'A'.toNat + 10

/-- The digits of a literal with a prefix, one at least. -/
def prefixed (base : Nat) (isDigit : Char → Bool) (digit : Char → Nat) (digits : List Char) :
    Option ℚ :=
  if !digits.isEmpty && digits.all isDigit then some (digitsValue base digit digits : Nat) else none

/-- `StrNumericLiteral`, where it is finite. -/
def literalValue (cs : List Char) : Option ℚ :=
  match cs with
  | '0' :: 'x' :: digits | '0' :: 'X' :: digits => prefixed 16 isHexDigit hexDigit digits
  | '0' :: 'o' :: digits | '0' :: 'O' :: digits =>
    prefixed 8 (fun c => '0' ≤ c && c ≤ '7') decimalDigit digits
  | '0' :: 'b' :: digits | '0' :: 'B' :: digits =>
    prefixed 2 (fun c => c == '0' || c == '1') decimalDigit digits
  | cs =>
    let (negative, rest) := signed cs
    (unsignedValue rest).map fun q => if negative then -q else q

/-- The text without white space at its ends. -/
def trimmedChars (text : String) : List Char :=
  ((text.toList.dropWhile isTrimmed).reverse.dropWhile isTrimmed).reverse

/-- `Number`, where it is finite. -/
def numberOf (text : String) : Option ℚ :=
  if (trimmedChars text).isEmpty then some 0 else (literalValue (trimmedChars text)).bind toDouble

/-- `Number`, where it is an integer. -/
def number (text : String) : Option ℤ :=
  (numberOf text).bind fun q => if q.den = 1 then some q.num else none

/-! ## The canonical numerals -/

theorem dropWhile_of_none {p : Char → Bool} {cs : List Char} (none_ : ∀ c ∈ cs, p c = false) :
    cs.dropWhile p = cs := by
  cases cs with
  | nil => rfl
  | cons c cs => rw [List.dropWhile_cons_of_neg (by simp [none_ c List.mem_cons_self])]

theorem isTrimmed_digit {c : Char} (digit : c.isDigit = true) : isTrimmed c = false := by
  have range := isDigit_toNat digit
  unfold isTrimmed
  simp only [Bool.or_eq_false_iff, beq_eq_false_iff_ne, Bool.and_eq_false_iff, decide_eq_false_iff_not]
  omega

section Digits

variable {cs : List Char}

theorem literalValue_digits (digits : ∀ c ∈ cs, c.isDigit = true) (some_ : cs ≠ []) :
    literalValue cs = some (digitsValue 10 decimalDigit cs : ℚ) := by
  have off : ∀ c, c.isDigit = false → c ∉ cs := by
    intro c letter member
    rw [digits c member] at letter
    cases letter
  have unsigned : signed cs = (false, cs) := by
    unfold signed
    split
    · exact absurd List.mem_cons_self (off '+' rfl)
    · exact absurd List.mem_cons_self (off '-' rfl)
    · rfl
  unfold literalValue
  split
  · exact absurd (List.mem_cons_of_mem _ List.mem_cons_self) (off 'x' rfl)
  · exact absurd (List.mem_cons_of_mem _ List.mem_cons_self) (off 'X' rfl)
  · exact absurd (List.mem_cons_of_mem _ List.mem_cons_self) (off 'o' rfl)
  · exact absurd (List.mem_cons_of_mem _ List.mem_cons_self) (off 'O' rfl)
  · exact absurd (List.mem_cons_of_mem _ List.mem_cons_self) (off 'b' rfl)
  · exact absurd (List.mem_cons_of_mem _ List.mem_cons_self) (off 'B' rfl)
  · rw [unsigned]
    simp [unsignedValue_digits digits some_]

theorem trimmedChars_digits {text : String} (digits : ∀ c ∈ text.toList, c.isDigit = true) :
    trimmedChars text = text.toList := by
  unfold trimmedChars
  rw [dropWhile_of_none fun c member => isTrimmed_digit (digits c member), dropWhile_of_none,
    List.reverse_reverse]
  exact fun c member => isTrimmed_digit (digits c (List.mem_reverse.mp member))

end Digits

/-- The numeral of an index is read as the index. -/
theorem number_toString {n : Nat} (small : n < 2 ^ 53) : number (toString n) = some (n : ℤ) := by
  have list : (toString n).toList = Nat.toDigits 10 n := Nat.toList_repr
  have digits : ∀ c ∈ (toString n).toList, c.isDigit = true := by
    rw [list]
    exact fun c member => Nat.isDigit_of_mem_toDigits (by decide) (by decide) member
  have some_ : (toString n).toList ≠ [] := by
    rw [list]
    exact Nat.toDigits_ne_nil
  have value : digitsValue 10 decimalDigit (toString n).toList = n := by
    rw [list]
    exact (Nat.ofDigitChars_eq_foldl.symm).trans Nat.ofDigitChars_ten_toDigits
  unfold number numberOf
  rw [trimmedChars_digits digits, literalValue_digits digits some_, value]
  simp [toDouble_natCast small]

/-- White space around a text does not change its number; of white space alone it is 0. -/
theorem number_blank {text : String} (blank : ∀ c ∈ text.toList, isTrimmed c = true) :
    number text = some 0 := by
  unfold number numberOf trimmedChars
  rw [List.dropWhile_eq_nil_iff.mpr blank]
  rfl

/-! ## The references that are taken for an index -/

/-- Neither refused as unknown nor as its own task. -/
def Accepted (result : Except Failure (List PlanEdge)) (i : Nat) (ref : String) : Prop :=
  result ≠ .error (unknownRef i ref) ∧ result ≠ .error (selfRef i)

/-- A reference that is no canonical numeral, and that `Number` takes for the index of another
task. -/
def Misspelled (count i : Nat) (ref : String) : Prop :=
  ∃ k < count, k ≠ i ∧ number ref = some (k : ℤ) ∧ ref ≠ toString k

theorem resolveRef_iff {count refIdx : Nat} {ref : String} :
    resolveRef number count ref = some refIdx ↔ refIdx < count ∧ number ref = some (refIdx : ℤ) := by
  unfold resolveRef
  cases number ref with
  | none => simp
  | some n =>
    dsimp only
    split
    · rename_i range
      simp only [Option.some.injEq]
      omega
    · rename_i range
      simp only [Option.some.injEq, reduceCtorEq, false_iff]
      omega

section Round

variable {count : Nat} {idForIndex : Nat → String} {edges : List PlanEdge}
  {d : Nat × DependencySpec}

/-- What a round accepts. -/
theorem accepted_iff : Accepted (buildEdge number count idForIndex edges d) d.1 d.2.ref ↔
    ∃ k < count, k ≠ d.1 ∧ number d.2.ref = some (k : ℤ) := by
  unfold Accepted buildEdge
  cases found : resolveRef number count d.2.ref with
  | none =>
    constructor
    · exact fun both => absurd rfl both.1
    · rintro ⟨k, lt, _, is⟩
      rw [resolveRef_iff.mpr ⟨lt, is⟩] at found
      cases found
  | some refIdx =>
    obtain ⟨lt, is⟩ := resolveRef_iff.mp found
    dsimp only
    split
    · rename_i own
      constructor
      · exact fun both => absurd rfl both.2
      · rintro ⟨k, _, other, same⟩
        rw [is, Option.some.injEq] at same
        omega
    · rename_i other
      have accepted : ∃ k < count, k ≠ d.1 ∧ number d.2.ref = some (k : ℤ) :=
        ⟨refIdx, lt, other, is⟩
      split
      · exact ⟨fun _ => accepted, fun _ => ⟨nofun, nofun⟩⟩
      · exact ⟨fun _ => accepted, fun _ => ⟨nofun, nofun⟩⟩

/-- The edge that a round adds. -/
theorem buildEdge_edge {out : List PlanEdge}
    (built : buildEdge number count idForIndex edges d = .ok out) :
    ∃ k < count, k ≠ d.1 ∧ number d.2.ref = some (k : ℤ) ∧
      out = edges ++ [⟨idForIndex k, idForIndex d.1, d.2.type⟩] := by
  unfold buildEdge at built
  split at built
  · cases built
  · rename_i refIdx found
    obtain ⟨lt, is⟩ := resolveRef_iff.mp found
    split at built
    · cases built
    · rename_i other
      split at built
      · cases built
      · cases built
        exact ⟨refIdx, lt, other, is, rfl⟩

/-- A round takes exactly the canonical numerals of other indices for references, and makes their
edges. -/
def Canonical (count : Nat) (idForIndex : Nat → String) (edges : List PlanEdge)
    (d : Nat × DependencySpec) : Prop :=
  (Accepted (buildEdge number count idForIndex edges d) d.1 d.2.ref ↔
    ∃ k < count, k ≠ d.1 ∧ d.2.ref = toString k) ∧
  ∀ out, buildEdge number count idForIndex edges d = .ok out →
    ∃ k, d.2.ref = toString k ∧ out = edges ++ [⟨idForIndex k, idForIndex d.1, d.2.type⟩]

end Round

namespace Sample

def build : TaskSpec := { title := "Build", acceptanceCriteria := ["it builds"] }

def test : TaskSpec :=
  { title := "Test", acceptanceCriteria := ["tests pass"], dependencies := [⟨"", .blocks⟩] }

end Sample

open Sample

end Artoo.Planning
