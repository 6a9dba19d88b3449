import Mathlib.Data.Nat.Digits.Lemmas
import Mathlib.Data.Rat.Defs
import Mathlib.Data.List.TakeWhile
import Mathlib.Tactic.IntervalCases
import Mathlib.Tactic.Ring

/-! Decimal numerals, with a point and an exponent or without, and their values. -/
namespace Artoo.Lib

def digitsValue (base : Nat) (digit : Char → Nat) (digits : List Char) : Nat :=
  digits.foldl (fun n c => base * n + digit c) 0

def decimalDigit (c : Char) : Nat := c.toNat - '0'.toNat

def signed : List Char → Bool × List Char
  | '+' :: cs => (false, cs)
  | '-' :: cs => (true, cs)
  | cs => (false, cs)

/-- What follows the `e` of a literal. -/
def exponentValue (cs : List Char) : Option ℤ :=
  let (negative, digits) := signed cs
  if !digits.isEmpty && digits.all Char.isDigit then
    let n := digitsValue 10 decimalDigit digits
    some (if negative then -(n : ℤ) else n)
  else none

/-- Digits with a point among them or without. -/
def mantissaValue (cs : List Char) : Option ℚ :=
  let whole := cs.takeWhile (· != '.')
  let fraction := (cs.dropWhile (· != '.')).drop 1
  if (whole ++ fraction).all Char.isDigit && !(whole ++ fraction).isEmpty then
    some ((digitsValue 10 decimalDigit (whole ++ fraction) : Nat) / 10 ^ fraction.length)
  else none

/-- `StrUnsignedDecimalLiteral`, where it is finite. -/
def unsignedValue (cs : List Char) : Option ℚ :=
  let isE := fun c => c == 'e' || c == 'E'
  match cs.dropWhile (!isE ·) with
  | [] => mantissaValue cs
  | _ :: exponent => do
    let mantissa ← mantissaValue (cs.takeWhile (!isE ·))
    let e ← exponentValue exponent
    return mantissa * 10 ^ e

theorem isDigit_toNat {c : Char} (digit : c.isDigit = true) : 48 ≤ c.toNat ∧ c.toNat ≤ 57 :=
  Char.isDigit_iff_toNat.mp digit

/-! ## The value of a numeral by its parts -/

section Parts

variable {cs whole fraction mantissa exponent : List Char}

theorem digitsValue_append : digitsValue 10 decimalDigit (whole ++ fraction) =
    digitsValue 10 decimalDigit whole * 10 ^ fraction.length + digitsValue 10 decimalDigit fraction := by
  have from_ : ∀ (cs : List Char) (a : Nat), cs.foldl (fun n c => 10 * n + decimalDigit c) a =
      a * 10 ^ cs.length + cs.foldl (fun n c => 10 * n + decimalDigit c) 0 := by
    intro cs
    induction cs with
    | nil => simp
    | cons c cs ih =>
      intro a
      rw [List.foldl_cons, List.foldl_cons, ih, ih (10 * 0 + decimalDigit c), List.length_cons]
      ring
  unfold digitsValue
  rw [List.foldl_append, from_]

theorem digitsValue_zeros {n : Nat} : digitsValue 10 decimalDigit (List.replicate n '0') = 0 := by
  induction n with
  | zero => rfl
  | succ n ih => exact ih

theorem digit_ne {c d : Char} (digit : c.isDigit = true) (off : d.isDigit = false) : c ≠ d := by
  rintro rfl
  rw [digit] at off
  cases off

theorem mantissaValue_digits (digits : ∀ c ∈ cs, c.isDigit = true) (some_ : cs ≠ []) :
    mantissaValue cs = some (digitsValue 10 decimalDigit cs : ℚ) := by
  have notPoint : ∀ c ∈ cs, (c != '.') = true :=
    fun c member => bne_iff_ne.mpr (digit_ne (digits c member) rfl)
  unfold mantissaValue
  rw [List.dropWhile_eq_nil_iff.mpr notPoint, List.takeWhile_eq_self_iff.mpr notPoint]
  simp [List.all_eq_true.mpr digits, some_]

theorem mantissaValue_point (digits : ∀ c ∈ whole ++ fraction, c.isDigit = true)
    (some_ : whole ++ fraction ≠ []) : mantissaValue (whole ++ '.' :: fraction) =
      some ((digitsValue 10 decimalDigit (whole ++ fraction) : ℚ) / 10 ^ fraction.length) := by
  have notPoint : ∀ c ∈ whole, (c != '.') = true :=
    fun c member => bne_iff_ne.mpr (digit_ne (digits c (List.mem_append_left _ member)) rfl)
  unfold mantissaValue
  rw [List.takeWhile_append_of_pos notPoint, List.dropWhile_append_of_pos notPoint]
  have taken : List.takeWhile (· != '.') ('.' :: fraction) = [] := rfl
  have dropped : (List.dropWhile (· != '.') ('.' :: fraction)).drop 1 = fraction := rfl
  rw [taken, dropped, List.append_nil]
  dsimp only
  rw [List.all_eq_true.mpr digits, List.isEmpty_eq_false_iff.mpr some_]
  rfl

theorem unsignedValue_mantissa (noE : ∀ c ∈ cs, c ≠ 'e' ∧ c ≠ 'E') :
    unsignedValue cs = mantissaValue cs := by
  have none_ : ∀ c ∈ cs, (!(c == 'e' || c == 'E')) = true := by
    intro c member
    simp [(noE c member).1, (noE c member).2]
  unfold unsignedValue
  dsimp only
  rw [List.dropWhile_eq_nil_iff.mpr none_]

theorem unsignedValue_exponent (noE : ∀ c ∈ mantissa, c ≠ 'e' ∧ c ≠ 'E') {q : ℚ} {e : ℤ}
    (left : mantissaValue mantissa = some q) (right : exponentValue exponent = some e) :
    unsignedValue (mantissa ++ 'e' :: exponent) = some (q * 10 ^ e) := by
  have none_ : ∀ c ∈ mantissa, (!(c == 'e' || c == 'E')) = true := by
    intro c member
    simp [(noE c member).1, (noE c member).2]
  have taken : List.takeWhile (fun c => !(c == 'e' || c == 'E')) ('e' :: exponent) = [] := rfl
  have dropped : List.dropWhile (fun c => !(c == 'e' || c == 'E')) ('e' :: exponent) =
    'e' :: exponent := rfl
  unfold unsignedValue
  dsimp only
  rw [List.dropWhile_append_of_pos none_, List.takeWhile_append_of_pos none_, taken, dropped,
    List.append_nil]
  dsimp only
  rw [left, right]
  rfl

theorem unsignedValue_digits (digits : ∀ c ∈ cs, c.isDigit = true) (some_ : cs ≠ []) :
    unsignedValue cs = some (digitsValue 10 decimalDigit cs : ℚ) := by
  rw [unsignedValue_mantissa fun c member =>
    ⟨digit_ne (digits c member) rfl, digit_ne (digits c member) rfl⟩]
  exact mantissaValue_digits digits some_

end Parts

/-! ## The digits of a number -/

theorem digitsValue_toDigits {n : Nat} : digitsValue 10 decimalDigit (Nat.toDigits 10 n) = n :=
  (Nat.ofDigitChars_eq_foldl.symm).trans Nat.ofDigitChars_ten_toDigits

theorem toDigits_isDigit {n : Nat} : ∀ c ∈ Nat.toDigits 10 n, c.isDigit = true :=
  fun _ member => Nat.isDigit_of_mem_toDigits (by decide) (by decide) member

/-- The first digit of a positive number is not 0. -/
theorem toDigits_head {n : Nat} (positive : 0 < n) :
    ∃ d rest, Nat.toDigits 10 n = d :: rest ∧ d ≠ '0' := by
  induction n using Nat.strong_induction_on with
  | _ n ih =>
    rw [Nat.toDigits_eq_if (by decide)]
    split
    · rename_i small
      refine ⟨_, [], rfl, ?_⟩
      interval_cases n <;> decide
    · rename_i large
      obtain ⟨d, rest, is, nonzero⟩ := ih (n / 10) (by omega) (by omega)
      exact ⟨d, rest ++ [(n % 10).digitChar], by rw [is]; rfl, nonzero⟩

theorem exponentValue_plus {n : Nat} : exponentValue ('+' :: Nat.toDigits 10 n) = some (n : ℤ) := by
  have all : (Nat.toDigits 10 n).all Char.isDigit = true := List.all_eq_true.mpr toDigits_isDigit
  have some_ : (Nat.toDigits 10 n).isEmpty = false := List.isEmpty_eq_false_iff.mpr Nat.toDigits_ne_nil
  change (if !(Nat.toDigits 10 n).isEmpty && (Nat.toDigits 10 n).all Char.isDigit then
    some ((digitsValue 10 decimalDigit (Nat.toDigits 10 n) : Nat) : ℤ) else none) = _
  rw [all, some_, digitsValue_toDigits]
  rfl

theorem exponentValue_minus {n : Nat} : exponentValue ('-' :: Nat.toDigits 10 n) = some (-(n : ℤ)) := by
  have all : (Nat.toDigits 10 n).all Char.isDigit = true := List.all_eq_true.mpr toDigits_isDigit
  have some_ : (Nat.toDigits 10 n).isEmpty = false := List.isEmpty_eq_false_iff.mpr Nat.toDigits_ne_nil
  change (if !(Nat.toDigits 10 n).isEmpty && (Nat.toDigits 10 n).all Char.isDigit then
    some (-((digitsValue 10 decimalDigit (Nat.toDigits 10 n) : Nat) : ℤ)) else none) = _
  rw [all, some_, digitsValue_toDigits]
  rfl

/-- An exponent with its sign. -/
def exponentText (e : ℤ) : List Char := (if e < 0 then '-' else '+') :: Nat.toDigits 10 e.natAbs

theorem exponentValue_text {e : ℤ} : exponentValue (exponentText e) = some e := by
  unfold exponentText
  split
  · rename_i negative
    rw [exponentValue_minus, Int.ofNat_natAbs_of_nonpos (Int.le_of_lt negative), neg_neg]
  · rename_i positive
    rw [exponentValue_plus, Int.natAbs_of_nonneg (Int.not_lt.mp positive)]

end Artoo.Lib
