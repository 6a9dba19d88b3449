import Artoo.Lib.Decimal
import Artoo.Lib.Double
import Mathlib.Data.Nat.Prime.Basic
import Mathlib.Tactic.FieldSimp
import Mathlib.Tactic.Linarith

/-! The numbers of JavaScript and their text: the shortest decimal that is rounded to the number, and
the number that a JSON numeral is rounded to. -/
namespace Artoo.Lib

/-! ## Numbers -/

/-- The absolute value of a finite number. -/
structure Magnitude where
  value : ℚ
  nonneg : 0 ≤ value
  rounded : toDouble value = some value
  deriving DecidableEq

inductive JsNumber where
  | finite (negative : Bool) (magnitude : Magnitude)
  | infinite (negative : Bool)
  | nan
  deriving DecidableEq

/-- The value of a finite number; -0 has the value of 0. -/
def JsNumber.value : JsNumber → Option ℚ
  | .finite negative m => some (if negative then -m.value else m.value)
  | _ => none

/-- The number that a magnitude is rounded to. -/
def JsNumber.round (negative : Bool) (q : ℚ) : JsNumber :=
  match is : toDouble |q| with
  | some r => .finite negative
    ⟨r, (toDouble_rounded (abs_nonneg q) is).1, (toDouble_rounded (abs_nonneg q) is).2⟩
  | none => .infinite negative

/-! ## The text of a number -/

/-- The digits of a decimal, with the point after the first `n` of them. -/
def numeral (digits : List Char) (n : ℤ) : List Char :=
  if digits.length ≤ n ∧ n ≤ 21 then digits ++ List.replicate (n - digits.length).toNat '0'
  else if 0 < n ∧ n ≤ 21 then digits.take n.toNat ++ '.' :: digits.drop n.toNat
  else if -6 < n ∧ n ≤ 0 then ['0'] ++ '.' :: (List.replicate (-n).toNat '0' ++ digits)
  else
    digits.take 1 ++ (if digits.length = 1 then [] else '.' :: digits.drop 1) ++
      'e' :: exponentText (n - 1)

/-- The value of `s`, with the point after the first `n` of its digits. -/
def decimalValue (c : ℕ × ℤ) : ℚ := c.1 * 10 ^ (c.2 - (Nat.toDigits 10 c.1).length)

/-- The two decimals of `k` digits next to a rational, the nearer one first. -/
def neighbours (q : ℚ) (k : ℕ) : List (ℕ × ℤ) :=
  let n := Int.log 10 q + 1
  let t := q / 10 ^ (n - k)
  let below := (⌊t⌋.toNat, n)
  let above := if ⌈t⌉.toNat = 10 ^ k then (10 ^ (k - 1), n + 1) else (⌈t⌉.toNat, n)
  if t - ⌊t⌋ < ⌈t⌉ - t ∨ (t - ⌊t⌋ = ⌈t⌉ - t ∧ ⌊t⌋ % 2 = 0) then [below, above] else [above, below]

/-- From `k` digits on, the shortest decimal that is rounded to the number. -/
def shortestFrom (q : ℚ) : ℕ → ℕ → Option (ℕ × ℤ)
  | 0, _ => none
  | fuel + 1, k =>
    ((neighbours q k).find? fun c => toDouble (decimalValue c) = some q).or
      (shortestFrom q fuel (k + 1))

/-- The exact decimal has no more digits than are tried. -/
def shortest (q : ℚ) : Option (ℕ × ℤ) := shortestFrom q (Int.log 10 q + 1 + q.den).toNat 1

/-- `Number::toString` of a magnitude. -/
def Magnitude.text (m : Magnitude) : List Char :=
  if m.value = 0 then ['0']
  else
    match shortest m.value with
    | some (s, n) => numeral (Nat.toDigits 10 s) n
    | none => []

/-- `Number::toString`. -/
def JsNumber.text : JsNumber → List Char
  | .finite negative m => if negative && decide (m.value ≠ 0) then '-' :: m.text else m.text
  | .infinite negative => (if negative then "-Infinity" else "Infinity").toList
  | .nan => "NaN".toList

/-! ## The numerals of JSON -/

/-- No leading 0, and a digit on both sides of a point. -/
def plainNumeral (cs : List Char) : Bool :=
  let whole := cs.takeWhile Char.isDigit
  (whole == ['0'] || whole.head?.any (· != '0')) &&
    match cs.dropWhile Char.isDigit with
    | '.' :: fraction => fraction.head?.any Char.isDigit
    | _ => true

def unsignedNumber (negative : Bool) (cs : List Char) : Option JsNumber :=
  if plainNumeral cs then (unsignedValue cs).map (JsNumber.round negative) else none

/-- The number that a numeral of JSON stands for. -/
def jsonNumber : List Char → Option JsNumber
  | '-' :: cs => unsignedNumber true cs
  | cs => unsignedNumber false cs

/-- The characters of numerals. -/
def numeralChar (c : Char) : Bool :=
  c.isDigit || c == '-' || c == '+' || c == '.' || c == 'e' || c == 'E'

/-! ## The digits of the text -/

section Numeral

variable {digits : List Char} {n : ℤ} {q : ℚ}

/-- The value of a numeral. -/
theorem unsignedValue_numeral (are : ∀ c ∈ digits, c.isDigit = true) (some_ : digits ≠ []) :
    unsignedValue (numeral digits n) =
      some ((digitsValue 10 decimalDigit digits : ℚ) * 10 ^ (n - digits.length)) := by
  have noE : ∀ c ∈ digits, c ≠ 'e' ∧ c ≠ 'E' :=
    fun c member => ⟨digit_ne (are c member) rfl, digit_ne (are c member) rfl⟩
  have zeros : ∀ k, ∀ c ∈ List.replicate k '0', c.isDigit = true := by
    intro k c member
    rw [List.eq_of_mem_replicate member]
    rfl
  unfold numeral
  split_ifs with long short small single
  · -- zeros follow
    obtain ⟨k, is⟩ := Int.eq_ofNat_of_zero_le (Int.sub_nonneg_of_le long.1)
    have all : ∀ c ∈ digits ++ List.replicate k '0', c.isDigit = true := by
      intro c member
      rcases List.mem_append.mp member with old | new
      · exact are c old
      · exact zeros k c new
    rw [is, Int.toNat_natCast, unsignedValue_digits all (by simp [some_]), digitsValue_append,
      digitsValue_zeros, List.length_replicate, add_zero, zpow_natCast]
    push_cast
    rfl
  · -- the point is among the digits
    obtain ⟨k, rfl⟩ := Int.eq_ofNat_of_zero_le short.1.le
    have inside : k ≤ digits.length := by omega
    rw [Int.toNat_natCast, unsignedValue_mantissa, mantissaValue_point, List.take_append_drop]
    · rw [List.length_drop, Option.some.injEq, div_eq_mul_inv, ← zpow_natCast, ← zpow_neg]
      congr 2
      omega
    · rwa [List.take_append_drop]
    · rwa [List.take_append_drop]
    · intro c member
      rcases List.mem_append.mp member with first | rest
      · exact noE c (List.mem_of_mem_take first)
      · rcases List.mem_cons.mp rest with rfl | last
        · decide
        · exact noE c (List.mem_of_mem_drop last)
  · -- zeros follow the point
    obtain ⟨k, is⟩ := Int.eq_ofNat_of_zero_le (Int.neg_nonneg_of_nonpos small.2)
    have all : ∀ c ∈ ['0'] ++ (List.replicate k '0' ++ digits), c.isDigit = true := by
      intro c member
      rcases List.mem_append.mp member with zero | rest
      · rw [List.mem_singleton.mp zero]
        rfl
      · rcases List.mem_append.mp rest with old | new
        · exact zeros k c old
        · exact are c new
    rw [is, Int.toNat_natCast, unsignedValue_mantissa, mantissaValue_point all (by simp)]
    · have first : digitsValue 10 decimalDigit ['0'] = 0 := rfl
      rw [digitsValue_append, digitsValue_append, digitsValue_zeros, first, zero_mul, zero_mul,
        zero_add, zero_add, List.length_append, List.length_replicate, Option.some.injEq,
        div_eq_mul_inv, ← zpow_natCast, ← zpow_neg]
      congr 2
      push_cast
      omega
    · intro c member
      rcases List.mem_append.mp member with zero | rest
      · rw [List.mem_singleton.mp zero]
        decide
      · rcases List.mem_cons.mp rest with rfl | last
        · decide
        · rcases List.mem_append.mp last with old | new
          · rw [List.eq_of_mem_replicate old]
            decide
          · exact noE c new
  · -- one digit and an exponent
    have all : digits.take 1 = digits := List.take_of_length_le (Nat.le_of_eq single)
    rw [all, List.append_nil, unsignedValue_exponent noE (mantissaValue_digits are some_)
      exponentValue_text, single]
    rfl
  · -- a digit, the point, and an exponent
    have length : 1 < digits.length := by
      have positive := List.length_pos_iff.mpr some_
      omega
    rw [List.append_assoc, ← List.append_assoc, unsignedValue_exponent (q :=
      (digitsValue 10 decimalDigit digits : ℚ) / 10 ^ (digits.length - 1)) _ _ exponentValue_text]
    · rw [Option.some.injEq, div_eq_mul_inv, mul_assoc, ← zpow_natCast, ← zpow_neg,
        ← zpow_add₀ (by norm_num)]
      congr 2
      omega
    · intro c member
      rcases List.mem_append.mp member with first | rest
      · exact noE c (List.mem_of_mem_take first)
      · rcases List.mem_cons.mp rest with rfl | last
        · decide
        · exact noE c (List.mem_of_mem_drop last)
    · rw [mantissaValue_point, List.take_append_drop, List.length_drop]
      · rwa [List.take_append_drop]
      · rwa [List.take_append_drop]

/-- Digits from one that is not 0, and what may follow them. -/
theorem plainNumeral_append {d : Char} {rest more : List Char} (first : d ≠ '0')
    (are : ∀ c ∈ d :: rest, c.isDigit = true)
    (follows : ∀ c tail, more = c :: tail → c.isDigit = false ∧
      (c = '.' → tail.head?.any Char.isDigit = true)) :
    plainNumeral (d :: rest ++ more) = true := by
  have drop : List.dropWhile Char.isDigit more = more := by
    cases more with
    | nil => rfl
    | cons c tail => rw [List.dropWhile_cons_of_neg (by simp [(follows c tail rfl).1])]
  have take : List.takeWhile Char.isDigit more = [] := by
    cases more with
    | nil => rfl
    | cons c tail => rw [List.takeWhile_cons_of_neg (by simp [(follows c tail rfl).1])]
  unfold plainNumeral
  rw [List.takeWhile_append_of_pos are, List.dropWhile_append_of_pos are, drop, take]
  simp only [List.append_nil, List.head?_cons, Option.any_some, bne_iff_ne.mpr first, Bool.or_true,
    Bool.true_and]
  split
  · rename_i fraction
    exact (follows _ _ rfl).2 rfl
  · rfl

/-- No numeral has a leading 0 that is not the only digit before the point. -/
theorem plainNumeral_numeral {d : Char} {rest : List Char} (is : digits = d :: rest) (first : d ≠ '0')
    (are : ∀ c ∈ digits, c.isDigit = true) : plainNumeral (numeral digits n) = true := by
  subst is
  unfold numeral
  split_ifs with long short small single
  · have all : ∀ c ∈ d :: (rest ++ List.replicate (n - (d :: rest).length).toNat '0'),
        c.isDigit = true := by
      intro c member
      rw [← List.cons_append] at member
      rcases List.mem_append.mp member with old | new
      · exact are c old
      · rw [List.eq_of_mem_replicate new]
        rfl
    have whole := @plainNumeral_append d _ [] first all nofun
    rwa [List.append_nil] at whole
  · obtain ⟨k, is⟩ := Int.eq_succ_of_zero_lt short.1
    have length : k + 1 < rest.length + 1 := by
      have longer : n < (d :: rest).length := by
        by_contra off
        exact long ⟨by omega, short.2⟩
      rw [List.length_cons] at longer
      omega
    have index : n.toNat = k + 1 := by omega
    rw [index, List.take_succ_cons, List.drop_succ_cons]
    apply plainNumeral_append first
    · intro c member
      rcases List.mem_cons.mp member with rfl | later
      · exact are c List.mem_cons_self
      · exact are c (List.mem_cons_of_mem _ (List.mem_of_mem_take later))
    · rintro c tail same
      cases same
      refine ⟨rfl, fun _ => ?_⟩
      rw [List.head?_drop, List.getElem?_eq_getElem (by omega)]
      exact are _ (List.mem_cons_of_mem _ (List.getElem_mem _))
  · have zeros : (List.replicate (-n).toNat '0' ++ d :: rest).head?.any Char.isDigit = true := by
      cases (-n).toNat with
      | zero => exact are d List.mem_cons_self
      | succ k => rfl
    exact zeros
  · have alone : ∀ c ∈ [d], c.isDigit = true := by
      intro c member
      rw [List.mem_singleton.mp member]
      exact are d List.mem_cons_self
    apply plainNumeral_append first alone
    rintro c tail same
    cases same
    exact ⟨rfl, nofun⟩
  · have some_ : ∃ d' rest', rest = d' :: rest' := by
      cases rest with
      | nil => exact absurd rfl single
      | cons d' rest' => exact ⟨d', rest', rfl⟩
    obtain ⟨d', rest', rfl⟩ := some_
    have alone : ∀ c ∈ [d], c.isDigit = true := by
      intro c member
      rw [List.mem_singleton.mp member]
      exact are d List.mem_cons_self
    change plainNumeral ([d] ++ '.' :: (d' :: rest' ++ 'e' :: exponentText (n - 1))) = true
    apply plainNumeral_append first alone
    rintro c tail same
    cases same
    exact ⟨rfl, fun _ => are d' (List.mem_cons_of_mem _ List.mem_cons_self)⟩

theorem numeralChar_digit {c : Char} (digit : c.isDigit = true) : numeralChar c = true := by
  simp [numeralChar, digit]

theorem numeralChar_exponent {e : ℤ} : ∀ c ∈ exponentText e, numeralChar c = true := by
  intro c member
  unfold exponentText at member
  rcases List.mem_cons.mp member with rfl | digit
  · split <;> rfl
  · exact numeralChar_digit (toDigits_isDigit c digit)

theorem numeralChar_numeral (are : ∀ c ∈ digits, c.isDigit = true) :
    ∀ c ∈ numeral digits n, numeralChar c = true := by
  have point : numeralChar '.' = true := rfl
  have zeros : ∀ k, ∀ c ∈ List.replicate k '0', numeralChar c = true := by
    intro k c member
    rw [List.eq_of_mem_replicate member]
    rfl
  have here : ∀ c ∈ digits, numeralChar c = true := fun c member => numeralChar_digit (are c member)
  have taken : ∀ k, ∀ c ∈ digits.take k, numeralChar c = true :=
    fun k c member => here c (List.mem_of_mem_take member)
  have dropped : ∀ k, ∀ c ∈ digits.drop k, numeralChar c = true :=
    fun k c member => here c (List.mem_of_mem_drop member)
  unfold numeral
  intro c member
  split_ifs at member <;> simp only [List.mem_append, List.mem_cons, List.not_mem_nil,
    or_false] at member
  · exact member.elim (here c) (zeros _ c)
  · rcases member with first | rfl | last
    · exact taken _ c first
    · exact point
    · exact dropped _ c last
  · rcases member with rfl | rfl | zero | last
    · rfl
    · exact point
    · exact zeros _ c zero
    · exact here c last
  · rcases member with first | rfl | last
    · exact taken _ c first
    · rfl
    · exact numeralChar_exponent c last
  · rcases member with (first | rfl | mid) | rfl | last
    · exact taken _ c first
    · exact point
    · exact dropped _ c mid
    · rfl
    · exact numeralChar_exponent c last

end Numeral

/-! ## There is a shortest decimal -/

section Shortest

variable {q : ℚ}

/-- What is found is rounded to the number. -/
theorem shortestFrom_sound {fuel k : ℕ} {c : ℕ × ℤ} (found : shortestFrom q fuel k = some c) :
    toDouble (decimalValue c) = some q := by
  induction fuel generalizing k with
  | zero => cases found
  | succ fuel ih =>
    unfold shortestFrom at found
    rcases Option.or_eq_some_iff.mp found with here | ⟨_, later⟩
    · have holds := List.find?_some here
      exact of_decide_eq_true holds
    · exact ih later

theorem shortestFrom_isSome {fuel k j : ℕ} {c : ℕ × ℤ} (least : k ≤ j) (most : j < k + fuel)
    (member : c ∈ neighbours q j) (rounds : toDouble (decimalValue c) = some q) :
    (shortestFrom q fuel k).isSome := by
  induction fuel generalizing k with
  | zero => omega
  | succ fuel ih =>
    unfold shortestFrom
    rw [Option.isSome_or]
    by_cases here : k = j
    · subst here
      have found : ((neighbours q k).find? fun c => toDouble (decimalValue c) = some q).isSome :=
        List.find?_isSome.mpr ⟨c, member, decide_eq_true rounds⟩
      rw [found]
      rfl
    · rw [ih (by omega) (by omega), Bool.or_true]

theorem below_mem {k : ℕ} : (⌊q / 10 ^ (Int.log 10 q + 1 - k)⌋.toNat, Int.log 10 q + 1) ∈ neighbours q k := by
  unfold neighbours
  dsimp only
  split
  · exact List.mem_cons_self
  · exact List.mem_cons_of_mem _ List.mem_cons_self

/-- A power of ten clears the denominator of a double. -/
theorem double_decimal (positive : 0 < q) (is : toDouble q = some q) :
    ∃ N : ℕ, q * 10 ^ q.den = N := by
  obtain ⟨j, m, form⟩ := double_form positive.le is
  have divides : q.den ∣ 2 ^ j := by
    have fraction : q = Rat.divInt m ((2 ^ j : ℕ) : ℤ) := by
      rw [Rat.divInt_eq_div, ← form]
      push_cast
      field_simp
    have den := Rat.den_dvd m ((2 ^ j : ℕ) : ℤ)
    rw [← fraction] at den
    exact_mod_cast den
  obtain ⟨i, _, power⟩ := (Nat.dvd_prime_pow Nat.prime_two).mp divides
  have ten : q.den ∣ 10 ^ q.den := by
    have small : i ≤ q.den := power ▸ Nat.lt_two_pow_self.le
    rw [power] at small ⊢
    exact (pow_dvd_pow 2 small).trans (pow_dvd_pow_of_dvd (by decide) _)
  obtain ⟨r, clears⟩ := ten
  have num : (q.num.toNat : ℚ) = q.num := by
    exact_mod_cast Int.toNat_of_nonneg (Rat.num_nonneg.mpr positive.le)
  refine ⟨q.num.toNat * r, ?_⟩
  have cast : (10 : ℚ) ^ q.den = q.den * r := by exact_mod_cast clears
  rw [cast, ← mul_assoc, Rat.mul_den_eq_num]
  push_cast
  rw [num]

/-- Of the decimals one is the number itself. -/
theorem exact_decimal (positive : 0 < q) (is : toDouble q = some q) :
    ∃ k, 1 ≤ k ∧ k < 1 + (Int.log 10 q + 1 + q.den).toNat ∧
      ∃ c ∈ neighbours q k, decimalValue c = q := by
  obtain ⟨N, clears⟩ := double_decimal positive is
  have lower := Int.zpow_log_le_self (b := 10) (by norm_num) positive
  have upper := Int.lt_zpow_succ_log_self (b := 10) (by norm_num) q
  generalize logIs : Int.log 10 q = l at lower upper ⊢
  have tens : (0 : ℚ) < 10 ^ q.den := by positivity
  have some_ : 0 < N := by
    have pos : (0 : ℚ) < N := clears ▸ mul_pos positive tens
    exact_mod_cast pos
  have least : -(q.den : ℤ) ≤ l := by
    rw [← logIs, ← Int.zpow_le_iff_le_log (by norm_num) positive, zpow_neg, zpow_natCast,
      Nat.cast_ofNat, inv_le_iff_one_le_mul₀ tens, clears]
    exact_mod_cast some_
  obtain ⟨k, count⟩ := Int.eq_ofNat_of_zero_le (show 0 ≤ l + 1 + q.den by omega)
  have scale : ∀ j : ℤ, (10 : ℚ) ^ j * 10 ^ q.den = 10 ^ (j + q.den) := by
    intro j
    rw [zpow_add₀ (by norm_num), zpow_natCast]
  have less : N < 10 ^ k := by
    have lt : (N : ℚ) < 10 ^ (k : ℤ) := by
      rw [← clears, ← count, ← scale]
      exact mul_lt_mul_of_pos_right upper tens
    exact_mod_cast lt
  have more : 10 ^ (k - 1) ≤ N := by
    have le : (10 : ℚ) ^ ((k - 1 : ℕ) : ℤ) ≤ N := by
      have before : ((k - 1 : ℕ) : ℤ) = l + q.den := by omega
      rw [← clears, before, ← scale]
      exact mul_le_mul_of_nonneg_right lower tens.le
    exact_mod_cast le
  have length : (Nat.toDigits 10 N).length = k := by
    have atMost := (Nat.length_toDigits_le_iff (b := 10) (n := N) (k := k) (by decide) (by omega)).mpr
      less
    by_cases one : k = 1
    · have atLeast := Nat.length_toDigits_pos (b := 10) (n := N)
      omega
    · have off := (Nat.length_toDigits_le_iff (b := 10) (n := N) (k := k - 1) (by decide)
        (by omega)).not.mpr (by omega)
      omega
  have value : q / 10 ^ (l + 1 - k) = N := by
    have power : l + 1 - k = -(q.den : ℤ) := by omega
    rw [power, zpow_neg, zpow_natCast, div_inv_eq_mul, clears]
  refine ⟨k, by omega, by omega, (N, l + 1), ?_, ?_⟩
  · have member := below_mem (q := q) (k := k)
    rw [logIs, value, Int.floor_natCast, Int.toNat_natCast] at member
    exact member
  · unfold decimalValue
    dsimp only
    rw [length, ← value, div_mul_cancel₀ _ (zpow_ne_zero _ (by norm_num))]

theorem shortest_isSome (positive : 0 < q) (is : toDouble q = some q) :
    ∃ c, shortest q = some c ∧ toDouble (decimalValue c) = some q := by
  obtain ⟨k, least, most, c, member, exact_⟩ := exact_decimal positive is
  have found : (shortest q).isSome :=
    shortestFrom_isSome least most member (exact_.symm ▸ is)
  obtain ⟨c', is'⟩ := Option.isSome_iff_exists.mp found
  exact ⟨c', is', shortestFrom_sound is'⟩

end Shortest

/-! ## A text is read as its number -/

section Text

variable {m : Magnitude} {negative : Bool}

theorem JsNumber.round_eq {q : ℚ} (nonneg : 0 ≤ q) (is : toDouble q = some m.value) :
    JsNumber.round negative q = .finite negative m := by
  unfold JsNumber.round
  split
  · rename_i r rounds
    rw [abs_of_nonneg nonneg, is] at rounds
    cases rounds
    rfl
  · rename_i rounds
    rw [abs_of_nonneg nonneg, is] at rounds
    cases rounds

theorem numeral_head {digits : List Char} {n : ℤ} (are : ∀ c ∈ digits, c.isDigit = true)
    (some_ : digits ≠ []) : ∃ d rest, numeral digits n = d :: rest ∧ d.isDigit = true := by
  obtain ⟨d, rest, rfl⟩ := List.exists_cons_of_ne_nil some_
  have digit := are d List.mem_cons_self
  unfold numeral
  split_ifs with _ short
  · exact ⟨d, _, rfl, digit⟩
  · obtain ⟨k, is⟩ := Int.eq_succ_of_zero_lt short.1
    have index : n.toNat = k + 1 := by omega
    rw [index]
    exact ⟨d, _, rfl, digit⟩
  · exact ⟨'0', _, rfl, rfl⟩
  · exact ⟨d, _, rfl, digit⟩
  · exact ⟨d, _, rfl, digit⟩

/-- The text of a magnitude is a numeral of JSON, and is rounded to the magnitude. -/
structure NumeralOf (m : Magnitude) (cs : List Char) : Prop where
  chars : ∀ c ∈ cs, numeralChar c = true
  head : ∃ d rest, cs = d :: rest ∧ d.isDigit = true
  plain : plainNumeral cs = true
  value : ∃ q, unsignedValue cs = some q ∧ 0 ≤ q ∧ toDouble q = some m.value

theorem Magnitude.numeral_text (m : Magnitude) : NumeralOf m m.text := by
  unfold Magnitude.text
  split_ifs with zero
  · constructor
    · intro c member
      rw [List.mem_singleton.mp member]
      rfl
    · exact ⟨'0', [], rfl, rfl⟩
    · rfl
    · refine ⟨0, ?_, le_refl _, ?_⟩
      · rw [unsignedValue_digits (by simp) (by simp)]
        simp [digitsValue, decimalDigit]
      · have rounded := m.rounded
        rw [zero] at rounded ⊢
        exact rounded
  · have positive : 0 < m.value := lt_of_le_of_ne m.nonneg (Ne.symm zero)
    obtain ⟨⟨s, n⟩, is, rounds⟩ := shortest_isSome positive m.rounded
    have nonzero : 0 < s := by
      rcases Nat.eq_zero_or_pos s with rfl | pos
      · have none_ : toDouble 0 = some 0 := by
          unfold toDouble
          rw [roundDouble_zero, if_pos (by norm_num)]
        unfold decimalValue at rounds
        rw [Nat.cast_zero, zero_mul, none_, Option.some.injEq] at rounds
        exact absurd rounds.symm zero
      · exact pos
    obtain ⟨d, rest, digits, first⟩ := toDigits_head nonzero
    rw [is]
    dsimp only
    constructor
    · exact numeralChar_numeral toDigits_isDigit
    · exact numeral_head toDigits_isDigit Nat.toDigits_ne_nil
    · exact plainNumeral_numeral digits first toDigits_isDigit
    · refine ⟨decimalValue (s, n), ?_, ?_, rounds⟩
      · rw [unsignedValue_numeral toDigits_isDigit Nat.toDigits_ne_nil, digitsValue_toDigits]
        rfl
      · exact mul_nonneg (Nat.cast_nonneg s) (zpow_pos (by norm_num) _).le

theorem NumeralOf.unsignedNumber {cs : List Char} (h : NumeralOf m cs) :
    unsignedNumber negative cs = some (.finite negative m) := by
  obtain ⟨q, is, nonneg, rounds⟩ := h.value
  unfold Lib.unsignedNumber
  rw [h.plain, if_pos rfl, is, Option.map_some, JsNumber.round_eq nonneg rounds]

theorem text_finite : (JsNumber.finite negative m).text =
    if negative && decide (m.value ≠ 0) then '-' :: m.text else m.text := rfl

/-- The text of a finite number is a numeral of JSON, and is read as the number, -0 as 0. -/
theorem jsonNumber_text : jsonNumber (JsNumber.finite negative m).text =
    some (.finite (negative && decide (m.value ≠ 0)) m) := by
  have numeral := m.numeral_text
  rw [text_finite]
  cases sign : negative && decide (m.value ≠ 0) with
  | true => exact numeral.unsignedNumber
  | false =>
    obtain ⟨d, rest, is, digit⟩ := numeral.head
    have plus : jsonNumber m.text = Lib.unsignedNumber false m.text := by
      unfold jsonNumber
      split
      · rename_i minus
        rw [is] at minus
        cases minus
        cases digit
      · rfl
    rw [if_neg (by simp), plus]
    exact numeral.unsignedNumber

theorem text_chars : ∀ c ∈ (JsNumber.finite negative m).text, numeralChar c = true := by
  intro c member
  rw [text_finite] at member
  split at member
  · rcases List.mem_cons.mp member with rfl | rest
    · rfl
    · exact m.numeral_text.chars c rest
  · exact m.numeral_text.chars c member

theorem text_ne_nil : (JsNumber.finite negative m).text ≠ [] := by
  obtain ⟨d, rest, is, _⟩ := m.numeral_text.head
  rw [text_finite, is]
  split <;> exact List.cons_ne_nil _ _

end Text

end Artoo.Lib
