import Mathlib.Data.Int.Log
import Mathlib.Data.Rat.Floor
import Mathlib.Tactic.Positivity
import Mathlib.Tactic.Ring

/-! Rounding to the nearest IEEE 754 double, on rationals. -/
namespace Artoo.Lib

/-- The nearest integer; of two that are as near, the even one. -/
def roundEven (q : ℚ) : ℤ :=
  if q - ⌊q⌋ < 1 / 2 then ⌊q⌋
  else if 1 / 2 < q - ⌊q⌋ then ⌊q⌋ + 1
  else if ⌊q⌋ % 2 = 0 then ⌊q⌋ else ⌊q⌋ + 1

/-- The exponent of the last bit of the double nearest to a magnitude. -/
def ulpExponent (q : ℚ) : ℤ := max (-1074) (Int.log 2 q - 52)

def roundDouble (q : ℚ) : ℚ := roundEven (q / 2 ^ ulpExponent |q|) * 2 ^ ulpExponent |q|

/-- The double of a rational; none where it overflows. -/
def toDouble (q : ℚ) : Option ℚ := if |roundDouble q| < 2 ^ (1024 : ℤ) then some (roundDouble q) else none

theorem roundEven_intCast (n : ℤ) : roundEven (n : ℚ) = n := by
  unfold roundEven
  rw [Int.floor_intCast, sub_self, if_pos (by norm_num)]

/-- The integers of 53 bits are doubles. -/
theorem roundDouble_natCast {n : ℕ} (small : n < 2 ^ 53) : roundDouble (n : ℚ) = n := by
  have log : Nat.log 2 n ≤ 52 := by
    rcases Nat.eq_zero_or_pos n with rfl | pos
    · simp
    · exact Nat.lt_succ_iff.mp (Nat.log_lt_of_lt_pow (Nat.pos_iff_ne_zero.mp pos) small)
  have abs : |(n : ℚ)| = n := abs_of_nonneg (Nat.cast_nonneg n)
  have exponent : ulpExponent |(n : ℚ)| = -((52 - Nat.log 2 n : ℕ) : ℤ) := by
    unfold ulpExponent
    rw [abs, Int.log_natCast]
    omega
  have scaled : (n : ℚ) / 2 ^ ulpExponent |(n : ℚ)| = ((n * 2 ^ (52 - Nat.log 2 n) : ℕ) : ℤ) := by
    rw [exponent, zpow_neg, div_inv_eq_mul, zpow_natCast]
    push_cast
    rfl
  have positive : (2 : ℚ) ^ (52 - Nat.log 2 n) ≠ 0 := by positivity
  unfold roundDouble
  rw [scaled, roundEven_intCast, exponent, zpow_neg, zpow_natCast]
  push_cast
  rw [mul_assoc, mul_inv_cancel₀ positive, mul_one]

theorem toDouble_natCast {n : ℕ} (small : n < 2 ^ 53) : toDouble (n : ℚ) = some (n : ℚ) := by
  unfold toDouble
  rw [roundDouble_natCast small, if_pos]
  rw [abs_of_nonneg (Nat.cast_nonneg n)]
  calc (n : ℚ) < 2 ^ 53 := by exact_mod_cast small
    _ ≤ 2 ^ (1024 : ℕ) := pow_le_pow_right₀ (by norm_num) (by norm_num)
    _ = 2 ^ (1024 : ℤ) := (zpow_natCast _ _).symm

/-! ## The doubles are what rounding leaves as it is -/

theorem roundEven_bounds (q : ℚ) : ⌊q⌋ ≤ roundEven q ∧ roundEven q ≤ ⌊q⌋ + 1 := by
  unfold roundEven
  split_ifs <;> omega

theorem roundDouble_zero : roundDouble 0 = 0 := by
  unfold roundDouble
  rw [zero_div]
  have zero := roundEven_intCast 0
  rw [Int.cast_zero] at zero
  rw [zero, Int.cast_zero, zero_mul]

/-- An integer of 53 bits, scaled. -/
theorem roundDouble_scaled {z e : ℤ} (small : |z| < 2 ^ 53) (least : -1074 ≤ e) :
    roundDouble (z * 2 ^ e) = z * 2 ^ e := by
  by_cases zero : z = 0
  · rw [zero, Int.cast_zero, zero_mul, roundDouble_zero]
  have two : (0 : ℚ) < 2 ^ e := zpow_pos (by norm_num) e
  have magnitude : |(z : ℚ) * 2 ^ e| = |z| * 2 ^ e := by
    rw [abs_mul, abs_of_pos two, Int.cast_abs]
  have positive : (0 : ℚ) < |(z : ℚ) * 2 ^ e| := by
    rw [magnitude]
    have pos : (0 : ℚ) < (|z| : ℤ) := by exact_mod_cast abs_pos.mpr zero
    exact mul_pos pos two
  have below : |(z : ℚ) * 2 ^ e| < ((2 : ℕ) : ℚ) ^ (53 + e) := by
    rw [magnitude, Nat.cast_ofNat, zpow_add₀ (by norm_num)]
    apply mul_lt_mul_of_pos_right _ two
    exact_mod_cast small
  have log := (Int.lt_zpow_iff_log_lt (by norm_num) positive).mp below
  have exponent : ulpExponent |(z : ℚ) * 2 ^ e| ≤ e := by
    unfold ulpExponent
    omega
  obtain ⟨n, is⟩ := Int.eq_ofNat_of_zero_le (Int.sub_nonneg_of_le exponent)
  have apart : e = ulpExponent |(z : ℚ) * 2 ^ e| + n := by omega
  have integral : (z : ℚ) * 2 ^ e / 2 ^ ulpExponent |(z : ℚ) * 2 ^ e| = ((z * 2 ^ n : ℤ) : ℚ) := by
    have unit : (2 : ℚ) ^ ulpExponent |(z : ℚ) * 2 ^ e| ≠ 0 := zpow_ne_zero _ (by norm_num)
    rw [div_eq_iff unit]
    conv_lhs => rw [apart, zpow_add₀ (by norm_num : (2 : ℚ) ≠ 0), zpow_natCast]
    push_cast
    ring
  unfold roundDouble
  rw [integral, roundEven_intCast, ← integral, div_mul_cancel₀ _ (zpow_ne_zero _ (by norm_num))]

/-- What a magnitude is rounded to. -/
theorem roundDouble_form {q : ℚ} (nonneg : 0 ≤ q) :
    ∃ z e : ℤ, 0 ≤ z ∧ z < 2 ^ 53 ∧ -1074 ≤ e ∧ roundDouble q = z * 2 ^ e := by
  have abs : |q| = q := abs_of_nonneg nonneg
  have two : (0 : ℚ) < 2 ^ ulpExponent q := zpow_pos (by norm_num) _
  have bound : q / 2 ^ ulpExponent q < 2 ^ 53 := by
    rw [div_lt_iff₀ two, ← zpow_natCast, ← zpow_add₀ (by norm_num)]
    rcases nonneg.eq_or_lt with rfl | positive
    · exact zpow_pos (by norm_num) _
    · have log := (Int.lt_zpow_iff_log_lt (b := 2) (x := (53 : ℕ) + ulpExponent q) (by norm_num)
        positive).mpr (by unfold ulpExponent; omega)
      exact_mod_cast log
  have floor : ⌊q / 2 ^ ulpExponent q⌋ < 2 ^ 53 := by
    have le := Int.floor_le (q / 2 ^ ulpExponent q)
    exact_mod_cast lt_of_le_of_lt le bound
  have start : 0 ≤ ⌊q / 2 ^ ulpExponent q⌋ := Int.floor_nonneg.mpr (div_nonneg nonneg two.le)
  obtain ⟨least, most⟩ := roundEven_bounds (q / 2 ^ ulpExponent q)
  unfold roundDouble
  rw [abs]
  by_cases top : roundEven (q / 2 ^ ulpExponent q) = 2 ^ 53
  · refine ⟨2 ^ 52, ulpExponent q + 1, by norm_num, by norm_num, ?_, ?_⟩
    · unfold ulpExponent
      omega
    · rw [top, zpow_add₀ (by norm_num)]
      push_cast
      ring
  · refine ⟨roundEven (q / 2 ^ ulpExponent q), ulpExponent q, by omega, by omega, ?_, rfl⟩
    unfold ulpExponent
    omega

/-- What is rounded once stays. -/
theorem toDouble_rounded {q r : ℚ} (nonneg : 0 ≤ q) (is : toDouble q = some r) :
    0 ≤ r ∧ toDouble r = some r := by
  obtain ⟨z, e, start, small, least, form⟩ := roundDouble_form nonneg
  unfold toDouble at is
  split at is
  · rename_i finite
    cases is
    have same : roundDouble (roundDouble q) = roundDouble q := by
      rw [form]
      exact roundDouble_scaled (by rw [abs_of_nonneg start]; exact small) least
    refine ⟨?_, ?_⟩
    · rw [form]
      exact mul_nonneg (by exact_mod_cast start) (zpow_pos (by norm_num) e).le
    · unfold toDouble
      rw [same, if_pos finite]
  · cases is

/-- A double is an integer over a power of two. -/
theorem double_form {q : ℚ} (nonneg : 0 ≤ q) (is : toDouble q = some q) :
    ∃ (j : ℕ) (m : ℤ), q * 2 ^ j = m := by
  obtain ⟨z, e, _, _, _, form⟩ := roundDouble_form nonneg
  have value : roundDouble q = q := by
    unfold toDouble at is
    split at is
    · exact Option.some_inj.mp is
    · cases is
  rw [value] at form
  rcases Int.le_total 0 e with up | down
  · obtain ⟨n, rfl⟩ := Int.eq_ofNat_of_zero_le up
    refine ⟨0, z * 2 ^ n, ?_⟩
    rw [form]
    push_cast
    rw [zpow_natCast]
    ring
  · obtain ⟨n, is⟩ := Int.eq_ofNat_of_zero_le (Int.neg_nonneg_of_nonpos down)
    have back : e = -(n : ℤ) := by omega
    refine ⟨n, z, ?_⟩
    rw [form, back, zpow_neg, zpow_natCast, mul_assoc, inv_mul_cancel₀ (by positivity), mul_one]

end Artoo.Lib
