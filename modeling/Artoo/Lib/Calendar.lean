import Mathlib.Data.List.Lex
import Mathlib.Data.Nat.Log
import Mathlib.Algebra.Order.Field.Rat
import Mathlib.Algebra.Order.Field.Basic
import Mathlib.Tactic.Linarith
import Mathlib.Tactic.NormNum

/-! Dates of the proleptic Gregorian calendar, moments with an offset, and numbers of fixed
width. -/
namespace Artoo.Lib

/-! ## Dates -/

def leap (year : Int) : Prop := year % 4 = 0 ∧ (year % 100 ≠ 0 ∨ year % 400 = 0)

instance (year : Int) : Decidable (leap year) := inferInstanceAs (Decidable (_ ∧ _))

def daysIn (year : Int) (month : Nat) : Nat :=
  if month = 2 then if leap year then 29 else 28
  else if month = 4 ∨ month = 6 ∨ month = 9 ∨ month = 11 then 30
  else 31

structure Date where
  year : Int
  month : Nat
  day : Nat
  month_range : 1 ≤ month ∧ month ≤ 12
  day_range : 1 ≤ day ∧ day ≤ daysIn year month
  deriving DecidableEq

/-- The days of the year before the month. -/
def daysBefore (year : Int) : Nat → Nat
  | 0 => 0
  | month + 1 => daysBefore year month + if month = 0 then 0 else daysIn year month

/-- The days before the year, from the first of the year 1. -/
def yearStart (year : Int) : Int :=
  365 * (year - 1) + (year - 1) / 4 - (year - 1) / 100 + (year - 1) / 400

def Date.number (d : Date) : Int := yearStart d.year + daysBefore d.year d.month + d.day

structure Date.Before (a b : Date) : Prop where
  order : a.year < b.year ∨ (a.year = b.year ∧
    (a.month < b.month ∨ (a.month = b.month ∧ a.day < b.day)))

instance (a b : Date) : Decidable (a.Before b) :=
  decidable_of_iff _ ⟨fun order => ⟨order⟩, fun before => before.order⟩

variable {a b : Date} {y : Int} {m n : Nat}

theorem daysBefore_mono (h : m ≤ n) : daysBefore y m ≤ daysBefore y n := by
  induction h with
  | refl => exact Nat.le_refl _
  | step _ ih => exact Nat.le_trans ih (Nat.le_add_right _ _)

theorem daysBefore_succ (h : 1 ≤ m) : daysBefore y (m + 1) = daysBefore y m + daysIn y m := by
  change daysBefore y m + (if m = 0 then 0 else daysIn y m) = _
  rw [if_neg (by omega)]

theorem daysBefore_year : daysBefore y 13 = 365 + if leap y then 1 else 0 := by
  simp only [daysBefore, daysIn]
  by_cases long : leap y <;> simp [long]

theorem day_le_year (a : Date) : daysBefore a.year a.month + a.day ≤ daysBefore a.year 13 := by
  have inside := a.day_range.2
  have next := daysBefore_succ (y := a.year) a.month_range.1
  have rest : daysBefore a.year (a.month + 1) ≤ daysBefore a.year 13 :=
    daysBefore_mono (by have := a.month_range.2; omega)
  omega

theorem yearStart_succ : yearStart (y + 1) = yearStart y + daysBefore y 13 := by
  rw [daysBefore_year]
  by_cases long : leap y
  all_goals
    simp only [long, if_true, if_false]
    unfold leap at long
    unfold yearStart
    push_cast
    omega

theorem yearStart_mono {x y : Int} (h : x ≤ y) : yearStart x ≤ yearStart y := by
  unfold yearStart
  omega

theorem Date.number_lt_of_before (h : a.Before b) : a.number < b.number := by
  have first := day_le_year a
  have some_ := b.day_range.1
  unfold number
  rcases h.order with years | ⟨years, months | ⟨months, days⟩⟩
  · have start := yearStart_mono (x := a.year + 1) (y := b.year) (by omega)
    rw [yearStart_succ] at start
    omega
  · have next := daysBefore_succ (y := a.year) a.month_range.1
    have later : daysBefore a.year (a.month + 1) ≤ daysBefore a.year b.month :=
      daysBefore_mono (by omega)
    have inside := a.day_range.2
    rw [← years]
    omega
  · rw [← years, ← months]
    omega

theorem Date.trichotomy (a b : Date) : a.Before b ∨ a = b ∨ b.Before a := by
  rcases Int.lt_trichotomy a.year b.year with years | years | years
  · exact Or.inl ⟨Or.inl years⟩
  · rcases Nat.lt_trichotomy a.month b.month with months | months | months
    · exact Or.inl ⟨Or.inr ⟨years, Or.inl months⟩⟩
    · rcases Nat.lt_trichotomy a.day b.day with days | days | days
      · exact Or.inl ⟨Or.inr ⟨years, Or.inr ⟨months, days⟩⟩⟩
      · refine Or.inr (Or.inl ?_)
        cases a
        cases b
        simp only at years months days
        subst years
        subst months
        subst days
        rfl
      · exact Or.inr (Or.inr ⟨Or.inr ⟨years.symm, Or.inr ⟨months.symm, days⟩⟩⟩)
    · exact Or.inr (Or.inr ⟨Or.inr ⟨years.symm, Or.inl months⟩⟩)
  · exact Or.inr (Or.inr ⟨Or.inl years⟩)

/-- The number of a day orders the days. -/
theorem Date.before_iff : a.Before b ↔ a.number < b.number := by
  constructor
  · exact number_lt_of_before
  · intro less
    rcases trichotomy a b with before | same | after
    · exact before
    · rw [same] at less
      exact absurd less (lt_irrefl _)
    · exact absurd (number_lt_of_before after) (by omega)

/-! ## Moments -/

structure TimeOfDay where
  hour : Nat
  minute : Nat
  second : Nat
  /-- the decimal digits of the second -/
  fraction : List (Fin 10) := []
  hour_range : hour < 24
  minute_range : minute < 60
  second_range : second < 60
  deriving DecidableEq

def decimals : List (Fin 10) → ℚ
  | [] => 0
  | d :: rest => (d.val + decimals rest) / 10

def TimeOfDay.seconds (t : TimeOfDay) : ℚ :=
  (t.hour * 3600 + t.minute * 60 + t.second : Nat) + decimals t.fraction

/-- A local date and time; `offset` is in seconds, east of UTC. -/
structure Moment where
  date : Date
  time : TimeOfDay
  offset : Int
  deriving DecidableEq

/-- The seconds of UTC since the day before the first of the year 1. -/
def Moment.instant (m : Moment) : ℚ := 86400 * m.date.number + m.time.seconds - m.offset

theorem decimals_range {l : List (Fin 10)} : 0 ≤ decimals l ∧ decimals l < 1 := by
  induction l with
  | nil => exact ⟨le_refl _, one_pos⟩
  | cons d rest ih =>
    have digit : (d.val : ℚ) ≤ 9 := by
      have := d.isLt
      exact_mod_cast (by omega : d.val ≤ 9)
    have least : (0 : ℚ) ≤ d.val := by positivity
    unfold decimals
    constructor
    · exact div_nonneg (by linarith [ih.1]) (by norm_num)
    · rw [div_lt_one (by norm_num)]
      linarith [ih.2]

theorem TimeOfDay.seconds_range {t : TimeOfDay} : 0 ≤ t.seconds ∧ t.seconds < 86400 := by
  have fraction := decimals_range (l := t.fraction)
  have whole : (t.hour * 3600 + t.minute * 60 + t.second : Nat) ≤ 86399 := by
    have h := t.hour_range
    have m := t.minute_range
    have s := t.second_range
    omega
  have whole' : ((t.hour * 3600 + t.minute * 60 + t.second : Nat) : ℚ) ≤ 86399 := by
    exact_mod_cast whole
  have least : (0 : ℚ) ≤ (t.hour * 3600 + t.minute * 60 + t.second : Nat) := Nat.cast_nonneg _
  unfold seconds
  constructor
  · linarith [fraction.1]
  · linarith [fraction.2]

/-- Of two moments with one offset, the one of the later day is later. -/
theorem Moment.instant_lt {x y : Moment} (offset : x.offset = y.offset) : x.instant < y.instant ↔
    x.date.Before y.date ∨ (x.date = y.date ∧ x.time.seconds < y.time.seconds) := by
  have rangeX := TimeOfDay.seconds_range (t := x.time)
  have rangeY := TimeOfDay.seconds_range (t := y.time)
  unfold instant
  rw [offset]
  rcases Date.trichotomy x.date y.date with before | same | after
  · have numbers : (x.date.number : ℚ) + 1 ≤ y.date.number := by
      exact_mod_cast Date.before_iff.mp before
    simp only [before, true_or, iff_true]
    linarith [rangeX.2, rangeY.1]
  · have irrefl : ¬ y.date.Before y.date := fun is =>
      absurd (Date.before_iff.mp is) (lt_irrefl _)
    rw [same]
    simp only [irrefl, false_or, true_and]
    constructor
    · intro less
      linarith
    · intro less
      linarith
  · have numbers : (y.date.number : ℚ) + 1 ≤ x.date.number := by
      exact_mod_cast Date.before_iff.mp after
    have flat : ¬ x.date.Before y.date := fun is =>
      absurd (Date.before_iff.mp is) (by have := Date.before_iff.mp after; omega)
    have other : x.date ≠ y.date := by
      intro same
      rw [same] at numbers
      linarith
    simp only [flat, other, false_and, or_false, iff_false, not_lt]
    linarith [rangeX.1, rangeY.2]

end Artoo.Lib
