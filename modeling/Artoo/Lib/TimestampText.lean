import Artoo.Lib.Calendar

/-! Texts of moments, of ISO 8601 and of PostgreSQL, and how they compare as strings. -/
namespace Artoo.Lib

/-! ## Numbers -/

def digit (n : Nat) : Char := Char.ofNat (48 + n % 10)

/-- The last digits of a number. -/
def digits : Nat → Nat → List Char
  | 0, _ => []
  | w + 1, n => digits w (n / 10) ++ [digit n]

/-- All digits of a number, at least so many. -/
def pad (w n : Nat) : List Char := digits (max w (Nat.log 10 n + 1)) n

variable {a b x y : List Char} {m n w : Nat}

theorem digit_lt : digit m < digit n ↔ m % 10 < n % 10 := by
  have table : ∀ i < 10, ∀ j < 10, Char.ofNat (48 + i) < Char.ofNat (48 + j) ↔ i < j := by decide
  exact table _ (Nat.mod_lt _ (by omega)) _ (Nat.mod_lt _ (by omega))

theorem digit_inj (same : digit m = digit n) : m % 10 = n % 10 := by
  have up := digit_lt (m := m) (n := n)
  have down := digit_lt (m := n) (n := m)
  rw [same] at up down
  have flat : ¬ digit n < digit n := Char.lt_irrefl _
  have notUp := mt up.mpr flat
  have notDown := mt down.mpr flat
  omega

theorem digit_range : '0' ≤ digit n ∧ digit n ≤ '9' := by
  have table : ∀ i < 10, '0' ≤ Char.ofNat (48 + i) ∧ Char.ofNat (48 + i) ≤ '9' := by decide
  exact table _ (Nat.mod_lt _ (by omega))

theorem mem_digits {c : Char} (there : c ∈ digits w n) : '0' ≤ c ∧ c ≤ '9' := by
  induction w generalizing n with
  | zero => cases there
  | succ w ih =>
    unfold digits at there
    rcases List.mem_append.mp there with before | last
    · exact ih before
    · rw [List.mem_singleton.mp last]
      exact digit_range

theorem length_digits : (digits w n).length = w := by
  induction w generalizing n with
  | zero => rfl
  | succ w ih => simp [digits, ih]

theorem append_lt_append (length : a.length = b.length) :
    a ++ x < b ++ y ↔ a < b ∨ (a = b ∧ x < y) := by
  induction a generalizing b with
  | nil =>
    rw [List.length_nil] at length
    rw [List.length_eq_zero_iff.mp length.symm]
    simp
  | cons c a ih =>
    cases b with
    | nil => cases length
    | cons d b =>
      rw [List.length_cons, List.length_cons, Nat.add_right_cancel_iff] at length
      rw [List.cons_append, List.cons_append, List.cons_lt_cons_iff, List.cons_lt_cons_iff,
        ih length, List.cons_eq_cons]
      tauto

/-- Numbers of one w compare as numbers. -/
theorem digits_order (hm : m < 10 ^ w) (hn : n < 10 ^ w) :
    (digits w m < digits w n ↔ m < n) ∧ (digits w m = digits w n ↔ m = n) := by
  induction w generalizing m n with
  | zero =>
    rw [Nat.pow_zero, Nat.lt_one_iff] at hm hn
    rw [hm, hn]
    simp [digits]
  | succ w ih =>
    obtain ⟨less, same⟩ := ih (m := m / 10) (n := n / 10) (by omega) (by omega)
    unfold digits
    rw [append_lt_append (by rw [length_digits, length_digits]), less, same, List.cons_lt_cons_iff,
      digit_lt]
    constructor
    · simp only [List.not_lt_nil, and_false, or_false]
      omega
    · constructor
      · intro texts
        obtain ⟨before, last⟩ := List.append_inj' texts rfl
        have tens := same.mp before
        have units := digit_inj (List.singleton_inj.mp last)
        omega
      · rintro rfl
        rfl

/-! ## Dates -/

def dateText (year : List Char) (d : Date) : List Char :=
  year ++ '-' :: (digits 2 d.month ++ '-' :: digits 2 d.day)

/-- The year of ISO 8601, with a sign where it has more than four digits or is negative. -/
def isoYear (year : Int) : List Char :=
  if 0 ≤ year ∧ year ≤ 9999 then digits 4 year.toNat
  else (if year < 0 then '-' else '+') :: pad 6 year.natAbs

/-- The year of PostgreSQL; `BC` is at the end of the whole text. -/
def pgYear (year : Int) : List Char :=
  pad 4 (if 0 < year then year.toNat else (1 - year).toNat)

def isoDate (d : Date) : List Char := dateText (isoYear d.year) d

def pgDate (d : Date) : List Char := dateText (pgYear d.year) d

theorem pad_eq (small : n < 10 ^ w) (some_ : 0 < w) : pad w n = digits w n := by
  have enough : Nat.log 10 n + 1 ≤ w := by
    rcases Nat.eq_zero_or_pos n with rfl | positive
    · rw [Nat.log_zero_right]
      omega
    · exact Nat.log_lt_of_lt_pow (by omega) small
  unfold pad
  rw [Nat.max_eq_left enough]

theorem Date.day_small (d : Date) : d.day < 10 ^ 2 := by
  have within_ := d.day_range.2
  have few : daysIn d.year d.month ≤ 31 := by
    unfold daysIn
    repeat' split
    all_goals omega
  omega

/-- From the year 1 to the year 9999 the texts of dates are ordered as the dates. -/
theorem isoDate_lt_pgDate {d e : Date} (least : 0 ≤ d.year) (most : d.year ≤ 9999)
    (least' : 1 ≤ e.year) (most' : e.year ≤ 9999) : isoDate d < pgDate e ↔ d.Before e := by
  have pgYear_eq : pgYear e.year = digits 4 e.year.toNat := by
    unfold pgYear
    rw [if_pos (by omega), pad_eq (by omega) (by omega)]
  have isoYear_eq : isoYear d.year = digits 4 d.year.toNat := if_pos ⟨least, most⟩
  obtain ⟨years, year⟩ := digits_order (w := 4) (m := d.year.toNat) (n := e.year.toNat)
    (by omega) (by omega)
  obtain ⟨months, month⟩ := digits_order (w := 2) (m := d.month) (n := e.month)
    (by have := d.month_range.2; omega) (by have := e.month_range.2; omega)
  obtain ⟨days, _⟩ := digits_order (w := 2) (m := d.day) (n := e.day) d.day_small e.day_small
  unfold isoDate pgDate dateText
  rw [isoYear_eq, pgYear_eq, append_lt_append (by rw [length_digits, length_digits]), years, year,
    List.cons_lt_cons_self, append_lt_append (by rw [length_digits, length_digits]), months, month,
    List.cons_lt_cons_self, days]
  constructor
  · rintro (less | ⟨same, rest⟩)
    · exact ⟨Or.inl (by omega)⟩
    · exact ⟨Or.inr ⟨by omega, rest⟩⟩
  · rintro ⟨less | ⟨same, rest⟩⟩
    · exact Or.inl (by omega)
    · exact Or.inr ⟨by omega, rest⟩

/-! ## Moments -/

def fractionText : List (Fin 10) → List Char
  | [] => []
  | d :: rest => '.' :: (d :: rest).map fun d => digit d.val

def clockText (t : TimeOfDay) : List Char :=
  digits 2 t.hour ++ ':' :: (digits 2 t.minute ++ ':' :: (digits 2 t.second ++
    fractionText t.fraction))

/-- `Z`, or hours and minutes. -/
inductive Zone where
  | utc
  | offset (west : Bool) (hours minutes : Nat)
  deriving DecidableEq, Repr

def Zone.seconds : Zone → Int
  | .utc => 0
  | .offset west hours minutes =>
    let east : Int := hours * 3600 + minutes * 60
    if west then -east else east

def Zone.text : Zone → List Char
  | .utc => ['Z']
  | .offset west hours minutes =>
    (if west then '-' else '+') :: (pad 2 hours ++ ':' :: pad 2 minutes)

/-- A date and time of ISO 8601. -/
structure IsoMoment where
  date : Date
  time : TimeOfDay
  zone : Zone
  deriving DecidableEq

def IsoMoment.instant (m : IsoMoment) : ℚ := Moment.instant ⟨m.date, m.time, m.zone.seconds⟩

def IsoMoment.text (m : IsoMoment) : String :=
  String.ofList (isoDate m.date ++ 'T' :: (clockText m.time ++ m.zone.text))

/-- The minutes and seconds are left out where they are zero. -/
def pgOffset (offset : Int) : List Char :=
  let seconds := offset.natAbs
  let hours := pad 2 (seconds / 3600)
  let minutes := ':' :: pad 2 (seconds / 60 % 60)
  (if offset < 0 then '-' else '+') :: (hours ++
    if seconds % 60 ≠ 0 then minutes ++ ':' :: pad 2 (seconds % 60)
    else if seconds / 60 % 60 ≠ 0 then minutes
    else [])

/-- A value of `timestamptz`; the offset is that of the session. -/
inductive Timestamptz where
  | moment (m : Moment)
  | infinity
  | minusInfinity
  deriving DecidableEq

/-- What the text has before the time of day. -/
def Timestamptz.written : Timestamptz → List Char
  | .moment m => pgDate m.date
  | .infinity => "infinity".toList
  | .minusInfinity => "-infinity".toList

def Timestamptz.text : Timestamptz → String
  | .moment m => String.ofList (pgDate m.date ++ ' ' :: (clockText m.time ++ pgOffset m.offset ++
      if m.date.year ≤ 0 then " BC".toList else []))
  | .infinity => "infinity"
  | .minusInfinity => "-infinity"

/-- The value is an instant after the moment. -/
def Timestamptz.After (now : IsoMoment) : Timestamptz → Prop
  | .moment m => now.instant < m.instant
  | .infinity => True
  | .minusInfinity => False

/-! ## The order of the texts -/

theorem append_lt_of_not_prefix (h : ¬ a <+: b) : a ++ x < b ↔ a < b := by
  induction a generalizing b with
  | nil => exact absurd List.nil_prefix h
  | cons c a ih =>
    cases b with
    | nil => simp
    | cons d b =>
      rw [List.cons_append, List.cons_lt_cons_iff, List.cons_lt_cons_iff]
      constructor
      · rintro (less | ⟨rfl, rest⟩)
        · exact Or.inl less
        · exact Or.inr ⟨rfl, (ih fun short => h ((List.cons_prefix_cons).mpr ⟨rfl, short⟩)).mp rest⟩
      · rintro (less | ⟨rfl, rest⟩)
        · exact Or.inl less
        · exact Or.inr ⟨rfl, (ih fun short => h ((List.cons_prefix_cons).mpr ⟨rfl, short⟩)).mpr rest⟩

/-- The blank sorts before the `T`, so that the dates decide. -/
theorem append_T_lt (above : ∀ c ∈ a, ' ' < c) (h : a <+: b → a = b) :
    a ++ 'T' :: x < b ++ ' ' :: y ↔ a < b := by
  induction a generalizing b with
  | nil =>
    rw [← h List.nil_prefix]
    simp only [List.nil_append, List.cons_lt_cons_iff, List.not_lt_nil, iff_false]
    rintro (less | ⟨is, _⟩)
    · exact absurd less (by decide)
    · exact absurd is (by decide)
  | cons c a ih =>
    cases b with
    | nil =>
      simp only [List.cons_append, List.nil_append, List.cons_lt_cons_iff, List.not_lt_nil,
        iff_false]
      rintro (less | ⟨rfl, _⟩)
      · exact Char.lt_asymm less (above c List.mem_cons_self)
      · exact Char.lt_irrefl _ (above _ List.mem_cons_self)
    | cons d b =>
      have step : c = d → (a ++ 'T' :: x < b ++ ' ' :: y ↔ a < b) := by
        rintro rfl
        apply ih fun e there => above e (List.mem_cons_of_mem _ there)
        intro short
        exact (List.cons_eq_cons.mp (h (List.cons_prefix_cons.mpr ⟨rfl, short⟩))).2
      rw [List.cons_append, List.cons_append, List.cons_lt_cons_iff, List.cons_lt_cons_iff]
      constructor
      · rintro (less | ⟨same, rest⟩)
        · exact Or.inl less
        · exact Or.inr ⟨same, (step same).mp rest⟩
      · rintro (less | ⟨same, rest⟩)
        · exact Or.inl less
        · exact Or.inr ⟨same, (step same).mpr rest⟩

theorem mem_pad {c : Char} (there : c ∈ pad w n) : '0' ≤ c ∧ c ≤ '9' := mem_digits there

/-- The year ends at the first dash. -/
theorem prefix_dash {c : Char} (ha : c ∉ a) (hb : c ∉ b) (h : a ++ c :: x <+: b ++ c :: y) :
    a = b ∧ x <+: y := by
  induction a generalizing b with
  | nil =>
    cases b with
    | nil => exact ⟨rfl, (List.cons_prefix_cons.mp h).2⟩
    | cons d b =>
      have same := (List.cons_prefix_cons.mp h).1
      exact absurd (same ▸ List.mem_cons_self) hb
  | cons e a ih =>
    cases b with
    | nil =>
      have same := (List.cons_prefix_cons.mp h).1
      exact absurd (same ▸ List.mem_cons_self) ha
    | cons d b =>
      obtain ⟨rfl, rest⟩ := List.cons_prefix_cons.mp h
      obtain ⟨rfl, short⟩ := ih (fun there => ha (List.mem_cons_of_mem _ there))
        (fun there => hb (List.mem_cons_of_mem _ there)) rest
      exact ⟨rfl, short⟩

theorem dash_not_mem_digits : '-' ∉ digits w n :=
  fun there => absurd (mem_digits there).1 (by decide)

theorem pgYear_head {y : Int} : ∃ c rest, pgYear y = c :: rest ∧ '0' ≤ c := by
  unfold pgYear
  generalize (if 0 < y then y.toNat else (1 - y).toNat) = n
  cases is : pad 4 n with
  | nil =>
    have length := congrArg List.length is
    unfold pad at length
    rw [length_digits, List.length_nil] at length
    omega
  | cons c rest => exact ⟨c, rest, rfl, (mem_pad (is ▸ List.mem_cons_self)).1⟩

/-- No date text begins another. -/
theorem isoDate_prefix {d e : Date} (h : isoDate d <+: pgDate e) : isoDate d = pgDate e := by
  unfold isoDate pgDate dateText isoYear at h ⊢
  split at h
  · rename_i short
    rw [if_pos short]
    obtain ⟨years, rest⟩ := prefix_dash dash_not_mem_digits dash_not_mem_digits h
    have length : (digits 2 d.month ++ '-' :: digits 2 d.day).length =
        (digits 2 e.month ++ '-' :: digits 2 e.day).length := by simp [length_digits]
    rw [years, List.IsPrefix.eq_of_length rest length]
    rfl
  · obtain ⟨c, rest, is, digit⟩ := pgYear_head (y := e.year)
    rw [is] at h
    have first := (List.cons_prefix_cons.mp h).1
    rw [← first] at digit
    split at digit
    · exact absurd digit (by decide)
    · exact absurd digit (by decide)

theorem isoDate_above {d : Date} {c : Char} (there : c ∈ isoDate d) : ' ' < c := by
  have above : ∀ {c : Char}, '0' ≤ c ∧ c ≤ '9' → ' ' < c := fun h =>
    UInt32.lt_of_lt_of_le (b := '0'.val) (by decide) h.1
  unfold isoDate dateText isoYear at there
  simp only [List.mem_append, List.mem_cons] at there
  rcases there with year | rfl | month | rfl | day
  · split at year
    · exact above (mem_digits year)
    · rcases List.mem_cons.mp year with sign | number
      · rw [sign]
        split <;> decide
      · exact above (mem_pad number)
  · decide
  · exact above (mem_digits month)
  · decide
  · exact above (mem_digits day)

theorem isoDate_digit {d : Date} : ∃ c ∈ isoDate d, '0' ≤ c ∧ c ≤ '9' := by
  refine ⟨digit d.day, ?_, digit_range⟩
  unfold isoDate dateText digits
  simp

/-- The texts compare as what comes before their times of day. -/
theorem text_lt {now : IsoMoment} {t : Timestamptz} :
    now.text < t.text ↔ isoDate now.date < t.written := by
  have apart : ∀ {word : List Char}, (word.all fun c => !decide ('0' ≤ c ∧ c ≤ '9')) = true →
      ¬ isoDate now.date <+: word := by
    intro word none_ short
    obtain ⟨c, there, range⟩ := isoDate_digit (d := now.date)
    have off := List.all_eq_true.mp none_ c (short.subset there)
    simp [range] at off
  rw [String.lt_iff]
  unfold IsoMoment.text Timestamptz.text Timestamptz.written
  rw [String.toList_ofList]
  cases t with
  | moment m =>
    rw [String.toList_ofList]
    exact append_T_lt (fun _ => isoDate_above) isoDate_prefix
  | infinity => exact append_lt_of_not_prefix (apart (by decide))
  | minusInfinity => exact append_lt_of_not_prefix (apart (by decide))

end Artoo.Lib
