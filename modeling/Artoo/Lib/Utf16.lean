import Mathlib.Data.List.Basic

/-! Strings of JavaScript: sequences of UTF-16 code units, in which surrogates need not be paired. -/
namespace Artoo.Lib

abbrev Units := List UInt16

def highSurrogate (u : UInt16) : Bool := 0xD800 ≤ u && u ≤ 0xDBFF

def lowSurrogate (u : UInt16) : Bool := 0xDC00 ≤ u && u ≤ 0xDFFF

def surrogate (u : UInt16) : Bool := 0xD800 ≤ u && u ≤ 0xDFFF

/-- The code unit of a character of the basic plane. -/
def unit (c : Char) : UInt16 := UInt16.ofNat c.toNat

def unitChar (u : UInt16) : Char := Char.ofNat u.toNat

def charUnits (c : Char) : Units :=
  if c.toNat < 0x10000 then [unit c]
  else [UInt16.ofNat (0xD800 + (c.toNat - 0x10000) / 0x400),
    UInt16.ofNat (0xDC00 + (c.toNat - 0x10000) % 0x400)]

def units (s : String) : Units := s.toList.flatMap charUnits

/-- The character of a surrogate pair. -/
def pairChar (high low : UInt16) : Char :=
  Char.ofNat (0x10000 + (high.toNat - 0xD800) * 0x400 + (low.toNat - 0xDC00))

/-- U+FFFD. -/
def replacement : Char := Char.ofNat 0xFFFD

/-- The characters of a string; a lone surrogate becomes U+FFFD. -/
def characters : Units → List Char
  | [] => []
  | [u] => [if surrogate u then replacement else unitChar u]
  | u :: v :: rest =>
    if highSurrogate u && lowSurrogate v then pairChar u v :: characters rest
    else (if surrogate u then replacement else unitChar u) :: characters (v :: rest)

/-- No lone surrogates. -/
inductive Paired : Units → Prop
  | nil : Paired []
  | unit {u : UInt16} {us : Units} : surrogate u = false → Paired us → Paired (u :: us)
  | pair {u v : UInt16} {us : Units} : highSurrogate u = true → lowSurrogate v = true → Paired us →
      Paired (u :: v :: us)

section Ranges

variable {u v : UInt16}

theorem highSurrogate_iff : highSurrogate u = true ↔ 0xD800 ≤ u.toNat ∧ u.toNat ≤ 0xDBFF := by
  unfold highSurrogate
  rw [Bool.and_eq_true, decide_eq_true_iff, decide_eq_true_iff, UInt16.le_iff_toNat_le,
    UInt16.le_iff_toNat_le]
  rfl

theorem lowSurrogate_iff : lowSurrogate u = true ↔ 0xDC00 ≤ u.toNat ∧ u.toNat ≤ 0xDFFF := by
  unfold lowSurrogate
  rw [Bool.and_eq_true, decide_eq_true_iff, decide_eq_true_iff, UInt16.le_iff_toNat_le,
    UInt16.le_iff_toNat_le]
  rfl

theorem surrogate_iff : surrogate u = true ↔ 0xD800 ≤ u.toNat ∧ u.toNat ≤ 0xDFFF := by
  unfold surrogate
  rw [Bool.and_eq_true, decide_eq_true_iff, decide_eq_true_iff, UInt16.le_iff_toNat_le,
    UInt16.le_iff_toNat_le]
  rfl

theorem not_high_of_plain (plain : surrogate u = false) : highSurrogate u = false := by
  rw [Bool.eq_false_iff, ne_eq, surrogate_iff] at plain
  rw [Bool.eq_false_iff, ne_eq, highSurrogate_iff]
  omega

theorem toNat_ofNat {n : ℕ} (small : n < 0x10000) : (UInt16.ofNat n).toNat = n := by
  rw [UInt16.toNat_ofNat']
  omega

theorem toNat_char {n : ℕ} (valid : n.isValidChar) : (Char.ofNat n).toNat = n := by
  unfold Char.ofNat
  rw [dif_pos valid]
  rfl

theorem unit_unitChar (plain : surrogate u = false) : charUnits (unitChar u) = [u] := by
  rw [Bool.eq_false_iff, ne_eq, surrogate_iff] at plain
  have range := u.toNat_lt
  have valid : u.toNat.isValidChar := by
    unfold Nat.isValidChar
    omega
  unfold charUnits unitChar unit
  rw [toNat_char valid, if_pos (by omega), UInt16.ofNat_toNat]

theorem unitChar_unit {c : Char} (small : c.toNat < 0x10000) : unitChar (unit c) = c := by
  unfold unitChar unit
  rw [toNat_ofNat small, Char.ofNat_toNat]

theorem units_pairChar (high : highSurrogate u = true) (low : lowSurrogate v = true) :
    charUnits (pairChar u v) = [u, v] := by
  rw [highSurrogate_iff] at high
  rw [lowSurrogate_iff] at low
  have valid : (0x10000 + (u.toNat - 0xD800) * 0x400 + (v.toNat - 0xDC00)).isValidChar := by
    unfold Nat.isValidChar
    omega
  have first : 0xD800 + (0x10000 + (u.toNat - 0xD800) * 0x400 + (v.toNat - 0xDC00) - 0x10000) / 0x400 =
      u.toNat := by omega
  have second : 0xDC00 + (0x10000 + (u.toNat - 0xD800) * 0x400 + (v.toNat - 0xDC00) - 0x10000) % 0x400 =
      v.toNat := by omega
  unfold charUnits pairChar
  rw [toNat_char valid, if_neg (by omega), first, second, UInt16.ofNat_toNat, UInt16.ofNat_toNat]

end Ranges

/-- A string without lone surrogates is made of its characters. -/
theorem units_characters {us : Units} (paired : Paired us) : (characters us).flatMap charUnits = us := by
  induction paired with
  | nil => rfl
  | @unit u us plain paired ih =>
    have off := not_high_of_plain plain
    have step : characters (u :: us) = unitChar u :: characters us := by
      cases us with
      | nil => simp [characters, plain]
      | cons v rest => simp [characters, plain, off]
    rw [step, List.flatMap_cons, unit_unitChar plain, ih]
    rfl
  | @pair u v us high low paired ih =>
    have step : characters (u :: v :: us) = pairChar u v :: characters us := by
      simp [characters, high, low]
    rw [step, List.flatMap_cons, units_pairChar high low, ih]
    rfl

theorem characters_injective {us vs : Units} (left : Paired us) (right : Paired vs)
    (same : characters us = characters vs) : us = vs := by
  rw [← units_characters left, same, units_characters right]

theorem Paired.append {us vs : Units} (left : Paired us) (right : Paired vs) : Paired (us ++ vs) := by
  induction left with
  | nil => exact right
  | unit plain _ ih => exact .unit plain ih
  | pair high low _ ih => exact .pair high low ih

theorem paired_charUnits (c : Char) : Paired (charUnits c) := by
  have valid : c.toNat.isValidChar := c.valid
  unfold Nat.isValidChar at valid
  unfold charUnits
  split
  · rename_i small
    refine .unit ?_ .nil
    unfold unit
    rw [Bool.eq_false_iff, ne_eq, surrogate_iff, toNat_ofNat small]
    omega
  · refine .pair ?_ ?_ .nil
    · rw [highSurrogate_iff, toNat_ofNat (by omega)]
      omega
    · rw [lowSurrogate_iff, toNat_ofNat (by omega)]
      omega

theorem paired_units (s : String) : Paired (units s) := by
  unfold units
  induction s.toList with
  | nil => exact .nil
  | cons c cs ih =>
    rw [List.flatMap_cons]
    exact (paired_charUnits c).append ih

/-- The units of a character are not those that another begins with. -/
theorem charUnits_append_inj {c d : Char} {us vs : Units}
    (same : charUnits c ++ us = charUnits d ++ vs) : c = d ∧ us = vs := by
  have left : c.toNat.isValidChar := c.valid
  have right : d.toNat.isValidChar := d.valid
  unfold Nat.isValidChar at left right
  unfold charUnits at same
  split_ifs at same with small small' small'
  · obtain ⟨units, rest⟩ := List.cons.inj same
    rw [← unitChar_unit small, units, unitChar_unit small']
    exact ⟨rfl, rest⟩
  · have head := congrArg UInt16.toNat (List.cons.inj same).1
    unfold unit at head
    rw [toNat_ofNat small, toNat_ofNat (by omega)] at head
    omega
  · have head := congrArg UInt16.toNat (List.cons.inj same).1
    unfold unit at head
    rw [toNat_ofNat small', toNat_ofNat (by omega)] at head
    omega
  · obtain ⟨high, tail⟩ := List.cons.inj same
    obtain ⟨low, rest⟩ := List.cons.inj tail
    have high' := congrArg UInt16.toNat high
    have low' := congrArg UInt16.toNat low
    rw [toNat_ofNat (by omega), toNat_ofNat (by omega)] at high' low'
    refine ⟨Char.toNat_inj.mp ?_, rest⟩
    omega

theorem charUnits_ne_nil (c : Char) : charUnits c ≠ [] := by
  unfold charUnits
  split_ifs <;> exact List.cons_ne_nil _ _

theorem units_injective : Function.Injective units := by
  intro s t same
  unfold units at same
  rw [← String.toList_inj]
  generalize s.toList = cs at same ⊢
  generalize t.toList = ds at same ⊢
  induction cs generalizing ds with
  | nil =>
    cases ds with
    | nil => rfl
    | cons d ds =>
      have empty := (List.append_eq_nil_iff.mp same.symm).1
      exact absurd empty (charUnits_ne_nil d)
  | cons c cs ih =>
    cases ds with
    | nil =>
      have empty := (List.append_eq_nil_iff.mp same).1
      exact absurd empty (charUnits_ne_nil c)
    | cons d ds =>
      obtain ⟨rfl, rest⟩ := charUnits_append_inj same
      rw [ih ds rest]

end Artoo.Lib
