import Artoo.Lib.Utf16
import Mathlib.Data.List.Induction

/-! How text is carried as bytes and bytes as text: UTF-8 and base64url, each with the reader that
undoes the writer. -/
namespace Artoo.Lib

/-! ## UTF-8 -/

def utf8 (c : Char) : List ℕ :=
  let n := c.toNat
  if n < 0x80 then [n]
  else if n < 0x800 then [0xC0 + n / 0x40, 0x80 + n % 0x40]
  else if n < 0x10000 then [0xE0 + n / 0x1000, 0x80 + n / 0x40 % 0x40, 0x80 + n % 0x40]
  else [0xF0 + n / 0x40000, 0x80 + n / 0x1000 % 0x40, 0x80 + n / 0x40 % 0x40, 0x80 + n % 0x40]

/-- `Buffer.from(s)`: a lone surrogate becomes U+FFFD. -/
def utf8Bytes (s : Units) : List ℕ := (characters s).flatMap utf8

/-- A character of which bytes are still to come: how many, what they were so far, and the range of
the next. -/
structure Reading where
  needed : ℕ := 0
  code : ℕ := 0
  lower : ℕ := 0x80
  upper : ℕ := 0xBF

/-- A byte that no character waits for. -/
def beginChar (b : ℕ) : List Char × Reading :=
  if b < 0x80 then ([Char.ofNat b], {})
  else if 0xC2 ≤ b ∧ b ≤ 0xDF then ([], ⟨1, b - 0xC0, 0x80, 0xBF⟩)
  else if 0xE0 ≤ b ∧ b ≤ 0xEF then
    ([], ⟨2, b - 0xE0, if b = 0xE0 then 0xA0 else 0x80, if b = 0xED then 0x9F else 0xBF⟩)
  else if 0xF0 ≤ b ∧ b ≤ 0xF4 then
    ([], ⟨3, b - 0xF0, if b = 0xF0 then 0x90 else 0x80, if b = 0xF4 then 0x8F else 0xBF⟩)
  else ([replacement], {})

/-- A sequence that breaks off is replaced, and the byte that broke it is read again. -/
def Reading.next (r : Reading) (b : ℕ) : List Char × Reading :=
  if r.needed = 0 then beginChar b
  else if r.lower ≤ b ∧ b ≤ r.upper then
    if r.needed = 1 then ([Char.ofNat (r.code * 0x40 + (b - 0x80))], {})
    else ([], ⟨r.needed - 1, r.code * 0x40 + (b - 0x80), 0x80, 0xBF⟩)
  else (replacement :: (beginChar b).1, (beginChar b).2)

def Reading.decode (r : Reading) : List ℕ → List Char
  | [] => if r.needed = 0 then [] else [replacement]
  | b :: bs => (r.next b).1 ++ (r.next b).2.decode bs

/-- `buffer.toString("utf8")` -/
def utf8Text (bytes : List ℕ) : Units := ((Reading.decode {} bytes).flatMap charUnits)

section Utf8

variable {c : Char} {s : Units} {bytes rest : List ℕ}

theorem decode_cons {r : Reading} {b : ℕ} :
    r.decode (b :: rest) = (r.next b).1 ++ (r.next b).2.decode rest := rfl

theorem next_start {b : ℕ} : Reading.next {} b = beginChar b := rfl

theorem next_more {n code lower upper b : ℕ} (within : lower ≤ b ∧ b ≤ upper) :
    Reading.next ⟨n + 2, code, lower, upper⟩ b =
      ([], ⟨n + 1, code * 0x40 + (b - 0x80), 0x80, 0xBF⟩) := by
  simp [Reading.next, within]

theorem next_last {code lower upper b : ℕ} (within : lower ≤ b ∧ b ≤ upper) :
    Reading.next ⟨1, code, lower, upper⟩ b = ([Char.ofNat (code * 0x40 + (b - 0x80))], {}) := by
  simp [Reading.next, within]

/-- The bytes of a character are read as the character. -/
theorem decode_utf8 (c : Char) (rest : List ℕ) :
    Reading.decode {} (utf8 c ++ rest) = c :: Reading.decode {} rest := by
  have valid : c.toNat.isValidChar := c.valid
  unfold Nat.isValidChar at valid
  have back : Char.ofNat c.toNat = c := Char.ofNat_toNat c
  unfold utf8
  generalize c.toNat = n at valid back
  simp only
  by_cases one : n < 0x80
  · rw [if_pos one]
    have first : beginChar n = ([c], {}) := by simp [beginChar, one, back]
    simp [decode_cons, next_start, first]
  rw [if_neg one]
  by_cases two : n < 0x800
  · rw [if_pos two]
    have first : beginChar (0xC0 + n / 0x40) = ([], ⟨1, n / 0x40, 0x80, 0xBF⟩) := by
      unfold beginChar
      rw [if_neg (by omega), if_pos (by omega), Nat.add_sub_cancel_left]
    have whole : n / 0x40 * 0x40 + (0x80 + n % 0x40 - 0x80) = n := by omega
    simp only [List.cons_append, List.nil_append, decode_cons, next_start, first]
    rw [next_last (by omega), whole, back]
    rfl
  rw [if_neg two]
  by_cases three : n < 0x10000
  · rw [if_pos three]
    have first : beginChar (0xE0 + n / 0x1000) = ([], ⟨2, n / 0x1000,
        if 0xE0 + n / 0x1000 = 0xE0 then 0xA0 else 0x80,
        if 0xE0 + n / 0x1000 = 0xED then 0x9F else 0xBF⟩) := by
      unfold beginChar
      rw [if_neg (by omega), if_neg (by omega), if_pos (by omega), Nat.add_sub_cancel_left]
    -- neither overlong nor a surrogate
    have second : (if 0xE0 + n / 0x1000 = 0xE0 then 0xA0 else 0x80) ≤ 0x80 + n / 0x40 % 0x40 ∧
        0x80 + n / 0x40 % 0x40 ≤ if 0xE0 + n / 0x1000 = 0xED then 0x9F else 0xBF := by
      split_ifs <;> omega
    have whole : (n / 0x1000 * 0x40 + (0x80 + n / 0x40 % 0x40 - 0x80)) * 0x40 +
        (0x80 + n % 0x40 - 0x80) = n := by omega
    simp only [List.cons_append, List.nil_append, decode_cons, next_start, first]
    rw [next_more second, next_last (by omega), whole, back]
    rfl
  rw [if_neg three]
  have first : beginChar (0xF0 + n / 0x40000) = ([], ⟨3, n / 0x40000,
      if 0xF0 + n / 0x40000 = 0xF0 then 0x90 else 0x80,
      if 0xF0 + n / 0x40000 = 0xF4 then 0x8F else 0xBF⟩) := by
    unfold beginChar
    rw [if_neg (by omega), if_neg (by omega), if_neg (by omega), if_pos (by omega),
      Nat.add_sub_cancel_left]
  have second : (if 0xF0 + n / 0x40000 = 0xF0 then 0x90 else 0x80) ≤ 0x80 + n / 0x1000 % 0x40 ∧
      0x80 + n / 0x1000 % 0x40 ≤ if 0xF0 + n / 0x40000 = 0xF4 then 0x8F else 0xBF := by
    split_ifs <;> omega
  have whole : ((n / 0x40000 * 0x40 + (0x80 + n / 0x1000 % 0x40 - 0x80)) * 0x40 +
      (0x80 + n / 0x40 % 0x40 - 0x80)) * 0x40 + (0x80 + n % 0x40 - 0x80) = n := by omega
  simp only [List.cons_append, List.nil_append, decode_cons, next_start, first]
  rw [next_more second, next_more (by omega), next_last (by omega), whole, back]
  rfl

theorem decode_flatMap (cs : List Char) : Reading.decode {} (cs.flatMap utf8) = cs := by
  induction cs with
  | nil => rfl
  | cons c cs ih => rw [List.flatMap_cons, decode_utf8, ih]

/-- What is written as UTF-8 is read as it was, if it had no lone surrogate. -/
theorem utf8Text_bytes (paired : Paired s) : utf8Text (utf8Bytes s) = s := by
  unfold utf8Text utf8Bytes
  rw [decode_flatMap, units_characters paired]

theorem utf8_lt {b : ℕ} (member : b ∈ utf8 c) : b < 256 := by
  have valid : c.toNat.isValidChar := c.valid
  unfold Nat.isValidChar at valid
  unfold utf8 at member
  generalize c.toNat = n at valid member
  simp only at member
  split_ifs at member <;> simp only [List.mem_cons, List.not_mem_nil, or_false] at member <;> omega

theorem utf8Bytes_lt {b : ℕ} (member : b ∈ utf8Bytes s) : b < 256 := by
  obtain ⟨c, -, within⟩ := List.mem_flatMap.mp member
  exact utf8_lt within

end Utf8

/-! ## base64url -/

/-- The letter of six bits. -/
def sextetUnit (d : ℕ) : UInt16 :=
  UInt16.ofNat (if d < 26 then 65 + d else if d < 52 then 71 + d else if d < 62 then d - 4
    else if d = 62 then 45 else 95)

def sextetOf (u : UInt16) : Option ℕ :=
  let n := u.toNat
  if 65 ≤ n ∧ n ≤ 90 then some (n - 65)
  else if 97 ≤ n ∧ n ≤ 122 then some (n - 71)
  else if 48 ≤ n ∧ n ≤ 57 then some (n + 4)
  else if n = 45 then some 62
  else if n = 95 then some 63
  else none

/-- `buffer.toString("base64url")`, without padding -/
def base64url : List ℕ → Units
  | [] => []
  | [a] => [sextetUnit (a / 4), sextetUnit (a % 4 * 16)]
  | [a, b] => [sextetUnit (a / 4), sextetUnit (a % 4 * 16 + b / 16), sextetUnit (b % 16 * 4)]
  | a :: b :: c :: rest =>
    sextetUnit (a / 4) :: sextetUnit (a % 4 * 16 + b / 16) :: sextetUnit (b % 16 * 4 + c / 64) ::
      sextetUnit (c % 64) :: base64url rest

/-- Bits that are left over are dropped. -/
def sextetBytes : List ℕ → List ℕ
  | w :: x :: y :: z :: rest =>
    (w * 4 + x / 16) :: (x % 16 * 16 + y / 4) :: (y % 4 * 64 + z) :: sextetBytes rest
  | [w, x, y] => [w * 4 + x / 16, x % 16 * 16 + y / 4]
  | [w, x] => [w * 4 + x / 16]
  | _ => []

/-- `Buffer.from(s, "base64url")`, for a text of its letters. -/
def base64urlBytes (s : Units) : Option (List ℕ) := (s.mapM sextetOf).map sextetBytes

section Base64url

theorem sextetOf_unit {d : ℕ} (small : d < 64) : sextetOf (sextetUnit d) = some d := by
  unfold sextetOf sextetUnit
  simp only
  rw [toNat_ofNat (by split_ifs <;> omega)]
  split_ifs <;> first | omega | (congr 1; omega)

theorem mapM_cons_unit {d : ℕ} (small : d < 64) (rest : Units) :
    (sextetUnit d :: rest).mapM sextetOf = (rest.mapM sextetOf).map (d :: ·) := by
  rw [List.mapM_cons, sextetOf_unit small]
  cases rest.mapM sextetOf <;> rfl

theorem base64urlBytes_base64url (bytes : List ℕ) (are : ∀ b ∈ bytes, b < 256) :
    base64urlBytes (base64url bytes) = some bytes := by
  unfold base64urlBytes
  induction bytes using base64url.induct with
  | case1 => rfl
  | case2 a =>
    have first := are a (by simp)
    unfold base64url
    rw [mapM_cons_unit (by omega), mapM_cons_unit (by omega)]
    simp only [List.mapM_nil, Option.pure_def, Option.map_some, sextetBytes, Option.some.injEq,
      List.cons.injEq, and_true]
    omega
  | case3 a b =>
    have first := are a (by simp)
    have second := are b (by simp)
    unfold base64url
    rw [mapM_cons_unit (by omega), mapM_cons_unit (by omega), mapM_cons_unit (by omega)]
    simp only [List.mapM_nil, Option.pure_def, Option.map_some, sextetBytes, Option.some.injEq,
      List.cons.injEq, and_true]
    omega
  | case4 a b c rest ih =>
    have first := are a (by simp)
    have second := are b (by simp)
    have third := are c (by simp)
    have later := ih fun x member => are x (by simp [member])
    unfold base64url
    rw [mapM_cons_unit (by omega), mapM_cons_unit (by omega), mapM_cons_unit (by omega),
      mapM_cons_unit (by omega)]
    obtain ⟨digits, are', same⟩ := Option.map_eq_some_iff.mp later
    rw [are']
    simp only [Option.map_some, sextetBytes, same, Option.some.injEq, List.cons.injEq, and_true]
    omega

end Base64url

end Artoo.Lib
