import Artoo.Lib.PercentCoding

/-! Where a sign-in goes back to. -/
namespace Artoo.Server.ReturnTo

open Lib (Units percent hexValue decodeURIComponent decodeURIComponent_literal
  decodeURIComponent_middle)

/-! ## The check -/

def slash : UInt16 := 47
def backslash : UInt16 := 92
def colon : UInt16 := 58

def maxReturnTo : ℕ := 2048

/-- `/[\\\x00-\x1f\x7f]/` -/
def isUnsafe (u : UInt16) : Bool := u == backslash || u ≤ 0x1F || u == 0x7F

inductive Value where
  | string (s : Units)
  | other

def sanitizeReturnTo : Value → Units
  | .other => [slash]
  | .string raw =>
    if raw = [] ∨ maxReturnTo < raw.length then [slash]
    else match decodeURIComponent raw with
      | none => [slash]
      | some decoded =>
        if ¬[slash] <+: decoded then [slash]
        else if [slash, slash] <+: decoded ∨ [slash, backslash] <+: decoded then [slash]
        else if [colon, slash, slash] <:+: decoded ∨ decoded.any isUnsafe then [slash]
        else raw

/-! ## What a redirect needs -/

structure Clean (s : Units) : Prop where
  scheme : ¬[colon, slash, slash] <:+: s
  safe : ∀ u ∈ s, isUnsafe u = false
  relative : ¬[slash, slash] <+: s

def isLetter (u : UInt16) : Bool := (65 ≤ u && u ≤ 90) || (97 ≤ u && u ≤ 122)

/-- Of the rest of a scheme: letters, digits, `+`, `-` and `.`. -/
def isSchemeUnit (u : UInt16) : Bool :=
  isLetter u || (48 ≤ u && u ≤ 57) || u == 43 || u == 45 || u == 46

/-- A browser drops what is no more than a space before a reference, and tabs and line ends. -/
def cleaned (reference : Units) : Units :=
  (reference.dropWhile (· ≤ 0x20)).filter fun u => !(u == 9 || u == 10 || u == 13)

def hasScheme : Units → Bool
  | [] => false
  | u :: rest => isLetter u && (rest.dropWhile isSchemeUnit).head? == some colon

/-- To a browser a backslash is a slash. -/
def hasAuthority : Units → Bool
  | u :: v :: _ => (u == slash || u == backslash) && (v == slash || v == backslash)
  | _ => false

def staysOnOrigin (reference : Units) : Bool :=
  !hasScheme (cleaned reference) && !hasAuthority (cleaned reference)

/-- What is promised of the result. -/
structure Lawful (raw : Value) : Prop where
  path : ∃ rest, sanitizeReturnTo raw = slash :: rest ∧ rest.head? ≠ some slash
  clean : Clean (sanitizeReturnTo raw)
  decoded : ∃ decoded, decodeURIComponent (sanitizeReturnTo raw) = some decoded ∧ Clean decoded
  again : sanitizeReturnTo (.string (sanitizeReturnTo raw)) = sanitizeReturnTo raw
  origin : staysOnOrigin (sanitizeReturnTo raw) = true

/-- What the check asks for: all of it of the decoded form. -/
structure Accepted (raw : Units) : Prop where
  short : raw.length ≤ maxReturnTo
  decoded : ∃ decoded, decodeURIComponent raw = some decoded ∧ [slash] <+: decoded ∧ Clean decoded

/-- The path begins with an escaped slash. -/
def EncodedSlash : Value → Prop
  | .other => False
  | .string raw => raw.head? = some percent ∧ Accepted raw

section Check

variable {raw decoded : Units} {u : UInt16}

theorem any_isUnsafe : decoded.any isUnsafe = false ↔ ∀ u ∈ decoded, isUnsafe u = false := by
  rw [List.any_eq_false]
  exact forall₂_congr fun u _ => Bool.eq_false_iff.symm

theorem Accepted.sanitized (accepted : Accepted raw) : sanitizeReturnTo (.string raw) = raw := by
  obtain ⟨decoded, is, path, clean⟩ := accepted.decoded
  have some_ : raw ≠ [] := by
    rintro rfl
    cases is
    exact absurd path.length_le (by decide)
  have plain : ¬([slash, slash] <+: decoded ∨ [slash, backslash] <+: decoded) := by
    rintro (twice | back)
    · exact clean.relative twice
    · have off := clean.safe backslash (back.subset (by decide))
      exact absurd off (by decide)
  have safe : ¬([colon, slash, slash] <:+: decoded ∨ decoded.any isUnsafe = true) := by
    rintro (scheme | off)
    · exact clean.scheme scheme
    · rw [any_isUnsafe.mpr clean.safe] at off
      cases off
  rw [sanitizeReturnTo, if_neg (by
      rintro (nothing | long); exacts [some_ nothing, absurd accepted.short (by omega)]),
    is]
  dsimp only
  rw [if_neg (not_not_intro path), if_neg plain, if_neg safe]

theorem sanitized_or (raw : Units) :
    sanitizeReturnTo (.string raw) = [slash] ∨ Accepted raw := by
  by_cases fits : raw = [] ∨ maxReturnTo < raw.length
  · left
    rw [sanitizeReturnTo, if_pos fits]
  rw [sanitizeReturnTo, if_neg fits]
  cases is : decodeURIComponent raw with
  | none => exact .inl rfl
  | some decoded =>
    dsimp only
    split_ifs with path twice off
    · exact .inl rfl
    · exact .inl rfl
    · right
      rw [not_or] at twice off
      have safe : decoded.any isUnsafe = false := Bool.eq_false_iff.mpr off.2
      have short : raw.length ≤ maxReturnTo := by omega
      exact ⟨short, decoded, is, path, off.1, any_isUnsafe.mp safe, twice.1⟩
    · exact .inl rfl

theorem hexValue_of_isUnsafe (off : isUnsafe u = true) : hexValue u = none := by
  unfold isUnsafe backslash at off
  unfold hexValue
  simp only [Bool.or_eq_true, beq_iff_eq, decide_eq_true_eq, Bool.and_eq_true,
    UInt16.le_iff_toNat_le, ← UInt16.toNat_inj, UInt16.reduceToNat] at off ⊢
  rw [if_neg (by omega), if_neg (by omega), if_neg (by omega)]

theorem percent_safe (off : isUnsafe u = true) : u ≠ percent := by
  rintro rfl
  exact absurd off (by decide)

/-- What is not written as an escape is decoded to itself. -/
theorem Accepted.clean (accepted : Accepted raw) : Clean raw := by
  obtain ⟨decoded, is, path, clean⟩ := accepted.decoded
  refine ⟨?_, ?_, ?_⟩
  · rintro ⟨a, b, rfl⟩
    have pieces : a ++ [colon, slash, slash] ++ b = a ++ colon :: slash :: slash :: b := by
      rw [List.append_assoc]
      rfl
    rw [pieces, decodeURIComponent_middle (by decide) (by decide),
      decodeURIComponent_literal (by decide), decodeURIComponent_literal (by decide)] at is
    obtain ⟨x, -, is⟩ := Option.bind_eq_some_iff.mp is
    rw [Option.map_map, Option.map_map] at is
    obtain ⟨y, -, rfl⟩ := Option.map_eq_some_iff.mp is
    exact clean.scheme ⟨x, y, List.append_assoc _ _ _⟩
  · intro u among
    by_contra off
    rw [Bool.not_eq_false] at off
    obtain ⟨a, b, rfl⟩ := List.append_of_mem among
    rw [decodeURIComponent_middle (percent_safe off) (hexValue_of_isUnsafe off)] at is
    obtain ⟨x, -, is⟩ := Option.bind_eq_some_iff.mp is
    obtain ⟨y, -, rfl⟩ := Option.map_eq_some_iff.mp is
    have safe := clean.safe u (List.mem_append_right x List.mem_cons_self)
    exact absurd (safe.symm.trans off) (by decide)
  · rintro ⟨b, rfl⟩
    change decodeURIComponent (slash :: slash :: b) = _ at is
    rw [decodeURIComponent_literal (by decide), decodeURIComponent_literal (by decide),
      Option.map_map] at is
    obtain ⟨y, -, rfl⟩ := Option.map_eq_some_iff.mp is
    exact clean.relative ⟨y, rfl⟩

/-- An accepted text begins with a slash, or with an escape. -/
theorem Accepted.begins (accepted : Accepted raw) :
    ∃ first rest, raw = first :: rest ∧ (first = slash ∨ first = percent) := by
  obtain ⟨decoded, is, path, -⟩ := accepted.decoded
  cases raw with
  | nil =>
    cases is
    exact absurd path.length_le (by decide)
  | cons first rest =>
    refine ⟨first, rest, rfl, ?_⟩
    by_cases escape : first = percent
    · exact .inr escape
    · rw [decodeURIComponent_literal escape] at is
      obtain ⟨y, -, rfl⟩ := Option.map_eq_some_iff.mp is
      obtain ⟨z, same⟩ := path
      exact .inl (List.cons.inj same).1.symm

/-- Nothing of a clean text is dropped when it is read as a reference. -/
theorem cleaned_of_clean {first : UInt16} {rest : Units} (clean : Clean (first :: rest))
    (visible : ¬first ≤ 0x20) : cleaned (first :: rest) = first :: rest := by
  unfold cleaned
  rw [List.dropWhile_cons_of_neg (by rw [decide_eq_true_iff]; exact visible), List.filter_eq_self]
  intro u among
  have safe := clean.safe u among
  unfold isUnsafe at safe
  simp only [Bool.or_eq_false_iff, decide_eq_false_iff_not, UInt16.le_iff_toNat_le] at safe
  have low : ¬u.toNat ≤ 31 := safe.1.2
  rw [Bool.not_eq_true', Bool.or_eq_false_iff, Bool.or_eq_false_iff]
  refine ⟨⟨?_, ?_⟩, ?_⟩
  all_goals
    rw [beq_eq_false_iff_ne]
    rintro rfl
    exact low (by decide)

theorem Accepted.origin (accepted : Accepted raw) : staysOnOrigin raw = true := by
  obtain ⟨first, rest, rfl, begins⟩ := accepted.begins
  have clean := accepted.clean
  have visible : ¬first ≤ 0x20 := by rcases begins with rfl | rfl <;> decide
  have letter : isLetter first = false := by rcases begins with rfl | rfl <;> decide
  have authority : hasAuthority (first :: rest) = false := by
    cases rest with
    | nil => rfl
    | cons second rest =>
      rcases begins with rfl | rfl
      · have once : second ≠ slash := by
          rintro rfl
          exact clean.relative ⟨rest, rfl⟩
        have forward : second ≠ backslash := by
          rintro rfl
          have off := clean.safe backslash (List.mem_cons_of_mem _ List.mem_cons_self)
          exact absurd off (by decide)
        rw [hasAuthority, beq_eq_false_iff_ne.mpr once, beq_eq_false_iff_ne.mpr forward]
        rfl
      · rfl
  unfold staysOnOrigin
  rw [cleaned_of_clean clean visible, hasScheme, letter, authority]
  rfl

end Check

theorem lawful_fallback {raw : Value} (is : sanitizeReturnTo raw = [slash]) : Lawful raw := by
  have clean : Clean [slash] := by
    refine ⟨by decide, ?_, by decide⟩
    intro u is
    rw [List.mem_singleton.mp is]
    rfl
  refine ⟨⟨[], is, Option.some_ne_none _ |>.symm⟩, ?_, ⟨[slash], ?_, clean⟩, ?_, ?_⟩
  · rw [is]
    exact clean
  · rw [is]
    rfl
  · rw [is]
    rfl
  · rw [is]
    rfl

theorem lawful_accepted {raw : Units} (accepted : Accepted raw) (first : raw.head? ≠ some percent) :
    Lawful (.string raw) := by
  have same := accepted.sanitized
  obtain ⟨decoded, is, path, clean⟩ := accepted.decoded
  refine ⟨?_, ?_, ⟨decoded, ?_, clean⟩, ?_, ?_⟩
  · obtain ⟨u, rest, rfl, rfl | rfl⟩ := accepted.begins
    · refine ⟨rest, same, ?_⟩
      intro second
      obtain ⟨rest', rfl⟩ := List.head?_eq_some_iff.mp second
      exact accepted.clean.relative ⟨rest', rfl⟩
    · exact absurd rfl first
  · rw [same]
    exact accepted.clean
  · rw [same]
    exact is
  · rw [same]
    exact same
  · rw [same]
    exact accepted.origin

/-- The result keeps what is promised of it, unless a path whose first slash is escaped is returned
as it is. -/
theorem sanitizeReturnTo_lawful_iff (raw : Value) : Lawful raw ↔ ¬EncodedSlash raw := by
  cases raw with
  | other => exact ⟨fun _ => not_false, fun _ => lawful_fallback rfl⟩
  | string raw =>
    constructor
    · rintro lawful ⟨first, accepted⟩
      obtain ⟨rest, is, -⟩ := lawful.path
      rw [accepted.sanitized] at is
      rw [is] at first
      exact absurd first (by decide : some slash ≠ some percent)
    · intro plain
      rcases sanitized_or raw with fallback | accepted
      · exact lawful_fallback fallback
      · exact lawful_accepted accepted fun first => plain ⟨first, accepted⟩

/-- `%2Fboard` comes back as it is: it begins with no slash. -/
theorem not_sanitizeReturnTo_lawful : ¬∀ raw, Lawful raw := by
  intro all
  have lawful := all (.string [37, 50, 70, 98, 111, 97, 114, 100])
  obtain ⟨rest, is, -⟩ := lawful.path
  have same : sanitizeReturnTo (.string [37, 50, 70, 98, 111, 97, 114, 100]) =
      [37, 50, 70, 98, 111, 97, 114, 100] := by decide
  exact absurd (List.cons.inj (same.symm.trans is)).1 (by decide)

end Artoo.Server.ReturnTo
