import Artoo.Lib.Ascii
import Mathlib.Data.Char

/-! Lower case by the mappings of the Unicode character database. -/
namespace Artoo.Lib

def sigma : Char := Char.ofNat 0x3A3

def smallSigma : Char := Char.ofNat 0x3C3

def finalSigma : Char := Char.ofNat 0x3C2

/-- The lowercase mapping of a character alone, and the two properties that a final sigma asks
for. -/
structure Casing where
  lower : Char → List Char
  cased : Char → Bool
  caseIgnorable : Char → Bool
  lower_ascii : ∀ c, c.toNat < 128 → lower c = [c.toLower]
  lower_sigma : lower sigma = [smallSigma]
  lower_finalSigma : lower finalSigma = [finalSigma]
  /-- the mapped characters are lower case -/
  lower_lower : ∀ c, ∀ x ∈ lower c, lower x = [x]
  /-- besides letters, only an ASCII character itself is mapped to it -/
  lower_letter : ∀ c, ∀ x ∈ lower c, x.toNat < 128 → x = c ∨ x.isAlpha

namespace Casing

variable (casing : Casing)

/-- A cased character after case-ignorable ones. -/
def meetsCased : List Char → Bool
  | [] => false
  | c :: rest => casing.cased c || (casing.caseIgnorable c && meetsCased rest)

/-- The mapping of a string; `before` is what precedes it, in reverse. -/
def lowerFrom (before : List Char) : List Char → List Char
  | [] => []
  | c :: rest =>
    (if c = sigma then
      [if casing.meetsCased before && !casing.meetsCased rest then finalSigma else smallSigma]
    else casing.lower c) ++ lowerFrom (c :: before) rest

def toLowerCase (s : String) : String := String.ofList (casing.lowerFrom [] s.toList)

variable {casing} {before cs : List Char} {x : Char} {s : String}

theorem mem_lowerFrom (there : x ∈ casing.lowerFrom before cs) :
    casing.lower x = [x] ∧ (x.toNat < 128 → x ∈ cs ∨ x.isAlpha) := by
  induction cs generalizing before with
  | nil => cases there
  | cons c rest ih =>
    unfold lowerFrom at there
    rcases List.mem_append.mp there with here | later
    · split at here
      · have small : casing.lower smallSigma = [smallSigma] :=
          casing.lower_lower sigma smallSigma (casing.lower_sigma ▸ List.mem_singleton_self _)
        have final := casing.lower_finalSigma
        have is := List.mem_singleton.mp here
        split at is
        · rw [is]
          exact ⟨final, fun ascii => absurd ascii (by decide)⟩
        · rw [is]
          exact ⟨small, fun ascii => absurd ascii (by decide)⟩
      · refine ⟨casing.lower_lower c x here, fun ascii => ?_⟩
        rcases casing.lower_letter c x here ascii with rfl | letter
        · exact Or.inl List.mem_cons_self
        · exact Or.inr letter
    · obtain ⟨fixed, from_⟩ := ih later
      refine ⟨fixed, fun ascii => ?_⟩
      rcases from_ ascii with old | letter
      · exact Or.inl (List.mem_cons_of_mem _ old)
      · exact Or.inr letter

/-- The result is lower case. -/
theorem lower_of_mem (there : x ∈ (casing.toLowerCase s).toList) : casing.lower x = [x] := by
  unfold toLowerCase at there
  rw [String.toList_ofList] at there
  exact (mem_lowerFrom there).1

/-- An ASCII character of the result that is no letter was there before. -/
theorem mem_of_toLowerCase (there : x ∈ (casing.toLowerCase s).toList) (ascii : x.toNat < 128)
    (other : x.isAlpha = false) : x ∈ s.toList := by
  unfold toLowerCase at there
  rw [String.toList_ofList] at there
  rcases (mem_lowerFrom there).2 ascii with old | letter
  · exact old
  · rw [other] at letter
    cases letter

theorem lowerFrom_fixed (fixed : ∀ c ∈ cs, casing.lower c = [c]) :
    casing.lowerFrom before cs = cs := by
  induction cs generalizing before with
  | nil => rfl
  | cons c rest ih =>
    have here := fixed c List.mem_cons_self
    have other : c ≠ sigma := by
      rintro rfl
      rw [casing.lower_sigma] at here
      exact absurd here (by decide)
    unfold lowerFrom
    rw [if_neg other, here, ih fun c' there => fixed c' (List.mem_cons_of_mem _ there)]
    rfl

/-- What consists of characters of lower case stays as it is. -/
theorem toLowerCase_fixed (fixed : ∀ c ∈ s.toList, casing.lower c = [c]) :
    casing.toLowerCase s = s := by
  unfold toLowerCase
  rw [lowerFrom_fixed fixed, String.ofList_toList]

theorem toLower_cases (c : Char) : c.toLower = c ∨ c.toLower.isLower := by
  unfold Char.toLower
  split
  · rename_i upper
    right
    have low : c.val.toNat ≥ 65 := upper.1
    have high : c.val.toNat ≤ 90 := upper.2
    have gap : ('a'.val - 'A'.val).toNat = 32 := by decide
    refine isLower_iff.mpr ?_
    change 97 ≤ (c.val + ('a'.val - 'A'.val)).toNat ∧ (c.val + ('a'.val - 'A'.val)).toNat ≤ 122
    rw [UInt32.toNat_add, gap]
    omega
  · exact Or.inl rfl

theorem toLower_of_isLower {c : Char} (lower : c.isLower) : c.toLower = c := by
  unfold Char.toLower
  rw [dif_neg]
  rintro ⟨_, high⟩
  have high' : c.toNat ≤ 90 := high
  have low := (isLower_iff.mp lower).1
  omega

theorem toLower_toLower (c : Char) : c.toLower.toLower = c.toLower := by
  rcases toLower_cases c with same | lower
  · rw [same, same]
  · exact toLower_of_isLower lower

theorem toLower_ne_sigma {c : Char} (other : c ≠ sigma) : c.toLower ≠ sigma := by
  rcases toLower_cases c with same | lower
  · rw [same]
    exact other
  · intro is
    rw [is] at lower
    exact absurd lower (by decide)

/-- The mappings of the ASCII letters and the sigma. -/
def ascii : Casing where
  lower c := if c = sigma then [smallSigma] else [c.toLower]
  cased := Char.isAlpha
  caseIgnorable _ := false
  lower_ascii c small := by
    rw [if_neg]
    rintro rfl
    exact absurd small (by decide)
  lower_sigma := by decide
  lower_finalSigma := by decide
  lower_lower c x there := by
    split at there
    · rw [List.mem_singleton.mp there]
      decide
    · rename_i other
      rw [List.mem_singleton.mp there, if_neg (toLower_ne_sigma other), toLower_toLower]
  lower_letter c x there small := by
    split at there
    · rw [List.mem_singleton.mp there] at small
      exact absurd small (by decide)
    · rw [List.mem_singleton.mp there]
      rcases toLower_cases c with same | lower
      · exact Or.inl same
      · exact Or.inr (isAlpha_iff.mpr (Or.inr lower))

end Casing
end Artoo.Lib
