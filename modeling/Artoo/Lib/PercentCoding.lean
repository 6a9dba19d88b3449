import Artoo.Lib.JsonText

/-! `decodeURIComponent`, on strings of code units. -/
namespace Artoo.Lib

/-- A code unit as it stands, or the byte of an escape. -/
inductive Octet where
  | literal (u : UInt16)
  | byte (b : ℕ)
  deriving DecidableEq

def percent : UInt16 := 37

/-- An escape has two digits. -/
def octets : Units → Option (List Octet)
  | [] => some []
  | [u] => if u = percent then none else some [.literal u]
  | [u, v] => if u = percent ∨ v = percent then none else some [.literal u, .literal v]
  | u :: v :: w :: rest =>
    if u = percent then
      match hexValue v, hexValue w with
      | some high, some low => (octets rest).map (.byte (high * 16 + low) :: ·)
      | _, _ => none
    else (octets (v :: w :: rest)).map (.literal u :: ·)

/-- The bytes that follow the first of a character. -/
def isContinuation (b : ℕ) : Bool := 0x80 ≤ b && b ≤ 0xBF

/-- How many bytes a character has that begins with this one. -/
def sequenceLength (a : ℕ) : ℕ :=
  if a < 0x80 then 1 else if a < 0xE0 then 2 else if a < 0xF0 then 3 else 4

/-- The character of a whole UTF-8 sequence: none that is overlong, a surrogate or too large. -/
def sequenceChar : List ℕ → Option Char
  | [a] => some (Char.ofNat a)
  | [a, b] =>
    let value := (a - 0xC0) * 0x40 + (b - 0x80)
    if 0xC0 ≤ a ∧ isContinuation b ∧ 0x80 ≤ value then some (Char.ofNat value) else none
  | [a, b, c] =>
    let value := (a - 0xE0) * 0x1000 + (b - 0x80) * 0x40 + (c - 0x80)
    if isContinuation b ∧ isContinuation c ∧ 0x800 ≤ value ∧ ¬(0xD800 ≤ value ∧ value ≤ 0xDFFF) then
      some (Char.ofNat value)
    else none
  | [a, b, c, d] =>
    let value := (a - 0xF0) * 0x40000 + (b - 0x80) * 0x1000 + (c - 0x80) * 0x40 + (d - 0x80)
    if isContinuation b ∧ isContinuation c ∧ isContinuation d ∧ 0x10000 ≤ value ∧
        value ≤ 0x10FFFF then
      some (Char.ofNat value)
    else none
  | _ => none

/-- `none` where a `URIError` is thrown. The first argument is the beginning of a sequence. -/
def unitsFrom : List ℕ → List Octet → Option Units
  | [], [] => some []
  | _ :: _, [] => none
  | [], .literal u :: rest => (unitsFrom [] rest).map (u :: ·)
  | _ :: _, .literal _ :: _ => none
  | before, .byte b :: rest =>
    let bytes := before ++ [b]
    if bytes.length = sequenceLength (bytes.headD 0) then
      (sequenceChar bytes).bind fun c => (unitsFrom [] rest).map (charUnits c ++ ·)
    else unitsFrom bytes rest

def decodeURIComponent (s : Units) : Option Units := (octets s).bind (unitsFrom [])

section Literals

variable {u v w : UInt16} {s rest : Units}

theorem octets_literal (plain : u ≠ percent) :
    octets (u :: rest) = (octets rest).map (.literal u :: ·) := by
  match rest with
  | [] => simp [octets, plain]
  | [v] =>
    by_cases is : v = percent
    · simp [octets, is]
    · simp [octets, plain, is]
  | v :: w :: rest => rw [octets, if_neg plain]

theorem octets_escape : octets (percent :: v :: w :: rest) = (do
    (octets rest).map (.byte ((← hexValue v) * 16 + (← hexValue w)) :: ·)) := by
  rw [octets, if_pos rfl]
  cases hexValue v with
  | none => rfl
  | some high =>
    cases hexValue w with
    | none => rfl
    | some low => rfl

/-- What is no digit and no `%` is in no escape. -/
theorem octets_middle (plain : u ≠ percent) (digit : hexValue u = none) (s rest : Units) :
    octets (s ++ u :: rest) =
      (octets s).bind fun a => (octets rest).map fun b => a ++ .literal u :: b := by
  match s with
  | [] =>
    rw [List.nil_append, octets_literal plain]
    rfl
  | x :: s =>
    by_cases is : x = percent
    · rw [is]
      match s with
      | [] =>
        cases rest with
        | nil => rfl
        | cons w rest =>
          rw [List.cons_append, List.nil_append, octets_escape, digit]
          rfl
      | [v] =>
        change octets (percent :: v :: u :: rest) = _
        rw [octets_escape, digit]
        cases hexValue v <;> rfl
      | v :: w :: s =>
        change octets (percent :: v :: w :: (s ++ u :: rest)) = _
        rw [octets_escape, octets_escape, octets_middle plain digit s rest]
        cases hexValue v with
        | none => rfl
        | some high =>
          cases hexValue w with
          | none => rfl
          | some low =>
            cases octets s <;> cases octets rest <;> rfl
    · rw [List.cons_append, octets_literal is, octets_literal is, octets_middle plain digit s rest]
      cases octets s <;> cases octets rest <;> rfl

theorem unitsFrom_middle (before : List ℕ) (a b : List Octet) :
    unitsFrom before (a ++ .literal u :: b) =
      (unitsFrom before a).bind fun x => (unitsFrom [] b).map fun y => x ++ u :: y := by
  induction a generalizing before with
  | nil =>
    cases before with
    | nil => rfl
    | cons first before => rfl
  | cons o a ih =>
    cases o with
    | literal v =>
      cases before with
      | nil =>
        rw [List.cons_append, unitsFrom, unitsFrom, ih]
        cases unitsFrom [] a <;> cases unitsFrom [] b <;> rfl
      | cons first before => rfl
    | byte n =>
      rw [List.cons_append, unitsFrom, unitsFrom]
      split_ifs
      · cases sequenceChar (before ++ [n]) with
        | none => rfl
        | some c =>
          rw [Option.bind_some, Option.bind_some, ih]
          cases unitsFrom [] a <;> cases unitsFrom [] b <;> simp
      · exact ih _

/-- What stands for itself divides the text. -/
theorem decodeURIComponent_middle (plain : u ≠ percent) (digit : hexValue u = none)
    (s rest : Units) :
    decodeURIComponent (s ++ u :: rest) =
      (decodeURIComponent s).bind fun a => (decodeURIComponent rest).map fun b => a ++ u :: b := by
  unfold decodeURIComponent
  rw [octets_middle plain digit]
  cases octets s with
  | none => rfl
  | some a =>
    cases octets rest with
    | none =>
      change none = (unitsFrom [] a).bind fun _ => none
      cases unitsFrom [] a <;> rfl
    | some b => exact unitsFrom_middle [] a b

/-- Only an escape begins with what it does not decode to. -/
theorem decodeURIComponent_literal (plain : u ≠ percent) :
    decodeURIComponent (u :: rest) = (decodeURIComponent rest).map (u :: ·) := by
  unfold decodeURIComponent
  rw [octets_literal plain]
  cases octets rest with
  | none => rfl
  | some b => rfl

end Literals
end Artoo.Lib
