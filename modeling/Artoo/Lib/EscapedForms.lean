import Artoo.Lib.JsonWritten

/-! The forms that a text takes when it is written in JSON again and again. -/
namespace Artoo.Lib

section Forms

variable {k s t z m r : Units} {u : UInt16}

theorem escapedAll_length (k : Units) :
    escapedAll k = k ∨ k.length < (escapedAll k).length := by
  induction length : k.length using Nat.strong_induction_on generalizing k with
  | h n ih =>
    cases k with
    | nil => exact .inl rfl
    | cons w ws =>
      rw [List.length_cons] at length
      rcases escapedAll_cases w ws with ⟨v, rest, rfl, -, -, is⟩ | ⟨-, is⟩
      · rw [is]
        rw [List.length_cons] at length
        rcases ih rest.length (by omega) rest rfl with same | longer
        · rw [same]
          exact .inl rfl
        · right
          rw [List.length_cons, List.length_cons]
          omega
      · rw [is]
        rcases escaped_cases w with ⟨plain, -⟩ | escape
        · rw [plain]
          rcases ih ws.length (by omega) ws rfl with same | longer
          · rw [same]
            exact .inl rfl
          · right
            rw [List.length_append, List.length_singleton]
            omega
        · right
          obtain ⟨c, y, is⟩ := escape.head
          rw [is, List.length_append, List.length_cons, List.length_cons]
          rcases ih ws.length (by omega) ws rfl with same | longer
          · rw [same]
            omega
          · omega

theorem prefix_escapedAll (plain : 92 ∉ s) (begins : s <+: escapedAll k) : s <+: k := by
  induction length : k.length using Nat.strong_induction_on generalizing k s with
  | h n ih =>
    cases k with
    | nil => exact begins
    | cons w ws =>
      rw [List.length_cons] at length
      cases s with
      | nil => exact List.nil_prefix
      | cons u s =>
        rw [List.mem_cons, not_or] at plain
        rcases escapedAll_cases w ws with ⟨v, rest, rfl, -, -, is⟩ | ⟨-, is⟩
        · rw [is, List.cons_prefix_cons] at begins
          rw [List.cons_prefix_cons]
          refine ⟨begins.1, ?_⟩
          cases s with
          | nil => exact List.nil_prefix
          | cons u' s =>
            rw [List.mem_cons, not_or] at plain
            rw [List.cons_prefix_cons] at begins ⊢
            rw [List.length_cons] at length
            exact ⟨begins.2.1, ih rest.length (by omega) plain.2.2 begins.2.2 rfl⟩
        · rw [is] at begins
          rcases escaped_cases w with ⟨raw, -⟩ | escape
          · rw [raw, List.singleton_append, List.cons_prefix_cons] at begins
            rw [List.cons_prefix_cons]
            exact ⟨begins.1, ih ws.length (by omega) plain.2 begins.2 rfl⟩
          · obtain ⟨c, y, is⟩ := escape.head
            rw [is, List.cons_append, List.cons_prefix_cons] at begins
            exact absurd begins.1.symm plain.1

theorem escapedAll_of_plain (plain : 92 ∉ escapedAll k) : escapedAll k = k := by
  have begins := prefix_escapedAll plain List.prefix_rfl
  rcases escapedAll_length k with same | longer
  · exact same
  · exact absurd begins.length_le (Nat.not_le.mpr longer)

/-- Where an end of a form begins with what no escape has, it is the form of an end. -/
theorem suffix_escapedAll (ends : 91 :: r <:+ escapedAll k) :
    ∃ r', 91 :: r' <:+ k ∧ r = escapedAll r' := by
  induction length : k.length using Nat.strong_induction_on generalizing k with
  | h n ih =>
    cases k with
    | nil => exact absurd (List.suffix_nil.mp ends) (List.cons_ne_nil _ _)
    | cons w ws =>
      rw [List.length_cons] at length
      have lift : ∀ {rest : Units}, rest <:+ w :: ws → rest.length < n →
          91 :: r <:+ escapedAll rest → ∃ r', 91 :: r' <:+ w :: ws ∧ r = escapedAll r' := by
        intro rest within less ends
        obtain ⟨r', there, is⟩ := ih rest.length less ends rfl
        exact ⟨r', there.trans within, is⟩
      rcases escapedAll_cases w ws with ⟨v, rest, rfl, high, low, is⟩ | ⟨-, is⟩
      · rw [is] at ends
        rw [List.length_cons] at length
        rcases List.suffix_cons_iff.mp ends with same | ends
        · cases same
          cases high
        rcases List.suffix_cons_iff.mp ends with same | ends
        · cases same
          cases low
        exact lift (List.suffix_append [w, v] rest) (by omega) ends
      · rw [is] at ends
        rcases escaped_cases w with ⟨raw, -⟩ | escape
        · rw [raw] at ends
          rcases List.suffix_cons_iff.mp ends with same | ends
          · cases same
            exact ⟨ws, List.suffix_rfl, rfl⟩
          · exact lift (List.suffix_cons w ws) (by omega) ends
        · obtain ⟨x, same⟩ := ends
          rcases List.append_eq_append_iff.mp same with ⟨y, whole, rest⟩ | ⟨y, rfl, rest⟩
          · cases y with
            | nil =>
              rw [List.nil_append] at rest
              rw [← rest] at is
              exact lift (List.suffix_cons w ws) (by omega) ⟨[], by rw [← rest]; rfl⟩
            | cons u y =>
              exfalso
              rw [List.cons_append, List.cons.injEq] at rest
              rw [whole] at escape
              by_cases empty : x = []
              · subst empty
                obtain ⟨c, z, is⟩ := escape.head
                rw [List.nil_append, List.cons.injEq, ← rest.1] at is
                exact absurd is.1 (by decide)
              · exact escape.tail_ne empty (by rw [← rest.1])
          · exact lift (List.suffix_cons w ws) (by omega) ⟨y, rest.symm⟩

/-- A marker without a backslash. -/
theorem Apart.escapedAll (plain : 92 ∉ 91 :: m) (apart : Apart k (91 :: m)) :
    Apart (escapedAll k) (91 :: m) := by
  constructor
  · intro found
    have same := escapedAll_of_plain fun slash => plain (found.subset slash)
    rw [same] at found
    exact apart.outside found
  · rintro ⟨x, y, is⟩
    have ends : 91 :: (m ++ y) <:+ Lib.escapedAll k := ⟨x, by rw [← is, List.append_assoc]; rfl⟩
    obtain ⟨r, there, is⟩ := suffix_escapedAll ends
    have begins : 91 :: m <+: Lib.escapedAll (91 :: r) := by
      rw [escapedAll_plain (by decide), ← is]
      exact List.prefix_append (91 :: m) y
    exact apart.around ((prefix_escapedAll plain begins).isInfix.trans there.isInfix)
  · intro s some_ less ends begins
    have plain' : 92 ∉ s := fun slash => plain (begins.subset slash)
    cases s with
    | nil => exact some_ rfl
    | cons u s =>
      have first := (List.cons_prefix_cons.mp begins).1
      subst first
      obtain ⟨r, there, is⟩ := suffix_escapedAll ends
      have same : s = r := by
        rw [is]
        apply escapedAll_of_plain
        rw [← is]
        exact fun slash => plain' (List.mem_cons_of_mem _ slash)
      subst same
      by_cases whole : 91 :: s = k
      · rw [whole] at begins
        exact apart.outside begins.isInfix
      · exact apart.before _ some_ whole there begins
  · intro s some_ less ends begins
    have plain' : 92 ∉ s := fun slash => plain (ends.subset slash)
    exact apart.after s some_ less ends (prefix_escapedAll plain' begins)

theorem partialEscape_head (broken : partialEscape z = true) : ∃ y, z = 92 :: y := by
  unfold partialEscape at broken
  split at broken
  · exact ⟨_, rfl⟩
  · exact ⟨_, rfl⟩
  · cases broken

theorem partialEscape_tail {y : Units} (broken : partialEscape (92 :: y) = true) :
    y.length < 5 ∧ (92 ∉ y) ∧ ∀ c rest, y = c :: rest → c = 117 := by
  unfold partialEscape at broken
  split at broken
  · rename_i is
    cases is
    exact ⟨by decide, List.not_mem_nil, fun _ _ off => by cases off⟩
  · rename_i digits is
    cases is
    rw [Bool.and_eq_true, decide_eq_true_iff, List.all_eq_true] at broken
    refine ⟨by rw [List.length_cons]; omega, ?_, ?_⟩
    · rw [List.mem_cons, not_or]
      refine ⟨by decide, fun slash => ?_⟩
      have off := broken.2 92 slash
      cases off
    · intro c rest is
      exact (List.cons.inj is).1.symm
  · cases broken

/-- Where a backslash stands in an escape. -/
theorem Escape.inner {x y : Units} (escape : Escape (x ++ 92 :: y) u) :
    (∃ v, x = [] ∧ y = [v] ∧ unescape v = some u) ∨ (x = [92] ∧ y = [] ∧ u = 92) ∨
      x = [] ∧ y.length = 5 := by
  have digit : hexValue 92 = none := by decide
  generalize is : x ++ 92 :: y = text at escape
  cases escape with
  | @short c v reads =>
    rcases x with _ | ⟨a, _ | ⟨b, x⟩⟩
    · cases is
      exact .inl ⟨c, rfl, rfl, reads⟩
    · cases is
      cases reads
      exact .inr (.inl ⟨rfl, rfl, rfl⟩)
    · simp at is
  | hex a b c d =>
    right
    right
    rcases x with _ | ⟨_, _ | ⟨_, _ | ⟨_, _ | ⟨_, _ | ⟨_, _ | ⟨_, x⟩⟩⟩⟩⟩⟩
    · cases is
      exact ⟨rfl, rfl⟩
    · cases is
    · cases is
      rw [digit] at a
      cases a
    · cases is
      rw [digit] at b
      cases b
    · cases is
      rw [digit] at c
      cases c
    · cases is
      rw [digit] at d
      cases d
    · simp at is

/-- A form of what cannot end within an escape cannot end within one. -/
theorem partial_escapedAll (broken : partialEscape z = true) (ends : z <:+ escapedAll k) :
    ∃ z', z' <:+ k ∧ partialEscape z' = true := by
  induction length : k.length using Nat.strong_induction_on generalizing k with
  | h n ih =>
    cases k with
    | nil =>
      refine ⟨z, ends, broken⟩
    | cons w ws =>
      rw [List.length_cons] at length
      obtain ⟨y, rfl⟩ := partialEscape_head broken
      have lift : ∀ {rest : Units}, rest <:+ w :: ws → rest.length < n →
          92 :: y <:+ escapedAll rest → ∃ z', z' <:+ w :: ws ∧ partialEscape z' = true := by
        intro rest within less ends
        obtain ⟨z', there, is⟩ := ih rest.length less ends rfl
        exact ⟨z', there.trans within, is⟩
      rcases escapedAll_cases w ws with ⟨v, rest, rfl, high, low, is⟩ | ⟨-, is⟩
      · rw [is] at ends
        rw [List.length_cons] at length
        rcases List.suffix_cons_iff.mp ends with same | ends
        · cases same
          cases high
        rcases List.suffix_cons_iff.mp ends with same | ends
        · cases same
          cases low
        exact lift (List.suffix_append [w, v] rest) (by omega) ends
      · rw [is] at ends
        rcases escaped_cases w with ⟨raw, slash, -⟩ | escape
        · rw [raw] at ends
          rcases List.suffix_cons_iff.mp ends with same | ends
          · exact absurd (List.cons.inj same).1.symm slash
          · exact lift (List.suffix_cons w ws) (by omega) ends
        · obtain ⟨short, plain, second⟩ := partialEscape_tail broken
          obtain ⟨x, same⟩ := ends
          rcases List.append_eq_append_iff.mp same with ⟨y', whole, rest⟩ | ⟨y', -, rest⟩
          · cases y' with
            | nil => exact lift (List.suffix_cons w ws) (by omega) ⟨[], rest⟩
            | cons c y' =>
              rw [List.cons_append, List.cons.injEq] at rest
              obtain ⟨rfl, rfl⟩ := rest
              rw [whole] at escape
              rcases escape.inner with ⟨v, rfl, rfl, reads⟩ | ⟨rfl, rfl, rfl⟩ | ⟨-, long⟩
              · have off := second v (escapedAll ws) rfl
                subst off
                cases reads
              · rw [List.nil_append] at plain broken
                rw [escapedAll_of_plain plain] at broken
                exact ⟨92 :: ws, List.suffix_rfl, broken⟩
              · rw [List.length_append] at short
                omega
          · exact lift (List.suffix_cons w ws) (by omega) ⟨y', rest.symm⟩

theorem endsInEscape_escapedAll (ends : endsInEscape k = false) :
    endsInEscape (escapedAll k) = false := by
  rw [← Bool.not_eq_true]
  intro broken
  obtain ⟨z, there, broken⟩ := List.any_eq_true.mp broken
  obtain ⟨z', there', broken'⟩ := partial_escapedAll broken ((List.mem_tails ..).mp there)
  exact List.any_eq_false.mp ends z' ((List.mem_tails ..).mpr there') broken'

theorem escapedAll_ne_nil (some_ : k ≠ []) : escapedAll k ≠ [] := by
  intro none_
  rcases escapedAll_length k with same | longer
  · exact some_ (same.symm.trans none_)
  · rw [none_] at longer
    cases longer

end Forms

/-- The form after some writings. -/
def form (k : Units) (n : ℕ) : Units := escapedAll^[n] k

theorem form_succ (k : Units) (n : ℕ) : form k (n + 1) = escapedAll (form k n) :=
  Function.iterate_succ_apply' ..

theorem form_ne_nil {k : Units} (some_ : k ≠ []) (n : ℕ) : form k n ≠ [] := by
  induction n with
  | zero => exact some_
  | succ n ih =>
    rw [form_succ]
    exact escapedAll_ne_nil ih

theorem apart_form {k m : Units} (plain : 92 ∉ 91 :: m) (apart : Apart k (91 :: m)) (n : ℕ) :
    Apart (form k n) (91 :: m) := by
  induction n with
  | zero => exact apart
  | succ n ih =>
    rw [form_succ]
    exact ih.escapedAll plain

theorem endsInEscape_form {k : Units} (ends : endsInEscape k = false) (n : ℕ) :
    endsInEscape (form k n) = false := by
  induction n with
  | zero => exact ends
  | succ n ih =>
    rw [form_succ]
    exact endsInEscape_escapedAll ih

theorem form_length_le {k : Units} {m n : ℕ} (le : m ≤ n) :
    (form k m).length ≤ (form k n).length := by
  induction le with
  | refl => exact Nat.le_refl _
  | @step n _ ih =>
    rw [form_succ]
    rcases escapedAll_length (form k n) with same | longer
    · rw [same]
      exact ih
    · omega

/-- From a form that stays as it is on all forms are the same. -/
theorem form_stable {k : Units} {m n : ℕ} (stable : escapedAll (form k m) = form k m)
    (le : m ≤ n) : form k n = form k m := by
  induction le with
  | refl => rfl
  | step _ ih => rw [form_succ, ih, stable]

end Artoo.Lib
