import Artoo.Lib.JsonText
import Artoo.Lib.Replacing
import Mathlib.Data.List.Infix

/-! The code units of a JSON text, taken with the escapes in it: where they begin, what they spell,
and what becomes of them when parts of the text are replaced. -/
namespace Artoo.Lib

/-- An escape, and the code unit it stands for. -/
inductive Escape : Units → UInt16 → Prop
  | short {c v : UInt16} : unescape c = some v → Escape [92, c] v
  | hex {a b c d : UInt16} {i j k l : ℕ} : hexValue a = some i → hexValue b = some j →
      hexValue c = some k → hexValue d = some l →
      Escape [92, 117, a, b, c, d] (UInt16.ofNat (16 * (16 * (16 * (16 * 0 + i) + j) + k) + l))

/-- A place in a text that is not within an escape, with what follows. -/
inductive Reach : Units → Units → Prop
  | refl (t : Units) : Reach t t
  | plain {u : UInt16} {t r : Units} : u ≠ 92 → Reach t r → Reach (u :: t) r
  | escape {x t r : Units} {v : UInt16} : Escape x v → Reach t r → Reach (x ++ t) r

/-- What a part of the text of a string stands for. -/
inductive Spells : Units → Units → Prop
  | nil : Spells [] []
  | plain {u : UInt16} {x k : Units} : u ≠ 92 → u ≠ 34 → ¬ u < 32 → Spells x k →
      Spells (u :: x) (u :: k)
  | escape {y x k : Units} {v : UInt16} : Escape y v → Spells x k → Spells (y ++ x) (v :: k)

/-- Each backslash begins an escape. -/
def Alive (t : Units) : Prop := ∀ r, Reach t (92 :: r) → ∃ x v r', Escape x v ∧ 92 :: r = x ++ r'

/-- An escape that breaks off. -/
def partialEscape : Units → Bool
  | [92] => true
  | 92 :: 117 :: digits => decide (digits.length < 4) && digits.all fun u => (hexValue u).isSome
  | _ => false

/-- A text that can end within an escape. -/
def endsInEscape (t : Units) : Bool := t.tails.any partialEscape

section Places

variable {t r q x y k : Units} {u v : UInt16}

theorem Escape.head (escape : Escape x v) : ∃ c y, x = 92 :: c :: y := by
  cases escape with
  | short _ => exact ⟨_, _, rfl⟩
  | hex _ _ _ _ => exact ⟨_, _, rfl⟩

theorem Reach.trans (first : Reach t r) (second : Reach r q) : Reach t q := by
  induction first with
  | refl t => exact second
  | plain other _ ih => exact .plain other (ih second)
  | escape is _ ih => exact .escape is (ih second)

theorem Reach.append (reach : Reach t r) (c : Units) : Reach (t ++ c) (r ++ c) := by
  induction reach with
  | refl t => exact .refl _
  | plain other _ ih => exact .plain other ih
  | escape is _ ih =>
    rw [List.append_assoc]
    exact .escape is ih

theorem Spells.reach (reads : Spells x k) (t : Units) : Reach (x ++ t) t := by
  induction reads with
  | nil => exact .refl t
  | plain other _ _ _ ih => exact .plain other ih
  | escape is _ ih =>
    rw [List.append_assoc]
    exact .escape is ih

theorem Alive.of_reach (alive : Alive t) (reach : Reach t r) : Alive r :=
  fun _ later => alive _ (reach.trans later)

/-- An escape is read in one way. -/
theorem Escape.unique (first : Escape x u) (second : Escape y v) (is : x ++ t = y ++ r) :
    x = y ∧ u = v ∧ t = r := by
  have not_u : unescape 117 = none := by decide
  cases first with
  | short reads =>
    cases second with
    | short reads' =>
      simp only [List.cons_append, List.nil_append, List.cons.injEq, true_and] at is
      obtain ⟨rfl, rfl⟩ := is
      rw [reads, Option.some_inj] at reads'
      exact ⟨rfl, reads', rfl⟩
    | hex _ _ _ _ =>
      simp only [List.cons_append, List.nil_append, List.cons.injEq, true_and] at is
      rw [is.1, not_u] at reads
      cases reads
  | hex a b c d =>
    cases second with
    | short reads =>
      simp only [List.cons_append, List.nil_append, List.cons.injEq, true_and] at is
      rw [← is.1, not_u] at reads
      cases reads
    | hex a' b' c' d' =>
      simp only [List.cons_append, List.nil_append, List.cons.injEq, true_and] at is
      obtain ⟨rfl, rfl, rfl, rfl, rfl⟩ := is
      rw [a, Option.some_inj] at a'
      rw [b, Option.some_inj] at b'
      rw [c, Option.some_inj] at c'
      rw [d, Option.some_inj] at d'
      subst a' b' c' d'
      exact ⟨rfl, rfl, rfl⟩

theorem Escape.partial_ (escape : Escape x v) (begins : y <+: x) (some_ : y ≠ []) (less : y ≠ x) :
    partialEscape y = true := by
  obtain ⟨z, is⟩ := begins
  have digits : ∀ {a n}, hexValue a = some n → (hexValue a).isSome = true := by
    intro a n is
    rw [is]
    rfl
  cases escape with
  | short _ =>
    rcases y with _ | ⟨_, _ | ⟨_, _ | ⟨_, y⟩⟩⟩
    · exact absurd rfl some_
    · simp only [List.cons_append, List.nil_append, List.cons.injEq] at is
      rw [is.1]
      rfl
    · simp only [List.cons_append, List.nil_append, List.cons.injEq] at is
      exact absurd (by rw [is.1, is.2.1]) less
    · cases is
  | hex a b c d =>
    rcases y with _ | ⟨_, _ | ⟨_, _ | ⟨_, _ | ⟨_, _ | ⟨_, _ | ⟨_, _ | ⟨_, y⟩⟩⟩⟩⟩⟩⟩ <;>
      simp only [List.cons_append, List.nil_append, List.cons.injEq] at is
    · exact absurd rfl some_
    · rw [is.1]
      rfl
    · rw [is.1, is.2.1]
      rfl
    · rw [is.1, is.2.1, is.2.2.1]
      simp [partialEscape, digits a]
    · rw [is.1, is.2.1, is.2.2.1, is.2.2.2.1]
      simp [partialEscape, digits a, digits b]
    · rw [is.1, is.2.1, is.2.2.1, is.2.2.2.1, is.2.2.2.2.1]
      simp [partialEscape, digits a, digits b, digits c]
    · exact absurd (by rw [is.1, is.2.1, is.2.2.1, is.2.2.2.1, is.2.2.2.2.1, is.2.2.2.2.2.1]) less
    · simp at is

theorem Reach.inv (reach : Reach t r) : r = t ∨
    (∃ u t', t = u :: t' ∧ u ≠ 92 ∧ Reach t' r) ∨
      ∃ x v t', t = x ++ t' ∧ Escape x v ∧ Reach t' r := by
  cases reach with
  | refl => exact .inl rfl
  | plain other reach => exact .inr (.inl ⟨_, _, rfl, other, reach⟩)
  | escape is reach => exact .inr (.inr ⟨_, _, _, rfl, is, reach⟩)

theorem Spells.inv (reads : Spells x k) : x = [] ∧ k = [] ∨
    (∃ u x' k', x = u :: x' ∧ k = u :: k' ∧ u ≠ 92 ∧ u ≠ 34 ∧ ¬ u < 32 ∧ Spells x' k') ∨
      ∃ y v x' k', x = y ++ x' ∧ k = v :: k' ∧ Escape y v ∧ Spells x' k' := by
  cases reads with
  | nil => exact .inl ⟨rfl, rfl⟩
  | plain slash quoted control reads =>
    exact .inr (.inl ⟨_, _, _, rfl, rfl, slash, quoted, control, reads⟩)
  | escape is reads => exact .inr (.inr ⟨_, _, _, _, rfl, rfl, is, reads⟩)

theorem Reach.suffix (reach : Reach t r) : r <:+ t := by
  induction reach with
  | refl t => exact List.suffix_rfl
  | plain _ _ ih => exact ih.trans (List.suffix_cons ..)
  | escape _ _ ih => exact ih.trans (List.suffix_append ..)

theorem reach_of_plain (plain : 92 ∉ t) : Reach t [] := by
  induction t with
  | nil => exact .refl []
  | cons u t ih =>
    rw [List.mem_cons, not_or] at plain
    exact .plain (Ne.symm plain.1) (ih plain.2)

theorem Spells.of_plain (reads : Spells x k) (plain : 92 ∉ x) : x = k := by
  induction reads with
  | nil => rfl
  | plain _ _ _ _ ih =>
    rw [List.mem_cons, not_or] at plain
    rw [ih plain.2]
  | escape is _ _ =>
    obtain ⟨c, y, rfl⟩ := is.head
    exact absurd List.mem_cons_self plain

/-- What begins with an escape does not begin with another code unit. -/
theorem Escape.not_plain {y' : Units} (escape : Escape y v) (other : u ≠ 92) :
    u :: t ≠ y ++ y' := by
  obtain ⟨c, z, rfl⟩ := escape.head
  intro is
  exact other (List.cons.inj is).1

theorem Reach.split {a e c : Units} (whole : Reach a e) (end_ : e = []) (reach : Reach (a ++ c) r) :
    (∃ b, Reach a b ∧ r = b ++ c) ∨ Reach c r := by
  induction whole with
  | refl t =>
    subst end_
    exact .inr reach
  | @plain u t e other _ ih =>
    rcases reach.inv with same | ⟨u', t', is, _, later⟩ | ⟨x, v, t', is, escape, _⟩
    · exact .inl ⟨u :: t, .refl _, same⟩
    · cases is
      rcases ih end_ later with ⟨b, within, rfl⟩ | behind
      · exact .inl ⟨b, .plain other within, rfl⟩
      · exact .inr behind
    · exact absurd is (escape.not_plain other)
  | @escape y t e v escape _ ih =>
    rw [List.append_assoc] at reach
    rcases reach.inv with same | ⟨u, t', is, other, _⟩ | ⟨x, v', t', is, escape', later⟩
    · exact .inl ⟨y ++ t, .refl _, by rw [same, List.append_assoc]⟩
    · exact absurd is.symm (escape.not_plain other)
    · obtain ⟨rfl, -, rfl⟩ := escape.unique escape' is
      rcases ih end_ later with ⟨b, within, rfl⟩ | behind
      · exact .inl ⟨b, .escape escape within, rfl⟩
      · exact .inr behind

theorem Spells.split {a e : Units} (whole : Reach a e) (end_ : e = []) (reads : Spells (a ++ x) k) :
    ∃ k' l, k = k' ++ l ∧ Spells a k' ∧ Spells x l := by
  induction whole generalizing k with
  | refl t =>
    subst end_
    exact ⟨[], k, rfl, .nil, reads⟩
  | @plain u t e other _ ih =>
    rcases reads.inv with ⟨is, -⟩ | ⟨u', x', k', is, rfl, slash, quoted, control, later⟩ |
      ⟨y, v, x', k', is, -, escape, -⟩
    · cases is
    · cases is
      obtain ⟨k₁, l, rfl, first, rest⟩ := ih end_ later
      exact ⟨u :: k₁, l, rfl, .plain slash quoted control first, rest⟩
    · exact absurd is (escape.not_plain other)
  | @escape y t e v escape _ ih =>
    rw [List.append_assoc] at reads
    rcases reads.inv with ⟨is, -⟩ | ⟨u', x', k', is, -, slash, -⟩ |
      ⟨y', v', x', k', is, rfl, escape', later⟩
    · obtain ⟨c, z, rfl⟩ := escape.head
      cases is
    · exact absurd is.symm (escape.not_plain slash)
    · obtain ⟨rfl, rfl, rfl⟩ := escape.unique escape' is
      obtain ⟨k₁, l, rfl, first, rest⟩ := ih end_ later
      exact ⟨v :: k₁, l, rfl, .escape escape first, rest⟩

theorem Spells.split_of {k' : Units} (reads : Spells x (k ++ k')) :
    ∃ y z, x = y ++ z ∧ Spells y k ∧ Spells z k' := by
  induction k generalizing x with
  | nil => exact ⟨[], x, rfl, .nil, reads⟩
  | cons v k ih =>
    rcases reads.inv with ⟨-, is⟩ | ⟨u, x', l, rfl, is, slash, quoted, control, later⟩ |
      ⟨y, v', x', l, rfl, is, escape, later⟩
    · cases is
    · cases is
      obtain ⟨y, z, rfl, first, rest⟩ := ih later
      exact ⟨v :: y, z, rfl, .plain slash quoted control first, rest⟩
    · cases is
      obtain ⟨y', z, rfl, first, rest⟩ := ih later
      exact ⟨y ++ y', z, (List.append_assoc ..).symm, .escape escape first, rest⟩

/-- A part of a text ends where an escape ends, or within one. -/
theorem Alive.whole {a c : Units} (alive : Alive (a ++ c)) : Reach a [] ∨
    ∃ z y v c', z <:+ a ∧ z ≠ [] ∧ y ≠ [] ∧ Escape (z ++ y) v ∧ c = y ++ c' := by
  induction length : a.length using Nat.strong_induction_on generalizing a with
  | h n ih =>
    cases a with
    | nil => exact .inl (.refl [])
    | cons u a =>
      by_cases slash : u = 92
      · subst slash
        obtain ⟨x, v, r, escape, is⟩ := alive (a ++ c) (.refl _)
        change (92 :: a) ++ c = x ++ r at is
        rcases List.append_eq_append_iff.mp is with ⟨y, rfl, rfl⟩ | ⟨b, whole, rfl⟩
        · by_cases none_ : y = []
          · subst none_
            rw [List.append_nil] at escape
            left
            have reach := Reach.escape escape (.refl [])
            rwa [List.append_nil] at reach
          · exact .inr ⟨92 :: a, y, v, r, List.suffix_rfl, List.cons_ne_nil _ _, none_, escape, rfl⟩
        · rw [whole] at alive length ⊢
          rw [List.append_assoc] at alive
          obtain ⟨_, _, rfl⟩ := escape.head
          have shorter : b.length < n := by
            rw [List.length_append, List.length_cons] at length
            omega
          rcases ih b.length shorter (alive.of_reach (.escape escape (.refl _))) rfl with
            reach | ⟨z, y, w, c', suffix_, some_, more, broken, rfl⟩
          · exact .inl (.escape escape reach)
          · exact .inr ⟨z, y, w, c', suffix_.trans (List.suffix_append ..), some_, more, broken,
              rfl⟩
      · have shorter : a.length < n := by
          rw [List.length_cons] at length
          omega
        rcases ih a.length shorter (alive.of_reach (.plain slash (.refl _))) rfl with
          reach | ⟨z, y, w, c', suffix_, some_, more, is, rfl⟩
        · exact .inl (.plain slash reach)
        · exact .inr ⟨z, y, w, c', suffix_.trans (List.suffix_cons ..), some_, more, is, rfl⟩

/-- Behind a part that cannot end within an escape there is none broken off. -/
theorem Alive.behind {p c : Units} (ends : endsInEscape p = false) (alive : Alive (p ++ c)) :
    Reach p [] := by
  rcases alive.whole with reach | ⟨z, y, v, c', suffix_, some_, more, escape, -⟩
  · exact reach
  · have broken : partialEscape z = true := by
      apply escape.partial_ (List.prefix_append z y) some_
      intro is
      exact more (List.self_eq_append_right.mp is)
    unfold endsInEscape at ends
    have off := List.any_eq_false.mp ends z ((List.mem_tails ..).mpr suffix_)
    exact absurd broken off

/-- The second code unit of an escape, and those after it. -/
theorem Escape.tail_ne (escape : Escape (x ++ y) v) (some_ : x ≠ []) (bracket : y = 91 :: t) :
    False := by
  have member : (91 : UInt16) ∈ (x ++ y).tail := by
    cases x with
    | nil => exact absurd rfl some_
    | cons u x =>
      subst bracket
      simp
  have short : unescape 91 = none := by decide
  have digit : hexValue 91 = none := by decide
  generalize x ++ y = text at escape member
  cases escape with
  | short reads =>
    rw [List.tail_cons, List.mem_singleton] at member
    rw [← member, short] at reads
    cases reads
  | hex a b c d =>
    simp only [List.tail_cons, List.mem_cons, List.not_mem_nil, or_false] at member
    rcases member with off | rfl | rfl | rfl | rfl
    · cases off
    · rw [digit] at a
      cases a
    · rw [digit] at b
      cases b
    · rw [digit] at c
      cases c
    · rw [digit] at d
      cases d

theorem Alive.before_bracket {a : Units} (alive : Alive (a ++ 91 :: t)) : Reach a [] := by
  rcases alive.whole with whole | ⟨z, y, v, c', -, opened, more, escape, is⟩
  · exact whole
  · cases y with
    | nil => exact absurd rfl more
    | cons u y =>
      rw [List.cons_append, List.cons.injEq] at is
      exact (escape.tail_ne opened (by rw [← is.1])).elim

theorem prefix_append_cases {a b : Units} (here : x <+: a ++ b) :
    x <+: a ∨ ∃ y, x = a ++ y ∧ y <+: b := by
  obtain ⟨c, is⟩ := here
  rcases List.append_eq_append_iff.mp is with ⟨d, rfl, -⟩ | ⟨d, rfl, rfl⟩
  · exact .inl (List.prefix_append x d)
  · exact .inr ⟨d, rfl, List.prefix_append d c⟩

variable {P : Units → Prop} {m e : Units}

/-- What is spelled after the replacements was spelled before. -/
theorem Redacts.reach_back (plain : 92 ∉ 91 :: m)
    (ends : ∀ p, P p → endsInEscape p = false) (apart : Apart k (91 :: m)) (some_ : k ≠ [])
    (redacts : Redacts P (91 :: m) t e) (before : Alive t) (after : Alive e) (reach : Reach e r)
    (reads : Spells x k) (here : x <+: r) : ∃ r', Reach t r' ∧ x <+: r' := by
  induction redacts generalizing r with
  | done t => exact ⟨r, reach, here⟩
  | @hit p b e a part _ ih =>
    have wholeM : Reach (91 :: m) [] := reach_of_plain plain
    have wholeA : Reach a [] := after.before_bracket
    have toP : Reach (a ++ (p ++ b)) (p ++ b) := wholeA.append (p ++ b)
    have toB : Reach (a ++ (p ++ b)) b := by
      have wholeP := (before.of_reach toP).behind (ends p part)
      exact toP.trans (wholeP.append b)
    have toE : Reach (a ++ (91 :: m ++ e)) e :=
      (wholeA.append (91 :: m ++ e)).trans (wholeM.append e)
    have later : Reach e r → ∃ r', Reach (a ++ (p ++ b)) r' ∧ x <+: r' := by
      intro within
      obtain ⟨r', reach', here'⟩ := ih (before.of_reach toB) (after.of_reach toE) within here
      exact ⟨r', toB.trans reach', here'⟩
    rcases wholeA.split rfl reach with ⟨a', within, rfl⟩ | behind
    · have stay : x <+: a' → ∃ r', Reach (a ++ (p ++ b)) r' ∧ x <+: r' := fun inside =>
        ⟨a' ++ (p ++ b), within.append _, inside.trans (List.prefix_append ..)⟩
      rcases prefix_append_cases here with inside | ⟨y, rfl, comes⟩
      · exact stay inside
      by_cases none_ : y = []
      · subst none_
        rw [List.append_nil] at stay
        rw [List.append_nil]
        exact stay List.prefix_rfl
      -- it would come to the marker
      exfalso
      have whole : Reach a' [] := (after.of_reach reach).before_bracket
      obtain ⟨k', l, rfl, -, rest⟩ := reads.split whole rfl
      rcases prefix_append_cases comes with inside | ⟨z, rfl, -⟩
      · have same := rest.of_plain fun slash => plain (inside.subset slash)
        subst same
        by_cases first : k' = []
        · subst first
          exact apart.outside inside.isInfix
        · apply apart.before y none_ _ (List.suffix_append ..) inside
          intro is
          exact first (List.self_eq_append_left.mp is)
      · obtain ⟨k₁, l', rfl, marked, -⟩ := rest.split wholeM rfl
        have same := marked.of_plain plain
        subst same
        exact apart.around ⟨k', l', by simp⟩
    · rcases wholeM.split rfl behind with ⟨m', within, rfl⟩ | behind
      · by_cases none_ : m' = []
        · subst none_
          exact later (.refl e)
        exfalso
        have part_ : m' <:+ 91 :: m := within.suffix
        have plain' : 92 ∉ m' := fun slash => plain (part_.subset slash)
        rcases prefix_append_cases here with inside | ⟨y, rfl, -⟩
        · have same := reads.of_plain fun slash => plain' (inside.subset slash)
          subst same
          exact apart.outside (inside.isInfix.trans part_.isInfix)
        · obtain ⟨k', l, rfl, first, -⟩ := reads.split (reach_of_plain plain') rfl
          have same := first.of_plain plain'
          subst same
          by_cases all : m' = 91 :: m
          · subst all
            exact apart.around (List.prefix_append ..).isInfix
          · exact apart.after m' none_ all part_ (List.prefix_append ..)
      · exact later behind

end Places

end Artoo.Lib
