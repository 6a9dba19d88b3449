import Mathlib.Data.List.Infix
import Mathlib.Data.List.Basic

/-! The replacement of a part of a text by a marker, one occurrence after another from the left. -/
namespace Artoo.Lib

section Parts

variable {α : Type} {p m a b x y : List α}

/-- The two cannot touch: neither is in the other, and no end of one begins the other. -/
structure Apart (p m : List α) : Prop where
  outside : ¬ p <:+: m
  around : ¬ m <:+: p
  before : ∀ s, s ≠ [] → s ≠ p → s <:+ p → ¬ s <+: m
  after : ∀ s, s ≠ [] → s ≠ m → s <:+ m → ¬ s <+: p

instance [DecidableEq α] : Decidable (Apart p m) :=
  decidable_of_iff (¬ p <:+: m ∧ ¬ m <:+: p ∧
      (p.tails.all fun s => decide (s = [] ∨ s = p ∨ ¬ s <+: m)) = true ∧
      (m.tails.all fun s => decide (s = [] ∨ s = m ∨ ¬ s <+: p)) = true) <| by
    simp only [List.all_eq_true, decide_eq_true_eq, List.mem_tails]
    constructor
    · rintro ⟨outside, around, before, after⟩
      refine ⟨outside, around, ?_, ?_⟩
      · intro s some_ less ends
        exact ((before s ends).resolve_left some_).resolve_left less
      · intro s some_ less ends
        exact ((after s ends).resolve_left some_).resolve_left less
    · rintro ⟨outside, around, before, after⟩
      refine ⟨outside, around, ?_, ?_⟩
      · intro s ends
        by_cases none_ : s = []
        · exact .inl none_
        by_cases whole : s = p
        · exact .inr (.inl whole)
        exact .inr (.inr (before s none_ whole ends))
      · intro s ends
        by_cases none_ : s = []
        · exact .inl none_
        by_cases whole : s = m
        · exact .inr (.inl whole)
        exact .inr (.inr (after s none_ whole ends))

/-- A part of a text with a marker stands before or after the marker. -/
theorem Apart.split (apart : Apart p m) (is : x ++ (p ++ y) = a ++ (m ++ b)) :
    (∃ c, a = x ++ (p ++ c) ∧ y = c ++ (m ++ b)) ∨
      ∃ c, x = a ++ (m ++ c) ∧ b = c ++ (p ++ y) := by
  rw [List.append_eq_append_iff] at is
  rcases is with ⟨c, rfl, is⟩ | ⟨c, rfl, is⟩
  · left
    rw [List.append_eq_append_iff] at is
    rcases is with ⟨d, rfl, is⟩ | ⟨d, rfl, is⟩
    · exact ⟨d, rfl, is⟩
    · by_cases none_ : d = []
      · subst none_
        exact ⟨[], by simp, is.symm⟩
      exfalso
      rw [List.append_eq_append_iff] at is
      rcases is with ⟨e, rfl, -⟩ | ⟨e, rfl, -⟩
      · exact apart.around ⟨c, e, by simp⟩
      · by_cases whole : c = []
        · subst whole
          exact apart.outside ⟨[], e, rfl⟩
        · apply apart.before d none_ _ ⟨c, rfl⟩ ⟨e, rfl⟩
          intro same
          exact whole (List.self_eq_append_left.mp same)
  · right
    rw [List.append_eq_append_iff] at is
    rcases is with ⟨d, rfl, is⟩ | ⟨d, rfl, is⟩
    · exact ⟨d, rfl, is⟩
    · by_cases none_ : d = []
      · subst none_
        exact ⟨[], by simp, is.symm⟩
      exfalso
      rw [List.append_eq_append_iff] at is
      rcases is with ⟨e, rfl, -⟩ | ⟨e, rfl, -⟩
      · exact apart.outside ⟨c, e, by simp⟩
      · by_cases whole : c = []
        · subst whole
          exact apart.around ⟨[], e, rfl⟩
        · apply apart.after d none_ _ ⟨c, rfl⟩ ⟨e, rfl⟩
          intro same
          exact whole (List.self_eq_append_left.mp same)

theorem Apart.infix_of (apart : Apart p m) (found : p <:+: a ++ (m ++ b)) :
    p <:+: a ∨ p <:+: b := by
  obtain ⟨x, y, is⟩ := found
  rw [List.append_assoc] at is
  rcases apart.split is with ⟨c, rfl, -⟩ | ⟨c, -, rfl⟩
  · exact .inl ⟨x, c, List.append_assoc ..⟩
  · exact .inr ⟨c, y, List.append_assoc ..⟩

end Parts

section Replacing

variable {α : Type} [DecidableEq α]

/-- `skip` code units belong to the occurrence before. -/
def replaceFrom (p m : List α) : ℕ → List α → List α
  | _, [] => []
  | skip + 1, _ :: us => replaceFrom p m skip us
  | 0, u :: us =>
    if p <+: u :: us then m ++ replaceFrom p m (p.length - 1) us else u :: replaceFrom p m 0 us

/-- `replaceAll`, of a part that is not empty. -/
def replaceAll (p m text : List α) : List α := replaceFrom p m 0 text

variable {p m q : List α}

theorem replaceFrom_append (x y : List α) :
    replaceFrom p m x.length (x ++ y) = replaceAll p m y := by
  induction x with
  | nil => rfl
  | cons u x ih => exact ih

theorem replaceAll_prefix (some_ : p ≠ []) (b : List α) :
    replaceAll p m (p ++ b) = m ++ replaceAll p m b := by
  cases p with
  | nil => exact absurd rfl some_
  | cons u p =>
    have here : u :: p <+: u :: (p ++ b) := List.prefix_append (u :: p) b
    change replaceFrom (u :: p) m 0 (u :: (p ++ b)) = _
    rw [replaceFrom, if_pos here, List.length_cons, Nat.add_sub_cancel, replaceFrom_append]

/-- The first occurrence. -/
theorem replaceAll_first (some_ : p ≠ []) (text : List α) :
    ¬ p <:+: text ∧ replaceAll p m text = text ∨
      ∃ a b, text = a ++ (p ++ b) ∧ ¬ p <:+: a ∧
        replaceAll p m text = a ++ (m ++ replaceAll p m b) := by
  induction text with
  | nil => exact .inl ⟨fun found => some_ (List.infix_nil.mp found), rfl⟩
  | cons u us ih =>
    by_cases here : p <+: u :: us
    · obtain ⟨b, is⟩ := here
      right
      refine ⟨[], b, is.symm, fun found => some_ (List.infix_nil.mp found), ?_⟩
      rw [← is, replaceAll_prefix some_]
      rfl
    · have step : replaceAll p m (u :: us) = u :: replaceAll p m us := by
        unfold replaceAll
        rw [replaceFrom, if_neg here]
      rw [step]
      rcases ih with ⟨none_, same⟩ | ⟨a, b, rfl, none_, is⟩
      · left
        rw [same, List.infix_cons_iff, not_or]
        exact ⟨⟨here, none_⟩, rfl⟩
      · right
        refine ⟨u :: a, b, rfl, ?_, by rw [is]; rfl⟩
        rw [List.infix_cons_iff, not_or]
        refine ⟨fun begins => here ?_, none_⟩
        exact begins.trans (List.prefix_append (u :: a) (p ++ b))

/-- What a text does not have, and the part itself, is not in the text afterwards. -/
theorem not_infix_replaceAll (some_ : p ≠ []) (apart : Apart q m) {text : List α}
    (or_ : q = p ∨ ¬ q <:+: text) : ¬ q <:+: replaceAll p m text := by
  induction length : text.length using Nat.strong_induction_on generalizing text with
  | h n ih =>
    rcases replaceAll_first (m := m) some_ text with ⟨none_, same⟩ | ⟨a, b, rfl, none_, is⟩
    · rw [same]
      rcases or_ with rfl | free
      · exact none_
      · exact free
    · rw [is]
      intro found
      rcases apart.infix_of found with before | behind
      · rcases or_ with rfl | free
        · exact none_ before
        · exact free (before.trans (List.prefix_append a _).isInfix)
      · have shorter : b.length < n := by
          have positive := List.length_pos_of_ne_nil some_
          rw [List.length_append, List.length_append] at length
          omega
        apply ih b.length shorter _ rfl behind
        refine or_.imp_right fun free within => free ?_
        rw [← List.append_assoc]
        exact within.trans (List.suffix_append _ b).isInfix

end Replacing

/-! ## What the replacements come to -/

section Hits

variable {α : Type} {P : List α → Prop} {m : List α}

/-- Parts of a text are replaced, each in the text as it was. -/
inductive Redacts (P : List α → Prop) (m : List α) : List α → List α → Prop
  | done (t : List α) : Redacts P m t t
  | hit {p b e : List α} (a : List α) : P p → Redacts P m b e →
      Redacts P m (a ++ (p ++ b)) (a ++ (m ++ e))

theorem Redacts.mono {P' : List α → Prop} {t e : List α} (redacts : Redacts P m t e)
    (weaker : ∀ p, P p → P' p) : Redacts P' m t e := by
  induction redacts with
  | done t => exact .done t
  | hit a part _ ih => exact .hit a (weaker _ part) ih

theorem Redacts.again (apart : ∀ p, P p → Apart p m) {t e a p b : List α}
    (redacts : Redacts P m t e) (part : P p) (is : a ++ (p ++ b) = e) :
    Redacts P m t (a ++ (m ++ b)) := by
  induction redacts generalizing a b with
  | done t =>
    subst is
    exact .hit a part (.done b)
  | @hit q b' e' a' other _ ih =>
    rcases (apart p part).split is with ⟨c, rfl, rfl⟩ | ⟨c, rfl, rfl⟩
    · rename_i rest
      have inner := Redacts.hit a part (Redacts.hit c other rest)
      simpa using inner
    · have inner := Redacts.hit a' other (ih rfl)
      simpa using inner

theorem Redacts.replaceAll [DecidableEq α] (apart : ∀ p, P p → Apart p m) {t c e p : List α}
    (some_ : p ≠ []) (part : P p) (redacts : Redacts P m t (c ++ e)) :
    Redacts P m t (c ++ replaceAll p m e) := by
  induction length : e.length using Nat.strong_induction_on generalizing c e with
  | h n ih =>
    rcases replaceAll_first (m := m) some_ e with ⟨-, same⟩ | ⟨a, b, rfl, -, is⟩
    · rw [same]
      exact redacts
    · have shorter : b.length < n := by
        have positive := List.length_pos_of_ne_nil some_
        rw [List.length_append, List.length_append] at length
        omega
      have hit := redacts.again apart (a := c ++ a) part (List.append_assoc ..)
      have all := ih b.length shorter (c := c ++ (a ++ m)) (by simpa using hit) rfl
      rw [is]
      simpa using all

end Hits

end Artoo.Lib
