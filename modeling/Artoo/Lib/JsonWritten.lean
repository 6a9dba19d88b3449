import Artoo.Lib.JsonOrder
import Artoo.Lib.Escapes

/-! How a written JSON text spells: each part of a string in one way. -/
namespace Artoo.Lib

/-- Texts in which strings are quoted. -/
inductive Written : Units → Prop
  | nil : Written []
  | plain {u : UInt16} {t : Units} : u ≠ 92 → u ≠ 34 → surrogate u = false → Written t →
      Written (u :: t)
  | string (s : Units) {t : Units} : Written t → Written (34 :: (escapedAll s ++ 34 :: t))

section Spelling

variable {x k s t c r ws : Units} {u v w : UInt16}

theorem escaped_cases (u : UInt16) :
    escaped u = [u] ∧ u ≠ 92 ∧ u ≠ 34 ∧ ¬ u < 32 ∧ surrogate u = false ∨ Escape (escaped u) u := by
  unfold escaped
  split
  · rename_i is
    subst is
    exact .inr (.short (by decide))
  split
  · rename_i is
    subst is
    exact .inr (.short (by decide))
  split
  · rename_i is
    subst is
    exact .inr (.short (by decide))
  split
  · rename_i is
    subst is
    exact .inr (.short (by decide))
  split
  · rename_i is
    subst is
    exact .inr (.short (by decide))
  split
  · rename_i is
    rw [Bool.or_eq_true, decide_eq_true_iff, decide_eq_true_iff] at is
    rcases is with rfl | rfl
    · exact .inr (.short (by decide))
    · exact .inr (.short (by decide))
  split
  · right
    have short : units "\\u" = [92, 117] := by decide
    have range := u.toNat_lt
    have first := hexValue_hexUnit (d := u.toNat / 4096) (by omega)
    have second := hexValue_hexUnit (d := u.toNat / 256 % 16) (by omega)
    have third := hexValue_hexUnit (d := u.toNat / 16 % 16) (by omega)
    have fourth := hexValue_hexUnit (d := u.toNat % 16) (by omega)
    have value : 16 * (16 * (16 * (16 * 0 + u.toNat / 4096) + u.toNat / 256 % 16) +
        u.toNat / 16 % 16) + u.toNat % 16 = u.toNat := by omega
    have escape := Escape.hex first second third fourth
    rw [value, UInt16.ofNat_toNat] at escape
    rw [short]
    exact escape
  · rename_i plain hex
    left
    rw [Bool.or_eq_true, decide_eq_true_iff, decide_eq_true_iff, not_or] at plain
    rw [Bool.or_eq_true, decide_eq_true_iff, not_or, Bool.not_eq_true] at hex
    exact ⟨rfl, plain.2, plain.1, hex.1, hex.2⟩

theorem escaped_plain (slash : u ≠ 92) (quoted : u ≠ 34) (control : ¬ u < 32)
    (plain : surrogate u = false) : escaped u = [u] := by
  have low : ∀ v : UInt16, v < 32 → u ≠ v := by
    rintro v small rfl
    exact control small
  unfold escaped
  rw [if_neg (low 8 (by decide)), if_neg (low 9 (by decide)), if_neg (low 10 (by decide)),
    if_neg (low 12 (by decide)), if_neg (low 13 (by decide)), if_neg, if_neg]
  · rw [plain, Bool.or_false, decide_eq_true_iff]
    exact control
  · rw [Bool.or_eq_true, decide_eq_true_iff, decide_eq_true_iff, not_or]
    exact ⟨quoted, slash⟩

theorem escapedAll_plain (plain : surrogate u = false) :
    escapedAll (u :: k) = escaped u ++ escapedAll k := by
  cases k with
  | nil => exact (List.append_nil _).symm
  | cons v k =>
    rw [escapedAll, if_neg]
    rw [not_high_of_plain plain]
    exact Bool.false_ne_true

/-- The first of a string, as it is written. -/
theorem escapedAll_cases (w : UInt16) (ws : Units) :
    (∃ v rest, ws = v :: rest ∧ highSurrogate w = true ∧ lowSurrogate v = true ∧
      escapedAll (w :: ws) = w :: v :: escapedAll rest) ∨
      (∀ v rest, ws = v :: rest → highSurrogate w = true → lowSurrogate v = false) ∧
        escapedAll (w :: ws) = escaped w ++ escapedAll ws := by
  cases ws with
  | nil => exact .inr ⟨fun _ _ off => (by cases off), (List.append_nil _).symm⟩
  | cons v rest =>
    by_cases pair : (highSurrogate w && lowSurrogate v) = true
    · left
      rw [escapedAll, if_pos pair]
      rw [Bool.and_eq_true] at pair
      exact ⟨v, rest, rfl, pair.1, pair.2, rfl⟩
    · right
      rw [escapedAll, if_neg pair]
      refine ⟨?_, rfl⟩
      rintro v' rest' is high
      cases is
      rw [high, Bool.true_and, Bool.not_eq_true] at pair
      exact pair

theorem reach_escaped (reach : Reach (escaped u ++ c) r) : r = escaped u ++ c ∨ Reach c r := by
  rcases escaped_cases u with ⟨is, slash, -⟩ | escape
  · rw [is] at reach ⊢
    rcases reach.inv with same | ⟨u', t, same, -, later⟩ | ⟨x, v, t, same, escape, -⟩
    · exact .inl same
    · cases same
      exact .inr later
    · exact absurd same (escape.not_plain slash)
  · rcases reach.inv with same | ⟨u', t, same, slash, -⟩ | ⟨x, v, t, same, escape', later⟩
    · exact .inl same
    · exact absurd same.symm (escape.not_plain slash)
    · obtain ⟨-, -, rfl⟩ := escape.unique escape' same
      exact .inr later

/-- What is spelled first is what is written first. -/
theorem spells_escaped (spells : Spells x (u :: k)) (here : x <+: escaped w ++ c) :
    u = w ∧ ∃ x', x = escaped w ++ x' ∧ Spells x' k ∧ x' <+: c := by
  obtain ⟨rest, is⟩ := here
  rcases spells.inv with ⟨-, off⟩ | ⟨u', x', k', rfl, same, slash, -, -, later⟩ |
    ⟨y, v, x', k', rfl, same, escape, later⟩
  · cases off
  · cases same
    rcases escaped_cases w with ⟨plain, -⟩ | escape
    · rw [plain] at is ⊢
      cases is
      exact ⟨rfl, x', rfl, later, List.prefix_append ..⟩
    · exact absurd is (escape.not_plain slash)
  · cases same
    rw [List.append_assoc] at is
    rcases escaped_cases w with ⟨plain, slash, -⟩ | escape'
    · rw [plain] at is
      exact absurd is.symm (escape.not_plain slash)
    · obtain ⟨rfl, rfl, rfl⟩ := escape.unique escape' is
      exact ⟨rfl, x', rfl, later, List.prefix_append ..⟩

theorem spells_raw (spells : Spells x (u :: k)) (here : x <+: w :: c) (slash : w ≠ 92) :
    u = w ∧ ∃ x', x = w :: x' ∧ Spells x' k ∧ x' <+: c := by
  obtain ⟨rest, is⟩ := here
  rcases spells.inv with ⟨-, off⟩ | ⟨u', x', k', rfl, same, -, -, -, later⟩ |
    ⟨y, v, x', k', rfl, same, escape, later⟩
  · cases off
  · cases same
    cases is
    exact ⟨rfl, x', rfl, later, List.prefix_append ..⟩
  · rw [List.append_assoc] at is
    exact absurd is.symm (escape.not_plain slash)

theorem surrogate_not_slash (is : surrogate u = true) : u ≠ 92 := by
  rintro rfl
  cases is

theorem surrogate_of_high (high : highSurrogate u = true) : surrogate u = true := by
  rw [highSurrogate_iff] at high
  rw [surrogate_iff]
  omega

theorem surrogate_of_low (low : lowSurrogate u = true) : surrogate u = true := by
  rw [lowSurrogate_iff] at low
  rw [surrogate_iff]
  omega

theorem not_high_low (high : highSurrogate u = true) (low : lowSurrogate u = true) : False := by
  rw [highSurrogate_iff] at high
  rw [lowSurrogate_iff] at low
  omega

theorem spells_quote (spells : Spells x (u :: k)) (here : x <+: 34 :: c) : False := by
  obtain ⟨rest, is⟩ := here
  rcases spells.inv with ⟨-, off⟩ | ⟨u', x', k', rfl, -, -, quoted, -⟩ |
    ⟨y, v, x', k', rfl, -, escape, -⟩
  · cases off
  · cases is
    exact quoted rfl
  · rw [List.append_assoc] at is
    exact absurd is.symm (escape.not_plain (by decide))

/-- In a string each part is spelled as it is written. -/
theorem spells_escapedAll (paired : Paired k) (spells : Spells x k)
    (here : x <+: escapedAll s ++ 34 :: t) : x = escapedAll k := by
  induction paired generalizing x s with
  | nil =>
    rcases spells.inv with ⟨rfl, -⟩ | ⟨_, _, _, -, off, -⟩ | ⟨_, _, _, _, -, off, -⟩
    · rfl
    · cases off
    · cases off
  | @unit u k plain _ ih =>
    cases s with
    | nil => exact (spells_quote spells here).elim
    | cons w ws =>
      rcases escapedAll_cases w ws with ⟨v, rest, rfl, high, -, is⟩ | ⟨-, is⟩
      · rw [is] at here
        have slash := surrogate_not_slash (surrogate_of_high high)
        obtain ⟨rfl, -⟩ := spells_raw spells here slash
        rw [surrogate_of_high high] at plain
        cases plain
      · rw [is, List.append_assoc] at here
        obtain ⟨rfl, x', rfl, later, here'⟩ := spells_escaped spells here
        rw [escapedAll_plain plain, ih later here']
  | @pair h l k high low _ ih =>
    cases s with
    | nil => exact (spells_quote spells here).elim
    | cons w ws =>
      rcases escapedAll_cases w ws with ⟨v, rest, rfl, high', low', is⟩ | ⟨alone, is⟩
      · rw [is] at here
        obtain ⟨rfl, x', rfl, later, here'⟩ :=
          spells_raw spells here (surrogate_not_slash (surrogate_of_high high'))
        obtain ⟨rfl, x'', rfl, later', here''⟩ :=
          spells_raw later here' (surrogate_not_slash (surrogate_of_low low'))
        rw [ih later' here'', escapedAll, if_pos]
        rw [high, low]
        rfl
      · -- a high surrogate alone, which no low one follows
        exfalso
        rw [is, List.append_assoc] at here
        obtain ⟨rfl, x', rfl, later, here'⟩ := spells_escaped spells here
        cases ws with
        | nil => exact spells_quote later here'
        | cons v rest =>
          have single := alone v rest rfl high
          rcases escapedAll_cases v rest with ⟨v', rest', rfl, high', -, is'⟩ | ⟨-, is'⟩
          · rw [is'] at here'
            obtain ⟨rfl, -⟩ :=
              spells_raw later here' (surrogate_not_slash (surrogate_of_high high'))
            exact not_high_low high' low
          · rw [is', List.append_assoc] at here'
            obtain ⟨rfl, -⟩ := spells_escaped later here'
            rw [low] at single
            cases single

theorem reach_escapedAll (reach : Reach (escapedAll s ++ c) r) : Reach c r ∨
    (∃ s', r = escapedAll s' ++ c) ∨ ∃ l t, lowSurrogate l = true ∧ r = l :: t := by
  induction length : s.length using Nat.strong_induction_on generalizing s with
  | h n ih =>
    cases s with
    | nil => exact .inl reach
    | cons w ws =>
      rcases escapedAll_cases w ws with ⟨v, rest, rfl, high, low, is⟩ | ⟨-, is⟩
      · have whole := is
        rw [is] at reach
        rcases reach.inv with rfl | ⟨u, t, same, -, later⟩ | ⟨x, u, t, same, escape, -⟩
        · exact .inr (.inl ⟨w :: v :: rest, by rw [whole]⟩)
        · cases same
          rcases later.inv with rfl | ⟨u, t, same, -, later⟩ | ⟨x, u, t, same, escape, -⟩
          · exact .inr (.inr ⟨v, _, low, rfl⟩)
          · cases same
            have less : rest.length < n := by
              rw [List.length_cons, List.length_cons] at length
              omega
            exact ih rest.length less later rfl
          · exact absurd same (escape.not_plain (surrogate_not_slash (surrogate_of_low low)))
        · exact absurd same (escape.not_plain (surrogate_not_slash (surrogate_of_high high)))
      · have whole := is
        rw [is, List.append_assoc] at reach
        rcases reach_escaped reach with rfl | later
        · exact .inr (.inl ⟨w :: ws, by rw [whole, List.append_assoc]⟩)
        · have less : ws.length < n := by
            rw [List.length_cons] at length
            omega
          exact ih ws.length less later rfl

theorem Written.outside (written : Written t) (spells : Spells x k) (here : x <+: t) :
    x = escapedAll k := by
  have empty : k = [] → x = escapedAll k := by
    rintro rfl
    rcases spells.inv with ⟨rfl, -⟩ | ⟨_, _, _, -, off, -⟩ | ⟨_, _, _, _, -, off, -⟩
    · rfl
    · cases off
    · cases off
  induction written generalizing x k with
  | nil =>
    rw [List.prefix_nil] at here
    subst here
    exact empty (spells.of_plain List.not_mem_nil).symm
  | @plain u t slash quoted plain _ ih =>
    cases k with
    | nil => exact empty rfl
    | cons v k =>
      obtain ⟨rest, is⟩ := here
      rcases spells.inv with ⟨-, off⟩ | ⟨u', x', k', rfl, same, -, -, control, later⟩ |
        ⟨y, w, x', k', rfl, -, escape, -⟩
      · cases off
      · cases same
        cases is
        have empty' : k = [] → x' = escapedAll k := by
          rintro rfl
          rcases later.inv with ⟨rfl, -⟩ | ⟨_, _, _, -, off, -⟩ | ⟨_, _, _, _, -, off, -⟩
          · rfl
          · cases off
          · cases off
        rw [escapedAll_plain plain, escaped_plain slash quoted control plain,
          ← ih later (List.prefix_append ..) empty']
        rfl
      · rw [List.append_assoc] at is
        exact absurd is.symm (escape.not_plain slash)
  | string s _ _ =>
    cases k with
    | nil => exact empty rfl
    | cons v k => exact (spells_quote spells here).elim

/-- Whatever a written text spells it spells as a string is written. -/
theorem Written.spells (written : Written t) (paired : Paired k) (some_ : k ≠ [])
    (reach : Reach t r) (spells : Spells x k) (here : x <+: r) : x = escapedAll k := by
  induction written generalizing r with
  | nil =>
    have same := List.suffix_nil.mp reach.suffix
    subst same
    exact Written.nil.outside spells here
  | @plain u t slash quoted plain written ih =>
    rcases reach.inv with rfl | ⟨u', t', same, -, later⟩ | ⟨y, v, t', same, escape, -⟩
    · exact (Written.plain slash quoted plain written).outside spells here
    · cases same
      exact ih later here
    · exact absurd same (escape.not_plain slash)
  | @string s t written ih =>
    have quoted : (34 : UInt16) ≠ 92 := by decide
    have behind : Reach (34 :: t) r → x = escapedAll k := by
      intro reach
      rcases reach.inv with rfl | ⟨u, t', same, -, later⟩ | ⟨y, v, t', same, escape, -⟩
      · cases k with
        | nil => exact absurd rfl some_
        | cons u k => exact (spells_quote spells here).elim
      · cases same
        exact ih later here
      · exact absurd same (escape.not_plain quoted)
    rcases reach.inv with rfl | ⟨u, t', same, -, later⟩ | ⟨y, v, t', same, escape, -⟩
    · exact (Written.string s written).outside spells here
    · cases same
      rcases reach_escapedAll later with later | ⟨s', rfl⟩ | ⟨l, t', low, rfl⟩
      · exact behind later
      · exact spells_escapedAll paired spells here
      · exfalso
        cases paired with
        | nil => exact some_ rfl
        | unit plain _ =>
          obtain ⟨rfl, -⟩ := spells_raw spells here (surrogate_not_slash (surrogate_of_low low))
          rw [surrogate_of_low low] at plain
          cases plain
        | pair high _ _ =>
          obtain ⟨rfl, -⟩ := spells_raw spells here (surrogate_not_slash (surrogate_of_low low))
          exact not_high_low high low
    · exact absurd same (escape.not_plain quoted)

end Spelling

/-! ## Values -/

theorem Written.append {s t : Units} (first : Written s) (second : Written t) :
    Written (s ++ t) := by
  induction first with
  | nil => exact second
  | plain slash quoted plain _ ih => exact .plain slash quoted plain ih
  | string s _ ih =>
    rw [List.cons_append, List.append_assoc]
    exact .string s ih

theorem written_of_plain {t : Units} (each : ∀ u ∈ t, u ≠ 92 ∧ u ≠ 34 ∧ surrogate u = false) :
    Written t := by
  induction t with
  | nil => exact .nil
  | cons u t ih =>
    obtain ⟨slash, quoted, plain⟩ := each u List.mem_cons_self
    exact .plain slash quoted plain (ih fun v among => each v (List.mem_cons_of_mem _ among))

theorem written_of_all {t : Units}
    (all : (t.all fun u => u != 92 && u != 34 && !surrogate u) = true) : Written t := by
  apply written_of_plain
  intro u among
  have plain := List.all_eq_true.mp all u among
  rw [Bool.and_eq_true, Bool.and_eq_true, bne_iff_ne, bne_iff_ne, Bool.not_eq_true'] at plain
  exact ⟨plain.1.1, plain.1.2, plain.2⟩

theorem written_quote (s : Units) : Written (quote s) := .string s .nil

theorem written_joined {texts : List Units} (each : ∀ t ∈ texts, Written t) :
    Written (joined texts) := by
  induction texts with
  | nil => exact .nil
  | cons t texts ih =>
    have first := each t List.mem_cons_self
    cases texts with
    | nil =>
      rw [joined_singleton]
      exact first
    | cons t' texts =>
      rw [joined_cons_cons]
      have rest := ih fun t'' among => each t'' (List.mem_cons_of_mem _ among)
      exact first.append (.plain (by decide) (by decide) (by decide) rest)

theorem mem_itemTexts {xs : List JsValue} {t : Units} (among : t ∈ itemTexts xs) :
    ∃ x ∈ xs, t = x.text := by
  induction xs with
  | nil => cases among
  | cons x xs ih =>
    rcases List.mem_cons.mp among with rfl | later
    · exact ⟨x, List.mem_cons_self, rfl⟩
    · obtain ⟨y, there, is⟩ := ih later
      exact ⟨y, List.mem_cons_of_mem _ there, is⟩

theorem mem_memberTexts {ms : List (Units × JsValue)} {m : Units × Units}
    (among : m ∈ memberTexts ms) : ∃ n ∈ ms, m = (n.1, n.2.text) := by
  induction ms with
  | nil => cases among
  | cons n ms ih =>
    rcases List.mem_cons.mp among with rfl | later
    · exact ⟨n, List.mem_cons_self, rfl⟩
    · obtain ⟨k, there, is⟩ := ih later
      exact ⟨k, List.mem_cons_of_mem _ there, is⟩

/-- A value is written with its strings quoted. -/
theorem written_text {v : JsValue} (plain : v.Plain) : Written v.text := by
  induction plain with
  | null => exact written_of_all rfl
  | bool b => cases b <;> exact written_of_all rfl
  | @number negative m sign =>
    apply written_of_plain
    intro u among
    obtain ⟨c, there, rfl⟩ := List.mem_map.mp among
    have range := numberUnit_range (numberUnit_unit (text_chars c there)).1
    refine ⟨?_, ?_, ?_⟩
    · rw [ne_eq, eq_iff_toNat]
      change ¬ (unit c).toNat = 92
      omega
    · rw [ne_eq, eq_iff_toNat]
      change ¬ (unit c).toNat = 34
      omega
    · rw [← Bool.not_eq_true, surrogate_iff]
      omega
  | string s => exact written_quote s
  | @array xs _ ih =>
    have items : Written (joined (itemTexts xs)) := by
      apply written_joined
      intro t among
      obtain ⟨x, there, rfl⟩ := mem_itemTexts among
      exact ih x there
    have closed := items.append (.plain (u := 93) (by decide) (by decide) (by decide) .nil)
    exact .plain (by decide) (by decide) (by decide) closed
  | @object ms _ _ ih =>
    have members : Written (joined ((memberTexts ms).map fun m => quote m.1 ++ 58 :: m.2)) := by
      apply written_joined
      intro t among
      obtain ⟨m, there, rfl⟩ := List.mem_map.mp among
      obtain ⟨n, among', rfl⟩ := mem_memberTexts there
      exact (written_quote n.1).append (.plain (by decide) (by decide) (by decide) (ih n among'))
    have closed := members.append (.plain (u := 125) (by decide) (by decide) (by decide) .nil)
    exact .plain (by decide) (by decide) (by decide) closed

end Artoo.Lib
