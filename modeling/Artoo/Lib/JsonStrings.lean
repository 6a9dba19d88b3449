import Artoo.Lib.Escapes

/-! The strings of a JSON text: those of its tokens and of the value that is read, and how the text
spells them. -/
namespace Artoo.Lib

/-- Not within an escape. -/
def Mode.settled : Mode → Bool
  | .escape _ | .hex _ _ _ => false
  | _ => true

/-- Outside the strings. -/
def Mode.outside : Mode → Bool
  | .between | .number _ | .word _ => true
  | _ => false

section Tokens

variable {mode : Mode} {back t r x k : Units} {u v : UInt16} {tokens : List Token}

theorem enter_outside {entry : Option Token × Mode} (is : enter u = some entry) :
    u ≠ 92 ∧ (∀ s, entry.1 ≠ some (.string s)) ∧
      (u = 34 ∧ entry.2 = .string [] ∨ u ≠ 34 ∧ entry.2.outside = true) := by
  have slash : u ≠ 92 := by
    rintro rfl
    cases is
  refine ⟨slash, ?_⟩
  by_cases quoted : u = 34
  · subst quoted
    cases is
    exact ⟨fun _ off => (by cases off), .inl ⟨rfl, rfl⟩⟩
  unfold enter at is
  by_cases white : whiteSpace u = true
  · rw [if_pos white] at is
    cases is
    exact ⟨fun _ off => (by cases off), .inr ⟨quoted, rfl⟩⟩
  rw [if_neg white] at is
  cases found : punctuation u with
  | some token =>
    rw [found] at is
    cases is
    refine ⟨?_, .inr ⟨quoted, rfl⟩⟩
    rintro s same
    cases same
    unfold punctuation at found
    split_ifs at found <;> cases found
  | none =>
    rw [found] at is
    dsimp only at is
    rw [if_neg quoted] at is
    split_ifs at is
    · cases is
      exact ⟨fun _ off => (by cases off), .inr ⟨quoted, rfl⟩⟩
    · cases is
      exact ⟨fun _ off => (by cases off), .inr ⟨quoted, rfl⟩⟩

theorem numberToken_outside {token : Token} (is : numberToken back = some token) (s : Units) :
    token ≠ .string s := by
  rintro rfl
  unfold numberToken at is
  obtain ⟨x, -, off⟩ := Option.map_eq_some_iff.mp is
  cases off

theorem wordToken_outside {token : Token} (is : wordToken back = some token) (s : Units) :
    token ≠ .string s := by
  rintro rfl
  unfold wordToken at is
  split_ifs at is <;> cases is

/-- A code unit outside the strings. -/
theorem tokens_outside (outside : mode.outside = true)
    (is : tokensFrom mode (u :: t) = some tokens) :
    u ≠ 92 ∧ ∃ mode' tokens', tokensFrom mode' t = some tokens' ∧
      (∀ s, .string s ∈ tokens ↔ .string s ∈ tokens') ∧
      (u = 34 ∧ mode' = .string [] ∨ u ≠ 34 ∧ mode'.outside = true) := by
  have entered : ∀ {before : List Token} {tokens : List Token},
      (∀ s, Token.string s ∉ before) →
      ((enter u).bind fun e => (tokensFrom e.2 t).map (before ++ e.1.toList ++ ·)) = some tokens →
      u ≠ 92 ∧ ∃ mode' tokens', tokensFrom mode' t = some tokens' ∧
        (∀ s, .string s ∈ tokens ↔ .string s ∈ tokens') ∧
        (u = 34 ∧ mode' = .string [] ∨ u ≠ 34 ∧ mode'.outside = true) := by
    intro before tokens none_ is
    obtain ⟨entry, found, is⟩ := Option.bind_eq_some_iff.mp is
    obtain ⟨tokens', rest, rfl⟩ := Option.map_eq_some_iff.mp is
    obtain ⟨slash, noString, next⟩ := enter_outside found
    refine ⟨slash, entry.2, tokens', rest, ?_, next⟩
    intro s
    rw [List.mem_append, List.mem_append]
    constructor
    · rintro ((among | among) | among)
      · exact absurd among (none_ s)
      · exact absurd (Option.mem_toList.mp among) (noString s)
      · exact among
    · exact .inr
  cases mode with
  | between =>
    rw [tokens_between] at is
    exact entered (fun _ => List.not_mem_nil) is
  | number back =>
    rw [tokens_number_cons] at is
    split_ifs at is with number
    · refine ⟨?_, .number (u :: back), tokens, is, fun _ => Iff.rfl, .inr ⟨?_, rfl⟩⟩
      · rintro rfl
        cases number
      · rintro rfl
        cases number
    · obtain ⟨token, found, is⟩ := Option.bind_eq_some_iff.mp is
      apply @entered [token] _ _ is
      intro s among
      exact numberToken_outside found s (List.mem_singleton.mp among).symm
  | word back =>
    rw [tokens_word_cons] at is
    split_ifs at is with word
    · refine ⟨?_, .word (u :: back), tokens, is, fun _ => Iff.rfl, .inr ⟨?_, rfl⟩⟩
      · rintro rfl
        cases word
      · rintro rfl
        cases word
    · obtain ⟨token, found, is⟩ := Option.bind_eq_some_iff.mp is
      apply @entered [token] _ _ is
      intro s among
      exact wordToken_outside found s (List.mem_singleton.mp among).symm
  | string back => cases outside
  | escape back => cases outside
  | hex back count value => cases outside

/-- A backslash in a string begins an escape. -/
theorem tokens_slash (is : tokensFrom (.string back) (92 :: t) = some tokens) :
    ∃ x v r, Escape x v ∧ 92 :: t = x ++ r ∧ tokensFrom (.string (v :: back)) r = some tokens := by
  rw [tokens_string_cons, if_neg (by decide), if_pos rfl] at is
  cases t with
  | nil => cases is
  | cons c t =>
    rw [tokensFrom] at is
    split_ifs at is with hex
    · subst hex
      rcases t with _ | ⟨a, _ | ⟨b, _ | ⟨c, _ | ⟨d, t⟩⟩⟩⟩
      · cases is
      all_goals
        rw [tokens_hex_cons] at is
        obtain ⟨i, first, is⟩ := Option.bind_eq_some_iff.mp is
        rw [if_neg (by decide)] at is
      · cases is
      all_goals
        rw [tokens_hex_cons] at is
        obtain ⟨j, second, is⟩ := Option.bind_eq_some_iff.mp is
        rw [if_neg (by decide)] at is
      · cases is
      all_goals
        rw [tokens_hex_cons] at is
        obtain ⟨k, third, is⟩ := Option.bind_eq_some_iff.mp is
        rw [if_neg (by decide)] at is
      · cases is
      rw [tokens_hex_cons] at is
      obtain ⟨l, fourth, is⟩ := Option.bind_eq_some_iff.mp is
      rw [if_pos rfl] at is
      exact ⟨_, _, t, .hex first second third fourth, rfl, is⟩
    · obtain ⟨v, reads, is⟩ := Option.bind_eq_some_iff.mp is
      exact ⟨[92, c], v, t, .short reads, rfl, is⟩

/-- A code unit of a string that is no backslash. -/
theorem tokens_string (is : tokensFrom (.string back) (u :: t) = some tokens) (slash : u ≠ 92) :
    (u = 34 ∧ ∃ tokens', tokensFrom .between t = some tokens' ∧
      tokens = .string back.reverse :: tokens') ∨
      u ≠ 34 ∧ ¬ u < 32 ∧ tokensFrom (.string (u :: back)) t = some tokens := by
  rw [tokens_string_cons] at is
  by_cases quoted : u = 34
  · rw [if_pos quoted] at is
    obtain ⟨tokens', rest, rfl⟩ := Option.map_eq_some_iff.mp is
    exact .inl ⟨quoted, tokens', rest, rfl⟩
  · rw [if_neg quoted, if_neg slash] at is
    split_ifs at is with control
    exact .inr ⟨quoted, control, is⟩

theorem settled_cases (settled : mode.settled = true) :
    mode.outside = true ∨ ∃ back, mode = .string back := by
  cases mode with
  | string back => exact .inr ⟨back, rfl⟩
  | escape back => cases settled
  | hex back count value => cases settled
  | _ => exact .inl rfl

theorem settled_next (next : u = 34 ∧ mode = .string [] ∨ u ≠ 34 ∧ mode.outside = true) :
    mode.settled = true := by
  rcases next with ⟨-, rfl⟩ | ⟨-, outside⟩
  · rfl
  · cases mode <;> first | rfl | cases outside

theorem Escape.not_outside (escape : Escape x v) (outside : mode.outside = true)
    (is : tokensFrom mode (x ++ t) = some tokens) : False := by
  obtain ⟨c, y, rfl⟩ := escape.head
  exact (tokens_outside outside is).1 rfl

/-- A text is read from each place that is not within an escape. -/
theorem tokens_reach (reach : Reach t r) (settled : mode.settled = true)
    (is : tokensFrom mode t = some tokens) : ∃ mode' tokens', mode'.settled = true ∧
      tokensFrom mode' r = some tokens' ∧ ∀ s, .string s ∈ tokens' → .string s ∈ tokens := by
  induction reach generalizing mode tokens with
  | refl t => exact ⟨mode, tokens, settled, is, fun _ among => among⟩
  | @plain u t r slash _ ih =>
    rcases settled_cases settled with outside | ⟨back, rfl⟩
    · obtain ⟨-, mode', tokens', is', same, next⟩ := tokens_outside outside is
      obtain ⟨mode'', tokens'', settled'', is'', among⟩ := ih (settled_next next) is'
      exact ⟨mode'', tokens'', settled'', is'', fun s there => (same s).mpr (among s there)⟩
    · rcases tokens_string is slash with ⟨-, tokens', is', rfl⟩ | ⟨-, -, is'⟩
      · obtain ⟨mode'', tokens'', settled'', is'', among⟩ := ih rfl is'
        exact ⟨mode'', tokens'', settled'', is'',
          fun s there => List.mem_cons_of_mem _ (among s there)⟩
      · exact ih rfl is'
  | @escape x t r v escape _ ih =>
    rcases settled_cases settled with outside | ⟨back, rfl⟩
    · exact (escape.not_outside outside is).elim
    · obtain ⟨c, y, rfl⟩ := escape.head
      obtain ⟨x', v', r', escape', same, is'⟩ := tokens_slash is
      obtain ⟨-, -, rfl⟩ := escape.unique escape' same
      exact ih rfl is'

theorem alive_of_tokens (settled : mode.settled = true) (is : tokensFrom mode t = some tokens) :
    Alive t := by
  intro r reach
  obtain ⟨mode', tokens', settled', is', -⟩ := tokens_reach reach settled is
  rcases settled_cases settled' with outside | ⟨back, rfl⟩
  · exact absurd rfl (tokens_outside outside is').1
  · obtain ⟨x, v, r', escape, same, -⟩ := tokens_slash is'
    exact ⟨x, v, r', escape, same⟩

/-- The strings among the tokens are spelled in the text. -/
theorem spelled_of_string {s : Units} (settled : mode.settled = true)
    (is : tokensFrom mode t = some tokens) (among : .string s ∈ tokens) :
    (∃ r x, Reach t r ∧ Spells x s ∧ x <+: r) ∨
      ∃ back x s', mode = .string back ∧ s = back.reverse ++ s' ∧ Spells x s' ∧ x <+: t := by
  induction length : t.length using Nat.strong_induction_on generalizing t mode tokens with
  | h n ih =>
    cases t with
    | nil =>
      exfalso
      cases mode with
      | between =>
        cases is
        cases among
      | number back =>
        obtain ⟨token, found, rfl⟩ := Option.map_eq_some_iff.mp is
        exact numberToken_outside found s (List.mem_singleton.mp among).symm
      | word back =>
        obtain ⟨token, found, rfl⟩ := Option.map_eq_some_iff.mp is
        exact wordToken_outside found s (List.mem_singleton.mp among).symm
      | _ => cases is
    | cons u t =>
      have shorter : t.length < n := by
        rw [List.length_cons] at length
        omega
      rcases settled_cases settled with outside | ⟨back, rfl⟩
      · obtain ⟨slash, mode', tokens', is', same, next⟩ := tokens_outside outside is
        left
        rcases ih t.length shorter (settled_next next) is' ((same s).mp among) rfl with
          ⟨r, x, reach, spells, here⟩ | ⟨back, x, s', rfl, rfl, spells, here⟩
        · exact ⟨r, x, .plain slash reach, spells, here⟩
        · rcases next with ⟨-, opened⟩ | ⟨-, off⟩
          · cases opened
            exact ⟨t, x, .plain slash (.refl t), spells, here⟩
          · cases off
      by_cases slash : u = 92
      · subst slash
        obtain ⟨y, v, r, escape, same, is'⟩ := tokens_slash is
        have less : r.length < n := by
          obtain ⟨c, z, rfl⟩ := escape.head
          rw [same, List.length_append, List.length_cons] at length
          omega
        rw [same]
        rcases ih r.length less rfl is' among rfl with
          ⟨r', x, reach, spells, here⟩ | ⟨back', x, s', inner, rfl, spells, here⟩
        · exact .inl ⟨r', x, .escape escape reach, spells, here⟩
        · cases inner
          right
          refine ⟨back, y ++ x, v :: s', rfl, ?_, .escape escape spells, ?_⟩
          · rw [List.reverse_cons, List.append_assoc]
            rfl
          · exact (List.prefix_append_right_inj y).mpr here
      · rcases tokens_string is slash with ⟨rfl, tokens', is', rfl⟩ | ⟨quoted, control, is'⟩
        · rcases List.mem_cons.mp among with same | later
          · cases same
            exact .inr ⟨back, [], [], rfl, (List.append_nil _).symm, .nil, List.nil_prefix⟩
          · rcases ih t.length shorter rfl is' later rfl with
              ⟨r, x, reach, spells, here⟩ | ⟨back', x, s', off, -⟩
            · exact .inl ⟨r, x, .plain slash reach, spells, here⟩
            · cases off
        · rcases ih t.length shorter rfl is' among rfl with
            ⟨r, x, reach, spells, here⟩ | ⟨back', x, s', inner, rfl, spells, here⟩
          · exact .inl ⟨r, x, .plain slash reach, spells, here⟩
          · cases inner
            right
            refine ⟨back, u :: x, u :: s', rfl, ?_, .plain slash quoted control spells, ?_⟩
            · rw [List.reverse_cons, List.append_assoc]
              rfl
            · exact (List.prefix_cons_inj u).mpr here

/-- A part of a string is spelled from a place of its own. -/
theorem spelled_of_part {s : Units} (is : tokensFrom .between t = some tokens)
    (among : .string s ∈ tokens) (part : k <:+: s) :
    ∃ r x, Reach t r ∧ Spells x k ∧ x <+: r := by
  rcases spelled_of_string rfl is among with ⟨r, x, reach, spells, c, rfl⟩ | ⟨_, _, _, off, _⟩
  · obtain ⟨k₁, k₂, rfl⟩ := part
    rw [List.append_assoc] at spells
    obtain ⟨y, z, rfl, first, spells⟩ := spells.split_of
    obtain ⟨x, z, rfl, spells, -⟩ := spells.split_of
    rw [List.append_assoc] at reach
    refine ⟨x ++ z ++ c, x, reach.trans (first.reach _), spells, ?_⟩
    rw [List.append_assoc]
    exact List.prefix_append ..
  · cases off

/-- A string that has begun comes to its end. -/
theorem string_of_back (is : tokensFrom (.string back) t = some tokens) :
    ∃ s, .string s ∈ tokens ∧ back.reverse <+: s := by
  induction length : t.length using Nat.strong_induction_on generalizing t back with
  | h n ih =>
    cases t with
    | nil => cases is
    | cons u t =>
      have longer : ∀ v, back.reverse <+: (v :: back).reverse := by
        intro v
        rw [List.reverse_cons]
        exact List.prefix_append ..
      by_cases slash : u = 92
      · subst slash
        obtain ⟨y, v, r, escape, same, is'⟩ := tokens_slash is
        have less : r.length < n := by
          obtain ⟨c, z, rfl⟩ := escape.head
          rw [same, List.length_append, List.length_cons] at length
          omega
        obtain ⟨s, among, begins⟩ := ih r.length less is' rfl
        exact ⟨s, among, (longer v).trans begins⟩
      · rcases tokens_string is slash with ⟨rfl, tokens', -, rfl⟩ | ⟨-, -, is'⟩
        · exact ⟨back.reverse, List.mem_cons_self, List.prefix_rfl⟩
        · have less : t.length < n := by
            rw [List.length_cons] at length
            omega
          obtain ⟨s, among, begins⟩ := ih t.length less is' rfl
          exact ⟨s, among, (longer u).trans begins⟩

/-- What is spelled in a text stands in it as it is, or is a part of a string. -/
theorem part_of_spelled (settled : mode.settled = true)
    (is : tokensFrom mode (x ++ t) = some tokens) (spells : Spells x k) :
    (mode.outside = true → x = k) ∧
      ∀ back, mode = .string back → ∃ s, .string s ∈ tokens ∧ back.reverse ++ k <+: s := by
  induction spells generalizing mode tokens with
  | nil =>
    refine ⟨fun _ => rfl, ?_⟩
    rintro back rfl
    obtain ⟨s, among, begins⟩ := string_of_back is
    rw [List.append_nil]
    exact ⟨s, among, begins⟩
  | @plain u x k slash quoted control _ ih =>
    constructor
    · intro outside
      obtain ⟨-, mode', tokens', is', -, next⟩ := tokens_outside outside is
      have stays := (next.resolve_left fun off => quoted off.1).2
      rw [(ih (settled_next next) is').1 stays]
    · rintro back rfl
      rcases tokens_string is slash with ⟨off, -⟩ | ⟨-, -, is'⟩
      · exact absurd off quoted
      · obtain ⟨s, among, begins⟩ := (ih rfl is').2 _ rfl
        rw [List.reverse_cons, List.append_assoc] at begins
        exact ⟨s, among, begins⟩
  | @escape y x k v escape _ ih =>
    rw [List.append_assoc] at is
    constructor
    · intro outside
      exact (escape.not_outside outside is).elim
    · rintro back rfl
      obtain ⟨c, z, rfl⟩ := escape.head
      obtain ⟨x', v', r', escape', same, is'⟩ := tokens_slash is
      obtain ⟨-, rfl, rfl⟩ := escape.unique escape' same
      obtain ⟨s, among, begins⟩ := (ih rfl is').2 _ rfl
      rw [List.reverse_cons, List.append_assoc] at begins
      exact ⟨s, among, begins⟩

theorem part_of_reach (is : tokensFrom .between t = some tokens) (reach : Reach t r)
    (spells : Spells x k) (here : x <+: r) : x = k ∨ ∃ s, .string s ∈ tokens ∧ k <:+: s := by
  obtain ⟨c, rfl⟩ := here
  obtain ⟨mode, tokens', settled, is', same⟩ := tokens_reach reach rfl is
  obtain ⟨plain, inString⟩ := part_of_spelled settled is' spells
  rcases settled_cases settled with outside | ⟨back, rfl⟩
  · exact .inl (plain outside)
  · obtain ⟨s, among, begins⟩ := inString back rfl
    exact .inr ⟨s, same s among, (List.suffix_append ..).isInfix.trans begins.isInfix⟩

end Tokens

/-! ## The strings of a value -/

namespace JsValue

mutual

/-- The strings of a value and the keys of its objects. -/
def strings : JsValue → List Units
  | .string s => [s]
  | .array xs => itemStrings xs
  | .object ms => memberStrings ms
  | _ => []

def itemStrings : List JsValue → List Units
  | [] => []
  | x :: xs => x.strings ++ itemStrings xs

def memberStrings : List (Units × JsValue) → List Units
  | [] => []
  | (k, x) :: ms => k :: x.strings ++ memberStrings ms

end

theorem mem_itemStrings {s : Units} {xs : List JsValue} :
    s ∈ itemStrings xs ↔ ∃ x ∈ xs, s ∈ x.strings := by
  induction xs with
  | nil => simp [itemStrings]
  | cons x xs ih => simp [itemStrings, ih]

theorem mem_memberStrings {s : Units} {ms : List (Units × JsValue)} :
    s ∈ memberStrings ms ↔ ∃ m ∈ ms, s = m.1 ∨ s ∈ m.2.strings := by
  induction ms with
  | nil => simp [memberStrings]
  | cons m ms ih => simp [memberStrings, ih, or_assoc]

end JsValue

section Read

variable {P : Units → Prop} {Q : JsValue → Prop} {r r' : Reader} {stack : List Frame}
  {members : List (Units × JsValue)} {xs : List JsValue} {k : Units} {v : JsValue} {t : Token}

/-- What holds of all values that are built, as a reader builds them, from strings of a kind. -/
structure Built (P : Units → Prop) (Q : JsValue → Prop) : Prop where
  null : Q .null
  bool : ∀ b, Q (.bool b)
  number : ∀ x, Q (.number x)
  string : ∀ s, P s → Q (.string s)
  array : ∀ xs, (∀ x ∈ xs, Q x) → Q (.array xs)
  object : ∀ ms : List (Units × JsValue), (∀ m ∈ ms, P m.1 ∧ Q m.2) → Q (.object ms)

def MembersEach (P : Units → Prop) (Q : JsValue → Prop) (ms : List (Units × JsValue)) : Prop :=
  ∀ m ∈ ms, P m.1 ∧ Q m.2

def Frame.Each (P : Units → Prop) (Q : JsValue → Prop) : Frame → Prop
  | .items before => ∀ x ∈ before, Q x
  | .members before key => MembersEach P Q before ∧ P key

def Reader.Each (P : Units → Prop) (Q : JsValue → Prop) : Reader → Prop
  | .value stack | .first stack => ∀ f ∈ stack, f.Each P Q
  | .key stack before _ => (∀ f ∈ stack, f.Each P Q) ∧ MembersEach P Q before
  | .colon stack before k => (∀ f ∈ stack, f.Each P Q) ∧ MembersEach P Q before ∧ P k
  | .next stack v => (∀ f ∈ stack, f.Each P Q) ∧ Q v

theorem each_put (each : MembersEach P Q members) (key : P k) (value : Q v) :
    MembersEach P Q (putMember members k v) := by
  intro m there
  unfold putMember at there
  split_ifs at there
  · obtain ⟨n, old, rfl⟩ := List.mem_map.mp there
    split_ifs
    · exact ⟨key, value⟩
    · exact each n old
  · rcases List.mem_append.mp there with old | is
    · exact each m old
    · rw [List.mem_singleton.mp is]
      exact ⟨key, value⟩

theorem each_append (each : ∀ x ∈ xs, Q x) (value : Q v) : ∀ x ∈ xs ++ [v], Q x :=
  List.forall_mem_append.mpr ⟨each, List.forall_mem_singleton.mpr value⟩

theorem each_readValue (built : Built P Q) (each : ∀ f ∈ stack, f.Each P Q)
    (string : ∀ s, t = .string s → P s) (is : readValue stack t = some r) : r.Each P Q := by
  cases t <;> cases is
  case string s => exact ⟨each, built.string s (string s rfl)⟩
  case number x => exact ⟨each, built.number x⟩
  case bool b => exact ⟨each, built.bool b⟩
  case null => exact ⟨each, built.null⟩
  case openBracket => exact each
  case openBrace => exact ⟨each, nofun⟩

theorem each_step (built : Built P Q) (each : r.Each P Q) (string : ∀ s, t = .string s → P s)
    (is : r.step t = some r') : r'.Each P Q := by
  have cons : ∀ {f : Frame} {fs : List Frame}, f.Each P Q → (∀ g ∈ fs, g.Each P Q) →
      ∀ g ∈ f :: fs, g.Each P Q := fun head tail => List.forall_mem_cons.mpr ⟨head, tail⟩
  unfold Reader.step at is
  split at is
  · exact each_readValue built each string is
  · cases is
    exact ⟨each, built.array [] nofun⟩
  · exact each_readValue built (cons (f := .items []) (fun _ there => nomatch there) each) string is
  · cases is
    exact ⟨each.1, each.2, string _ rfl⟩
  · cases is
    exact ⟨each.1, built.object [] nofun⟩
  · cases is
    exact cons each.2 each.1
  · cases is
    have frame := each.1 _ List.mem_cons_self
    exact cons (each_append frame each.2) fun f there => each.1 f (List.mem_cons_of_mem _ there)
  · cases is
    have frame := each.1 _ List.mem_cons_self
    exact ⟨fun f there => each.1 f (List.mem_cons_of_mem _ there),
      built.array _ (each_append frame each.2)⟩
  · cases is
    have frame := each.1 _ List.mem_cons_self
    exact ⟨fun f there => each.1 f (List.mem_cons_of_mem _ there),
      each_put frame.1 frame.2 each.2⟩
  · cases is
    have frame := each.1 _ List.mem_cons_self
    exact ⟨fun f there => each.1 f (List.mem_cons_of_mem _ there),
      built.object _ (each_put frame.1 frame.2 each.2)⟩
  · cases is

theorem each_run {tokens : List Token} (built : Built P Q) (each : r.Each P Q)
    (string : ∀ s, .string s ∈ tokens → P s) (is : r.run tokens = some r') : r'.Each P Q := by
  unfold Reader.run at is
  induction tokens generalizing r with
  | nil =>
    cases is
    exact each
  | cons t ts ih =>
    rw [List.foldlM_cons] at is
    obtain ⟨next, step, is⟩ := Option.bind_eq_some_iff.mp is
    have first : ∀ s, t = .string s → P s := by
      rintro s rfl
      exact string s List.mem_cons_self
    exact ih (each_step built each first step)
      (fun s among => string s (List.mem_cons_of_mem _ among)) is

/-- What is read is built from the strings of the tokens. -/
theorem Built.of_jsonParse {text : Units}
    (built : ∀ tokens, tokensFrom .between text = some tokens →
      Built (fun s => .string s ∈ tokens) Q)
    (is : jsonParse text = some v) : Q v := by
  unfold jsonParse at is
  obtain ⟨tokens, found, is⟩ := Option.bind_eq_some_iff.mp is
  obtain ⟨reader, run, is⟩ := Option.bind_eq_some_iff.mp is
  have each := each_run (built tokens found) (r := .value []) (fun _ there => nomatch there)
    (fun _ among => among) run
  unfold Reader.result at is
  split at is
  · cases is
    exact each.2
  · cases is

/-- The strings of what is read are among the tokens. -/
theorem strings_jsonParse {text : Units} (is : jsonParse text = some v) :
    ∃ tokens, tokensFrom .between text = some tokens ∧ ∀ s ∈ v.strings, .string s ∈ tokens := by
  have read := is
  unfold jsonParse at read
  obtain ⟨tokens, found, -⟩ := Option.bind_eq_some_iff.mp read
  refine ⟨tokens, found, ?_⟩
  refine Built.of_jsonParse (Q := fun v => ∀ s ∈ v.strings, .string s ∈ tokens) ?_ is
  intro tokens' found'
  rw [found, Option.some_inj] at found'
  subst found'
  refine ⟨nofun, nofun, nofun, ?_, ?_, ?_⟩
  · intro s among s' is
    rw [List.mem_singleton.mp is]
    exact among
  · intro xs each s among
    obtain ⟨x, there, among⟩ := JsValue.mem_itemStrings.mp among
    exact each x there s among
  · intro ms each s among
    obtain ⟨m, there, among⟩ := JsValue.mem_memberStrings.mp among
    rcases among with rfl | among
    · exact (each m there).1
    · exact (each m there).2 s among

end Read

end Artoo.Lib
