import Artoo.Lib.EscapedForms
import Artoo.Lib.JsonStrings

/-! A part without quotation marks and backslashes that is replaced in a JSON text: the text is read
as before, but for the strings with the part. -/
namespace Artoo.Lib

/-- What stands in a string as it is. -/
def PlainPart (k : Units) : Prop := ∀ u ∈ k, u ≠ 92 ∧ u ≠ 34 ∧ ¬ u < 32

section Tokens

variable {k m t e back back' : Units} {u : UInt16} {mode mode' : Mode} {ts ts' : List Token}

theorem plainPart_of_stable (stable : escapedAll k = k) : PlainPart k := by
  induction length : k.length using Nat.strong_induction_on generalizing k with
  | h n ih =>
    cases k with
    | nil => exact List.forall_mem_nil _
    | cons w ws =>
      rw [List.length_cons] at length
      have raw : ∀ {u : UInt16}, surrogate u = true → u ≠ 92 ∧ u ≠ 34 ∧ ¬ u < 32 := by
        intro u is
        rw [surrogate_iff] at is
        rw [ne_eq, ne_eq, eq_iff_toNat, eq_iff_toNat, UInt16.lt_iff_toNat_lt]
        simp only [UInt16.reduceToNat]
        omega
      rcases escapedAll_cases w ws with ⟨v, rest, rfl, high, low, is⟩ | ⟨-, is⟩
      · rw [is, List.cons.injEq, List.cons.injEq] at stable
        rw [List.length_cons] at length
        have tail := ih rest.length (by omega) stable.2.2 rfl
        intro u among
        rcases List.mem_cons.mp among with rfl | among
        · exact raw (surrogate_of_high high)
        rcases List.mem_cons.mp among with rfl | among
        · exact raw (surrogate_of_low low)
        · exact tail u among
      · rw [is] at stable
        rcases escaped_cases w with ⟨same, slash, quoted, control, -⟩ | escape
        · rw [same, List.singleton_append, List.cons.injEq] at stable
          have tail := ih ws.length (by omega) stable.2 rfl
          intro u among
          rcases List.mem_cons.mp among with rfl | among
          · exact ⟨slash, quoted, control⟩
          · exact tail u among
        · exfalso
          obtain ⟨c, y, head⟩ := escape.head
          have lengths := congrArg List.length stable
          rw [head, List.length_append, List.length_cons, List.length_cons, List.length_cons]
            at lengths
          rcases escapedAll_length ws with same | longer
          · rw [same] at lengths
            omega
          · omega

/-- One code unit outside the strings: the tokens that it ends, and what is read then. -/
def Mode.next : Mode → UInt16 → Option (List Token × Mode)
  | .number back, u =>
    if numberUnit u then some ([], .number (u :: back))
    else (numberToken back).bind fun t => (enter u).map fun e => (t :: e.1.toList, e.2)
  | .word back, u =>
    if wordUnit u then some ([], .word (u :: back))
    else (wordToken back).bind fun t => (enter u).map fun e => (t :: e.1.toList, e.2)
  | _, u => (enter u).map fun e => (e.1.toList, e.2)

theorem tokens_next (outside : mode.outside = true) : tokensFrom mode (u :: t) =
    (mode.next u).bind fun p => (tokensFrom p.2 t).map (p.1 ++ ·) := by
  have same : ∀ o : Option (List Token), o.map ([] ++ ·) = o := fun _ => Option.map_id'
  cases mode with
  | between =>
    rw [tokens_between, Mode.next, Option.bind_map]
    · rfl
    · intro _ off
      cases off
    · intro _ off
      cases off
  | number back =>
    rw [tokens_number_cons, Mode.next]
    split_ifs
    · exact (same _).symm
    · rw [Option.bind_assoc]
      congr 1
      funext token
      rw [Option.bind_map]
      rfl
  | word back =>
    rw [tokens_word_cons, Mode.next]
    split_ifs
    · exact (same _).symm
    · rw [Option.bind_assoc]
      congr 1
      funext token
      rw [Option.bind_map]
      rfl
  | _ => cases outside

theorem next_settled {p : List Token × Mode} (is : mode.next u = some p) :
    p.2.settled = true := by
  have entered : ∀ {entry : Option Token × Mode}, enter u = some entry →
      entry.2.settled = true := fun found => settled_next (enter_outside found).2.2
  have plain : ((enter u).map fun e => (e.1.toList, e.2)) = some p → p.2.settled = true := by
    intro is
    obtain ⟨entry, found, rfl⟩ := Option.map_eq_some_iff.mp is
    exact entered found
  have ended : ∀ {o : Option Token}, (o.bind fun t =>
      (enter u).map fun e => (t :: e.1.toList, e.2)) = some p → p.2.settled = true := by
    intro o is
    obtain ⟨token, -, is⟩ := Option.bind_eq_some_iff.mp is
    obtain ⟨entry, found, rfl⟩ := Option.map_eq_some_iff.mp is
    exact entered found
  cases mode with
  | number back =>
    rw [Mode.next] at is
    split_ifs at is
    · cases is
      rfl
    · exact ended is
  | word back =>
    rw [Mode.next] at is
    split_ifs at is
    · cases is
      rfl
    · exact ended is
  | _ => exact plain is

theorem tokens_part (plain : PlainPart k) :
    tokensFrom (.string back) (k ++ t) = tokensFrom (.string (k.reverse ++ back)) t := by
  induction k generalizing back with
  | nil => rfl
  | cons u k ih =>
    obtain ⟨slash, quoted, control⟩ := plain u List.mem_cons_self
    rw [List.cons_append, tokens_string_cons, if_neg quoted, if_neg slash, if_neg control,
      ih fun v among => plain v (List.mem_cons_of_mem _ among), List.reverse_cons,
      List.append_assoc]
    rfl

/-- Tokens that are the same, but for strings with the part. -/
def SameToken (k : Units) (t t' : Token) : Prop :=
  t' = t ∨ ∃ s s', t = .string s ∧ t' = .string s' ∧ k <:+: s

/-- Modes that are the same, but for a string with the part. -/
inductive SameMode (k : Units) : Mode → Mode → Prop
  | same {mode : Mode} : mode.settled = true → SameMode k mode mode
  | part {back back' : Units} : k <:+: back.reverse → SameMode k (.string back) (.string back')

theorem SameMode.push (same : SameMode k (.string back) (.string back')) (u : UInt16) :
    SameMode k (.string (u :: back)) (.string (u :: back')) := by
  cases same with
  | same _ => exact .same rfl
  | part within =>
    apply SameMode.part
    rw [List.reverse_cons]
    exact within.trans (List.prefix_append ..).isInfix

theorem SameMode.string (same : SameMode k (.string back) (.string back')) :
    SameToken k (.string back.reverse) (.string back'.reverse) := by
  cases same with
  | same _ => exact .inl rfl
  | part within => exact .inr ⟨_, _, rfl, rfl, within⟩

theorem SameMode.outside (same : SameMode k mode mode') :
    mode' = mode ∧ mode.outside = true ∨
      ∃ back back', mode = .string back ∧ mode' = .string back' := by
  cases same with
  | same settled =>
    rcases settled_cases settled with outside | ⟨back, rfl⟩
    · exact .inl ⟨rfl, outside⟩
    · exact .inr ⟨back, back, rfl, rfl⟩
  | part _ => exact .inr ⟨_, _, rfl, rfl⟩

theorem sameTokens_refl (ts : List Token) : List.Forall₂ (SameToken k) ts ts :=
  List.forall₂_same.mpr fun _ _ => .inl rfl

/-- The marker is read in strings only. -/
def InStrings (m : Units) : Prop :=
  PlainPart m ∧ ∀ mode e, mode.outside = true → tokensFrom mode (m ++ e) = none

/-- The tokens of a text in which the part is replaced. -/
theorem sameTokens (plain : PlainPart k) (some_ : k ≠ []) (marked : InStrings (91 :: m))
    (redacts : Redacts (· = k) (91 :: m) t e) (same : SameMode k mode mode')
    (is : tokensFrom mode t = some ts) (is' : tokensFrom mode' e = some ts') :
    List.Forall₂ (SameToken k) ts ts' := by
  induction length : t.length using Nat.strong_induction_on generalizing t e mode mode' ts ts' with
  | h n ih =>
    -- the first code unit of both, or the part and the marker
    have first : ∀ {u t e}, t.length < n → Redacts (· = k) (91 :: m) t e → u ≠ 92 →
        tokensFrom mode (u :: t) = some ts → tokensFrom mode' (u :: e) = some ts' →
        List.Forall₂ (SameToken k) ts ts' := by
      intro u t e less redacts slash is is'
      rcases same.outside with ⟨rfl, outside⟩ | ⟨back, back', rfl, rfl⟩
      · obtain ⟨-, mode₁, tokens₁, -, -, next⟩ := tokens_outside outside is
        rw [tokens_next outside] at is is'
        obtain ⟨p, found, is⟩ := Option.bind_eq_some_iff.mp is
        rw [found, Option.bind_some] at is'
        obtain ⟨rest, inner, rfl⟩ := Option.map_eq_some_iff.mp is
        obtain ⟨rest', inner', rfl⟩ := Option.map_eq_some_iff.mp is'
        have tails := ih t.length less redacts (.same (next_settled found)) inner inner' rfl
        exact List.rel_append (sameTokens_refl p.1) tails
      · rcases tokens_string is slash with ⟨quoted, tokens, inner, rfl⟩ | ⟨quoted, -, inner⟩
        · rcases tokens_string is' slash with ⟨-, tokens', inner', rfl⟩ | ⟨off, -, -⟩
          · exact .cons same.string (ih t.length less redacts (.same rfl) inner inner' rfl)
          · exact absurd quoted off
        · rcases tokens_string is' slash with ⟨off, -⟩ | ⟨-, -, inner'⟩
          · exact absurd off quoted
          · exact ih t.length less redacts (same.push u) inner inner' rfl
    have escaped : ∀ {x v t e}, t.length < n → Redacts (· = k) (91 :: m) t e → Escape x v →
        tokensFrom mode (x ++ t) = some ts → tokensFrom mode' (x ++ e) = some ts' →
        List.Forall₂ (SameToken k) ts ts' := by
      intro x v t e less redacts escape is is'
      rcases same.outside with ⟨rfl, outside⟩ | ⟨back, back', rfl, rfl⟩
      · exact (escape.not_outside outside is).elim
      · obtain ⟨c, y, rfl⟩ := escape.head
        obtain ⟨x₁, v₁, r₁, escape₁, same₁, is⟩ := tokens_slash is
        obtain ⟨-, rfl, rfl⟩ := escape.unique escape₁ same₁
        obtain ⟨x₂, v₂, r₂, escape₂, same₂, is'⟩ := tokens_slash is'
        obtain ⟨-, rfl, rfl⟩ := escape.unique escape₂ same₂
        exact ih t.length less redacts (same.push v) is is' rfl
    cases redacts with
    | done =>
      cases t with
      | nil =>
        rcases same.outside with ⟨rfl, -⟩ | ⟨back, back', rfl, rfl⟩
        · rw [is, Option.some_inj] at is'
          rw [is']
          exact sameTokens_refl _
        · cases is
      | cons u t =>
        by_cases slash : u = 92
        · subst slash
          rcases same.outside with ⟨rfl, outside⟩ | ⟨back, back', rfl, rfl⟩
          · exact absurd rfl (tokens_outside outside is).1
          · obtain ⟨x, v, r, escape, whole, -⟩ := tokens_slash is
            have less : r.length < n := by
              obtain ⟨c, z, rfl⟩ := escape.head
              rw [whole, List.length_append, List.length_cons] at length
              omega
            rw [whole] at is is'
            exact escaped less (.done r) escape is is'
        · have less : t.length < n := by
            rw [List.length_cons] at length
            omega
          exact first less (.done t) slash is is'
    | @hit p b e a part rest =>
      subst part
      cases a with
      | nil =>
        rcases same.outside with ⟨rfl, outside⟩ | ⟨back, back', rfl, rfl⟩
        · have off := marked.2 _ e outside
          rw [List.nil_append, off] at is'
          cases is'
        · rw [List.nil_append, tokens_part plain] at is
          rw [List.nil_append, tokens_part marked.1] at is'
          have less : b.length < n := by
            have positive := List.length_pos_of_ne_nil some_
            rw [List.nil_append, List.length_append] at length
            omega
          apply ih b.length less rest (.part _) is is' rfl
          rw [List.reverse_append, List.reverse_reverse]
          exact (List.suffix_append ..).isInfix
      | cons u a =>
        by_cases slash : u = 92
        · subst slash
          rcases same.outside with ⟨rfl, outside⟩ | ⟨back, back', rfl, rfl⟩
          · exact absurd rfl (tokens_outside outside is).1
          · obtain ⟨x, v, r, escape, whole, -⟩ := tokens_slash is'
            change (92 :: a) ++ (91 :: m ++ e) = x ++ r at whole
            rcases List.append_eq_append_iff.mp whole with ⟨y, rfl, more⟩ | ⟨a', split, rfl⟩
            · cases y with
              | nil =>
                rw [List.append_nil] at escape
                have less : (p ++ b).length < n := by
                  rw [List.length_append, List.length_cons] at length
                  omega
                exact escaped less (.hit [] rfl rest) escape is is'
              | cons c y =>
                rw [List.cons_append, List.cons_append, List.cons.injEq] at more
                exact (escape.tail_ne (List.cons_ne_nil _ _) (by rw [← more.1])).elim
            · rw [split, List.append_assoc] at is is'
              have less : (a' ++ (p ++ b)).length < n := by
                obtain ⟨c, z, rfl⟩ := escape.head
                rw [split, List.append_assoc, List.length_append, List.length_cons] at length
                omega
              exact escaped less (.hit a' rfl rest) escape is is'
        · have less : (a ++ (p ++ b)).length < n := by
            rw [List.cons_append, List.length_cons] at length
            omega
          exact first less (.hit a rfl rest) slash is is'

end Tokens

/-! ## What is read -/

section Values

variable {k key key' : Units} {v v' : JsValue} {xs xs' : List JsValue}
  {ms ms' : List (Units × JsValue)}

/-- A string of the value has the part. -/
def Tainted (k : Units) (v : JsValue) : Prop := ∃ s ∈ v.strings, k <:+: s

def SameValue (k : Units) (v v' : JsValue) : Prop := v' = v ∨ Tainted k v

def SameMembers (k : Units) (ms ms' : List (Units × JsValue)) : Prop :=
  List.Forall₂ (fun m m' => m'.1 = m.1 ∧ SameValue k m.2 m'.2) ms ms'

def TaintedKey (k : Units) (ms : List (Units × JsValue)) : Prop := ∃ m ∈ ms, k <:+: m.1

inductive SameFrame (k : Units) : Frame → Frame → Prop
  | items {xs xs' : List JsValue} : List.Forall₂ (SameValue k) xs xs' →
      SameFrame k (.items xs) (.items xs')
  | members {ms ms' : List (Units × JsValue)} (key : Units) : SameMembers k ms ms' →
      SameFrame k (.members ms key) (.members ms' key)
  | tainted {ms ms' : List (Units × JsValue)} {key key' : Units} :
      TaintedKey k ms ∨ k <:+: key → SameFrame k (.members ms key) (.members ms' key')

inductive SameReader (k : Units) : Reader → Reader → Prop
  | value {stack stack' : List Frame} : List.Forall₂ (SameFrame k) stack stack' →
      SameReader k (.value stack) (.value stack')
  | first {stack stack' : List Frame} : List.Forall₂ (SameFrame k) stack stack' →
      SameReader k (.first stack) (.first stack')
  | key {stack stack' : List Frame} {ms ms' : List (Units × JsValue)} (may : Bool) :
      List.Forall₂ (SameFrame k) stack stack' → SameMembers k ms ms' ∨ TaintedKey k ms →
      SameReader k (.key stack ms may) (.key stack' ms' may)
  | colon {stack stack' : List Frame} {ms ms' : List (Units × JsValue)} {key key' : Units} :
      List.Forall₂ (SameFrame k) stack stack' → SameFrame k (.members ms key) (.members ms' key') →
      SameReader k (.colon stack ms key) (.colon stack' ms' key')
  | next {stack stack' : List Frame} {v v' : JsValue} :
      List.Forall₂ (SameFrame k) stack stack' → SameValue k v v' →
      SameReader k (.next stack v) (.next stack' v')

theorem sameValue_array (same : List.Forall₂ (SameValue k) xs xs') :
    SameValue k (.array xs) (.array xs') := by
  have cases_ : xs' = xs ∨ ∃ x ∈ xs, Tainted k x := by
    induction same with
    | nil => exact .inl rfl
    | @cons x x' xs xs' first _ ih =>
      rcases first with rfl | tainted
      · rcases ih with rfl | ⟨y, there, tainted⟩
        · exact .inl rfl
        · exact .inr ⟨y, List.mem_cons_of_mem _ there, tainted⟩
      · exact .inr ⟨x, List.mem_cons_self, tainted⟩
  rcases cases_ with rfl | ⟨x, there, s, among, within⟩
  · exact .inl rfl
  · exact .inr ⟨s, JsValue.mem_itemStrings.mpr ⟨x, there, among⟩, within⟩

theorem sameValue_object (same : SameMembers k ms ms' ∨ TaintedKey k ms) :
    SameValue k (.object ms) (.object ms') := by
  have cases_ : ms' = ms ∨ ∃ m ∈ ms, k <:+: m.1 ∨ Tainted k m.2 := by
    rcases same with same | ⟨m, there, within⟩
    · induction same with
      | nil => exact .inl rfl
      | @cons m m' ms ms' first _ ih =>
        obtain ⟨name, value⟩ := first
        rcases value with value | tainted
        · rcases ih with rfl | ⟨n, there, is⟩
          · exact .inl (by rw [Prod.ext name value])
          · exact .inr ⟨n, List.mem_cons_of_mem _ there, is⟩
        · exact .inr ⟨m, List.mem_cons_self, .inr tainted⟩
    · exact .inr ⟨m, there, .inl within⟩
  rcases cases_ with rfl | ⟨m, there, within | ⟨s, among, within⟩⟩
  · exact .inl rfl
  · exact .inr ⟨m.1, JsValue.mem_memberStrings.mpr ⟨m, there, .inl rfl⟩, within⟩
  · exact .inr ⟨s, JsValue.mem_memberStrings.mpr ⟨m, there, .inr among⟩, within⟩

theorem key_putMember (ms : List (Units × JsValue)) (key : Units) (v : JsValue) :
    ∃ m ∈ putMember ms key v, m.1 = key := by
  unfold putMember
  split_ifs with old
  · obtain ⟨m, there, is⟩ := List.any_eq_true.mp old
    refine ⟨(key, v), List.mem_map.mpr ⟨m, there, ?_⟩, rfl⟩
    rw [if_pos (beq_iff_eq.mp is)]
  · exact ⟨(key, v), List.mem_append_right _ (List.mem_singleton_self _), rfl⟩

theorem keys_putMember (key : Units) (v : JsValue) {m : Units × JsValue} (there : m ∈ ms) :
    ∃ n ∈ putMember ms key v, n.1 = m.1 := by
  unfold putMember
  split_ifs
  · refine ⟨_, List.mem_map.mpr ⟨m, there, rfl⟩, ?_⟩
    split_ifs with same
    · exact same.symm
    · rfl
  · exact ⟨m, List.mem_append_left _ there, rfl⟩

theorem sameMembers_put (same : SameMembers k ms ms') (value : SameValue k v v') :
    SameMembers k (putMember ms key v) (putMember ms' key v') := by
  have keys : (ms'.any fun m => m.1 == key) = ms.any fun m => m.1 == key := by
    induction same with
    | nil => rfl
    | cons first _ ih => rw [List.any_cons, List.any_cons, ih, first.1]
  have mapped : SameMembers k (ms.map fun m => if m.1 = key then (key, v) else m)
      (ms'.map fun m => if m.1 = key then (key, v') else m) := by
    clear keys
    induction same with
    | nil => exact .nil
    | cons first _ ih =>
      refine .cons ?_ ih
      dsimp only
      rw [first.1]
      split_ifs
      · exact ⟨rfl, value⟩
      · exact ⟨first.1, first.2⟩
  unfold putMember
  rw [keys]
  split_ifs
  · exact mapped
  · exact List.rel_append same (.cons ⟨rfl, value⟩ .nil)

theorem sameObject_put (same : SameFrame k (.members ms key) (.members ms' key'))
    (value : SameValue k v v') : SameMembers k (putMember ms key v) (putMember ms' key' v') ∨
      TaintedKey k (putMember ms key v) := by
  cases same with
  | members _ same => exact .inl (sameMembers_put same value)
  | tainted tainted =>
    right
    rcases tainted with ⟨m, there, within⟩ | within
    · obtain ⟨n, there', is⟩ := keys_putMember key v there
      exact ⟨n, there', is ▸ within⟩
    · obtain ⟨n, there', is⟩ := key_putMember ms key v
      exact ⟨n, there', is ▸ within⟩

variable {r r' q q' : Reader} {stack stack' : List Frame} {t t' : Token}

theorem same_readValue (frames : List.Forall₂ (SameFrame k) stack stack') (same : SameToken k t t')
    (is : readValue stack t = some q) (is' : readValue stack' t' = some q') :
    SameReader k q q' := by
  rcases same with rfl | ⟨s, s', rfl, rfl, within⟩
  · cases t' with
    | openBracket =>
      cases is
      cases is'
      exact .first frames
    | openBrace =>
      cases is
      cases is'
      exact .key true frames (.inl .nil)
    | closeBrace => cases is
    | closeBracket => cases is
    | colon => cases is
    | comma => cases is
    | _ =>
      cases is
      cases is'
      exact .next frames (.inl rfl)
  · cases is
    cases is'
    exact .next frames (.inr ⟨s, List.mem_singleton_self _, within⟩)

theorem same_step (same : SameReader k r r') (token : SameToken k t t') (is : r.step t = some q)
    (is' : r'.step t' = some q') : SameReader k q q' := by
  cases same with
  | value frames => exact same_readValue frames token is is'
  | first frames =>
    have frames' : List.Forall₂ (SameFrame k) (.items [] :: _) (.items [] :: _) :=
      .cons (.items .nil) frames
    rcases token with rfl | ⟨s, s', rfl, rfl, within⟩
    · by_cases closes : t' = .closeBracket
      · subst closes
        cases is
        cases is'
        exact .next frames (.inl rfl)
      · rw [awaits_first _ _ closes] at is is'
        exact same_readValue frames' (.inl rfl) is is'
    · exact same_readValue frames' (.inr ⟨s, s', rfl, rfl, within⟩) is is'
  | @key stack stack' ms ms' may frames members =>
    rcases token with rfl | ⟨s, s', rfl, rfl, within⟩
    · cases t' with
      | string s =>
        cases is
        cases is'
        apply SameReader.colon frames
        rcases members with members | tainted
        · exact .members s members
        · exact .tainted (.inl tainted)
      | closeBrace =>
        cases may with
        | true =>
          cases is
          cases is'
          exact .next frames (.inl rfl)
        | false => cases is
      | _ => cases is
    · cases is
      cases is'
      exact .colon frames (.tainted (.inr within))
  | colon frames frame =>
    rcases token with rfl | ⟨s, s', rfl, rfl, within⟩
    · cases t' with
      | colon =>
        cases is
        cases is'
        exact .value (.cons frame frames)
      | _ => cases is
    · cases is
  | next frames value =>
    rcases token with rfl | ⟨s, s', rfl, rfl, within⟩
    · cases frames with
      | nil => cases is
      | cons frame frames =>
        cases frame with
        | items items =>
          have all := List.rel_append items (.cons value .nil)
          cases t' with
          | comma =>
            cases is
            cases is'
            exact .value (.cons (.items all) frames)
          | closeBracket =>
            cases is
            cases is'
            exact .next frames (sameValue_array all)
          | _ => cases is
        | members name members =>
          have put := sameObject_put (.members name members) value
          cases t' with
          | comma =>
            cases is
            cases is'
            exact .key false frames put
          | closeBrace =>
            cases is
            cases is'
            exact .next frames (sameValue_object put)
          | _ => cases is
        | @tainted _ _ _ _ tainted =>
          cases t' with
          | comma =>
            cases is
            cases is'
            exact .key false frames (sameObject_put (.tainted tainted) value)
          | closeBrace =>
            cases is
            cases is'
            exact .next frames (sameValue_object (sameObject_put (.tainted tainted) value))
          | _ => cases is
    · cases frames with
      | nil => cases is
      | cons frame frames => cases frame <;> cases is

theorem same_run {ts ts' : List Token} (tokens : List.Forall₂ (SameToken k) ts ts')
    (same : SameReader k r r') (is : r.run ts = some q) (is' : r'.run ts' = some q') :
    SameReader k q q' := by
  unfold Reader.run at is is'
  induction tokens generalizing r r' with
  | nil =>
    cases is
    cases is'
    exact same
  | cons token _ ih =>
    rw [List.foldlM_cons] at is is'
    obtain ⟨next, step, is⟩ := Option.bind_eq_some_iff.mp is
    obtain ⟨next', step', is'⟩ := Option.bind_eq_some_iff.mp is'
    exact ih (same_step same token step step') is is'

/-- A text in which the part is replaced is read as the same value, or the value had the part. -/
theorem sameValue_jsonParse {m t e : Units} (plain : PlainPart k) (some_ : k ≠ [])
    (marked : InStrings (91 :: m)) (redacts : Redacts (· = k) (91 :: m) t e)
    (is : jsonParse t = some v) (is' : jsonParse e = some v') : SameValue k v v' := by
  unfold jsonParse at is is'
  obtain ⟨tokens, found, is⟩ := Option.bind_eq_some_iff.mp is
  obtain ⟨reader, run, is⟩ := Option.bind_eq_some_iff.mp is
  obtain ⟨tokens', found', is'⟩ := Option.bind_eq_some_iff.mp is'
  obtain ⟨reader', run', is'⟩ := Option.bind_eq_some_iff.mp is'
  have tokens_ := sameTokens plain some_ marked redacts (.same rfl) found found'
  have same := same_run tokens_ (.value .nil) run run'
  unfold Reader.result at is is'
  split at is
  · cases is
    split at is'
    · cases is'
      cases same with
      | next _ value => exact value
    · cases is'
  · cases is

end Values

/-! ## What is written of what was read -/

/-- `JSON.stringify` writes each string of a value that `JSON.parse` gives. -/
theorem strings_serialized {text s : Units} {v : JsValue} (is : jsonParse text = some v)
    (among : s ∈ v.strings) : s ∈ v.serialized.strings := by
  have built : ∀ P, Built P fun v =>
      v.isUndefined = false ∧ ∀ s ∈ v.strings, s ∈ v.serialized.strings := by
    intro P
    refine ⟨⟨rfl, nofun⟩, fun b => ⟨rfl, nofun⟩, fun x => ⟨rfl, nofun⟩,
      fun s _ => ⟨rfl, fun _ same => same⟩, ?_, ?_⟩
    · intro xs each
      refine ⟨rfl, fun s among => ?_⟩
      obtain ⟨x, there, among⟩ := JsValue.mem_itemStrings.mp among
      change s ∈ JsValue.itemStrings (JsValue.serializedItems xs)
      rw [JsValue.serializedItems_eq, JsValue.mem_itemStrings]
      exact ⟨_, List.mem_map.mpr ⟨x, there, rfl⟩, (each x there).2 s among⟩
    · intro ms each
      refine ⟨rfl, fun s among => ?_⟩
      obtain ⟨m, there, among⟩ := JsValue.mem_memberStrings.mp among
      change s ∈ JsValue.memberStrings (ownOrder (JsValue.serializedMembers ms))
      rw [JsValue.mem_memberStrings]
      have value := (each m there).2
      refine ⟨(m.1, m.2.serialized), ?_, among.imp_right fun among => value.2 s among⟩
      exact JsValue.mem_serialized.mpr ⟨m, there, value.1, rfl⟩
  exact (Built.of_jsonParse (fun _ _ => built _) is).2 s among

end Artoo.Lib
