import Artoo.Lib.JsonText

/-! The text of a plain value is read as the value. -/
namespace Artoo.Lib

namespace JsValue

/-- Values that JSON has a text of their own for. -/
inductive Plain : JsValue → Prop
  | null : Plain .null
  | bool (b : Bool) : Plain (.bool b)
  | number {negative : Bool} {m : Magnitude} : (negative = true → m.value ≠ 0) →
      Plain (.number (.finite negative m))
  | string (s : Units) : Plain (.string s)
  | array {xs : List JsValue} : (∀ x ∈ xs, Plain x) → Plain (.array xs)
  | object {ms : List (Units × JsValue)} : (ms.map Prod.fst).Nodup → (∀ m ∈ ms, Plain m.2) →
      Plain (.object ms)

end JsValue

/-! ## Code units -/

section CodeUnits

variable {u : UInt16} {d : ℕ}

theorem hexValue_hexUnit (small : d < 16) : hexValue (hexUnit d) = some d := by
  interval_cases d <;> rfl

theorem numberUnit_unit {c : Char} (numeral : numeralChar c = true) :
    numberUnit (unit c) = true ∧ unitChar (unit c) = c := by
  have small : c.toNat < 0x10000 := by
    unfold numeralChar at numeral
    simp only [Bool.or_eq_true, beq_iff_eq] at numeral
    rcases numeral with ((((digit | rfl) | rfl) | rfl) | rfl) | rfl
    · have range := isDigit_toNat digit
      omega
    all_goals decide
  have same := unitChar_unit small
  unfold numberUnit
  rw [same]
  exact ⟨numeral, rfl⟩

theorem numberUnit_range (number : numberUnit u = true) : (48 ≤ u.toNat ∧ u.toNat ≤ 57) ∨
    u.toNat = 45 ∨ u.toNat = 43 ∨ u.toNat = 46 ∨ u.toNat = 101 ∨ u.toNat = 69 := by
  have same : surrogate u = false → (unitChar u).toNat = u.toNat := by
    intro plain
    rw [Bool.eq_false_iff, ne_eq, surrogate_iff] at plain
    have range := u.toNat_lt
    apply toNat_char
    unfold Nat.isValidChar
    omega
  have plain : surrogate u = false := by
    cases lone : surrogate u with
    | false => rfl
    | true =>
      rw [surrogate_iff] at lone
      have invalid : ¬ u.toNat.isValidChar := by
        unfold Nat.isValidChar
        omega
      have zero : unitChar u = Char.ofNat 0 := by
        unfold unitChar Char.ofNat
        rw [dif_neg invalid]
        rfl
      unfold numberUnit at number
      rw [zero] at number
      cases number
  have is := same plain
  unfold numberUnit numeralChar at number
  simp only [Bool.or_eq_true, beq_iff_eq] at number
  rcases number with ((((digit | eq) | eq) | eq) | eq) | eq
  · have range := isDigit_toNat digit
    omega
  all_goals
    rw [eq] at is
    have value := is.symm
    revert value
    simp only [Char.reduceToNat]
    omega

theorem eq_iff_toNat {v : UInt16} : u = v ↔ u.toNat = v.toNat := UInt16.toNat_inj.symm

/-- A code unit of numbers begins a number. -/
theorem enter_number (number : numberUnit u = true) : enter u = some (none, .number [u]) := by
  have range := numberUnit_range number
  have white : whiteSpace u = false := by
    unfold whiteSpace
    simp only [eq_iff_toNat, UInt16.reduceToNat, Bool.or_eq_false_iff, decide_eq_false_iff_not]
    omega
  have punctuated : punctuation u = none := by
    unfold punctuation
    simp only [eq_iff_toNat, UInt16.reduceToNat]
    rw [if_neg (by omega), if_neg (by omega), if_neg (by omega), if_neg (by omega),
      if_neg (by omega), if_neg (by omega)]
  have quoted : ¬ u = 34 := by
    rw [eq_iff_toNat]
    change ¬ u.toNat = 34
    omega
  unfold enter
  rw [white, punctuated]
  simp only [Bool.false_eq_true, if_false, quoted, number, if_true]

end CodeUnits

/-! ## Tokens -/

/-- Nothing follows that goes on with a number or a word. -/
def Ends : Units → Prop
  | [] => True
  | u :: _ => numberUnit u = false ∧ wordUnit u = false

section Tokens

variable {back rest us : Units} {t : Token}

theorem tokens_punctuation {u : UInt16} (is : enter u = some (some t, .between)) :
    tokensFrom .between (u :: rest) = (tokensFrom .between rest).map (t :: ·) := by
  rw [tokens_between, is]
  rfl

theorem tokens_word_end (is : wordToken back = some t) (ends : Ends rest) :
    tokensFrom (.word back) rest = (tokensFrom .between rest).map (t :: ·) := by
  cases rest with
  | nil => simp [tokensFrom, is]
  | cons u us =>
    rw [tokens_word_cons, if_neg (by simp [ends.2]), is, Option.bind_some, tokens_between,
      Option.map_bind]
    congr 1
    funext e
    change _ = ((tokensFrom e.2 us).map (e.1.toList ++ ·)).map (t :: ·)
    rw [Option.map_map]
    rfl

theorem tokens_number_end (is : numberToken back = some t) (ends : Ends rest) :
    tokensFrom (.number back) rest = (tokensFrom .between rest).map (t :: ·) := by
  cases rest with
  | nil => simp [tokensFrom, is]
  | cons u us =>
    rw [tokens_number_cons, if_neg (by simp [ends.1]), is, Option.bind_some, tokens_between,
      Option.map_bind]
    congr 1
    funext e
    change _ = ((tokensFrom e.2 us).map (e.1.toList ++ ·)).map (t :: ·)
    rw [Option.map_map]
    rfl

theorem tokens_word_more (are : ∀ u ∈ us, wordUnit u = true) :
    tokensFrom (.word back) (us ++ rest) = tokensFrom (.word (us.reverse ++ back)) rest := by
  induction us generalizing back with
  | nil => rfl
  | cons u us ih =>
    rw [List.cons_append, tokens_word_cons, if_pos (are u List.mem_cons_self),
      ih fun v member => are v (List.mem_cons_of_mem _ member), List.reverse_cons, List.append_assoc]
    rfl

theorem tokens_number_more (are : ∀ u ∈ us, numberUnit u = true) :
    tokensFrom (.number back) (us ++ rest) = tokensFrom (.number (us.reverse ++ back)) rest := by
  induction us generalizing back with
  | nil => rfl
  | cons u us ih =>
    rw [List.cons_append, tokens_number_cons, if_pos (are u List.mem_cons_self),
      ih fun v member => are v (List.mem_cons_of_mem _ member), List.reverse_cons, List.append_assoc]
    rfl

theorem tokens_word {u : UInt16} (first : enter u = some (none, .word [u]))
    (are : ∀ v ∈ us, wordUnit v = true) (is : wordToken (us.reverse ++ [u]) = some t)
    (ends : Ends rest) :
    tokensFrom .between (u :: us ++ rest) = (tokensFrom .between rest).map (t :: ·) := by
  rw [List.cons_append, tokens_between, first, ← tokens_word_end is ends, ← tokens_word_more are]
  exact Option.map_id'

theorem tokens_number {negative : Bool} {m : Magnitude} (sign : negative = true → m.value ≠ 0)
    (ends : Ends rest) : tokensFrom .between (numberText (.finite negative m) ++ rest) =
      (tokensFrom .between rest).map (.number (.finite negative m) :: ·) := by
  obtain ⟨c, cs, is⟩ := List.exists_cons_of_ne_nil (@text_ne_nil m negative)
  have are := @text_chars m negative
  have token : numberToken ((cs.map unit).reverse ++ [unit c]) =
      some (.number (.finite negative m)) := by
    have same : ((cs.map unit).reverse ++ [unit c]).reverse.map unitChar =
        (JsNumber.finite negative m).text := by
      rw [List.reverse_append, List.reverse_reverse, List.reverse_singleton, List.singleton_append,
        ← List.map_cons, ← is, List.map_map]
      exact (List.map_congr_left fun c member => (numberUnit_unit (are c member)).2).trans
        (List.map_id _)
    have kept : (negative && decide (m.value ≠ 0)) = negative := by
      cases negative with
      | false => rfl
      | true => exact decide_eq_true (sign rfl)
    unfold numberToken
    rw [same, jsonNumber_text, kept]
    rfl
  have more : ∀ u ∈ cs.map unit, numberUnit u = true := by
    intro u member
    obtain ⟨d, there, rfl⟩ := List.mem_map.mp member
    exact (numberUnit_unit (are d (is ▸ List.mem_cons_of_mem _ there))).1
  unfold numberText
  rw [is, List.map_cons, List.cons_append, tokens_between,
    enter_number (numberUnit_unit (are c (is ▸ List.mem_cons_self))).1,
    ← tokens_number_end token ends, ← tokens_number_more more]
  exact Option.map_id'

/-! ## Strings -/

/-- The four digits of a code unit are read back. -/
theorem tokens_hex {u : UInt16} : tokensFrom (.hex back 0 0)
    ([hexUnit (u.toNat / 4096), hexUnit (u.toNat / 256 % 16), hexUnit (u.toNat / 16 % 16),
      hexUnit (u.toNat % 16)] ++ rest) = tokensFrom (.string (u :: back)) rest := by
  have range := u.toNat_lt
  have first := hexValue_hexUnit (d := u.toNat / 4096) (by omega)
  have second := hexValue_hexUnit (d := u.toNat / 256 % 16) (by omega)
  have third := hexValue_hexUnit (d := u.toNat / 16 % 16) (by omega)
  have fourth := hexValue_hexUnit (d := u.toNat % 16) (by omega)
  have value : 16 * (16 * (16 * (16 * 0 + u.toNat / 4096) + u.toNat / 256 % 16) +
      u.toNat / 16 % 16) + u.toNat % 16 = u.toNat := by omega
  simp only [List.cons_append, List.nil_append, tokens_hex_cons, first, second, third, fourth,
    Option.bind_some, value, UInt16.ofNat_toNat]
  rfl

theorem tokens_escaped {u : UInt16} : tokensFrom (.string back) (escaped u ++ rest) =
    tokensFrom (.string (u :: back)) rest := by
  unfold escaped
  split
  · rename_i is
    subst is
    rfl
  split
  · rename_i is
    subst is
    rfl
  split
  · rename_i is
    subst is
    rfl
  split
  · rename_i is
    subst is
    rfl
  split
  · rename_i is
    subst is
    rfl
  split
  · rename_i is
    rw [Bool.or_eq_true, decide_eq_true_iff, decide_eq_true_iff] at is
    rcases is with rfl | rfl <;> rfl
  split
  · have short : units "\\u" = [92, 117] := by decide
    rw [short, List.append_assoc]
    exact tokens_hex
  · rename_i plain hex
    rw [Bool.or_eq_true, decide_eq_true_iff, decide_eq_true_iff, not_or] at plain
    rw [Bool.or_eq_true, decide_eq_true_iff, not_or] at hex
    rw [List.singleton_append, tokens_string_cons, if_neg plain.1, if_neg plain.2, if_neg hex.1]

/-- A surrogate stands for itself. -/
theorem tokens_surrogate {u : UInt16} (is : surrogate u = true) :
    tokensFrom (.string back) (u :: rest) = tokensFrom (.string (u :: back)) rest := by
  rw [surrogate_iff] at is
  have quoted : u ≠ 34 := by
    rw [ne_eq, eq_iff_toNat]
    change ¬ u.toNat = 34
    omega
  have slash : u ≠ 92 := by
    rw [ne_eq, eq_iff_toNat]
    change ¬ u.toNat = 92
    omega
  have control : ¬ u < 32 := by
    rw [UInt16.lt_iff_toNat_lt]
    change ¬ u.toNat < 32
    omega
  rw [tokens_string_cons, if_neg quoted, if_neg slash, if_neg control]

theorem tokens_escapedAll {s : Units} : tokensFrom (.string back) (escapedAll s ++ rest) =
    tokensFrom (.string (s.reverse ++ back)) rest := by
  fun_induction escapedAll s generalizing back with
  | case1 => rfl
  | case2 u => exact tokens_escaped
  | case3 u v us pair ih =>
    rw [Bool.and_eq_true, highSurrogate_iff, lowSurrogate_iff] at pair
    have high : surrogate u = true := surrogate_iff.mpr (by omega)
    have low : surrogate v = true := surrogate_iff.mpr (by omega)
    rw [List.cons_append, List.cons_append, tokens_surrogate high, tokens_surrogate low, ih,
      List.reverse_cons, List.reverse_cons, List.append_assoc, List.append_assoc]
    rfl
  | case4 u v us alone ih =>
    rw [List.append_assoc, tokens_escaped, ih, List.reverse_cons (a := u), List.append_assoc]
    rfl

theorem tokens_quote {s : Units} : tokensFrom .between (quote s ++ rest) =
    (tokensFrom .between rest).map (.string s :: ·) := by
  have first : enter 34 = some (none, .string []) := rfl
  unfold quote
  rw [List.cons_append, List.cons_append, List.append_assoc, tokens_between, first, Option.bind_some,
    tokens_escapedAll, List.append_nil, List.singleton_append, tokens_string_cons, if_pos rfl,
    List.reverse_reverse]
  exact Option.map_id'

end Tokens

/-! ## Reading -/

/-- What a reader comes to on a text. -/
def Reader.read (r : Reader) (text : Units) : Option Reader := (tokensFrom .between text).bind r.run

theorem jsonParse_read (text : Units) :
    jsonParse text = ((Reader.value []).read text).bind Reader.result := by
  unfold jsonParse Reader.read
  rw [Option.bind_assoc]
  rfl

/-- A value is to be read here, where the array does not end. -/
def Awaits (r : Reader) (stack : List Frame) : Prop :=
  ∀ t, t ≠ .closeBracket → r.step t = readValue stack t

theorem awaits_value (stack : List Frame) : Awaits (.value stack) stack := fun _ _ => rfl

theorem awaits_first (stack : List Frame) : Awaits (.first stack) (.items [] :: stack) := by
  intro t other
  cases t
  case closeBracket => exact absurd rfl other
  all_goals rfl

section Read

variable {r r' : Reader} {stack : List Frame} {us rest : Units} {t : Token}

theorem read_token (tokens : tokensFrom .between us = (tokensFrom .between rest).map (t :: ·))
    (step : r.step t = some r') : r.read us = r'.read rest := by
  unfold Reader.read
  rw [tokens, Option.bind_map]
  congr 1
  funext ts
  change (t :: ts).foldlM Reader.step r = ts.foldlM Reader.step r'
  rw [List.foldlM_cons, step]
  rfl

theorem read_punctuation {u : UInt16} (is : enter u = some (some t, .between))
    (step : r.step t = some r') : r.read (u :: rest) = r'.read rest :=
  read_token (tokens_punctuation is) step

/-- The text of a value is read as the value. -/
def Reads (v : JsValue) : Prop :=
  ∀ {r : Reader} {stack : List Frame} {rest : Units}, Awaits r stack → Ends rest →
    r.read (v.text ++ rest) = (Reader.next stack v).read rest

theorem ends_comma : Ends (44 :: rest) := ⟨rfl, rfl⟩

theorem ends_bracket : Ends (93 :: rest) := ⟨rfl, rfl⟩

theorem ends_brace : Ends (125 :: rest) := ⟨rfl, rfl⟩

theorem joined_cons_cons (a b : Units) (texts : List Units) :
    joined (a :: b :: texts) = a ++ 44 :: joined (b :: texts) := by
  simp [joined, List.intercalate]

theorem joined_singleton (a : Units) : joined [a] = a := by
  simp [joined, List.intercalate]

theorem read_items {x : JsValue} {xs : List JsValue} {before : List JsValue}
    (each : ∀ y ∈ x :: xs, Reads y) (awaits : Awaits r (.items before :: stack)) :
    r.read (joined (itemTexts (x :: xs)) ++ 93 :: rest) =
      (Reader.next stack (.array (before ++ x :: xs))).read rest := by
  induction xs generalizing r before x with
  | nil =>
    simp only [itemTexts, joined_singleton]
    rw [each x List.mem_cons_self awaits ends_bracket]
    exact read_punctuation rfl rfl
  | cons y ys ih =>
    simp only [itemTexts, joined_cons_cons, List.append_assoc, List.cons_append]
    rw [each x List.mem_cons_self awaits ends_comma, read_punctuation rfl rfl]
    have later := @ih _ y (before ++ [x]) (fun z member => each z (List.mem_cons_of_mem _ member))
      (awaits_value _)
    simp only [itemTexts] at later
    rw [later, List.append_assoc]
    rfl

theorem putMember_new {ms : List (Units × JsValue)} {k : Units} {v : JsValue}
    (fresh : k ∉ ms.map Prod.fst) : putMember ms k v = ms ++ [(k, v)] := by
  unfold putMember
  rw [if_neg]
  simp only [List.any_eq_true, beq_iff_eq, not_exists, not_and]
  intro m there is
  exact fresh (is ▸ List.mem_map_of_mem there)

theorem read_members {m : Units × JsValue} {ms before : List (Units × JsValue)} {may : Bool}
    (each : ∀ n ∈ m :: ms, Reads n.2) (distinct : ((before ++ m :: ms).map Prod.fst).Nodup) :
    (Reader.key stack before may).read
        (joined ((memberTexts (m :: ms)).map fun n => quote n.1 ++ 58 :: n.2) ++ 125 :: rest) =
      (Reader.next stack (.object (before ++ m :: ms))).read rest := by
  induction ms generalizing before m may with
  | nil =>
    have fresh : m.1 ∉ before.map Prod.fst := by
      rw [List.map_append, List.nodup_append] at distinct
      intro member
      exact distinct.2.2 m.1 member m.1 (by simp) rfl
    simp only [memberTexts, List.map_cons, List.map_nil, joined_singleton, List.append_assoc,
      List.cons_append]
    rw [read_token tokens_quote rfl, read_punctuation rfl rfl,
      each m List.mem_cons_self (awaits_value _) ends_brace, ← putMember_new fresh]
    exact read_punctuation rfl rfl
  | cons n ns ih =>
    have fresh : m.1 ∉ before.map Prod.fst := by
      rw [List.map_append, List.nodup_append] at distinct
      intro member
      exact distinct.2.2 m.1 member m.1 (by simp) rfl
    simp only [memberTexts, List.map_cons, joined_cons_cons, List.append_assoc, List.cons_append]
    have later := @ih n (before ++ [m]) false
      (fun z member => each z (List.mem_cons_of_mem _ member)) (by simpa using distinct)
    simp only [memberTexts, List.map_cons, List.append_assoc, List.singleton_append] at later
    rw [read_token tokens_quote rfl, read_punctuation rfl rfl,
      each m List.mem_cons_self (awaits_value _) ends_comma, ← later, ← putMember_new fresh]
    exact read_punctuation rfl rfl

theorem reads_text {v : JsValue} (plain : v.Plain) : Reads v := by
  induction plain with
  | null =>
    intro r stack rest awaits ends
    exact read_token (tokens_word rfl (List.all_eq_true.mp rfl) rfl ends) (awaits _ nofun)
  | bool b =>
    intro r stack rest awaits ends
    cases b with
    | false => exact read_token (tokens_word rfl (List.all_eq_true.mp rfl) rfl ends) (awaits _ nofun)
    | true => exact read_token (tokens_word rfl (List.all_eq_true.mp rfl) rfl ends) (awaits _ nofun)
  | number sign =>
    intro r stack rest awaits ends
    exact read_token (tokens_number sign ends) (awaits _ nofun)
  | string s =>
    intro r stack rest awaits ends
    exact read_token tokens_quote (awaits _ nofun)
  | @array xs _ ih =>
    intro r stack rest awaits ends
    change r.read (91 :: (joined (itemTexts xs) ++ [93]) ++ rest) = _
    rw [List.cons_append, List.append_assoc, read_punctuation rfl (awaits .openBracket nofun)]
    cases xs with
    | nil => exact read_punctuation rfl rfl
    | cons x xs => exact read_items ih (awaits_first stack)
  | @object ms distinct _ ih =>
    intro r stack rest awaits ends
    change r.read (123 :: (joined ((memberTexts ms).map fun n => quote n.1 ++ 58 :: n.2) ++ [125]) ++
      rest) = _
    rw [List.cons_append, List.append_assoc, read_punctuation rfl (awaits .openBrace nofun)]
    cases ms with
    | nil => exact read_punctuation rfl rfl
    | cons m ms => exact read_members ih distinct

end Read

/-- The text of a plain value is read as the value. -/
theorem jsonParse_text {v : JsValue} (plain : v.Plain) : jsonParse v.text = some v := by
  have read := @reads_text _ plain (.value []) [] [] (awaits_value []) trivial
  rw [List.append_nil] at read
  rw [jsonParse_read, read]
  rfl

end Artoo.Lib
