import Artoo.Lib.NumberText
import Artoo.Lib.Utf16

/-! JSON text: how a value is written, and how a text is read. A text is read by a machine that goes
through its code units once, and by one with a stack that goes through its tokens. -/
namespace Artoo.Lib

/-- Plain data of JavaScript. The members of an object stand in the order they were added in. -/
inductive JsValue where
  | undefined
  | null
  | bool (b : Bool)
  | number (x : JsNumber)
  | string (s : Units)
  | array (items : List JsValue)
  | object (members : List (Units × JsValue))

namespace JsValue

@[elab_as_elim]
theorem induct {P : JsValue → Prop} (undefined : P .undefined) (null : P .null)
    (bool : ∀ b, P (.bool b)) (number : ∀ x, P (.number x)) (string : ∀ s, P (.string s))
    (array : ∀ xs, (∀ x ∈ xs, P x) → P (.array xs))
    (object : ∀ ms, (∀ m ∈ ms, P m.2) → P (.object ms)) (v : JsValue) : P v :=
  JsValue.rec (motive_1 := P) (motive_2 := fun xs => ∀ x ∈ xs, P x)
    (motive_3 := fun ms => ∀ m ∈ ms, P m.2) (motive_4 := fun m => P m.2)
    undefined null bool number string array object
    (fun _ member => nomatch member)
    (fun _ _ head tail x member => (List.mem_cons.mp member).elim (fun is => is ▸ head) (tail x))
    (fun _ member => nomatch member)
    (fun _ _ head tail m member => (List.mem_cons.mp member).elim (fun is => is ▸ head) (tail m))
    (fun _ _ ih => ih) v

def isUndefined : JsValue → Bool
  | .undefined => true
  | _ => false

end JsValue

/-! ## Writing -/

/-- A hexadecimal digit, in lower case. -/
def hexUnit (d : ℕ) : UInt16 := UInt16.ofNat (if d < 10 then 48 + d else 87 + d)

/-- A code unit of a string, as `QuoteJSONString` writes it where it is no part of a pair. -/
def escaped (u : UInt16) : Units :=
  if u = 8 then units "\\b"
  else if u = 9 then units "\\t"
  else if u = 10 then units "\\n"
  else if u = 12 then units "\\f"
  else if u = 13 then units "\\r"
  else if u = 34 || u = 92 then [92, u]
  else if u < 32 || surrogate u then
    units "\\u" ++ [hexUnit (u.toNat / 4096), hexUnit (u.toNat / 256 % 16),
      hexUnit (u.toNat / 16 % 16), hexUnit (u.toNat % 16)]
  else [u]

def escapedAll : Units → Units
  | [] => []
  | [u] => escaped u
  | u :: v :: rest =>
    if highSurrogate u && lowSurrogate v then u :: v :: escapedAll rest
    else escaped u ++ escapedAll (v :: rest)

/-- `QuoteJSONString`. -/
def quote (s : Units) : Units := 34 :: escapedAll s ++ [34]

/-- `join(",")`. -/
def joined (texts : List Units) : Units := [44].intercalate texts

def arrayText (items : List Units) : Units := 91 :: joined items ++ [93]

def objectText (members : List (Units × Units)) : Units :=
  123 :: joined (members.map fun m => quote m.1 ++ 58 :: m.2) ++ [125]

def numberText (x : JsNumber) : Units := x.text.map unit

mutual

/-- A value as it is written, its members in their order. -/
def JsValue.text : JsValue → Units
  | .undefined | .null => units "null"
  | .bool b => units (if b then "true" else "false")
  | .number x => numberText x
  | .string s => quote s
  | .array xs => arrayText (itemTexts xs)
  | .object ms => objectText (memberTexts ms)

def itemTexts : List JsValue → List Units
  | [] => []
  | x :: xs => x.text :: itemTexts xs

def memberTexts : List (Units × JsValue) → List (Units × Units)
  | [] => []
  | (k, x) :: ms => (k, x.text) :: memberTexts ms

end

/-! ## Tokens -/

inductive Token where
  | openBrace | closeBrace | openBracket | closeBracket | colon | comma
  | string (s : Units)
  | number (x : JsNumber)
  | bool (b : Bool)
  | null
  deriving DecidableEq

/-- What is being read; code units read so far are kept in reverse. -/
inductive Mode where
  | between
  | string (back : Units)
  | escape (back : Units)
  | hex (back : Units) (count value : ℕ)
  | number (back : Units)
  | word (back : Units)

def punctuation (u : UInt16) : Option Token :=
  if u = 123 then some .openBrace
  else if u = 125 then some .closeBrace
  else if u = 91 then some .openBracket
  else if u = 93 then some .closeBracket
  else if u = 58 then some .colon
  else if u = 44 then some .comma
  else none

def whiteSpace (u : UInt16) : Bool := u = 32 || u = 9 || u = 10 || u = 13

def numberUnit (u : UInt16) : Bool := numeralChar (unitChar u)

def wordUnit (u : UInt16) : Bool := 97 ≤ u && u ≤ 122

/-- A code unit that does not go on with a number or a word. -/
def enter (u : UInt16) : Option (Option Token × Mode) :=
  if whiteSpace u then some (none, .between)
  else
    match punctuation u with
    | some t => some (some t, .between)
    | none =>
      if u = 34 then some (none, .string [])
      else if numberUnit u then some (none, .number [u])
      else if wordUnit u then some (none, .word [u])
      else none

def numberToken (back : Units) : Option Token := (jsonNumber (back.reverse.map unitChar)).map .number

def wordToken (back : Units) : Option Token :=
  if back.reverse = units "true" then some (.bool true)
  else if back.reverse = units "false" then some (.bool false)
  else if back.reverse = units "null" then some .null
  else none

/-- What a short escape stands for. -/
def unescape (u : UInt16) : Option UInt16 :=
  if u = 34 || u = 92 || u = 47 then some u
  else if u = 98 then some 8
  else if u = 116 then some 9
  else if u = 110 then some 10
  else if u = 102 then some 12
  else if u = 114 then some 13
  else none

def hexValue (u : UInt16) : Option ℕ :=
  if 48 ≤ u && u ≤ 57 then some (u.toNat - 48)
  else if 97 ≤ u && u ≤ 102 then some (u.toNat - 87)
  else if 65 ≤ u && u ≤ 70 then some (u.toNat - 55)
  else none

def tokensFrom : Mode → Units → Option (List Token)
  | .between, [] => some []
  | .number back, [] => (numberToken back).map ([·])
  | .word back, [] => (wordToken back).map ([·])
  | _, [] => none
  | .between, u :: us => (enter u).bind fun e => (tokensFrom e.2 us).map (e.1.toList ++ ·)
  | .number back, u :: us =>
    if numberUnit u then tokensFrom (.number (u :: back)) us
    else (numberToken back).bind fun t =>
      (enter u).bind fun e => (tokensFrom e.2 us).map (t :: e.1.toList ++ ·)
  | .word back, u :: us =>
    if wordUnit u then tokensFrom (.word (u :: back)) us
    else (wordToken back).bind fun t =>
      (enter u).bind fun e => (tokensFrom e.2 us).map (t :: e.1.toList ++ ·)
  | .string back, u :: us =>
    if u = 34 then (tokensFrom .between us).map (.string back.reverse :: ·)
    else if u = 92 then tokensFrom (.escape back) us
    else if u < 32 then none
    else tokensFrom (.string (u :: back)) us
  | .escape back, u :: us =>
    if u = 117 then tokensFrom (.hex back 0 0) us
    else (unescape u).bind fun v => tokensFrom (.string (v :: back)) us
  | .hex back count value, u :: us => (hexValue u).bind fun d =>
    if count = 3 then tokensFrom (.string (UInt16.ofNat (16 * value + d) :: back)) us
    else tokensFrom (.hex back (count + 1) (16 * value + d)) us

section Steps

variable {back us : Units} {u : UInt16}

theorem tokens_between : tokensFrom .between (u :: us) =
    (enter u).bind fun e => (tokensFrom e.2 us).map (e.1.toList ++ ·) := rfl

theorem tokens_number_cons : tokensFrom (.number back) (u :: us) =
    if numberUnit u then tokensFrom (.number (u :: back)) us
    else (numberToken back).bind fun t =>
      (enter u).bind fun e => (tokensFrom e.2 us).map (t :: e.1.toList ++ ·) := rfl

theorem tokens_word_cons : tokensFrom (.word back) (u :: us) =
    if wordUnit u then tokensFrom (.word (u :: back)) us
    else (wordToken back).bind fun t =>
      (enter u).bind fun e => (tokensFrom e.2 us).map (t :: e.1.toList ++ ·) := rfl

theorem tokens_string_cons : tokensFrom (.string back) (u :: us) =
    if u = 34 then (tokensFrom .between us).map (.string back.reverse :: ·)
    else if u = 92 then tokensFrom (.escape back) us
    else if u < 32 then none
    else tokensFrom (.string (u :: back)) us := rfl

theorem tokens_hex_cons {count value : ℕ} : tokensFrom (.hex back count value) (u :: us) =
    (hexValue u).bind fun d =>
      if count = 3 then tokensFrom (.string (UInt16.ofNat (16 * value + d) :: back)) us
      else tokensFrom (.hex back (count + 1) (16 * value + d)) us := rfl

end Steps

/-! ## Reading -/

/-- A place in an array or an object that is being read. -/
inductive Frame where
  | items (before : List JsValue)
  | members (before : List (Units × JsValue)) (key : Units)

inductive Reader where
  /-- a value is to follow -/
  | value (stack : List Frame)
  /-- the first item of an array, or its end -/
  | first (stack : List Frame)
  /-- a key; where there is no member yet, it may be the end -/
  | key (stack : List Frame) (before : List (Units × JsValue)) (may : Bool)
  | colon (stack : List Frame) (before : List (Units × JsValue)) (key : Units)
  /-- a value was read -/
  | next (stack : List Frame) (v : JsValue)

/-- A later member takes the place of an earlier one with its key. -/
def putMember (members : List (Units × JsValue)) (key : Units) (v : JsValue) :
    List (Units × JsValue) :=
  if members.any (·.1 == key) then members.map fun m => if m.1 = key then (key, v) else m
  else members ++ [(key, v)]

def readValue (stack : List Frame) : Token → Option Reader
  | .string s => some (.next stack (.string s))
  | .number x => some (.next stack (.number x))
  | .bool b => some (.next stack (.bool b))
  | .null => some (.next stack .null)
  | .openBracket => some (.first stack)
  | .openBrace => some (.key stack [] true)
  | _ => none

def Reader.step : Reader → Token → Option Reader
  | .value stack, t => readValue stack t
  | .first stack, .closeBracket => some (.next stack (.array []))
  | .first stack, t => readValue (.items [] :: stack) t
  | .key stack before _, .string k => some (.colon stack before k)
  | .key stack _ true, .closeBrace => some (.next stack (.object []))
  | .colon stack before k, .colon => some (.value (.members before k :: stack))
  | .next (.items before :: stack) v, .comma => some (.value (.items (before ++ [v]) :: stack))
  | .next (.items before :: stack) v, .closeBracket => some (.next stack (.array (before ++ [v])))
  | .next (.members before k :: stack) v, .comma => some (.key stack (putMember before k v) false)
  | .next (.members before k :: stack) v, .closeBrace =>
    some (.next stack (.object (putMember before k v)))
  | _, _ => none

def Reader.run (r : Reader) (tokens : List Token) : Option Reader := tokens.foldlM Reader.step r

def Reader.result : Reader → Option JsValue
  | .next [] v => some v
  | _ => none

/-- `JSON.parse`. -/
def jsonParse (text : Units) : Option JsValue := do
  let tokens ← tokensFrom .between text
  let reader ← (Reader.value []).run tokens
  reader.result

end Artoo.Lib
