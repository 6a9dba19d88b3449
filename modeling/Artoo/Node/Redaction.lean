import Artoo.Lib.EscapedForms
import Artoo.Lib.PlainParts

/-! The redaction of the provider key from what an agent process prints and reports. -/
namespace Artoo.Node.Redaction
open Lib

def marker : Units := units "[redacted]"

/-- `forms` are the forms of the key found so far, the last one first. -/
structure Redactor where
  secret : Units
  forms : List Units
  allFormsKnown : Bool

/-- Without a secret nothing is redacted. -/
def start (secret : Units) : Redactor :=
  if secret = [] then ⟨secret, [], true⟩ else ⟨secret, [secret], false⟩

/-- The loop that finds the forms that fit a text. -/
def extend (length : ℕ) : ℕ → Redactor → Redactor
  | 0, r => r
  | fuel + 1, r =>
    if r.allFormsKnown then r
    else
      match r.forms with
      | [] => r
      | last :: older =>
        if last.length ≤ length then
          if escapedAll last = last then { r with allFormsKnown := true }
          else extend length fuel { r with forms := escapedAll last :: last :: older }
        else r

/-- Each round finds a longer form. -/
def redact (r : Redactor) (text : Units) : Redactor × Units :=
  let r' := extend text.length (text.length + 1) r
  (r', r'.forms.foldl (fun value part => replaceAll part marker value) text)

def redactLine (r : Redactor) (raw : Units) : Redactor × Units :=
  if r.secret = [] then (r, raw)
  else
    match (jsonParse raw).bind JsValue.stringify with
    | none => redact r raw
    | some normalized =>
      let safe := redact r normalized
      if safe.2 = normalized then redact safe.1 raw else safe

inductive Stream where
  | stdout | stderr

/-- The events with a text of the process. -/
inductive RunEvent where
  | output (stream : Stream) (text : Units)
  | answer (text : Units)
  | lifecycle (reason : Option Units)
  | usage (providerSessionId : Option Units)

def RunEvent.text : RunEvent → Option Units
  | .output _ text | .answer text => some text
  | .lifecycle reason => reason
  | .usage providerSessionId => providerSessionId

def emit (r : Redactor) : RunEvent → Redactor × RunEvent
  | .output stream raw => ((redactLine r raw).1, .output stream (redactLine r raw).2)
  | .answer text => ((redact r text).1, .answer (redact r text).2)
  | .lifecycle none => (r, .lifecycle none)
  | .lifecycle (some reason) => ((redact r reason).1, .lifecycle (some (redact r reason).2))
  | .usage none => (r, .usage none)
  | .usage (some id) =>
    if id = [] then (r, .usage (some id)) else ((redact r id).1, .usage (some (redact r id).2))

/-- The events of a process, each with what is emitted for it. -/
def emitAll (r : Redactor) : List RunEvent → List (RunEvent × RunEvent)
  | [] => []
  | event :: events => (event, (emit r event).2) :: emitAll (emit r event).1 events

/-- Neither the key nor a form of it is in the text. -/
def Clean (key text : Units) : Prop := ∀ n, ¬ form key n <:+: text

/-- No string of the record that the text is of has the key in it. -/
def CleanRecord (key text : Units) : Prop :=
  ∀ v, jsonParse text = some v → ∀ s ∈ v.strings, ¬ key <:+: s

structure Redacted (key : Units) (event emitted : RunEvent) : Prop where
  clean : ∀ text, emitted.text = some text → Clean key text
  record : ∀ stream raw, event = .output stream raw → (jsonParse raw).isSome = true →
    ∀ text, emitted = .output stream text → CleanRecord key text

/-- No string of the line with the key is only in a member that a later one of its name replaces. -/
def Kept (key raw : Units) : Prop :=
  ∀ v tokens s, jsonParse raw = some v → tokensFrom .between raw = some tokens →
    .string s ∈ tokens → key <:+: s → ∃ s' ∈ v.strings, key <:+: s'

/-- JSON writes the key as it is; or it cannot end within an escape, and the line keeps it. -/
def Harmless (key raw : Units) : Prop :=
  escapedAll key = key ∨ endsInEscape key = false ∧ Kept key raw

theorem marker_eq : marker = 91 :: units "redacted]" := by decide

theorem marker_plain : 92 ∉ 91 :: units "redacted]" := by decide

theorem marker_inStrings : InStrings (91 :: units "redacted]") := by
  constructor
  · have all : ((91 :: units "redacted]").all fun u =>
        u != 92 && u != 34 && !decide (u < 32)) = true := by decide +kernel
    intro u among
    have plain := List.all_eq_true.mp all u among
    rw [Bool.and_eq_true, Bool.and_eq_true, bne_iff_ne, bne_iff_ne, Bool.not_eq_true',
      decide_eq_false_iff_not] at plain
    exact ⟨plain.1.1, plain.1.2, plain.2⟩
  · intro mode e outside
    have word : tokensFrom .between (units "redacted]" ++ e) = none := by
      have is : units "redacted]" = [114, 101, 100, 97, 99, 116, 101, 100, 93] := by decide
      rw [is]
      rfl
    have bracket : ∀ p, mode.next 91 = some p → p.2 = .between := by
      intro p found
      have opens : enter 91 = some (some .openBracket, .between) := rfl
      cases mode with
      | between =>
        cases found
        rfl
      | number back =>
        rw [Mode.next, if_neg (by decide)] at found
        obtain ⟨token, -, found⟩ := Option.bind_eq_some_iff.mp found
        rw [opens] at found
        cases found
        rfl
      | word back =>
        rw [Mode.next, if_neg (by decide)] at found
        obtain ⟨token, -, found⟩ := Option.bind_eq_some_iff.mp found
        rw [opens] at found
        cases found
        rfl
      | _ => cases outside
    rw [List.cons_append, tokens_next outside]
    cases found : mode.next 91 with
    | none => rfl
    | some p =>
      rw [Option.bind_some, bracket p found, word]
      rfl

section Key

variable {key text : Units} {r : Redactor}

/-- The forms are the first ones, and all of them where that is known. -/
structure Sound (key : Units) (r : Redactor) (n : ℕ) : Prop where
  secret : r.secret = key
  forms : r.forms = ((List.range (n + 1)).map (form key)).reverse
  known : r.allFormsKnown = true → escapedAll (form key n) = form key n

theorem sound_start (some_ : key ≠ []) : Sound key (start key) 0 := by
  unfold start
  rw [if_neg some_]
  exact ⟨rfl, rfl, fun off => by cases off⟩

theorem forms_succ (key : Units) (n : ℕ) : ((List.range (n + 1)).map (form key)).reverse =
    form key n :: ((List.range n).map (form key)).reverse := by
  rw [List.range_succ, List.map_append, List.reverse_append]
  rfl

/-- The loop comes to its end: all forms that fit are found. -/
theorem sound_extend {n fuel length : ℕ} (sound : Sound key r n)
    (enough : length < (form key n).length + fuel) : ∃ m, Sound key (extend length fuel r) m ∧
      ((extend length fuel r).allFormsKnown = true ∨ length < (form key m).length) := by
  induction fuel generalizing r n with
  | zero => exact ⟨n, sound, .inr enough⟩
  | succ fuel ih =>
    unfold extend
    split_ifs with known
    · exact ⟨n, sound, .inl known⟩
    · have forms := sound.forms
      rw [forms_succ] at forms
      rw [forms]
      dsimp only
      split_ifs with fits same
      · exact ⟨n, ⟨sound.secret, (forms_succ key n).symm, fun _ => same⟩, .inl rfl⟩
      · have next : Sound key { r with forms := escapedAll (form key n) :: form key n ::
            ((List.range n).map (form key)).reverse } (n + 1) := by
          refine ⟨sound.secret, ?_, fun off => absurd off known⟩
          rw [forms_succ, forms_succ, form_succ]
        apply ih next
        have longer := (escapedAll_length (form key n)).resolve_left same
        rw [form_succ]
        omega
      · exact ⟨n, sound, .inr (Nat.not_le.mp fits)⟩

theorem mem_forms {n : ℕ} (sound : Sound key r n) {part : Units} :
    part ∈ r.forms ↔ ∃ i ≤ n, form key i = part := by
  rw [sound.forms, List.mem_reverse, List.mem_map]
  simp only [List.mem_range, Nat.lt_succ_iff]

/-- The replacements of several parts. -/
theorem not_infix_foldl {m q : Units} (apart : Apart q m) {parts : List Units}
    (each : ∀ p ∈ parts, p ≠ []) {text : Units} (or_ : q ∈ parts ∨ ¬ q <:+: text) :
    ¬ q <:+: parts.foldl (fun value part => replaceAll part m value) text := by
  induction parts generalizing text with
  | nil => exact or_.resolve_left List.not_mem_nil
  | cons p parts ih =>
    have some_ := each p List.mem_cons_self
    apply ih fun p' among => each p' (List.mem_cons_of_mem _ among)
    rcases or_ with among | free
    · rcases List.mem_cons.mp among with rfl | later
      · exact .inr (not_infix_replaceAll some_ apart (.inl rfl))
      · exact .inl later
    · exact .inr (not_infix_replaceAll some_ apart (.inr free))

theorem redacts_foldl {P : Units → Prop} {m : Units} (apart : ∀ p, P p → Apart p m)
    {parts : List Units} (each : ∀ p ∈ parts, p ≠ [] ∧ P p) {t e : Units}
    (redacts : Redacts P m t e) :
    Redacts P m t (parts.foldl (fun value part => replaceAll part m value) e) := by
  induction parts generalizing e with
  | nil => exact redacts
  | cons p parts ih =>
    obtain ⟨some_, part⟩ := each p List.mem_cons_self
    apply ih fun p' among => each p' (List.mem_cons_of_mem _ among)
    exact Redacts.replaceAll apart (c := []) some_ part redacts

def FormOf (key part : Units) : Prop := ∃ n, form key n = part

/-- What a redaction does: it leaves no form, and replaces only forms. -/
theorem redact_spec {n : ℕ} (some_ : key ≠ []) (apart : Apart key marker)
    (sound : Sound key r n) (text : Units) : (∃ m, Sound key (redact r text).1 m) ∧
      Clean key (redact r text).2 ∧ Redacts (FormOf key) marker text (redact r text).2 := by
  rw [marker_eq] at apart
  have apart_ : ∀ i, Apart (form key i) marker := by
    rw [marker_eq]
    exact apart_form marker_plain apart
  have enough : text.length < (form key n).length + (text.length + 1) := by omega
  obtain ⟨m, sound', all⟩ := sound_extend sound enough
  have some_' : ∀ p ∈ (extend text.length (text.length + 1) r).forms, p ≠ [] := by
    intro p among
    obtain ⟨i, -, rfl⟩ := (mem_forms sound').mp among
    exact form_ne_nil some_ i
  refine ⟨⟨m, sound'⟩, ?_, ?_⟩
  · intro i
    apply not_infix_foldl (apart_ i) some_'
    rw [mem_forms sound']
    rcases Nat.le_total i m with le | le
    · exact .inl ⟨i, le, rfl⟩
    · rcases all with known | long
      · exact .inl ⟨m, Nat.le_refl m, (form_stable (sound'.known known) le).symm⟩
      · right
        intro found
        have short := found.length_le
        have longer : (form key m).length ≤ (form key i).length := form_length_le le
        omega
  · refine redacts_foldl ?_ ?_ (.done text)
    · rintro p ⟨i, rfl⟩
      exact apart_ i
    · intro p among
      obtain ⟨i, -, is⟩ := (mem_forms sound').mp among
      exact ⟨some_' p among, i, is⟩

theorem clean_line {n : ℕ} (some_ : key ≠ []) (apart : Apart key marker) (sound : Sound key r n)
    (raw : Units) : (∃ m, Sound key (redactLine r raw).1 m) ∧ Clean key (redactLine r raw).2 := by
  unfold redactLine
  rw [sound.secret, if_neg some_]
  split
  · obtain ⟨sound', clean, -⟩ := redact_spec some_ apart sound raw
    exact ⟨sound', clean⟩
  · rename_i normalized _
    obtain ⟨⟨m, sound'⟩, clean, -⟩ := redact_spec some_ apart sound normalized
    dsimp only
    split_ifs
    · obtain ⟨sound'', clean', -⟩ := redact_spec some_ apart sound' raw
      exact ⟨sound'', clean'⟩
    · exact ⟨⟨m, sound'⟩, clean⟩

/-- What a string of an emitted record spells was spelled before the redaction. -/
theorem spelled_before {t e : Units} {tokens : List Token} {v : JsValue} {s : Units}
    (some_ : key ≠ []) (apart : Apart key marker) (ends : endsInEscape key = false)
    (redacts : Redacts (FormOf key) marker t e) (is : tokensFrom .between t = some tokens)
    (record : jsonParse e = some v) (among : s ∈ v.strings) (part : key <:+: s) :
    ∃ r x, Reach t r ∧ Spells x key ∧ x <+: r ∧ x <:+: e := by
  obtain ⟨tokens', is', strings⟩ := strings_jsonParse record
  obtain ⟨r, x, reach, spells, here⟩ := spelled_of_part is' (strings s among) part
  rw [marker_eq] at apart redacts
  have ends_ : ∀ p, FormOf key p → endsInEscape p = false := by
    rintro p ⟨n, rfl⟩
    exact endsInEscape_form ends n
  obtain ⟨r', reach', here'⟩ := redacts.reach_back marker_plain ends_ apart some_
    (alive_of_tokens rfl is) (alive_of_tokens rfl is') reach spells here
  exact ⟨r', x, reach', spells, here', here.isInfix.trans reach.suffix.isInfix⟩

/-- A written value with the key in a string has its form in the text. -/
theorem form_of_written {v : JsValue} {s : Units} (some_ : key ≠ []) (paired : Paired key)
    (plain : v.Plain) (among : s ∈ v.strings) (part : key <:+: s) : form key 1 <:+: v.text := by
  obtain ⟨tokens, is, strings⟩ := strings_jsonParse (jsonParse_text plain)
  obtain ⟨r, x, reach, spells, here⟩ := spelled_of_part is (strings s among) part
  have same := (written_text plain).spells paired some_ reach spells here
  subst same
  exact here.isInfix.trans reach.suffix.isInfix

/-- The line itself is redacted, and its record has no key in it. -/
theorem clean_direct {n : ℕ} {raw : Units} {v : JsValue} (some_ : key ≠ [])
    (apart : Apart key marker) (sound : Sound key r n) (harmless : Harmless key raw)
    (is : jsonParse raw = some v) (free : ∀ s ∈ v.strings, ¬ key <:+: s) :
    CleanRecord key (redact r raw).2 := by
  obtain ⟨tokens, tokens_, -⟩ := strings_jsonParse is
  obtain ⟨-, clean, redacts⟩ := redact_spec some_ apart sound raw
  intro w record s among part
  rcases harmless with stable | ⟨ends, kept⟩
  · have alone : ∀ p, FormOf key p → p = key := by
      rintro p ⟨n, rfl⟩
      have first : escapedAll (form key 0) = form key 0 := stable
      exact form_stable first (Nat.zero_le n)
    rw [marker_eq] at redacts
    rcases sameValue_jsonParse (plainPart_of_stable stable) some_ marker_inStrings
      (redacts.mono alone) is record with rfl | ⟨s', among', within⟩
    · exact free s among part
    · exact free s' among' within
  · obtain ⟨place, x, reach, spells, here, left⟩ :=
      spelled_before some_ apart ends redacts tokens_ record among part
    rcases part_of_reach tokens_ reach spells here with rfl | ⟨s', there, within⟩
    · exact clean 0 left
    · obtain ⟨s'', there', within'⟩ := kept v tokens s' is tokens_ there within
      exact free s'' there' within'

/-- What JSON writes as it is cannot end within an escape. -/
theorem ends_of_harmless {raw : Units} (harmless : Harmless key raw) :
    endsInEscape key = false := by
  rcases harmless with stable | ⟨ends, -⟩
  · rw [← Bool.not_eq_true]
    intro broken
    obtain ⟨z, there, broken⟩ := List.any_eq_true.mp broken
    obtain ⟨y, rfl⟩ := partialEscape_head broken
    have slash : (92 : UInt16) ∈ key :=
      ((List.mem_tails ..).mp there).subset List.mem_cons_self
    exact (plainPart_of_stable stable 92 slash).1 rfl
  · exact ends

theorem clean_record {n : ℕ} {raw : Units} {v : JsValue} (some_ : key ≠ []) (paired : Paired key)
    (apart : Apart key marker) (sound : Sound key r n) (harmless : Harmless key raw)
    (is : jsonParse raw = some v) : CleanRecord key (redactLine r raw).2 := by
  have plain := (distinct_jsonParse is).plain
  have ends := ends_of_harmless harmless
  unfold redactLine
  rw [sound.secret, if_neg some_, is, Option.bind_some]
  unfold JsValue.stringify
  split_ifs with undefined
  · apply clean_direct some_ apart sound harmless is
    intro s among
    cases v with
    | undefined => cases among
    | _ => cases undefined
  · obtain ⟨⟨m, sound'⟩, clean, redacts⟩ := redact_spec some_ apart sound v.serialized.text
    dsimp only
    split_ifs with same
    · apply clean_direct some_ apart sound' harmless is
      intro s among part
      rw [same] at clean
      have among' := strings_serialized is among
      exact clean 1 (form_of_written some_ paired plain among' part)
    · intro w record s among part
      obtain ⟨tokens', written, -⟩ := strings_jsonParse (jsonParse_text plain)
      obtain ⟨place, x, reach, spells, here, left⟩ :=
        spelled_before some_ apart ends redacts written record among part
      have spelled := (written_text plain).spells paired some_ reach spells here
      subst spelled
      exact clean 1 left

theorem redacted_emit {n : ℕ} (some_ : key ≠ []) (paired : Paired key) (apart : Apart key marker)
    (sound : Sound key r n) (event : RunEvent)
    (harmless : ∀ stream raw, event = .output stream raw → Harmless key raw) :
    (∃ m, Sound key (emit r event).1 m) ∧ Redacted key event (emit r event).2 := by
  cases event with
  | output stream raw =>
    obtain ⟨sound', clean⟩ := clean_line some_ apart sound raw
    refine ⟨sound', ?_, ?_⟩
    · rintro text ⟨⟩
      exact clean
    · rintro stream' raw' ⟨⟩ json text ⟨⟩
      obtain ⟨v, is⟩ := Option.isSome_iff_exists.mp json
      exact clean_record some_ paired apart sound (harmless stream raw rfl) is
  | answer text =>
    obtain ⟨sound', clean, -⟩ := redact_spec some_ apart sound text
    refine ⟨sound', ?_, ?_⟩
    · rintro text' ⟨⟩
      exact clean
    · rintro _ _ ⟨⟩
  | lifecycle reason =>
    cases reason with
    | none =>
      refine ⟨⟨n, sound⟩, ?_, ?_⟩
      · rintro text ⟨⟩
      · rintro _ _ ⟨⟩
    | some reason =>
      obtain ⟨sound', clean, -⟩ := redact_spec some_ apart sound reason
      refine ⟨sound', ?_, ?_⟩
      · rintro text ⟨⟩
        exact clean
      · rintro _ _ ⟨⟩
  | usage id =>
    cases id with
    | none =>
      refine ⟨⟨n, sound⟩, ?_, ?_⟩
      · rintro text ⟨⟩
      · rintro _ _ ⟨⟩
    | some id =>
      rw [emit]
      split_ifs with empty
      · refine ⟨⟨n, sound⟩, ?_, ?_⟩
        · rintro text ⟨⟩ i found
          rw [empty] at found
          exact form_ne_nil some_ i (List.infix_nil.mp found)
        · rintro _ _ ⟨⟩
      · obtain ⟨sound', clean, -⟩ := redact_spec some_ apart sound id
        refine ⟨sound', ?_, ?_⟩
        · rintro text ⟨⟩
          exact clean
        · rintro _ _ ⟨⟩

theorem redacted_from {n : ℕ} (some_ : key ≠ []) (paired : Paired key) (apart : Apart key marker)
    (sound : Sound key r n) (events : List RunEvent)
    (harmless : ∀ stream raw, .output stream raw ∈ events → Harmless key raw) :
    ∀ entry ∈ emitAll r events, Redacted key entry.1 entry.2 := by
  induction events generalizing r n with
  | nil => exact List.forall_mem_nil _
  | cons event events ih =>
    have first : ∀ stream raw, event = .output stream raw → Harmless key raw := by
      rintro stream raw rfl
      exact harmless stream raw List.mem_cons_self
    obtain ⟨⟨m, sound'⟩, redacted⟩ := redacted_emit some_ paired apart sound event first
    intro entry among
    rcases List.mem_cons.mp among with rfl | later
    · exact redacted
    · exact ih sound' (fun stream raw there => harmless stream raw (List.mem_cons_of_mem _ there))
        entry later

end Key

/-- The key `q"z`. -/
def quotedKey : Units := [113, 34, 122]

/-- The line `["q\u0022z"]`. -/
def quotedLine : Units := [91, 34, 113, 92, 117, 48, 48, 50, 50, 122, 34, 93]

theorem apart_quoted : Apart quotedKey marker := by
  rw [marker_eq]
  decide +kernel

theorem jsonParse_quoted : jsonParse quotedLine = some (.array [.string quotedKey]) := by
  have tokens : tokensFrom .between quotedLine =
      some [.openBracket, .string quotedKey, .closeBracket] := by decide +kernel
  unfold jsonParse
  rw [tokens]
  rfl

theorem paired_quoted : Paired quotedKey := .unit rfl (.unit rfl (.unit rfl .nil))

/-- The key `","k\`, which ends with a backslash. -/
def slashKey : Units := [34, 44, 34, 107, 92]

/-- The line `["x","k\\u0022,\"k\\"]`. -/
def slashLine : Units :=
  [91, 34, 120, 34, 44, 34, 107, 92, 92, 117, 48, 48, 50, 50, 44, 92, 34, 107, 92, 92, 34, 93]

def slashStrings : List Units :=
  [[120], [107, 92, 117, 48, 48, 50, 50, 44, 34, 107, 92]]

/-- It is emitted as `["x[redacted]\u0022,\"k\\"]`. -/
def slashEmitted : Units :=
  [91, 34, 120, 91, 114, 101, 100, 97, 99, 116, 101, 100, 93, 92, 117, 48, 48, 50, 50, 44, 92, 34,
   107, 92, 92, 34, 93]

theorem jsonParse_slashLine :
    jsonParse slashLine = some (.array (slashStrings.map JsValue.string)) := by
  have tokens : tokensFrom .between slashLine = some [.openBracket, .string [120], .comma,
      .string (slashStrings.getD 1 []), .closeBracket] := by decide +kernel
  unfold jsonParse
  rw [tokens]
  rfl

theorem emitted_slash : (redactLine (start slashKey) slashLine).2 = slashEmitted := by
  have written : JsValue.stringify (.array (slashStrings.map JsValue.string)) = some slashLine := by
    decide +kernel
  have safe : (redact (start slashKey) slashLine).2 = slashEmitted := by decide +kernel
  unfold redactLine
  rw [if_neg (by decide +kernel), jsonParse_slashLine, Option.bind_some, written]
  dsimp only
  rw [if_neg (by rw [safe]; decide +kernel), safe]

/-- The string of the record that is emitted, with the key in it. -/
def slashString : Units :=
  [120, 91, 114, 101, 100, 97, 99, 116, 101, 100, 93, 34, 44, 34, 107, 92]

theorem jsonParse_slashEmitted : jsonParse slashEmitted = some (.array [.string slashString]) := by
  have tokens : tokensFrom .between slashEmitted = some [.openBracket, .string slashString,
      .closeBracket] := by decide +kernel
  unfold jsonParse
  rw [tokens]
  rfl

end Artoo.Node.Redaction
