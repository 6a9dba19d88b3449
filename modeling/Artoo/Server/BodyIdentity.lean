import Artoo.Domain.Lease
import Artoo.Lib.Schema

/-! The identity of a run event frame: the hash of the event that the schema parses from it. -/
namespace Artoo.Server.Frames
open Artoo.Lib Artoo.Domain JsValue

/-! ## The schemas of a frame -/

/-- `z.string().min(least).max(most)`. -/
def lengthWithin (least : ℕ) (most : Option ℕ) (s : Units) : Bool :=
  decide (least ≤ s.length) && most.all fun n => decide (s.length ≤ n)

/-- `z.number().int().nonnegative().max(most)`. -/
def intUpTo (most : ℕ) (x : JsNumber) : Bool :=
  x.value.any fun (q : ℚ) => q.den == 1 && decide (0 ≤ q) && decide (q ≤ most)

def maxSafeInteger : ℕ := 9007199254740991

def noNul (s : Units) : Bool := !s.contains 0

/-- `value === value.trim()`. -/
def isTrim (s : Units) : Bool :=
  (s.head?.all fun u => !isTrimmed (unitChar u)) && s.getLast?.all fun u => !isTrimmed (unitChar u)

open Schema

def path : Schema := string fun s => lengthWithin 1 (some 4096) s && noNul s

def branch : Schema := string fun s => lengthWithin 1 (some 1024) s && noNul s && isTrim s

def workspaceRetentionOutcomeSchema : Schema :=
  enum ["completed", "failed", "cancelled", "incomplete_delivery", "unconfirmed"]

def runOutputPayloadSchema : Schema :=
  object [("stream", enum ["stdout", "stderr"]), ("text", string fun _ => true)]

def runAnswerPayloadSchema : Schema := object [("text", string (lengthWithin 1 (some 200000)))]

def runUsagePayloadSchema : Schema :=
  object [("input_tokens", optional (number (intUpTo maxSafeInteger))),
    ("output_tokens", optional (number (intUpTo maxSafeInteger))),
    ("cached_input_tokens", optional (number (intUpTo maxSafeInteger))),
    ("cost_usd", optional (number fun x => x.value.any fun q => decide (0 ≤ q))),
    ("currency", optional (literal "USD")),
    ("provider_session_id", optional (string (lengthWithin 1 (some 500))))]

def runLifecyclePayloadSchema : Schema :=
  object [("phase", enum ["started", "completed", "failed", "cancelled", "paused", "resumed"]),
    ("reason", nullish (string fun _ => true))]

def artifactTypeSchema : Schema :=
  enum ["patch", "pull_request", "file", "screenshot", "report", "log_bundle", "url", "test_result",
    "contract"]

def artifactPayloadSchema : Schema :=
  object [("type", artifactTypeSchema), ("uri", string fun _ => true),
    ("metadata", withDefault (.object []) (record unknown)),
    ("checksum", nullish (string fun _ => true))]

def runWorkspaceRetainedPayloadSchema : Schema :=
  strictObject [("version", number fun x => x.value == some 1), ("workspace_root", path),
    ("workspace_branch", branch), ("outcome", workspaceRetentionOutcomeSchema)]

/-- An option of the union: the type of the event and the schema of its payload. -/
def eventOption (type : String) (payload : Schema) : String × Schema :=
  (type, object [("type", literal type), ("payload", payload)])

def runEventBodySchema : Schema :=
  discriminatedUnion "type" [eventOption "run.output" runOutputPayloadSchema,
    eventOption "run.answer" runAnswerPayloadSchema, eventOption "run.usage" runUsagePayloadSchema,
    eventOption "run.lifecycle" runLifecyclePayloadSchema,
    eventOption "artifact.created" artifactPayloadSchema,
    eventOption "run.workspace.retained" runWorkspaceRetainedPayloadSchema]

def runEventMessageSchema : Schema :=
  object [("kind", literal "run.event"), ("node_id", string (lengthWithin 1 none)),
    ("run_id", string (lengthWithin 1 none)), ("sequence", number (intUpTo 2147483647)),
    ("event", runEventBodySchema)]

/-! ## The identity -/

mutual

/-- Nothing where it throws. The texts of the members are put in the order of their keys. -/
def canonicalJson : JsValue → Option Units
  | .null => some (units "null")
  | .string s => some (quote s)
  | .bool b => some (units (if b then "true" else "false"))
  | .number (.finite negative m) => some (numberText (.finite negative m))
  | .array xs => (canonicalItems xs).map arrayText
  | .object ms => (canonicalMembers ms).map fun texts => objectText (sortMembers texts)
  | _ => none

def canonicalItems : List JsValue → Option (List Units)
  | [] => some []
  | x :: xs => do
    let text ← canonicalJson x
    let texts ← canonicalItems xs
    return text :: texts

def canonicalMembers : List (Units × JsValue) → Option (List (Units × Units))
  | [] => some []
  | (k, x) :: ms =>
    if x.isUndefined then canonicalMembers ms
    else do
      let text ← canonicalJson x
      let texts ← canonicalMembers ms
      return (k, text) :: texts

end

/-- The bytes of a string that is written as UTF-8. -/
def utf8 (s : Units) : ByteArray := (String.ofList (characters s)).toByteArray

/-- The identity of a body; `sha256` is the digest in hexadecimal. -/
def bodyIdentity (sha256 : ByteArray → String) (body : Units) : String :=
  "run-event-body-v1:sha256:" ++ sha256 (utf8 (units "artoo.run-event.body/v1\x00") ++ utf8 body)

structure Qualified where
  message : List (Units × JsValue)
  bodyIdentity : String

def Qualified.event (q : Qualified) : JsValue := get q.message "event"

/-- Nothing where it throws. -/
def qualifyRunEventMessage (sha256 : ByteArray → String) (raw : JsValue) : Option Qualified := do
  let wire ← stringify raw
  let parsed ← jsonParse wire
  match ← runEventMessageSchema parsed with
  | .object message => do
    let body ← canonicalJson (get message "event")
    return { message, bodyIdentity := bodyIdentity sha256 body }
  | _ => none

/-! ## The text of a value -/

variable {v w : JsValue} {xs : List JsValue} {ms : List (Units × JsValue)} {text : Units}

theorem itemTexts_eq : itemTexts xs = xs.map JsValue.text := by
  induction xs with
  | nil => rfl
  | cons x xs ih => rw [itemTexts, ih, List.map_cons]

theorem memberTexts_eq : memberTexts ms = ms.map fun m => (m.1, m.2.text) := by
  induction ms with
  | nil => rfl
  | cons m ms ih => rw [memberTexts, ih, List.map_cons]

theorem canonicalItems_text (each : ∀ x ∈ xs, canonicalJson x = some x.normal.text) :
    canonicalItems xs = some (itemTexts (normalItems xs)) := by
  induction xs with
  | nil => rfl
  | cons x xs ih =>
    unfold canonicalItems
    rw [each x List.mem_cons_self, ih fun y there => each y (List.mem_cons_of_mem _ there)]
    rfl

theorem canonicalMembers_text
    (each : ∀ m ∈ ms, m.2.isUndefined = false → canonicalJson m.2 = some m.2.normal.text) :
    canonicalMembers ms = some (memberTexts (normalMembers ms)) := by
  induction ms with
  | nil => rfl
  | cons m ms ih =>
    have rest := ih fun n there => each n (List.mem_cons_of_mem _ there)
    unfold canonicalMembers normalMembers
    split
    · exact rest
    · rename_i plain
      rw [each m List.mem_cons_self (Bool.eq_false_iff.mpr plain), rest]
      rfl

/-- The canonical text is the text of the normal form. -/
theorem canonicalJson_text (json : IsJson v) : canonicalJson v = some v.normal.text := by
  induction json with
  | null => rfl
  | bool b => rfl
  | number negative m =>
    have same : numberText (.finite negative m) =
        numberText (.finite (negative && decide (m.value ≠ 0)) m) := by
      unfold numberText
      rw [text_finite, text_finite, Bool.and_assoc, Bool.and_self]
    exact congrArg some same
  | string s => rfl
  | array _ ih =>
    unfold canonicalJson
    rw [canonicalItems_text ih]
    rfl
  | object _ _ ih =>
    unfold canonicalJson
    rw [canonicalMembers_text ih, Option.map_some, memberTexts_eq, sortMembers_map, ← memberTexts_eq]
    rfl

theorem canonicalItems_some {texts : List Units} (is : canonicalItems xs = some texts) :
    ∀ x ∈ xs, ∃ text, canonicalJson x = some text := by
  induction xs generalizing texts with
  | nil => nofun
  | cons x xs ih =>
    unfold canonicalItems at is
    obtain ⟨text, first, is⟩ := Option.bind_eq_some_iff.mp is
    obtain ⟨others, rest, _⟩ := Option.bind_eq_some_iff.mp is
    intro y there
    rcases List.mem_cons.mp there with rfl | there
    · exact ⟨text, first⟩
    · exact ih rest y there

theorem canonicalMembers_some {texts : List (Units × Units)} (is : canonicalMembers ms = some texts) :
    ∀ m ∈ ms, m.2.isUndefined = false → ∃ text, canonicalJson m.2 = some text := by
  induction ms generalizing texts with
  | nil => nofun
  | cons n ms ih =>
    intro m there plain
    unfold canonicalMembers at is
    split at is
    · rename_i undefined
      rcases List.mem_cons.mp there with rfl | there
      · exact absurd (undefined.symm.trans plain) nofun
      · exact ih is m there plain
    · obtain ⟨text, first, is⟩ := Option.bind_eq_some_iff.mp is
      obtain ⟨others, rest, _⟩ := Option.bind_eq_some_iff.mp is
      rcases List.mem_cons.mp there with rfl | there
      · exact ⟨text, first⟩
      · exact ih rest m there plain

/-- What has a canonical text is a value of JSON. -/
theorem isJson_of_canonicalJson (distinct : Distinct v) :
    ∀ {text : Units}, canonicalJson v = some text → IsJson v := by
  induction distinct with
  | undefined => exact fun is => nomatch is
  | null => exact fun _ => .null
  | bool b => exact fun _ => .bool b
  | number x =>
    intro text is
    cases x with
    | finite negative m => exact .number negative m
    | _ => cases is
  | string s => exact fun _ => .string s
  | array _ ih =>
    intro text is
    unfold canonicalJson at is
    obtain ⟨texts, items, _⟩ := Option.map_eq_some_iff.mp is
    refine .array fun x there => ?_
    obtain ⟨t, some_⟩ := canonicalItems_some items x there
    exact ih x there some_
  | object distinct _ ih =>
    intro text is
    unfold canonicalJson at is
    obtain ⟨texts, members, _⟩ := Option.map_eq_some_iff.mp is
    refine .object distinct fun m there plain => ?_
    obtain ⟨t, some_⟩ := canonicalMembers_some members m there plain
    exact ih m there some_

/-- The canonical text tells values apart that differ in more than the order of members. -/
theorem canonicalJson_iff (left : IsJson v) (right : IsJson w) :
    canonicalJson v = canonicalJson w ↔ Same v w := by
  rw [canonicalJson_text left, canonicalJson_text right, same_iff left right]
  constructor
  · intro eq
    have read := jsonParse_text left.plain
    rw [Option.some.inj eq, jsonParse_text right.plain] at read
    exact (Option.some.inj read).symm
  · intro eq
    rw [eq]

/-! ## The bytes of a text -/

theorem paired_hexUnit {d : ℕ} (small : d < 16) : surrogate (hexUnit d) = false := by
  interval_cases d <;> rfl

theorem paired_escaped (u : UInt16) : Paired (escaped u) := by
  unfold escaped
  split
  · exact paired_units _
  split
  · exact paired_units _
  split
  · exact paired_units _
  split
  · exact paired_units _
  split
  · exact paired_units _
  split
  · rename_i is
    rw [Bool.or_eq_true, decide_eq_true_iff, decide_eq_true_iff] at is
    rcases is with rfl | rfl <;> exact .unit rfl (.unit rfl .nil)
  split
  · have range := u.toNat_lt
    exact (paired_units _).append (.unit (paired_hexUnit (by omega)) (.unit (paired_hexUnit (by omega))
      (.unit (paired_hexUnit (by omega)) (.unit (paired_hexUnit (by omega)) .nil))))
  · rename_i hex
    rw [Bool.or_eq_true, not_or] at hex
    exact .unit (Bool.eq_false_iff.mpr hex.2) .nil

theorem paired_escapedAll (s : Units) : Paired (escapedAll s) := by
  fun_induction escapedAll s with
  | case1 => exact .nil
  | case2 u => exact paired_escaped u
  | case3 u v us pair ih =>
    rw [Bool.and_eq_true] at pair
    exact .pair pair.1 pair.2 ih
  | case4 u v us alone ih => exact (paired_escaped u).append ih

theorem paired_quote (s : Units) : Paired (quote s) :=
  .unit rfl ((paired_escapedAll s).append (.unit rfl .nil))

theorem paired_joined {texts : List Units} (each : ∀ t ∈ texts, Paired t) : Paired (joined texts) := by
  induction texts with
  | nil => exact .nil
  | cons t texts ih =>
    cases texts with
    | nil =>
      rw [joined_singleton]
      exact each t List.mem_cons_self
    | cons t' texts =>
      rw [joined_cons_cons]
      exact (each t List.mem_cons_self).append
        (.unit rfl (ih fun x there => each x (List.mem_cons_of_mem _ there)))

theorem paired_map {cs : List Char} (plain : ∀ c ∈ cs, surrogate (unit c) = false) :
    Paired (cs.map unit) := by
  induction cs with
  | nil => exact .nil
  | cons c cs ih =>
    exact .unit (plain c List.mem_cons_self) (ih fun d there => plain d (List.mem_cons_of_mem _ there))

theorem plain_of_all {cs : List Char} (all : cs.all (fun c => !surrogate (unit c)) = true) :
    ∀ c ∈ cs, surrogate (unit c) = false := by
  intro c there
  simpa using List.all_eq_true.mp all c there

theorem paired_numberText (x : JsNumber) : Paired (numberText x) := by
  apply paired_map
  cases x with
  | finite negative m =>
    intro c there
    have range := numberUnit_range (numberUnit_unit (text_chars c there)).1
    rw [Bool.eq_false_iff, ne_eq, surrogate_iff]
    omega
  | infinite negative =>
    apply plain_of_all
    cases negative <;> rfl
  | nan => exact plain_of_all rfl

theorem paired_text : Paired v.text := by
  induction v using JsValue.induct with
  | undefined => exact paired_units _
  | null => exact paired_units _
  | bool b => exact paired_units _
  | number x => exact paired_numberText x
  | string s => exact paired_quote s
  | array xs ih =>
    unfold JsValue.text arrayText
    rw [itemTexts_eq]
    refine .unit rfl ((paired_joined fun t there => ?_).append (.unit rfl .nil))
    obtain ⟨x, item, rfl⟩ := List.mem_map.mp there
    exact ih x item
  | object ms ih =>
    unfold JsValue.text objectText
    rw [memberTexts_eq, List.map_map]
    refine .unit rfl ((paired_joined fun t there => ?_).append (.unit rfl .nil))
    obtain ⟨m, member, rfl⟩ := List.mem_map.mp there
    exact (paired_quote m.1).append (.unit rfl (ih m member))

theorem utf8_injective {a b : Units} (left : Paired a) (right : Paired b) (eq : utf8 a = utf8 b) :
    a = b := by
  unfold utf8 at eq
  exact characters_injective left right (String.ofList_injective (String.toByteArray_inj.mp eq))

theorem bodyIdentity_injective {sha256 : ByteArray → String} (injective : Function.Injective sha256)
    {a b : Units} (left : Paired a) (right : Paired b)
    (eq : bodyIdentity sha256 a = bodyIdentity sha256 b) : a = b := by
  unfold bodyIdentity at eq
  have digest := injective (String.append_right_inj _ |>.mp eq)
  exact utf8_injective left right ((ByteArray.append_right_inj _).mp digest)

/-! ## What the schema parses -/

theorem keeps_eventOption {type : String} {payload : Schema} (keeps : Keeps payload) :
    Keeps (eventOption type payload).2 := by
  apply keeps_object
  · change ([units "type", units "payload"] : List Units).Nodup
    decide
  rintro f (_ | ⟨_, _ | ⟨_, ⟨⟩⟩⟩)
  · exact keeps_string
  · exact keeps

theorem keeps_runOutputPayloadSchema : Keeps runOutputPayloadSchema := by
  apply keeps_object (by decide)
  rintro f (_ | ⟨_, _ | ⟨_, ⟨⟩⟩⟩)
  · exact keeps_string
  · exact keeps_string

theorem keeps_runAnswerPayloadSchema : Keeps runAnswerPayloadSchema := by
  apply keeps_object (by decide)
  rintro f (_ | ⟨_, ⟨⟩⟩)
  exact keeps_string

theorem keeps_runUsagePayloadSchema : Keeps runUsagePayloadSchema := by
  apply keeps_object (by decide)
  rintro f (_ | ⟨_, _ | ⟨_, _ | ⟨_, _ | ⟨_, _ | ⟨_, _ | ⟨_, ⟨⟩⟩⟩⟩⟩⟩⟩)
  · exact keeps_optional keeps_number
  · exact keeps_optional keeps_number
  · exact keeps_optional keeps_number
  · exact keeps_optional keeps_number
  · exact keeps_optional keeps_string
  · exact keeps_optional keeps_string

theorem keeps_runLifecyclePayloadSchema : Keeps runLifecyclePayloadSchema := by
  apply keeps_object (by decide)
  rintro f (_ | ⟨_, _ | ⟨_, ⟨⟩⟩⟩)
  · exact keeps_string
  · exact keeps_optional (keeps_nullable keeps_string)

theorem keeps_artifactPayloadSchema : Keeps artifactPayloadSchema := by
  have empty : Distinct (.object []) := .object List.nodup_nil (fun _ there => nomatch there)
  apply keeps_object (by decide)
  rintro f (_ | ⟨_, _ | ⟨_, _ | ⟨_, _ | ⟨_, ⟨⟩⟩⟩⟩⟩)
  · exact keeps_string
  · exact keeps_string
  · exact keeps_withDefault empty (keeps_record keeps_unknown)
  · exact keeps_optional (keeps_nullable keeps_string)

theorem keeps_runWorkspaceRetainedPayloadSchema : Keeps runWorkspaceRetainedPayloadSchema := by
  apply keeps_strictObject (by decide)
  rintro f (_ | ⟨_, _ | ⟨_, _ | ⟨_, _ | ⟨_, ⟨⟩⟩⟩⟩⟩)
  · exact keeps_number
  · exact keeps_string
  · exact keeps_string
  · exact keeps_string

theorem keeps_runEventBodySchema : Keeps runEventBodySchema := by
  apply keeps_discriminatedUnion
  rintro o (_ | ⟨_, _ | ⟨_, _ | ⟨_, _ | ⟨_, _ | ⟨_, _ | ⟨_, ⟨⟩⟩⟩⟩⟩⟩⟩)
  · exact keeps_eventOption keeps_runOutputPayloadSchema
  · exact keeps_eventOption keeps_runAnswerPayloadSchema
  · exact keeps_eventOption keeps_runUsagePayloadSchema
  · exact keeps_eventOption keeps_runLifecyclePayloadSchema
  · exact keeps_eventOption keeps_artifactPayloadSchema
  · exact keeps_eventOption keeps_runWorkspaceRetainedPayloadSchema

theorem keeps_runEventMessageSchema : Keeps runEventMessageSchema := by
  apply keeps_object (by decide)
  rintro f (_ | ⟨_, _ | ⟨_, _ | ⟨_, _ | ⟨_, _ | ⟨_, ⟨⟩⟩⟩⟩⟩⟩)
  · exact keeps_string
  · exact keeps_string
  · exact keeps_string
  · exact keeps_number
  · exact keeps_runEventBodySchema

/-- The event of a frame that is qualified is a value of JSON, and its identity is of its text. -/
theorem qualified_event {sha256 : ByteArray → String} {raw : JsValue} {q : Qualified}
    (is : qualifyRunEventMessage sha256 raw = some q) : IsJson q.event ∧
      q.bodyIdentity = bodyIdentity sha256 q.event.normal.text := by
  unfold qualifyRunEventMessage at is
  obtain ⟨wire, _, is⟩ := Option.bind_eq_some_iff.mp is
  obtain ⟨parsed, read, is⟩ := Option.bind_eq_some_iff.mp is
  obtain ⟨out, checked, is⟩ := Option.bind_eq_some_iff.mp is
  have distinct := keeps_runEventMessageSchema (distinct_jsonParse read) checked
  split at is
  · obtain ⟨body, canonical, is⟩ := Option.bind_eq_some_iff.mp is
    cases is
    cases distinct with
    | object _ each =>
      have json := isJson_of_canonicalJson (distinct_get each) canonical
      rw [canonicalJson_text json] at canonical
      cases canonical
      exact ⟨json, rfl⟩
  · cases is

/-- Two frames have one identity when their parsed events are equal. -/
theorem bodyIdentity_iff {sha256 : ByteArray → String} (injective : Function.Injective sha256)
    {raw raw' : JsValue} {q q' : Qualified} (left : qualifyRunEventMessage sha256 raw = some q)
    (right : qualifyRunEventMessage sha256 raw' = some q') :
    q.bodyIdentity = q'.bodyIdentity ↔ Same q.event q'.event := by
  obtain ⟨json, identity⟩ := qualified_event left
  obtain ⟨json', identity'⟩ := qualified_event right
  rw [identity, identity', ← canonicalJson_iff json json', canonicalJson_text json,
    canonicalJson_text json', Option.some_inj]
  constructor
  · exact bodyIdentity_injective injective paired_text paired_text
  · intro eq
    rw [eq]

/-- The canonical text tells values of JSON apart, it is the canonical text of what is read from it,
and the identities of frames tell their parsed events apart. -/
theorem canonical_identity :
    (∀ v w : JsValue, IsJson v → IsJson w → (canonicalJson v = canonicalJson w ↔ Same v w)) ∧
    (∀ v : JsValue, IsJson v → ∃ text, canonicalJson v = some text ∧
      (jsonParse text).bind canonicalJson = some text) ∧
    ∀ sha256 : ByteArray → String, Function.Injective sha256 → ∀ (raw raw' : JsValue)
      (q q' : Qualified), qualifyRunEventMessage sha256 raw = some q →
      qualifyRunEventMessage sha256 raw' = some q' →
      (q.bodyIdentity = q'.bodyIdentity ↔ Same q.event q'.event) := by
  refine ⟨fun v w => canonicalJson_iff, fun v json => ?_,
    fun sha256 injective raw raw' q q' => bodyIdentity_iff injective⟩
  refine ⟨v.normal.text, canonicalJson_text json, ?_⟩
  rw [jsonParse_text json.plain, Option.bind_some, canonicalJson_text json.plain.isJson,
    normal_normal]

/-! Two frames of one answer. -/

def zero : JsNumber := .finite false ⟨0, le_refl 0, toDouble_natCast (n := 0) (by decide)⟩

def answerFrame (event : List (Units × JsValue)) : JsValue :=
  .object [(units "kind", .string (units "run.event")), (units "node_id", .string (units "node")),
    (units "run_id", .string (units "run")), (units "sequence", .number zero),
    (units "event", .object event)]

def answerType : Units × JsValue := (units "type", .string (units "run.answer"))

def answerPayload : Units × JsValue := (units "payload", .object [(units "text", .string (units "ok"))])

/-- A digest without collisions. -/
def bytesText (bytes : ByteArray) : String :=
  String.ofList (bytes.data.toList.map fun b => Char.ofNat b.toNat)

theorem bytesText_injective : Function.Injective bytesText := by
  intro a b eq
  have chars := String.ofList_injective eq
  have each : Function.Injective fun b : UInt8 => Char.ofNat b.toNat := by
    intro x y same
    have left := x.toNat_lt
    have right := y.toNat_lt
    have codes : (Char.ofNat x.toNat).toNat = (Char.ofNat y.toNat).toNat := congrArg Char.toNat same
    rw [toNat_char (by unfold Nat.isValidChar; omega), toNat_char (by unfold Nat.isValidChar; omega)]
      at codes
    exact UInt8.toNat_inj.mp codes
  have lists := List.map_injective_iff.mpr each chars
  exact ByteArray.ext (Array.toList_inj.mp lists)

theorem canonical_identity_swapped : ∃ q q' : Qualified,
    qualifyRunEventMessage bytesText (answerFrame [answerType, answerPayload]) = some q ∧
    qualifyRunEventMessage bytesText (answerFrame [answerPayload, answerType]) = some q' ∧
    Same q.event q'.event := by
  obtain ⟨q, left⟩ : ∃ q, qualifyRunEventMessage bytesText
      (answerFrame [answerType, answerPayload]) = some q :=
    Option.isSome_iff_exists.mp (by decide +kernel)
  obtain ⟨q', right⟩ : ∃ q, qualifyRunEventMessage bytesText
      (answerFrame [answerPayload, answerType]) = some q :=
    Option.isSome_iff_exists.mp (by decide +kernel)
  have identity : (qualifyRunEventMessage bytesText
      (answerFrame [answerType, answerPayload])).map Qualified.bodyIdentity =
      (qualifyRunEventMessage bytesText
        (answerFrame [answerPayload, answerType])).map Qualified.bodyIdentity := by
    decide +kernel
  rw [left, right] at identity
  exact ⟨q, q', left, right, (canonical_identity.2.2 bytesText bytesText_injective _ _ q q' left
    right).mp (Option.some.inj identity)⟩

end Artoo.Server.Frames
