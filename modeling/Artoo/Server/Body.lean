import Artoo.Server.Receipt

/-! The canonical text of an event body determines the event, up to the order of its metadata. -/
namespace Artoo.Server
open Artoo.Protocol

/-- Two bodies with one canonical text. -/
def SameBody (a b : NodeRunEvent) : Prop := canonicalJson (eventJson a) = canonicalJson (eventJson b)

theorem mem_canonicalFields {fields : Payload} {k : String} {v : Json} :
    (k, v) ∈ canonicalFields fields ↔ ∃ w, (k, w) ∈ fields ∧ v = canonicalJson w := by
  induction fields with
  | nil => simp [canonicalFields]
  | cons field rest ih =>
    obtain ⟨key, value⟩ := field
    rw [canonicalFields, List.mem_cons, ih]
    constructor
    · rintro (same | ⟨w, member, is⟩)
      · cases same
        exact ⟨value, List.mem_cons_self, rfl⟩
      · exact ⟨w, List.mem_cons_of_mem _ member, is⟩
    · rintro ⟨w, member, is⟩
      rcases List.mem_cons.mp member with same | later
      · cases same
        exact Or.inl (by rw [is])
      · exact Or.inr ⟨w, later, is⟩

variable {p q : Payload} {k : String}

/-- Objects with one canonical text have the same fields, in some order. -/
theorem canonical_field (same : canonicalJson (.obj p) = canonicalJson (.obj q)) {v : Json}
    (member : (k, v) ∈ p) : ∃ w, (k, w) ∈ q ∧ canonicalJson v = canonicalJson w := by
  rw [canonicalJson, canonicalJson, Json.obj.injEq] at same
  have there : (k, canonicalJson v) ∈ canonicalFields p := mem_canonicalFields.mpr ⟨v, member, rfl⟩
  rw [← List.mem_mergeSort, same, List.mem_mergeSort] at there
  exact mem_canonicalFields.mp there

/-- A text or a number, as the fields of an event are. -/
def Leaf : Json → Prop
  | .arr _ | .obj _ => False
  | _ => True

theorem Leaf.canonical {v : Json} (h : Leaf v) : canonicalJson v = v := by
  cases v with
  | arr _ | obj _ => cases h
  | _ => rfl

theorem Leaf.of_canonical {v w : Json} (h : Leaf v) (same : v = canonicalJson w) : v = w := by
  cases w with
  | arr xs =>
    rw [canonicalJson] at same
    rw [same] at h
    cases h
  | obj fields =>
    rw [canonicalJson] at same
    rw [same] at h
    cases h
  | _ => exact same

/-- A field with a leaf value is in both objects or in none. -/
theorem leaf_agree (same : canonicalJson (.obj p) = canonicalJson (.obj q)) {x y : Option Json}
    (inFirst : ∀ v, (k, v) ∈ p ↔ x = some v) (inSecond : ∀ v, (k, v) ∈ q ↔ y = some v)
    (leaves : (∀ v, x = some v → Leaf v) ∧ (∀ v, y = some v → Leaf v)) : x = y := by
  apply Option.ext
  intro v
  constructor
  · intro found
    obtain ⟨w, member, is⟩ := canonical_field same ((inFirst v).mpr found)
    rw [(leaves.1 v found).canonical] at is
    rw [(leaves.1 v found).of_canonical is]
    exact (inSecond w).mp member
  · intro found
    obtain ⟨w, member, is⟩ := canonical_field same.symm ((inSecond v).mpr found)
    rw [(leaves.2 v found).canonical] at is
    rw [(leaves.2 v found).of_canonical is]
    exact (inFirst w).mp member

theorem SameBody.type {a b : NodeRunEvent} (h : SameBody a b) :
    (eventPayload a).1 = (eventPayload b).1 := by
  have agree := @leaf_agree _ _ "type" h (some (.str (eventPayload a).1))
    (some (.str (eventPayload b).1)) (by simp [eq_comm]) (by simp [eq_comm])
    (by simp [Leaf])
  simpa using agree

theorem SameBody.payload {a b : NodeRunEvent} (h : SameBody a b) :
    canonicalJson (.obj (eventPayload a).2) = canonicalJson (.obj (eventPayload b).2) := by
  unfold SameBody eventJson at h
  obtain ⟨w, member, is⟩ := @canonical_field _ _ "payload" h _
    (List.mem_cons_of_mem _ List.mem_cons_self)
  simp at member
  rw [member] at is
  exact is

theorem str_agree {s t : String} (same : canonicalJson (.obj p) = canonicalJson (.obj q))
    (inFirst : ∀ v, (k, v) ∈ p ↔ v = .str s) (inSecond : ∀ v, (k, v) ∈ q ↔ v = .str t) : s = t := by
  have agree := @leaf_agree p q k same (some (.str s)) (some (.str t)) (by simp [inFirst, eq_comm])
    (by simp [inSecond, eq_comm]) (by simp [Leaf])
  simpa using agree

theorem option_agree {α : Type} {json : α → Json} (leaf : ∀ a, Leaf (json a))
    (injective : Function.Injective json) {s t : Option α}
    (same : canonicalJson (.obj p) = canonicalJson (.obj q))
    (inFirst : ∀ v, (k, v) ∈ p ↔ s.map json = some v)
    (inSecond : ∀ v, (k, v) ∈ q ↔ t.map json = some v) : s = t := by
  have agree := leaf_agree same inFirst inSecond (by
    constructor
    · intro v found
      obtain ⟨a, _, rfl⟩ := Option.map_eq_some_iff.mp found
      exact leaf a
    · intro v found
      obtain ⟨a, _, rfl⟩ := Option.map_eq_some_iff.mp found
      exact leaf a)
  exact Option.map_injective injective agree

theorem mem_field {α : Type} {name : String} {value : Option α} {json : α → Json} {v : Json} :
    (k, v) ∈ field name value json ↔ k = name ∧ value.map json = some v := by
  cases value <;> simp [field, eq_comm]

theorem usage_agree {u w : RunUsagePayload}
    (same : canonicalJson (.obj (usagePayload u)) = canonicalJson (.obj (usagePayload w))) : u = w := by
  have nat : Function.Injective natJson := fun a b h => by simpa [natJson] using h
  have num : Function.Injective Json.num := fun a b h => by simpa using h
  have str : Function.Injective Json.str := fun a b h => by simpa using h
  have members : ∀ (u : RunUsagePayload) k v, (k, v) ∈ usagePayload u ↔
      (k = "input_tokens" ∧ u.inputTokens.map natJson = some v) ∨
      (k = "output_tokens" ∧ u.outputTokens.map natJson = some v) ∨
      (k = "cached_input_tokens" ∧ u.cachedInputTokens.map natJson = some v) ∨
      (k = "cost_usd" ∧ u.costUsd.map .num = some v) ∨
      (k = "currency" ∧ u.currency.map .str = some v) ∨
      (k = "provider_session_id" ∧ u.providerSessionId.map .str = some v) := by
    intro u k v
    unfold usagePayload
    simp only [List.mem_append, mem_field, or_assoc]
  have natLeaf : ∀ n, Leaf (natJson n) := fun _ => trivial
  have numLeaf : ∀ c, Leaf (.num c) := fun _ => trivial
  have strLeaf : ∀ s, Leaf (.str s) := fun _ => trivial
  have input := @option_agree _ _ "input_tokens" _ _ natLeaf nat u.inputTokens w.inputTokens same
    (by simp [members]) (by simp [members])
  have output := @option_agree _ _ "output_tokens" _ _ natLeaf nat u.outputTokens w.outputTokens same
    (by simp [members]) (by simp [members])
  have cached := @option_agree _ _ "cached_input_tokens" _ _ natLeaf nat u.cachedInputTokens
    w.cachedInputTokens same (by simp [members]) (by simp [members])
  have cost := @option_agree _ _ "cost_usd" _ _ numLeaf num u.costUsd w.costUsd same
    (by simp [members]) (by simp [members])
  have currency := @option_agree _ _ "currency" _ _ strLeaf str u.currency w.currency same
    (by simp [members]) (by simp [members])
  have session := @option_agree _ _ "provider_session_id" _ _ strLeaf str u.providerSessionId
    w.providerSessionId same (by simp [members]) (by simp [members])
  cases u
  cases w
  cases input
  cases output
  cases cached
  cases cost
  cases currency
  cases session
  rfl

def nullishJson : Nullish String → Option Json
  | .absent => none
  | .null => some .null
  | .value s => some (.str s)

theorem nullishJson_injective : Function.Injective nullishJson := by
  intro a b same
  cases a <;> cases b <;> simp_all [nullishJson]

theorem leaf_nullishJson {value : Nullish String} {v : Json} (is : nullishJson value = some v) :
    Leaf v := by
  cases value <;> cases is <;> trivial

theorem mem_nullishField {name : String} {value : Nullish String} {v : Json} :
    (k, v) ∈ nullishField name value ↔ k = name ∧ nullishJson value = some v := by
  cases value <;> simp [nullishField, nullishJson, eq_comm]

theorem lifecyclePhaseName_injective : Function.Injective lifecyclePhaseName := by
  intro a b same
  cases a <;> cases b <;> first | rfl | (revert same; decide)

theorem lifecycle_agree {u w : RunLifecyclePayload}
    (same : canonicalJson (.obj (eventPayload (.lifecycle u)).2) =
      canonicalJson (.obj (eventPayload (.lifecycle w)).2)) : u = w := by
  obtain ⟨phase, reason⟩ := u
  obtain ⟨phase', reason'⟩ := w
  have names := @str_agree _ _ "phase" (lifecyclePhaseName phase) (lifecyclePhaseName phase') same
    (by simp [eventPayload, mem_nullishField]) (by simp [eventPayload, mem_nullishField])
  have reasons := @leaf_agree _ _ "reason" same (nullishJson reason) (nullishJson reason')
    (by simp [eventPayload, mem_nullishField]) (by simp [eventPayload, mem_nullishField])
    ⟨fun _ => leaf_nullishJson, fun _ => leaf_nullishJson⟩
  cases lifecyclePhaseName_injective names
  cases nullishJson_injective reasons
  rfl

theorem outputStreamName_injective : Function.Injective outputStreamName := by
  intro a b same
  cases a <;> cases b <;> first | rfl | (revert same; decide)

theorem outcomeName_injective : Function.Injective outcomeName := by
  intro a b same
  cases a <;> cases b <;> first | rfl | (revert same; decide)

theorem retained_agree {u w : RunWorkspaceRetainedPayload}
    (same : canonicalJson (.obj (retainedPayload u)) = canonicalJson (.obj (retainedPayload w))) :
    u = w := by
  obtain ⟨root, branch, outcome⟩ := u
  obtain ⟨root', branch', outcome'⟩ := w
  have roots := @str_agree _ _ "workspace_root" root root' same (by simp [retainedPayload])
    (by simp [retainedPayload])
  have branches := @str_agree _ _ "workspace_branch" branch branch' same (by simp [retainedPayload])
    (by simp [retainedPayload])
  have outcomes := @str_agree _ _ "outcome" (outcomeName outcome) (outcomeName outcome') same
    (by simp [retainedPayload]) (by simp [retainedPayload])
  cases roots
  cases branches
  cases outcomeName_injective outcomes
  rfl

def isArtifact : NodeRunEvent → Bool
  | .artifact _ => true
  | _ => false

/-- But for an artifact with its metadata reordered, the same body is the same event. -/
theorem SameBody.same {a b : NodeRunEvent} (h : SameBody a b) :
    a = b ∨ (isArtifact a = true ∧ isArtifact b = true) := by
  have types := h.type
  have payloads := h.payload
  cases a with
  | output stream text =>
    cases b with
    | output stream' text' =>
      have streams := @str_agree _ _ "stream" (outputStreamName stream) (outputStreamName stream')
        payloads (by simp [eventPayload]) (by simp [eventPayload])
      have texts := @str_agree _ _ "text" text text' payloads (by simp [eventPayload])
        (by simp [eventPayload])
      exact Or.inl (congrArg₂ _ (outputStreamName_injective streams) texts)
    | _ => simp [eventPayload] at types
  | answer text =>
    cases b with
    | answer text' =>
      have texts := @str_agree _ _ "text" text text' payloads (by simp [eventPayload])
        (by simp [eventPayload])
      exact Or.inl (congrArg _ texts)
    | _ => simp [eventPayload] at types
  | usage payload =>
    cases b with
    | usage payload' => exact Or.inl (congrArg _ (usage_agree payloads))
    | _ => simp [eventPayload] at types
  | lifecycle payload =>
    cases b with
    | lifecycle payload' => exact Or.inl (congrArg _ (lifecycle_agree payloads))
    | _ => simp [eventPayload] at types
  | artifact payload =>
    cases b with
    | artifact payload' => exact Or.inr ⟨rfl, rfl⟩
    | _ => simp [eventPayload] at types
  | workspaceRetained payload =>
    cases b with
    | workspaceRetained payload' => exact Or.inl (congrArg _ (retained_agree payloads))
    | _ => simp [eventPayload] at types

end Artoo.Server
