import Artoo.Lib.JsonOrder

/-! Schemas as they check plain data: what a value is parsed to, or nothing where it is refused. -/
namespace Artoo.Lib

open JsValue

abbrev Schema := JsValue → Option JsValue

namespace Schema

def unknown : Schema := some

def string (check : Units → Bool) : Schema
  | .string s => if check s then some (.string s) else none
  | _ => none

def number (check : JsNumber → Bool) : Schema
  | .number x => if check x then some (.number x) else none
  | _ => none

def enum (values : List String) : Schema := string fun s => values.any fun value => units value == s

def literal (value : String) : Schema := enum [value]

def optional (s : Schema) : Schema
  | .undefined => some .undefined
  | v => s v

def nullable (s : Schema) : Schema
  | .null => some .null
  | v => s v

def nullish (s : Schema) : Schema := optional (nullable s)

def withDefault (default : JsValue) (s : Schema) : Schema
  | .undefined => s default
  | v => s v

/-- `data[key]`. -/
def get (ms : List (Units × JsValue)) (key : String) : JsValue :=
  ((ms.find? fun m => m.1 = units key).map Prod.snd).getD .undefined

def has (ms : List (Units × JsValue)) (key : String) : Bool := ms.any fun m => m.1 = units key

/-- The members of a shape; one that is undefined and not there is left out. -/
def fields (ms : List (Units × JsValue)) : List (String × Schema) → Option (List (Units × JsValue))
  | [] => some []
  | (key, s) :: shape => do
    let v ← s (get ms key)
    let others ← fields ms shape
    return if v.isUndefined && !has ms key then others else (units key, v) :: others

/-- Keys outside the shape are stripped. -/
def object (shape : List (String × Schema)) : Schema
  | .object ms => (fields ms shape).map .object
  | _ => none

/-- Keys outside the shape are refused. -/
def strictObject (shape : List (String × Schema)) : Schema
  | .object ms =>
    if ms.all fun m => shape.any fun f => units f.1 == m.1 then (fields ms shape).map .object
    else none
  | _ => none

def entries (s : Schema) : List (Units × JsValue) → Option (List (Units × JsValue))
  | [] => some []
  | (k, x) :: ms => do
    let v ← s x
    let others ← entries s ms
    return if k = units "__proto__" then others else (k, v) :: others

/-- A record; `__proto__` is left out. -/
def record (s : Schema) : Schema
  | .object ms => (entries s ms).map .object
  | _ => none

/-- The option that the discriminator names. -/
def discriminatedUnion (key : String) (options : List (String × Schema)) : Schema
  | .object ms =>
    match get ms key with
    | .string t => (options.find? fun o => units o.1 == t).bind fun o => o.2 (.object ms)
    | _ => none
  | _ => none

/-! ## What is parsed has distinct keys -/

/-- Distinct keys are kept. -/
def Keeps (s : Schema) : Prop := ∀ {v w : JsValue}, Distinct v → s v = some w → Distinct w

variable {s : Schema} {shape options : List (String × Schema)} {ms out : List (Units × JsValue)}

theorem keeps_unknown : Keeps unknown := by
  intro v w distinct is
  cases is
  exact distinct

theorem keeps_string {check : Units → Bool} : Keeps (string check) := by
  intro v w distinct is
  unfold string at is
  split at is
  · split at is <;> cases is
    exact distinct
  · cases is

theorem keeps_number {check : JsNumber → Bool} : Keeps (number check) := by
  intro v w distinct is
  unfold number at is
  split at is
  · split at is <;> cases is
    exact distinct
  · cases is

theorem keeps_optional (keeps : Keeps s) : Keeps (optional s) := by
  intro v w distinct is
  unfold optional at is
  split at is
  · cases is
    exact distinct
  · exact keeps distinct is

theorem keeps_nullable (keeps : Keeps s) : Keeps (nullable s) := by
  intro v w distinct is
  unfold nullable at is
  split at is
  · cases is
    exact distinct
  · exact keeps distinct is

theorem keeps_withDefault {default : JsValue} (plain : Distinct default) (keeps : Keeps s) :
    Keeps (withDefault default s) := by
  intro v w distinct is
  unfold withDefault at is
  split at is
  · exact keeps plain is
  · exact keeps distinct is

theorem distinct_get {key : String} (each : ∀ m ∈ ms, Distinct m.2) : Distinct (get ms key) := by
  unfold get
  cases found : ms.find? fun m => decide (m.1 = units key) with
  | none => exact .undefined
  | some m => exact each m (List.mem_of_find?_eq_some found)

/-- Members of some keys, each once. -/
def Among (keys : List Units) (ms : List (Units × JsValue)) : Prop :=
  (∀ m ∈ ms, m.1 ∈ keys) ∧ MembersDistinct ms

variable {keys : List Units} {k : Units} {v : JsValue}

theorem among_nil : Among keys [] := ⟨nofun, List.nodup_nil, nofun⟩

theorem among_skip (among : Among keys out) : Among (k :: keys) out :=
  ⟨fun m there => List.mem_cons_of_mem _ (among.1 m there), among.2⟩

theorem among_cons (fresh : k ∉ keys) (value : Distinct v) (among : Among keys out) :
    Among (k :: keys) ((k, v) :: out) := by
  refine ⟨?_, ?_, ?_⟩
  · intro m there
    rcases List.mem_cons.mp there with rfl | there
    · exact List.mem_cons_self
    · exact List.mem_cons_of_mem _ (among.1 m there)
  · rw [List.map_cons, List.nodup_cons]
    refine ⟨fun there => ?_, among.2.1⟩
    obtain ⟨m, old, is⟩ := List.mem_map.mp there
    have eq : m.1 = k := is
    exact fresh (eq ▸ among.1 m old)
  · intro m there
    rcases List.mem_cons.mp there with rfl | there
    · exact value
    · exact among.2.2 m there

theorem among_fields (keys : (shape.map fun f => units f.1).Nodup)
    (keeps : ∀ f ∈ shape, Keeps f.2) (each : ∀ m ∈ ms, Distinct m.2)
    (is : fields ms shape = some out) : Among (shape.map fun f => units f.1) out := by
  induction shape generalizing out with
  | nil =>
    cases is
    exact among_nil
  | cons f shape ih =>
    unfold fields at is
    obtain ⟨v, first, is⟩ := Option.bind_eq_some_iff.mp is
    obtain ⟨others, rest, is⟩ := Option.bind_eq_some_iff.mp is
    rw [List.map_cons, List.nodup_cons] at keys
    have among := ih keys.2 (fun g there => keeps g (List.mem_cons_of_mem _ there)) rest
    split at is <;> cases is
    · exact among_skip among
    · exact among_cons keys.1 (keeps f List.mem_cons_self (distinct_get each) first) among

theorem keeps_object (keys : (shape.map fun f => units f.1).Nodup)
    (keeps : ∀ f ∈ shape, Keeps f.2) : Keeps (object shape) := by
  intro v w distinct is
  unfold object at is
  split at is
  · obtain ⟨out, found, rfl⟩ := Option.map_eq_some_iff.mp is
    cases distinct with
    | object _ each =>
      have among := among_fields keys keeps each found
      exact .object among.2.1 among.2.2
  · cases is

theorem keeps_strictObject (keys : (shape.map fun f => units f.1).Nodup)
    (keeps : ∀ f ∈ shape, Keeps f.2) : Keeps (strictObject shape) := by
  intro v w distinct is
  unfold strictObject at is
  split at is
  · split at is
    · exact keeps_object keys keeps distinct is
    · cases is
  · cases is

theorem among_entries (keeps : Keeps s) (keys : (ms.map Prod.fst).Nodup)
    (each : ∀ m ∈ ms, Distinct m.2) (is : entries s ms = some out) :
    Among (ms.map Prod.fst) out := by
  induction ms generalizing out with
  | nil =>
    cases is
    exact among_nil
  | cons n ms ih =>
    unfold entries at is
    obtain ⟨v, first, is⟩ := Option.bind_eq_some_iff.mp is
    obtain ⟨others, rest, is⟩ := Option.bind_eq_some_iff.mp is
    rw [List.map_cons, List.nodup_cons] at keys
    have among := ih keys.2 (fun m there => each m (List.mem_cons_of_mem _ there)) rest
    split at is <;> cases is
    · exact among_skip among
    · exact among_cons keys.1 (keeps (each n List.mem_cons_self) first) among

theorem keeps_record (keeps : Keeps s) : Keeps (record s) := by
  intro v w distinct is
  unfold record at is
  split at is
  · obtain ⟨out, found, rfl⟩ := Option.map_eq_some_iff.mp is
    cases distinct with
    | object keys each =>
      have among := among_entries keeps keys each found
      exact .object among.2.1 among.2.2
  · cases is

theorem keeps_discriminatedUnion {key : String} (keeps : ∀ o ∈ options, Keeps o.2) :
    Keeps (discriminatedUnion key options) := by
  intro v w distinct is
  unfold discriminatedUnion at is
  split at is
  · split at is
    · obtain ⟨o, found, is⟩ := Option.bind_eq_some_iff.mp is
      exact keeps o (List.mem_of_find?_eq_some found) distinct is
    · cases is
  · cases is

end Schema

end Artoo.Lib
