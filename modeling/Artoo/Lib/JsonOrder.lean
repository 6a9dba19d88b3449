import Artoo.Lib.JsonRoundTrip
import Mathlib.Data.List.Lex
import Mathlib.Data.List.Sort

/-! JSON values up to the order of members. The normal form of a value has its members sorted by
their keys, none of them undefined, and 0 for -0. -/
namespace Artoo.Lib

/-! ## Sorting by keys -/

/-- Keys are compared by their code units. -/
def keyLe (a b : Units) : Prop := a.map UInt16.toNat ≤ b.map UInt16.toNat

instance : DecidableRel keyLe := fun a b =>
  inferInstanceAs (Decidable (a.map UInt16.toNat ≤ b.map UInt16.toNat))

theorem keyLe_antisymm {a b : Units} (left : keyLe a b) (right : keyLe b a) : a = b :=
  List.map_injective_iff.mpr (fun _ _ => UInt16.toNat_inj.mp) (le_antisymm left right)

section Sorting

variable {α β : Type}

def memberLe (m n : Units × α) : Prop := keyLe m.1 n.1

instance : DecidableRel (memberLe (α := α)) := fun m n => inferInstanceAs (Decidable (keyLe m.1 n.1))

instance : Std.Total (memberLe (α := α)) := ⟨fun m n => le_total (m.1.map _) (n.1.map _)⟩

instance : IsTrans (Units × α) memberLe := ⟨fun _ _ _ left right => le_trans (α := List ℕ) left right⟩

def sortMembers (ms : List (Units × α)) : List (Units × α) := ms.insertionSort memberLe

variable {ms ns : List (Units × α)}

theorem sortMembers_perm : (sortMembers ms).Perm ms := List.perm_insertionSort _ _

theorem mem_sortMembers {m : Units × α} : m ∈ sortMembers ms ↔ m ∈ ms := sortMembers_perm.mem_iff

theorem sortMembers_keys (distinct : (ms.map Prod.fst).Nodup) :
    ((sortMembers ms).map Prod.fst).Nodup := (sortMembers_perm.map _).nodup_iff.mpr distinct

theorem sortMembers_sorted : (sortMembers ms).Pairwise memberLe := List.pairwise_insertionSort _ _

theorem sortMembers_sortMembers : sortMembers (sortMembers ms) = sortMembers ms :=
  sortMembers_sorted.insertionSort_eq

theorem sortMembers_map (f : α → β) : sortMembers (ms.map fun m => (m.1, f m.2)) =
    (sortMembers ms).map fun m => (m.1, f m.2) :=
  (List.map_insertionSort memberLe memberLe (fun m => (m.1, f m.2)) ms
    fun _ _ _ _ => Iff.rfl).symm

/-- Members with distinct keys are put in one order. -/
theorem sortMembers_ext (left : (ms.map Prod.fst).Nodup) (right : (ns.map Prod.fst).Nodup)
    (same : ∀ m, m ∈ ms ↔ m ∈ ns) : sortMembers ms = sortMembers ns := by
  have perm : ms.Perm ns :=
    (List.perm_ext_iff_of_nodup (List.Nodup.of_map _ left) (List.Nodup.of_map _ right)).mpr same
  have sorted := (sortMembers_perm.trans perm).trans sortMembers_perm.symm
  apply sorted.eq_of_pairwise _ sortMembers_sorted sortMembers_sorted
  intro m n first second le ge
  have key := keyLe_antisymm le ge
  have there : n ∈ ms := (same n).mpr (mem_sortMembers.mp second)
  exact List.inj_on_of_nodup_map left (mem_sortMembers.mp first) there key

end Sorting

/-! ## Values -/

namespace JsValue

/-- The value of a key, where it is there and not undefined. -/
def member (ms : List (Units × JsValue)) (k : Units) : Option JsValue :=
  ((ms.find? fun m => m.1 = k).map Prod.snd).filter (!·.isUndefined)

/-- Equal up to the order of members, with numbers compared by value. -/
inductive Same : JsValue → JsValue → Prop
  | null : Same .null .null
  | bool (b : Bool) : Same (.bool b) (.bool b)
  | number {x y : JsNumber} {q : ℚ} : x.value = some q → y.value = some q →
      Same (.number x) (.number y)
  | string (s : Units) : Same (.string s) (.string s)
  | array {xs ys : List JsValue} : xs.length = ys.length →
      (∀ (i : ℕ) (v w : JsValue), xs[i]? = some v → ys[i]? = some w → Same v w) →
      Same (.array xs) (.array ys)
  | object {ms ns : List (Units × JsValue)} :
      (∀ k, (member ms k).isSome = (member ns k).isSome) →
      (∀ k v w, member ms k = some v → member ns k = some w → Same v w) →
      Same (.object ms) (.object ns)

/-- No object has two members of one key. -/
inductive Distinct : JsValue → Prop
  | undefined : Distinct .undefined
  | null : Distinct .null
  | bool (b : Bool) : Distinct (.bool b)
  | number (x : JsNumber) : Distinct (.number x)
  | string (s : Units) : Distinct (.string s)
  | array {xs : List JsValue} : (∀ x ∈ xs, Distinct x) → Distinct (.array xs)
  | object {ms : List (Units × JsValue)} : (ms.map Prod.fst).Nodup → (∀ m ∈ ms, Distinct m.2) →
      Distinct (.object ms)

/-- A value of JSON; members may be undefined. -/
inductive IsJson : JsValue → Prop
  | null : IsJson .null
  | bool (b : Bool) : IsJson (.bool b)
  | number (negative : Bool) (m : Magnitude) : IsJson (.number (.finite negative m))
  | string (s : Units) : IsJson (.string s)
  | array {xs : List JsValue} : (∀ x ∈ xs, IsJson x) → IsJson (.array xs)
  | object {ms : List (Units × JsValue)} : (ms.map Prod.fst).Nodup →
      (∀ m ∈ ms, m.2.isUndefined = false → IsJson m.2) → IsJson (.object ms)

mutual

def normal : JsValue → JsValue
  | .number (.finite negative m) => .number (.finite (negative && decide (m.value ≠ 0)) m)
  | .array xs => .array (normalItems xs)
  | .object ms => .object (sortMembers (normalMembers ms))
  | v => v

def normalItems : List JsValue → List JsValue
  | [] => []
  | x :: xs => x.normal :: normalItems xs

def normalMembers : List (Units × JsValue) → List (Units × JsValue)
  | [] => []
  | (k, x) :: ms => if x.isUndefined then normalMembers ms else (k, x.normal) :: normalMembers ms

end

section Normal

variable {v w : JsValue} {xs : List JsValue} {ms ns : List (Units × JsValue)} {k : Units}

def defined (ms : List (Units × JsValue)) : List (Units × JsValue) :=
  ms.filter fun m => !m.2.isUndefined

theorem mem_defined {m : Units × JsValue} : m ∈ defined ms ↔ m ∈ ms ∧ m.2.isUndefined = false := by
  simp [defined]

theorem normalItems_eq : normalItems xs = xs.map normal := by
  induction xs with
  | nil => rfl
  | cons x xs ih => rw [normalItems, ih, List.map_cons]

theorem normalMembers_eq : normalMembers ms = (defined ms).map fun m => (m.1, m.2.normal) := by
  induction ms with
  | nil => rfl
  | cons m ms ih =>
    rw [normalMembers, ih]
    cases undefined : m.2.isUndefined <;> simp [defined, undefined]

theorem defined_keys (distinct : (ms.map Prod.fst).Nodup) : ((defined ms).map Prod.fst).Nodup :=
  distinct.sublist (List.filter_sublist.map _)

theorem normal_keys (distinct : (ms.map Prod.fst).Nodup) :
    ((normalMembers ms).map Prod.fst).Nodup := by
  rw [normalMembers_eq, List.map_map]
  exact defined_keys distinct

theorem member_iff (distinct : (ms.map Prod.fst).Nodup) :
    member ms k = some v ↔ (k, v) ∈ ms ∧ v.isUndefined = false := by
  unfold member
  rw [Option.filter_eq_some_iff, Option.map_eq_some_iff]
  constructor
  · rintro ⟨⟨m, found, rfl⟩, there⟩
    have is : m.1 = k := by simpa using List.find?_some found
    subst is
    exact ⟨List.mem_of_find?_eq_some found, by simpa using there⟩
  · rintro ⟨there, plain⟩
    refine ⟨?_, by simpa using plain⟩
    cases found : ms.find? fun m => decide (m.1 = k) with
    | none =>
      have absent := List.find?_eq_none.mp found _ there
      simp at absent
    | some m =>
      have is : m.1 = k := by simpa using List.find?_some found
      have eq := List.inj_on_of_nodup_map distinct (List.mem_of_find?_eq_some found) there is
      exact ⟨m, rfl, congrArg Prod.snd eq⟩

theorem mem_normalMembers (distinct : (ms.map Prod.fst).Nodup) :
    (k, w) ∈ normalMembers ms ↔ ∃ v, member ms k = some v ∧ v.normal = w := by
  rw [normalMembers_eq, List.mem_map]
  constructor
  · rintro ⟨m, there, eq⟩
    cases eq
    exact ⟨m.2, (member_iff distinct).mpr (mem_defined.mp there), rfl⟩
  · rintro ⟨v, there, rfl⟩
    exact ⟨(k, v), mem_defined.mpr ((member_iff distinct).mp there), rfl⟩

theorem normal_isUndefined : v.normal.isUndefined = v.isUndefined := by
  cases v with
  | number x => cases x <;> rfl
  | _ => rfl

theorem normalMembers_self (are : ∀ m ∈ ms, m.2.isUndefined = false ∧ m.2.normal = m.2) :
    normalMembers ms = ms := by
  have all : defined ms = ms := by
    unfold defined
    rw [List.filter_eq_self]
    intro m there
    simp [are m there]
  rw [normalMembers_eq, all]
  calc ms.map (fun m => (m.1, m.2.normal))
      = ms.map id := List.map_congr_left fun m there => congrArg (Prod.mk m.1) (are m there).2
    _ = ms := List.map_id _

/-- The normal form is its own. -/
theorem normal_normal : v.normal.normal = v.normal := by
  induction v using JsValue.induct with
  | number x =>
    cases x with
    | finite negative m => simp [normal]
    | _ => rfl
  | array xs ih =>
    simp only [normal, normalItems_eq, List.map_map, JsValue.array.injEq]
    exact List.map_congr_left ih
  | object ms ih =>
    simp only [normal]
    rw [normalMembers_self, sortMembers_sortMembers]
    intro m there
    rw [mem_sortMembers, normalMembers_eq, List.mem_map] at there
    obtain ⟨n, there, rfl⟩ := there
    rw [mem_defined] at there
    exact ⟨normal_isUndefined.trans there.2, ih n there.1⟩
  | _ => rfl

/-- The normal form of a value of JSON is written and read without loss. -/
theorem IsJson.plain (json : IsJson v) : v.normal.Plain := by
  induction json with
  | null => exact .null
  | bool b => exact .bool b
  | number negative m =>
    refine .number fun is => ?_
    rw [Bool.and_eq_true, decide_eq_true_iff] at is
    exact is.2
  | string s => exact .string s
  | array _ ih =>
    refine .array fun y there => ?_
    rw [normalItems_eq, List.mem_map] at there
    obtain ⟨x, there, rfl⟩ := there
    exact ih x there
  | object distinct _ ih =>
    refine .object (sortMembers_keys (normal_keys distinct)) fun m there => ?_
    rw [mem_sortMembers, normalMembers_eq, List.mem_map] at there
    obtain ⟨n, there, rfl⟩ := there
    rw [mem_defined] at there
    exact ih n there.1 there.2

theorem Plain.isJson (plain : Plain v) : IsJson v := by
  induction plain with
  | null => exact .null
  | bool b => exact .bool b
  | number _ => exact .number _ _
  | string s => exact .string s
  | array _ ih => exact .array ih
  | object distinct _ ih => exact .object distinct fun m there _ => ih m there

theorem normal_number {x y : JsNumber} {q : ℚ} (left : x.value = some q) (right : y.value = some q) :
    normal (.number x) = normal (.number y) := by
  cases x with
  | finite negative m =>
    cases y with
    | finite other n =>
      obtain ⟨q', nonneg, _⟩ := m
      obtain ⟨r', nonneg', _⟩ := n
      simp only [JsNumber.value, Option.some.injEq] at left right
      have same : q' = r' ∧ (q' = 0 ∨ negative = other) := by
        cases negative <;> cases other <;> grind
      obtain ⟨rfl, zero | rfl⟩ := same
      · simp [normal, zero]
      · rfl
    | _ => simp [JsNumber.value] at right
  | _ => simp [JsNumber.value] at left

theorem Same.normal_eq (same : Same v w) : IsJson v → IsJson w → v.normal = w.normal := by
  induction same with
  | null => exact fun _ _ => rfl
  | bool b => exact fun _ _ => rfl
  | number left right => exact fun _ _ => normal_number left right
  | string s => exact fun _ _ => rfl
  | @array xs ys length _ ih =>
    rintro (_ | _ | _ | _ | each) (_ | _ | _ | _ | each')
    simp only [normal, normalItems_eq, JsValue.array.injEq]
    apply List.ext_getElem (by simp [length])
    intro i first second
    rw [List.getElem_map, List.getElem_map]
    exact ih i _ _ (List.getElem?_eq_getElem _) (List.getElem?_eq_getElem _)
      (each _ (List.getElem_mem _)) (each' _ (List.getElem_mem _))
  | @object ms ns keys _ ih =>
    intro left right
    cases left with
    | object distinct each =>
    cases right with
    | object distinct' each' =>
    simp only [normal, JsValue.object.injEq]
    apply sortMembers_ext (normal_keys distinct) (normal_keys distinct')
    rintro ⟨k, value⟩
    rw [mem_normalMembers distinct, mem_normalMembers distinct']
    have json : ∀ {v}, member ms k = some v → IsJson v := fun is =>
      each _ ((member_iff distinct).mp is).1 ((member_iff distinct).mp is).2
    have json' : ∀ {v}, member ns k = some v → IsJson v := fun is =>
      each' _ ((member_iff distinct').mp is).1 ((member_iff distinct').mp is).2
    constructor
    · rintro ⟨v, is, rfl⟩
      obtain ⟨w, there⟩ := Option.isSome_iff_exists.mp (keys k ▸ Option.isSome_of_eq_some is)
      exact ⟨w, there, (ih k v w is there (json is) (json' there)).symm⟩
    · rintro ⟨w, is, rfl⟩
      obtain ⟨v, there⟩ := Option.isSome_iff_exists.mp ((keys k).symm ▸ Option.isSome_of_eq_some is)
      exact ⟨v, there, ih k v w there is (json there) (json' is)⟩

theorem normal_finite {negative other : Bool} {m n : Magnitude}
    (eq : normal (.number (.finite negative m)) = normal (.number (.finite other n))) :
    (JsNumber.finite negative m).value = (JsNumber.finite other n).value := by
  simp only [normal, JsValue.number.injEq, JsNumber.finite.injEq] at eq
  obtain ⟨sign, rfl⟩ := eq
  by_cases zero : m.value = 0
  · simp [JsNumber.value, zero]
  · simp only [ne_eq, zero, not_false_eq_true, decide_true, Bool.and_true] at sign
    rw [sign]

/-- The keys of the normal form are those of the value. -/
theorem member_normal (left : (ms.map Prod.fst).Nodup) (right : (ns.map Prod.fst).Nodup)
    (eq : normal (.object ms) = normal (.object ns)) (is : member ms k = some v) :
    ∃ w, member ns k = some w ∧ w.normal = v.normal := by
  simp only [normal, JsValue.object.injEq] at eq
  rw [← mem_normalMembers right, ← mem_sortMembers, ← eq, mem_sortMembers, mem_normalMembers left]
  exact ⟨v, is, rfl⟩

theorem same_of_normal (left : IsJson v) :
    ∀ {w : JsValue}, IsJson w → v.normal = w.normal → Same v w := by
  induction left with
  | null =>
    rintro _ (_ | _ | _ | _ | _ | _) eq <;> simp [normal] at eq
    exact .null
  | bool b =>
    rintro _ (_ | _ | _ | _ | _ | _) eq <;> simp [normal] at eq
    exact eq ▸ .bool b
  | number negative m =>
    rintro _ (_ | _ | ⟨other, n⟩ | _ | _ | _) eq
    case number => exact .number rfl (normal_finite eq).symm
    all_goals simp [normal] at eq
  | string s =>
    rintro _ (_ | _ | _ | _ | _ | _) eq <;> simp [normal] at eq
    exact eq ▸ .string s
  | @array xs _ ih =>
    rintro _ (_ | _ | _ | _ | @⟨ys, each⟩ | _) eq
    case array =>
      simp only [normal, normalItems_eq, JsValue.array.injEq] at eq
      refine .array (by simpa using congrArg List.length eq) fun i x y first second => ?_
      have same : (xs.map normal)[i]? = (ys.map normal)[i]? := by rw [eq]
      rw [List.getElem?_map, List.getElem?_map, first, second] at same
      exact ih x (List.mem_of_getElem? first) (each y (List.mem_of_getElem? second))
        (Option.some.inj same)
    all_goals simp [normal] at eq
  | @object ms distinct _ ih =>
    rintro _ (_ | _ | _ | _ | _ | @⟨ns, distinct', each⟩) eq
    case object =>
      refine .object (fun k => ?_) fun k x y first second => ?_
      · rw [Bool.eq_iff_iff, Option.isSome_iff_exists, Option.isSome_iff_exists]
        constructor
        · rintro ⟨x, is⟩
          obtain ⟨y, there, _⟩ := member_normal distinct distinct' eq is
          exact ⟨y, there⟩
        · rintro ⟨y, is⟩
          obtain ⟨x, there, _⟩ := member_normal distinct' distinct eq.symm is
          exact ⟨x, there⟩
      · obtain ⟨z, there, same⟩ := member_normal distinct distinct' eq first
        obtain rfl : z = y := Option.some.inj (there.symm.trans second)
        rw [member_iff distinct] at first
        rw [member_iff distinct'] at second
        exact ih _ first.1 first.2 (each _ second.1 second.2) same.symm
    all_goals simp [normal] at eq

/-- Values of JSON are equal up to the order of members when they have one normal form. -/
theorem same_iff (left : IsJson v) (right : IsJson w) : Same v w ↔ v.normal = w.normal :=
  ⟨fun same => same.normal_eq left right, same_of_normal left right⟩

end Normal

end JsValue

/-! ## What is read has distinct keys -/

section Distinct

open JsValue

def MembersDistinct (ms : List (Units × JsValue)) : Prop :=
  (ms.map Prod.fst).Nodup ∧ ∀ m ∈ ms, Distinct m.2

def Frame.Distinct : Frame → Prop
  | .items before => ∀ x ∈ before, JsValue.Distinct x
  | .members before _ => MembersDistinct before

def Reader.Distinct : Reader → Prop
  | .value stack | .first stack => ∀ f ∈ stack, f.Distinct
  | .key stack before _ | .colon stack before _ => (∀ f ∈ stack, f.Distinct) ∧ MembersDistinct before
  | .next stack v => (∀ f ∈ stack, f.Distinct) ∧ JsValue.Distinct v

variable {r r' : Reader} {stack : List Frame} {before : List JsValue}
  {members : List (Units × JsValue)} {k : Units} {v : JsValue} {t : Token}

theorem membersDistinct_put (distinct : MembersDistinct members) (value : Distinct v) :
    MembersDistinct (putMember members k v) := by
  unfold putMember
  split
  · have keys : (members.map fun m => if m.1 = k then (k, v) else m).map Prod.fst =
        members.map Prod.fst := by
      rw [List.map_map]
      refine List.map_congr_left fun m _ => ?_
      change (if m.1 = k then (k, v) else m).1 = m.1
      split
      · rename_i is
        exact is.symm
      · rfl
    refine ⟨keys ▸ distinct.1, fun m there => ?_⟩
    obtain ⟨n, old, rfl⟩ := List.mem_map.mp there
    split
    · exact value
    · exact distinct.2 n old
  · rename_i fresh
    simp only [List.any_eq_true, beq_iff_eq, not_exists, not_and] at fresh
    constructor
    · rw [List.map_append, List.nodup_append]
      refine ⟨distinct.1, List.nodup_singleton k, ?_⟩
      rintro _ there _ (_ | ⟨_, ⟨⟩⟩) rfl
      obtain ⟨m, there, is⟩ := List.mem_map.mp there
      exact fresh m there is
    · intro m there
      rcases List.mem_append.mp there with there | there
      · exact distinct.2 m there
      · rw [List.mem_singleton.mp there]
        exact value

theorem distinct_append (each : ∀ x ∈ before, Distinct x) (value : Distinct v) :
    ∀ x ∈ before ++ [v], Distinct x :=
  List.forall_mem_append.mpr ⟨each, List.forall_mem_singleton.mpr value⟩

theorem distinct_readValue (each : ∀ f ∈ stack, f.Distinct) (is : readValue stack t = some r) :
    r.Distinct := by
  have none : MembersDistinct [] := ⟨List.nodup_nil, nofun⟩
  cases t <;> cases is
  case string s => exact ⟨each, .string s⟩
  case number x => exact ⟨each, .number x⟩
  case bool b => exact ⟨each, .bool b⟩
  case null => exact ⟨each, .null⟩
  case openBracket => exact each
  case openBrace => exact ⟨each, none⟩

theorem distinct_step (distinct : r.Distinct) (is : r.step t = some r') : r'.Distinct := by
  have cons : ∀ {f : Frame} {fs : List Frame}, f.Distinct → (∀ g ∈ fs, g.Distinct) →
      ∀ g ∈ f :: fs, g.Distinct := fun head tail => List.forall_mem_cons.mpr ⟨head, tail⟩
  unfold Reader.step at is
  split at is
  · exact distinct_readValue distinct is
  · cases is
    exact ⟨distinct, .array nofun⟩
  · exact distinct_readValue (cons (f := .items []) (fun _ there => nomatch there) distinct) is
  · cases is
    exact distinct
  · cases is
    exact ⟨distinct.1, .object List.nodup_nil nofun⟩
  · cases is
    exact cons distinct.2 distinct.1
  · cases is
    have frame := distinct.1 _ List.mem_cons_self
    exact cons (distinct_append frame distinct.2)
      fun f there => distinct.1 f (List.mem_cons_of_mem _ there)
  · cases is
    have frame := distinct.1 _ List.mem_cons_self
    exact ⟨fun f there => distinct.1 f (List.mem_cons_of_mem _ there),
      .array (distinct_append frame distinct.2)⟩
  · cases is
    have frame := distinct.1 _ List.mem_cons_self
    exact ⟨fun f there => distinct.1 f (List.mem_cons_of_mem _ there),
      membersDistinct_put frame distinct.2⟩
  · cases is
    have frame := distinct.1 _ List.mem_cons_self
    exact ⟨fun f there => distinct.1 f (List.mem_cons_of_mem _ there),
      .object (membersDistinct_put frame distinct.2).1 (membersDistinct_put frame distinct.2).2⟩
  · cases is

theorem distinct_run {tokens : List Token} (distinct : r.Distinct) (is : r.run tokens = some r') :
    r'.Distinct := by
  unfold Reader.run at is
  induction tokens generalizing r with
  | nil =>
    cases is
    exact distinct
  | cons t ts ih =>
    rw [List.foldlM_cons] at is
    obtain ⟨next, step, is⟩ := Option.bind_eq_some_iff.mp is
    exact ih (distinct_step distinct step) is

/-- No text is read as a value with two members of one key. -/
theorem distinct_jsonParse {text : Units} (is : jsonParse text = some v) : Distinct v := by
  unfold jsonParse at is
  obtain ⟨tokens, _, is⟩ := Option.bind_eq_some_iff.mp is
  obtain ⟨reader, run, is⟩ := Option.bind_eq_some_iff.mp is
  have distinct := distinct_run (r := .value []) (fun _ there => nomatch there) run
  unfold Reader.result at is
  split at is
  · cases is
    exact distinct.2
  · cases is

end Distinct

/-! ## What is written -/

/-- The number of a key that is an array index. -/
def arrayIndex (k : Units) : Option ℕ :=
  let digits := k.map unitChar
  let n := digitsValue 10 decimalDigit digits
  if digits = Nat.toDigits 10 n && n < 2 ^ 32 - 1 then some n else none

/-- The order of the properties of an object: array indices first, the others as they were added. -/
def ownOrder {α : Type} (ms : List (Units × α)) : List (Units × α) :=
  ((ms.filter fun m => (arrayIndex m.1).isSome).insertionSort fun m n =>
      (arrayIndex m.1).getD 0 ≤ (arrayIndex n.1).getD 0) ++
    ms.filter fun m => !(arrayIndex m.1).isSome

theorem ownOrder_perm {α : Type} {ms : List (Units × α)} : (ownOrder ms).Perm ms :=
  ((List.perm_insertionSort _ _).append_right _).trans (List.filter_append_perm _ ms)

namespace JsValue

mutual

/-- What `JSON.stringify` writes for a value. -/
def serialized : JsValue → JsValue
  | .undefined => .null
  | .number (.finite negative m) => .number (.finite (negative && decide (m.value ≠ 0)) m)
  | .number _ => .null
  | .array xs => .array (serializedItems xs)
  | .object ms => .object (ownOrder (serializedMembers ms))
  | v => v

def serializedItems : List JsValue → List JsValue
  | [] => []
  | x :: xs => x.serialized :: serializedItems xs

def serializedMembers : List (Units × JsValue) → List (Units × JsValue)
  | [] => []
  | (k, x) :: ms =>
    if x.isUndefined then serializedMembers ms else (k, x.serialized) :: serializedMembers ms

end

/-- `JSON.stringify`. -/
def stringify (v : JsValue) : Option Units := if v.isUndefined then none else some v.serialized.text

variable {v : JsValue} {xs : List JsValue} {ms : List (Units × JsValue)}

theorem serializedItems_eq : serializedItems xs = xs.map serialized := by
  induction xs with
  | nil => rfl
  | cons x xs ih => rw [serializedItems, ih, List.map_cons]

theorem serializedMembers_eq :
    serializedMembers ms = (defined ms).map fun m => (m.1, m.2.serialized) := by
  induction ms with
  | nil => rfl
  | cons m ms ih =>
    rw [serializedMembers, ih]
    cases undefined : m.2.isUndefined <;> simp [defined, undefined]

theorem serialized_keys (distinct : (ms.map Prod.fst).Nodup) :
    ((ownOrder (serializedMembers ms)).map Prod.fst).Nodup := by
  rw [(ownOrder_perm.map Prod.fst).nodup_iff, serializedMembers_eq, List.map_map]
  exact defined_keys distinct

theorem mem_serialized {m : Units × JsValue} : m ∈ ownOrder (serializedMembers ms) ↔
    ∃ n ∈ ms, n.2.isUndefined = false ∧ (n.1, n.2.serialized) = m := by
  rw [ownOrder_perm.mem_iff, serializedMembers_eq, List.mem_map]
  simp only [mem_defined, and_assoc]

theorem Distinct.plain (distinct : Distinct v) : v.serialized.Plain := by
  induction distinct with
  | undefined => exact .null
  | null => exact .null
  | bool b => exact .bool b
  | number x =>
    cases x with
    | finite negative m =>
      refine .number fun is => ?_
      rw [Bool.and_eq_true, decide_eq_true_iff] at is
      exact is.2
    | _ => exact .null
  | string s => exact .string s
  | array _ ih =>
    refine .array fun y there => ?_
    rw [serializedItems_eq, List.mem_map] at there
    obtain ⟨x, there, rfl⟩ := there
    exact ih x there
  | object distinct _ ih =>
    refine .object (serialized_keys distinct) fun m there => ?_
    obtain ⟨n, old, _, rfl⟩ := mem_serialized.mp there
    exact ih n old

end JsValue

end Artoo.Lib
