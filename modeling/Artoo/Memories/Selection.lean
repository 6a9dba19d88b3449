import Artoo.Lib.NumberText
import Artoo.Lib.Selection
import Artoo.Lib.Utf16
import Artoo.Memories.Services
import Mathlib.Data.List.Lex
import Mathlib.Data.Prod.Lex

/-! The memories that are injected into a context pack. -/
namespace Artoo.Memories
open Artoo.Lib

/-- What the selection reads of a memory, and the rest of it. -/
structure Memory (ρ : Type) where
  id : Units
  status : MemoryStatus
  scope : MemoryScope
  organizationId : Option Units := none
  projectId : Option Units := none
  taskId : Option Units := none
  createdAt : Units
  updatedAt : Option Units := none
  rest : ρ
  deriving DecidableEq

structure MemoryContext where
  organizationId : Option Units := none
  projectId : Option Units := none
  taskId : Option Units := none

@[ext]
structure MemorySelection (ρ : Type) where
  memories : List (Memory ρ)
  sourceMemoryIds : List Units

section Selecting

variable {ρ α β : Type}

/-! ## Eligibility -/

def isMemoryRetrievable (memory : Memory ρ) : Bool := memory.status == .accepted

/-- `memory.ref != null && memory.ref === context.ref` -/
def refMatches (reference context : Option Units) : Bool := reference.isSome && reference == context

def isMemoryEligible (memory : Memory ρ) (context : MemoryContext) : Bool :=
  if !isMemoryRetrievable memory then false
  else
    match memory.scope with
    | .task => refMatches memory.taskId context.taskId
    | .project => refMatches memory.projectId context.projectId
    | .organization => refMatches memory.organizationId context.organizationId
    | .code => refMatches memory.projectId context.projectId

def filterRetrievableMemories (candidates : List (Memory ρ)) (context : MemoryContext) :
    List (Memory ρ) :=
  candidates.filter fun memory => isMemoryEligible memory context

/-! ## Order -/

def MemoryScope.priority : MemoryScope → ℤ
  | .task => 0 | .project => 1 | .organization => 2 | .code => 3

def injectionTime (memory : Memory ρ) : Units := memory.updatedAt.getD memory.createdAt

/-- `a < b` on strings, which compares code units. -/
def before : Units → Units → Bool
  | _, [] => false
  | [], _ :: _ => true
  | x :: a, y :: b => if x = y then before a b else x < y

def compareMemories (a b : Memory ρ) : ℤ :=
  let byScope := a.scope.priority - b.scope.priority
  if byScope ≠ 0 then byScope
  else if injectionTime a ≠ injectionTime b then
    if before (injectionTime a) (injectionTime b) then 1 else -1
  else if before a.id b.id then -1
  else if before b.id a.id then 1
  else 0

/-! ## Selection -/

/-- `l.slice(0, Math.max(0, limit))` -/
def sliceTo (limit : JsNumber) (l : List α) : List α :=
  match limit with
  | .finite negative m => if negative then [] else l.take ⌊m.value⌋.toNat
  | .infinite negative => if negative then [] else l
  | .nan => []

/-- `limit !== undefined ? l.slice(0, Math.max(0, limit)) : l` -/
def upTo (limit : Option JsNumber) (l : List α) : List α :=
  match limit with
  | some limit => sliceTo limit l
  | none => l

/-- The sort of the language is stable. -/
def selectInjectableMemories (candidates : List (Memory ρ)) (context : MemoryContext)
    (limit : Option JsNumber := none) : MemorySelection ρ :=
  let eligible := filterRetrievableMemories candidates context
  let ordered := eligible.insertionSort fun a b => compareMemories a b ≤ 0
  let selected := upTo limit ordered
  { memories := selected, sourceMemoryIds := selected.map (·.id) }

/-! ## Ranks -/

def order (s : Units) : List ℕ := s.map UInt16.toNat

theorem order_injective {s t : Units} (same : order s = order t) : s = t :=
  List.map_injective_iff.mpr (fun _ _ => UInt16.toNat_inj.mp) same

theorem before_iff (a b : Units) : before a b = true ↔ order a < order b := by
  induction a generalizing b with
  | nil =>
    cases b with
    | nil => simp [before, order]
    | cons y b => simp [before, order]
  | cons x a ih =>
    cases b with
    | nil => simp [before, order]
    | cons y b =>
      unfold order at ih ⊢
      rw [List.map_cons, List.map_cons, List.cons_lt_cons_iff, before]
      by_cases same : x = y
      · subst same
        simp [ih]
      · have numbers : x.toNat ≠ y.toNat := fun eq => same (UInt16.toNat_inj.mp eq)
        simp [same, numbers, UInt16.lt_iff_toNat_lt]

/-- The scope first; the newest memory of a scope; then the least id. -/
def Memory.rank (memory : Memory ρ) : ℤ ×ₗ (List ℕ)ᵒᵈ ×ₗ List ℕ :=
  toLex (memory.scope.priority,
    toLex (OrderDual.toDual (order (injectionTime memory)), order memory.id))

theorem id_of_rank {a b : Memory ρ} (same : a.rank = b.rank) : a.id = b.id := by
  have parts := toLex.injective same
  have rest := toLex.injective (Prod.ext_iff.mp parts).2
  exact order_injective (Prod.ext_iff.mp rest).2

theorem compareMemories_le (a b : Memory ρ) : compareMemories a b ≤ 0 ↔ a.rank ≤ b.rank := by
  unfold Memory.rank
  rw [Prod.Lex.toLex_le_toLex, Prod.Lex.toLex_le_toLex, OrderDual.toDual_lt_toDual]
  unfold compareMemories
  by_cases scope : a.scope.priority = b.scope.priority
  · by_cases time : injectionTime a = injectionTime b
    · have ids : before a.id b.id = true ∨ before b.id a.id = false ↔
          order a.id ≤ order b.id := by
        rw [before_iff, ← Bool.not_eq_true, before_iff, not_lt]
        constructor
        · rintro (less | le)
          · exact le_of_lt less
          · exact le
        · exact Or.inr
      rw [scope, time]
      simp only [sub_self, ne_eq, not_true_eq_false, if_false, lt_irrefl, false_or, true_and]
      rw [← ids]
      cases first : before a.id b.id <;> cases second : before b.id a.id <;> simp
    · have distinct : order (injectionTime a) ≠ order (injectionTime b) :=
        fun same => time (order_injective same)
      have newer : before (injectionTime a) (injectionTime b) = false ↔
          order (injectionTime b) < order (injectionTime a) := by
        rw [← Bool.not_eq_true, before_iff, not_lt]
        exact ⟨fun le => lt_of_le_of_ne le distinct.symm, le_of_lt⟩
      rw [scope]
      simp only [sub_self, ne_eq, not_true_eq_false, if_false, time, not_false_eq_true, if_true,
        lt_irrefl, false_or, true_and, OrderDual.toDual_inj, distinct, false_and, or_false]
      rw [← newer]
      cases before (injectionTime a) (injectionTime b) <;> simp
  · have apart : a.scope.priority - b.scope.priority ≠ 0 := sub_ne_zero.mpr scope
    simp only [ne_eq, apart, not_false_eq_true, if_true, scope, false_and, or_false]
    omega

theorem insertionSort_eq_byRank (l : List (Memory ρ)) :
    l.insertionSort (fun a b => compareMemories a b ≤ 0) = byRank Memory.rank l := by
  have same := List.map_insertionSort (fun a b => compareMemories a b ≤ 0)
    (fun a b : Memory ρ => a.rank ≤ b.rank) id l fun a _ b _ => compareMemories_le a b
  simpa [byRank] using same

/-! ## What is kept -/

theorem sliceTo_eq_take (limit : JsNumber) (l : List α) :
    ∃ n, sliceTo limit l = l.take n ∧ (∀ q, limit.value = some q → (n : ℚ) ≤ max 0 q) ∧
      (limit = .nan → n = 0) := by
  cases limit with
  | finite negative m =>
    cases negative with
    | true => exact ⟨0, by simp [sliceTo], by simp, nofun⟩
    | false =>
      refine ⟨⌊m.value⌋.toNat, by simp [sliceTo], ?_, nofun⟩
      intro q is
      have eq : m.value = q := by simpa [JsNumber.value] using is
      have floor : 0 ≤ ⌊m.value⌋ := Int.floor_nonneg.mpr m.nonneg
      calc ((⌊m.value⌋.toNat : ℕ) : ℚ) = (⌊m.value⌋ : ℚ) := by
            exact_mod_cast Int.toNat_of_nonneg floor
        _ ≤ m.value := Int.floor_le _
        _ ≤ max 0 q := eq ▸ le_max_right _ _
  | infinite negative =>
    cases negative with
    | true => exact ⟨0, by simp [sliceTo], by simp, nofun⟩
    | false => exact ⟨l.length, by simp [sliceTo], by simp [JsNumber.value], nofun⟩
  | nan => exact ⟨0, by simp [sliceTo], by simp, fun _ => rfl⟩

theorem map_sliceTo (limit : JsNumber) (l : List α) (f : α → β) :
    (sliceTo limit l).map f = sliceTo limit (l.map f) := by
  cases limit with
  | finite negative m => cases negative <;> simp [sliceTo, List.map_take]
  | infinite negative => cases negative <;> simp [sliceTo]
  | nan => simp [sliceTo]

theorem map_upTo (limit : Option JsNumber) (l : List α) (f : α → β) :
    (upTo limit l).map f = upTo limit (l.map f) := by
  cases limit with
  | none => rfl
  | some limit => exact map_sliceTo limit l f

theorem upTo_eq_take (limit : Option JsNumber) (l : List α) : ∃ n, upTo limit l = l.take n := by
  cases limit with
  | none => exact ⟨l.length, List.take_length.symm⟩
  | some limit =>
    obtain ⟨n, is, -⟩ := sliceTo_eq_take limit l
    exact ⟨n, is⟩

theorem selected_memories (candidates : List (Memory ρ)) (context : MemoryContext)
    (limit : Option JsNumber) : (selectInjectableMemories candidates context limit).memories =
      upTo limit (byRank Memory.rank (filterRetrievableMemories candidates context)) := by
  simp only [selectInjectableMemories, insertionSort_eq_byRank]

/-! ## The selection -/

variable {candidates candidates' : List (Memory ρ)} {context : MemoryContext}
  {limit : Option JsNumber}

theorem selected_sorted :
    (selectInjectableMemories candidates context limit).memories.Pairwise
      fun a b => a.rank ≤ b.rank := by
  rw [selected_memories]
  obtain ⟨n, is⟩ := upTo_eq_take limit (byRank Memory.rank (filterRetrievableMemories candidates context))
  rw [is]
  exact byRank_sorted.sublist (List.take_sublist _ _)

/-- The eligible memories that are left out rank below those that are kept. -/
theorem selected_first : ∃ omitted,
    ((selectInjectableMemories candidates context limit).memories ++ omitted).Perm
      (filterRetrievableMemories candidates context) ∧
    ∀ a ∈ (selectInjectableMemories candidates context limit).memories, ∀ b ∈ omitted,
      a.rank ≤ b.rank := by
  rw [selected_memories]
  obtain ⟨n, is⟩ := upTo_eq_take limit (byRank Memory.rank (filterRetrievableMemories candidates context))
  rw [is]
  refine ⟨(byRank Memory.rank (filterRetrievableMemories candidates context)).drop n, ?_, ?_⟩
  · rw [List.take_append_drop]
    exact byRank_perm
  · exact take_le_drop byRank_sorted n

theorem selected_length {bound : JsNumber} :
    (∀ q, bound.value = some q →
      ((selectInjectableMemories candidates context (some bound)).memories.length : ℚ) ≤ max 0 q) ∧
    (bound = .nan → (selectInjectableMemories candidates context (some bound)).memories = []) := by
  rw [selected_memories]
  obtain ⟨n, is, few, none⟩ := sliceTo_eq_take bound
    (byRank Memory.rank (filterRetrievableMemories candidates context))
  change _ ∧ (_ → sliceTo _ _ = _)
  change (∀ q, _ → ((sliceTo _ _).length : ℚ) ≤ _) ∧ _
  rw [is]
  constructor
  · intro q value
    refine le_trans ?_ (few q value)
    exact_mod_cast List.length_take_le n _
  · intro nan
    rw [none nan, List.take_zero]

theorem selected_ranks (perm : candidates.Perm candidates') :
    (selectInjectableMemories candidates context limit).memories.map Memory.rank =
      (selectInjectableMemories candidates' context limit).memories.map Memory.rank := by
  rw [selected_memories, selected_memories, map_upTo, map_upTo]
  exact congrArg (upTo limit) (map_byRank_perm (perm.filter _))

theorem ids_of_ranks {l l' : List (Memory ρ)} (same : l.map Memory.rank = l'.map Memory.rank) :
    l.map (·.id) = l'.map (·.id) := by
  have ids : ∀ l : List (Memory ρ), (l.map Memory.rank).map (fun r => (ofLex (ofLex r).2).2) =
      (l.map (·.id)).map order := by
    intro l
    rw [List.map_map, List.map_map]
    rfl
  have orders : (l.map (·.id)).map order = (l'.map (·.id)).map order := by
    rw [← ids, ← ids, same]
  exact List.map_injective_iff.mpr (fun _ _ => order_injective) orders

theorem selected_same (perm : candidates.Perm candidates')
    (named : ∀ a ∈ candidates, ∀ b ∈ candidates, a.id = b.id → a = b) :
    selectInjectableMemories candidates context limit =
      selectInjectableMemories candidates' context limit := by
  have memories : (selectInjectableMemories candidates context limit).memories =
      (selectInjectableMemories candidates' context limit).memories := by
    rw [selected_memories, selected_memories]
    congr 1
    apply byRank_of_perm (perm.filter _)
    intro a first b second same
    exact named a (List.mem_of_mem_filter first) b (List.mem_of_mem_filter second)
      (id_of_rank same)
  exact MemorySelection.ext memories (congrArg (List.map Memory.id) memories)

/-- The selection is a rank-ordered prefix of the eligible memories. Another order of the candidates
changes it only between memories of the same rank, which have the same id. -/
theorem selectInjectableMemories_ranked (candidates : List (Memory ρ)) (context : MemoryContext)
    (limit : Option JsNumber) :
    (∀ m ∈ (selectInjectableMemories candidates context limit).memories,
      m ∈ candidates ∧ isMemoryEligible m context = true) ∧
    (∀ bound, limit = some bound →
      (∀ q, bound.value = some q →
        ((selectInjectableMemories candidates context limit).memories.length : ℚ) ≤ max 0 q) ∧
      (bound = .nan → (selectInjectableMemories candidates context limit).memories = [])) ∧
    (selectInjectableMemories candidates context limit).memories.Pairwise
      (fun a b => a.rank ≤ b.rank) ∧
    (∃ omitted, ((selectInjectableMemories candidates context limit).memories ++ omitted).Perm
        (candidates.filter fun m => isMemoryEligible m context) ∧
      ∀ a ∈ (selectInjectableMemories candidates context limit).memories, ∀ b ∈ omitted,
        a.rank ≤ b.rank) ∧
    ∀ candidates', candidates.Perm candidates' →
      (selectInjectableMemories candidates context limit).sourceMemoryIds =
        (selectInjectableMemories candidates' context limit).sourceMemoryIds ∧
      (selectInjectableMemories candidates context limit).memories.map Memory.rank =
        (selectInjectableMemories candidates' context limit).memories.map Memory.rank ∧
      ((∀ a ∈ candidates, ∀ b ∈ candidates, a.id = b.id → a = b) →
        selectInjectableMemories candidates context limit =
          selectInjectableMemories candidates' context limit) := by
  obtain ⟨omitted, whole, above⟩ : ∃ omitted,
      ((selectInjectableMemories candidates context limit).memories ++ omitted).Perm
        (filterRetrievableMemories candidates context) ∧
      ∀ a ∈ (selectInjectableMemories candidates context limit).memories, ∀ b ∈ omitted,
        a.rank ≤ b.rank := selected_first
  refine ⟨?_, ?_, selected_sorted, ⟨omitted, whole, above⟩, ?_⟩
  · intro m kept
    exact List.mem_filter.mp (whole.mem_iff.mp (List.mem_append_left omitted kept))
  · rintro bound rfl
    exact selected_length
  · intro candidates' perm
    exact ⟨ids_of_ranks (selected_ranks perm), selected_ranks perm, selected_same perm⟩

end Selecting

/-- Two accepted memories of a task under one id, and a limit below zero. -/
theorem selectInjectableMemories_tied :
    let context : MemoryContext := { taskId := some (units "t") }
    let memory (rest : Bool) : Memory Bool :=
      { id := units "m", status := .accepted, scope := .task, taskId := some (units "t"),
        createdAt := units "c", rest }
    let below : JsNumber := .finite true ⟨1, by decide, toDouble_natCast (n := 1) (by decide)⟩
    [memory false, memory true].Perm [memory true, memory false] ∧
    (selectInjectableMemories [memory false, memory true] context).memories ≠
      (selectInjectableMemories [memory true, memory false] context).memories ∧
    below.value = some (-1) ∧
    ¬ ((selectInjectableMemories [memory false] context (some below)).memories.length : ℚ) ≤ -1 := by
  intro context memory below
  refine ⟨List.Perm.swap _ _ _, by decide, rfl, ?_⟩
  rw [not_le]
  exact lt_of_lt_of_le (by norm_num) (Nat.cast_nonneg _)

end Artoo.Memories
