import Artoo.Lib.Ensures
import Artoo.Planning.Plans
import Mathlib.Data.List.GetD

/-! What validation makes of the content of a plan, whatever ids the specs are given later. -/
namespace Artoo.Planning
open Artoo.Lib Artoo.Domain
open Artoo.Server (DependencyType)

theorem toString_injective {a b : Nat} (same : toString a = toString b) : a = b := by
  have digits : Nat.toDigits 10 a = Nat.toDigits 10 b := by
    rw [← Nat.toList_repr, ← Nat.toList_repr]
    exact congrArg String.toList same
  rw [← @Nat.ofDigitChars_ten_toDigits a, digits, Nat.ofDigitChars_ten_toDigits]

/-- A dependency of a plan by spec indices: the prerequisite, the dependent and the type. -/
abbrev SpecEdge := Nat × Nat × DependencyType

def SpecEdge.pair (e : SpecEdge) : Nat × Nat := (e.1, e.2.1)

def SpecEdge.named (idForIndex : Nat → String) (e : SpecEdge) : PlanEdge :=
  ⟨idForIndex e.1, idForIndex e.2.1, e.2.2⟩

def resolveDependency (number : String → Option Int) (count : Nat) (d : Nat × DependencySpec) :
    Option SpecEdge :=
  (resolveRef number count d.2.ref).map fun refIdx => (refIdx, d.1, d.2.type)

/-- The dependencies of a plan by index, those with an unknown reference left out. -/
def specEdges (number : String → Option Int) (specs : List TaskSpec) : List SpecEdge :=
  (specDependencies specs).filterMap (resolveDependency number specs.length)

/-- No two dependencies of a spec mean the same spec with the same type. -/
def DistinctEdges (number : String → Option Int) (specs : List TaskSpec) : Prop :=
  (specEdges number specs).Nodup

instance {number : String → Option Int} {specs : List TaskSpec} :
    Decidable (DistinctEdges number specs) := inferInstanceAs (Decidable (List.Nodup _))

section Edges

variable {number : String → Option Int} {count : Nat} {f g : Nat → String}

/-- A list of edges that each pass the checks of their round. -/
inductive Builds (number : String → Option Int) (count : Nat) :
    List SpecEdge → List (Nat × DependencySpec) → List SpecEdge → Prop where
  | nil {edges : List SpecEdge} : Builds number count edges [] edges
  | cons {edges rest : List SpecEdge} {refIdx : Nat} {d : Nat × DependencySpec}
      {ds : List (Nat × DependencySpec)} : resolveRef number count d.2.ref = some refIdx →
      refIdx ≠ d.1 → ¬ Reaches (edges.map SpecEdge.pair) d.1 refIdx →
      Builds number count (edges ++ [(refIdx, d.1, d.2.type)]) ds rest →
      Builds number count edges (d :: ds) rest

/-- The nodes of the edges are spec indices. -/
def Within (count : Nat) (edges : List SpecEdge) : Prop := ∀ e ∈ edges, e.1 < count ∧ e.2.1 < count

theorem resolveRef_lt {ref : String} {refIdx : Nat} (is : resolveRef number count ref = some refIdx) :
    refIdx < count := by
  unfold resolveRef at is
  split at is
  · split at is
    · cases is
      omega
    · cases is
  · cases is

theorem Within.snoc {edges : List SpecEdge} {d : Nat × DependencySpec} {refIdx : Nat}
    (h : Within count edges) (bound : d.1 < count)
    (is : resolveRef number count d.2.ref = some refIdx) :
    Within count (edges ++ [(refIdx, d.1, d.2.type)]) := by
  intro e member
  rcases List.mem_append.mp member with old | new
  · exact h e old
  · rw [List.mem_singleton.mp new]
    exact ⟨resolveRef_lt is, bound⟩

theorem reaches_named (inj : ∀ a b, a < count → b < count → f a = f b → a = b)
    {edges : List SpecEdge} (within : Within count edges) {a b : Nat} (left : a < count)
    (right : b < count) :
    Reaches ((edges.map (SpecEdge.named f)).map PlanEdge.pair) (f a) (f b) ↔
      Reaches (edges.map SpecEdge.pair) a b := by
  have same : (edges.map (SpecEdge.named f)).map PlanEdge.pair =
      (edges.map SpecEdge.pair).map (Prod.map f f) := by
    rw [List.map_map, List.map_map]
    rfl
  rw [same]
  apply reaches_map inj _ left right
  intro c d member
  obtain ⟨e, there, is⟩ := List.mem_map.mp member
  cases is
  exact within e there

/-- A round gives the edge of its indices, under any names that keep the indices apart. -/
theorem buildEdge_ok (inj : ∀ a b, a < count → b < count → f a = f b → a = b)
    {edges : List SpecEdge} (within : Within count edges) {d : Nat × DependencySpec}
    (bound : d.1 < count) {out : List PlanEdge} :
    buildEdge number count f (edges.map (SpecEdge.named f)) d = .ok out ↔
      ∃ refIdx, resolveRef number count d.2.ref = some refIdx ∧ refIdx ≠ d.1 ∧
        ¬ Reaches (edges.map SpecEdge.pair) d.1 refIdx ∧
        out = (edges ++ [(refIdx, d.1, d.2.type)]).map (SpecEdge.named f) := by
  unfold buildEdge
  cases found : resolveRef number count d.2.ref with
  | none => simp
  | some refIdx =>
    have lt := resolveRef_lt found
    by_cases self : refIdx = d.1
    · simp [self]
    · dsimp only
      rw [if_neg self]
      by_cases path : Reaches (edges.map SpecEdge.pair) d.1 refIdx
      · rw [if_pos (wouldCreateCycle_iff.mpr ((reaches_named inj within bound lt).mpr path))]
        constructor
        · intro impossible
          cases impossible
        · rintro ⟨_, is, _, apart, _⟩
          cases is
          exact absurd path apart
      · rw [if_neg fun cycle => path
          ((reaches_named inj within bound lt).mp (wouldCreateCycle_iff.mp cycle))]
        constructor
        · intro is
          cases is
          refine ⟨refIdx, rfl, self, path, ?_⟩
          rw [List.map_append]
          rfl
        · rintro ⟨_, is, _, _, rfl⟩
          cases is
          rw [List.map_append]
          rfl

theorem foldlM_buildEdge (inj : ∀ a b, a < count → b < count → f a = f b → a = b)
    {ds : List (Nat × DependencySpec)} (bounds : ∀ d ∈ ds, d.1 < count) {edges : List SpecEdge}
    (within : Within count edges) {out : List PlanEdge} :
    ds.foldlM (buildEdge number count f) (edges.map (SpecEdge.named f)) = .ok out ↔
      ∃ all, Builds number count edges ds all ∧ out = all.map (SpecEdge.named f) := by
  induction ds generalizing edges with
  | nil =>
    constructor
    · intro is
      cases is
      exact ⟨edges, .nil, rfl⟩
    · rintro ⟨_, ⟨⟩, rfl⟩
      rfl
  | cons d ds ih =>
    have bound := bounds d List.mem_cons_self
    have rest := fun c member => bounds c (List.mem_cons_of_mem _ member)
    rw [List.foldlM_cons]
    constructor
    · intro is
      cases first : buildEdge number count f (edges.map (SpecEdge.named f)) d with
      | error e =>
        rw [first] at is
        cases is
      | ok mid =>
        rw [first] at is
        obtain ⟨refIdx, found, other, apart, rfl⟩ := (buildEdge_ok inj within bound).mp first
        obtain ⟨all, builds, named⟩ := (ih rest (within.snoc bound found)).mp is
        exact ⟨all, .cons found other apart builds, named⟩
    · rintro ⟨all, builds, rfl⟩
      cases builds with
      | cons found other apart builds =>
        rw [(buildEdge_ok inj within bound).mpr ⟨_, found, other, apart, rfl⟩]
        exact (ih rest (within.snoc bound found)).mpr ⟨all, builds, rfl⟩

theorem specDependencies_lt {specs : List TaskSpec} :
    ∀ d ∈ specDependencies specs, d.1 < specs.length := by
  intro d member
  obtain ⟨s, there, inside⟩ := List.mem_flatMap.mp member
  obtain ⟨dep, _, rfl⟩ := List.mem_map.mp inside
  exact List.snd_lt_of_mem_zipIdx there

/-- What was built is the list that was there and the resolved dependencies. -/
theorem Builds.all {edges all : List SpecEdge} {ds : List (Nat × DependencySpec)}
    (h : Builds number count edges ds all) :
    all = edges ++ ds.filterMap (resolveDependency number count) := by
  induction h with
  | nil => simp
  | cons found _ _ _ ih =>
    rw [ih, List.append_assoc]
    congr 1
    unfold resolveDependency
    rw [List.filterMap_cons, found]
    rfl

theorem Builds.acyclic {edges all : List SpecEdge} {ds : List (Nat × DependencySpec)}
    (h : Builds number count edges ds all) (start : Acyclic (Edge (edges.map SpecEdge.pair))) :
    Acyclic (Edge (all.map SpecEdge.pair)) := by
  induction h with
  | nil => exact start
  | cons _ _ apart _ ih =>
    apply ih
    rw [List.map_append]
    exact acyclic_append start apart

theorem foldlM_buildEdge_named {ds : List (Nat × DependencySpec)} {edges out : List PlanEdge}
    (built : ds.foldlM (buildEdge number count f) edges = .ok out) :
    out = edges ++ (ds.filterMap (resolveDependency number count)).map (SpecEdge.named f) := by
  induction ds generalizing edges with
  | nil =>
    cases built
    simp
  | cons d ds ih =>
    rw [List.foldlM_cons] at built
    unfold buildEdge at built
    rw [List.filterMap_cons]
    unfold resolveDependency
    cases found : resolveRef number count d.2.ref with
    | none =>
      rw [found] at built
      cases built
    | some refIdx =>
      rw [found] at built
      dsimp only at built
      split at built
      · cases built
      · split at built
        · cases built
        · rw [ih built, List.append_assoc]
          rfl

/-- What `buildEdges` builds, it builds from the dependencies of the specs alone. -/
theorem buildEdges_named {specs : List TaskSpec} {out : List PlanEdge}
    (built : buildEdges number specs f = .ok out) :
    out = (specEdges number specs).map (SpecEdge.named f) := by
  rw [foldlM_buildEdge_named built, List.nil_append]
  rfl

theorem getD_mem {ids : List String} {i : Nat} (lt : i < ids.length) : ids.getD i "" ∈ ids := by
  rw [List.getD_eq_getElem _ _ lt]
  exact List.getElem_mem _

theorem specEdges_within {specs : List TaskSpec} : Within specs.length (specEdges number specs) := by
  intro e member
  obtain ⟨d, there, resolved⟩ := List.mem_filterMap.mp member
  obtain ⟨refIdx, is, rfl⟩ := Option.map_eq_some_iff.mp resolved
  exact ⟨resolveRef_lt is, specDependencies_lt d there⟩

/-- Names that keep the indices apart keep the edges apart. -/
theorem nodup_named (inj : ∀ a b, a < count → b < count → f a = f b → a = b)
    {edges : List SpecEdge} (within : Within count edges) (apart : edges.Nodup) :
    (edges.map (SpecEdge.named f)).Nodup := by
  apply List.Nodup.map_on _ apart
  intro a left b right same
  obtain ⟨source, target, type⟩ := PlanEdge.mk.injEq .. ▸ same
  have first := inj _ _ (within a left).1 (within b right).1 source
  have second := inj _ _ (within a left).2 (within b right).2 target
  exact Prod.ext first (Prod.ext second type)

/-- The edges of a plan by index, when they pass the checks. -/
def ValidEdges (number : String → Option Int) (specs : List TaskSpec) : Prop :=
  Builds number specs.length [] (specDependencies specs) (specEdges number specs)

theorem buildEdges_ok {specs : List TaskSpec}
    (inj : ∀ a b, a < specs.length → b < specs.length → f a = f b → a = b) {out : List PlanEdge} :
    buildEdges number specs f = .ok out ↔
      ValidEdges number specs ∧ out = (specEdges number specs).map (SpecEdge.named f) := by
  unfold buildEdges
  have empty : ([] : List PlanEdge) = ([] : List SpecEdge).map (SpecEdge.named f) := rfl
  rw [empty, foldlM_buildEdge inj specDependencies_lt (fun _ member => absurd member List.not_mem_nil)]
  constructor
  · rintro ⟨all, builds, rfl⟩
    have is : all = specEdges number specs := builds.all
    rw [is] at builds
    exact ⟨builds, by rw [is]⟩
  · rintro ⟨valid, rfl⟩
    exact ⟨_, valid, rfl⟩

end Edges

/-! ## The specs with their tasks -/

/-- A spec with its task id and index, as the loop goes through them. -/
abbrev SpecTask := (TaskSpec × String) × Nat

theorem specTasks_ids {specs : List TaskSpec} {taskIds : List String}
    (count : taskIds.length = specs.length) :
    ((specs.zip taskIds).zipIdx.map fun x : SpecTask => x.1.2) = taskIds := by
  calc
    _ = ((specs.zip taskIds).zipIdx.map Prod.fst).map Prod.snd := by
      rw [List.map_map]
      rfl
    _ = (specs.zip taskIds).map Prod.snd := by rw [List.zipIdx_map_fst]
    _ = taskIds := List.map_snd_zip (by omega)

/-! ## The unique key of the dependencies -/

/-- A dependency row with the ends and the type of the edge. -/
def Present (e : PlanEdge) (st : Store) : Prop :=
  ∃ row ∈ st.core.dependencies,
    row.fromTaskId = e.fromId ∧ row.toTaskId = e.toId ∧ row.type = e.type

theorem edgeTaken_eq_false {st : Store} {id : String} {e : PlanEdge} :
    edgeTaken { id, fromTaskId := e.fromId, toTaskId := e.toId, type := e.type } st = false ↔
      st.core.dependencies.get? id = none ∧ ¬ Present e st := by
  unfold edgeTaken Present
  rw [Bool.or_eq_false_iff, Option.isSome_eq_false_iff, Option.isNone_iff_eq_none]
  apply and_congr_right
  intro _
  simp only [List.any_eq_false, Bool.and_eq_true, beq_iff_eq, not_exists, not_and, Table.mem_def,
    and_imp]

/-! ## Specs that parse to themselves -/

theorem filterMap_named (dependencies : List DependencySpec) :
    (dependencies.map fun d => ({ ref := d.ref, type := dependencyName d.type } : DependencyInput)).filterMap
      (fun d => (dependencyType d.type).map fun type => ({ ref := d.ref, type } : DependencySpec)) =
      dependencies := by
  induction dependencies with
  | nil => rfl
  | cons d dependencies ih =>
    rw [List.map_cons, List.filterMap_cons, dependencyType_name]
    exact congrArg (d :: ·) ih

theorem specIssues_input {spec : TaskSpec} {input : ProposePlanSpecInput}
    (title : spec.title = input.title) (criteria : spec.acceptanceCriteria = input.acceptanceCriteria)
    (clean : specIssues input = []) : specIssues spec.input = [] := by
  have sameTitle : spec.input.title = input.title := title
  have sameCriteria : spec.input.acceptanceCriteria = input.acceptanceCriteria := criteria
  unfold specIssues at clean ⊢
  rw [sameTitle, sameCriteria]
  simp only [List.append_eq_nil_iff] at clean ⊢
  refine ⟨clean.1, ?_⟩
  rw [List.map_eq_nil_iff, List.filter_eq_nil_iff]
  rintro ⟨d, i⟩ member
  have there := List.fst_mem_of_mem_zipIdx member
  obtain ⟨dep, _, rfl⟩ := List.mem_map.mp there
  simp

theorem parseTaskSpec_input {spec : TaskSpec} (clean : specIssues spec.input = []) :
    parseTaskSpec spec.input = .ok spec := by
  unfold parseTaskSpec
  rw [clean, List.isEmpty_nil, if_pos rfl]
  unfold TaskSpec.input
  simp only [Option.getD_some, filterMap_named, List.map_map]
  congr 2
  exact List.map_id _

/-- A stored list of specs is either refused or what it says. -/
theorem parseStored_is {specs parsed : List TaskSpec} (h : parseStored specs = .ok parsed) :
    parsed = specs := by
  unfold parseStored at h
  induction specs generalizing parsed with
  | nil =>
    cases h
    rfl
  | cons spec specs ih =>
    rw [List.mapM_cons] at h
    by_cases clean : specIssues spec.input = []
    · rw [parseTaskSpec_input clean] at h
      cases rest : (specs.mapM fun spec => parseTaskSpec spec.input) with
      | error e =>
        rw [rest] at h
        cases h
      | ok others =>
        rw [rest] at h
        cases h
        rw [ih rest]
    · have refused : parseTaskSpec spec.input = .error (.invalid (specIssues spec.input)) := by
        unfold parseTaskSpec
        rw [if_neg (mt List.isEmpty_iff.mp clean)]
      rw [refused] at h
      cases h

/-- What was parsed parses to itself. -/
theorem parseTaskSpec_again {input : ProposePlanSpecInput} {spec : TaskSpec}
    (parsed : parseTaskSpec input = .ok spec) : parseTaskSpec spec.input = .ok spec := by
  unfold parseTaskSpec at parsed
  split at parsed
  · rename_i clean
    cases parsed
    exact parseTaskSpec_input (specIssues_input rfl rfl (List.isEmpty_iff.mp clean))
  · cases parsed

theorem parseStored_again {inputs : List ProposePlanSpecInput} {specs : List TaskSpec}
    (parsed : inputs.mapM parseTaskSpec = .ok specs) : parseStored specs = .ok specs := by
  unfold parseStored
  induction inputs generalizing specs with
  | nil =>
    cases parsed
    rfl
  | cons input inputs ih =>
    rw [List.mapM_cons] at parsed
    cases first : parseTaskSpec input with
    | error e =>
      rw [first] at parsed
      cases parsed
    | ok spec =>
      rw [first] at parsed
      cases rest : inputs.mapM parseTaskSpec with
      | error e =>
        rw [rest] at parsed
        cases parsed
      | ok others =>
        rw [rest] at parsed
        cases parsed
        rw [List.mapM_cons, parseTaskSpec_again first, ih rest]
        rfl

/-- The content that validation lets through. -/
structure Validated (number : String → Option Int) (specs : List TaskSpec) : Prop where
  parses : parseStored specs = .ok specs
  controls : assertAllControls specs = .ok ()
  nonempty : specs ≠ []
  edges : ValidEdges number specs

theorem validated {number : String → Option Int} {input : List ProposePlanSpecInput}
    {specs : List TaskSpec} (accepted : validatePlanTaskSpecs number input = .ok specs) :
    Validated number specs := by
  unfold validatePlanTaskSpecs at accepted
  cases parsed : input.mapM parseTaskSpec with
  | error e =>
    rw [parsed] at accepted
    cases accepted
  | ok all =>
    rw [parsed] at accepted
    simp only [ok_bind] at accepted
    cases controls : assertAllControls all with
    | error e =>
      rw [controls] at accepted
      cases accepted
    | ok _ =>
      rw [controls] at accepted
      simp only [ok_bind] at accepted
      split at accepted
      · cases accepted
      · rename_i some_
        cases built : buildEdges number all toString with
        | error e =>
          rw [built] at accepted
          cases accepted
        | ok edges =>
          rw [built] at accepted
          cases accepted
          refine ⟨parseStored_again parsed, controls, ?_, ?_⟩
          · intro empty
            rw [empty] at some_
            exact some_ rfl
          · exact ((buildEdges_ok fun _ _ _ _ => toString_injective).mp built).1

end Artoo.Planning
