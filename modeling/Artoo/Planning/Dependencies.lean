import Artoo.Planning.Concurrent
import Artoo.Planning.Content

/-! Dependencies between tasks: their creation and deletion, and the task graph they make together
with the plans that are materialized. -/
namespace Artoo.Planning
open Artoo.Lib Artoo.Domain Artoo.Protocol Tx
open Artoo.Server (DependencyType DependencyRow TaskRow EventSpec)

def edgeJson (e : PlanEdge) : List (String × Json) :=
  [("from_task_id", .str e.fromId), ("to_task_id", .str e.toId),
    ("type", .str (dependencyName e.type))]

def taskMissing (message taskId field : String) : Failure :=
  .app (.notFound (message ++ taskId) [(field, .str taskId)])

/-- The dependencies as the cycle check reads them: prerequisite, dependent. -/
def loadEdges (st : Store) : List (String × String) :=
  st.core.dependencies.rows.map fun d => (d.fromTaskId, d.toTaskId)

def existingDependency (e : PlanEdge) (st : Store) : Option DependencyRow :=
  (st.core.dependencies.select fun d =>
    d.fromTaskId == e.fromId && d.toTaskId == e.toId && d.type == e.type).head?

def refuseExisting (e : PlanEdge) : Option DependencyRow → Except Failure Unit
  | some row =>
    .error (.app (.conflict "dependency already exists"
      (("dependency_id", .str row.id) :: edgeJson e)))
  | none => .ok ()

/-- `dependentTaskId` depends on `prerequisiteId`. -/
def createDependency (ctx : Context) (dependentTaskId prerequisiteId : String)
    (type : DependencyType) : Txn DependencyRow := do
  let _ ← nowIso
  let e : PlanEdge := ⟨prerequisiteId, dependentTaskId, type⟩
  Tx.check (prerequisiteId == dependentTaskId)
    (.app (.validation "a task cannot depend on itself" [("task_id", .str dependentTaskId)]))
  let found ← Tx.query (·.core.tasks.get? dependentTaskId)
  let dependent ← Tx.require found (taskMissing "task not found: " dependentTaskId "task_id")
  let found ← Tx.query (·.core.tasks.get? prerequisiteId)
  let prerequisite ← Tx.require found
    (taskMissing "prerequisite task not found: " prerequisiteId "depends_on_task_id")
  Tx.check (dependent.projectId != prerequisite.projectId)
    (.app (.validation "dependencies must stay within one project"
      [("dependent_task_id", .str dependentTaskId),
        ("dependent_project_id", .str dependent.projectId),
        ("prerequisite_task_id", .str prerequisiteId),
        ("prerequisite_project_id", .str prerequisite.projectId)]))
  let edges ← Tx.query loadEdges
  Tx.check (wouldCreateCycle edges prerequisiteId dependentTaskId)
    (.app (.conflict "dependency would create a cycle"
      [("from_task_id", .str prerequisiteId), ("to_task_id", .str dependentTaskId)]))
  let existing ← Tx.query (existingDependency e)
  Tx.ofResult (refuseExisting e existing)
  let dependencyId ← generate
  insertDependency
    { id := dependencyId, fromTaskId := prerequisiteId, toTaskId := dependentTaskId, type }
  let _ ← logEvent
    { type := .taskUpdated, actorType := .user, actorId := ctx.actorUserId,
      correlationId := dependentTaskId, projectId := dependent.projectId, taskId := dependentTaskId,
      payload := [("dependency_added", .obj (edgeJson e))] }
  let row ← Tx.query (·.core.dependencies.get? dependencyId)
  Tx.require row (.core (.error "createDependency: row missing after insert"))

def dependencyNotFound (dependencyId : String) : Failure :=
  .app (.notFound ("dependency not found: " ++ dependencyId)
    [("dependency_id", .str dependencyId)])

def deleteDependency (ctx : Context) (dependentTaskId dependencyId : String) : Txn Unit := do
  let _ ← nowIso
  let found ← Tx.query (·.core.dependencies.get? dependencyId)
  let row ← Tx.require found (dependencyNotFound dependencyId)
  Tx.check (row.toTaskId != dependentTaskId)
    (.app (.validation "dependency does not belong to this task"
      [("dependency_id", .str dependencyId), ("task_id", .str dependentTaskId)]))
  let _ ← Tx.change (fun st => (st.core.dependencies.get? dependencyId).toList) .removeDependency
  let dependent ← Tx.query (·.core.tasks.get? dependentTaskId)
  let _ ← logEvent
    { type := .taskUpdated, actorType := .user, actorId := ctx.actorUserId,
      correlationId := dependentTaskId, projectId := dependent.map (·.projectId),
      taskId := dependentTaskId, roomId := dependent.bind (·.roomId),
      payload := [("dependency_removed", .obj (("id", .str dependencyId) ::
        edgeJson ⟨row.fromTaskId, row.toTaskId, row.type⟩))] }

/-! ## Under concurrent commits -/

/-- Others delete no task, and change no row that is locked. -/
def graphRely : Rely Store Lock where
  rel locks st st' := TasksStay st st' ∧ ∀ k ∈ locks, k.Same st st'
  refl _ _ := ⟨.refl, fun _ _ => .refl⟩
  trans _ _ _ _ first last :=
    ⟨first.1.trans last.1, fun k held => (first.2 k held).trans (last.2 k held)⟩
  weaken _ _ _ _ sub h := ⟨h.1, fun k held => h.2 k (sub held)⟩

/-- A written dependency is one of the edges. -/
def Links (edges : List (String × String)) (w : Write) : Prop :=
  ∀ row, w = .dependency row → (row.fromTaskId, row.toTaskId) ∈ edges

/-- A transaction that adds dependencies among tasks that are its own. -/
structure Grafted (ids : List String) (edges : List (String × String)) (s : Standing) : Prop where
  links : ∀ w ∈ s.log, Links edges w
  absent : ∀ id ∈ ids, s.db.core.tasks.get? id = none
  locked : ∀ id ∈ ids, .core (.task id) ∈ s.locks
  written : ∀ id ∈ ids, ∃ row, .core (.task row) ∈ s.log ∧ row.id = id

theorem Grafted.stable {ids : List String} {edges : List (String × String)} {s : Standing}
    (h : Grafted ids edges s) {db : Store} (later : graphRely.rel s.locks s.db db) :
    Grafted ids edges (s.at_ db) := by
  refine ⟨h.links, fun id member => ?_, h.locked, h.written⟩
  have same := later.2 _ (h.locked id member)
  exact Eq.trans same (h.absent id member)

theorem Grafted.after {ids : List String} {edges : List (String × String)} {s : Standing}
    (h : Grafted ids edges s) {locks : Store → List Lock} {writes : Store → List Write}
    (links : ∀ w ∈ writes s.view, Links edges w) : Grafted ids edges (s.after locks writes) := by
  constructor
  · intro w member
    rcases List.mem_append.mp member with old | new
    · exact h.links w old
    · exact links w new
  · exact h.absent
  · exact fun id member => List.mem_append_left _ (h.locked id member)
  · intro id member
    obtain ⟨row, old, is⟩ := h.written id member
    exact ⟨row, List.mem_append_left _ old, is⟩

theorem Grafted.under {α : Type} {ids : List String} {edges : List (String × String)} {s : Standing}
    (h : Grafted ids edges s) {p : Txn α} (links : Writes (fun _ w => Links edges w) p) :
    Tx.under graphRely p (fun _ s' => Grafted ids edges s') s :=
  Writes.under links (fun _ _ here later => here.stable later) (fun _ _ _ here new => here.after new) h

theorem links_core {α : Type} {edges : List (String × String)} {p : Server.Txn α} :
    Writes (fun _ w => Links edges w) (core p) :=
  Writes.mono writes_core fun _ _ core_ row is => by
    obtain ⟨w, rfl⟩ := core_
    cases is

section Plain

variable {edges : List (String × String)}

theorem links_requireGoalInOrg {goalId : String} :
    Writes (fun _ w => Links edges w) (requireGoalInOrg goalId) :=
  writes_bind writes_queryForUpdate fun _ => writes_require

theorem links_updateGoal {goalId : String} {set : GoalRow → GoalRow} :
    Writes (fun _ w => Links edges w) (updateGoal goalId set) :=
  writes_bind (writes_change fun _ _ _ _ is => nomatch is) fun _ => writes_done

theorem links_updatePlan {planId : String} {set : PlanRow → PlanRow} :
    Writes (fun _ w => Links edges w) (updatePlan planId set) :=
  writes_bind (writes_change fun _ _ _ _ is => nomatch is) fun _ => writes_done

theorem links_insertSource {source : TaskSource} :
    Writes (fun _ w => Links edges w) (insertSource source) :=
  writes_add fun _ _ _ is => nomatch is

theorem links_goalTransition {status : GoalStatus} {trigger : GoalTrigger} :
    Writes (fun _ w => Links edges w) (goalTransition status trigger) := writes_require

theorem links_retireTasks {ctx : Context} {goal : GoalRow} {currentPlanId planId now : String}
    {historical : List String} {tasks : List TaskRow} :
    Writes (fun _ w => Links edges w)
      (retireTasks ctx goal currentPlanId planId now historical tasks) := by
  induction tasks with
  | nil => exact writes_done
  | cons task rest ih =>
    unfold retireTasks
    split
    · exact ih
    · apply writes_bind links_core
      intro _
      apply writes_bind ih
      exact fun _ => writes_done

theorem links_replaceCurrent {ctx : Context} {goal : GoalRow} {plan : PlanRow}
    {currentPlanId now : String} :
    Writes (fun _ w => Links edges w) (replaceCurrent ctx goal plan currentPlanId now) := by
  unfold replaceCurrent unsettledGoalRunIds
  apply writes_bind writes_query
  intro _
  apply writes_bind writes_check
  intro _
  apply writes_bind
  · apply writes_bind writes_query
    intro _
    apply writes_bind writes_query
    intro _
    apply writes_bind links_core
    exact fun _ => writes_done
  intro _
  apply writes_bind writes_check
  intro _
  apply writes_bind writes_query
  intro _
  apply writes_bind writes_query
  intro _
  apply writes_bind links_retireTasks
  intro _
  apply writes_bind (writes_forM fun _ _ => links_core)
  exact fun _ => writes_done

theorem links_retireCurrent {ctx : Context} {goal : GoalRow} {plan : PlanRow} {now : String} :
    Writes (fun _ w => Links edges w) (retireCurrent ctx goal plan now) := by
  unfold retireCurrent
  split
  · exact links_replaceCurrent
  · exact writes_done

end Plain

/-! ## Materialization -/

/-- The ids of the tasks that are there already, and those that are still to come. -/
def Planting (taskIds : List String) (rest : List SpecTask) (s : Standing) : Prop :=
  ∃ done, done ++ rest.map (fun x => x.1.2) = taskIds ∧ done.Nodup ∧ Grafted done [] s

/-- One more task of its own. -/
theorem Grafted.plant {ids : List String} {edges : List (String × String)} {s : Standing}
    (h : Grafted ids edges s) {row : TaskRow} (free : s.view.core.tasks.get? row.id = none) :
    Grafted (ids ++ [row.id]) edges
      ⟨s.db, s.locks ++ [.core (.task row.id)], s.log ++ [.core (.task row)]⟩ := by
  constructor
  · intro w member
    rcases List.mem_append.mp member with old | new
    · exact h.links w old
    · rw [List.mem_singleton.mp new]
      exact fun _ is => nomatch is
  · intro id member
    rcases List.mem_append.mp member with old | new
    · exact h.absent id old
    · rw [List.mem_singleton.mp new]
      exact not_not.mp fun present => tasksStay_writeAll row.id present free
  · intro id member
    rcases List.mem_append.mp member with old | new
    · exact List.mem_append_left _ (h.locked id old)
    · rw [List.mem_singleton.mp new]
      exact List.mem_append_right _ List.mem_cons_self
  · intro id member
    rcases List.mem_append.mp member with old | new
    · obtain ⟨other, written, is⟩ := h.written id old
      exact ⟨other, List.mem_append_left _ written, is⟩
    · exact ⟨row, List.mem_append_right _ List.mem_cons_self, (List.mem_singleton.mp new).symm⟩

theorem Grafted.unused {ids : List String} {edges : List (String × String)} {s : Standing}
    (h : Grafted ids edges s) {id : String} (free : s.view.core.tasks.get? id = none) : id ∉ ids := by
  intro member
  obtain ⟨row, written, is⟩ := h.written id member
  exact written_task written (is ▸ free)

theorem Planting.round {taskIds : List String} {goal : GoalRow} {planId now : String} {x : SpecTask}
    {rest : List SpecTask} {s : Standing} (h : Planting taskIds (x :: rest) s) :
    under graphRely (insertSpecTask goal planId now x.2 x.1.1 x.1.2)
      (fun _ s' => Planting taskIds rest s') s := by
  obtain ⟨done, all, apart, grafted⟩ := h
  unfold insertSpecTask Server.insertTask
  rw [under_generate]
  intro roomId
  rw [core_insert, under_add]
  intro db later free
  rw [Option.isSome_eq_false_iff, Option.isNone_iff_eq_none] at free
  have here := grafted.stable later
  have grown := here.plant free
  have planted : ∀ s', Grafted (done ++ [x.1.2]) [] s' → Planting taskIds rest s' := by
    intro s' kept
    refine ⟨done ++ [x.1.2], by simpa using all, ?_, kept⟩
    rw [List.nodup_append]
    refine ⟨apart, List.nodup_singleton _, ?_⟩
    rintro a member b last rfl
    exact here.unused free (List.mem_singleton.mp last ▸ member)
  apply under_mono (grown.under _) fun _ s' kept => planted s' kept
  apply writes_bind links_insertSource
  intro _
  apply writes_bind links_core
  intro _
  apply writes_bind links_core
  exact fun _ => writes_done

/-- A transaction that adds no cycle, and no dependency of a task that is not its own. -/
def Grafts (s : Standing) : Prop :=
  ∃ ids edges, Acyclic (Edge edges) ∧ (∀ e ∈ edges, e.1 ∈ ids ∧ e.2 ∈ ids) ∧ Grafted ids edges s

theorem Grafted.grafts {s : Standing} (h : Grafted [] [] s) : Grafts s :=
  ⟨[], [], acyclic_empty fun _ _ edge => absurd edge List.not_mem_nil,
    fun _ member => absurd member List.not_mem_nil, h⟩

theorem Grafts.stable {s : Standing} (h : Grafts s) {db : Store}
    (later : graphRely.rel s.locks s.db db) : Grafts (s.at_ db) := by
  obtain ⟨ids, edges, acyclic, own, grafted⟩ := h
  exact ⟨ids, edges, acyclic, own, grafted.stable later⟩

theorem Grafted.weaken {ids : List String} {edges more : List (String × String)} {s : Standing}
    (h : Grafted ids edges s) (sub : edges ⊆ more) : Grafted ids more s :=
  ⟨fun w member row is => sub (h.links w member row is), h.absent, h.locked, h.written⟩

theorem links_insertEdge {edges : List PlanEdge} {e : PlanEdge} (member : e ∈ edges) :
    Writes (fun _ w => Links (edges.map PlanEdge.pair) w) (insertEdge e) := by
  apply writes_bind (Writes.mono writes_core ?_)
  · intro id
    apply writes_add
    rintro _ _ row ⟨⟩
    exact List.mem_map_of_mem member
  · rintro _ _ ⟨w, rfl⟩ row ⟨⟩

theorem getD_inj {ids : List String} (apart : ids.Nodup) (a b : Nat) (left : a < ids.length)
    (right : b < ids.length) (same : ids.getD a "" = ids.getD b "") : a = b := by
  rw [List.getD_eq_getElem _ _ left, List.getD_eq_getElem _ _ right] at same
  exact (List.Nodup.getElem_inj_iff apart).mp same

/-- The edges of a plan that was checked close no cycle, under names that are apart. -/
theorem planEdges_acyclic {number : String → Option Int} {specs : List TaskSpec}
    {ids : List String} (count : ids.length = specs.length) (apart : ids.Nodup)
    {edges : List PlanEdge} (built : buildEdges number specs (fun i => ids.getD i "") = .ok edges) :
    Acyclic (Edge (edges.map PlanEdge.pair)) ∧
      ∀ e ∈ edges.map PlanEdge.pair, e.1 ∈ ids ∧ e.2 ∈ ids := by
  have inj := fun a b (left : a < specs.length) (right : b < specs.length) =>
    getD_inj apart a b (count ▸ left) (count ▸ right)
  obtain ⟨valid, rfl⟩ := (buildEdges_ok inj).mp built
  have nodes : ∀ a b, (a, b) ∈ (specEdges number specs).map SpecEdge.pair →
      a < specs.length ∧ b < specs.length := by
    intro a b member
    obtain ⟨e, inside, is⟩ := List.mem_map.mp member
    cases is
    exact specEdges_within e inside
  have named : ((specEdges number specs).map (SpecEdge.named fun i => ids.getD i "")).map
      PlanEdge.pair = ((specEdges number specs).map SpecEdge.pair).map
        (Prod.map (fun i => ids.getD i "") fun i => ids.getD i "") := by
    rw [List.map_map, List.map_map]
    rfl
  rw [named]
  constructor
  · apply acyclic_map inj nodes
    exact Builds.acyclic valid (acyclic_empty fun _ _ edge => absurd edge List.not_mem_nil)
  · intro e member
    obtain ⟨⟨a, b⟩, inside, rfl⟩ := List.mem_map.mp member
    obtain ⟨left, right⟩ := nodes a b inside
    exact ⟨getD_mem (count ▸ left), getD_mem (count ▸ right)⟩

theorem under_materializeNew {ctx : Context} {goal : GoalRow} {planId now : String}
    {specs : List TaskSpec} {s : Standing} (h : Grafted [] [] s) :
    under graphRely (materializeNew ctx goal planId now specs) (fun _ s' => Grafts s') s := by
  unfold materializeNew
  rw [under_check]
  intro _
  apply under_mapM_generate
  intro taskIds count
  rw [under_ofResult]
  intro edges built
  have all := specTasks_ids count
  apply under_seq
  · exact under_rounds (I := Planting taskIds) (fun _ _ ⟨ids, all, apart, here⟩ later =>
      ⟨ids, all, apart, here.stable later⟩) (fun _ _ _ here => here.round) ⟨[], all, List.nodup_nil, h⟩
  rintro _ s₁ ⟨ids, whole, apart, planted⟩
  rw [List.map_nil, List.append_nil] at whole
  subst whole
  obtain ⟨acyclic, own⟩ := planEdges_acyclic count apart built
  have linked : Grafted ids (edges.map PlanEdge.pair) s₁ := planted.weaken (List.nil_subset _)
  apply under_mono (linked.under _) fun _ s' kept => ⟨ids, _, acyclic, own, kept⟩
  apply writes_bind (writes_forM fun _ member => links_insertEdge member)
  intro _
  apply writes_bind
  · unfold materializedStatus
    split
    · exact writes_done
    · exact links_goalTransition
  intro _
  apply writes_bind links_updateGoal
  intro _
  apply writes_bind links_core
  intro _
  apply writes_bind links_updatePlan
  intro _
  apply writes_bind links_core
  intro _
  apply writes_bind writes_query
  intro _
  apply writes_bind writes_require
  exact fun _ => writes_done

theorem under_materializeInTx {ctx : Context} {planId now : String} {s : Standing}
    (h : Grafted [] [] s) :
    under graphRely (materializeInTx ctx planId now) (fun _ s' => Grafts s') s := by
  unfold materializeInTx
  apply under_seq (h.under writes_query)
  intro _ s₁ h
  apply under_seq (h.under writes_require)
  intro _ s₂ h
  apply under_seq (h.under links_requireGoalInOrg)
  intro goal s₃ h
  apply under_seq (h.under writes_query)
  intro _ s₄ h
  apply under_seq (h.under writes_require)
  intro plan s₅ h
  apply under_seq (h.under writes_check)
  intro _ s₆ h
  apply under_seq (h.under writes_check)
  intro _ s₇ h
  apply under_seq (h.under writes_ofResult)
  intro specs s₈ h
  apply under_seq (h.under writes_ofResult)
  intro _ s₉ h
  split
  · apply under_mono (h.under _) fun _ _ kept => kept.grafts
    exact writes_bind writes_query fun _ => writes_done
  · exact under_materializeNew h

theorem under_acceptPlan {ctx : Context} {planId : String} {s : Standing} (h : Grafted [] [] s) :
    under graphRely (acceptPlan ctx planId) (fun _ s' => Grafts s') s := by
  unfold acceptPlan
  intro now
  apply under_seq (h.under writes_query)
  intro _ s₁ h
  apply under_seq (h.under writes_require)
  intro _ s₂ h
  apply under_seq (h.under links_requireGoalInOrg)
  intro goal s₃ h
  apply under_seq (h.under writes_query)
  intro _ s₄ h
  apply under_seq (h.under writes_require)
  intro plan s₅ h
  split
  · exact under_materializeInTx h
  · apply under_seq (h.under writes_check)
    intro _ s₆ h
    unfold acceptProposed
    apply under_seq (h.under writes_check)
    intro _ s₇ h
    apply under_seq (h.under writes_ofResult)
    intro _ s₈ h
    apply under_seq (h.under links_retireCurrent)
    intro retired s₉ h
    apply under_seq (h.under writes_require)
    intro _ s₁₀ h
    apply under_seq (h.under _)
    · intro _ s₁₁ h
      apply under_seq (h.under links_updatePlan)
      intro _ s₁₂ h
      apply under_seq (h.under _)
      · intro status s₁₃ h
        apply under_seq (h.under links_updateGoal)
        intro _ s₁₄ h
        apply under_seq (h.under links_core)
        intro _ s₁₅ h
        exact under_materializeInTx h
      · unfold acceptedStatus
        split
        · exact writes_done
        · exact links_goalTransition
    · exact writes_bind (writes_change fun _ _ _ _ is => nomatch is) fun _ => writes_done

/-! ## Creation and deletion -/

/-- The one dependency that a creation adds is between tasks that are there. -/
structure Joins (prerequisiteId dependentTaskId : String) (s : Standing) : Prop where
  links : ∀ w ∈ s.log, Links [(prerequisiteId, dependentTaskId)] w
  dependent : s.db.core.tasks.get? dependentTaskId ≠ none
  prerequisite : s.db.core.tasks.get? prerequisiteId ≠ none

theorem Joins.under {α : Type} {prerequisiteId dependentTaskId : String} {s : Standing}
    (h : Joins prerequisiteId dependentTaskId s) {p : Txn α}
    (links : Writes (fun _ w => Links [(prerequisiteId, dependentTaskId)] w) p) :
    Tx.under graphRely p (fun _ s' => Joins prerequisiteId dependentTaskId s') s := by
  apply Writes.under links
  · exact fun s db here later =>
      ⟨here.links, later.1 _ here.dependent, later.1 _ here.prerequisite⟩
  · intro s locks writes here new
    refine ⟨fun w member => ?_, here.dependent, here.prerequisite⟩
    rcases List.mem_append.mp member with old | added
    · exact here.links w old
    · exact new w added
  · exact h

theorem under_createDependency {ctx : Context} {dependentTaskId prerequisiteId : String}
    {type : DependencyType} {st : Store} :
    under graphRely (createDependency ctx dependentTaskId prerequisiteId type)
      (fun _ s' => Joins prerequisiteId dependentTaskId s') ⟨st, [], []⟩ := by
  unfold createDependency
  rw [under_nowIso]
  intro now
  rw [under_check]
  intro _
  rw [under_query]
  intro st₁ _
  rw [under_require]
  intro dependent found
  rw [under_query]
  intro st₂ later
  rw [under_require]
  intro prerequisite found'
  have joins : Joins prerequisiteId dependentTaskId ⟨st₂, [], []⟩ := by
    constructor
    · exact fun _ member => nomatch member
    · apply later.1
      exact found ▸ Option.some_ne_none _
    · exact found' ▸ Option.some_ne_none _
  apply joins.under
  apply writes_bind writes_check
  intro _
  apply writes_bind writes_query
  intro _
  apply writes_bind writes_check
  intro _
  apply writes_bind writes_query
  intro _
  apply writes_bind writes_ofResult
  intro _
  apply writes_bind links_core
  intro dependencyId
  apply writes_bind
  · apply writes_add
    rintro _ _ row ⟨⟩
    exact List.mem_cons_self
  intro _
  apply writes_bind links_core
  intro _
  exact writes_bind writes_query fun _ => writes_require

theorem links_deleteDependency {ctx : Context} {dependentTaskId dependencyId : String} :
    Writes (fun _ w => Links [] w) (deleteDependency ctx dependentTaskId dependencyId) := by
  unfold deleteDependency
  apply writes_bind links_core
  intro _
  apply writes_bind writes_query
  intro _
  apply writes_bind writes_require
  intro _
  apply writes_bind writes_check
  intro _
  apply writes_bind (writes_change fun _ _ _ _ is => nomatch is)
  intro _
  apply writes_bind writes_query
  intro _
  exact writes_bind links_core fun _ => writes_done

/-! ## The task graph -/

inductive GraphCall where
  | createDependency (ctx : Context) (dependentTaskId prerequisiteId : String)
      (type : DependencyType)
  | deleteDependency (ctx : Context) (dependentTaskId dependencyId : String)
  | materializePlan (ctx : Context) (planId : String)
  | acceptPlan (ctx : Context) (planId : String)

def GraphCall.program : GraphCall → Txn Unit
  | .createDependency ctx dependentTaskId prerequisiteId type => do
    let _ ← Planning.createDependency ctx dependentTaskId prerequisiteId type
  | .deleteDependency ctx dependentTaskId dependencyId =>
    Planning.deleteDependency ctx dependentTaskId dependencyId
  | .materializePlan ctx planId => do
    let _ ← Planning.materializePlan ctx planId
  | .acceptPlan ctx planId => do
    let _ ← Planning.acceptPlan ctx planId

abbrev GraphWorld := World GraphCall Store Write Lock String Failure Unit

/-- The check of a creation still holds of the dependencies that are committed by its commit. -/
def checkHolds (w : GraphWorld) (id : Nat) : Act GraphCall String → Prop
  | .commit => ∀ s ∈ w.sessions.rows, s.id = id →
      match s.label with
      | .createDependency _ dependentTaskId prerequisiteId _ =>
        wouldCreateCycle (loadEdges w.db) prerequisiteId dependentTaskId = false
      | _ => True
  | _ => True

instance {w : GraphWorld} {id : Nat} {act : Act GraphCall String} :
    Decidable (checkHolds w id act) := by
  unfold checkHolds
  split
  · exact @List.decidableBAll _ _ (fun s => by split <;> infer_instance) _
  · infer_instance

/-- No task depends on itself, however many dependencies lie between. -/
def AcyclicTasks (st : Store) : Prop := Acyclic (Edge (loadEdges st))

structure GraphState (st : Store) : Prop where
  acyclic : AcyclicTasks st
  ends : EndsExist st

theorem edge_writeAll {log : List Write} {edges : List (String × String)} {st : Store}
    (links : ∀ w ∈ log, Links edges w) {a b : String} (edge : Edge (loadEdges (writeAll log st)) a b) :
    Edge (loadEdges st) a b ∨ (a, b) ∈ edges := by
  obtain ⟨row, member, is⟩ := List.mem_map.mp edge
  rcases mem_dependencies_writeAll member with old | written
  · exact Or.inl (List.mem_map.mpr ⟨row, old, is⟩)
  · exact Or.inr (is ▸ links _ written row rfl)

theorem EndsExist.edge {st : Store} (h : EndsExist st) {a b : String}
    (edge : Edge (loadEdges st) a b) :
    st.core.tasks.get? a ≠ none ∧ st.core.tasks.get? b ≠ none := by
  obtain ⟨row, member, is⟩ := List.mem_map.mp edge
  cases is
  exact h row member

theorem EndsExist.writeAll {log : List Write} {edges : List (String × String)} {st : Store}
    (h : EndsExist st) (links : ∀ w ∈ log, Links edges w)
    (there : ∀ e ∈ edges, (writeAll log st).core.tasks.get? e.1 ≠ none ∧
      (writeAll log st).core.tasks.get? e.2 ≠ none) : EndsExist (writeAll log st) := by
  intro row member
  rcases mem_dependencies_writeAll member with old | written
  · obtain ⟨left, right⟩ := h row old
    exact ⟨tasksStay_writeAll _ left, tasksStay_writeAll _ right⟩
  · exact there _ (links _ written row rfl)

theorem Grafts.commit {s : Standing} (h : Grafts s) (state : GraphState s.db) :
    GraphState s.view := by
  obtain ⟨ids, edges, acyclic, own, grafted⟩ := h
  constructor
  · have both := Acyclic.union (p := (· ∈ ids)) state.acyclic acyclic
      (fun a b edge => by
        obtain ⟨left, right⟩ := state.ends.edge edge
        exact ⟨fun member => left (grafted.absent a member),
          fun member => right (grafted.absent b member)⟩)
      (fun a b edge => own (a, b) edge)
    exact both.mono fun a b edge => edge_writeAll grafted.links edge
  · apply state.ends.writeAll grafted.links
    intro e member
    have there : ∀ id ∈ ids, (Tx.writeAll s.log s.db).core.tasks.get? id ≠ none := by
      intro id inside
      obtain ⟨row, written, rfl⟩ := grafted.written id inside
      exact written_task written
    exact ⟨there _ (own e member).1, there _ (own e member).2⟩

theorem Joins.commit {prerequisiteId dependentTaskId : String} {s : Standing}
    (h : Joins prerequisiteId dependentTaskId s) (state : GraphState s.db)
    (holds : wouldCreateCycle (loadEdges s.db) prerequisiteId dependentTaskId = false) :
    GraphState s.view := by
  constructor
  · have one := Acyclic.add state.acyclic (wouldCreateCycle_eq_false.mp holds)
    apply one.mono
    intro a b edge
    rcases edge_writeAll h.links edge with old | new
    · exact Or.inl old
    · cases List.mem_singleton.mp new
      exact Or.inr ⟨rfl, rfl⟩
  · apply state.ends.writeAll h.links
    intro e member
    rw [List.mem_singleton.mp member]
    exact ⟨tasksStay_writeAll _ h.prerequisite, tasksStay_writeAll _ h.dependent⟩

def GraphCall.Spec : GraphCall → Standing → Prop
  | .createDependency _ dependentTaskId prerequisiteId _, s => Joins prerequisiteId dependentTaskId s
  | _, s => Grafts s

theorem grafted_start {st : Store} : Grafted [] [] (⟨st, [], []⟩ : Standing) := by
  constructor
  · exact fun _ member => nomatch member
  · exact fun _ member => nomatch member
  · exact fun _ member => nomatch member
  · exact fun _ member => nomatch member

theorem under_graphCall {call : GraphCall} {st : Store} :
    under graphRely call.program (fun _ s' => call.Spec s') ⟨st, [], []⟩ := by
  cases call with
  | createDependency ctx dependentTaskId prerequisiteId type =>
    apply under_seq under_createDependency
    exact fun _ _ joins => joins.under writes_done
  | deleteDependency ctx dependentTaskId dependencyId =>
    exact under_mono (grafted_start.under links_deleteDependency) fun _ _ kept => kept.grafts
  | materializePlan ctx planId =>
    have grafts : under graphRely (Planning.materializePlan ctx planId) (fun _ s' => Grafts s')
        ⟨st, [], []⟩ := fun now => under_materializeInTx grafted_start
    apply under_seq grafts
    exact fun _ _ grafts _ later => grafts.stable later
  | acceptPlan ctx planId =>
    apply under_seq (under_acceptPlan grafted_start)
    exact fun _ _ grafts _ later => grafts.stable later

theorem graph_rules : World.Rules GraphCall.program checkHolds graphRely
    (fun call _ _ s => call.Spec s) GraphState := by
  constructor
  · exact fun _ _ _ => under_graphCall
  · rintro w s _ there - allowed state guarded spec
    constructor
    · have holds := allowed s there rfl
      cases label : s.label with
      | createDependency ctx dependentTaskId prerequisiteId type =>
        rw [label] at spec holds
        exact Joins.commit spec state holds
      | _ =>
        rw [label] at spec
        exact Grafts.commit spec state
    · intro others free
      refine ⟨tasksStay_writeAll, fun k held => Lock.same_writeAll fun x written inside => ?_⟩
      exact free k held (guarded x written k inside)

/-! Three tasks without dependencies. -/
namespace Sample

def backlogTask (id : String) : TaskRow :=
  { id, projectId := "p1", status := .backlog, updatedAt := "2026-01-05T10:00:00.000Z" }

def unrelated : Store :=
  { Store.empty with
    core := { Server.Database.empty with
      tasks := ((Table.empty.put (backlogTask "a")).put (backlogTask "b")).put (backlogTask "c") } }

def caller : Context where
  actorUserId := "u1"
  platform := ⟨fun _ => "", id, some, some⟩
  runtime := ⟨fun _ => none, fun _ => none, fun a b => decide (a ≤ b)⟩

/-- Up to the check of the edges. -/
def checks (id : Nat) (dependentTaskId prerequisiteId : String) : List (Nat × Act GraphCall String) :=
  [(id, .begin (.createDependency caller dependentTaskId prerequisiteId .blocks)), (id, .draw "now"),
   (id, .statement), (id, .statement), (id, .statement), (id, .statement)]

/-- The insertion, the event and the commit. -/
def inserts (id : Nat) (dependencyId : String) : List (Nat × Act GraphCall String) :=
  [(id, .draw dependencyId), (id, .statement), (id, .draw ("e" ++ dependencyId)), (id, .draw "now"),
   (id, .statement), (id, .statement), (id, .commit)]

theorem unrelated_edges : loadEdges unrelated = [] := by decide

theorem unrelated_acyclic : AcyclicTasks unrelated := by
  unfold AcyclicTasks
  rw [unrelated_edges]
  exact acyclic_empty fun _ _ edge => nomatch edge

theorem unrelated_ends : EndsExist unrelated := fun _ member => nomatch member

end Sample

open Sample

end Artoo.Planning
