import Artoo.Planning.PlanOperations

/-! The acceptance of a plan under concurrent commits, statement by statement. -/
namespace Artoo.Planning
open Artoo.Lib Artoo.Domain Tx
open Artoo.Server (TaskRow DependencyRow EventSpec)

variable {number : String → Option Int}

/-- An acceptance on its way: what it has written, and what it still knows of the committed rows. -/
structure Accepting (number : String → Option Int) (plan : PlanRow) (goal : GoalRow)
    (replaced plans : List PlanRow) (goals : List GoalRow) (sources : List TaskSource)
    (taskIds : List String) (links : List DependencyRow) (s : Standing) : Prop where
  state : PlanStore number s.db
  held : .goal plan.goalId ∈ s.locks
  stored : plan ∈ s.db.plans
  storedGoal : s.db.goals.get? plan.goalId = some goal
  replaces : ∀ p, p ∈ replaced ↔ p ∈ s.db.plans ∧ p.goalId = plan.goalId ∧ p.status = .accepted
  wrotePlans : s.log.filterMap planOf = plans
  wroteGoals : s.log.filterMap goalOf = goals
  wroteSources : s.log.filterMap sourceOf = sources
  wroteLinks : s.log.filterMap linkOf = links.map some
  absent : ∀ id ∈ taskIds, s.db.core.tasks.get? id = none
  heldTasks : ∀ id ∈ taskIds, .core (.task id) ∈ s.locks
  wroteTasks : ∀ id ∈ taskIds, ∃ row, .core (.task row) ∈ s.log ∧ row.id = id
  linksNew : ∀ row ∈ links, s.db.core.dependencies.get? row.id = none
  heldLinks : ∀ row ∈ links, .dependency row.id ∈ s.locks

section Accepting

variable {plan : PlanRow} {goal : GoalRow} {replaced plans : List PlanRow} {goals : List GoalRow}
  {sources : List TaskSource} {taskIds : List String} {links : List DependencyRow} {s : Standing}

theorem Accepting.stable
    (h : Accepting number plan goal replaced plans goals sources taskIds links s) {db : Store}
    (later : PlansLater number s.locks s.db db) :
    Accepting number plan goal replaced plans goals sources taskIds links (s.at_ db) := by
  have sameGoal : db.goals.get? plan.goalId = s.db.goals.get? plan.goalId := later.same _ h.held
  refine ⟨later.state h.state, h.held, (later.own plan h.held).mpr h.stored, sameGoal.trans h.storedGoal, ?_,
    h.wrotePlans, h.wroteGoals, h.wroteSources, h.wroteLinks, ?_, h.heldTasks, h.wroteTasks, ?_, h.heldLinks⟩
  · intro p
    rw [h.replaces p]
    constructor
    · rintro ⟨member, same, status⟩
      exact ⟨(later.own p (same ▸ h.held)).mpr member, same, status⟩
    · rintro ⟨member, same, status⟩
      exact ⟨(later.own p (same ▸ h.held)).mp member, same, status⟩
  · intro id member
    have same : db.core.tasks.get? id = s.db.core.tasks.get? id :=
      later.same _ (h.heldTasks id member)
    exact same.trans (h.absent id member)
  · intro row member
    have same : db.core.dependencies.get? row.id = s.db.core.dependencies.get? row.id :=
      later.same _ (h.heldLinks row member)
    exact same.trans (h.linksNew row member)

/-- More writes, none of which is a dependency. -/
theorem Accepting.write
    (h : Accepting number plan goal replaced plans goals sources taskIds links s) {ws : List Write}
    {more : List Lock} (unlinked : ws.filterMap linkOf = []) :
    Accepting number plan goal replaced (plans ++ ws.filterMap planOf) (goals ++ ws.filterMap goalOf)
      (sources ++ ws.filterMap sourceOf) taskIds links ⟨s.db, s.locks ++ more, s.log ++ ws⟩ := by
  refine ⟨h.state, List.mem_append_left _ h.held, h.stored, h.storedGoal, h.replaces, ?_, ?_, ?_, ?_,
    h.absent, fun id member => List.mem_append_left _ (h.heldTasks id member), ?_, h.linksNew,
    fun row member => List.mem_append_left _ (h.heldLinks row member)⟩
  · rw [List.filterMap_append, h.wrotePlans]
  · rw [List.filterMap_append, h.wroteGoals]
  · rw [List.filterMap_append, h.wroteSources]
  · rw [List.filterMap_append, h.wroteLinks, unlinked, List.append_nil]
  · intro id member
    obtain ⟨row, written, is⟩ := h.wroteTasks id member
    exact ⟨row, List.mem_append_left _ written, is⟩

theorem Accepting.after
    (h : Accepting number plan goal replaced plans goals sources taskIds links s)
    {locks : Store → List Lock} {writes : Store → List Write}
    (core_ : ∀ w ∈ writes s.view, ∃ w', w = Write.core w') :
    Accepting number plan goal replaced plans goals sources taskIds links (s.after locks writes) := by
  have none_ : ∀ {β : Type} (f : Write → Option β), (∀ w', f (.core w') = none) →
      (writes s.view).filterMap f = [] := by
    intro β f off
    apply filterMap_nil
    intro w member
    obtain ⟨w', rfl⟩ := core_ w member
    exact off w'
  have more := @Accepting.write _ _ _ _ _ _ _ _ _ _ h (writes s.view) (s.wants locks writes)
    (none_ linkOf fun _ => rfl)
  rw [none_ planOf fun _ => rfl, none_ goalOf fun _ => rfl, none_ sourceOf fun _ => rfl,
    List.append_nil, List.append_nil, List.append_nil] at more
  exact more

/-- Statements that write to the other tables only. -/
theorem Accepting.under {α : Type}
    (h : Accepting number plan goal replaced plans goals sources taskIds links s) {p : Txn α}
    (core_ : Writes (fun _ w => ∃ w', w = Write.core w') p) :
    Tx.under (planRely number) p
      (fun _ s' => Accepting number plan goal replaced plans goals sources taskIds links s') s :=
  Writes.under core_ (fun _ _ here later => here.stable later) (fun _ _ _ here new => here.after new) h

theorem Accepting.unused
    (h : Accepting number plan goal replaced plans goals sources taskIds links s) {id : String}
    (free : s.view.core.tasks.get? id = none) : id ∉ taskIds := by
  intro member
  obtain ⟨row, written, is⟩ := h.wroteTasks id member
  exact written_task written (is ▸ free)

theorem Accepting.plant
    (h : Accepting number plan goal replaced plans goals sources taskIds links s) {row : TaskRow}
    (free : s.view.core.tasks.get? row.id = none) :
    Accepting number plan goal replaced plans goals sources (taskIds ++ [row.id]) links
      ⟨s.db, s.locks ++ [.core (.task row.id)], s.log ++ [.core (.task row)]⟩ := by
  have more := @Accepting.write _ _ _ _ _ _ _ _ _ _ h [.core (.task row)] [.core (.task row.id)] rfl
  simp only [List.filterMap_cons, planOf, goalOf, sourceOf, List.filterMap_nil, List.append_nil] at more
  refine ⟨more.state, more.held, more.stored, more.storedGoal, more.replaces, more.wrotePlans,
    more.wroteGoals, more.wroteSources, more.wroteLinks, ?_, ?_, ?_, more.linksNew, more.heldLinks⟩
  · intro id member
    rcases List.mem_append.mp member with old | new
    · exact h.absent id old
    · rw [List.mem_singleton.mp new]
      exact not_not.mp fun present => tasksStay_writeAll row.id present free
  · intro id member
    rcases List.mem_append.mp member with old | new
    · exact List.mem_append_left _ (h.heldTasks id old)
    · rw [List.mem_singleton.mp new]
      exact List.mem_append_right _ List.mem_cons_self
  · intro id member
    rcases List.mem_append.mp member with old | new
    · obtain ⟨other, written, is⟩ := h.wroteTasks id old
      exact ⟨other, List.mem_append_left _ written, is⟩
    · exact ⟨row, List.mem_append_right _ List.mem_cons_self, (List.mem_singleton.mp new).symm⟩

/-- One more dependency, under an id that no row has. -/
theorem Accepting.link
    (h : Accepting number plan goal replaced plans goals sources taskIds links s)
    {row : DependencyRow} (free : (links.foldl Table.put s.db.core.dependencies).get? row.id = none) :
    Accepting number plan goal replaced plans goals sources taskIds (links ++ [row])
      ⟨s.db, s.locks ++ Tables.guards Store (Write.dependency row), s.log ++ [.dependency row]⟩ := by
  refine ⟨h.state, List.mem_append_left _ h.held, h.stored, h.storedGoal, h.replaces, ?_, ?_, ?_, ?_,
    h.absent, fun id member => List.mem_append_left _ (h.heldTasks id member), ?_, ?_, ?_⟩
  · rw [List.filterMap_append, h.wrotePlans]
    exact List.append_nil _
  · rw [List.filterMap_append, h.wroteGoals]
    exact List.append_nil _
  · rw [List.filterMap_append, h.wroteSources]
    exact List.append_nil _
  · rw [List.filterMap_append, h.wroteLinks, List.map_append]
    rfl
  · intro id member
    obtain ⟨other, written, is⟩ := h.wroteTasks id member
    exact ⟨other, List.mem_append_left _ written, is⟩
  · intro other member
    rcases List.mem_append.mp member with old | new
    · exact h.linksNew other old
    · rw [List.mem_singleton.mp new]
      exact not_not.mp fun present => get?_putAll_ne_none present free
  · intro other member
    rcases List.mem_append.mp member with old | new
    · exact List.mem_append_left _ (h.heldLinks other old)
    · rw [List.mem_singleton.mp new]
      exact List.mem_append_right _ List.mem_cons_self

theorem Accepting.view_plans
    (h : Accepting number plan goal replaced plans goals sources taskIds links s) :
    s.view.plans = plans.foldl Table.put s.db.plans := by
  unfold Progress.view
  rw [plans_writeAll, h.wrotePlans]

theorem Accepting.view_goals
    (h : Accepting number plan goal replaced plans goals sources taskIds links s) :
    s.view.goals = goals.foldl Table.put s.db.goals := by
  unfold Progress.view
  rw [goals_writeAll, h.wroteGoals]

/-- Among the superseded plans, the plan to accept is as it was. -/
theorem Accepting.view_superseded
    (h : Accepting number plan goal replaced (replaced.map PlanRow.supersede) goals sources taskIds
      links s) (proposed : plan.status = .proposed) (apart : (replaced.map PlanRow.id).Nodup) :
    s.view.plans.get? plan.id = some plan := by
  have keys : (replaced.map PlanRow.supersede).map PlanRow.id = replaced.map PlanRow.id := by
    rw [List.map_map]
    rfl
  rw [h.view_plans]
  apply Table.get?_of_mem
  rw [Table.mem_putAll (keys ▸ apart), keys]
  refine Or.inr ⟨h.stored, fun taken => ?_⟩
  obtain ⟨p, out, same⟩ := List.mem_map.mp taken
  obtain ⟨member, _, status⟩ := (h.replaces p).mp out
  rw [Table.key_inj member h.stored same, proposed] at status
  cases status

theorem Accepting.view_dependencies
    (h : Accepting number plan goal replaced plans goals sources taskIds links s) :
    s.view.core.dependencies = links.foldl Table.put s.db.core.dependencies := by
  unfold Progress.view
  rw [dependencies_writeAll h.wroteLinks]

end Accepting

theorem get?_putAll_last {α κ : Type} [DecidableEq κ] {key : α → κ} {rows : List α} {row : α}
    {t : Table key} : ((rows ++ [row]).foldl Table.put t).get? (key row) = some row := by
  rw [List.foldl_append]
  exact Table.get?_put_self

/-! ## The tasks of the specs -/

def specSource (goal : GoalRow) (planId : String) (x : SpecTask) : TaskSource :=
  { taskId := x.1.2, sourcePlanId := planId, sourcePlanSpecRef := toString x.2, title := x.1.1.title,
    description := x.1.1.description, priority := goal.priority,
    requiredCapabilities := x.1.1.requiredCapabilities }

/-- The specs whose tasks are there, and those that are still to come. -/
def Tasking (number : String → Option Int) (plan : PlanRow) (goal current : GoalRow)
    (replaced plans : List PlanRow) (goals : List GoalRow) (all rest : List SpecTask)
    (s : Standing) : Prop :=
  ∃ ready, ready ++ rest = all ∧ (ready.map fun x => x.1.2).Nodup ∧
    Accepting number plan goal replaced plans goals (ready.map (specSource current plan.id))
      (ready.map fun x => x.1.2) [] s

theorem Tasking.round {plan : PlanRow} {goal current : GoalRow} {replaced plans : List PlanRow}
    {goals : List GoalRow} {all rest : List SpecTask} {x : SpecTask} {now : String} {s : Standing}
    (h : Tasking number plan goal current replaced plans goals all (x :: rest) s) :
    under (planRely number) (insertSpecTask current plan.id now x.2 x.1.1 x.1.2)
      (fun _ s' => Tasking number plan goal current replaced plans goals all rest s') s := by
  obtain ⟨ready, whole, apart, accepting⟩ := h
  unfold insertSpecTask Server.insertTask
  rw [under_generate]
  intro roomId
  rw [core_insert, under_add]
  intro st₁ later₁ free
  rw [Option.isSome_eq_false_iff, Option.isNone_iff_eq_none] at free
  have here := accepting.stable later₁
  have planted := here.plant free
  unfold insertSource
  rw [under_add]
  intro st₂ later₂ _
  have sourced := @Accepting.write _ _ _ _ _ _ _ _ _ _ (planted.stable later₂)
    [.source (specSource current plan.id x)] (Tables.guards Store
      (Write.source (specSource current plan.id x))) rfl
  simp only [List.filterMap_cons, planOf, goalOf, sourceOf, List.filterMap_nil, List.append_nil] at sourced
  have tasking : ∀ s', Accepting number plan goal replaced plans goals
      (ready.map (specSource current plan.id) ++ [specSource current plan.id x])
      ((ready.map fun x => x.1.2) ++ [x.1.2]) [] s' →
      Tasking number plan goal current replaced plans goals all rest s' := by
    intro s' kept
    refine ⟨ready ++ [x], by simpa using whole, ?_, ?_⟩
    · rw [List.map_append, List.nodup_append]
      refine ⟨apart, List.nodup_singleton _, ?_⟩
      rintro a member b last rfl
      have is : a = x.1.2 := List.mem_singleton.mp last
      exact here.unused free (is ▸ member)
    · rw [List.map_append, List.map_append]
      exact kept
  apply under_mono (Accepting.under sourced ?_) fun _ s' kept => tasking s' kept
  apply writes_bind writes_core
  intro _
  exact writes_bind writes_core fun _ => writes_done

/-! ## The dependencies of the plan -/

/-- The edges whose rows are there, and those that are still to come. -/
def Linking.Rows (number : String → Option Int) (plan : PlanRow) (goal : GoalRow)
    (replaced plans : List PlanRow) (goals : List GoalRow) (sources : List TaskSource)
    (taskIds : List String) (all rest : List PlanEdge) (s : Standing) : Prop :=
  ∃ rows : List DependencyRow, rows.map PlanEdge.of ++ rest = all ∧ (rows.map (·.id)).Nodup ∧
    (rows.map PlanEdge.of).Nodup ∧
    Accepting number plan goal replaced plans goals sources taskIds rows s

theorem insertEdge_round {plan : PlanRow} {goal : GoalRow} {replaced plans : List PlanRow}
    {goals : List GoalRow} {sources : List TaskSource} {taskIds : List String}
    {all rest : List PlanEdge} {e : PlanEdge} {s : Standing}
    (h : Linking.Rows number plan goal replaced plans goals sources taskIds all (e :: rest) s) :
    under (planRely number) (insertEdge e)
      (fun _ s' => Linking.Rows number plan goal replaced plans goals sources taskIds all rest s') s := by
  obtain ⟨rows, whole, apart, once, accepting⟩ := h
  unfold insertEdge insertDependency
  rw [under_generate]
  intro id
  rw [← bind_pure (Tx.add _ _ _), under_add]
  intro st₁ later₁ free st₂ later₂
  obtain ⟨unused, new⟩ := edgeTaken_eq_false.mp free
  have here := accepting.stable later₁
  rw [here.view_dependencies] at unused
  have there : ∀ row ∈ rows, row ∈ rows.foldl Table.put st₁.core.dependencies :=
    fun row member => (Table.mem_putAll apart).mpr (Or.inl member)
  have linked := (here.link unused).stable later₂
  refine ⟨rows ++ [{ id, fromTaskId := e.fromId, toTaskId := e.toId, type := e.type }], ?_, ?_, ?_,
    linked⟩
  · rw [List.map_append, List.append_assoc]
    exact whole
  · rw [List.map_append, List.nodup_append]
    refine ⟨apart, List.nodup_singleton _, ?_⟩
    rintro a member b last rfl
    have is : a = id := List.mem_singleton.mp last
    obtain ⟨row, old, same⟩ := List.mem_map.mp member
    exact Table.get?_eq_none.mp unused row (there row old) (same.trans is)
  · rw [List.map_append, List.nodup_append]
    refine ⟨once, List.nodup_singleton _, ?_⟩
    rintro a member b last rfl
    have is : a = e := List.mem_singleton.mp last
    obtain ⟨row, old, same⟩ := List.mem_map.mp member
    have edge : PlanEdge.of row = e := same.trans is
    refine new ⟨row, here.view_dependencies ▸ there row old, ?_⟩
    cases edge
    exact ⟨rfl, rfl, rfl⟩

/-! ## The acceptance as a whole -/

/-- The row of a plan that is accepted, before its materialization. -/
structure AcceptedRow (plan accepted : PlanRow) : Prop where
  id : accepted.id = plan.id
  goalId : accepted.goalId = plan.goalId
  version : accepted.version = plan.version
  specs : accepted.taskSpecs = plan.taskSpecs
  status : accepted.status = .accepted
  waiting : accepted.materializedAt = none

/-- What the end of an acceptance has done. -/
def Accepts (number : String → Option Int) (plan : PlanRow) (s : Standing) : Prop :=
  ∃ replaced accepted final taskIds sources links,
    Acceptance number plan replaced accepted final taskIds sources links s ∧
      .goal plan.goalId ∈ s.locks

theorem Accepting.accepts {plan accepted : PlanRow} {goal : GoalRow} {replaced : List PlanRow}
    {goals : List GoalRow} {current : GoalRow} {taskIds : List String} {links : List DependencyRow}
    {now eventId : String} {s : Standing} (proposed : plan.status = .proposed)
    (row : AcceptedRow plan accepted) (apart : (replaced.map PlanRow.id).Nodup)
    (planned : ∀ g ∈ goals, g.id = plan.goalId ∧ g.currentPlanId = some plan.id) (some_ : goals ≠ [])
    (count : taskIds.length = plan.taskSpecs.length)
    (linked : links.map PlanEdge.of = planEdges number plan.taskSpecs taskIds)
    (linksApart : (links.map (·.id)).Nodup) (once : (links.map PlanEdge.of).Nodup)
    (tasksApart : taskIds.Nodup)
    (h : Accepting number plan goal replaced (replaced.map PlanRow.supersede ++ [accepted] ++
      [{ accepted with materializedAt := some now, materializationEventId := some eventId }]) goals
      ((plan.taskSpecs.zip taskIds).zipIdx.map (specSource current plan.id)) taskIds links s) :
    Accepts number plan s := by
  refine ⟨replaced, accepted, { accepted with
    materializedAt := some now, materializationEventId := some eventId }, taskIds,
    (plan.taskSpecs.zip taskIds).zipIdx.map (specSource current plan.id), links, ?_, h.held⟩
  exact {
    stored := h.stored
    proposed := proposed
    replaces := h.replaces
    replacedApart := apart
    plans := h.wrotePlans.trans (List.append_assoc _ _ _)
    acceptedId := row.id
    acceptedGoal := row.goalId
    finalId := row.id
    finalGoal := row.goalId
    finalVersion := row.version
    finalSpecs := row.specs
    finalStatus := row.status
    stamped := rfl
    goals := by
      rw [h.wroteGoals]
      exact planned
    goal := by
      rw [h.wroteGoals]
      exact some_
    count := count
    apart := tasksApart
    absent := h.absent
    written := h.wroteTasks
    sourceRows := h.wroteSources
    sourceIds := by
      rw [List.map_map]
      exact specTasks_ids count
    refs := by
      intro i lt
      rw [List.getElem_map, List.getElem_zipIdx]
      exact ⟨rfl, congrArg toString (Nat.zero_add i)⟩
    linkRows := h.wroteLinks
    edges := linked
    edgesApart := once
    linkIds := linksApart
    linksNew := h.linksNew }

theorem accepts_materializeNew {ctx : Context} {plan accepted : PlanRow} {goal current : GoalRow}
    {replaced : List PlanRow} {now : String} {s : Standing} (runtime : ctx.runtime.number = number)
    (proposed : plan.status = .proposed) (row : AcceptedRow plan accepted)
    (apart : (replaced.map PlanRow.id).Nodup) (goalId : current.id = plan.goalId)
    (currentPlan : current.currentPlanId = some plan.id)
    (h : Accepting number plan goal replaced (replaced.map PlanRow.supersede ++ [accepted]) [current]
      [] [] [] s) :
    under (planRely number) (materializeNew ctx current plan.id now plan.taskSpecs)
      (fun _ s' => Accepts number plan s') s := by
  unfold materializeNew
  rw [under_check]
  intro _
  apply under_mapM_generate
  intro taskIds count
  rw [under_ofResult]
  intro edges built
  have all := specTasks_ids count
  have edges_ : edges = planEdges number plan.taskSpecs taskIds := by
    rw [buildEdges_named built, runtime]
    rfl
  apply under_seq
  · exact under_rounds (I := Tasking number plan goal current replaced
      (replaced.map PlanRow.supersede ++ [accepted]) [current] _)
      (fun _ _ ⟨ready, whole, apart, here⟩ later => ⟨ready, whole, apart, here.stable later⟩)
      (fun _ _ _ here => here.round) ⟨[], rfl, List.nodup_nil, h⟩
  rintro _ s₁ ⟨ready, whole, tasksApart, h⟩
  rw [List.append_nil] at whole
  subst whole
  rw [List.nil_append, all] at tasksApart h
  apply under_seq
  · exact under_rounds (I := Linking.Rows number plan goal replaced
      (replaced.map PlanRow.supersede ++ [accepted]) [current] _ taskIds edges)
      (fun _ _ ⟨rows, whole, apart, once, here⟩ later => ⟨rows, whole, apart, once, here.stable later⟩)
      (fun _ _ _ here => insertEdge_round here) ⟨[], rfl, List.nodup_nil, List.nodup_nil, h⟩
  rintro _ s₂ ⟨rows, linked, rowsApart, once, h⟩
  rw [List.append_nil] at linked
  have found : ∀ {t : Standing} {sources : List TaskSource} {ids : List String}
      {links : List DependencyRow} {goals : List GoalRow},
      Accepting number plan goal replaced (replaced.map PlanRow.supersede ++ [accepted]) goals
        sources ids links t → t.view.plans.get? plan.id = some accepted := by
    intro t sources ids links goals here
    rw [here.view_plans, ← row.id]
    exact get?_putAll_last
  apply under_seq (h.under _)
  · intro status s₃ h
    apply under_updateGoal
    intro st₄ later₄
    have h := h.stable later₄
    refine ⟨current, ?_, ?_⟩
    · rw [h.view_goals]
      exact Table.get?_put_self
    have h := @Accepting.write _ _ _ _ _ _ _ _ _ _ h [.goal { current with
      status := status, runningSince := current.runningSince <|> some now, updatedAt := now }]
      (Tables.guards Store (Write.goal current)) rfl
    simp only [List.filterMap_cons, planOf, goalOf, sourceOf, List.filterMap_nil, List.append_nil] at h
    apply under_seq (h.under writes_core)
    intro matEvent s₅ h
    apply under_updatePlan
    intro st₆ later₆
    have h := h.stable later₆
    refine ⟨accepted, found h, ?_⟩
    have h := @Accepting.write _ _ _ _ _ _ _ _ _ _ h [.plan { accepted with
      materializedAt := some now, materializationEventId := some matEvent.id }]
      (Tables.guards Store (Write.plan accepted)) rfl
    simp only [List.filterMap_cons, planOf, goalOf, sourceOf, List.filterMap_nil, List.append_nil] at h
    apply under_mono (h.under _)
    · intro _ s₇ h
      exact h.accepts proposed row apart (by simp [goalId, currentPlan]) (List.cons_ne_nil _ _) count
        (linked.trans edges_) rowsApart once tasksApart
    · apply writes_bind writes_core
      intro _
      apply writes_bind writes_query
      intro _
      exact writes_bind writes_require fun _ => writes_done
  · unfold materializedStatus
    split
    · exact writes_done
    · exact writes_require

theorem accepts_materializeInTx {ctx : Context} {plan accepted : PlanRow} {goal current : GoalRow}
    {replaced : List PlanRow} {now : String} {s : Standing} (runtime : ctx.runtime.number = number)
    (proposed : plan.status = .proposed) (row : AcceptedRow plan accepted)
    (apart : (replaced.map PlanRow.id).Nodup) (goalId : current.id = plan.goalId)
    (currentPlan : current.currentPlanId = some plan.id)
    (h : Accepting number plan goal replaced (replaced.map PlanRow.supersede ++ [accepted]) [current]
      [] [] [] s) :
    under (planRely number) (materializeInTx ctx plan.id now) (fun _ s' => Accepts number plan s') s := by
  have found : ∀ {t : Standing}, Accepting number plan goal replaced
      (replaced.map PlanRow.supersede ++ [accepted]) [current] [] [] [] t →
      t.view.plans.get? plan.id = some accepted := by
    intro t here
    rw [here.view_plans, ← row.id]
    exact get?_putAll_last
  unfold materializeInTx
  rw [under_query]
  intro st₁ later₁
  have h := h.stable later₁
  rw [found h, under_require]
  rintro _ ⟨⟩
  apply under_requireGoalInOrg
  rw [row.goalId]
  intro st₂ later₂ g is
  have h := h.stable later₂
  have same : g = current := by
    rw [h.view_goals, ← goalId] at is
    exact Option.some_inj.mp (is.symm.trans Table.get?_put_self)
  subst same
  have h := @Accepting.write _ _ _ _ _ _ _ _ _ _ h [] [.goal plan.goalId] rfl
  simp only [List.filterMap_nil, List.append_nil] at h
  rw [under_query]
  intro st₃ later₃
  have h := h.stable later₃
  rw [under_require]
  intro p there
  cases Option.some_inj.mp ((found h).symm.trans there)
  rw [under_check]
  intro _
  rw [under_check]
  intro _
  rw [under_ofResult]
  intro specs parsed
  rw [parseStored_is parsed, row.specs, under_ofResult]
  intro _ _
  rw [row.waiting]
  exact accepts_materializeNew runtime proposed row apart goalId currentPlan h

theorem writes_retireCurrent {ctx : Context} {goal : GoalRow} {plan : PlanRow} {now : String} :
    Writes (fun _ w => ∃ w', w = Write.core w') (retireCurrent ctx goal plan now) := by
  have retires : ∀ (currentPlanId : String) (historical : List String) (tasks : List TaskRow),
      Writes (fun _ w => ∃ w', w = Write.core w')
        (retireTasks ctx goal currentPlanId plan.id now historical tasks) := by
    intro currentPlanId historical tasks
    induction tasks with
    | nil => exact writes_done
    | cons task tasks ih =>
      unfold retireTasks
      split
      · exact ih
      · apply writes_bind writes_core
        intro _
        exact writes_bind ih fun _ => writes_done
  unfold retireCurrent
  split
  · unfold replaceCurrent unsettledGoalRunIds
    apply writes_bind writes_query
    intro _
    apply writes_bind writes_check
    intro _
    apply writes_bind
    · apply writes_bind writes_query
      intro _
      apply writes_bind writes_query
      intro _
      exact writes_bind writes_core fun _ => writes_done
    intro _
    apply writes_bind writes_check
    intro _
    apply writes_bind writes_query
    intro _
    apply writes_bind writes_query
    intro _
    apply writes_bind (retires _ _ _)
    intro _
    apply writes_bind
    · exact writes_forM fun _ _ => writes_core
    exact fun _ => writes_done
  · exact writes_done

theorem accepts_acceptProposed {ctx : Context} {goal : GoalRow} {plan : PlanRow} {now : String}
    {st : Store} {locks : List Lock} (runtime : ctx.runtime.number = number)
    (state : PlanStore number st) (held : .goal plan.goalId ∈ locks) (stored : plan ∈ st.plans)
    (there : st.goals.get? plan.goalId = some goal) (proposed : plan.status = .proposed) :
    under (planRely number) (acceptProposed ctx goal plan now) (fun _ s' => Accepts number plan s')
      ⟨st, locks, []⟩ := by
  have start : Accepting number plan goal
      (st.plans.select fun p => p.goalId == plan.goalId && p.status == .accepted) [] [] [] [] []
      ⟨st, locks, []⟩ := by
    refine ⟨state, held, stored, there, ?_, rfl, rfl, rfl, rfl, ?_, ?_, ?_, ?_, ?_⟩
    · intro p
      rw [Table.mem_select, Bool.and_eq_true, beq_iff_eq, beq_iff_eq]
    all_goals exact fun _ member => absurd member List.not_mem_nil
  unfold acceptProposed
  rw [under_check]
  intro _
  rw [under_ofResult]
  intro _ _
  apply under_seq (start.under writes_retireCurrent)
  intro retired s₁ h
  unfold planTransition
  rw [under_require]
  intro _ _
  unfold supersedeAccepted
  rw [bind_assoc, under_change]
  intro st₂ later₂
  have h := h.stable later₂
  have plans : (s₁.at_ st₂).view.plans = st₂.plans := h.view_plans
  rw [plans]
  generalize is : (st₂.plans.select fun p => p.goalId == plan.goalId && p.status == .accepted) =
    replaced
  have apart : (replaced.map PlanRow.id).Nodup := is ▸ Table.nodup_select
  have supersedes : ∀ {β : Type} (f : Write → Option β), (∀ p, f (.plan p) = none) →
      (replaced.map fun row => Write.plan { row with status := .superseded }).filterMap f = [] := by
    intro β f off
    apply filterMap_nil
    intro w member
    obtain ⟨p, _, rfl⟩ := List.mem_map.mp member
    exact off _
  have wrote : (replaced.map fun row => Write.plan { row with status := .superseded }).filterMap
      planOf = replaced.map PlanRow.supersede := by
    rw [List.filterMap_map]
    exact congrFun List.filterMap_eq_map replaced
  have h : Accepting number plan goal replaced [] [] [] [] [] (s₁.at_ st₂) := by
    refine { h with replaces := ?_ }
    intro p
    rw [← is, Table.mem_select, Bool.and_eq_true, beq_iff_eq, beq_iff_eq]
    exact Iff.rfl
  have h := @Accepting.write _ _ _ _ _ _ _ _ _ _ h
    (replaced.map fun row => .plan { row with status := .superseded })
    ((replaced.map fun row => Write.plan { row with status := .superseded }).flatMap
      (Tables.guards Store)) (supersedes linkOf fun _ => rfl)
  rw [wrote, supersedes goalOf fun _ => rfl, supersedes sourceOf fun _ => rfl] at h
  apply under_updatePlan
  intro st₃ later₃
  have h := h.stable later₃
  refine ⟨plan, h.view_superseded proposed apart, ?_⟩
  have h := @Accepting.write _ _ _ _ _ _ _ _ _ _ h
    [.plan { plan with status := .accepted, acceptedAt := some now }]
    (Tables.guards Store (Write.plan plan)) rfl
  simp only [List.filterMap_cons, planOf, goalOf, sourceOf, List.filterMap_nil, List.append_nil] at h
  apply under_seq (h.under _)
  · intro status s₄ h
    apply under_updateGoal
    intro st₅ later₅
    have h := h.stable later₅
    refine ⟨goal, ?_, ?_⟩
    · rw [h.view_goals]
      exact h.storedGoal
    have h := @Accepting.write _ _ _ _ _ _ _ _ _ _ h [.goal { goal with
      status := status, currentPlanId := some plan.id, updatedAt := now }]
      (Tables.guards Store (Write.goal goal)) rfl
    simp only [List.filterMap_cons, planOf, goalOf, sourceOf, List.filterMap_nil, List.append_nil] at h
    apply under_seq (h.under writes_core)
    intro _ s₆ h
    have waiting : plan.materializedAt = none := state.waiting stored proposed
    have goalId : goal.id = plan.goalId := Table.key_of_get? there
    refine accepts_materializeInTx runtime proposed ?_ apart ?_ ?_ h
    · exact ⟨rfl, rfl, rfl, rfl, rfl, waiting⟩
    · exact goalId
    · rfl
  · unfold acceptedStatus
    split
    · exact writes_done
    · exact writes_require

/-- A plan that was accepted before is as it was. -/
def Again (planId : String) (s : Standing) : Prop :=
  s.log = [] ∧ ∃ p ∈ s.db.plans, p.id = planId ∧ p.status = .accepted

/-- What the acceptance of a plan may do. -/
def AcceptsOnce (number : String → Option Int) (planId : String) (s : Standing) : Prop :=
  Again planId s ∨ ∃ plan, plan.id = planId ∧ Accepts number plan s

theorem again_materializeInTx {ctx : Context} {planId now : String} {st : Store} {locks : List Lock}
    (state : PlanStore number st) :
    under (planRely number) (materializeInTx ctx planId now) (fun _ s' => Again planId s')
      ⟨st, locks, []⟩ := by
  unfold materializeInTx
  rw [under_query]
  intro st₁ later₁
  rw [under_require]
  intro lookup looked
  apply under_requireGoalInOrg
  intro st₂ later₂ goal _
  rw [under_query]
  intro st₃ later₃
  rw [under_require]
  intro p found
  have found : st₃.plans.get? planId = some p := found
  have member := Table.mem_of_get? found
  have whole := (planRely number).trans _ _ _ _ later₂
    ((planRely number).weaken _ _ _ _ (List.subset_append_left _ _) later₃)
  have goalId : p.goalId = lookup.goalId := PlansLater.goal whole looked found
  have held : Lock.goal p.goalId ∈ locks ++ [.goal lookup.goalId] := by
    rw [goalId]
    exact List.mem_append_right _ List.mem_cons_self
  rw [under_check]
  intro accepted
  have accepted : p.status = .accepted := by simpa using accepted
  rw [under_check]
  intro _
  rw [under_ofResult]
  intro _ _
  rw [under_ofResult]
  intro _ _
  have state₃ : PlanStore number st₃ := whole.state (later₁.state state)
  rw [if_pos ((state₃.stamped p member).mpr (Or.inl accepted)), under_query]
  intro st₄ later₄ st₅ later₅
  refine ⟨rfl, p, ?_, Table.key_of_get? found, accepted⟩
  exact (later₅.own p held).mpr ((later₄.own p held).mpr member)

theorem accepts_acceptPlan {ctx : Context} {planId : String} {st : Store}
    (runtime : ctx.runtime.number = number) (state : PlanStore number st) :
    under (planRely number) (acceptPlan ctx planId) (fun _ s' => AcceptsOnce number planId s')
      ⟨st, [], []⟩ := by
  unfold acceptPlan
  rw [under_nowIso]
  intro now
  rw [under_query]
  intro st₁ later₁
  rw [under_require]
  intro lookup looked
  apply under_requireGoalInOrg
  intro st₂ later₂ goal there
  rw [under_query]
  intro st₃ later₃
  rw [under_require]
  intro plan found
  have found : st₃.plans.get? planId = some plan := found
  have there : st₂.goals.get? lookup.goalId = some goal := there
  have whole := (planRely number).trans _ _ _ _ later₂
    ((planRely number).weaken _ _ _ _ (List.subset_append_left _ _) later₃)
  have goalId : plan.goalId = lookup.goalId := PlansLater.goal whole looked found
  have held : Lock.goal lookup.goalId ∈ ([] : List Lock) ++ [.goal lookup.goalId] :=
    List.mem_append_right _ List.mem_cons_self
  have state₃ : PlanStore number st₃ := whole.state (later₁.state state)
  have same : st₃.goals.get? lookup.goalId = st₂.goals.get? lookup.goalId := later₃.same _ held
  split
  · exact under_mono (again_materializeInTx state₃) fun _ _ again => Or.inl again
  · rw [under_check]
    intro proposed
    have key : plan.id = planId := Table.key_of_get? found
    apply under_mono (accepts_acceptProposed runtime state₃ (goalId ▸ held)
      (Table.mem_of_get? found) (goalId ▸ same.trans there) (by simpa using proposed))
    exact fun _ _ accepts => Or.inr ⟨plan, key, accepts⟩

end Artoo.Planning
