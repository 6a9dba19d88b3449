import Artoo.Planning.Accept
import Artoo.Planning.Content

/-! Which stored plans can be materialized. -/
namespace Artoo.Planning
open Artoo.Lib Artoo.Domain Artoo.Protocol Tx
open Artoo.Server (DependencyType DependencyRow TaskRow EventSpec EventRow Database)

section Core

variable {α : Type} {input : Nat → String} {n : Nat} {st : Store}

theorem writeAll_core (ws : List Server.Write) (st : Store) :
    writeAll (ws.map Write.core) st = { st with core := writeAll ws st.core } := by
  induction ws generalizing st with
  | nil => rfl
  | cons w ws ih => exact ih (Write.apply (.core w) st)

theorem succeeds_core {p : Server.Txn α} {post : α → Store → Nat → Prop} :
    succeeds input (core p) post n st ↔
      succeeds input p (fun a db m => post a { st with core := db } m) n st.core := by
  unfold core
  induction p generalizing n st with
  | done a => exact Iff.rfl
  | fail e => exact Iff.rfl
  | draw next ih => exact ih _
  | stmt locks writes next ih =>
    change succeeds input ((next st.core).lift _ _ _ _) post n (writeAll ((writes st.core).map _) st) ↔ _
    rw [writeAll_core, ih]
    exact Iff.rfl

theorem wp_core {p : Server.Txn α} {post : α → Store → Prop} :
    wp (core p) post st ↔ wp p (fun a db => post a { st with core := db }) st.core := by
  unfold core
  induction p generalizing st with
  | done a => exact Iff.rfl
  | fail e => exact Iff.rfl
  | draw next ih => exact forall_congr' fun i => ih i
  | stmt locks writes next ih =>
    change wp ((next st.core).lift _ _ _ _) post (writeAll ((writes st.core).map _) st) ↔ _
    rw [writeAll_core, ih]
    exact Iff.rfl

theorem succeeds_generate {post : String → Store → Nat → Prop} :
    succeeds input generate post n st ↔ post (input n) st (n + 1) := Iff.rfl

theorem insert_eq_add {taken : Database → Bool} {w : Server.Write} :
    Server.insert taken w = Tx.add taken w .constraint := rfl

theorem succeeds_appendEvent {row : EventRow} {post : Unit → Store → Nat → Prop} :
    succeeds input (core (Server.appendEvent row)) post n st ↔
      st.core.events.get? row.id = none ∧
        post () { st with core := { st.core with events := st.core.events.put row } } n := by
  unfold Server.appendEvent
  rw [succeeds_core, insert_eq_add, succeeds_add, Option.isSome_eq_false_iff,
    Option.isNone_iff_eq_none]
  exact Iff.rfl

theorem succeeds_logEvent {spec : EventSpec} {post : EventRow → Store → Nat → Prop} :
    succeeds input (logEvent spec) post n st ↔
      st.core.events.get? (input n) = none ∧
        post (spec.row (input n) (input (n + 1)))
          { st with core := { st.core with
              events := st.core.events.put (spec.row (input n) (input (n + 1))) } } (n + 2) := by
  unfold logEvent
  rw [succeeds_core]
  change succeeds input (Server.appendEvent (spec.row (input n) (input (n + 1))) >>= fun _ =>
    pure (spec.row (input n) (input (n + 1)))) _ (n + 2) st.core ↔ _
  unfold Server.appendEvent
  rw [succeeds_bind, insert_eq_add, succeeds_add, Option.isSome_eq_false_iff,
    Option.isNone_iff_eq_none]
  exact Iff.rfl

theorem succeeds_insertTask {row : TaskRow} {post : Unit → Store → Nat → Prop} :
    succeeds input (core (Server.insertTask row)) post n st ↔
      st.core.tasks.get? row.id = none ∧
        post () { st with core := { st.core with tasks := st.core.tasks.put row } } n := by
  unfold Server.insertTask
  rw [succeeds_core, insert_eq_add, succeeds_add, Option.isSome_eq_false_iff,
    Option.isNone_iff_eq_none]
  exact Iff.rfl

theorem succeeds_buildEvent {spec : EventSpec} {post : EventRow → Store → Nat → Prop} :
    succeeds input (core (Server.buildEvent spec)) post n st ↔
      post (spec.row (input n) (input (n + 1))) st (n + 2) := Iff.rfl

theorem succeeds_updateGoal {goalId : String} {set : GoalRow → GoalRow}
    {post : Unit → Store → Nat → Prop} :
    succeeds input (updateGoal goalId set) post n st ↔
      post () { st with goals := st.goals.adjust goalId set } n := by
  unfold updateGoal Table.adjust
  rw [succeeds_bind, succeeds_change]
  cases st.goals.get? goalId with
  | none => exact Iff.rfl
  | some row => exact Iff.rfl

theorem succeeds_updatePlan {planId : String} {set : PlanRow → PlanRow}
    {post : Unit → Store → Nat → Prop} :
    succeeds input (updatePlan planId set) post n st ↔
      post () { st with plans := st.plans.adjust planId set } n := by
  unfold updatePlan Table.adjust
  rw [succeeds_bind, succeeds_change]
  cases st.plans.get? planId with
  | none => exact Iff.rfl
  | some row => exact Iff.rfl

theorem succeeds_materializedStatus {status : GoalStatus} {post : GoalStatus → Store → Nat → Prop} :
    succeeds input (materializedStatus status) post n st ↔
      post (if status == .paused then .paused else .running) st n := by
  unfold materializedStatus
  split
  · exact Iff.rfl
  · exact Iff.rfl

end Core

/-! ## The tasks -/

/-- An id that no row has. -/
structure Unused (st : Store) (id : String) : Prop where
  task : st.core.tasks.get? id = none
  source : st.sources.get? id = none
  event : st.core.events.get? id = none
  dependency : st.core.dependencies.get? id = none

/-- The draws of a materialization that are ids; the others are the times of the events. -/
def IdDraw (count edges k : Nat) : Prop :=
  k ≤ 6 * count + edges ∧ (k < count ∨ 6 * count ≤ k ∨ ((k - count) % 5 ≠ 2 ∧ (k - count) % 5 ≠ 4))

/-- The drawn ids are new and none is drawn twice. -/
structure Fresh (draws : Nat → String) (count edges : Nat) (st : Store) : Prop where
  distinct : ∀ j k, IdDraw count edges j → IdDraw count edges k → draws j = draws k → j = k
  unused : ∀ k, IdDraw count edges k → Unused st (draws k)

/-- What is left of the loop over the specs, and the ids that are still to be drawn. -/
structure Inserting (draws : Nat → String) (count edges : Nat) (planId : String) (start : Store)
    (rest : List SpecTask) (st : Store) (m : Nat) : Prop where
  drawn : m + 5 * rest.length = 6 * count
  left : rest.length ≤ count
  ahead : ∀ k, m ≤ k → IdDraw count edges k → Unused st (draws k)
  tasks : ∀ x ∈ rest, st.core.tasks.get? x.1.2 = none ∧ st.sources.get? x.1.2 = none
  apart : (rest.map fun x => x.1.2).Nodup
  others : ∀ x ∈ rest, ∀ k, m ≤ k → IdDraw count edges k → draws k ≠ x.1.2
  refs : ∀ s ∈ st.sources, s.sourcePlanId = planId → ∀ x ∈ rest, s.sourcePlanSpecRef ≠ toString x.2
  indices : (rest.map fun x => x.2).Nodup
  dependencies : st.core.dependencies = start.core.dependencies
  plans : st.plans = start.plans

theorem get?_put_none {β κ : Type} [DecidableEq κ] {key : β → κ} {t : Table key} {row : β} {k : κ}
    (other : key row ≠ k) (absent : t.get? k = none) : (t.put row).get? k = none :=
  (Table.get?_put_other other).trans absent

theorem sourceTaken_eq_false {source : TaskSource} {st : Store} :
    sourceTaken source st = false ↔ st.sources.get? source.taskId = none ∧
      ∀ s ∈ st.sources, s.sourcePlanId = source.sourcePlanId →
        s.sourcePlanSpecRef ≠ source.sourcePlanSpecRef := by
  unfold sourceTaken
  rw [Bool.or_eq_false_iff, Option.isSome_eq_false_iff, Option.isNone_iff_eq_none]
  apply and_congr_right
  intro _
  simp [List.any_eq_false, Table.mem_def]

theorem Inserting.round {draws : Nat → String} {count edges : Nat} {first : Store}
    (fresh : Fresh draws count edges first) {planId now : String} {goal : GoalRow}
    {start st : Store} {x : SpecTask} {rest : List SpecTask} {m : Nat}
    (h : Inserting draws count edges planId start (x :: rest) st m) :
    succeeds draws (insertSpecTask goal planId now x.2 x.1.1 x.1.2)
      (fun _ st' m' => Inserting draws count edges planId start rest st' m') m st := by
  have drawn := h.drawn
  have left := h.left
  rw [List.length_cons] at drawn left
  have one : IdDraw count edges (m + 1) := by unfold IdDraw; omega
  have three : IdDraw count edges (m + 3) := by unfold IdDraw; omega
  have here := List.mem_cons_self (a := x) (l := rest)
  have apart : ∀ y ∈ rest, x.1.2 ≠ y.1.2 := by
    have nodup := h.apart
    rw [List.map_cons, List.nodup_cons] at nodup
    exact fun y member same => nodup.1 (same ▸ List.mem_map_of_mem member)
  have other : ∀ y ∈ rest, x.2 ≠ y.2 := by
    have nodup := h.indices
    rw [List.map_cons, List.nodup_cons] at nodup
    exact fun y member same => nodup.1 (same ▸ List.mem_map_of_mem member)
  unfold insertSpecTask
  rw [succeeds_bind, succeeds_generate, succeeds_bind, succeeds_insertTask]
  refine ⟨(h.tasks x here).1, ?_⟩
  unfold insertSource
  rw [succeeds_bind, succeeds_add, sourceTaken_eq_false]
  refine ⟨⟨(h.tasks x here).2, fun s member plan => h.refs s member plan x here⟩, ?_⟩
  rw [succeeds_bind, succeeds_logEvent]
  refine ⟨(h.ahead (m + 1) (by omega) one).event, ?_⟩
  rw [succeeds_bind, succeeds_logEvent]
  refine ⟨?_, ?_⟩
  · apply get?_put_none
    · exact fun same => absurd (fresh.distinct _ _ one three same) (by omega)
    · exact (h.ahead (m + 3) (by omega) three).event
  · constructor
    · omega
    · omega
    · intro k le id
      have unused := h.ahead k (by omega) id
      have off := h.others x here k (by omega) id
      constructor
      · exact get?_put_none off.symm unused.task
      · exact get?_put_none off.symm unused.source
      · apply get?_put_none
        · exact fun same => absurd (fresh.distinct _ _ three id same) (by omega)
        · apply get?_put_none
          · exact fun same => absurd (fresh.distinct _ _ one id same) (by omega)
          · exact unused.event
      · exact unused.dependency
    · intro y member
      obtain ⟨task, source⟩ := h.tasks y (List.mem_cons_of_mem _ member)
      exact ⟨get?_put_none (apart y member) task, get?_put_none (apart y member) source⟩
    · have nodup := h.apart
      rw [List.map_cons, List.nodup_cons] at nodup
      exact nodup.2
    · exact fun y member k le => h.others y (List.mem_cons_of_mem _ member) k (by omega)
    · intro s member plan y inRest
      rcases Table.mem_put.mp member with rfl | ⟨old, _⟩
      · exact fun same => other y inRest (toString_injective same)
      · exact h.refs s old plan y (List.mem_cons_of_mem _ inRest)
    · have nodup := h.indices
      rw [List.map_cons, List.nodup_cons] at nodup
      exact nodup.2
    · exact h.dependencies
    · exact h.plans

/-! ## The dependencies -/

/-- What is left of the loop over the edges. -/
structure Linking (draws : Nat → String) (count edges : Nat) (plans : Table PlanRow.id)
    (rest : List PlanEdge) (st : Store) (m : Nat) : Prop where
  drawn : m + rest.length = 6 * count + edges
  left : rest.length ≤ edges
  ahead : ∀ k, m ≤ k → IdDraw count edges k →
    st.core.events.get? (draws k) = none ∧ st.core.dependencies.get? (draws k) = none
  absent : ∀ e ∈ rest, ¬ Present e st
  apart : rest.Nodup
  plans : st.plans = plans

theorem Linking.round {draws : Nat → String} {count edges : Nat} {first : Store}
    (fresh : Fresh draws count edges first) {plans : Table PlanRow.id} {e : PlanEdge}
    {rest : List PlanEdge} {st : Store} {m : Nat}
    (h : Linking draws count edges plans (e :: rest) st m) :
    succeeds draws (insertEdge e)
      (fun _ st' m' => Linking draws count edges plans rest st' m') m st := by
  have drawn := h.drawn
  have left := h.left
  rw [List.length_cons] at drawn left
  have here : IdDraw count edges m := by unfold IdDraw; omega
  unfold insertEdge insertDependency
  rw [succeeds_bind, succeeds_generate, succeeds_add, edgeTaken_eq_false]
  refine ⟨⟨(h.ahead m (Nat.le_refl _) here).2, h.absent e List.mem_cons_self⟩, ?_⟩
  constructor
  · omega
  · omega
  · intro k le id
    obtain ⟨event, dependency⟩ := h.ahead k (by omega) id
    refine ⟨event, get?_put_none ?_ dependency⟩
    exact fun same => absurd (fresh.distinct _ _ here id same) (by omega)
  · rintro other member ⟨row, there, source, target, type⟩
    rcases Table.mem_put.mp there with rfl | ⟨old, _⟩
    · have same : e = other := by
        cases e
        cases other
        cases source
        cases target
        cases type
        rfl
      exact (List.nodup_cons.mp h.apart).1 (same ▸ member)
    · exact h.absent other (List.mem_cons_of_mem _ member) ⟨row, old, source, target, type⟩
  · exact (List.nodup_cons.mp h.apart).2
  · exact h.plans

/-- A loop over edges that succeeds met none of them twice. -/
theorem wp_insertEdges {es : List PlanEdge} {st : Store} :
    wp (es.forM insertEdge) (fun _ _ => es.Nodup ∧ ∀ e ∈ es, ¬ Present e st) st := by
  induction es generalizing st with
  | nil => exact ⟨List.nodup_nil, fun _ member => absurd member List.not_mem_nil⟩
  | cons e es ih =>
    change wp (insertEdge e >>= fun _ => es.forM insertEdge) _ _
    rw [wp_bind]
    intro id
    change wp (insertDependency _) _ _
    unfold insertDependency
    rw [wp_add, edgeTaken_eq_false]
    rintro ⟨unused, free⟩
    apply wp_mono ih
    rintro _ _ ⟨apart, absent⟩
    have inserted : Present e (Tables.write (Write.dependency
        { id, fromTaskId := e.fromId, toTaskId := e.toId, type := e.type }) st) :=
      ⟨_, Table.mem_put.mpr (Or.inl rfl), rfl, rfl, rfl⟩
    refine ⟨List.nodup_cons.mpr ⟨fun member => absent e member inserted, apart⟩, ?_⟩
    intro other member
    rcases List.mem_cons.mp member with rfl | old
    · exact free
    · rintro ⟨row, there, ends⟩
      have other_ := Table.get?_eq_none.mp unused row there
      exact absent other old ⟨row, Table.mem_put.mpr (Or.inr ⟨there, other_⟩), ends⟩

/-! ## The whole materialization -/

/-- The accepted plan of a goal, before its materialization. -/
structure Ready (plan : PlanRow) (goal : GoalRow) (st : Store) : Prop where
  storedPlan : st.plans.get? plan.id = some plan
  storedGoal : st.goals.get? plan.goalId = some goal
  accepted : plan.status = .accepted
  current : goal.currentPlanId = some plan.id
  status : goal.status = .planned ∨ goal.status = .paused
  waiting : plan.materializedAt = none
  sources : ∀ s ∈ st.sources, s.sourcePlanId ≠ plan.id
  dependencies : ∀ d ∈ st.core.dependencies,
    st.core.tasks.get? d.fromTaskId ≠ none ∧ st.core.tasks.get? d.toTaskId ≠ none

theorem succeeds_mapM_generate {β : Type} {input : Nat → String} {items : List β} {n : Nat}
    {st : Store} {post : List String → Store → Nat → Prop} :
    succeeds input (items.mapM fun _ => generate) post n st ↔
      post ((List.range' n items.length).map input) st (n + items.length) := by
  induction items generalizing n post with
  | nil => exact Iff.rfl
  | cons b items ih =>
    rw [List.mapM_cons, succeeds_bind, succeeds_generate, succeeds_bind, ih]
    rw [List.length_cons, List.range'_succ, List.map_cons, Nat.add_right_comm n 1, Nat.add_assoc]
    exact Iff.rfl

theorem materializeNew_refuses {ctx : Context} {goal : GoalRow} {planId now : String}
    {specs : List TaskSpec} {st : Store} :
    wp (materializeNew ctx goal planId now specs)
      (fun _ _ => DistinctEdges ctx.runtime.number specs) st := by
  unfold materializeNew
  apply wp_seq wp_trivial
  intro _ _ _
  apply wp_seq wp_trivial
  intro taskIds st₁ _
  rw [wp_bind, wp_ofResult]
  intro edges built
  apply wp_seq wp_trivial
  intro _ st₂ _
  apply wp_seq wp_insertEdges
  rintro _ st₃ ⟨apart, _⟩
  rw [buildEdges_named built] at apart
  exact wp_mono wp_trivial fun _ _ _ => List.Nodup.of_map _ apart

section Succeeds

variable {ctx : Context} {plan : PlanRow} {goal : GoalRow} {st : Store} {draws : Nat → String}
  {count edges : Nat}

/-- The task ids that are drawn first, by spec index. -/
def drawnIds (draws : Nat → String) (count : Nat) : List String := (List.range' 0 count).map draws

theorem drawnIds_getD {i : Nat} (lt : i < count) : (drawnIds draws count).getD i "" = draws i := by
  unfold drawnIds
  rw [List.getD_eq_getElem?_getD, List.getElem?_map, List.getElem?_range' lt]
  simp

theorem mem_drawnIds {id : String} (member : id ∈ drawnIds draws count) :
    ∃ k, k < count ∧ draws k = id := by
  obtain ⟨k, inside, rfl⟩ := List.mem_map.mp member
  obtain ⟨_, high⟩ := List.mem_range'_1.mp inside
  exact ⟨k, by omega, rfl⟩

theorem idDraw_of_lt {k : Nat} (lt : k < count) : IdDraw count edges k := by
  unfold IdDraw
  omega

theorem nodup_drawnIds (fresh : Fresh draws count edges st) : (drawnIds draws count).Nodup := by
  apply List.Nodup.map_on _ List.nodup_range'
  intro a left b right same
  have first := (List.mem_range'_1.mp left).2
  have second := (List.mem_range'_1.mp right).2
  exact fresh.distinct a b (idDraw_of_lt (by omega)) (idDraw_of_lt (by omega)) same

theorem inserting_initially {specs : List TaskSpec} (fresh : Fresh draws specs.length edges st)
    {planId : String} (sources : ∀ s ∈ st.sources, s.sourcePlanId ≠ planId) :
    Inserting draws specs.length edges planId st
      ((specs.zip (drawnIds draws specs.length)).zipIdx) st specs.length := by
  have count : (drawnIds draws specs.length).length = specs.length := by simp [drawnIds]
  have ids := specTasks_ids count
  have drawn : ∀ x ∈ (specs.zip (drawnIds draws specs.length)).zipIdx,
      ∃ k, k < specs.length ∧ draws k = x.1.2 := by
    intro x member
    exact mem_drawnIds (ids ▸ List.mem_map_of_mem member)
  have length : ((specs.zip (drawnIds draws specs.length)).zipIdx).length = specs.length := by
    rw [List.length_zipIdx, List.length_zip, count, Nat.min_self]
  constructor
  · omega
  · omega
  · exact fun k _ => fresh.unused k
  · intro x member
    obtain ⟨k, lt, is⟩ := drawn x member
    have unused := fresh.unused k (idDraw_of_lt lt)
    exact is ▸ ⟨unused.task, unused.source⟩
  · rw [ids]
    exact nodup_drawnIds fresh
  · intro x member j later id same
    obtain ⟨k, before, is⟩ := drawn x member
    have one := fresh.distinct j k id (idDraw_of_lt before) (same.trans is.symm)
    omega
  · exact fun s member plan => absurd plan (sources s member)
  · rw [List.zipIdx_map_snd]
    exact List.nodup_range'
  · rfl
  · rfl

theorem drawnIds_injective (fresh : Fresh draws count edges st) (a b : Nat) (left : a < count)
    (right : b < count)
    (same : (drawnIds draws count).getD a "" = (drawnIds draws count).getD b "") : a = b := by
  rw [drawnIds_getD left, drawnIds_getD right] at same
  exact fresh.distinct a b (idDraw_of_lt left) (idDraw_of_lt right) same

theorem linking_initially {links : List SpecEdge} (fresh : Fresh draws count links.length st)
    (ends : ∀ d ∈ st.core.dependencies,
      st.core.tasks.get? d.fromTaskId ≠ none ∧ st.core.tasks.get? d.toTaskId ≠ none)
    (within : Within count links) (apart : links.Nodup) {planId : String} {st' : Store} {m : Nat}
    (h : Inserting draws count links.length planId st [] st' m) :
    Linking draws count links.length st.plans
      (links.map (SpecEdge.named fun i => (drawnIds draws count).getD i "")) st' m := by
  have drawn := h.drawn
  rw [List.length_nil] at drawn
  constructor
  · rw [List.length_map]
    omega
  · rw [List.length_map]
  · exact fun k le id => ⟨(h.ahead k le id).event, (h.ahead k le id).dependency⟩
  · rintro e member ⟨row, there, source, _, _⟩
    obtain ⟨s, inside, rfl⟩ := List.mem_map.mp member
    have lt := (within s inside).1
    rw [h.dependencies] at there
    apply (ends row there).1
    rw [source]
    dsimp only [SpecEdge.named]
    rw [drawnIds_getD lt]
    exact (fresh.unused _ (idDraw_of_lt lt)).task
  · exact nodup_named (drawnIds_injective fresh) within apart
  · exact h.plans

theorem materializeNew_succeeds {now : String} {specs : List TaskSpec}
    (fresh : Fresh draws specs.length (specEdges ctx.runtime.number specs).length st)
    (ready : Ready plan goal st) (valid : ValidEdges ctx.runtime.number specs)
    (apart : DistinctEdges ctx.runtime.number specs) :
    succeeds draws (materializeNew ctx goal plan.id now specs) (fun _ _ _ => True) 0 st := by
  unfold materializeNew
  have open_ : (goal.status != .planned && goal.status != .paused) = false := by
    rcases ready.status with is | is
    · rw [is]
      rfl
    · rw [is]
      rfl
  rw [open_, succeeds_bind, succeeds_check]
  refine ⟨rfl, ?_⟩
  rw [succeeds_bind, succeeds_mapM_generate, Nat.zero_add]
  change succeeds draws (Tx.ofResult (buildEdges _ _ fun i =>
    (drawnIds draws specs.length).getD i "") >>= _) _ _ _
  rw [succeeds_bind, succeeds_ofResult]
  refine ⟨_, (buildEdges_ok (drawnIds_injective fresh)).mpr ⟨valid, rfl⟩, ?_⟩
  apply succeeds_seq
  · exact succeeds_forM (fun _ _ _ _ h => h.round fresh) (inserting_initially fresh ready.sources)
  intro _ st₁ n₁ inserted
  apply succeeds_seq
  · exact succeeds_forM (fun _ _ _ _ h => h.round fresh)
      (linking_initially fresh ready.dependencies specEdges_within apart inserted)
  intro _ st₂ n₂ linked
  have drawn := linked.drawn
  rw [List.length_nil] at drawn
  have last : IdDraw specs.length (specEdges ctx.runtime.number specs).length n₂ := by
    unfold IdDraw
    omega
  rw [succeeds_bind, succeeds_materializedStatus, succeeds_bind, succeeds_updateGoal, succeeds_bind]
  rw [succeeds_buildEvent, succeeds_bind, succeeds_updatePlan, succeeds_bind, succeeds_appendEvent]
  refine ⟨(linked.ahead n₂ (Nat.le_refl _) last).1, ?_⟩
  rw [succeeds_bind, succeeds_query, succeeds_bind, succeeds_require]
  have stored : st₂.plans.get? plan.id = some plan := linked.plans ▸ ready.storedPlan
  exact ⟨_, Table.get?_adjust_self stored rfl, trivial⟩

theorem succeeds_requireGoalInOrg {input : Nat → String} {n : Nat} {goalId : String}
    {post : GoalRow → Store → Nat → Prop} :
    succeeds input (requireGoalInOrg goalId) post n st ↔
      ∃ g, st.goals.get? goalId = some g ∧ post g st n := by
  unfold requireGoalInOrg
  rw [succeeds_bind, succeeds_queryForUpdate, succeeds_require, Option.head?_toList]

theorem reads_requireGoalInOrg (goalId : String) : Tx.Reads (requireGoalInOrg goalId) :=
  writes_bind writes_queryForUpdate fun _ => writes_require

/-- An accepted plan with valid content materializes when no dependency repeats. -/
theorem materializeInTx_succeeds {now : String}
    (fresh : Fresh draws plan.taskSpecs.length
      (specEdges ctx.runtime.number plan.taskSpecs).length st)
    (ready : Ready plan goal st) (valid : Validated ctx.runtime.number plan.taskSpecs)
    (apart : DistinctEdges ctx.runtime.number plan.taskSpecs) :
    succeeds draws (materializeInTx ctx plan.id now) (fun _ _ _ => True) 0 st := by
  unfold materializeInTx
  rw [succeeds_bind, succeeds_query, succeeds_bind, succeeds_require]
  refine ⟨plan, ready.storedPlan, ?_⟩
  rw [succeeds_bind, succeeds_requireGoalInOrg]
  refine ⟨goal, ready.storedGoal, ?_⟩
  rw [succeeds_bind, succeeds_query, succeeds_bind, succeeds_require]
  refine ⟨plan, ready.storedPlan, ?_⟩
  rw [succeeds_bind, succeeds_check, ready.accepted]
  refine ⟨rfl, ?_⟩
  rw [succeeds_bind, succeeds_check, ready.current]
  refine ⟨by simp, ?_⟩
  rw [succeeds_bind, succeeds_ofResult]
  refine ⟨plan.taskSpecs, valid.parses, ?_⟩
  rw [succeeds_bind, succeeds_ofResult]
  refine ⟨(), valid.controls, ?_⟩
  rw [ready.waiting]
  exact materializeNew_succeeds fresh ready valid.edges apart

/-- A materialization that succeeds met no dependency twice. -/
theorem materializeInTx_refuses (ready : Ready plan goal st) {now : String}
    (valid : Validated ctx.runtime.number plan.taskSpecs) :
    wp (materializeInTx ctx plan.id now)
      (fun _ _ => DistinctEdges ctx.runtime.number plan.taskSpecs) st := by
  unfold materializeInTx
  rw [wp_bind, wp_query, ready.storedPlan, wp_bind, wp_require]
  rintro _ ⟨⟩
  apply Reads.wp_bind (reads_requireGoalInOrg plan.goalId)
  intro goal'
  rw [wp_bind, wp_query, ready.storedPlan, wp_bind, wp_require]
  rintro _ ⟨⟩
  rw [wp_bind, wp_check]
  intro _
  rw [wp_bind, wp_check]
  intro _
  rw [valid.parses, wp_bind, wp_ofResult]
  rintro _ ⟨⟩
  apply Reads.wp_bind writes_ofResult
  intro _
  rw [ready.waiting]
  exact materializeNew_refuses

end Succeeds

theorem wp_logEvent_plans {spec : EventSpec} {st : Store} :
    wp (logEvent spec) (fun _ st' => st'.plans = st.plans) st := by
  unfold logEvent
  rw [wp_core]
  exact wp_mono wp_trivial fun _ _ _ => rfl

/-- What is stored by a proposal has passed the validation. -/
theorem proposePlan_validated {ctx : Context} {goalId : String} {input : ProposePlanInput}
    {st : Store} :
    wp (proposePlan ctx goalId input)
      (fun row _ => Validated ctx.runtime.number row.taskSpecs) st := by
  unfold proposePlan proposePlanInTx
  rw [wp_bind, wp_ofResult]
  intro specs accepted
  have valid := validated accepted
  intro now planId
  apply Reads.wp_bind (reads_requireGoalInOrg goalId)
  intro goal
  rw [wp_bind, wp_query, wp_bind, wp_check]
  intro _
  unfold insertPlan
  rw [wp_bind, wp_add]
  intro _
  apply wp_seq wp_logEvent_plans
  intro _ st' plans
  rw [wp_bind, wp_query, wp_require]
  intro row found
  rw [plans] at found
  have is := (Table.get?_put_self).symm.trans found
  cases is
  exact valid

/-- A plan that was proposed with success materializes, once it is the accepted plan of its goal,
exactly when no two dependencies of a spec mean the same spec with the same type. -/
theorem stored_plan_materializes {ctx ctx' : Context} {goalId now : String}
    {input : ProposePlanInput} {draws₀ draws : Nat → String} {st₀ st : Store} {row plan : PlanRow}
    {goal : GoalRow} (runtime : ctx'.runtime = ctx.runtime)
    (stored : ((proposePlan ctx goalId input).execute draws₀ st₀).1 = .ok row)
    (content : plan.taskSpecs = row.taskSpecs) (ready : Ready plan goal st)
    (fresh : Fresh draws row.taskSpecs.length
      (specEdges ctx.runtime.number row.taskSpecs).length st) :
    (∃ result, ((materializeInTx ctx' plan.id now).execute draws st).1 = .ok result) ↔
      DistinctEdges ctx.runtime.number row.taskSpecs := by
  have valid := wp_committed proposePlan_validated stored
  rw [← content, ← runtime] at valid fresh ⊢
  constructor
  · rintro ⟨result, committed⟩
    exact wp_committed (materializeInTx_refuses ready valid) committed
  · intro apart
    obtain ⟨result, _, committed, _⟩ :=
      succeeds_execute (@materializeInTx_succeeds _ _ _ _ _ now fresh ready valid apart)
    exact ⟨result, committed⟩

/-! A goal, and plans of two specs of which the second names the first. -/
namespace Sample

def clock : String := "2026-01-05T10:00:00.000Z"

/-- On the references and times of the samples the runtime answers like this. -/
def runtime : Runtime where
  number ref := (["0", "1", "2"].idxOf? ref).map Int.ofNat
  dateParse _ := some 0
  precedes a b := decide (a ≤ b)

def context : Context where
  actorUserId := "u1"
  platform := ⟨fun _ => "", id, some, some⟩
  runtime := runtime

def goal (status : GoalStatus) (currentPlanId : Option String) : GoalRow :=
  { id := "g1", projectId := "p1", status, currentPlanId, updatedAt := clock }

def drafted : Store := { Store.empty with goals := Table.empty.put (goal .draft none) }

def named (refs : List String) : ProposePlanInput :=
  { taskSpecs :=
      [{ title := "schema", acceptanceCriteria := ["migrated"] },
       { title := "api", acceptanceCriteria := ["served"],
         dependencies := some (refs.map fun ref => ⟨ref, "blocks"⟩) }] }

def drawsOf (values : List String) (n : Nat) : String := values.getD n clock

def proposalDraws : Nat → String := drawsOf [clock, "plan1", "e1"]

def specs (refs : List String) : List TaskSpec :=
  [{ title := "schema", acceptanceCriteria := ["migrated"] },
   { title := "api", acceptanceCriteria := ["served"],
     dependencies := refs.map fun ref => ⟨ref, .blocks⟩ }]

def plan (refs : List String) (status : PlanStatus) : PlanRow :=
  { id := "plan1", goalId := "g1", version := 1, authorType := .user, authorId := "u1",
    rationale := "", status, taskSpecs := specs refs, createdAt := clock }

def proposing (refs : List String) : Except Failure PlanRow × Store :=
  (proposePlan context "g1" (named refs)).execute proposalDraws drafted

/-- The plan is accepted and its goal planned. -/
def readyStore (refs : List String) : Store :=
  { (proposing refs).2 with
    goals := Table.empty.put (goal .planned (some "plan1"))
    plans := Table.empty.put (plan refs .accepted) }

def newIds (n : Nat) : String := "id" ++ toString n

/-- The ids and times of an acceptance with two tasks. -/
def acceptanceDraws : Nat → String :=
  drawsOf [clock, "e2", clock, "t0", "t1", "r0", "e3", clock, "e4", clock, "r1", "e5", clock, "e6",
    clock, "d0", "d1", "e7", clock]

def accepting (refs : List String) : Except Failure MaterializeResult × Store :=
  (acceptPlan context "plan1").execute acceptanceDraws (proposing refs).2

theorem proposing_once :
    (proposing ["0"]).1 = .ok (plan ["0"] .proposed) ∧
      (proposing ["0", "0"]).1 = .ok (plan ["0", "0"] .proposed) := by
  decide +kernel

/-- The ids of the tasks, sources, events and dependencies. -/
def storedIds (st : Store) : List String × List String × List String × List String :=
  (st.core.tasks.rows.map (·.id), st.sources.rows.map (·.taskId), st.core.events.rows.map (·.id),
    st.core.dependencies.rows.map (·.id))

theorem storedIds_ready : storedIds (readyStore ["0"]) = ([], [], ["e1"], []) ∧
    storedIds (readyStore ["0", "0"]) = ([], [], ["e1"], []) := by
  decide +kernel

theorem ready {refs : List String} (ids : storedIds (readyStore refs) = ([], [], ["e1"], [])) :
    Ready (plan refs .accepted) (goal .planned (some "plan1")) (readyStore refs) := by
  simp only [storedIds, Prod.mk.injEq] at ids
  obtain ⟨_, sources, _, dependencies⟩ := ids
  constructor
  · exact @Table.get?_put_self _ _ PlanRow.id _ Table.empty (plan refs .accepted)
  · exact @Table.get?_put_self _ _ GoalRow.id _ Table.empty (goal .planned (some "plan1"))
  · rfl
  · rfl
  · exact Or.inl rfl
  · rfl
  · exact fun s member => absurd member (Table.not_mem_of_keys sources)
  · exact fun d member => absurd member (Table.not_mem_of_keys dependencies)

theorem newIds_ne (n : Nat) : newIds n ≠ "e1" := by
  intro same
  have first := congrArg (fun s => s.toList.head?) same
  simp [newIds] at first

theorem fresh {refs : List String} (ids : storedIds (readyStore refs) = ([], [], ["e1"], []))
    {count edges : Nat} : Fresh newIds count edges (readyStore refs) := by
  simp only [storedIds, Prod.mk.injEq] at ids
  obtain ⟨tasks, sources, events, dependencies⟩ := ids
  constructor
  · intro j k _ _ same
    exact toString_injective (String.append_right_inj "id" |>.mp same)
  · intro k _
    constructor
    · exact Table.get?_of_keys tasks List.not_mem_nil
    · exact Table.get?_of_keys sources List.not_mem_nil
    · exact Table.get?_of_keys events fun member => newIds_ne k (List.mem_singleton.mp member)
    · exact Table.get?_of_keys dependencies List.not_mem_nil

end Sample

open Sample

theorem stored_plan_materializes_once :
    (∃ result, ((materializeInTx context "plan1" clock).execute newIds (readyStore ["0"])).1 =
      .ok result) ↔ DistinctEdges runtime.number (specs ["0"]) :=
  stored_plan_materializes rfl proposing_once.1
    (show (plan ["0"] .accepted).taskSpecs = (plan ["0"] .proposed).taskSpecs from rfl)
    (ready storedIds_ready.1) (fresh storedIds_ready.1)

/-- The same dependency twice passes the validation and breaks the unique key. -/
theorem repeated_dependency_refused :
    (proposing ["0", "0"]).1 = .ok (plan ["0", "0"] .proposed) ∧
      Ready (plan ["0", "0"] .accepted) (goal .planned (some "plan1")) (readyStore ["0", "0"]) ∧
      (∀ draws result, ((materializeInTx context "plan1" clock).execute draws
        (readyStore ["0", "0"])).1 ≠ .ok result) ∧
      (accepting ["0", "0"]).1 = .error .constraint := by
  refine ⟨proposing_once.2, ready storedIds_ready.2, ?_, by decide +kernel⟩
  intro draws result committed
  have valid := wp_committed proposePlan_validated proposing_once.2
  have apart := wp_committed (materializeInTx_refuses (ready storedIds_ready.2) valid) committed
  revert apart
  decide +kernel

end Artoo.Planning
