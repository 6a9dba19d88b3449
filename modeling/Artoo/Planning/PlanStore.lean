import Artoo.Planning.Concurrent
import Artoo.Planning.Content

/-! What holds of the stored plans of all goals, and what a transaction may do to them. -/
namespace Artoo.Planning
open Artoo.Lib Artoo.Domain Tx
open Artoo.Server (TaskRow DependencyRow)

def PlanEdge.of (d : DependencyRow) : PlanEdge := ⟨d.fromTaskId, d.toTaskId, d.type⟩

/-- The dependencies of a plan between the tasks of its specs. -/
def planEdges (number : String → Option Int) (specs : List TaskSpec) (taskIds : List String) :
    List PlanEdge :=
  (specEdges number specs).map (SpecEdge.named fun i => taskIds.getD i "")

/-- The tasks of a plan, one for each spec, and among their dependencies those of the specs alone,
each once. -/
structure Materialized (number : String → Option Int) (plan : PlanRow) (st : Store)
    (taskIds : List String) : Prop where
  count : taskIds.length = plan.taskSpecs.length
  apart : taskIds.Nodup
  source : ∀ s ∈ st.sources, s.sourcePlanId = plan.id →
    ∃ i < taskIds.length, s.taskId = taskIds.getD i "" ∧ s.sourcePlanSpecRef = toString i
  task : ∀ i < taskIds.length, st.core.tasks.get? (taskIds.getD i "") ≠ none ∧
    ∃ s ∈ st.sources, s.taskId = taskIds.getD i "" ∧ s.sourcePlanId = plan.id ∧
      s.sourcePlanSpecRef = toString i
  edge : ∀ d ∈ st.core.dependencies, d.fromTaskId ∈ taskIds ∨ d.toTaskId ∈ taskIds →
    PlanEdge.of d ∈ planEdges number plan.taskSpecs taskIds
  link : ∀ e ∈ planEdges number plan.taskSpecs taskIds, ∃ d ∈ st.core.dependencies, PlanEdge.of d = e
  once : ∀ d ∈ st.core.dependencies, ∀ d' ∈ st.core.dependencies, d.fromTaskId ∈ taskIds →
    PlanEdge.of d = PlanEdge.of d' → d = d'

/-- The versions of the plans of a goal are 1 to `n`. -/
structure Numbered (goalId : String) (st : Store) (n : Nat) : Prop where
  range : ∀ p ∈ st.plans, p.goalId = goalId → 1 ≤ p.version ∧ p.version ≤ n
  all : ∀ v, 1 ≤ v → v ≤ n → ∃ p ∈ st.plans, p.goalId = goalId ∧ p.version = v
  apart : ∀ p ∈ st.plans, ∀ q ∈ st.plans, p.goalId = goalId → q.goalId = goalId →
    p.version = q.version → p = q

def currentPlan (st : Store) (goalId : String) : Option String :=
  (st.goals.get? goalId).bind (·.currentPlanId)

/-- A plan that was accepted, whether or not another replaced it. -/
def PlanRow.wasAccepted (p : PlanRow) : Prop := p.status = .accepted ∨ p.status = .superseded

theorem not_wasAccepted {p : PlanRow} (proposed : p.status = .proposed) : ¬ p.wasAccepted := by
  rintro (status | status)
  · rw [proposed] at status
    cases status
  · rw [proposed] at status
    cases status

structure PlanStore (number : String → Option Int) (st : Store) : Prop where
  goals : ∀ p ∈ st.plans, st.goals.get? p.goalId ≠ none
  accepted : ∀ p ∈ st.plans, p.status = .accepted → currentPlan st p.goalId = some p.id
  current : ∀ goalId planId, currentPlan st goalId = some planId →
    ∃ p ∈ st.plans, p.id = planId ∧ p.goalId = goalId ∧ p.status = .accepted
  replaced : ∀ p ∈ st.plans, p.wasAccepted → currentPlan st p.goalId ≠ none
  versions : ∀ goalId, ∃ n, Numbered goalId st n
  stamped : ∀ p ∈ st.plans, p.materializedAt.isSome ↔ p.wasAccepted
  content : ∀ p ∈ st.plans, p.materializedAt.isSome → ∃ taskIds, Materialized number p st taskIds
  sources : ∀ s ∈ st.sources, st.core.tasks.get? s.taskId ≠ none ∧
    ∃ p ∈ st.plans, p.id = s.sourcePlanId ∧ p.materializedAt.isSome
  ends : EndsExist st

theorem PlanStore.waiting {number : String → Option Int} {st : Store} {p : PlanRow}
    (h : PlanStore number st) (member : p ∈ st.plans) (proposed : p.status = .proposed) :
    p.materializedAt = none := by
  rw [← Option.not_isSome_iff_eq_none, h.stamped p member]
  exact not_wasAccepted proposed

/-! ## The written rows of a log -/

def planOf : Write → Option PlanRow
  | .plan row => some row
  | _ => none

def goalOf : Write → Option GoalRow
  | .goal row => some row
  | _ => none

def sourceOf : Write → Option TaskSource
  | .source row => some row
  | _ => none

/-- A deleted dependency is `some none`. -/
def linkOf : Write → Option (Option DependencyRow)
  | .dependency row => some (some row)
  | .removeDependency _ => some none
  | _ => none

variable {log : List Write} {st : Store} {number : String → Option Int}

theorem plans_writeAll : (writeAll log st).plans = (log.filterMap planOf).foldl Table.put st.plans := by
  induction log generalizing st with
  | nil => rfl
  | cons w log ih =>
    rw [writeAll_cons, ih]
    cases w <;> rfl

theorem goals_writeAll : (writeAll log st).goals = (log.filterMap goalOf).foldl Table.put st.goals := by
  induction log generalizing st with
  | nil => rfl
  | cons w log ih =>
    rw [writeAll_cons, ih]
    cases w <;> rfl

theorem sources_writeAll :
    (writeAll log st).sources = (log.filterMap sourceOf).foldl Table.put st.sources := by
  induction log generalizing st with
  | nil => rfl
  | cons w log ih =>
    rw [writeAll_cons, ih]
    cases w <;> rfl

theorem dependencies_writeAll {rows : List DependencyRow}
    (written : log.filterMap linkOf = rows.map some) :
    (writeAll log st).core.dependencies = rows.foldl Table.put st.core.dependencies := by
  induction log generalizing st rows with
  | nil =>
    cases rows with
    | nil => rfl
    | cons row rows => cases written
  | cons w log ih =>
    rw [writeAll_cons]
    cases w with
    | dependency row =>
      cases rows with
      | nil => cases written
      | cons first rows =>
        rw [List.filterMap_cons] at written
        simp only [linkOf, List.map_cons, List.cons.injEq, Option.some.injEq] at written
        obtain ⟨rfl, rest⟩ := written
        rw [ih rest]
        rfl
    | removeDependency row =>
      cases rows with
      | nil => cases written
      | cons first rows =>
        rw [List.filterMap_cons] at written
        simp [linkOf] at written
    | core w =>
      rw [ih written]
      cases w <;> rfl
    | _ => rw [ih written]; rfl

/-! ## Transactions that accept nothing -/

theorem Materialized.congr {plan : PlanRow} {st st' : Store} {taskIds : List String}
    (h : Materialized number plan st taskIds) (sources : st'.sources = st.sources)
    (dependencies : st'.core.dependencies = st.core.dependencies) (tasks : TasksStay st st') :
    Materialized number plan st' taskIds := by
  constructor
  · exact h.count
  · exact h.apart
  · rw [sources]
    exact h.source
  · intro i lt
    rw [sources]
    exact ⟨tasks _ (h.task i lt).1, (h.task i lt).2⟩
  · rw [dependencies]
    exact h.edge
  · rw [dependencies]
    exact h.link
  · rw [dependencies]
    exact h.once

theorem EndsExist.congr {st st' : Store} (h : EndsExist st)
    (dependencies : st'.core.dependencies = st.core.dependencies) (tasks : TasksStay st st') :
    EndsExist st' := by
  intro d member
  rw [dependencies] at member
  exact ⟨tasks _ (h d member).1, tasks _ (h d member).2⟩

/-- Plans may come and change, as long as none that was accepted does. -/
theorem PlanStore.revise {st st' : Store} (h : PlanStore number st)
    (sources : st'.sources = st.sources)
    (dependencies : st'.core.dependencies = st.core.dependencies) (tasks : TasksStay st st')
    (current : ∀ goalId, currentPlan st' goalId = currentPlan st goalId)
    (goals : ∀ goalId, st.goals.get? goalId ≠ none → st'.goals.get? goalId ≠ none)
    (rows : ∀ q ∈ st'.plans, q ∈ st.plans ∨
      (¬ q.wasAccepted ∧ q.materializedAt = none ∧ st.goals.get? q.goalId ≠ none))
    (kept : ∀ p ∈ st.plans, p.wasAccepted → p ∈ st'.plans)
    (versions : ∀ goalId, ∃ n, Numbered goalId st' n) : PlanStore number st' := by
  have old : ∀ q ∈ st'.plans, q.wasAccepted → q ∈ st.plans := fun q member was =>
    (rows q member).elim id fun new => absurd was new.1
  constructor
  · intro q member
    rcases rows q member with before | new
    · exact goals _ (h.goals q before)
    · exact goals _ new.2.2
  · intro q member accepted
    rw [current]
    exact h.accepted q (old q member (Or.inl accepted)) accepted
  · intro goalId planId is
    rw [current] at is
    obtain ⟨p, member, id, goal, accepted⟩ := h.current goalId planId is
    exact ⟨p, kept p member (Or.inl accepted), id, goal, accepted⟩
  · intro q member was
    rw [current]
    exact h.replaced q (old q member was) was
  · exact versions
  · intro q member
    rcases rows q member with before | ⟨not_, none_, _⟩
    · exact h.stamped q before
    · rw [none_]
      constructor
      · exact fun is => nomatch is
      · exact fun was => absurd was not_
  · intro q member stamped
    rcases rows q member with before | ⟨_, none_, _⟩
    · obtain ⟨taskIds, content⟩ := h.content q before stamped
      exact ⟨taskIds, content.congr sources dependencies tasks⟩
    · rw [none_] at stamped
      cases stamped
  · intro s member
    rw [sources] at member
    obtain ⟨task, p, there, is, stamped⟩ := h.sources s member
    exact ⟨tasks _ task, p, kept p there ((h.stamped p there).mp stamped), is, stamped⟩
  · exact h.ends.congr dependencies tasks

theorem current_putAll {rows : List GoalRow} {t : Table GoalRow.id}
    (keeps : ∀ row ∈ rows, (t.get? row.id).bind (·.currentPlanId) = row.currentPlanId)
    (goalId : String) :
    ((rows.foldl Table.put t).get? goalId).bind (·.currentPlanId) =
      (t.get? goalId).bind (·.currentPlanId) := by
  induction rows generalizing t with
  | nil => rfl
  | cons row rows ih =>
    have one : ∀ id, ((t.put row).get? id).bind (·.currentPlanId) =
        (t.get? id).bind (·.currentPlanId) := by
      intro id
      rw [Table.get?_put]
      split
      · rename_i same
        rw [← same, keeps row List.mem_cons_self]
        rfl
      · rfl
    rw [List.foldl_cons, ih, one]
    intro other member
    rw [one]
    exact keeps other (List.mem_cons_of_mem _ member)

theorem get?_putAll_ne_none {α κ : Type} [DecidableEq κ] {key : α → κ} {rows : List α}
    {t : Table key} {k : κ} (there : t.get? k ≠ none) : (rows.foldl Table.put t).get? k ≠ none := by
  induction rows generalizing t with
  | nil => exact there
  | cons row rows ih =>
    apply ih
    rw [Table.get?_put]
    split
    · exact Option.some_ne_none _
    · exact there

/-- What a log without sources, dependencies and new current plans leaves. -/
structure Unlinked (s : Standing) : Prop where
  sources : s.log.filterMap sourceOf = []
  links : s.log.filterMap linkOf = []
  goals : ∀ row ∈ s.log.filterMap goalOf, currentPlan s.db row.id = row.currentPlanId

theorem PlanStore.unlinked {s : Standing} (h : PlanStore number s.db) (unlinked : Unlinked s)
    (rows : ∀ q ∈ s.view.plans, q ∈ s.db.plans ∨
      (¬ q.wasAccepted ∧ q.materializedAt = none ∧ s.db.goals.get? q.goalId ≠ none))
    (kept : ∀ p ∈ s.db.plans, p.wasAccepted → p ∈ s.view.plans)
    (versions : ∀ goalId, ∃ n, Numbered goalId s.view n) : PlanStore number s.view := by
  apply h.revise _ _ tasksStay_writeAll _ _ rows kept versions
  · rw [sources_writeAll, unlinked.sources]
    rfl
  · exact @dependencies_writeAll _ _ [] unlinked.links
  · intro goalId
    unfold currentPlan
    rw [goals_writeAll]
    exact current_putAll unlinked.goals goalId
  · intro goalId there
    rw [goals_writeAll]
    exact get?_putAll_ne_none there

theorem Numbered.congr {goalId : String} {st st' : Store} {n : Nat} (h : Numbered goalId st n)
    (plans : st'.plans = st.plans) : Numbered goalId st' n := by
  constructor
  · rw [plans]
    exact h.range
  · rw [plans]
    exact h.all
  · rw [plans]
    exact h.apart

theorem PlanStore.plain {s : Standing} (h : PlanStore number s.db) (unlinked : Unlinked s)
    (plans : s.log.filterMap planOf = []) : PlanStore number s.view := by
  have same : s.view.plans = s.db.plans := by
    unfold Progress.view
    rw [plans_writeAll, plans]
    rfl
  apply h.unlinked unlinked
  · intro q member
    rw [same] at member
    exact Or.inl member
  · intro p member _
    rw [same]
    exact member
  · intro goalId
    obtain ⟨n, numbered⟩ := h.versions goalId
    exact ⟨n, numbered.congr same⟩

theorem plans_put {s : Standing} {row : PlanRow} (plans : s.log.filterMap planOf = [row])
    (q : PlanRow) : q ∈ s.view.plans ↔ q = row ∨ (q ∈ s.db.plans ∧ q.id ≠ row.id) := by
  unfold Progress.view
  rw [plans_writeAll, plans]
  exact Table.mem_put

/-- The version that comes after the plans of the goal. -/
structure NextVersion (row : PlanRow) (st : Store) (latest : Nat) : Prop where
  is : row.version = latest + 1
  bound : ∀ p ∈ st.plans, p.goalId = row.goalId → p.version ≤ latest
  reached : latest = 0 ∨ ∃ p ∈ st.plans, p.goalId = row.goalId ∧ p.version = latest

theorem NextVersion.latest {row : PlanRow} {st : Store} {latest n : Nat}
    (next : NextVersion row st latest) (numbered : Numbered row.goalId st n) : latest = n := by
  have upper : latest ≤ n := by
    rcases next.reached with zero | ⟨p, member, goal, is⟩
    · omega
    · have range := (numbered.range p member goal).2
      omega
  have lower : n ≤ latest := by
    by_contra less
    obtain ⟨p, member, goal, is⟩ := numbered.all n (by omega) (Nat.le_refl _)
    have bound := next.bound p member goal
    omega
  omega

theorem PlanStore.proposed {s : Standing} (h : PlanStore number s.db) (unlinked : Unlinked s)
    {row : PlanRow} (plans : s.log.filterMap planOf = [row]) (status : row.status = .proposed)
    (stamp : row.materializedAt = none) (fresh : s.db.plans.get? row.id = none)
    (goal : s.db.goals.get? row.goalId ≠ none) {latest : Nat}
    (next : NextVersion row s.db latest) : PlanStore number s.view := by
  have mem := plans_put plans
  have other : ∀ p ∈ s.db.plans, p.id ≠ row.id := Table.get?_eq_none.mp fresh
  apply h.unlinked unlinked
  · intro q member
    rcases (mem q).mp member with rfl | ⟨old, _⟩
    · refine Or.inr ⟨?_, stamp, goal⟩
      rintro (is | is)
      · rw [status] at is
        cases is
      · rw [status] at is
        cases is
    · exact Or.inl old
  · exact fun p member _ => (mem p).mpr (Or.inr ⟨member, other p member⟩)
  · intro goalId
    obtain ⟨n, numbered⟩ := h.versions goalId
    by_cases here : goalId = row.goalId
    · subst here
      have count := next.latest numbered
      have version := next.is
      refine ⟨n + 1, ?_, ?_, ?_⟩
      · intro p member goal
        rcases (mem p).mp member with rfl | ⟨old, _⟩
        · omega
        · have range := numbered.range p old goal
          omega
      · intro v low high
        by_cases last : v = n + 1
        · exact ⟨row, (mem row).mpr (Or.inl rfl), rfl, by omega⟩
        · obtain ⟨p, old, goal, is⟩ := numbered.all v low (by omega)
          exact ⟨p, (mem p).mpr (Or.inr ⟨old, other p old⟩), goal, is⟩
      · intro p left q right goalP goalQ same
        rcases (mem p).mp left with rfl | ⟨oldP, _⟩
        · rcases (mem q).mp right with rfl | ⟨oldQ, _⟩
          · rfl
          · have range := numbered.range q oldQ goalQ
            omega
        · rcases (mem q).mp right with rfl | ⟨oldQ, _⟩
          · have range := numbered.range p oldP goalP
            omega
          · exact numbered.apart p oldP q oldQ goalP goalQ same
    · have off : ∀ p ∈ s.view.plans, p.goalId = goalId → p ∈ s.db.plans := by
        intro p member same
        rcases (mem p).mp member with rfl | ⟨old, _⟩
        · exact absurd same.symm here
        · exact old
      refine ⟨n, ?_, ?_, ?_⟩
      · exact fun p member goal => numbered.range p (off p member goal) goal
      · intro v low high
        obtain ⟨p, old, goal, is⟩ := numbered.all v low high
        exact ⟨p, (mem p).mpr (Or.inr ⟨old, other p old⟩), goal, is⟩
      · exact fun p left q right goalP goalQ same =>
          numbered.apart p (off p left goalP) q (off q right goalQ) goalP goalQ same

/-- Rows that keep their id, goal and version keep the versions of every goal. -/
theorem Numbered.renew {goalId : String} {st st' : Store} {n : Nat} (h : Numbered goalId st n)
    (back : ∀ q ∈ st'.plans, ∃ p ∈ st.plans, p.id = q.id ∧ p.goalId = q.goalId ∧ p.version = q.version)
    (onward : ∀ p ∈ st.plans, ∃ q ∈ st'.plans, q.id = p.id ∧ q.goalId = p.goalId ∧
      q.version = p.version) : Numbered goalId st' n := by
  constructor
  · intro q member goal
    obtain ⟨p, old, _, sameGoal, version⟩ := back q member
    rw [← version]
    exact h.range p old (sameGoal.trans goal)
  · intro v low high
    obtain ⟨p, old, goal, is⟩ := h.all v low high
    obtain ⟨q, member, _, sameGoal, version⟩ := onward p old
    exact ⟨q, member, sameGoal.trans goal, version.trans is⟩
  · intro q left q' right goal goal' same
    obtain ⟨p, old, id, sameGoal, version⟩ := back q left
    obtain ⟨p', old', id', sameGoal', version'⟩ := back q' right
    have one := h.apart p old p' old' (sameGoal.trans goal) (sameGoal'.trans goal') (by omega)
    apply Table.key_inj left right
    rw [← id, ← id', one]

theorem PlanStore.rejected {s : Standing} (h : PlanStore number s.db) (unlinked : Unlinked s)
    {row : PlanRow} (plans : s.log.filterMap planOf = [{ row with status := .rejected }])
    (stored : row ∈ s.db.plans) (status : row.status = .proposed) : PlanStore number s.view := by
  have mem := plans_put plans
  have open_ : ¬ row.wasAccepted := not_wasAccepted status
  apply h.unlinked unlinked
  · intro q member
    rcases (mem q).mp member with rfl | ⟨old, _⟩
    · refine Or.inr ⟨?_, ?_, h.goals row stored⟩
      · rintro (is | is)
        · cases is
        · cases is
      · have stamp := mt (h.stamped row stored).mp open_
        exact Option.not_isSome_iff_eq_none.mp stamp
    · exact Or.inl old
  · intro p member was
    refine (mem p).mpr (Or.inr ⟨member, fun same => ?_⟩)
    exact open_ (Table.key_inj member stored same ▸ was)
  · intro goalId
    obtain ⟨n, numbered⟩ := h.versions goalId
    refine ⟨n, numbered.renew ?_ ?_⟩
    · intro q member
      rcases (mem q).mp member with rfl | ⟨old, _⟩
      · exact ⟨row, stored, rfl, rfl, rfl⟩
      · exact ⟨q, old, rfl, rfl, rfl⟩
    · intro p member
      by_cases same : p.id = row.id
      · cases Table.key_inj member stored same
        exact ⟨_, (mem _).mpr (Or.inl rfl), rfl, rfl, rfl⟩
      · exact ⟨p, (mem p).mpr (Or.inr ⟨member, same⟩), rfl, rfl, rfl⟩

/-! ## The transaction that accepts a plan -/

def PlanRow.supersede (p : PlanRow) : PlanRow := { p with status := .superseded }

/-- What the acceptance of a plan writes: `replaced` are the plans it supersedes, `final` is the last
row of the plan. -/
structure Acceptance (number : String → Option Int) (plan : PlanRow) (replaced : List PlanRow)
    (accepted final : PlanRow) (taskIds : List String) (sources : List TaskSource)
    (links : List DependencyRow) (s : Standing) : Prop where
  stored : plan ∈ s.db.plans
  proposed : plan.status = .proposed
  replaces : ∀ p, p ∈ replaced ↔ p ∈ s.db.plans ∧ p.goalId = plan.goalId ∧ p.status = .accepted
  replacedApart : (replaced.map PlanRow.id).Nodup
  plans : s.log.filterMap planOf = replaced.map PlanRow.supersede ++ [accepted, final]
  acceptedId : accepted.id = plan.id
  acceptedGoal : accepted.goalId = plan.goalId
  finalId : final.id = plan.id
  finalGoal : final.goalId = plan.goalId
  finalVersion : final.version = plan.version
  finalSpecs : final.taskSpecs = plan.taskSpecs
  finalStatus : final.status = .accepted
  stamped : final.materializedAt.isSome
  goals : ∀ row ∈ s.log.filterMap goalOf, row.id = plan.goalId ∧ row.currentPlanId = some plan.id
  goal : s.log.filterMap goalOf ≠ []
  count : taskIds.length = plan.taskSpecs.length
  apart : taskIds.Nodup
  absent : ∀ id ∈ taskIds, s.db.core.tasks.get? id = none
  written : ∀ id ∈ taskIds, ∃ row, .core (.task row) ∈ s.log ∧ row.id = id
  sourceRows : s.log.filterMap sourceOf = sources
  sourceIds : sources.map (·.taskId) = taskIds
  refs : ∀ i (lt : i < sources.length),
    sources[i].sourcePlanId = plan.id ∧ sources[i].sourcePlanSpecRef = toString i
  linkRows : s.log.filterMap linkOf = links.map some
  edges : links.map PlanEdge.of = planEdges number plan.taskSpecs taskIds
  edgesApart : (links.map PlanEdge.of).Nodup
  linkIds : (links.map (·.id)).Nodup
  linksNew : ∀ row ∈ links, s.db.core.dependencies.get? row.id = none

theorem planEdges_ends {specs : List TaskSpec} {taskIds : List String}
    (count : taskIds.length = specs.length) :
    ∀ e ∈ planEdges number specs taskIds, e.fromId ∈ taskIds ∧ e.toId ∈ taskIds := by
  intro e member
  obtain ⟨s, inside, rfl⟩ := List.mem_map.mp member
  obtain ⟨left, right⟩ := specEdges_within s inside
  exact ⟨getD_mem (count ▸ left), getD_mem (count ▸ right)⟩

section Acceptance

variable {plan accepted final : PlanRow} {replaced : List PlanRow} {taskIds : List String}
  {sources : List TaskSource} {links : List DependencyRow} {s : Standing}

theorem Acceptance.mem_plans
    (h : Acceptance number plan replaced accepted final taskIds sources links s) (q : PlanRow) :
    q ∈ s.view.plans ↔ q = final ∨ (q.id ≠ plan.id ∧
      ((∃ p ∈ replaced, q = p.supersede) ∨ (q ∈ s.db.plans ∧ q ∉ replaced))) := by
  have keys : (replaced.map PlanRow.supersede).map PlanRow.id = replaced.map PlanRow.id := by
    rw [List.map_map]
    rfl
  have off : q ∈ s.db.plans → (q.id ∉ replaced.map PlanRow.id ↔ q ∉ replaced) := by
    intro there
    constructor
    · exact fun no member => no (List.mem_map_of_mem member)
    · intro no taken
      obtain ⟨p, member, same⟩ := List.mem_map.mp taken
      exact no (Table.key_inj there ((h.replaces p).mp member).1 same.symm ▸ member)
  unfold Progress.view
  rw [plans_writeAll, h.plans, List.foldl_append]
  change q ∈ (Table.put (Table.put _ accepted) final) ↔ _
  rw [Table.mem_put, Table.mem_put, Table.mem_putAll (keys ▸ h.replacedApart), keys, h.acceptedId,
    h.finalId, List.mem_map]
  constructor
  · rintro (is | ⟨is | ⟨⟨p, member, rfl⟩ | ⟨there, no⟩, _⟩, other⟩)
    · exact Or.inl is
    · rw [is, h.acceptedId] at other
      exact absurd rfl other
    · exact Or.inr ⟨other, Or.inl ⟨p, member, rfl⟩⟩
    · exact Or.inr ⟨other, Or.inr ⟨there, (off there).mp no⟩⟩
  · rintro (is | ⟨other, ⟨p, member, rfl⟩ | ⟨there, no⟩⟩)
    · exact Or.inl is
    · exact Or.inr ⟨Or.inr ⟨Or.inl ⟨p, member, rfl⟩, other⟩, other⟩
    · exact Or.inr ⟨Or.inr ⟨Or.inr ⟨there, (off there).mpr no⟩, other⟩, other⟩

/-- A plan that the acceptance meets, as it is afterwards. -/
theorem Acceptance.onward
    (h : Acceptance number plan replaced accepted final taskIds sources links s) {p : PlanRow}
    (member : p ∈ s.db.plans) : ∃ q ∈ s.view.plans, q.id = p.id ∧ q.goalId = p.goalId ∧
      q.version = p.version ∧ (p.id ≠ plan.id → q.materializedAt = p.materializedAt) := by
  by_cases own : p.id = plan.id
  · cases Table.key_inj member h.stored own
    exact ⟨final, (h.mem_plans final).mpr (Or.inl rfl), h.finalId, h.finalGoal, h.finalVersion,
      fun other => absurd rfl other⟩
  · by_cases out : p ∈ replaced
    · exact ⟨p.supersede, (h.mem_plans _).mpr (Or.inr ⟨own, Or.inl ⟨p, out, rfl⟩⟩), rfl, rfl, rfl,
        fun _ => rfl⟩
    · exact ⟨p, (h.mem_plans _).mpr (Or.inr ⟨own, Or.inr ⟨member, out⟩⟩), rfl, rfl, rfl, fun _ => rfl⟩

theorem Acceptance.currentPlan
    (h : Acceptance number plan replaced accepted final taskIds sources links s) (goalId : String) :
    currentPlan s.view goalId =
      if goalId = plan.goalId then some plan.id else Planning.currentPlan s.db goalId := by
  have all : ∀ (rows : List GoalRow) (t : Table GoalRow.id),
      (∀ row ∈ rows, row.id = plan.goalId ∧ row.currentPlanId = some plan.id) →
      (rows = [] → (t.get? plan.goalId).bind (·.currentPlanId) = some plan.id) →
      ((rows.foldl Table.put t).get? goalId).bind (·.currentPlanId) =
        if goalId = plan.goalId then some plan.id else (t.get? goalId).bind (·.currentPlanId) := by
    intro rows
    induction rows with
    | nil =>
      intro t _ start
      split
      · rename_i here
        rw [here]
        exact start rfl
      · rfl
    | cons row rows ih =>
      intro t own _
      obtain ⟨id, current⟩ := own row List.mem_cons_self
      rw [List.foldl_cons, ih (t.put row) fun other member => own other (List.mem_cons_of_mem _ member)]
      · split
        · rfl
        · rename_i other
          rw [Table.get?_put_other fun same => other (same.symm.trans id)]
      · intro _
        rw [← id, Table.get?_put_self]
        exact current
  unfold Planning.currentPlan Progress.view
  rw [goals_writeAll]
  exact all _ _ h.goals fun none_ => absurd none_ h.goal

theorem Acceptance.mem_sources (state : PlanStore number s.db)
    (h : Acceptance number plan replaced accepted final taskIds sources links s) (x : TaskSource) :
    x ∈ s.view.sources ↔ x ∈ sources ∨ x ∈ s.db.sources := by
  unfold Progress.view
  rw [sources_writeAll, h.sourceRows, Table.mem_putAll (h.sourceIds ▸ h.apart), h.sourceIds]
  constructor
  · exact fun is => is.imp_right And.left
  · rintro (new | old)
    · exact Or.inl new
    · exact Or.inr ⟨old, fun taken => (state.sources x old).1 (h.absent _ taken)⟩

theorem Acceptance.mem_dependencies
    (h : Acceptance number plan replaced accepted final taskIds sources links s) (d : DependencyRow) :
    d ∈ s.view.core.dependencies ↔ d ∈ links ∨ d ∈ s.db.core.dependencies := by
  unfold Progress.view
  rw [dependencies_writeAll h.linkRows, Table.mem_putAll h.linkIds]
  constructor
  · exact fun is => is.imp_right And.left
  · rintro (new | old)
    · exact Or.inl new
    · refine Or.inr ⟨old, fun taken => ?_⟩
      obtain ⟨row, member, same⟩ := List.mem_map.mp taken
      exact Table.get?_eq_none.mp (h.linksNew row member) d old same.symm

/-- The dependencies that the acceptance adds are between its own tasks. -/
theorem Acceptance.own
    (h : Acceptance number plan replaced accepted final taskIds sources links s) {d : DependencyRow}
    (member : d ∈ links) : d.fromTaskId ∈ taskIds ∧ d.toTaskId ∈ taskIds := by
  have edge : PlanEdge.of d ∈ planEdges number plan.taskSpecs taskIds := by
    rw [← h.edges]
    exact List.mem_map_of_mem member
  exact planEdges_ends h.count _ edge

/-- The plan that is accepted has its tasks and dependencies. -/
theorem Acceptance.materialized (state : PlanStore number s.db)
    (h : Acceptance number plan replaced accepted final taskIds sources links s) :
    Materialized number final s.view taskIds := by
  have count : sources.length = taskIds.length := by
    rw [← h.sourceIds, List.length_map]
  have at_ : ∀ i (lt : i < sources.length), sources[i].taskId = taskIds.getD i "" := by
    intro i lt
    have lt' : i < taskIds.length := count ▸ lt
    rw [List.getD_eq_getElem _ _ lt']
    simp only [← h.sourceIds, List.getElem_map]
  constructor
  · rw [h.finalSpecs, h.count]
  · exact h.apart
  · intro x member plan_
    rcases (h.mem_sources state x).mp member with new | old
    · obtain ⟨i, lt, rfl⟩ := List.mem_iff_getElem.mp new
      exact ⟨i, count ▸ lt, at_ i lt, (h.refs i lt).2⟩
    · obtain ⟨_, p, there, same, stamped⟩ := state.sources x old
      have is : p = plan := Table.key_inj there h.stored (same.trans (plan_.trans h.finalId))
      rcases (state.stamped p there).mp stamped with status | status
      · rw [is, h.proposed] at status
        cases status
      · rw [is, h.proposed] at status
        cases status
  · intro i lt
    have inside : taskIds.getD i "" ∈ taskIds := by
      rw [List.getD_eq_getElem _ _ lt]
      exact List.getElem_mem _
    obtain ⟨row, written, is⟩ := h.written _ inside
    have lt' : i < sources.length := count ▸ lt
    refine ⟨is ▸ written_task written, sources[i], ?_, at_ i lt', ?_, (h.refs i lt').2⟩
    · exact (h.mem_sources state _).mpr (Or.inl (List.getElem_mem _))
    · exact (h.refs i lt').1.trans h.finalId.symm
  · intro d member touches
    rcases (h.mem_dependencies d).mp member with new | old
    · rw [h.finalSpecs, ← h.edges]
      exact List.mem_map_of_mem new
    · obtain ⟨left, right⟩ := state.ends d old
      rcases touches with source | target
      · exact absurd (h.absent _ source) left
      · exact absurd (h.absent _ target) right
  · intro e member
    rw [h.finalSpecs, ← h.edges] at member
    obtain ⟨d, inside, is⟩ := List.mem_map.mp member
    exact ⟨d, (h.mem_dependencies d).mpr (Or.inl inside), is⟩
  · intro d left d' right touches same
    have new : ∀ x ∈ s.view.core.dependencies, x.fromTaskId ∈ taskIds → x ∈ links := by
      intro x member source
      rcases (h.mem_dependencies x).mp member with new | old
      · exact new
      · exact absurd (h.absent _ source) (state.ends x old).1
    have touches' : d'.fromTaskId ∈ taskIds := by
      have source : d.fromTaskId = d'.fromTaskId := congrArg PlanEdge.fromId same
      exact source ▸ touches
    exact List.inj_on_of_nodup_map h.edgesApart (new d left touches) (new d' right touches') same

/-- Another plan keeps its tasks and dependencies. -/
theorem Acceptance.keeps (state : PlanStore number s.db)
    (h : Acceptance number plan replaced accepted final taskIds sources links s) {p q : PlanRow}
    {ids : List String} (content : Materialized number p s.db ids) (other : p.id ≠ plan.id)
    (id : q.id = p.id) (specs : q.taskSpecs = p.taskSpecs) : Materialized number q s.view ids := by
  have there : ∀ id ∈ ids, s.db.core.tasks.get? id ≠ none := by
    intro id member
    obtain ⟨i, lt, rfl⟩ := List.mem_iff_getElem.mp member
    have task := (content.task i lt).1
    rwa [List.getD_eq_getElem _ _ lt] at task
  have old : ∀ d ∈ s.view.core.dependencies, d.fromTaskId ∈ ids ∨ d.toTaskId ∈ ids →
      d ∈ s.db.core.dependencies := by
    intro d member touches
    rcases (h.mem_dependencies d).mp member with new | old
    · obtain ⟨left, right⟩ := h.own new
      rcases touches with source | target
      · exact absurd (h.absent _ left) (there _ source)
      · exact absurd (h.absent _ right) (there _ target)
    · exact old
  constructor
  · rw [specs]
    exact content.count
  · exact content.apart
  · intro x member plan_
    rcases (h.mem_sources state x).mp member with new | before
    · obtain ⟨i, lt, rfl⟩ := List.mem_iff_getElem.mp new
      exact absurd ((id.symm.trans plan_.symm).trans (h.refs i lt).1) other
    · exact content.source x before (plan_.trans id)
  · intro i lt
    obtain ⟨task, x, member, is, plan_, ref⟩ := content.task i lt
    exact ⟨tasksStay_writeAll _ task, x, (h.mem_sources state x).mpr (Or.inr member), is,
      plan_.trans id.symm, ref⟩
  · intro d member touches
    rw [specs]
    exact content.edge d (old d member touches) touches
  · intro e member
    rw [specs] at member
    obtain ⟨d, inside, is⟩ := content.link e member
    exact ⟨d, (h.mem_dependencies d).mpr (Or.inr inside), is⟩
  · intro d left d' right touches same
    have touches' : d'.fromTaskId ∈ ids := by
      have source : d.fromTaskId = d'.fromTaskId := congrArg PlanEdge.fromId same
      exact source ▸ touches
    exact content.once d (old d left (Or.inl touches)) d' (old d' right (Or.inl touches')) touches same

theorem PlanStore.accept (state : PlanStore number s.db)
    (h : Acceptance number plan replaced accepted final taskIds sources links s) :
    PlanStore number s.view := by
  have onward : ∀ goalId, s.db.goals.get? goalId ≠ none → s.view.goals.get? goalId ≠ none := by
    intro goalId there
    unfold Progress.view
    rw [goals_writeAll]
    exact get?_putAll_ne_none there
  have before : ∀ q ∈ s.view.plans, q = final ∨ (∃ p ∈ replaced, q = p.supersede) ∨
      (q ∈ s.db.plans ∧ q ∉ replaced ∧ q.id ≠ plan.id) := by
    intro q member
    rcases (h.mem_plans q).mp member with is | ⟨other, out | ⟨old, kept⟩⟩
    · exact Or.inl is
    · exact Or.inr (Or.inl out)
    · exact Or.inr (Or.inr ⟨old, kept, other⟩)
  have open_ : ¬ plan.wasAccepted := not_wasAccepted h.proposed
  constructor
  · intro q member
    apply onward
    rcases before q member with rfl | ⟨p, out, rfl⟩ | ⟨old, _⟩
    · rw [h.finalGoal]
      exact state.goals plan h.stored
    · exact state.goals p ((h.replaces p).mp out).1
    · exact state.goals q old
  · intro q member status
    rw [h.currentPlan]
    rcases before q member with rfl | ⟨p, out, rfl⟩ | ⟨old, kept, _⟩
    · rw [if_pos h.finalGoal, h.finalId]
    · cases status
    · have elsewhere : q.goalId ≠ plan.goalId := fun same => kept ((h.replaces q).mpr ⟨old, same, status⟩)
      rw [if_neg elsewhere]
      exact state.accepted q old status
  · intro goalId planId is
    rw [h.currentPlan] at is
    split at is
    · rename_i here
      cases is
      exact ⟨final, (h.mem_plans final).mpr (Or.inl rfl), h.finalId, h.finalGoal.trans here.symm,
        h.finalStatus⟩
    · rename_i elsewhere
      obtain ⟨p, member, id, goal, status⟩ := state.current goalId planId is
      refine ⟨p, (h.mem_plans p).mpr (Or.inr ⟨?_, Or.inr ⟨member, ?_⟩⟩), id, goal, status⟩
      · intro same
        exact elsewhere (goal ▸ congrArg PlanRow.goalId (Table.key_inj member h.stored same))
      · exact fun out => elsewhere (goal ▸ ((h.replaces p).mp out).2.1)
  · intro q member was
    rw [h.currentPlan]
    split
    · exact Option.some_ne_none _
    · rename_i elsewhere
      rcases before q member with rfl | ⟨p, out, rfl⟩ | ⟨old, _⟩
      · exact absurd h.finalGoal elsewhere
      · exact absurd ((h.replaces p).mp out).2.1 elsewhere
      · exact state.replaced q old was
  · intro goalId
    obtain ⟨n, numbered⟩ := state.versions goalId
    refine ⟨n, numbered.renew ?_ ?_⟩
    · intro q member
      rcases before q member with rfl | ⟨p, out, rfl⟩ | ⟨old, _⟩
      · exact ⟨plan, h.stored, h.finalId.symm, h.finalGoal.symm, h.finalVersion.symm⟩
      · exact ⟨p, ((h.replaces p).mp out).1, rfl, rfl, rfl⟩
      · exact ⟨q, old, rfl, rfl, rfl⟩
    · intro p member
      obtain ⟨q, there, id, goal, version, _⟩ := h.onward member
      exact ⟨q, there, id, goal, version⟩
  · intro q member
    rcases before q member with rfl | ⟨p, out, rfl⟩ | ⟨old, _⟩
    · exact ⟨fun _ => Or.inl h.finalStatus, fun _ => h.stamped⟩
    · obtain ⟨there, _, status⟩ := (h.replaces p).mp out
      have stamped := (state.stamped p there).mpr (Or.inl status)
      exact ⟨fun _ => Or.inr rfl, fun _ => stamped⟩
    · exact state.stamped q old
  · intro q member stamped
    rcases before q member with rfl | ⟨p, out, rfl⟩ | ⟨old, _, other⟩
    · exact ⟨taskIds, h.materialized state⟩
    · obtain ⟨there, _, status⟩ := (h.replaces p).mp out
      obtain ⟨ids, content⟩ := state.content p there stamped
      have other : p.id ≠ plan.id := by
        intro same
        exact open_ (Table.key_inj there h.stored same ▸ Or.inl status)
      exact ⟨ids, h.keeps state content other rfl rfl⟩
    · obtain ⟨ids, content⟩ := state.content q old stamped
      exact ⟨ids, h.keeps state content other rfl rfl⟩
  · intro x member
    rcases (h.mem_sources state x).mp member with new | old
    · obtain ⟨i, lt, rfl⟩ := List.mem_iff_getElem.mp new
      have inside : sources[i].taskId ∈ taskIds := by
        rw [← h.sourceIds]
        exact List.mem_map_of_mem new
      obtain ⟨row, written, is⟩ := h.written _ inside
      refine ⟨is ▸ written_task written, final, (h.mem_plans final).mpr (Or.inl rfl), ?_, h.stamped⟩
      exact h.finalId.trans (h.refs i lt).1.symm
    · obtain ⟨task, p, there, is, stamped⟩ := state.sources x old
      obtain ⟨q, member, id, _, _, same⟩ := h.onward there
      have other : p.id ≠ plan.id := by
        intro own
        exact open_ (Table.key_inj there h.stored own ▸ (state.stamped p there).mp stamped)
      exact ⟨tasksStay_writeAll _ task, q, member, id.trans is, same other ▸ stamped⟩
  · intro d member
    rcases (h.mem_dependencies d).mp member with new | old
    · obtain ⟨left, right⟩ := h.own new
      obtain ⟨row, written, is⟩ := h.written _ left
      obtain ⟨row', written', is'⟩ := h.written _ right
      exact ⟨is ▸ written_task written, is' ▸ written_task written'⟩
    · obtain ⟨left, right⟩ := state.ends d old
      exact ⟨tasksStay_writeAll _ left, tasksStay_writeAll _ right⟩

end Acceptance

end Artoo.Planning
