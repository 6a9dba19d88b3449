import Artoo.Lib.Sessions
import Artoo.Planning.Accept
import Artoo.Server.Concurrent

/-! The statements of plans and goals under concurrent commits. -/
namespace Artoo.Planning
open Artoo.Lib Artoo.Domain Tx
open Artoo.Server (TaskRow DependencyRow EventSpec EventRow)

/-- The row under a lock is the same. -/
def Lock.Same (st st' : Store) : Lock → Prop
  | .core k => k.Same st.core st'.core
  | .goal id => st'.goals.get? id = st.goals.get? id
  | .plan id => st'.plans.get? id = st.plans.get? id
  | .source taskId => st'.sources.get? taskId = st.sources.get? taskId
  | .dependency id => st'.core.dependencies.get? id = st.core.dependencies.get? id
  | .planVersion _ _ | .planSpec _ _ | .edge _ _ _ => True

theorem Lock.Same.refl {k : Lock} {st : Store} : k.Same st st := by
  cases k with
  | core k => exact Server.Lock.Same.refl
  | _ => first | rfl | trivial

theorem Lock.Same.trans {k : Lock} {a b c : Store} (first : k.Same a b) (last : k.Same b c) :
    k.Same a c := by
  cases k with
  | core k => exact Server.Lock.Same.trans first last
  | _ => first | exact Eq.trans last first | trivial

theorem Lock.same_write {k : Lock} {w : Write} {st : Store} (other : k ∉ w.locks) :
    k.Same st (w.apply st) := by
  cases w with
  | core w =>
    cases k with
    | core k =>
      apply Server.Lock.same_write
      exact fun same => other (List.mem_singleton.mpr (congrArg Lock.core same))
    | dependency id => cases w <;> rfl
    | _ => first | rfl | trivial
  | goal row =>
    cases k with
    | core k => exact Server.Lock.Same.refl
    | goal id =>
      apply Table.get?_put_other
      exact fun same => other (List.mem_singleton.mpr (congrArg Lock.goal same.symm))
    | _ => first | rfl | trivial
  | plan row =>
    cases k with
    | core k => exact Server.Lock.Same.refl
    | plan id =>
      apply Table.get?_put_other
      exact fun same => other (congrArg Lock.plan same ▸ List.mem_cons_self)
    | _ => first | rfl | trivial
  | source row =>
    cases k with
    | core k => exact Server.Lock.Same.refl
    | source taskId =>
      apply Table.get?_put_other
      exact fun same => other (congrArg Lock.source same ▸ List.mem_cons_self)
    | _ => first | rfl | trivial
  | dependency row =>
    cases k with
    | core k => cases k <;> first | rfl | trivial
    | dependency id =>
      apply Table.get?_put_other
      exact fun same => other (congrArg Lock.dependency same ▸ List.mem_cons_self)
    | _ => first | rfl | trivial
  | removeDependency row =>
    cases k with
    | core k => cases k <;> first | rfl | trivial
    | dependency id =>
      apply Table.get?_remove_other
      exact fun same => other (congrArg Lock.dependency same ▸ List.mem_cons_self)
    | _ => first | rfl | trivial

theorem Lock.same_writeAll {k : Lock} {log : List Write} {st : Store}
    (free : ∀ w ∈ log, k ∉ w.locks) : k.Same st (writeAll log st) := by
  induction log generalizing st with
  | nil => exact .refl
  | cons w log ih =>
    have first : k.Same st (w.apply st) := same_write (free w List.mem_cons_self)
    exact first.trans (ih fun w member => free w (List.mem_cons_of_mem _ member))

abbrev Standing := Progress Store Write Lock

/-! ## What is written, and what a write leaves -/

theorem writes_core {α : Type} {p : Server.Txn α} :
    Writes (fun _ w => ∃ w', w = Write.core w') (core p) := by
  unfold core
  induction p with
  | done a => trivial
  | fail e => trivial
  | draw next ih => exact fun i => ih i
  | stmt locks writes next ih =>
    intro view
    refine ⟨fun w written => ?_, ih _⟩
    obtain ⟨w', _, rfl⟩ := List.mem_map.mp written
    exact ⟨w', rfl⟩

theorem under_generate {α : Type} {R : Rely Store Lock} {s : Standing} {k : String → Txn α}
    {post : α → Standing → Prop} :
    under R (generate >>= k) post s ↔ ∀ id, under R (k id) post s := Iff.rfl

theorem under_mapM_generate {α β : Type} {R : Rely Store Lock} {s : Standing} {items : List β}
    {k : List String → Txn α} {post : α → Standing → Prop}
    (rest : ∀ ids : List String, ids.length = items.length → under R (k ids) post s) :
    under R (items.mapM (fun _ => generate) >>= k) post s := by
  induction items generalizing k with
  | nil => exact rest [] rfl
  | cons b items ih =>
    rw [List.mapM_cons, bind_assoc]
    intro id
    change under R ((items.mapM (fun _ => generate) >>= fun ids => pure (id :: ids)) >>= k) post s
    rw [bind_assoc]
    exact ih fun ids count => rest (id :: ids) (congrArg (· + 1) count)

theorem under_nowIso {α : Type} {R : Rely Store Lock} {s : Standing} {k : String → Txn α}
    {post : α → Standing → Prop} :
    under R (nowIso >>= k) post s ↔ ∀ now, under R (k now) post s := Iff.rfl

theorem under_requireGoalInOrg {α : Type} {R : Rely Store Lock} {s : Standing} {goalId : String}
    {k : GoalRow → Txn α} {post : α → Standing → Prop}
    (rest : ∀ db, R.rel s.locks s.db db → ∀ g, (s.at_ db).view.goals.get? goalId = some g →
      under R (k g) post ⟨db, s.locks ++ [.goal goalId], s.log⟩) :
    under R (requireGoalInOrg goalId >>= k) post s := by
  unfold requireGoalInOrg
  rw [bind_assoc, under_queryForUpdate]
  intro db later
  rw [under_require, Option.head?_toList]
  intro g found
  have lock : ((s.at_ db).view.goals.get? goalId).toList.map (fun g => Lock.goal g.id) =
      [.goal goalId] := by
    rw [found, ← Table.key_of_get? found]
    rfl
  rw [lock]
  exact rest db later g found

theorem under_updatePlan {α : Type} {R : Rely Store Lock} {s : Standing} {planId : String}
    {set : PlanRow → PlanRow} {k : Unit → Txn α} {post : α → Standing → Prop}
    (rest : ∀ db, R.rel s.locks s.db db → ∃ row, (s.at_ db).view.plans.get? planId = some row ∧
      under R (k ()) post ⟨db, s.locks ++ Tables.guards Store (Write.plan (set row)),
        s.log ++ [.plan (set row)]⟩) :
    under R (updatePlan planId set >>= k) post s := by
  unfold updatePlan
  rw [bind_assoc, under_change]
  intro db later
  obtain ⟨row, found, then_⟩ := rest db later
  rw [found, Option.toList_some, List.map_singleton, List.flatMap_singleton]
  exact then_

theorem under_updateGoal {α : Type} {R : Rely Store Lock} {s : Standing} {goalId : String}
    {set : GoalRow → GoalRow} {k : Unit → Txn α} {post : α → Standing → Prop}
    (rest : ∀ db, R.rel s.locks s.db db → ∃ row, (s.at_ db).view.goals.get? goalId = some row ∧
      under R (k ()) post ⟨db, s.locks ++ Tables.guards Store (Write.goal (set row)),
        s.log ++ [.goal (set row)]⟩) :
    under R (updateGoal goalId set >>= k) post s := by
  unfold updateGoal
  rw [bind_assoc, under_change]
  intro db later
  obtain ⟨row, found, then_⟩ := rest db later
  rw [found, Option.toList_some, List.map_singleton, List.flatMap_singleton]
  exact then_

theorem core_insert {taken : Server.Database → Bool} {w : Server.Write} :
    core (Server.insert taken w) = Tx.add (fun st => taken st.core) (.core w) .constraint := by
  unfold core Server.insert Tx.add Tx.lift
  congr 1
  · funext st
    dsimp only
    split <;> rfl
  · funext st
    dsimp only
    split <;> rfl

/-- The foreign keys of the dependencies. -/
def EndsExist (st : Store) : Prop :=
  ∀ d ∈ st.core.dependencies,
    st.core.tasks.get? d.fromTaskId ≠ none ∧ st.core.tasks.get? d.toTaskId ≠ none

/-- Tasks are never deleted. -/
def TasksStay (st st' : Store) : Prop :=
  ∀ id, st.core.tasks.get? id ≠ none → st'.core.tasks.get? id ≠ none

theorem TasksStay.refl {st : Store} : TasksStay st st := fun _ present => present

theorem TasksStay.trans {a b c : Store} (first : TasksStay a b) (last : TasksStay b c) :
    TasksStay a c :=
  fun id present => last id (first id present)

theorem tasksStay_write {w : Write} {st : Store} : TasksStay st (w.apply st) := by
  intro id present
  cases w with
  | core w =>
    cases w with
    | task row =>
      change (st.core.tasks.put row).get? id ≠ none
      rw [Table.get?_put]
      split
      · exact Option.some_ne_none _
      · exact present
    | _ => exact present
  | _ => exact present

theorem tasksStay_writeAll {log : List Write} {st : Store} : TasksStay st (writeAll log st) := by
  induction log generalizing st with
  | nil => exact .refl
  | cons w log ih => exact (@tasksStay_write w st).trans ih

/-- A task that was written is there. -/
theorem written_task {log : List Write} {row : TaskRow} {st : Store}
    (written : .core (.task row) ∈ log) : (writeAll log st).core.tasks.get? row.id ≠ none := by
  induction log generalizing st with
  | nil => cases written
  | cons w log ih =>
    rcases List.mem_cons.mp written with rfl | later
    · have put : (st.core.tasks.put row).get? row.id ≠ none := by
        rw [Table.get?_put_self]
        exact Option.some_ne_none _
      exact @tasksStay_writeAll log (Write.apply (.core (.task row)) st) row.id put
    · exact ih later

theorem mem_dependencies_writeAll {log : List Write} {row : DependencyRow} {st : Store}
    (member : row ∈ (writeAll log st).core.dependencies) :
    row ∈ st.core.dependencies ∨ .dependency row ∈ log := by
  induction log generalizing st with
  | nil => exact Or.inl member
  | cons w log ih =>
    rcases ih member with before | later
    · cases w with
      | core w => cases w <;> exact Or.inl before
      | dependency other =>
        rcases Table.mem_put.mp before with rfl | ⟨old, _⟩
        · exact Or.inr List.mem_cons_self
        · exact Or.inl old
      | removeDependency other => exact Or.inl (Table.mem_remove.mp before).1
      | _ => exact Or.inl before
    · exact Or.inr (List.mem_cons_of_mem _ later)

end Artoo.Planning
