import Mathlib.Logic.Relation
import Artoo.Lib.Path
import Artoo.Server.System

/-! Follow-up tasks: each has the execution policy of the first task of its chain, and the gates of
those before it. -/
namespace Artoo.Server.FollowUp
open Artoo.Lib Artoo.Protocol Artoo.Domain Tx

/-- The task has, or had, an execution gate; none is ever deleted. -/
def Gated (db : Database) (taskId : String) : Prop :=
  ∃ a ∈ db.approvals, a.taskId = taskId ∧ isGate a = true

structure SameLinks (old new : TaskRow) : Prop where
  projectId : new.projectId = old.projectId
  parentTaskId : new.parentTaskId = old.parentTaskId
  executionPolicyTaskId : new.executionPolicyTaskId = old.executionPolicyTaskId
  goalId : new.goalId = old.goalId
  closed : closedTask old = true → closedTask new = true

structure SameGate (old new : ApprovalRow) : Prop where
  taskId : new.taskId = old.taskId
  action : new.action = old.action

/-- Tasks keep their links and approvals their tasks; gates are only requested for open tasks. -/
structure Carries (db db' : Database) : Prop where
  tasks : ∀ id row, db.tasks.get? id = some row →
    ∃ row', db'.tasks.get? id = some row' ∧ SameLinks row row'
  approvals : ∀ id a, db.approvals.get? id = some a →
    ∃ a', db'.approvals.get? id = some a' ∧ SameGate a a'
  opened : ∀ id, Gated db' id → Gated db id ∨
    ∀ row, db.tasks.get? id = some row → closedTask row = false

/-- And there is neither a new follow-up nor a new run. -/
structure Calm (db db' : Database) : Prop extends Carries db db' where
  fresh : ∀ id row, db'.tasks.get? id = some row → db.tasks.get? id = none →
    row.executionPolicyTaskId = none
  runs : ∀ id, db.runs.get? id = none → db'.runs.get? id = none

section Relations

variable {db mid db' view : Database}

theorem SameLinks.refl (row : TaskRow) : SameLinks row row := ⟨rfl, rfl, rfl, rfl, id⟩

theorem SameLinks.trans {a b c : TaskRow} (first : SameLinks a b) (last : SameLinks b c) :
    SameLinks a c :=
  ⟨last.projectId.trans first.projectId, last.parentTaskId.trans first.parentTaskId,
    last.executionPolicyTaskId.trans first.executionPolicyTaskId, last.goalId.trans first.goalId,
    fun closed => last.closed (first.closed closed)⟩

theorem Carries.refl (db : Database) : Carries db db :=
  ⟨fun _ row found => ⟨row, found, .refl row⟩, fun _ a found => ⟨a, found, rfl, rfl⟩,
    fun _ => .inl⟩

theorem Carries.trans (first : Carries db mid) (last : Carries mid db') : Carries db db' := by
  constructor
  · intro id row found
    obtain ⟨row', found', same⟩ := first.tasks id row found
    obtain ⟨row'', found'', same'⟩ := last.tasks id row' found'
    exact ⟨row'', found'', same.trans same'⟩
  · intro id a found
    obtain ⟨a', found', same⟩ := first.approvals id a found
    obtain ⟨a'', found'', same'⟩ := last.approvals id a' found'
    exact ⟨a'', found'', same'.taskId.trans same.taskId, same'.action.trans same.action⟩
  · intro id gated
    rcases last.opened id gated with before | open_
    · exact first.opened id before
    · right
      intro row found
      obtain ⟨row', found', same⟩ := first.tasks id row found
      cases closed : closedTask row with
      | false => rfl
      | true =>
        have off := open_ row' found'
        rw [same.closed closed] at off
        exact off

theorem Carries.gated (carries : Carries db db') {id : String} (gated : Gated db id) :
    Gated db' id := by
  obtain ⟨a, there, of, gate⟩ := gated
  obtain ⟨a', found, same⟩ := carries.approvals a.id a (Table.get?_of_mem there)
  refine ⟨a', Table.mem_of_get? found, same.taskId.trans of, ?_⟩
  unfold isGate at gate ⊢
  rw [same.action]
  exact gate

/-- A task that is new in the end is new in one of the parts. -/
theorem Carries.fresh (last : Carries mid db')
    (first : ∀ id row, mid.tasks.get? id = some row → db.tasks.get? id = none →
      row.executionPolicyTaskId = none)
    (later : ∀ id row, db'.tasks.get? id = some row → mid.tasks.get? id = none →
      row.executionPolicyTaskId = none) (id : String) (row : TaskRow)
    (found : db'.tasks.get? id = some row) (absent : db.tasks.get? id = none) :
    row.executionPolicyTaskId = none := by
  cases before : mid.tasks.get? id with
  | none => exact later id row found before
  | some row' =>
    obtain ⟨row'', found', same⟩ := last.tasks id row' before
    rw [found] at found'
    cases found'
    rw [same.executionPolicyTaskId]
    exact first id row' before absent

instance : Std.Refl Calm := by
  constructor
  intro db
  refine ⟨.refl db, ?_, fun _ => id⟩
  intro id row found absent
  rw [absent] at found
  cases found

instance : IsTrans Database Calm := by
  constructor
  intro db mid db' first last
  refine ⟨first.toCarries.trans last.toCarries, ?_,
    fun id none => last.runs id (first.runs id none)⟩
  intro id row found absent
  exact last.toCarries.fresh first.fresh last.fresh id row found absent

/-- A statement that leaves the links of tasks and gates as they are. -/
def Links (view : Database) : Write → Prop
  | .task row => ∃ old, view.tasks.get? row.id = some old ∧ SameLinks old row
  | .approval row => ∃ old, view.approvals.get? row.id = some old ∧ SameGate old row
  | .run row => (view.runs.get? row.id).isSome
  | _ => True

theorem Calm.write (calm : Calm view db) {w : Write} (links : Links view w) :
    Calm view (w.apply db) := by
  cases w with
  | task row =>
    obtain ⟨old, found, same⟩ := links
    refine ⟨⟨?_, calm.approvals, calm.opened⟩, ?_, calm.runs⟩
    · intro id before there
      change ∃ row', (db.tasks.put row).get? id = some row' ∧ _
      rw [Table.get?_put]
      split
      · rename_i is
        rw [is, there] at found
        cases found
        exact ⟨row, rfl, same⟩
      · exact calm.tasks id before there
    · intro id row' there absent
      change (db.tasks.put row).get? id = some row' at there
      rw [Table.get?_put] at there
      split at there
      · rename_i is
        rw [is, absent] at found
        cases found
      · exact calm.fresh id row' there absent
  | approval row =>
    obtain ⟨old, found, same⟩ := links
    refine ⟨⟨calm.tasks, ?_, ?_⟩, calm.fresh, calm.runs⟩
    · intro id before there
      change ∃ a', (db.approvals.put row).get? id = some a' ∧ _
      rw [Table.get?_put]
      split
      · rename_i is
        rw [is, there] at found
        cases found
        exact ⟨row, rfl, same⟩
      · exact calm.approvals id before there
    · rintro id ⟨a, there, of, gate⟩
      rcases Table.mem_put.mp there with rfl | ⟨before, -⟩
      · refine .inl ⟨old, Table.mem_of_get? found, same.taskId.symm.trans of, ?_⟩
        unfold isGate at gate ⊢
        rw [← same.action]
        exact gate
      · exact calm.opened id ⟨a, before, of, gate⟩
  | run row =>
    refine ⟨⟨calm.tasks, calm.approvals, calm.opened⟩, calm.fresh, ?_⟩
    intro id absent
    change (db.runs.put row).get? id = none
    rw [Table.get?_put_other, calm.runs id absent]
    rintro rfl
    change (view.runs.get? row.id).isSome = true at links
    rw [absent] at links
    cases links
  | _ => exact ⟨⟨calm.tasks, calm.approvals, calm.opened⟩, calm.fresh, calm.runs⟩

theorem keeps_calm {α : Type} {p : Txn α} (links : Writes Links p) : Keeps Calm p := by
  apply Writes.keeps links
  intro view log all
  have kept : ∀ db, Calm view db → Calm view (writeAll log db) := by
    induction log with
    | nil => exact fun _ calm => calm
    | cons w log ih =>
      intro db calm
      rw [writeAll_cons]
      apply ih fun w' member => all w' (List.mem_cons_of_mem _ member)
      exact calm.write (all w List.mem_cons_self)
  exact kept view (Std.Refl.refl view)

theorem Carries.insertTask (carries : Carries view db) {row : TaskRow}
    (fresh : db.tasks.get? row.id = none) :
    Carries view { db with tasks := db.tasks.put row } := by
  refine ⟨?_, carries.approvals, carries.opened⟩
  intro id before there
  obtain ⟨row', found, same⟩ := carries.tasks id before there
  refine ⟨row', ?_, same⟩
  change (db.tasks.put row).get? id = some row'
  rw [Table.get?_put_other, found]
  rintro rfl
  rw [fresh] at found
  cases found

theorem Carries.insertApproval (carries : Carries view db) {row : ApprovalRow}
    (fresh : db.approvals.get? row.id = none)
    (open_ : ∀ t, view.tasks.get? row.taskId = some t → closedTask t = false) :
    Carries view { db with approvals := db.approvals.put row } := by
  refine ⟨carries.tasks, ?_, ?_⟩
  · intro id before there
    obtain ⟨a', found, same⟩ := carries.approvals id before there
    refine ⟨a', ?_, same⟩
    change (db.approvals.put row).get? id = some a'
    rw [Table.get?_put_other, found]
    rintro rfl
    rw [fresh] at found
    cases found
  · rintro id ⟨a, there, of, gate⟩
    rcases Table.mem_put.mp there with rfl | ⟨before, -⟩
    · rw [← of]
      exact .inr open_
    · exact carries.opened id ⟨a, before, of, gate⟩

theorem Calm.insertTask (calm : Calm view db) {row : TaskRow}
    (fresh : db.tasks.get? row.id = none) (first : row.executionPolicyTaskId = none) :
    Calm view { db with tasks := db.tasks.put row } := by
  refine ⟨calm.toCarries.insertTask fresh, ?_, calm.runs⟩
  intro id row' there absent
  change (db.tasks.put row).get? id = some row' at there
  rw [Table.get?_put] at there
  split at there
  · cases there
    exact first
  · exact calm.fresh id row' there absent

theorem Calm.insertApproval (calm : Calm view db) {row : ApprovalRow}
    (fresh : db.approvals.get? row.id = none)
    (open_ : ∀ t, view.tasks.get? row.taskId = some t → closedTask t = false) :
    Calm view { db with approvals := db.approvals.put row } :=
  ⟨calm.toCarries.insertApproval fresh open_, calm.fresh, calm.runs⟩

end Relations

/-! ## Statements and calls -/

section Calls

variable {ctx : Context} {db : Database}

theorem links_logEvent {spec : EventSpec} : Writes Links (logEvent spec) :=
  writes_logEvent fun _ _ => trivial

theorem closedTask_of_edge {source target : TaskStatus} {trigger : TaskTrigger}
    (edge : applyTaskTransition source trigger = some target) :
    source ≠ .done ∧ source ≠ .cancelled := by
  constructor
  · rintro rfl
    cases trigger <;> cases edge
  · rintro rfl
    cases trigger <;> cases edge

/-- No transition leaves a closed task. -/
theorem links_transitionTask {taskId now : String} {source : TaskStatus} {trigger : TaskTrigger}
    {events : TaskStatus → List EventSpec} :
    Writes Links (transitionTask taskId source trigger now events) := by
  unfold transitionTask
  cases edge : applyTaskTransition source trigger with
  | none => trivial
  | some target =>
    obtain ⟨notDone, notCancelled⟩ := closedTask_of_edge edge
    apply writes_bind writes_orThrow
    intro target'
    have moved : ∀ view, ∀ row ∈ (view.tasks.get? taskId).toList.filter (·.status == source),
        Links view (.task (setTaskStatus target' now row)) := by
      intro view row member
      obtain ⟨there, is⟩ := List.mem_filter.mp member
      have found := Option.mem_toList.mp there
      have is := beq_iff_eq.mp is
      refine ⟨row, ?_, rfl, rfl, rfl, rfl, ?_⟩
      · change view.tasks.get? row.id = some row
        rw [Table.key_of_get? found]
        exact found
      · intro closed
        unfold closedTask at closed
        rw [is, Bool.or_eq_true, beq_iff_eq, beq_iff_eq] at closed
        exact (closed.elim notDone notCancelled).elim
    apply writes_bind (writes_update moved)
    intro updated
    dsimp only
    split
    · apply writes_bind writes_buildEvents
      intro built
      exact writes_bind (writes_forM fun e _ => writes_insert fun _ _ => trivial) fun _ => writes_done
    · exact writes_done

theorem calm_createTask {req : CreateTaskRequest} :
    wp (createTask ctx req) (fun _ db' => Calm db db') db := by
  unfold createTask
  rw [wp_bind, wp_nowIso]
  intro now
  rw [wp_bind, wp_generate]
  intro id
  rw [wp_bind, wp_generate]
  intro roomId
  rw [wp_bind, wp_insertTask]
  intro fresh
  have inserted := (Std.Refl.refl db : Calm db db).insertTask fresh rfl
  refine wp_within Calm (keeps_calm ?_) fun _ db' later => IsTrans.trans _ _ _ inserted later
  apply writes_bind links_logEvent
  intro _
  apply writes_bind links_logEvent
  exact fun _ => writes_bind writes_select fun _ => writes_orThrow

theorem calm_requestApproval {params : RequestApprovalParams} :
    wp (requestApproval params) (fun _ db' => Calm db db') db := by
  unfold requestApproval insertApproval
  rw [wp_bind, wp_nowIso]
  intro now
  rw [wp_bind, wp_select, wp_bind, wp_orThrow]
  intro task found
  rw [wp_bind, wp_throwIf]
  intro running
  rw [wp_bind, wp_generate]
  intro id
  rw [wp_bind, wp_insert, Option.isSome_eq_false_iff, Option.isNone_iff_eq_none]
  intro fresh
  have open_ : ∀ t, db.tasks.get? params.taskId = some t → closedTask t = false := by
    intro t there
    rw [found] at there
    cases there
    have is : task.status = .running := by simpa using running
    simp [closedTask, is]
  have inserted := (Std.Refl.refl db : Calm db db).insertApproval fresh open_
  refine wp_within Calm (keeps_calm ?_) fun _ db' later => IsTrans.trans _ _ _ inserted later
  apply writes_bind links_transitionTask
  intro _
  apply writes_bind writes_throwIf
  exact fun _ => writes_bind writes_select fun _ => writes_orThrow

theorem links_updateApproval {id : String} {set : ApprovalRow → ApprovalRow}
    (key : ∀ row, (set row).id = row.id) (same : ∀ row, SameGate row (set row)) :
    Writes Links (updateApproval id set) := by
  apply writes_update
  intro view row member
  have found := Option.mem_toList.mp member
  refine ⟨row, ?_, same row⟩
  rw [key, Table.key_of_get? found]
  exact found

theorem links_relinkBlockers {prior : List ApprovalRow} {id now : String} :
    Writes Links (relinkBlockers prior id now) := by
  unfold relinkBlockers
  split
  · exact writes_done
  · apply writes_bind writes_selectForUpdate
    intro linked
    refine writes_bind (writes_forM fun b _ => ?_) fun _ => writes_done
    exact writes_bind (writes_update fun _ _ _ => trivial) fun _ => writes_done

theorem calm_requestExecutionApproval {taskId summary : String} {risk : Risk} :
    wp (requestExecutionApproval ctx taskId summary risk) (fun _ db' => Calm db db') db := by
  unfold requestExecutionApproval lockTask insertApproval
  rw [wp_bind, wp_throwIf]
  intro _
  rw [wp_bind, wp_selectForUpdate, wp_bind, wp_orThrow]
  intro task head
  have found : db.tasks.get? taskId = some task := by simpa using head
  rw [wp_bind, wp_throwIf]
  intro ready
  rw [wp_bind, wp_select, wp_bind, wp_generate]
  intro id
  rw [wp_bind, wp_nowIso]
  intro now
  have superseded : Writes Links (((gates taskId db).filter notSuperseded).forM fun approval => do
      let _ ← updateApproval approval.id (supersede now)) := by
    apply writes_forM
    intro approval _
    refine writes_bind (links_updateApproval ?_ ?_) fun _ => writes_done
    · intro row
      unfold supersede
      split <;> rfl
    · intro row
      unfold supersede
      split <;> exact ⟨rfl, rfl⟩
  apply wp_keeps (keeps_calm superseded)
  intro _ mid calm
  rw [wp_bind, wp_insert, Option.isSome_eq_false_iff, Option.isNone_iff_eq_none]
  intro fresh
  have open_ : ∀ t, db.tasks.get? taskId = some t → closedTask t = false := by
    intro t there
    rw [found] at there
    cases there
    have is : task.status = .ready := by simpa using ready
    simp [closedTask, is]
  have inserted := calm.insertApproval fresh open_
  refine wp_within Calm (keeps_calm ?_) fun _ db' later => IsTrans.trans _ _ _ inserted later
  apply writes_bind links_relinkBlockers
  intro _
  apply writes_bind links_logEvent
  exact fun _ => writes_bind writes_select fun _ => writes_orThrow

/-! ## Assignments -/

/-- The approvals and the runs. -/
def held (db : Database) : Table ApprovalRow.id × Table RunRow.id := (db.approvals, db.runs)

structure Tame (view : Database) (w : Write) : Prop where
  links : Links view w
  held : ∀ db, held (w.apply db) = held db

structure Steady (db db' : Database) : Prop where
  calm : Calm db db'
  held : held db' = held db

theorem keeps_steady {α : Type} {p : Txn α} (tame : Writes Tame p) : Keeps Steady p := by
  intro db
  have links : Writes Links p := tame.mono fun _ _ => Tame.links
  have same : Keeps (Same held) p := Writes.same (tame.mono fun _ _ => Tame.held)
  exact wp_mono (wp_and (keeps_calm links db) (same db)) fun _ _ both => ⟨both.1, both.2⟩

theorem tame_logEvent {spec : EventSpec} : Writes Tame (logEvent spec) :=
  writes_logEvent fun _ _ => ⟨trivial, fun _ => rfl⟩

theorem tame_transitionTask {taskId now : String} {source : TaskStatus} {trigger : TaskTrigger} :
    Keeps Steady (transitionTask taskId source trigger now) := by
  intro db
  have same : Keeps (Same held) (transitionTask taskId source trigger now) :=
    Writes.same (writes_transitionTask (fun _ _ _ => rfl) fun _ _ _ => rfl)
  exact wp_mono (wp_and (keeps_calm links_transitionTask db) (same db)) fun _ _ both =>
    ⟨both.1, both.2⟩

theorem tame_reserveKeys {params : ReserveParams} {now : String} {keys reserved : List String}
    {active : List LeaseRow} : Writes Tame (reserveKeys params now keys active reserved) := by
  induction keys generalizing active reserved with
  | nil => exact writes_done
  | cons path keys ih =>
    unfold reserveKeys
    split
    · exact ih
    · split
      · exact writes_fail
      · apply writes_bind writes_generate
        intro id
        apply writes_bind (writes_insert fun _ _ => ⟨trivial, fun _ => rfl⟩)
        intro _
        exact writes_bind tame_logEvent fun _ => ih

theorem tame_leaseKeys {paths keys : List String} : Writes Tame (leaseKeys ctx paths keys) := by
  induction paths generalizing keys with
  | nil => exact writes_done
  | cons raw paths ih =>
    unfold leaseKeys
    split
    · exact writes_fail
    · exact ih

theorem tame_reserveRunLeases {params : ReserveParams} :
    Writes Tame (reserveRunLeases ctx params) := by
  unfold reserveRunLeases
  split
  · exact writes_done
  · apply writes_bind writes_nowIso
    intro now
    apply writes_bind tame_leaseKeys
    intro keys
    apply writes_bind writes_select
    intro leases
    apply writes_bind
    · apply writes_forM
      intro l _
      split
      · apply writes_bind (writes_update fun _ _ _ => ⟨trivial, fun _ => rfl⟩)
        intro _
        exact writes_bind tame_logEvent fun _ => writes_done
      · exact writes_done
    · exact fun _ => tame_reserveKeys

theorem tame_startTurn {task : TaskRow} {turnId runId now : String} :
    Writes Tame (startTurn ctx task turnId runId now) := by
  unfold startTurn
  apply writes_bind (writes_update fun _ _ _ => ⟨trivial, fun _ => rfl⟩)
  intro _
  exact writes_bind tame_logEvent fun _ => writes_done

/-- The gate that lets the assignment pass. -/
def Granted (db : Database) (taskId : String) : Prop :=
  Gated db taskId → ∃ gate ∈ gates taskId db, grantsExecution gate = true

theorem wp_granted {taskId : String} :
    wp (assertExecutionApprovalGranted taskId) (fun _ db' => db' = db ∧ Granted db taskId) db := by
  unfold assertExecutionApprovalGranted
  rw [wp_bind, wp_select, wp_throwIf]
  intro passes
  refine ⟨rfl, ?_⟩
  rintro ⟨a, there, of, gate⟩
  have among : a ∈ gates taskId db := by
    unfold gates
    rw [Table.mem_select]
    exact ⟨there, by rw [of, beq_self_eq_true, Bool.true_and]; exact gate⟩
  rw [Bool.or_eq_false_iff, Bool.and_eq_false_iff, List.any_eq_false] at passes
  obtain ⟨single, all⟩ := passes
  rcases single with empty | one
  · rw [Bool.not_eq_eq_eq_not, Bool.not_false, List.isEmpty_iff] at empty
    rw [empty] at among
    cases among
  · have one := by simpa using one
    obtain ⟨gate, is⟩ := List.length_eq_one_iff.mp one
    have current : gate ∈ (gates taskId db).filter notSuperseded := by
      rw [is]
      exact List.mem_singleton.mpr rfl
    exact ⟨gate, List.mem_of_mem_filter current, by simpa using all gate current⟩

theorem wp_assertGranted {services : AssignServices} {task : TaskRow} {req : AssignRequest}
    {assistantTurnId : Option String} :
    wp (assertAssignable services task req assistantTurnId)
      (fun _ db' => db' = db ∧ Granted db task.id) db := by
  have same : Keeps Eq (assertAssignable services task req assistantTurnId) :=
    reads_assertAssignable.keeps
  refine wp_mono (wp_and (same db) ?_) fun _ _ (both : _ ∧ Granted db task.id) =>
    ⟨both.1.symm, both.2⟩
  unfold assertAssignable
  rw [wp_bind, wp_throwIf]
  intro _
  have rest : ∀ last : Txn (List String), wp (do
      let policyTask ← resolveExecutionPolicyTask task
      refuse (services.executionRefused policyTask)
      let unconfirmed ← unconfirmedDisconnectRunIds fun r _ => r.taskId == task.id
      throwIf (!unconfirmed.isEmpty) (.app (.conflict
        "execution node has not confirmed the previous process stopped; reconnect it before assigning this task again"))
      refuse (services.controlsRefused policyTask)
      assertInheritedApprovalRequired task policyTask
      assertExecutionApprovalGranted task.id
      last) (fun _ _ => Granted db task.id) db := by
    intro last
    apply Reads.wp_bind reads_followPolicy
    intro policyTask
    apply Reads.wp_bind reads_refuse
    intro _
    apply Reads.wp_bind reads_unconfirmed
    intro unconfirmed
    apply Reads.wp_bind writes_throwIf
    intro _
    apply Reads.wp_bind reads_refuse
    intro _
    apply Reads.wp_bind reads_assertInheritedApprovalRequired
    intro _
    apply wp_seq wp_granted
    rintro _ _ ⟨rfl, granted⟩
    exact wp_mono wp_trivial fun _ _ _ => granted
  cases assistantTurnId with
  | none => exact rest _
  | some turnId =>
    apply Reads.wp_bind reads_claimTurn
    exact fun _ => rest _

theorem approvals_writeAll (rows : List ApprovalRow) (db : Database) :
    (writeAll (rows.map Write.approval) db).approvals = rows.foldl Table.put db.approvals ∧
      (writeAll (rows.map Write.approval) db).runs = db.runs := by
  induction rows generalizing db with
  | nil => exact ⟨rfl, rfl⟩
  | cons row rows ih =>
    obtain ⟨approvals, runs⟩ := ih { db with approvals := db.approvals.put row }
    exact ⟨approvals, runs⟩

theorem wp_bound {taskId runId : String} :
    wp (bindExecutionApprovalToRun taskId runId) (fun _ db' => db'.runs = db.runs ∧
      ∀ gate ∈ approvedGates taskId db,
        db'.approvals.get? gate.id = some { gate with runId := some runId }) db := by
  unfold bindExecutionApprovalToRun
  rw [wp_bind, wp_update]
  let set : ApprovalRow → ApprovalRow := fun row => { row with runId := some runId }
  have split : (approvedGates taskId db).map (fun row => Write.approval (set row)) =
      ((approvedGates taskId db).map set).map Write.approval := by
    rw [List.map_map]
    rfl
  obtain ⟨approvals, runs⟩ := approvals_writeAll ((approvedGates taskId db).map set) db
  change (writeAll ((approvedGates taskId db).map fun row => Write.approval (set row)) db).runs = _ ∧
    ∀ gate ∈ _, (writeAll ((approvedGates taskId db).map fun row =>
      Write.approval (set row)) db).approvals.get? gate.id = some (set gate)
  rw [split]
  refine ⟨runs, ?_⟩
  intro gate among
  have apart : (((approvedGates taskId db).map set).map ApprovalRow.id).Nodup := by
    rw [List.map_map]
    have all : ((gates taskId db).map ApprovalRow.id).Nodup := Table.nodup_select
    exact all.sublist (List.filter_sublist.map _)
  rw [approvals]
  change Table.get? _ (set gate).id = some (set gate)
  exact Table.get?_of_mem ((Table.mem_putAll apart).mpr (.inl (List.mem_map_of_mem among)))

theorem links_bind {taskId runId : String} :
    Writes Links (bindExecutionApprovalToRun taskId runId) := by
  refine writes_bind (writes_update ?_) fun _ => writes_done
  intro view row among
  have there := (Table.mem_select.mp (List.mem_of_mem_filter among)).1
  exact ⟨row, Table.get?_of_mem there, rfl, rfl⟩

/-- The run takes the gate of its task. -/
def Taken (db db' : Database) : Prop :=
  ∀ run ∈ db'.runs, db.runs.get? run.id = none → Gated db run.taskId →
    ∃ gate ∈ db.approvals, gate.taskId = run.taskId ∧ isGate gate = true ∧
      grantsExecution gate = true ∧
      db'.approvals.get? gate.id = some { gate with runId := some run.id }

structure Assigns (db db' : Database) : Prop extends Carries db db' where
  fresh : ∀ id row, db'.tasks.get? id = some row → db.tasks.get? id = none →
    row.executionPolicyTaskId = none
  taken : Taken db db'

theorem wp_assigns {services : AssignServices} {taskId : String} {req : AssignRequest}
    {assistantTurnId : Option String} :
    wp (assignTask ctx services taskId req assistantTurnId) (fun _ db' => Assigns db db') db := by
  unfold assignTask lockTask insertRun
  rw [wp_bind, wp_nowIso]
  intro now
  apply Reads.wp_bind reads_refuse
  intro _
  rw [wp_bind, wp_selectForUpdate, wp_bind, wp_orThrow]
  intro task head
  have found : db.tasks.get? taskId = some task := by simpa using head
  apply wp_seq wp_assertGranted
  rintro paths _ ⟨rfl, granted⟩
  rw [Table.key_of_get? found] at granted
  apply Reads.wp_bind reads_ofExcept
  intro selected
  apply Reads.wp_bind reads_lockInstance
  intro _
  apply Reads.wp_bind reads_refuse
  intro _
  rw [wp_bind, wp_generate]
  intro decisionId
  rw [wp_bind, wp_generate]
  intro runId
  apply wp_keeps tame_transitionTask
  intro transition moved (first : Steady _ moved)
  rw [wp_bind, wp_throwIf]
  intro _
  apply Reads.wp_bind reads_ofExcept
  intro workspaceRoot
  apply Reads.wp_bind reads_refuse
  intro _
  rw [wp_bind, wp_insert, Option.isSome_eq_false_iff, Option.isNone_iff_eq_none]
  intro unused
  apply wp_seq (wp_and (keeps_calm links_bind _) wp_bound)
  rintro _ bound ⟨calm, runs, gates⟩
  have finish : Writes Tame (do
      let _ ← reserveRunLeases ctx { taskId, runId, projectId := task.projectId, paths }
      let _ ← update (fun db => (db.tasks.get? taskId).toList) fun row =>
        .task { row with assigneeId := selected.agentId, updatedAt := now }
      let _ ← logEvent (assignedEvent task selected runId decisionId)
      let stored ← select (·.runs.get? runId)
      orThrow stored (.error "assignTask: run missing after insert")) := by
    apply writes_bind tame_reserveRunLeases
    intro _
    have assigned : ∀ view : Database, ∀ row ∈ (view.tasks.get? taskId).toList,
        Tame view (.task { row with assigneeId := selected.agentId, updatedAt := now }) := by
      intro view row member
      have there := Option.mem_toList.mp member
      refine ⟨⟨row, ?_, rfl, rfl, rfl, rfl, fun closed => closed⟩, fun _ => rfl⟩
      change view.tasks.get? row.id = some row
      rw [Table.key_of_get? there]
      exact there
    apply writes_bind (writes_update assigned)
    intro _
    apply writes_bind tame_logEvent
    exact fun _ => writes_bind writes_select fun _ => writes_orThrow
  refine wp_mono ((keeps_steady ?_ : Keeps Steady _) bound)
    fun _ db' (rest : Steady bound db') => ?_
  · cases assistantTurnId with
    | none => exact finish
    | some turnId => exact writes_bind tame_startTurn fun _ => finish
  have bind : Carries moved bound := ⟨calm.tasks, calm.approvals, calm.opened⟩
  have after : Carries moved db' := bind.trans rest.calm.toCarries
  have freshAfter : ∀ id row, db'.tasks.get? id = some row → moved.tasks.get? id = none →
      row.executionPolicyTaskId = none :=
    (rest.calm.toCarries).fresh calm.fresh rest.calm.fresh
  refine ⟨first.calm.toCarries.trans after, after.fresh first.calm.fresh freshAfter, ?_⟩
  obtain ⟨movedApprovals, movedRuns⟩ := Prod.mk.inj first.held
  obtain ⟨restApprovals, restRuns⟩ := Prod.mk.inj rest.held
  intro run among absent gated
  rw [restRuns, runs] at among
  rcases Table.mem_put.mp among with rfl | ⟨before, -⟩
  · obtain ⟨gate, there, grants⟩ := granted gated
    obtain ⟨stored, of⟩ := Table.mem_select.mp there
    rw [Bool.and_eq_true, beq_iff_eq] at of
    refine ⟨gate, stored, of.1, of.2, grants, ?_⟩
    rw [restApprovals]
    apply gates gate
    have passes : (gate.status == .approved && gate.payloadRef == some .current) = true := by
      unfold grantsExecution at grants
      rw [Bool.and_eq_true, Bool.and_eq_true] at grants
      rw [Bool.and_eq_true]
      exact ⟨grants.1.2, grants.1.1⟩
    unfold approvedGates
    apply List.mem_filter.mpr
    refine ⟨?_, passes⟩
    change gate ∈ moved.approvals.select _
    rw [movedApprovals]
    exact there
  · rw [movedRuns] at before
    rw [Table.get?_of_mem before] at absent
    cases absent

/-! ## Follow-ups -/

/-- A follow-up, the task it follows, and the first task of its chain. -/
structure Follows (db : Database) (t : TaskRow) (policyTaskId : String) (parent root : TaskRow) :
    Prop where
  parentTaskId : t.parentTaskId = some parent.id
  parentRow : db.tasks.get? parent.id = some parent
  rootRow : db.tasks.get? policyTaskId = some root
  first : root.executionPolicyTaskId = none
  direct : parent.executionPolicyTaskId = some policyTaskId ∨ parent = root
  closed : closedTask parent = true ∧ closedTask root = true
  projectId : parent.projectId = t.projectId ∧ root.projectId = t.projectId
  goalId : parent.goalId = t.goalId ∧ root.goalId = t.goalId

/-- Each follow-up has a gate where the task it follows or the first of its chain has one. -/
def Inherits (db : Database) : Prop :=
  ∀ id t policyTaskId, db.tasks.get? id = some t → t.executionPolicyTaskId = some policyTaskId →
    ∃ parent root, Follows db t policyTaskId parent root ∧
      (Gated db parent.id ∨ Gated db policyTaskId → Gated db t.id)

theorem Follows.later {db' : Database} {t t' parent root : TaskRow} {policyTaskId : String}
    (follows : Follows db t policyTaskId parent root) (carries : Carries db db')
    (same : SameLinks t t') : ∃ parent' root', Follows db' t' policyTaskId parent' root' ∧
      parent'.id = parent.id := by
  obtain ⟨parent', parentFound, parentSame⟩ := carries.tasks _ _ follows.parentRow
  obtain ⟨root', rootFound, rootSame⟩ := carries.tasks _ _ follows.rootRow
  have key := Table.key_of_get? parentFound
  refine ⟨parent', root', ?_, key⟩
  constructor
  · rw [same.parentTaskId, follows.parentTaskId, key]
  · rw [key]
    exact parentFound
  · exact rootFound
  · rw [rootSame.executionPolicyTaskId]
    exact follows.first
  · rcases follows.direct with direct | is
    · left
      rw [parentSame.executionPolicyTaskId]
      exact direct
    · right
      have rootKey := Table.key_of_get? follows.rootRow
      rw [is, rootKey, rootFound] at parentFound
      exact (Option.some.inj parentFound).symm
  · exact ⟨parentSame.closed follows.closed.1, rootSame.closed follows.closed.2⟩
  · rw [parentSame.projectId, rootSame.projectId, same.projectId]
    exact follows.projectId
  · rw [parentSame.goalId, rootSame.goalId, same.goalId]
    exact follows.goalId

/-- A closed task is given no gate. -/
theorem Carries.gated_closed {db' : Database} (carries : Carries db db') {id : String}
    {row : TaskRow} (found : db.tasks.get? id = some row) (closed : closedTask row = true)
    (gated : Gated db' id) : Gated db id := by
  rcases carries.opened id gated with before | open_
  · exact before
  · have off := open_ row found
    rw [closed] at off
    cases off

theorem Inherits.later {db' : Database} (inherits : Inherits db) (carries : Carries db db')
    (new : ∀ id t policyTaskId, db'.tasks.get? id = some t → db.tasks.get? id = none →
      t.executionPolicyTaskId = some policyTaskId → ∃ parent root,
        Follows db' t policyTaskId parent root ∧
          (Gated db' parent.id ∨ Gated db' policyTaskId → Gated db' t.id)) : Inherits db' := by
  intro id t' policyTaskId found policy
  cases before : db.tasks.get? id with
  | none => exact new id t' policyTaskId found before policy
  | some t =>
    obtain ⟨t'', found', same⟩ := carries.tasks id t before
    rw [found] at found'
    cases found'
    rw [same.executionPolicyTaskId] at policy
    obtain ⟨parent, root, follows, gates⟩ := inherits id t policyTaskId before policy
    obtain ⟨parent', root', follows', key⟩ := follows.later carries same
    refine ⟨parent', root', follows', fun gated => ?_⟩
    rw [Table.key_of_get? found, ← Table.key_of_get? before]
    apply carries.gated
    apply gates
    rw [key] at gated
    rcases gated with ofParent | ofRoot
    · exact .inl (carries.gated_closed follows.parentRow follows.closed.1 ofParent)
    · exact .inr (carries.gated_closed follows.rootRow follows.closed.2 ofRoot)

theorem Inherits.calm {db' : Database} (inherits : Inherits db) (calm : Calm db db') :
    Inherits db' := by
  apply inherits.later calm.toCarries
  intro id t policyTaskId found absent policy
  rw [calm.fresh id t found absent] at policy
  cases policy

/-- The first task of a chain. -/
structure Roots (db : Database) (t root : TaskRow) : Prop where
  found : db.tasks.get? root.id = some root
  first : root.executionPolicyTaskId = none
  direct : t.executionPolicyTaskId = some root.id ∨ t = root
  closed : closedTask t = true → closedTask root = true
  projectId : root.projectId = t.projectId
  goalId : root.goalId = t.goalId

theorem Inherits.roots (inherits : Inherits db) {id : String} {t : TaskRow}
    (found : db.tasks.get? id = some t) : ∃ root, Roots db t root := by
  cases policy : t.executionPolicyTaskId with
  | none =>
    refine ⟨t, ?_, policy, .inr rfl, fun closed => closed, rfl, rfl⟩
    rw [Table.key_of_get? found]
    exact found
  | some policyTaskId =>
    obtain ⟨parent, root, follows, -⟩ := inherits id t policyTaskId found policy
    have key := Table.key_of_get? follows.rootRow
    refine ⟨root, ?_, follows.first, ?_, fun _ => follows.closed.2, follows.projectId.2,
      follows.goalId.2⟩
    · rw [key]
      exact follows.rootRow
    · rw [key]
      exact .inl policy

/-- What `resolveExecutionPolicyTask` returns. -/
def Resolves (db : Database) (t root : TaskRow) : Prop :=
  ∀ input n, Tx.run input (resolveExecutionPolicyTask t) n db = .ok (root, db, n)

theorem followPolicy_first {task root : TaskRow} {links : ℕ} {visited : List String}
    (first : root.executionPolicyTaskId = none) :
    followPolicy task links visited root = .done root := by
  unfold followPolicy
  rw [first]

theorem Roots.resolves {t root : TaskRow} (roots : Roots db t root) : Resolves db t root := by
  intro input n
  unfold resolveExecutionPolicyTask
  rcases roots.direct with direct | rfl
  · unfold followPolicy
    rw [direct]
    dsimp only
    rw [if_neg (by simp), run_select, run_seq (run_orThrow roots.found), run_seq (run_throwIf ?_),
      followPolicy_first roots.first]
    · rfl
    · rw [roots.projectId, roots.goalId]
      simp
  · rw [followPolicy_first roots.first]
    rfl

theorem Roots.wp_resolve {t root : TaskRow} (roots : Roots db t root) :
    wp (resolveExecutionPolicyTask t) (fun policyTask db' => policyTask = root ∧ db' = db) db := by
  unfold resolveExecutionPolicyTask
  rcases roots.direct with direct | rfl
  · unfold followPolicy
    rw [direct]
    dsimp only
    rw [if_neg (by simp), wp_bind, wp_select, wp_bind, wp_orThrow]
    intro parent found
    rw [roots.found] at found
    cases found
    rw [wp_bind, wp_throwIf]
    intro _
    rw [followPolicy_first roots.first]
    exact ⟨rfl, rfl⟩
  · rw [followPolicy_first roots.first]
    exact ⟨rfl, rfl⟩

theorem foldl_isSome {α β : Type} {f : Option β → α → Option β}
    (kept : ∀ best a, best.isSome = true → (f best a).isSome = true) {best : Option β}
    (is : best.isSome = true) (l : List α) : (l.foldl f best).isSome = true := by
  induction l generalizing best with
  | nil => exact is
  | cons a l ih => exact ih (kept best a is)

theorem latestApproval_isSome {rows : List ApprovalRow} {a : ApprovalRow} (among : a ∈ rows) :
    (latestApproval rows).isSome = true := by
  unfold latestApproval
  cases rows with
  | nil => cases among
  | cons row rows =>
    refine foldl_isSome ?_ rfl rows
    intro best row is
    cases best with
    | none => cases is
    | some b =>
      dsimp only
      split <;> rfl

/-- The gate of a follow-up whose sources have one. -/
theorem wp_inheritGates {view : Database} {row : TaskRow} {sources : List String}
    {body now : String} (calm : Calm view db)
    (open_ : ∀ t, view.tasks.get? row.id = some t → closedTask t = false) :
    wp (do
      let inherited ← select fun db =>
        db.approvals.select fun a => sources.contains a.taskId && isGate a
      match latestApproval inherited with
      | none => return row
      | some prior =>
        let approvalId ← generate
        let summary := String.ofList (("Review follow-up execution: " ++ body).toList.take 4000)
        insertApproval (newGate ctx approvalId row.id summary prior.risk now)
        let _ ← logEvent (gateRequested ctx row (gatePayload approvalId summary prior.risk))
        return row)
      (fun _ db' => Calm view db' ∧ ∀ source ∈ sources, Gated db' source → Gated db' row.id) db := by
  rw [wp_bind, wp_select]
  cases latest : latestApproval _ with
  | none =>
    refine ⟨calm, ?_⟩
    rintro source among ⟨a, there, rfl, gate⟩
    have inherited : a ∈ db.approvals.select fun a => sources.contains a.taskId && isGate a := by
      rw [Table.mem_select]
      exact ⟨there, by rw [List.contains_iff_mem.mpr among, Bool.true_and]; exact gate⟩
    have off := latestApproval_isSome inherited
    rw [latest] at off
    cases off
  | some prior =>
    dsimp only
    rw [wp_bind, wp_generate]
    intro approvalId
    unfold insertApproval
    rw [wp_bind, wp_insert, Option.isSome_eq_false_iff, Option.isNone_iff_eq_none]
    intro fresh
    have inserted := calm.insertApproval fresh open_
    refine wp_within Calm (keeps_calm (writes_bind links_logEvent fun _ => writes_done)) ?_
    intro _ db' later
    refine ⟨IsTrans.trans _ _ _ inserted later, fun _ _ _ => ?_⟩
    apply later.toCarries.gated
    exact ⟨_, Table.mem_put.mpr (.inl rfl), rfl, rfl⟩

/-- A room has the project of its tasks, and their goal if it has one. -/
def Fits (room : Conversation) (db : Database) : Prop :=
  ∀ original, room.taskId.bind db.tasks.get? = some original →
    original.projectId = room.projectId ∧ ∀ goalId, room.goalId = some goalId →
      original.goalId = some goalId

structure Enqueues (db db' : Database) : Prop extends Carries db db' where
  runs : ∀ id, db.runs.get? id = none → db'.runs.get? id = none
  inherits : Inherits db'

theorem Enqueues.calm {db' db'' : Database} (first : Enqueues db db') (calm : Calm db' db'') :
    Enqueues db db'' :=
  ⟨first.toCarries.trans calm.toCarries, fun id none => calm.runs id (first.runs id none),
    first.inherits.calm calm⟩

/-- The row of the follow-up is inserted. -/
theorem inserted_row {mid : Database} {row t : TaskRow} {id policyTaskId : String}
    (calm : Calm { db with tasks := db.tasks.put row } mid) (found : mid.tasks.get? id = some t)
    (absent : db.tasks.get? id = none) (policy : t.executionPolicyTaskId = some policyTaskId) :
    SameLinks row t ∧ t.id = row.id := by
  cases there : (db.tasks.put row).get? id with
  | none =>
    rw [calm.fresh id t found there] at policy
    cases policy
  | some t₁ =>
    obtain ⟨t₂, found', same⟩ := calm.tasks id t₁ there
    rw [found] at found'
    cases found'
    rw [Table.get?_put] at there
    split at there
    · rename_i is
      cases there
      exact ⟨same, (Table.key_of_get? found).trans is.symm⟩
    · rw [absent] at there
      cases there

theorem wp_enqueuesFollowUp {room : Conversation} {original : Option TaskRow} {body now : String}
    (inherits : Inherits db)
    (closed : ∀ p, original = some p → db.tasks.get? p.id = some p ∧ closedTask p = true)
    (fits : ∀ p, original = some p → p.projectId = room.projectId ∧
      ∀ goalId, room.goalId = some goalId → p.goalId = some goalId) :
    wp (followUpTask ctx room original body now) (fun _ db' => Enqueues db db') db := by
  unfold followUpTask
  have policy : wp (original.mapM resolveExecutionPolicyTask) (fun policyTask db' =>
      db' = db ∧ ∀ root, policyTask = some root → ∃ p, original = some p ∧ Roots db p root) db := by
    cases original with
    | none => exact ⟨rfl, fun _ off => by cases off⟩
    | some p =>
      obtain ⟨root, roots⟩ := inherits.roots (closed p rfl).1
      change wp (resolveExecutionPolicyTask p >>= fun root => pure (some root)) _ db
      apply wp_seq roots.wp_resolve
      rintro _ _ ⟨rfl, rfl⟩
      refine ⟨rfl, ?_⟩
      rintro _ is
      cases is
      exact ⟨p, rfl, roots⟩
  apply wp_seq policy
  rintro policyTask _ ⟨rfl, rooted⟩
  rename_i db
  rw [wp_bind, wp_generate]
  intro id
  rw [wp_bind, wp_insertTask]
  intro fresh
  apply wp_keeps (keeps_calm links_logEvent)
  intro _ mid logged
  apply wp_mono (wp_inheritGates logged ?_)
  swap
  · intro t there
    change (db.tasks.put _).get? id = some t at there
    rw [Table.get?_put, if_pos rfl] at there
    cases there
    rfl
  rintro _ db' ⟨calm, gates⟩
  have carries := ((Carries.refl db).insertTask fresh).trans calm.toCarries
  refine ⟨carries, calm.runs, inherits.later carries ?_⟩
  intro id' t policyTaskId found absent policyIs
  obtain ⟨same, key⟩ := inserted_row calm found absent policyIs
  have ofRow := same.executionPolicyTaskId.symm.trans policyIs
  obtain ⟨root, is, rfl⟩ := Option.map_eq_some_iff.mp ofRow
  obtain ⟨p, rfl, roots⟩ := rooted root is
  obtain ⟨there, closedP⟩ := closed p rfl
  obtain ⟨project, goal⟩ := fits p rfl
  have goalIs : (room.goalId <|> p.goalId) = p.goalId := by
    cases inRoom : room.goalId with
    | none => rfl
    | some goalId =>
      rw [goal goalId inRoom]
      rfl
  have before : Follows db t root.id p root := by
    constructor
    · exact same.parentTaskId
    · exact there
    · exact roots.found
    · exact roots.first
    · exact roots.direct
    · exact ⟨closedP, roots.closed closedP⟩
    · rw [roots.projectId, same.projectId]
      exact ⟨project, project⟩
    · rw [roots.goalId, same.goalId]
      exact ⟨goalIs.symm, goalIs.symm⟩
  obtain ⟨parent, root', follows, parentKey⟩ := before.later carries (.refl t)
  refine ⟨parent, root', follows, ?_⟩
  rw [parentKey, key, is]
  rintro (gated | gated)
  · exact gates p.id (by simp) gated
  · exact gates root.id (by simp [is]) gated

theorem wp_enqueues {room : Conversation} {threadRootId : Option String} {body : String}
    (inherits : Inherits db) (fits : Fits room db) :
    wp (enqueueAssistantTurn ctx room threadRootId body) (fun _ db' => Enqueues db db') db := by
  unfold enqueueAssistantTurn
  apply Reads.wp_bind reads_refuse
  intro _
  rw [wp_bind, wp_select, wp_bind, wp_nowIso]
  intro now
  have finish : ∀ task : TaskRow, Keeps Calm (do
      let id ← generate
      let messageId ← generate
      insertMessage
        { id := messageId, roomId := room.roomId, taskId := task.id, runId := none, threadRootId,
          actorType := .user, actorId := ctx.actorUserId, kind := "text", body,
          payload := [("assistant_turn_id", .str id), ("intent", .str "assistant")], createdAt := now }
      let turn : TurnRow :=
        { id, roomId := room.roomId, threadRootId, taskId := task.id, responseMessageId := none,
          runId := none, status := .queued, error := none, updatedAt := now }
      insert (fun db => (db.turns.get? id).isSome) (.turn turn)
      let _ ← logEvent
        { type := .messageCreated, actorType := .user, actorId := ctx.actorUserId, correlationId := id,
          projectId := room.projectId, taskId := task.id, roomId := room.roomId,
          payload := [("message_id", .str messageId), ("kind", .str "text")] }
      return turn) := by
    intro task
    apply keeps_calm
    apply writes_bind writes_generate
    intro id
    apply writes_bind writes_generate
    intro messageId
    apply writes_bind (writes_insert fun _ _ => trivial)
    intro _
    apply writes_bind (writes_insert fun _ _ => trivial)
    intro _
    exact writes_bind links_logEvent fun _ => writes_done
  dsimp only
  split
  · refine wp_within Calm (finish _) fun _ db' calm => ?_
    exact ⟨calm.toCarries, calm.runs, inherits.calm calm⟩
  · rename_i none_
    have closed : ∀ p, room.taskId.bind db.tasks.get? = some p →
        db.tasks.get? p.id = some p ∧ closedTask p = true := by
      intro p is
      constructor
      · obtain ⟨id, -, found⟩ := Option.bind_eq_some_iff.mp is
        rw [Table.key_of_get? found]
        exact found
      · rw [is, Option.filter_some] at none_
        cases closed : closedTask p with
        | true => rfl
        | false =>
          rw [closed] at none_
          cases none_
    apply wp_seq (wp_enqueuesFollowUp inherits closed fits)
    intro task opened enqueues
    exact wp_within Calm (finish task) fun _ db' calm => enqueues.calm calm

end Calls

/-! ## Chains -/

section Chains

variable {db db' : Database} {p q t root : TaskRow}

/-- The task that a follow-up follows. -/
def Source (db : Database) (p t : TaskRow) : Prop :=
  db.tasks.get? p.id = some p ∧ db.tasks.get? t.id = some t ∧
    t.executionPolicyTaskId.isSome = true ∧ t.parentTaskId = some p.id

/-- An earlier task of the chain. -/
def Earlier (db : Database) : TaskRow → TaskRow → Prop := Relation.TransGen (Source db)

/-- The root of a chain, for a task before the end of it and for the end. -/
structure Shares (db : Database) (p t root : TaskRow) : Prop where
  first : root.executionPolicyTaskId = none
  projectId : root.projectId = t.projectId ∧ p.projectId = t.projectId
  goalId : root.goalId = t.goalId ∧ p.goalId = t.goalId
  earlier : Resolves db p root
  later : Resolves db t root

theorem Resolves.unique {root' : TaskRow} (one : Resolves db t root) (other : Resolves db t root') :
    root = root' := by
  have same := (one (fun _ => "") 0).symm.trans (other (fun _ => "") 0)
  cases same
  rfl

theorem Inherits.source (inherits : Inherits db) (source : Source db p t) :
    (∃ root, Shares db p t root) ∧ (Gated db p.id → Gated db t.id) := by
  obtain ⟨foundP, foundT, some_, parentIs⟩ := source
  obtain ⟨policyTaskId, policy⟩ := Option.isSome_iff_exists.mp some_
  obtain ⟨parent, root, follows, gates⟩ := inherits t.id t policyTaskId foundT policy
  have key := Option.some.inj (parentIs.symm.trans follows.parentTaskId)
  have is : parent = p := by
    have there := follows.parentRow
    rw [← key, foundP] at there
    exact (Option.some.inj there).symm
  subst is
  have rootKey := Table.key_of_get? follows.rootRow
  have rootThere : db.tasks.get? root.id = some root := by
    rw [rootKey]
    exact follows.rootRow
  constructor
  · refine ⟨root, follows.first, ⟨follows.projectId.2, follows.projectId.1⟩,
      ⟨follows.goalId.2, follows.goalId.1⟩, ?_, ?_⟩
    · refine Roots.resolves ⟨rootThere, follows.first, ?_, fun _ => follows.closed.2, ?_, ?_⟩
      · rw [rootKey]
        exact follows.direct
      · exact follows.projectId.2.trans follows.projectId.1.symm
      · exact follows.goalId.2.trans follows.goalId.1.symm
    · refine Roots.resolves ⟨rootThere, follows.first, ?_, fun _ => follows.closed.2,
        follows.projectId.2, follows.goalId.2⟩
      rw [rootKey]
      exact .inl policy
  · exact fun gated => gates (.inl gated)

/-- By induction on the chain, from its end. -/
theorem Inherits.earlier (inherits : Inherits db) (earlier : Earlier db p t) :
    (∃ root, Shares db p t root) ∧ (Gated db p.id → Gated db t.id) := by
  induction earlier with
  | single source => exact inherits.source source
  | tail _ source ih =>
    obtain ⟨⟨root, first⟩, gates⟩ := ih
    obtain ⟨⟨root', last⟩, gates'⟩ := inherits.source source
    have same := first.later.unique last.earlier
    subst same
    refine ⟨⟨root, last.first, ⟨last.projectId.1, first.projectId.2.trans last.projectId.2⟩,
      ⟨last.goalId.1, first.goalId.2.trans last.goalId.2⟩, first.earlier, last.later⟩, ?_⟩
    exact fun gated => gates' (gates gated)

/-- The links lead to the root, in the project and goal of the task. -/
inductive Reaches (db : Database) (task : TaskRow) : ℕ → TaskRow → TaskRow → Prop where
  | here {root : TaskRow} : root.executionPolicyTaskId = none → Reaches db task 0 root root
  | next {links : ℕ} {current parent root : TaskRow} {parentId : String} :
      current.executionPolicyTaskId = some parentId → db.tasks.get? parentId = some parent →
      parent.projectId = task.projectId → parent.goalId = task.goalId →
      Reaches db task links parent root → Reaches db task (links + 1) current root

theorem followPolicy_returns (db : Database) (task current : TaskRow) (links : ℕ)
    (visited : List String) (input : ℕ → String) (n : ℕ) :
    (∃ root, ∃ k ≤ links, Reaches db task k current root ∧
        Tx.run input (followPolicy task links visited current) n db = .ok (root, db, n)) ∨
      ∃ message, Tx.run input (followPolicy task links visited current) n db =
        .error (.app (.validation message)) := by
  induction links generalizing visited current with
  | zero =>
    cases policy : current.executionPolicyTaskId with
    | none =>
      rw [followPolicy_first policy]
      exact .inl ⟨current, 0, Nat.le_refl 0, .here policy, rfl⟩
    | some parentId =>
      unfold followPolicy
      rw [policy]
      exact .inr ⟨_, rfl⟩
  | succ links ih =>
    cases policy : current.executionPolicyTaskId with
    | none =>
      rw [followPolicy_first policy]
      exact .inl ⟨current, 0, Nat.zero_le _, .here policy, rfl⟩
    | some parentId =>
      unfold followPolicy
      rw [policy]
      dsimp only
      split
      · exact .inr ⟨_, rfl⟩
      · rw [run_select]
        cases found : db.tasks.get? parentId with
        | none => exact .inr ⟨_, rfl⟩
        | some parent =>
          rw [run_seq (run_orThrow rfl)]
          cases mismatch : parent.projectId != task.projectId || parent.goalId != task.goalId with
          | true => exact .inr ⟨_, rfl⟩
          | false =>
            rw [run_seq (run_throwIf rfl)]
            rw [Bool.or_eq_false_iff, bne_eq_false_iff_eq, bne_eq_false_iff_eq] at mismatch
            rcases ih parent (current.id :: visited) with ⟨root, k, le, reaches, is⟩ | rejected
            · exact .inl ⟨root, k + 1, Nat.succ_le_succ le,
                .next policy found mismatch.1 mismatch.2 reaches, is⟩
            · exact .inr rejected

end Chains

/-! ## Runs -/

/-- The calls on tasks and gates, and any other transaction that changes no link of them. -/
inductive PolicyOp where
  | createTask (req : CreateTaskRequest)
  | enqueueAssistantTurn (room : Conversation) (threadRootId : Option String) (body : String)
  | assignTask (services : AssignServices) (taskId : String) (req : AssignRequest)
      (assistantTurnId : Option String)
  | requestApproval (params : RequestApprovalParams)
  | requestExecutionApproval (taskId summary : String) (risk : Risk)
  | other (p : Txn Unit) (links : Writes Links p)

structure PolicyCall where
  ctx : Context
  op : PolicyOp
  input : ℕ → String

def PolicyCall.program (call : PolicyCall) : Txn Unit :=
  match call.op with
  | .createTask req => do
    let _ ← createTask call.ctx req
  | .enqueueAssistantTurn room threadRootId body => do
    let _ ← enqueueAssistantTurn call.ctx room threadRootId body
  | .assignTask services taskId req assistantTurnId => do
    let _ ← assignTask call.ctx services taskId req assistantTurnId
  | .requestApproval params => do
    let _ ← requestApproval params
  | .requestExecutionApproval taskId summary risk => do
    let _ ← requestExecutionApproval call.ctx taskId summary risk
  | .other p _ => p

def PolicyCall.Fits (call : PolicyCall) (db : Database) : Prop :=
  match call.op with
  | .enqueueAssistantTurn room _ _ => FollowUp.Fits room db
  | _ => True

def PolicyStep (call : PolicyCall) (db db' : Database) : Prop :=
  call.Fits db ∧ (call.program.execute call.input db).2 = db'

structure Served (db db' : Database) : Prop extends Carries db db' where
  inherits : Inherits db'
  taken : Taken db db'

section Runs

variable {db db' : Database} {call : PolicyCall}

theorem taken_of_runs (runs : ∀ id, db.runs.get? id = none → db'.runs.get? id = none) :
    Taken db db' := by
  intro run among absent
  have found := Table.get?_of_mem among
  rw [runs run.id absent] at found
  cases found

theorem Calm.served (calm : Calm db db') (inherits : Inherits db) : Served db db' :=
  ⟨calm.toCarries, inherits.calm calm, taken_of_runs calm.runs⟩

theorem wp_policyCall (inherits : Inherits db) (fits : call.Fits db) :
    wp call.program (fun _ db' => Served db db') db := by
  obtain ⟨ctx, op, input⟩ := call
  cases op with
  | createTask req => exact wp_seq calm_createTask fun _ _ calm => calm.served inherits
  | enqueueAssistantTurn room threadRootId body =>
    apply wp_seq (wp_enqueues inherits fits)
    intro _ db' enqueues
    exact ⟨enqueues.toCarries, enqueues.inherits, taken_of_runs enqueues.runs⟩
  | assignTask services taskId req assistantTurnId =>
    apply wp_seq wp_assigns
    intro _ db' assigns
    refine ⟨assigns.toCarries, inherits.later assigns.toCarries ?_, assigns.taken⟩
    intro id t policyTaskId found absent policy
    rw [assigns.fresh id t found absent] at policy
    cases policy
  | requestApproval params => exact wp_seq calm_requestApproval fun _ _ calm => calm.served inherits
  | requestExecutionApproval taskId summary risk =>
    exact wp_seq calm_requestExecutionApproval fun _ _ calm => calm.served inherits
  | other p links => exact wp_mono (keeps_calm links db) fun _ _ calm => calm.served inherits

theorem PolicyStep.served (step : PolicyStep call db db') (inherits : Inherits db) :
    Served db db' := by
  obtain ⟨fits, rfl⟩ := step
  rcases @wp_execute _ _ _ _ _ _ _ _ _ _ call.input (wp_policyCall inherits fits) with
    ⟨_, _, served⟩ | ⟨_, same⟩
  · exact served
  · rw [same]
    exact Calm.served (Std.Refl.refl db) inherits

theorem served_run {calls : List PolicyCall} (path : Path PolicyStep calls db db')
    (inherits : Inherits db) : Carries db db' ∧ Inherits db' := by
  induction path with
  | nil s => exact ⟨.refl s, inherits⟩
  | cons step _ ih =>
    have served := step.served inherits
    obtain ⟨carries, kept⟩ := ih served.inherits
    exact ⟨served.toCarries.trans carries, kept⟩

theorem inherits_empty : Inherits Database.empty := by
  intro id t policyTaskId found
  cases found

end Runs

theorem links_markReady {ctx : Context} {taskId : String} :
    Writes Links (markReady ctx taskId) := by
  unfold markReady
  apply writes_bind writes_nowIso
  intro now
  apply writes_bind writes_select
  intro found
  apply writes_bind writes_orThrow
  intro row
  apply writes_bind writes_throwIf
  intro _
  apply writes_bind writes_select
  intro incoming
  apply writes_bind writes_select
  intro statusById
  apply writes_bind reads_isDependentSatisfied.writes
  intro satisfied
  apply writes_bind writes_throwIf
  intro _
  apply writes_bind writes_throwIf
  intro _
  apply writes_bind links_transitionTask
  exact fun _ => writes_bind writes_select fun _ => writes_orThrow

/-! A task with a gate is cancelled, and the conversation in its room goes on. -/
namespace Samples
open Server.Sample

def call (op : PolicyOp) (draws : List String) : PolicyCall :=
  ⟨⟨"u1", platform⟩, op, fun n => draws.getD n clock⟩

def ctx : Context := ⟨"u1", platform⟩

def gated : List PolicyCall :=
  [call (.createTask { projectId := "p1", acceptanceCriteria := ["tests pass"] })
      [clock, "t1", "room1", "e1", clock, "e2"],
    call (.other (markReady ctx "t1" >>= fun _ => pure ())
      (writes_bind links_markReady fun _ => writes_done)) [clock, "e3"],
    call (.requestExecutionApproval "t1" "may it run" .low) ["g1", clock, "e4"],
    call (.other (transitionTask "t1" .ready .cancel clock >>= fun _ => pure ())
      (writes_bind links_transitionTask fun _ => writes_done)) []]

def room : Conversation := { roomId := "room1", projectId := "p1", taskId := some "t1" }

def again : PolicyCall :=
  call (.enqueueAssistantTurn room none "and now?") [clock, "t2", "e5", clock, "g2", "e6", clock,
    "turn1", "m1", "e7"]

def serveCalls (calls : List PolicyCall) (db : Database) : Database :=
  calls.foldl (fun db call => (call.program.execute call.input db).2) db

def cancelled : Database := serveCalls gated Database.empty

def followed : Database := serveCalls [again] cancelled

end Samples

end Artoo.Server.FollowUp
