import Artoo.Planning.Acceptable
import Artoo.Planning.Dependencies
import Artoo.Server.Unlock

/-! Which tasks leave the backlog, over any sequence of completions, triages and changes of the
task graph. -/
namespace Artoo.Server
open Artoo.Lib Artoo.Protocol Artoo.Domain Tx

/-- What the gates read is the same. -/
structure Level (db db' : Database) : Prop where
  tasks : db'.tasks = db.tasks
  dependencies : db'.dependencies = db.dependencies
  artifacts : db'.artifacts = db.artifacts

instance : Std.Refl Level := ⟨fun _ => ⟨rfl, rfl, rfl⟩⟩

instance : IsTrans Database Level :=
  ⟨fun _ _ _ first last => ⟨last.tasks.trans first.tasks, last.dependencies.trans first.dependencies,
    last.artifacts.trans first.artifacts⟩⟩

theorem keeps_level_log {spec : EventSpec} : Keeps Level (logEvent spec) := by
  intro db
  rw [wp_logEvent]
  exact fun _ _ _ => ⟨rfl, rfl, rfl⟩

theorem keeps_completeGoalLevel {spec : Option EventSpec} : Keeps Level (completeGoal spec) := by
  unfold completeGoal
  split
  · exact keeps_done
  · exact keeps_bind keeps_level_log fun _ => keeps_done

theorem Level.status {db db' : Database} (h : Level db db') (id : String) :
    statusMap db' id = statusMap db id := by
  unfold statusMap
  rw [h.tasks]

theorem keeps_level_append {e : EventRow} : Keeps Level (appendEvent e) := by
  intro db
  unfold appendEvent
  rw [wp_insert]
  exact fun _ => ⟨rfl, rfl, rfl⟩

theorem guarded_id {source target : TaskStatus} {now : String} (row : TaskRow) :
    (guarded TaskRow.status source (setTaskStatus target now) row).id = row.id := by
  unfold guarded
  split
  · rfl
  · rfl

/-! ## Tasks that leave the backlog -/

/-- Tasks become ready where their gate is open; nothing else that the gates read changes. -/
structure Opened (gate : String → Bool) (db db' : Database) : Prop where
  dependencies : db'.dependencies = db.dependencies
  artifacts : db'.artifacts = db.artifacts
  tasks : ∀ id, Option.Rel (fun old new => new.acceptanceCriteria = old.acceptanceCriteria ∧
    (new.status = old.status ∨ old.status = .backlog ∧ new.status = .ready ∧ gate id = true))
    (db.tasks.get? id) (db'.tasks.get? id)

section Opened

variable {gate : String → Bool} {db db' db'' : Database} {id : String}

theorem Opened.of_level (h : Level db db') : Opened gate db db' := by
  refine ⟨h.dependencies, h.artifacts, fun id => ?_⟩
  rw [h.tasks]
  cases db.tasks.get? id with
  | none => exact .none
  | some row => exact .some ⟨rfl, Or.inl rfl⟩

theorem Opened.trans (first : Opened gate db db') (last : Opened gate db' db'') :
    Opened gate db db'' := by
  refine ⟨last.dependencies.trans first.dependencies, last.artifacts.trans first.artifacts,
    fun id => ?_⟩
  have left := first.tasks id
  have right := last.tasks id
  revert left right
  generalize db.tasks.get? id = x
  generalize db'.tasks.get? id = y
  generalize db''.tasks.get? id = z
  intro left right
  cases left with
  | none => exact right
  | some one =>
    cases right with
    | some two =>
      refine .some ⟨two.1.trans one.1, ?_⟩
      rcases one.2 with same | ⟨was, now, open_⟩
      · rcases two.2 with same' | ⟨was', now', open_'⟩
        · exact Or.inl (same'.trans same)
        · exact Or.inr ⟨same ▸ was', now', open_'⟩
      · rcases two.2 with same' | ⟨was', _, _⟩
        · exact Or.inr ⟨was, same'.trans now, open_⟩
        · rw [now] at was'
          cases was'

theorem Opened.done_iff (h : Opened gate db db') :
    statusMap db' id = some .done ↔ statusMap db id = some .done := by
  have later := h.tasks id
  unfold statusMap
  revert later
  generalize db.tasks.get? id = x
  generalize db'.tasks.get? id = y
  intro later
  cases later with
  | none => exact Iff.rfl
  | some step =>
    rw [Option.map_some, Option.map_some, Option.some.injEq, Option.some.injEq]
    rcases step.2 with same | ⟨was, now, _⟩
    · rw [same]
    · rw [was, now]
      simp

theorem Opened.waits (h : Opened gate db db') (is : waits db' id = true) : waits db id = true := by
  have later := h.tasks id
  unfold Server.waits at is ⊢
  revert is later
  generalize db.tasks.get? id = x
  generalize db'.tasks.get? id = y
  rintro is (step | _)
  · rw [Option.any_some, Bool.and_eq_true, beq_iff_eq] at is ⊢
    rw [← step.1]
    rcases step.2 with same | ⟨was, _, _⟩
    · exact ⟨same.symm.trans is.1, is.2⟩
    · exact ⟨was, is.2⟩
  · exact is

theorem Opened.satisfied (h : Opened gate db db') :
    satisfied (statusMap db') db' id = satisfied (statusMap db) db id := by
  unfold Server.satisfied hasRequiredEvidence hasEvidence isTaskUnlocked
  have same : ∀ e : DependencyRow, (statusMap db' e.fromTaskId == some .done) =
      (statusMap db e.fromTaskId == some .done) := by
    intro e
    rw [Bool.eq_iff_iff, beq_iff_eq, beq_iff_eq]
    exact h.done_iff
  simp only [h.dependencies, h.artifacts, same]

/-- Who leaves the backlog had an open gate. -/
theorem Opened.left (h : Opened gate db db') (was : statusMap db id = some .backlog)
    (is : statusMap db' id ≠ some .backlog) : gate id = true := by
  have later := h.tasks id
  unfold statusMap at was is
  revert was is later
  generalize db.tasks.get? id = x
  generalize db'.tasks.get? id = y
  rintro was is (step | _)
  · rw [Option.map_some, Option.some.injEq] at was
    rcases step.2 with same | ⟨_, _, open_⟩
    · exact absurd (congrArg some (same.trans was)) is
    · exact open_
  · cases was

theorem opened_ready {now : String} (open_ : gate id = true) :
    Opened gate db (afterTask id .backlog .ready now db) := by
  refine ⟨rfl, rfl, fun i => ?_⟩
  unfold afterTask
  rw [Table.get?_adjust guarded_id]
  cases found : db.tasks.get? i with
  | none =>
    rw [Option.map_none, ite_self]
    exact .none
  | some row =>
    by_cases hit : id = i
    · rw [if_pos hit]
      apply Option.Rel.some
      unfold guarded
      split
      · rename_i backlog
        exact ⟨rfl, Or.inr ⟨beq_iff_eq.mp backlog, rfl, hit ▸ open_⟩⟩
      · exact ⟨rfl, Or.inl rfl⟩
    · rw [if_neg hit]
      exact .some ⟨rfl, Or.inl rfl⟩

end Opened

theorem satisfied_eq {statusById : String → Option TaskStatus} {db : Database} {id : String} :
    satisfied statusById db id =
      (isTaskUnlocked (incomingEdges db.dependencies.rows id) statusById &&
        hasRequiredEvidence (incomingEdges db.dependencies.rows id) db) := rfl

/-- A task that has just left the backlog does not wait. -/
theorem waits_readied {db db' : Database} {id now : String} {row : TaskRow}
    (found : db.tasks.get? id = some row) (backlog : row.status = .backlog)
    (level : Level (afterTask id .backlog .ready now db) db') : waits db' id = false := by
  have moved := Table.get?_adjust_self found
    (@guarded_id .backlog .ready now row)
  unfold waits
  rw [level.tasks]
  unfold afterTask
  rw [moved, Option.any_some]
  unfold guarded
  rw [backlog]
  rfl

/-- One round: the dependent is readied, or its gate is shut. -/
theorem wp_unlockDependent {start db : Database} {completedTaskId now id : String}
    (h : Opened (satisfied (statusMap start) start) start db) :
    wp (unlockDependent completedTaskId start.dependencies.rows (statusMap start) now id)
      (fun _ db' => Opened (satisfied (statusMap start) start) db db' ∧
        (waits db' id = true → satisfied (statusMap start) start id = false)) db := by
  have idle : Opened (satisfied (statusMap start) start) db db := .of_level (Std.Refl.refl _)
  unfold unlockDependent
  rw [wp_bind, wp_select]
  have off : (∀ row, db.tasks.get? id = some row → row.status ≠ .backlog ∨
      row.acceptanceCriteria = []) → waits db id = false := by
    intro off
    unfold waits
    cases found : db.tasks.get? id with
    | none => rfl
    | some row =>
      rw [Option.any_some, Bool.and_eq_false_iff]
      rcases off row found with moved | empty
      · exact Or.inl (by simpa using moved)
      · exact Or.inr (by simp [empty])
  split
  · rename_i absent
    refine ⟨idle, fun waiting => ?_⟩
    rw [off fun row found => by rw [absent] at found; cases found] at waiting
    cases waiting
  · rename_i dependent found
    split
    · rename_i outside
      refine ⟨idle, fun waiting => ?_⟩
      have shut : ∀ row, db.tasks.get? id = some row →
          row.status ≠ .backlog ∨ row.acceptanceCriteria = [] := by
        intro row found'
        cases found.symm.trans found'
        simpa [imp_iff_not_or] using outside
      rw [off shut] at waiting
      cases waiting
    · rename_i inside
      unfold isDependentSatisfied
      have evidence : hasRequiredEvidence (incomingEdges start.dependencies.rows id) db =
          hasRequiredEvidence (incomingEdges start.dependencies.rows id) start := by
        unfold hasRequiredEvidence hasEvidence
        rw [h.artifacts]
      split
      · rename_i locked
        refine ⟨idle, fun _ => ?_⟩
        rw [Bool.not_eq_true'] at locked
        rw [satisfied_eq, locked, Bool.false_and]
      · rename_i unlocked
        rw [wp_bind, wp_select, evidence]
        rw [Bool.not_eq_true', Bool.not_eq_false] at unlocked
        split
        · rename_i evident
          have open_ : satisfied (statusMap start) start id = true := by
            rw [satisfied_eq, unlocked, evident]
            rfl
          rw [wp_bind]
          apply wp_moveTask (fun _ => keeps_level_append) .ready rfl
          intro db' level
          have opened : Opened (satisfied (statusMap start) start) db db' :=
            (opened_ready open_).trans (.of_level level)
          refine ⟨opened, fun waiting => ?_⟩
          have backlog : dependent.status = .backlog := by
            rw [Bool.or_eq_true, bne_iff_ne, not_or, not_not] at inside
            exact inside.1
          rw [waits_readied found backlog level] at waiting
          cases waiting
        · rename_i lacking
          refine ⟨idle, fun _ => ?_⟩
          rw [Bool.not_eq_true] at lacking
          rw [satisfied_eq, lacking, Bool.and_false]

theorem wp_unlockDependents {start db : Database} {completedTaskId now : String}
    {ids : List String} (h : Opened (satisfied (statusMap start) start) start db) :
    wp (ids.forM (unlockDependent completedTaskId start.dependencies.rows (statusMap start) now))
      (fun _ db' => Opened (satisfied (statusMap start) start) db db' ∧
        ∀ id ∈ ids, waits db' id = true → satisfied (statusMap start) start id = false) db := by
  induction ids generalizing db with
  | nil => exact ⟨.of_level (Std.Refl.refl _), nofun⟩
  | cons id ids ih =>
    apply wp_seq (wp_unlockDependent h)
    rintro _ mid ⟨first, shut⟩
    apply wp_mono (ih (h.trans first))
    rintro _ db' ⟨last, later⟩
    refine ⟨first.trans last, fun i member waiting => ?_⟩
    rcases List.mem_cons.mp member with rfl | member
    · exact shut (last.waits waiting)
    · exact later i member waiting

/-- After `unlockDownstream`, no gating dependent whose gate is open waits. -/
theorem wp_opens {completedTaskId : String} {db : Database} :
    wp (unlockDownstream completedTaskId) (fun _ db' =>
      Opened (satisfied (statusMap db) db) db db' ∧ ∀ id ∈ downstream completedTaskId db',
        ¬ (waits db' id = true ∧ satisfied (statusMap db') db' id = true)) db := by
  rw [unlockDownstream_eq, wp_bind, wp_select, wp_bind, wp_select, wp_bind, wp_select, wp_bind,
    wp_nowIso]
  intro now
  apply wp_mono (wp_unlockDependents (.of_level (Std.Refl.refl _)))
  rintro _ db' ⟨opened, shut⟩
  refine ⟨opened, fun id dependent ⟨waiting, open_⟩ => ?_⟩
  rw [opened.satisfied] at open_
  unfold downstream at dependent
  rw [opened.dependencies] at dependent
  rw [shut id dependent waiting] at open_
  cases open_

/-- A task leaves the backlog with its prerequisites done and their evidence there. -/
def LeavesOpen (db db' : Database) : Prop :=
  ∀ id, statusMap db id = some .backlog → statusMap db' id ≠ some .backlog →
    satisfied (statusMap db') db' id = true

/-- No gating dependent of the task is left in the backlog with its gate open. -/
def NoneLeft (taskId : String) (db : Database) : Prop :=
  ∀ id ∈ downstream taskId db,
    ¬ (waits db id = true ∧ satisfied (statusMap db) db id = true)

theorem Opened.leavesOpen {db db' : Database} (h : Opened (Server.satisfied (statusMap db) db) db db') :
    LeavesOpen db db' := by
  intro id was is
  rw [h.satisfied]
  exact h.left was is

theorem Level.gate {db db' : Database} (h : Level db db') (id : String) :
    satisfied (statusMap db') db' id = satisfied (statusMap db) db id ∧ waits db' id = waits db id := by
  unfold satisfied hasRequiredEvidence hasEvidence waits statusMap
  rw [h.tasks, h.dependencies, h.artifacts]
  exact ⟨rfl, rfl⟩

theorem Level.noneLeft {taskId : String} {db db' : Database} (h : Level db db')
    (none_ : NoneLeft taskId db) : NoneLeft taskId db' := by
  intro id dependent
  rw [(h.gate id).1, (h.gate id).2]
  unfold downstream at dependent
  rw [h.dependencies] at dependent
  exact none_ id dependent

theorem wp_isDependentSatisfied {id : String} {post : Bool → Database → Prop} {db : Database} :
    wp (isDependentSatisfied (incomingEdges db.dependencies.rows id) (statusMap db)) post db ↔
      post (satisfied (statusMap db) db id) db := by
  unfold isDependentSatisfied
  rw [satisfied_eq]
  split
  · rename_i locked
    rw [Bool.not_eq_true'] at locked
    rw [locked]
    exact Iff.rfl
  · rename_i unlocked
    rw [Bool.not_eq_true', Bool.not_eq_false] at unlocked
    rw [unlocked, Bool.true_and, wp_select]

theorem wp_markReadyOpens {ctx : Context} {taskId : String} {db : Database} :
    wp (markReady ctx taskId) (fun _ db' => LeavesOpen db db') db := by
  unfold markReady
  rw [wp_bind, wp_nowIso]
  intro now
  rw [wp_bind, wp_select, wp_bind, wp_orThrow]
  intro row found
  rw [wp_bind, wp_throwIf]
  intro _
  rw [wp_bind, wp_select, wp_bind, wp_select, wp_bind, wp_isDependentSatisfied, wp_bind, wp_throwIf,
    Bool.not_eq_eq_eq_not, Bool.not_false]
  intro open_
  rw [wp_bind, wp_throwIf, Bool.not_eq_eq_eq_not, Bool.not_false]
  intro can
  rw [canTriage can, wp_bind]
  apply wp_moveTask (fun _ => keeps_level_append) .ready rfl
  intro moved level
  have opened : Opened (satisfied (statusMap db) db) db moved :=
    (opened_ready open_).trans (.of_level level)
  rw [wp_bind, wp_select, wp_orThrow]
  exact fun _ _ => opened.leavesOpen

theorem backlog_stays {taskId now id : String} {source target : TaskStatus} {db : Database}
    (off : source ≠ .backlog) (was : statusMap db id = some .backlog) :
    statusMap (afterTask taskId source target now db) id = some .backlog := by
  unfold afterTask
  unfold statusMap at was ⊢
  rw [Table.get?_adjust guarded_id]
  split
  · cases found : db.tasks.get? id with
    | none => rw [found] at was; cases was
    | some row =>
      rw [found, Option.map_some, Option.some.injEq] at was
      rw [Option.map_some, Option.map_some, Option.some.injEq]
      unfold guarded
      rw [if_neg (by simpa [was] using fun is => off is.symm)]
      exact was
  · exact was

theorem wp_reviewTaskOpens {ctx : Context} {services : ReviewServices} {taskId : String}
    {outcome : ReviewOutcome} {comment : Option String} {db : Database} :
    wp (reviewTask ctx services taskId outcome comment) (fun _ db' =>
      LeavesOpen db db' ∧ (outcome = .accepted → NoneLeft taskId db')) db := by
  unfold reviewTask
  rw [wp_bind, wp_nowIso]
  intro now
  apply Reads.wp_bind reads_lockTask
  intro tasks
  rw [wp_bind, wp_orThrow]
  intro task found
  apply Reads.wp_bind reads_refuse
  intro _
  rw [wp_bind, wp_throwIf]
  intro _
  cases outcome with
  | accepted =>
    dsimp only
    apply Reads.wp_bind reads_assertChildrenClosed
    intro _
    rw [wp_bind, wp_select, wp_bind]
    apply wp_moveTask (fun _ => keeps_level_append) .done rfl
    intro moved level
    rw [wp_bind, wp_throwIf]
    intro _
    apply wp_seq wp_opens
    rintro _ after ⟨opened, none_⟩
    apply wp_keeps keeps_completeGoalLevel
    intro _ db' later
    rw [wp_bind, wp_select, wp_orThrow]
    intro _ _
    have whole := opened.trans (.of_level later)
    refine ⟨fun id was is => whole.leavesOpen id ?_ is, fun _ => later.noneLeft none_⟩
    rw [level.status]
    exact backlog_stays (by decide) was
  | changesRequested =>
    dsimp only
    apply Reads.wp_bind reads_assertMayRetry
    intro _
    apply Reads.wp_bind reads_assertChildrenClosed
    intro _
    rw [wp_bind, wp_select, wp_bind]
    apply wp_moveTask (fun _ => keeps_level_append) .ready rfl
    intro moved level
    rw [wp_bind, wp_throwIf]
    intro _
    change wp (select _ >>= fun _ => orThrow _ _) _ _
    rw [wp_bind, wp_select, wp_orThrow]
    refine fun _ _ => ⟨fun id was is => absurd ?_ is, nofun⟩
    rw [level.status]
    exact backlog_stays (by decide) was

end Artoo.Server

namespace Artoo.Planning
open Artoo.Lib Artoo.Domain Artoo.Protocol Tx
open Artoo.Server (DependencyType ReviewServices ReviewOutcome statusMap LeavesOpen NoneLeft)

/-- A task in the backlog is written as one in the backlog. -/
def Stays (view : Store) (w : Write) : Prop :=
  ∀ row, w = .core (.task row) → ∀ old, view.core.tasks.get? row.id = some old →
    old.status = .backlog → row.status = .backlog

/-- The operations on the task graph, and whatever else leaves the backlog as it is. -/
inductive GraphOp where
  | markReady (ctx : Context) (taskId : String)
  | reviewTask (ctx : Context) (services : ReviewServices) (taskId : String)
      (outcome : ReviewOutcome) (comment : Option String)
  | createDependency (ctx : Context) (dependentTaskId prerequisiteId : String)
      (type : DependencyType)
  | deleteDependency (ctx : Context) (dependentTaskId dependencyId : String)
  | other (program : Txn Unit) (stays : Writes Stays program)

def GraphOp.program : GraphOp → Txn Unit
  | .markReady ctx taskId => do
    let _ ← core (Server.markReady ctx.toContext taskId)
  | .reviewTask ctx services taskId outcome comment => do
    let _ ← core (Server.reviewTask ctx.toContext services taskId outcome comment)
  | .createDependency ctx dependentTaskId prerequisiteId type => do
    let _ ← Planning.createDependency ctx dependentTaskId prerequisiteId type
  | .deleteDependency ctx dependentTaskId dependencyId =>
    Planning.deleteDependency ctx dependentTaskId dependencyId
  | .other program _ => program

/-- The task that the operation accepts. -/
def GraphOp.accepts : GraphOp → Option String
  | .reviewTask _ _ taskId .accepted _ => some taskId
  | _ => none

structure GraphRequest where
  op : GraphOp
  input : Nat → String

def GraphRequest.execute (r : GraphRequest) (st : Store) : Except Failure Unit × Store :=
  r.op.program.execute r.input st

/-- The requests one after the other. -/
def serve (requests : List GraphRequest) (st : Store) : Store :=
  requests.foldl (fun st r => (r.execute st).2) st

/-- The backlog after a transaction is the backlog before it. -/
def BacklogStays (st st' : Store) : Prop :=
  ∀ id, statusMap st.core id = some .backlog → statusMap st'.core id = some .backlog

instance : Std.Refl BacklogStays := ⟨fun _ _ => id⟩

instance : IsTrans Store BacklogStays := ⟨fun _ _ _ first last id was => last id (first id was)⟩

theorem backlogStays_writes {st : Store} {log : List Write} (h : ∀ w ∈ log, Stays st w) :
    BacklogStays st (writeAll log st) := by
  intro id was
  have written : ∀ row, .core (.task row) ∈ log → row.id = id → row.status = .backlog := by
    intro row member is
    obtain ⟨old, found, status⟩ := Option.map_eq_some_iff.mp was
    exact h _ member row rfl old (is ▸ found) status
  clear h
  induction log generalizing st with
  | nil => exact was
  | cons w log ih =>
    rw [writeAll_cons]
    refine ih ?_ fun row member => written row (List.mem_cons_of_mem _ member)
    cases w with
    | core w =>
      cases w with
      | task row =>
        change ((st.core.tasks.put row).get? id).map _ = _
        rw [Table.get?_put]
        split
        · rename_i is
          rw [Option.map_some, written row List.mem_cons_self is]
        · exact was
      | _ => exact was
    | _ => exact was

theorem keeps_backlog {α : Type} {p : Txn α} (h : Writes Stays p) : Keeps BacklogStays p :=
  Writes.keeps h fun _ _ => backlogStays_writes

theorem stays_core {α : Type} {p : Server.Txn α} (h : Writes (fun _ w => ∀ row, w ≠ .task row) p) :
    Writes Stays (core p) :=
  Writes.mono (writes_lift h) fun _ _ ⟨_, is, off⟩ row task => by
    cases is.symm.trans task
    exact absurd rfl (off row)

theorem stays_logEvent {spec : Server.EventSpec} : Writes Stays (logEvent spec) :=
  stays_core (Server.writes_logEvent fun _ _ _ => nofun)

theorem stays_createDependency {ctx : Context} {dependentTaskId prerequisiteId : String}
    {type : DependencyType} :
    Writes Stays (createDependency ctx dependentTaskId prerequisiteId type) := by
  unfold createDependency
  apply writes_bind (stays_core Server.writes_nowIso)
  intro _
  apply writes_bind writes_check
  intro _
  apply writes_bind writes_query
  intro _
  apply writes_bind writes_require
  intro _
  apply writes_bind writes_query
  intro _
  apply writes_bind writes_require
  intro _
  apply writes_bind writes_check
  intro _
  apply writes_bind writes_query
  intro _
  apply writes_bind writes_check
  intro _
  apply writes_bind writes_query
  intro _
  apply writes_bind writes_ofResult
  intro _
  apply writes_bind (stays_core Server.writes_generate)
  intro _
  apply writes_bind (writes_add fun _ _ row is => nomatch is)
  intro _
  apply writes_bind stays_logEvent
  intro _
  exact writes_bind writes_query fun _ => writes_require

theorem stays_deleteDependency {ctx : Context} {dependentTaskId dependencyId : String} :
    Writes Stays (deleteDependency ctx dependentTaskId dependencyId) := by
  unfold deleteDependency
  apply writes_bind (stays_core Server.writes_nowIso)
  intro _
  apply writes_bind writes_query
  intro _
  apply writes_bind writes_require
  intro _
  apply writes_bind writes_check
  intro _
  apply writes_bind (writes_change fun _ _ _ row is => nomatch is)
  intro _
  apply writes_bind writes_query
  intro _
  exact writes_bind stays_logEvent fun _ => writes_done

/-- What an operation does to the backlog. -/
structure GraphOp.Spec (op : GraphOp) (st st' : Store) : Prop where
  leaves : LeavesOpen st.core st'.core
  none : ∀ taskId, op.accepts = some taskId → NoneLeft taskId st'.core

theorem BacklogStays.leavesOpen {st st' : Store} (h : BacklogStays st st') :
    LeavesOpen st.core st'.core :=
  fun id was is => absurd (h id was) is

theorem wp_graphOp {op : GraphOp} {st : Store} : wp op.program (fun _ st' => op.Spec st st') st := by
  cases op with
  | markReady ctx taskId =>
    change wp (core _ >>= fun _ => .done ()) _ _
    rw [wp_bind, wp_core]
    apply wp_mono Server.wp_markReadyOpens
    exact fun _ db' opens => ⟨opens, nofun⟩
  | reviewTask ctx services taskId outcome comment =>
    change wp (core _ >>= fun _ => .done ()) _ _
    rw [wp_bind, wp_core]
    apply wp_mono Server.wp_reviewTaskOpens
    rintro _ db' ⟨opens, none_⟩
    refine ⟨opens, fun id accepts => ?_⟩
    cases outcome with
    | accepted =>
      cases accepts
      exact none_ rfl
    | changesRequested => cases accepts
  | createDependency ctx dependentTaskId prerequisiteId type =>
    change wp (Planning.createDependency _ _ _ _ >>= fun _ => .done ()) _ _
    apply wp_keeps (keeps_backlog stays_createDependency)
    exact fun _ _ stays => ⟨stays.leavesOpen, nofun⟩
  | deleteDependency ctx dependentTaskId dependencyId =>
    refine wp_within BacklogStays (keeps_backlog stays_deleteDependency) ?_
    exact fun _ _ stays => ⟨stays.leavesOpen, nofun⟩
  | other program stays =>
    refine wp_within BacklogStays (keeps_backlog stays) ?_
    exact fun _ _ stays => ⟨stays.leavesOpen, nofun⟩

/-- In any sequence of requests on any task graph, each request takes out of the backlog only tasks
whose gating prerequisites are done and have the evidence they need, and one that accepts a task
leaves no dependent of it waiting behind an open gate. -/
theorem tasks_unlocked (requests : List GraphRequest) (r : GraphRequest) (start : Store) :
    LeavesOpen (serve requests start).core (serve (requests ++ [r]) start).core ∧
      ((r.execute (serve requests start)).1 = .ok () → ∀ taskId, r.op.accepts = some taskId →
        NoneLeft taskId (serve (requests ++ [r]) start).core) := by
  unfold serve
  rw [List.foldl_append, List.foldl_cons, List.foldl_nil]
  generalize requests.foldl _ start = st
  constructor
  · rcases wp_execute (wp_graphOp : wp r.op.program _ st) with ⟨_, _, spec⟩ | ⟨_, same⟩
    · exact spec.leaves
    · unfold GraphRequest.execute
      rw [same]
      exact fun id was is => absurd was is
  · exact fun committed => (wp_committed wp_graphOp committed).none

end Artoo.Planning
