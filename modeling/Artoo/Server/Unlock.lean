import Artoo.Server.Concurrent
import Artoo.Server.Reads
import Artoo.Server.System

/-! Which dependents accepting reviews unlock, whatever reviews run concurrently. -/
namespace Artoo.Server
open Artoo.Lib Artoo.Protocol Artoo.Domain Tx

/-- A backlog task with acceptance criteria. -/
def waits (db : Database) (taskId : String) : Bool :=
  (db.tasks.get? taskId).any fun t => t.status == .backlog && !t.acceptanceCriteria.isEmpty

/-- All gating prerequisites are done and have their evidence. -/
def satisfied (statusById : String → Option TaskStatus) (db : Database) (taskId : String) : Bool :=
  let incoming := incomingEdges db.dependencies.rows taskId
  isTaskUnlocked incoming statusById && hasRequiredEvidence incoming db

def asDone (taskId : String) (statusById : String → Option TaskStatus) (id : String) :
    Option TaskStatus :=
  if id = taskId then some .done else statusById id

/-- The `dag.node.ready` events of a task. -/
def readyEvents (db : Database) (taskId : String) : List EventRow :=
  db.events.select fun e => e.type == .dagNodeReady && e.taskId == some taskId

/-- What accepting reviews do to a task. -/
structure TaskLater (old new : TaskRow) : Prop where
  criteria : new.acceptanceCriteria = old.acceptanceCriteria
  done : old.status = .done → new.status = .done
  backlog : new.status = .backlog → old.status = .backlog

structure GraphLater (db db' : Database) : Prop where
  tasks : ∀ id, Option.Rel TaskLater (db.tasks.get? id) (db'.tasks.get? id)
  dependencies : db'.dependencies = db.dependencies
  artifacts : db'.artifacts = db.artifacts

theorem taskLater_refl {o : Option TaskRow} : Option.Rel TaskLater o o := by
  cases o with
  | none => exact .none
  | some row => exact .some ⟨rfl, id, id⟩

theorem GraphLater.refl {db : Database} : GraphLater db db := ⟨fun _ => taskLater_refl, rfl, rfl⟩

theorem GraphLater.trans {a b c : Database} (first : GraphLater a b) (last : GraphLater b c) :
    GraphLater a c := by
  refine ⟨fun id => ?_, last.dependencies.trans first.dependencies,
    last.artifacts.trans first.artifacts⟩
  have left := first.tasks id
  have right := last.tasks id
  revert left right
  generalize a.tasks.get? id = x
  generalize b.tasks.get? id = y
  generalize c.tasks.get? id = z
  intro left right
  cases left with
  | none => exact right
  | some one =>
    cases right with
    | some two =>
      exact .some ⟨two.criteria.trans one.criteria, fun is => two.done (one.done is),
        fun is => one.backlog (two.backlog is)⟩

theorem GraphLater.done {db db' : Database} {id : String} (h : GraphLater db db')
    (is : statusMap db id = some .done) : statusMap db' id = some .done := by
  have later := h.tasks id
  unfold statusMap at is ⊢
  revert is later
  generalize db.tasks.get? id = x
  generalize db'.tasks.get? id = y
  rintro is (later | _)
  · simp only [Option.map_some, Option.some.injEq] at is ⊢
    exact later.done is
  · cases is

theorem GraphLater.backlog {db db' : Database} {id : String} (h : GraphLater db db')
    (is : statusMap db' id = some .backlog) : statusMap db id = some .backlog := by
  have later := h.tasks id
  unfold statusMap at is ⊢
  revert is later
  generalize db.tasks.get? id = x
  generalize db'.tasks.get? id = y
  rintro is (later | _)
  · simp only [Option.map_some, Option.some.injEq] at is ⊢
    exact later.backlog is
  · cases is

theorem GraphLater.waits {db db' : Database} {id : String} (h : GraphLater db db')
    (is : waits db' id = true) : waits db id = true := by
  have later := h.tasks id
  unfold Server.waits at is ⊢
  revert is later
  generalize db.tasks.get? id = x
  generalize db'.tasks.get? id = y
  rintro is (later | _)
  · simp only [Option.any_some, Bool.and_eq_true, beq_iff_eq] at is ⊢
    exact ⟨later.backlog is.1, later.criteria ▸ is.2⟩
  · exact is

theorem GraphLater.satisfied {db db' : Database} {id : String} (h : GraphLater db db')
    {statusById : String → Option TaskStatus} :
    satisfied statusById db' id = satisfied statusById db id := by
  unfold Server.satisfied hasRequiredEvidence hasEvidence
  rw [h.dependencies, h.artifacts]

theorem isTaskUnlocked_mono {incoming : List DependencyRow} {f g : String → Option TaskStatus}
    (le : ∀ e ∈ incoming, isGatingDependency e.type → f e.fromTaskId = some .done →
      g e.fromTaskId = some .done) (h : isTaskUnlocked incoming f = true) :
    isTaskUnlocked incoming g = true := by
  unfold isTaskUnlocked at h ⊢
  rw [List.all_eq_true] at h ⊢
  intro e member
  obtain ⟨there, gating⟩ := List.mem_filter.mp member
  exact beq_iff_eq.mpr (le e there gating (beq_iff_eq.mp (h e member)))

/-- Other reviews go on, but not on the rows that are locked. -/
def reviewRely : Rely Database Lock where
  rel locks db db' := GraphLater db db' ∧ ∀ k ∈ locks, k.Same db db'
  refl _ _ := ⟨.refl, fun _ _ => .refl⟩
  trans _ _ _ _ first last :=
    ⟨first.1.trans last.1, fun k held => (first.2 k held).trans (last.2 k held)⟩
  weaken _ _ _ _ fewer step := ⟨step.1, fun k held => step.2 k (fewer held)⟩

def taskOf : Write → Option TaskRow
  | .task row => some row
  | _ => none

/-- The last row of a task that a transaction wrote. -/
def loggedTask (log : List Write) (id : String) : Option TaskRow := logged TaskRow.id taskOf log id

theorem task_view {s : Standing} {id : String} :
    s.view.tasks.get? id = (loggedTask s.log id).or (s.db.tasks.get? id) := by
  apply get?_writeAll (fun db : Database => db.tasks)
  intro w db
  cases w <;> rfl

theorem loggedTask_append {log more : List Write} {id : String} :
    loggedTask (log ++ more) id = (loggedTask more id).or (loggedTask log id) := logged_append

theorem loggedTask_single {row : TaskRow} {id : String} :
    loggedTask [.task row] id = if row.id = id then some row else none := by
  unfold loggedTask logged taskOf logged
  by_cases hit : row.id = id <;> simp [hit, Option.filter]

theorem loggedTask_event {e : EventRow} {id : String} : loggedTask [.event e] id = none := rfl

/-- The review accepts its task and readies tasks of the backlog. -/
structure Reviewed (taskId : String) (old new : TaskRow) : Prop where
  criteria : new.acceptanceCriteria = old.acceptanceCriteria
  status : (old.id = taskId ∧ old.status = .review ∧ new.status = .done) ∨
    (old.status = .backlog ∧ new.status = .ready)

theorem Reviewed.later {taskId : String} {old new : TaskRow} (h : Reviewed taskId old new) :
    TaskLater old new := by
  refine ⟨h.criteria, fun is => ?_, fun is => ?_⟩
  · rcases h.status with ⟨_, was, _⟩ | ⟨was, _⟩
    · rw [was] at is; cases is
    · rw [was] at is; cases is
  · rcases h.status with ⟨_, _, now⟩ | ⟨_, now⟩
    · rw [now] at is; cases is
    · rw [now] at is; cases is

def isReady (taskId : String) (type : EventType) (of : Option String) : Bool :=
  type == .dagNodeReady && of == some taskId

def readies (taskId : String) : Write → Bool
  | .event e => isReady taskId e.type e.taskId
  | _ => false

/-- A transaction that accepts `taskId`, and what it still has to log. -/
structure Accepting (taskId : String) (began : Database) (rest : List EventSpec) (s : Standing) :
    Prop where
  since : GraphLater began s.db
  kinds : ∀ w ∈ s.log, (∃ row, w = .task row) ∨ ∃ e, w = .event e
  rows : ∀ id row, loggedTask s.log id = some row →
    .task id ∈ s.locks ∧ ∃ old, s.db.tasks.get? id = some old ∧ Reviewed taskId old row
  ready : ∀ id, rest.countP (fun spec => isReady id spec.type spec.taskId) +
    s.log.countP (readies id) ≤ if (loggedTask s.log id).any (·.status == .ready) then 1 else 0

section Accepting

variable {taskId : String} {began db : Database} {rest : List EventSpec} {s : Standing}

theorem Accepting.start : Accepting taskId db [] ⟨db, [], []⟩ := by
  refine ⟨.refl, fun _ written => ?_, fun _ _ found => ?_, fun _ => Nat.zero_le _⟩
  · cases written
  · cases found

theorem Accepting.later (h : Accepting taskId began rest s) (step : reviewRely.rel s.locks s.db db) :
    Accepting taskId began rest (s.at_ db) := by
  refine ⟨h.since.trans step.1, h.kinds, fun id row found => ?_, h.ready⟩
  obtain ⟨locked, old, there, reviewed⟩ := h.rows id row found
  have same : db.tasks.get? id = s.db.tasks.get? id := step.2 _ locked
  exact ⟨locked, old, same.trans there, reviewed⟩

/-- A row that the transaction can still move, it did not write. -/
theorem Accepting.unwritten (h : Accepting taskId began rest s) {id : String} {row : TaskRow}
    (seen : s.view.tasks.get? id = some row)
    (movable : row.status = .review ∨ row.status = .backlog) :
    loggedTask s.log id = none ∧ s.db.tasks.get? id = some row := by
  rw [task_view, Option.or_eq_some_iff] at seen
  rcases seen with written | seen
  · obtain ⟨_, old, _, reviewed⟩ := h.rows id row written
    rcases reviewed.status with ⟨_, _, now⟩ | ⟨_, now⟩
    · rw [now] at movable
      rcases movable with is | is <;> cases is
    · rw [now] at movable
      rcases movable with is | is <;> cases is
  · exact seen

/-- The review moves a row that it sees. -/
theorem Accepting.move (h : Accepting taskId began [] s) {id : String} {old new : TaskRow}
    {specs : List EventSpec} (seen : s.view.tasks.get? id = some old) (key : new.id = old.id)
    (reviewed : Reviewed taskId old new)
    (budget : ∀ i, specs.countP (fun spec => isReady i spec.type spec.taskId) ≤
      if i = id ∧ new.status = .ready then 1 else 0) :
    Accepting taskId began specs ⟨s.db, s.locks ++ [.task id], s.log ++ [.task new]⟩ := by
  have movable : old.status = .review ∨ old.status = .backlog := by
    rcases reviewed.status with ⟨_, was, _⟩ | ⟨was, _⟩
    · exact Or.inl was
    · exact Or.inr was
  obtain ⟨unwritten, there⟩ := h.unwritten seen movable
  have is : new.id = id := key.trans (Table.key_of_get? seen)
  have logs : ∀ i, loggedTask (s.log ++ [.task new]) i =
      if i = id then some new else loggedTask s.log i := by
    intro i
    rw [loggedTask_append, loggedTask_single, is]
    by_cases hit : id = i
    · simp [hit]
    · simp [hit, Ne.symm hit]
  refine ⟨h.since, fun w written => ?_, fun i row found => ?_, fun i => ?_⟩
  · rcases List.mem_append.mp written with earlier | here
    · exact h.kinds w earlier
    · exact Or.inl ⟨new, List.mem_singleton.mp here⟩
  · dsimp only at found
    rw [logs] at found
    split at found
    · rename_i hit
      cases found
      exact ⟨hit ▸ List.mem_append_right _ List.mem_cons_self, old, hit ▸ there, reviewed⟩
    · obtain ⟨locked, earlier⟩ := h.rows i row found
      exact ⟨List.mem_append_left _ locked, earlier⟩
  · have before := h.ready i
    have more := budget i
    dsimp only
    rw [logs, List.countP_append, List.countP_singleton]
    rw [List.countP_nil] at before
    by_cases hit : i = id
    · rw [hit, unwritten] at before
      rw [if_pos hit]
      simp only [hit, true_and] at more
      simp only [Option.any_none, Bool.false_eq_true, if_false] at before
      simp only [readies, Bool.false_eq_true, if_false, Option.any_some, beq_iff_eq, hit]
      omega
    · rw [if_neg hit]
      simp only [hit, false_and, if_false] at more
      simp only [readies, Bool.false_eq_true, if_false]
      omega

theorem Accepting.event {spec : EventSpec} (h : Accepting taskId began (spec :: rest) s)
    (id occurredAt : String) :
    Accepting taskId began rest
      ⟨s.db, s.locks ++ [.event id], s.log ++ [.event (spec.row id occurredAt)]⟩ := by
  have logs : ∀ i, loggedTask (s.log ++ [.event (spec.row id occurredAt)]) i = loggedTask s.log i := by
    intro i
    rw [loggedTask_append, loggedTask_event, Option.none_or]
  refine ⟨h.since, fun w written => ?_, fun i row found => ?_, fun i => ?_⟩
  · rcases List.mem_append.mp written with earlier | here
    · exact h.kinds w earlier
    · exact Or.inr ⟨_, List.mem_singleton.mp here⟩
  · dsimp only at found
    rw [logs] at found
    obtain ⟨locked, earlier⟩ := h.rows i row found
    exact ⟨List.mem_append_left _ locked, earlier⟩
  · have before := h.ready i
    rw [List.countP_cons] at before
    dsimp only
    rw [logs, List.countP_append, List.countP_singleton]
    have same : readies i (.event (spec.row id occurredAt)) = isReady i spec.type spec.taskId := rfl
    rw [same]
    omega

/-- What the transaction leaves to the others. -/
theorem Accepting.leaves (h : Accepting taskId began rest s) : GraphLater s.db s.view := by
  have kept : ∀ (log : List Write) (db : Database),
      (∀ w ∈ log, (∃ row, w = .task row) ∨ ∃ e, w = .event e) →
      (writeAll log db).dependencies = db.dependencies ∧
        (writeAll log db).artifacts = db.artifacts := by
    intro log
    induction log with
    | nil => exact fun _ _ => ⟨rfl, rfl⟩
    | cons w log ih =>
      intro db kinds
      obtain ⟨left, right⟩ := ih (w.apply db) fun x member => kinds x (List.mem_cons_of_mem _ member)
      rcases kinds w List.mem_cons_self with ⟨row, rfl⟩ | ⟨e, rfl⟩
      · exact ⟨left, right⟩
      · exact ⟨left, right⟩
  obtain ⟨dependencies, artifacts⟩ := kept s.log s.db h.kinds
  refine ⟨fun id => ?_, dependencies, artifacts⟩
  rw [task_view]
  cases written : loggedTask s.log id with
  | none =>
    rw [Option.none_or]
    exact taskLater_refl
  | some row =>
    obtain ⟨_, old, there, reviewed⟩ := h.rows id row written
    rw [there, Option.some_or]
    exact .some reviewed.later

/-- What is done in the view was done, or is the accepted task. -/
theorem Accepting.was_done (h : Accepting taskId began rest s) {id : String}
    (is : statusMap s.view id = some .done) : id = taskId ∨ statusMap s.db id = some .done := by
  unfold statusMap at is ⊢
  rw [task_view] at is
  cases written : loggedTask s.log id with
  | none =>
    rw [written, Option.none_or] at is
    exact Or.inr is
  | some row =>
    rw [written, Option.some_or, Option.map_some, Option.some.injEq] at is
    obtain ⟨_, old, there, reviewed⟩ := h.rows id row written
    rcases reviewed.status with ⟨same, _, _⟩ | ⟨_, now⟩
    · exact Or.inl ((Table.key_of_get? there).symm.trans same)
    · rw [now] at is
      cases is

theorem Accepting.artifacts (h : Accepting taskId began rest s) : s.view.artifacts = began.artifacts :=
  h.leaves.artifacts.trans h.since.artifacts

theorem Accepting.dependencies (h : Accepting taskId began rest s) :
    s.view.dependencies = began.dependencies :=
  h.leaves.dependencies.trans h.since.dependencies

/-- A dependent that waits is not one that the transaction readied. -/
theorem Accepting.waits_view (h : Accepting taskId began rest s) {id : String} :
    waits s.view id = true ↔ loggedTask s.log id = none ∧ waits s.db id = true := by
  constructor
  · intro is
    obtain ⟨row, seen, backlog⟩ := (Option.any_eq_true _ _).mp is
    rw [Bool.and_eq_true, beq_iff_eq] at backlog
    obtain ⟨unwritten, there⟩ := h.unwritten seen (Or.inr backlog.1)
    refine ⟨unwritten, ?_⟩
    unfold waits at is ⊢
    rw [there, ← seen]
    exact is
  · rintro ⟨unwritten, is⟩
    unfold waits at is ⊢
    rw [task_view, unwritten, Option.none_or]
    exact is

/-- A dependent that is left waiting still had an open prerequisite when the review began. -/
def Settled (taskId : String) (began : Database) (s : Standing) (dependentId : String) : Prop :=
  waits s.view dependentId = true →
    satisfied (asDone taskId (statusMap began)) began dependentId = false

theorem Accepting.unlogged {s' : Standing} {id : String}
    (since : Progress.Since reviewRely s s') (unwritten : loggedTask s'.log id = none) :
    loggedTask s.log id = none := by
  obtain ⟨more, is⟩ := since.log
  rw [← is, loggedTask_append, Option.or_eq_none_iff] at unwritten
  exact unwritten.2

theorem Settled.later {s' : Standing} {id : String} (h : Settled taskId began s id)
    (left : Accepting taskId began [] s) (right : Accepting taskId began [] s')
    (since : Progress.Since reviewRely s s') : Settled taskId began s' id := by
  intro is
  obtain ⟨unwritten, there⟩ := right.waits_view.mp is
  exact h (left.waits_view.mpr ⟨Accepting.unlogged since unwritten, since.db.1.waits there⟩)

end Accepting

section Programs

variable {taskId : String} {began : Database} {s : Standing} {β : Type} {post : β → Standing → Prop}

/-- A program that writes nothing goes on with what the transaction has done. -/
theorem under_reads {p : Txn β} (h : Accepting taskId began [] s) (reads : Tx.Reads p) :
    under reviewRely p (fun _ s' => Accepting taskId began [] s') s := by
  apply Writes.under reads (fun _ _ kept step => kept.later step) _ h
  intro s locks writes kept none_
  have empty : writes s.view = [] := List.eq_nil_iff_forall_not_mem.mpr none_
  have log : (s.after locks writes).log = s.log := by rw [Progress.after_log, empty, List.append_nil]
  refine ⟨kept.since, ?_, fun id row found => ?_, ?_⟩
  · rw [log]
    exact kept.kinds
  · rw [log] at found
    obtain ⟨locked, there⟩ := kept.rows id row found
    exact ⟨Progress.locks_after locked, there⟩
  · rw [log]
    exact kept.ready

/-- A transition of the review, with its events. -/
theorem under_move {id now : String} {source : TaskStatus} {trigger : TaskTrigger}
    {events : TaskStatus → List EventSpec} {k : TransitionResult TaskStatus → Txn β}
    (h : Accepting taskId began [] s)
    (kind : ∀ target, applyTaskTransition source trigger = some target →
      (id = taskId ∧ source = .review ∧ target = .done) ∨ (source = .backlog ∧ target = .ready))
    (budget : ∀ target, applyTaskTransition source trigger = some target →
      ∀ i, (events target).countP (fun spec => isReady i spec.type spec.taskId) ≤
        if i = id ∧ target = .ready then 1 else 0)
    (rest : ∀ changed target s', applyTaskTransition source trigger = some target →
      Accepting taskId began [] s' → Progress.Since reviewRely s s' →
      (changed = true → ∃ row, loggedTask s'.log id = some row ∧ row.status = target) →
      (changed = false → ∀ row, s'.view.tasks.get? id = some row → row.status ≠ source) →
      under reviewRely (k ⟨changed, target⟩) post s') :
    under reviewRely (transitionTask id source trigger now events >>= k) post s := by
  apply under_transitionTask
  intro target edge db step
  have here := h.later step
  have since : Progress.Since reviewRely s (s.at_ db) :=
    ⟨step, List.Subset.refl _, List.prefix_refl _⟩
  constructor
  · intro row seen same built builds
    have key : row.id = id := Table.key_of_get? seen
    have reviewed : Reviewed taskId row (setTaskStatus target now row) := by
      refine ⟨rfl, ?_⟩
      rcases kind target edge with ⟨is, was, to_⟩ | ⟨was, to_⟩
      · exact Or.inl ⟨key.trans is, same.trans was, to_⟩
      · exact Or.inr ⟨same.trans was, to_⟩
    have moved : Accepting taskId began (events target) ⟨db, s.locks ++ [.task id],
        s.log ++ [.task (setTaskStatus target now row)]⟩ :=
      here.move seen rfl reviewed (budget target edge)
    have written : Progress.Since reviewRely s ⟨db, s.locks ++ [.task id],
        s.log ++ [.task (setTaskStatus target now row)]⟩ :=
      ⟨step, List.subset_append_left _ _, List.prefix_append _ _⟩
    apply under_appendEvents (I := fun rest s' => Accepting taskId began rest s' ∧
      ∃ row, loggedTask s'.log id = some row ∧ row.status = target) builds
    · exact fun _ _ _ kept step => ⟨kept.1.later step, kept.2⟩
    · rintro spec rest s' eventId occurredAt ⟨kept, last⟩
      refine ⟨kept.event eventId occurredAt, ?_⟩
      rw [loggedTask_append, loggedTask_event, Option.none_or]
      exact last
    · refine ⟨moved, setTaskStatus target now row, ?_, rfl⟩
      rw [loggedTask_append, loggedTask_single]
      exact if_pos key ▸ rfl
    · rintro s' ⟨kept, last⟩ later
      exact rest true target s' edge kept (written.trans later) (fun _ => last) (fun is => nomatch is)
  · intro missed
    exact rest false target _ edge here since (fun is => nomatch is) fun _ => missed

/-- One round of `unlockDownstream`. -/
def unlockDependent (completedTaskId : String) (edges : List DependencyRow)
    (statusById : String → Option TaskStatus) (now dependentId : String) : Txn Unit := do
  let found ← select (·.tasks.get? dependentId)
  match found with
  | none => return ()
  | some dependent =>
    if dependent.status != .backlog || dependent.acceptanceCriteria.isEmpty then return ()
    else
      let satisfied ← isDependentSatisfied (incomingEdges edges dependentId) statusById
      if satisfied then
        let _ ← transitionTask dependentId .backlog .triage now (dagNodeReady completedTaskId dependent)

theorem unlockDownstream_eq (completedTaskId : String) : unlockDownstream completedTaskId = (do
    let downstreamIds ← select (downstream completedTaskId)
    let edges ← select (·.dependencies.rows)
    let statusById ← select statusMap
    let now ← nowIso
    downstreamIds.forM (unlockDependent completedTaskId edges statusById now)) := rfl

theorem settled_of_status {id : String} (off : ∀ row, s.view.tasks.get? id = some row →
    row.status ≠ .backlog ∨ row.acceptanceCriteria = []) : Settled taskId began s id := by
  intro is
  obtain ⟨row, seen, backlog⟩ := (Option.any_eq_true _ _).mp is
  rw [Bool.and_eq_true, beq_iff_eq] at backlog
  rcases off row seen with moved | empty
  · exact absurd backlog.1 moved
  · rw [empty] at backlog
    cases backlog.2

theorem under_unlockDependent {edges : List DependencyRow} {statusById : String → Option TaskStatus}
    {now id : String} (h : Accepting taskId began [] s) (read : edges = began.dependencies.rows)
    (statuses : ∀ i, asDone taskId (statusMap began) i = some .done → statusById i = some .done) :
    under reviewRely (unlockDependent taskId edges statusById now id)
      (fun _ s' => Accepting taskId began [] s' ∧ Settled taskId began s' id) s := by
  unfold unlockDependent
  rw [under_select]
  intro db step
  have here := h.later step
  have settles : ∀ {s' : Standing}, Accepting taskId began [] s' → Settled taskId began s' id →
      under reviewRely (pure () : Txn Unit)
        (fun _ s' => Accepting taskId began [] s' ∧ Settled taskId began s' id) s' := by
    intro s' kept settled db step
    exact ⟨kept.later step, settled.later kept (kept.later step)
      ⟨step, List.Subset.refl _, List.prefix_refl _⟩⟩
  split
  · rename_i absent
    exact settles here (settled_of_status fun row seen => by rw [absent] at seen; cases seen)
  · rename_i dependent seen
    split
    · rename_i off
      apply settles here
      apply settled_of_status
      intro row is
      rw [seen] at is
      cases is
      simpa [imp_iff_not_or] using off
    · unfold isDependentSatisfied
      split
      · rename_i locked
        apply settles here
        intro _
        unfold satisfied
        dsimp only
        rw [← read, Bool.and_eq_false_iff]
        left
        rw [Bool.not_eq_true', ← Bool.not_eq_true] at locked
        rw [← Bool.not_eq_true]
        exact fun open_ => locked (isTaskUnlocked_mono (fun e _ _ => statuses _) open_)
      · rw [under_select]
        intro db' step'
        have next := here.later step'
        split
        · apply under_move next
          · intro target edge
            cases edge
            exact Or.inr ⟨rfl, rfl⟩
          · intro target edge i
            cases edge
            have key : dependent.id = id := Table.key_of_get? seen
            by_cases same : i = id
            · simp [dagNodeReady, isReady, same, key]
            · simp [dagNodeReady, isReady, same, key, Ne.symm same]
          · intro changed target s' edge kept _ hit miss
            cases edge
            apply settles kept
            apply settled_of_status
            intro row is
            left
            cases changed with
            | false => exact miss rfl row is
            | true =>
              obtain ⟨new, written, ready⟩ := hit rfl
              rw [task_view, written, Option.some_or] at is
              cases is
              rw [ready]
              decide
        · rename_i lacking
          apply settles next
          intro _
          unfold satisfied
          dsimp only
          rw [← read, Bool.and_eq_false_iff]
          right
          rw [← Bool.not_eq_true]
          intro evident
          apply lacking
          unfold hasRequiredEvidence hasEvidence at evident ⊢
          rw [next.artifacts]
          exact evident

theorem under_unlockDependents {edges : List DependencyRow}
    {statusById : String → Option TaskStatus} {now : String} {ids : List String}
    (h : Accepting taskId began [] s) (read : edges = began.dependencies.rows)
    (statuses : ∀ i, asDone taskId (statusMap began) i = some .done → statusById i = some .done) :
    under reviewRely (ids.forM (unlockDependent taskId edges statusById now))
      (fun _ s' => Accepting taskId began [] s' ∧ ∀ id ∈ ids, Settled taskId began s' id) s := by
  induction ids generalizing s with
  | nil => exact fun db step => ⟨h.later step, fun _ member => nomatch member⟩
  | cons id ids ih =>
    change under reviewRely (_ >>= fun _ => ids.forM _) _ _
    apply under_seq (under_unlockDependent h read statuses)
    rintro _ s' ⟨kept, settled⟩
    apply under_mono (under_and (ih kept) under_since)
    rintro _ s'' ⟨⟨kept', rest⟩, since⟩
    refine ⟨kept', fun i member => ?_⟩
    rcases List.mem_cons.mp member with rfl | old
    · exact settled.later kept kept' since
    · exact rest i old

/-- What an accepting review has done when it commits. -/
structure Unlocked (taskId : String) (began : Database) (s : Standing) : Prop where
  accepting : Accepting taskId began [] s
  settled : ∀ id ∈ downstream taskId began, Settled taskId began s id

theorem Unlocked.later {db : Database} (h : Unlocked taskId began s)
    (step : reviewRely.rel s.locks s.db db) : Unlocked taskId began (s.at_ db) :=
  ⟨h.accepting.later step, fun id member => (h.settled id member).later h.accepting
    (h.accepting.later step) ⟨step, List.Subset.refl _, List.prefix_refl _⟩⟩

/-- After its task is done, a review unlocks the dependents that it sees ready. -/
theorem under_unlockDownstream (h : Accepting taskId began [] s)
    (own : ∃ row, loggedTask s.log taskId = some row ∧ row.status = .done) :
    under reviewRely (unlockDownstream taskId) (fun _ s' => Unlocked taskId began s') s := by
  rw [unlockDownstream_eq, under_select]
  intro db step
  have here := h.later step
  have ids : downstream taskId (s.at_ db).view = downstream taskId began := by
    unfold downstream
    rw [here.dependencies]
  rw [ids, under_select]
  intro db' step'
  have next := here.later step'
  rw [under_select]
  intro db'' step''
  have last := next.later step''
  rw [under_nowIso]
  intro now
  have read : ((s.at_ db).at_ db').view.dependencies.rows = began.dependencies.rows := by
    rw [next.dependencies]
  apply under_mono (under_unlockDependents last read _) fun _ s' both => ⟨both.1, both.2⟩
  intro i is
  unfold asDone at is
  split at is
  · rename_i same
    obtain ⟨row, written, status⟩ := own
    unfold statusMap
    rw [same, task_view]
    simp [written, status]
  · exact (last.since.trans last.leaves).done is

theorem under_completeGoal {completed : Option EventSpec} (h : Unlocked taskId began s) :
    under reviewRely (completeGoal completed) (fun _ s' => Unlocked taskId began s') s := by
  cases completed with
  | none => exact fun db step => h.later step
  | some spec =>
    unfold completeGoal
    rw [under_logEvent]
    intro id occurredAt db step _ db' step'
    have here := h.later step
    have owing : Accepting taskId began [{ spec with type := .goalCompleted }] (s.at_ db) := by
      refine ⟨here.accepting.since, here.accepting.kinds, here.accepting.rows, fun i => ?_⟩
      rw [List.countP_cons]
      simpa [isReady] using here.accepting.ready i
    have logged := owing.event id occurredAt
    exact Unlocked.later ⟨logged, fun i member => (here.settled i member).later here.accepting logged
      ⟨reviewRely.refl _ _, List.subset_append_left _ _, List.prefix_append _ _⟩⟩ step'

theorem under_accept {ctx : Context} {services : ReviewServices} {comment : Option String} :
    under reviewRely (reviewTask ctx services taskId .accepted comment)
      (fun _ s' => Unlocked taskId began s') ⟨began, [], []⟩ := by
  unfold reviewTask
  rw [under_nowIso]
  intro now
  apply under_seq (under_reads .start reads_lockTask)
  intro tasks s h
  rw [under_orThrow]
  intro task _
  apply under_seq (under_reads h reads_refuse)
  intro _ s h
  rw [under_throwIf]
  intro _
  rw [if_neg (by decide)]
  apply under_seq (under_reads h reads_assertChildrenClosed)
  intro _ s h
  rw [under_select]
  intro db step
  apply under_move (h.later step)
  · intro target edge
    cases edge
    exact Or.inl ⟨rfl, rfl, rfl⟩
  · intro target _ i
    simp [reviewEvents, taskUpdated, isReady]
  · intro changed target s' edge h _ hit _
    cases edge
    rw [under_throwIf]
    intro moved
    rw [if_pos (by decide)]
    apply under_seq (under_unlockDownstream h (hit (by simpa using moved)))
    intro _ s h
    apply under_seq (under_completeGoal h)
    intro _ s h
    rw [under_select]
    intro db step
    have last := h.later step
    cases (s.at_ db).view.tasks.get? taskId with
    | none => trivial
    | some row => exact fun db step => last.later step

end Programs

/-! ## The accepting reviews of a run of the server -/

/-- A request to accept the work of a task. -/
structure AcceptCall where
  ctx : Context
  services : ReviewServices
  taskId : String
  comment : Option String

def AcceptCall.program (call : AcceptCall) : Txn TaskRow :=
  reviewTask call.ctx call.services call.taskId .accepted call.comment

abbrev AcceptWorld := World AcceptCall Database Write Lock String Failure TaskRow

/-- When the acceptance that commits is the last thing a waiting dependent lacks, the other
prerequisites were done when the transaction began. -/
def overlooked (w : AcceptWorld) (s : Session AcceptCall Database Write Lock String Failure TaskRow)
    (dependentId : String) : Bool :=
  let taskId := s.label.taskId
  waits w.db dependentId && satisfied (asDone taskId (statusMap w.db)) w.db dependentId &&
    !isTaskUnlocked (incomingEdges w.db.dependencies.rows dependentId)
      (asDone taskId (statusMap s.began))

def seesOthers (w : AcceptWorld) (id : Nat) : Act AcceptCall String → Prop
  | .commit => ∀ s ∈ w.sessions.rows, s.id = id →
      ∀ dependentId ∈ downstream s.label.taskId w.db, overlooked w s dependentId = false
  | _ => True

instance {w : AcceptWorld} {id : Nat} {act : Act AcceptCall String} :
    Decidable (seesOthers w id act) := by
  unfold seesOthers
  split <;> infer_instance

/-- The dependents of what was accepted since `start` are unlocked when they can be. -/
def NoneLost (start db : Database) : Prop :=
  ∀ taskId, statusMap start taskId ≠ some .done → statusMap db taskId = some .done →
    ∀ dependentId ∈ downstream taskId db,
      ¬ (waits db dependentId ∧ satisfied (statusMap db) db dependentId)

/-- A dependent is readied at most once since `start`. -/
def ReadyOnce (start db : Database) : Prop :=
  ∀ dependentId, (readyEvents db dependentId).length ≤ (readyEvents start dependentId).length + 1

structure UnlockState (start db : Database) : Prop where
  lost : NoneLost start db
  once : ReadyOnce start db
  /-- what was readied is not in the backlog -/
  moved : ∀ id, (readyEvents start id).length < (readyEvents db id).length →
    statusMap db id ≠ some .backlog

theorem UnlockState.start {db : Database} : UnlockState db db :=
  ⟨fun _ open_ done_ => absurd done_ open_, fun _ => Nat.le_succ _,
    fun _ less => absurd less (Nat.lt_irrefl _)⟩

theorem readyEvents_writeAll {log : List Write} {db : Database} {id : String} :
    (readyEvents (writeAll log db) id).length ≤
      (readyEvents db id).length + log.countP (readies id) := by
  unfold readyEvents Table.select
  induction log generalizing db with
  | nil => exact Nat.le_refl _
  | cons w log ih =>
    rw [writeAll_cons, List.countP_cons]
    have tail := @ih (w.apply db)
    have head : ((w.apply db).events.rows.filter fun e =>
        e.type == .dagNodeReady && e.taskId == some id).length ≤
        (db.events.rows.filter fun e => e.type == .dagNodeReady && e.taskId == some id).length +
          if readies id w then 1 else 0 := by
      rw [← List.countP_eq_length_filter, ← List.countP_eq_length_filter]
      cases w with
      | event e => exact Table.countP_put_le
      | _ => exact Nat.le_add_right _ _
    rw [write_eq]
    omega

theorem mem_downstream {db : Database} {taskId dependentId : String} :
    dependentId ∈ downstream taskId db ↔ ∃ e ∈ incomingEdges db.dependencies.rows dependentId,
      isGatingDependency e.type ∧ e.fromTaskId = taskId := by
  unfold downstream incomingEdges
  rw [List.mem_eraseDups, List.mem_map]
  constructor
  · rintro ⟨e, member, is⟩
    obtain ⟨there, edge⟩ := List.mem_filter.mp member
    rw [Bool.and_eq_true, beq_iff_eq] at edge
    exact ⟨e, List.mem_filter.mpr ⟨there, beq_iff_eq.mpr is⟩, edge.2, edge.1⟩
  · rintro ⟨e, member, gating, source⟩
    obtain ⟨there, is⟩ := List.mem_filter.mp member
    refine ⟨e, List.mem_filter.mpr ⟨there, ?_⟩, beq_iff_eq.mp is⟩
    rw [Bool.and_eq_true, beq_iff_eq]
    exact ⟨source, gating⟩

section Commit

variable {taskId : String} {start began : Database} {s : Standing}

theorem Unlocked.lost (h : Unlocked taskId began s) (state : NoneLost start s.db)
    (sees : ∀ id ∈ downstream taskId s.db, waits s.db id = true →
      satisfied (asDone taskId (statusMap s.db)) s.db id = true →
      isTaskUnlocked (incomingEdges s.db.dependencies.rows id)
        (asDone taskId (statusMap began)) = true) : NoneLost start s.view := by
  rintro other open_ done_ id dependent ⟨waiting, ready⟩
  have before := (h.accepting.waits_view.mp waiting).2
  rw [h.accepting.leaves.satisfied] at ready
  rw [mem_downstream, h.accepting.leaves.dependencies, ← mem_downstream] at dependent
  unfold satisfied at ready
  rw [Bool.and_eq_true] at ready
  by_cases gated : id ∈ downstream taskId s.db
  · have known := sees id gated before (by
      unfold satisfied
      rw [Bool.and_eq_true]
      refine ⟨isTaskUnlocked_mono (fun e _ _ is => ?_) ready.1, ready.2⟩
      unfold asDone
      split
      · rfl
      · rename_i differs
        exact (h.accepting.was_done is).resolve_left differs)
    have gated' : id ∈ downstream taskId began := by
      rw [mem_downstream, h.accepting.since.dependencies, ← mem_downstream] at gated
      exact gated
    have missing := h.settled id gated' waiting
    rw [← h.accepting.since.satisfied] at missing
    unfold satisfied at missing
    dsimp only at missing
    rw [known, ready.2] at missing
    cases missing
  · have apart : ∀ e ∈ incomingEdges s.db.dependencies.rows id, isGatingDependency e.type →
        e.fromTaskId ≠ taskId :=
      fun e member gating is => gated (mem_downstream.mpr ⟨e, member, gating, is⟩)
    have was : ∀ e ∈ incomingEdges s.db.dependencies.rows id, isGatingDependency e.type →
        statusMap s.view e.fromTaskId = some .done → statusMap s.db e.fromTaskId = some .done :=
      fun e member gating is => (h.accepting.was_done is).resolve_left (apart e member gating)
    obtain ⟨e, member, gating, source⟩ := mem_downstream.mp dependent
    apply state other open_ (source ▸ was e member gating (source ▸ done_)) id dependent
    refine ⟨before, ?_⟩
    unfold satisfied
    rw [Bool.and_eq_true]
    exact ⟨isTaskUnlocked_mono was ready.1, ready.2⟩

/-- A dependent that the transaction readied waited in the backlog before. -/
theorem Accepting.readied (h : Accepting taskId began [] s) {id : String}
    (logs : 0 < s.log.countP (readies id)) :
    s.log.countP (readies id) = 1 ∧ statusMap s.db id = some .backlog ∧
      statusMap s.view id = some .ready := by
  have bound := h.ready id
  rw [List.countP_nil, Nat.zero_add] at bound
  split at bound
  · rename_i ready
    obtain ⟨row, written, is⟩ := (Option.any_eq_true _ _).mp ready
    rw [beq_iff_eq] at is
    obtain ⟨_, old, there, reviewed⟩ := h.rows id row written
    unfold statusMap
    rw [task_view, written, there]
    rcases reviewed.status with ⟨_, _, now⟩ | ⟨was, _⟩
    · rw [is] at now
      cases now
    · exact ⟨by omega, congrArg some was, congrArg some is⟩
  · omega

theorem Unlocked.commit (h : Unlocked taskId began s) (state : UnlockState start s.db)
    (sees : ∀ id ∈ downstream taskId s.db, waits s.db id = true →
      satisfied (asDone taskId (statusMap s.db)) s.db id = true →
      isTaskUnlocked (incomingEdges s.db.dependencies.rows id)
        (asDone taskId (statusMap began)) = true) : UnlockState start s.view := by
  have counts : ∀ id, (readyEvents s.view id).length ≤ (readyEvents s.db id).length +
      s.log.countP (readies id) := fun id => readyEvents_writeAll
  refine ⟨h.lost state.lost sees, fun id => ?_, fun id more backlog => ?_⟩
  · have count := counts id
    rcases Nat.eq_zero_or_pos (s.log.countP (readies id)) with none_ | logs
    · have once := state.once id
      omega
    · obtain ⟨one, backlog, _⟩ := h.accepting.readied logs
      have unmoved : ¬ (readyEvents start id).length < (readyEvents s.db id).length :=
        fun less => state.moved id less backlog
      omega
  · have count := counts id
    rcases Nat.eq_zero_or_pos (s.log.countP (readies id)) with none_ | logs
    · exact state.moved id (by omega) (h.accepting.leaves.backlog backlog)
    · obtain ⟨_, _, ready⟩ := h.accepting.readied logs
      rw [ready] at backlog
      cases backlog

end Commit

theorem unlock_rules {start : Database} : World.Rules AcceptCall.program seesOthers reviewRely
    (fun call began _ s => Unlocked call.taskId began s) (UnlockState start) := by
  constructor
  · exact fun _ _ _ => under_accept
  · rintro w s _ there - allowed state guarded unlocked
    constructor
    · apply unlocked.commit state
      intro id gated waiting ready
      have sees := allowed s there rfl id gated
      have waiting : waits w.db id = true := waiting
      have ready : satisfied (asDone s.label.taskId (statusMap w.db)) w.db id = true := ready
      unfold overlooked at sees
      dsimp only at sees
      rw [waiting, ready] at sees
      simp only [Bool.true_and, Bool.not_eq_false'] at sees
      exact sees
    · intro others free
      refine ⟨unlocked.accepting.leaves, fun k held => ?_⟩
      apply Lock.same_writeAll
      rintro x written rfl
      exact free _ held (guarded x written _ (List.mem_singleton.mpr rfl))

theorem dependents_unlocked {ls : List (Nat × Act AcceptCall String)} {db : Database}
    {w : AcceptWorld}
    (path : Path (World.Steps AcceptCall.program seesOthers) ls (World.quiet db) w) :
    NoneLost db w.db ∧ ReadyOnce db w.db := by
  have state := (World.holds_path unlock_rules path (World.holds_quiet .start)).1.invariant
  exact ⟨state.lost, state.once⟩

/-! Two prerequisites of one dependent. -/
namespace Sample

def reviewed (id : String) : TaskRow := { id, projectId := "p1", status := .review, updatedAt := clock }

def joined : Database :=
  { Database.empty with
    tasks := ((Table.empty.put (reviewed "a")).put (reviewed "b")).put
      { id := "d", projectId := "p1", status := .backlog, acceptanceCriteria := ["merged"],
        updatedAt := clock }
    dependencies := (Table.empty.put ⟨"x1", "a", "d", .blocks⟩).put ⟨"x2", "b", "d", .blocks⟩ }

def accepting (taskId : String) : AcceptCall := ⟨⟨"u1", platform⟩, {}, taskId, none⟩

/-- Up to the events of the acceptance. -/
def accepts (id : Nat) (taskId : String) : List (Nat × Act AcceptCall String) :=
  [(id, .begin (accepting taskId)), (id, .draw clock), (id, .statement), (id, .statement),
   (id, .statement), (id, .statement), (id, .draw (taskId ++ "1")), (id, .draw clock),
   (id, .draw (taskId ++ "2")), (id, .draw clock), (id, .statement), (id, .statement)]

/-- The edges and the statuses, the read of the dependent. -/
def looksDown (id : Nat) : List (Nat × Act AcceptCall String) :=
  [(id, .statement), (id, .statement), (id, .statement), (id, .draw clock), (id, .statement)]

/-- The evidence, the transition of the dependent and its events. -/
def unlocks (id : Nat) : List (Nat × Act AcceptCall String) :=
  [(id, .statement), (id, .statement), (id, .draw "d1"), (id, .draw clock), (id, .draw "d2"),
   (id, .draw clock), (id, .statement), (id, .statement)]

def ends (id : Nat) : List (Nat × Act AcceptCall String) := [(id, .statement), (id, .commit)]

end Sample

open Sample

theorem dependents_unlocked_in_turn :
    ∃ w, World.exec AcceptCall.program seesOthers
        (accepts 1 "a" ++ looksDown 1 ++ ends 1 ++ accepts 2 "b" ++ looksDown 2 ++ unlocks 2 ++ ends 2)
        (World.quiet joined) = some w ∧
      statusMap w.db "d" = some .ready ∧ NoneLost joined w.db ∧ ReadyOnce joined w.db := by
  have runs : ((World.exec AcceptCall.program seesOthers
      (accepts 1 "a" ++ looksDown 1 ++ ends 1 ++ accepts 2 "b" ++ looksDown 2 ++ unlocks 2 ++ ends 2)
      (World.quiet joined)).map fun w => statusMap w.db "d") = some (some .ready) := by decide +kernel
  obtain ⟨w, found, ready⟩ := Option.map_eq_some_iff.mp runs
  exact ⟨w, found, ready, dependents_unlocked (World.exec_path found)⟩

/-- Each of the two reviews still sees the other task in review. -/
theorem dependent_lost :
    ¬ ∀ (ls : List (Nat × Act AcceptCall String)) (db : Database) (w : AcceptWorld),
      Path (World.Steps AcceptCall.program fun _ _ _ => True) ls (World.quiet db) w →
      w.sessions.rows = [] → NoneLost db w.db ∧ ReadyOnce db w.db := by
  intro claimed
  let together := World.exec AcceptCall.program (fun _ _ _ => True)
    (accepts 1 "a" ++ accepts 2 "b" ++ looksDown 1 ++ looksDown 2 ++ ends 1 ++ ends 2)
    (World.quiet joined)
  have decided : (together.map fun w => (w.sessions.rows.length, statusMap w.db "a",
      decide ("d" ∈ downstream "a" w.db), waits w.db "d", satisfied (statusMap w.db) w.db "d")) =
      some (0, some .done, true, true, true) := by decide +kernel
  obtain ⟨w, found, is⟩ := Option.map_eq_some_iff.mp decided
  simp only [Prod.mk.injEq, decide_eq_true_eq] at is
  obtain ⟨closed, done_, dependent, waiting, ready⟩ := is
  have lost := (claimed _ joined w (World.exec_path found) (List.length_eq_zero_iff.mp closed)).1
  exact lost "a" (by decide) done_ "d" dependent ⟨waiting, ready⟩

end Artoo.Server
