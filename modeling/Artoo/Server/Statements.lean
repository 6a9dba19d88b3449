import Artoo.Server.Types

/-! Statements of the server's transactions, the event writer and the guarded transitions. -/
namespace Artoo.Server
open Artoo.Lib Artoo.Protocol Artoo.Domain

variable {α : Type}

def select (query : Database → α) : Txn α := .stmt (fun _ => []) (fun _ => []) fun db => .done (query db)

/-- `select … for update`. -/
def selectForUpdate (query : Database → List α) (lock : α → Lock) : Txn (List α) :=
  .stmt (fun db => (query db).map lock) (fun _ => []) fun db => .done (query db)

/-- `update … where … returning`, given the matching rows. -/
def update (matching : Database → List α) (set : α → Write) : Txn (List α) :=
  .stmt (fun _ => []) (fun db => (matching db).map set) fun db => .done (matching db)

/-- `insert`, refused where the key is taken. -/
def insert (taken : Database → Bool) (w : Write) : Txn Unit :=
  .stmt (fun _ => []) (fun db => if taken db then [] else [w]) fun db =>
    if taken db then .fail .constraint else .done ()

/-- `ctx.idGen.generate(…)`. -/
def generate : Txn String := .draw .done

/-- `ctx.clock.nowIso()`. -/
def nowIso : Txn String := .draw .done

def throwIf (refused : Bool) (e : Failure) : Txn Unit := if refused then .fail e else .done ()

def orThrow (found : Option α) (e : Failure) : Txn α :=
  match found with
  | some a => .done a
  | none => .fail e

structure EventSpec where
  type : EventType
  actorType : ActorType
  actorId : String
  correlationId : String
  projectId : Option String := none
  taskId : Option String := none
  roomId : Option String := none
  runId : Option String := none
  goalId : Option String := none
  sequence : Option Int := none
  payload : Payload := []

def EventSpec.row (spec : EventSpec) (id occurredAt : String) : EventRow :=
  { id, projectId := spec.projectId, type := spec.type, actorType := spec.actorType,
    actorId := spec.actorId, taskId := spec.taskId, roomId := spec.roomId, runId := spec.runId,
    goalId := spec.goalId, correlationId := spec.correlationId, sequence := spec.sequence,
    payload := spec.payload, occurredAt }

def buildEvent (spec : EventSpec) : Txn EventRow := do
  let id ← generate
  let occurredAt ← nowIso
  return spec.row id occurredAt

def appendEvent (e : EventRow) : Txn Unit := insert (fun db => (db.events.get? e.id).isSome) (.event e)

/-- `appendEvent(tx, buildEvent(ctx, spec))`. -/
def logEvent (spec : EventSpec) : Txn EventRow := do
  let event ← buildEvent spec
  appendEvent event
  return event

structure TransitionResult (σ : Type) where
  changed : Bool
  target : σ

def setTaskStatus (target : TaskStatus) (now : String) (row : TaskRow) : TaskRow :=
  { row with status := target, updatedAt := now }

/-- The update fires only where the row is still in `source`. -/
def transitionTask (taskId : String) (source : TaskStatus) (trigger : TaskTrigger) (now : String)
    (events : TaskStatus → List EventSpec := fun _ => []) : Txn (TransitionResult TaskStatus) := do
  let target ← orThrow (applyTaskTransition source trigger) (.invalidTaskTransition source trigger)
  let updated ← update (fun db => (db.tasks.get? taskId).toList.filter (·.status == source))
    fun row => .task (setTaskStatus target now row)
  let changed := !updated.isEmpty
  if changed then
    let built ← (events target).mapM buildEvent
    built.forM appendEvent
  return { changed, target }

/-- The patch of a run transition; an absent field is left as it is. -/
structure RunPatch where
  startedAt : Option String := none
  endedAt : Option String := none
  failureReason : Option String := none

def RunPatch.apply (patch : RunPatch) (target : RunStatus) (row : RunRow) : RunRow :=
  { row with
    status := target
    startedAt := patch.startedAt <|> row.startedAt
    endedAt := patch.endedAt <|> row.endedAt
    failureReason := patch.failureReason <|> row.failureReason }

def transitionRun (runId : String) (source : RunStatus) (trigger : RunTrigger)
    (patch : RunPatch := {}) : Txn (TransitionResult RunStatus) := do
  let target ← orThrow (applyRunTransition source trigger) (.invalidRunTransition source trigger)
  let updated ← update (fun db => (db.runs.get? runId).toList.filter (·.status == source))
    fun row => .run (patch.apply target row)
  return { changed := !updated.isEmpty, target }

/-! ## What a transaction that contains the statement ends in -/

section Rules
open Tx

variable {post : α → Database → Prop} {db : Database}

@[simp] theorem write_eq (w : Write) (db : Database) : Tables.write w db = w.apply db := rfl

@[simp] theorem wp_select {query : Database → α} : wp (select query) post db ↔ post (query db) db :=
  Iff.rfl

@[simp] theorem wp_selectForUpdate {query : Database → List α} {lock : α → Lock}
    {post : List α → Database → Prop} :
    wp (selectForUpdate query lock) post db ↔ post (query db) db := Iff.rfl

@[simp] theorem wp_update {matching : Database → List α} {set : α → Write}
    {post : List α → Database → Prop} :
    wp (update matching set) post db ↔
      post (matching db) (writeAll ((matching db).map set) db) := Iff.rfl

@[simp] theorem wp_insert {taken : Database → Bool} {w : Write} {post : Unit → Database → Prop} :
    wp (insert taken w) post db ↔ (taken db = false → post () (w.apply db)) := by
  unfold insert
  rw [wp_stmt]
  cases taken db with
  | true => simp
  | false => simp

@[simp] theorem wp_generate {post : String → Database → Prop} :
    wp generate post db ↔ ∀ id, post id db := Iff.rfl

@[simp] theorem wp_nowIso {post : String → Database → Prop} :
    wp nowIso post db ↔ ∀ now, post now db := Iff.rfl

@[simp] theorem wp_throwIf {refused : Bool} {e : Failure} {post : Unit → Database → Prop} :
    wp (throwIf refused e) post db ↔ (refused = false → post () db) := by
  cases refused with
  | true => simp [throwIf]
  | false => simp [throwIf]

@[simp] theorem wp_orThrow {found : Option α} {e : Failure} :
    wp (orThrow found e) post db ↔ ∀ a, found = some a → post a db := by
  cases found with
  | none => simp [orThrow]
  | some a => simp [orThrow]

theorem run_throwIf {input : Nat → String} {n : Nat} {refused : Bool} {e : Failure}
    (passes : refused = false) : run input (throwIf refused e) n db = .ok ((), db, n) := by
  rw [passes]
  rfl

theorem run_orThrow {input : Nat → String} {n : Nat} {found : Option α} {e : Failure} {a : α}
    (is : found = some a) : run input (orThrow found e) n db = .ok (a, db, n) := by
  rw [is]
  rfl

theorem run_select {β : Type} {input : Nat → String} {n : Nat} {g : Database → α}
    {k : α → Txn β} : Tx.run input (select g >>= k) n db = Tx.run input (k (g db)) n db := rfl

theorem wp_logEvent {spec : EventSpec} {post : EventRow → Database → Prop} :
    wp (logEvent spec) post db ↔
      ∀ id occurredAt, db.events.get? id = none →
        post (spec.row id occurredAt)
          { db with events := db.events.put (spec.row id occurredAt) } := by
  unfold logEvent buildEvent appendEvent
  simp only [wp_bind, wp_generate, wp_nowIso, pure_eq, wp_done, wp_insert, Write.apply,
    Option.isSome_eq_false_iff, Option.isNone_iff_eq_none]
  exact Iff.rfl

/-- The row a guarded update leaves. -/
def guarded {σ : Type} [DecidableEq σ] (status : α → σ) (source : σ) (set : α → α) (row : α) : α :=
  if status row == source then set row else row

theorem writeAll_guarded {κ σ : Type} [DecidableEq κ] [DecidableEq σ] {key : α → κ}
    (table : Database → Table key) (write : α → Write) (put : Table key → Database → Database)
    {status : α → σ} {source : σ} {f : α → α} {k : κ}
    (writes : ∀ row db, (write row).apply db = put ((table db).put row) db)
    (same : ∀ db, put (table db) db = db) :
    writeAll ((((table db).get? k).toList.filter (status · == source)).map
        fun row => write (f row)) db =
      put ((table db).adjust k (guarded status source f)) db := by
  unfold Table.adjust guarded
  cases found : (table db).get? k with
  | none => exact (same db).symm
  | some row =>
    cases hit : status row == source with
    | true =>
      simp only [Option.toList_some, List.filter_cons, hit, if_true, List.filter_nil, List.map_cons,
        List.map_nil, writeAll_cons, writeAll_nil, write_eq]
      exact writes (f row) db
    | false =>
      simp only [Option.toList_some, List.filter_cons, hit, List.filter_nil, List.map_nil,
        writeAll_nil, Bool.false_eq_true, if_false]
      rw [Table.put_of_mem (Table.mem_of_get? found), same]

/-- Whether a guarded update changes the row. -/
def changes {σ : Type} [DecidableEq σ] (status : α → σ) (source : σ) (found : Option α) : Bool :=
  found.any (status · == source)

theorem changes_eq {σ : Type} [DecidableEq σ] {status : α → σ} {source : σ} {found : Option α} :
    (!(found.toList.filter (status · == source)).isEmpty) = changes status source found := by
  cases found with
  | none => rfl
  | some row =>
    unfold changes
    cases hit : status row == source with
    | true => simp [hit]
    | false => simp [hit]

/-- The database after a guarded transition of a run. -/
def afterRun (runId : String) (source target : RunStatus) (patch : RunPatch) (db : Database) :
    Database :=
  { db with runs := db.runs.adjust runId (guarded RunRow.status source (patch.apply target)) }

def afterTask (taskId : String) (source target : TaskStatus) (now : String) (db : Database) :
    Database :=
  { db with tasks := db.tasks.adjust taskId (guarded TaskRow.status source (setTaskStatus target now)) }

@[simp] theorem wp_transitionRun {runId : String} {source : RunStatus} {trigger : RunTrigger}
    {patch : RunPatch} {post : TransitionResult RunStatus → Database → Prop} :
    wp (transitionRun runId source trigger patch) post db ↔
      ∀ target, applyRunTransition source trigger = some target →
        post ⟨changes RunRow.status source (db.runs.get? runId), target⟩
          (afterRun runId source target patch db) := by
  unfold transitionRun afterRun
  simp only [wp_bind, wp_orThrow, wp_update, pure_eq, wp_done]
  apply forall_congr'
  intro target
  rw [changes_eq, writeAll_guarded Database.runs Write.run (fun t db => { db with runs := t })
    (fun _ _ => rfl) fun _ => rfl]

/-- The transition along a known edge of the state machine. -/
theorem wp_runTo (target : RunStatus) {runId : String} {source : RunStatus} {trigger : RunTrigger}
    {patch : RunPatch} {post : TransitionResult RunStatus → Database → Prop}
    (edge : applyRunTransition source trigger = some target) :
    wp (transitionRun runId source trigger patch) post db ↔
      post ⟨changes RunRow.status source (db.runs.get? runId), target⟩
        (afterRun runId source target patch db) := by
  rw [wp_transitionRun, edge]
  constructor
  · exact fun h => h target rfl
  · rintro h _ ⟨⟩
    exact h

end Rules

/-! ## What a transaction that contains the statement writes -/

section Writes
open Tx

variable {P : Database → Write → Prop}

theorem writes_select {query : Database → α} : Writes P (select query) :=
  fun _ => ⟨fun _ written => absurd written List.not_mem_nil, trivial⟩

theorem writes_selectForUpdate {query : Database → List α} {lock : α → Lock} :
    Writes P (selectForUpdate query lock) :=
  fun _ => ⟨fun _ written => absurd written List.not_mem_nil, trivial⟩

theorem writes_update {matching : Database → List α} {set : α → Write}
    (rows : ∀ view, ∀ a ∈ matching view, P view (set a)) : Writes P (update matching set) := by
  intro view
  refine ⟨fun w written => ?_, trivial⟩
  obtain ⟨a, member, rfl⟩ := List.mem_map.mp written
  exact rows view a member

theorem writes_insert {taken : Database → Bool} {w : Write}
    (row : ∀ view, taken view = false → P view w) : Writes P (insert taken w) := by
  intro view
  dsimp only
  cases fresh : taken view with
  | true => exact ⟨fun _ written => absurd written List.not_mem_nil, trivial⟩
  | false =>
    refine ⟨fun w' written => ?_, trivial⟩
    rw [if_neg (by simp), List.mem_singleton] at written
    exact written ▸ row view fresh

theorem writes_generate : Writes P generate := fun _ => trivial

theorem writes_nowIso : Writes P nowIso := fun _ => trivial

theorem writes_throwIf {refused : Bool} {e : Failure} : Writes P (throwIf refused e) := by
  cases refused <;> trivial

theorem writes_orThrow {found : Option α} {e : Failure} : Writes P (orThrow found e) := by
  cases found <;> trivial

/-- An event is new where it is stored. -/
theorem writes_logRow {spec : EventSpec}
    (event : ∀ view id occurredAt, view.events.get? id = none →
      P view (.event (spec.row id occurredAt))) :
    Writes P (logEvent spec) := by
  unfold logEvent buildEvent
  rw [bind_assoc]
  apply writes_bind writes_generate
  intro id
  rw [bind_assoc]
  apply writes_bind writes_nowIso
  intro occurredAt
  rw [pure_bind]
  refine writes_bind (writes_insert fun view fresh => ?_) fun _ => writes_done
  have absent : view.events.get? (spec.row id occurredAt).id = none := by simpa using fresh
  exact event view id occurredAt absent

theorem writes_logEvent {spec : EventSpec} (event : ∀ view e, P view (.event e)) :
    Writes P (logEvent spec) := writes_logRow fun view _ _ _ => event view _

theorem writes_buildEvents {specs : List EventSpec} : Writes P (specs.mapM buildEvent) := by
  induction specs with
  | nil => exact writes_done
  | cons spec specs ih =>
    rw [List.mapM_cons]
    apply writes_bind
    · apply writes_bind writes_generate
      intro id
      exact writes_bind writes_nowIso fun _ => writes_done
    · exact fun _ => writes_bind ih fun _ => writes_done

/-- The events of some specs are built, and what follows writes such rows. -/
theorem writes_builtEvents {specs : List EventSpec} {next : List EventRow → Txn α}
    (rest : ∀ built, (∀ e ∈ built, ∃ spec ∈ specs, ∃ id occurredAt, e = spec.row id occurredAt) →
      Writes P (next built)) : Writes P (specs.mapM buildEvent >>= next) := by
  induction specs generalizing next with
  | nil =>
    rw [List.mapM_nil, pure_bind]
    exact rest [] fun _ member => absurd member List.not_mem_nil
  | cons spec specs ih =>
    rw [List.mapM_cons, bind_assoc]
    unfold buildEvent
    rw [bind_assoc]
    apply writes_bind writes_generate
    intro id
    rw [bind_assoc]
    apply writes_bind writes_nowIso
    intro occurredAt
    rw [pure_bind, bind_assoc]
    apply ih
    intro built rows
    rw [pure_bind]
    apply rest
    intro e member
    rcases List.mem_cons.mp member with rfl | later
    · exact ⟨spec, List.mem_cons_self, id, occurredAt, rfl⟩
    · obtain ⟨other, there, made⟩ := rows e later
      exact ⟨other, List.mem_cons_of_mem _ there, made⟩

theorem writes_transitionRows {taskId now : String} {source : TaskStatus} {trigger : TaskTrigger}
    {events : TaskStatus → List EventSpec} (task : ∀ view row, P view (.task row))
    (event : ∀ target, ∀ spec ∈ events target, ∀ view id occurredAt, view.events.get? id = none →
      P view (.event (spec.row id occurredAt))) :
    Writes P (transitionTask taskId source trigger now events) := by
  unfold transitionTask
  apply writes_bind writes_orThrow
  intro target
  apply writes_bind (writes_update fun view _ _ => task view _)
  intro updated
  dsimp only
  split
  · apply writes_builtEvents
    intro built rows
    refine writes_bind (writes_forM fun e member => writes_insert fun view fresh => ?_)
      fun _ => writes_done
    obtain ⟨spec, there, id, occurredAt, rfl⟩ := rows e member
    have absent : view.events.get? (spec.row id occurredAt).id = none := by simpa using fresh
    exact event target spec there view id occurredAt absent
  · exact writes_done

theorem writes_transitionTask {taskId now : String} {source : TaskStatus} {trigger : TaskTrigger}
    {events : TaskStatus → List EventSpec} (task : ∀ view row, P view (.task row))
    (event : ∀ view e, P view (.event e)) :
    Writes P (transitionTask taskId source trigger now events) :=
  writes_transitionRows task fun _ _ _ view _ _ _ => event view _

end Writes

/-- The transition of a task along a known edge, and what logging its events keeps. -/
theorem wp_moveTask {R : Database → Database → Prop} [Std.Refl R] [IsTrans Database R]
    (logs : ∀ e, Tx.Keeps R (appendEvent e)) (target : TaskStatus) {taskId now : String}
    {source : TaskStatus} {trigger : TaskTrigger} {events : TaskStatus → List EventSpec}
    {post : TransitionResult TaskStatus → Database → Prop} {db : Database}
    (edge : applyTaskTransition source trigger = some target)
    (h : ∀ db', R (afterTask taskId source target now db) db' →
      post ⟨changes TaskRow.status source (db.tasks.get? taskId), target⟩ db') :
    Tx.wp (transitionTask taskId source trigger now events) post db := by
  unfold transitionTask
  simp only [Tx.wp_bind, wp_orThrow, wp_update, edge, Option.some.injEq, forall_eq']
  rw [changes_eq, writeAll_guarded Database.tasks Write.task (fun t db => { db with tasks := t })
    (fun _ _ => rfl) fun _ => rfl]
  split
  · have built : Tx.Reads ((events target).mapM buildEvent) := writes_buildEvents
    apply built.wp_bind
    intro rows
    apply Tx.wp_keeps (Tx.keeps_forM fun e _ => logs e : Tx.Keeps R _)
    exact fun _ => h
  · exact h _ (Std.Refl.refl _)

end Artoo.Server
