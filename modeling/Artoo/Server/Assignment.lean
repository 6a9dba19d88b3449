import Artoo.Server.LeaseExpiry
import Artoo.Server.System

/-! What an assignment leaves: the run with its leases and the moved task or, where its transaction
fails, nothing. -/
namespace Artoo.Server
open Artoo.Lib Artoo.Protocol Artoo.Domain Tx

/-- The tasks and the runs. -/
def work (db : Database) : Table TaskRow.id × Table RunRow.id := (db.tasks, db.runs)

def workLeases (db : Database) : Table TaskRow.id × Table RunRow.id × Table LeaseRow.id :=
  (db.tasks, db.runs, db.leases)

theorem parts {db db' : Database} (h : Same workLeases db db') :
    db'.tasks = db.tasks ∧ db'.runs = db.runs ∧ db'.leases = db.leases := by
  unfold Same workLeases at h
  rwa [Prod.mk.injEq, Prod.mk.injEq] at h

theorem keeps_appended {e : EventRow} : Keeps (Same workLeases) (appendEvent e) :=
  Writes.same (writes_insert fun _ _ _ => rfl)

/-! ## The leases of a run -/

/-- The run holds the write lease of a key. -/
structure Holds (runId key : String) (l : LeaseRow) : Prop where
  type : l.holderType = .run
  holder : l.holderId = runId
  path : l.path = key
  mode : l.mode = .write
  held : l.status = .held

/-- A lease that a reservation adds. -/
def reservedRow (params : ReserveParams) (id path now : String) : LeaseRow :=
  { id, projectId := params.projectId, taskId := params.taskId, runId := some params.runId,
    holderType := .run, holderId := params.runId, path, mode := .write, status := .held,
    acquiredAt := now, expiresAt := none, releasedAt := none }

/-- Each key is held by the run, by a lease it held before or by one that is added. -/
structure Reserves (params : ReserveParams) (keys : List String) (leases leases' : Table LeaseRow.id)
    (added : List LeaseRow) : Prop where
  rows : leases'.rows = leases.rows ++ added
  made : ∀ l ∈ added, ∃ now, l = reservedRow params l.id l.path now
  paths : (added.map (·.path)).Sublist keys
  held : ∀ key ∈ keys, ∃ l ∈ leases', Holds params.runId key l

theorem Reserves.mem {params : ReserveParams} {keys : List String}
    {leases leases' : Table LeaseRow.id} {added : List LeaseRow}
    (h : Reserves params keys leases leases' added) {l : LeaseRow} (there : l ∈ leases) :
    l ∈ leases' := by
  rw [Table.mem_def, h.rows]
  exact List.mem_append_left _ there

theorem holds_reservedRow {params : ReserveParams} {id path now : String} :
    Holds params.runId path (reservedRow params id path now) := ⟨rfl, rfl, rfl, rfl, rfl⟩

/-- The loop over the keys, by recursion on them. -/
theorem wp_reserveKeys {params : ReserveParams} {now : String} {keys : List String}
    {active : List LeaseRow} {reserved : List String} {db : Database}
    (there : ∀ l ∈ active, l ∈ db.leases ∧ l.status = .held) :
    wp (reserveKeys params now keys active reserved)
      (fun _ db' => ∃ added, Reserves params keys db.leases db'.leases added) db := by
  induction keys generalizing active reserved db with
  | nil => exact ⟨[], by simp, List.forall_mem_nil _, List.Sublist.refl _, List.forall_mem_nil _⟩
  | cons path keys ih =>
    unfold reserveKeys
    split
    · rename_i existing found
      apply wp_mono (ih there)
      rintro _ db' ⟨added, rest⟩
      refine ⟨added, rest.rows, rest.made, rest.paths.cons _, fun key member => ?_⟩
      rcases List.mem_cons.mp member with rfl | member
      · have matching := List.find?_some found
        unfold ownedByRun at matching
        simp only [Bool.and_eq_true, beq_iff_eq] at matching
        obtain ⟨⟨⟨type, holder⟩, path⟩, mode⟩ := matching
        obtain ⟨row, held⟩ := there existing (List.mem_of_find?_eq_some found)
        exact ⟨existing, rest.mem row, type, holder, path, mode, held⟩
      · exact rest.held key member
    · split
      · trivial
      · rw [wp_bind, wp_generate]
        intro id
        unfold insertLease
        rw [wp_bind, wp_insert, Option.isSome_eq_false_iff, Option.isNone_iff_eq_none]
        intro fresh
        rw [wp_bind, wp_logEvent]
        intro _ _ _
        have grown : (db.leases.put (reservedRow params id path now)).rows =
            db.leases.rows ++ [reservedRow params id path now] := Table.rows_put_fresh fresh
        refine wp_mono (ih ?_) ?_
        · intro l member
          rw [Table.mem_def]
          change l ∈ (db.leases.put (reservedRow params id path now)).rows ∧ _
          rw [grown]
          rcases List.mem_append.mp member with old | new
          · exact ⟨List.mem_append_left _ (there l old).1, (there l old).2⟩
          · rw [List.mem_singleton.mp new]
            exact ⟨List.mem_append_right _ (List.mem_singleton_self _), rfl⟩
        · rintro _ db' ⟨added, rest⟩
          have rows := rest.rows
          change db'.leases.rows = (db.leases.put (reservedRow params id path now)).rows ++ _ at rows
          rw [grown, List.append_assoc] at rows
          refine ⟨reservedRow params id path now :: added, rows, ?_, rest.paths.cons_cons _, ?_⟩
          · intro l member
            rcases List.mem_cons.mp member with rfl | member
            · exact ⟨now, rfl⟩
            · exact rest.made l member
          · intro key member
            rcases List.mem_cons.mp member with rfl | member
            · refine ⟨reservedRow params id key now, ?_, holds_reservedRow⟩
              rw [Table.mem_def, rows]
              exact List.mem_append_right _ List.mem_cons_self
            · exact rest.held key member

/-- The canonical keys of some paths, each once. -/
structure Canonical (ctx : Context) (paths keys : List String) : Prop where
  valid : ∀ raw ∈ paths, ∃ key,
    normalizeLeasePath ctx.platform.toLowerCase leasePathRoot raw = .ok key
  mem : ∀ key, key ∈ keys ↔
    ∃ raw ∈ paths, normalizeLeasePath ctx.platform.toLowerCase leasePathRoot raw = .ok key
  apart : keys.Nodup

theorem canonical_nil {ctx : Context} : Canonical ctx [] [] :=
  ⟨nofun, fun _ => ⟨nofun, nofun⟩, List.nodup_nil⟩

theorem Canonical.snoc {ctx : Context} {paths keys : List String} {raw path : String}
    (h : Canonical ctx paths keys)
    (normal : normalizeLeasePath ctx.platform.toLowerCase leasePathRoot raw = .ok path) :
    Canonical ctx (paths ++ [raw]) (if keys.contains path then keys else keys ++ [path]) := by
  have mem : ∀ key, key ∈ (if keys.contains path then keys else keys ++ [path]) ↔
      key ∈ keys ∨ key = path := by
    intro key
    split
    · rename_i there
      rw [List.contains_iff_mem] at there
      exact ⟨Or.inl, fun h => h.elim id fun is => is ▸ there⟩
    · rw [List.mem_append, List.mem_singleton]
  constructor
  · intro x member
    rcases List.mem_append.mp member with old | new
    · exact h.valid x old
    · exact ⟨path, List.mem_singleton.mp new ▸ normal⟩
  · intro key
    rw [mem, h.mem]
    constructor
    · rintro (⟨x, old, is⟩ | rfl)
      · exact ⟨x, List.mem_append_left _ old, is⟩
      · exact ⟨raw, List.mem_append_right _ (List.mem_singleton_self raw), normal⟩
    · rintro ⟨x, member, is⟩
      rcases List.mem_append.mp member with old | new
      · exact Or.inl ⟨x, old, is⟩
      · rw [List.mem_singleton.mp new, normal] at is
        cases is
        exact Or.inr rfl
  · split
    · exact h.apart
    · rename_i fresh
      rw [List.contains_iff_mem] at fresh
      refine List.nodup_append.mpr ⟨h.apart, List.nodup_singleton _, fun a old b new same => ?_⟩
      rw [List.mem_singleton.mp new] at same
      exact fresh (same ▸ old)

/-- The loop over the paths; what it has read is canonical in its accumulator. -/
theorem wp_leaseKeys {ctx : Context} {read paths seen : List String}
    {post : List String → Database → Prop} {db : Database} (h : Canonical ctx read seen)
    (rest : ∀ keys, Canonical ctx (read ++ paths) keys → post keys db) :
    wp (leaseKeys ctx paths seen) post db := by
  induction paths generalizing read seen with
  | nil =>
    rw [List.append_nil] at rest
    exact rest seen h
  | cons raw paths ih =>
    unfold leaseKeys
    split
    · trivial
    · rename_i path normal
      apply ih (h.snoc normal)
      rw [List.append_assoc]
      exact rest

/-- The leases of a state, some of them expired. -/
structure Lapsed (leases leases' : Table LeaseRow.id) : Prop where
  kept : ∀ old ∈ leases, old ∈ leases' ∨ { old with status := .expired } ∈ leases'
  old : ∀ l ∈ leases', ∃ old ∈ leases, l = old ∨ l = { old with status := .expired }

theorem lapsed_swept {now : String} {leases leases' : Table LeaseRow.id}
    {sweep : List LeaseRow}
    (h : ∀ id, leases'.get? id = (leases.get? id).map (swept sweep now)) :
    Lapsed leases leases' := by
  have either : ∀ l, swept sweep now l = l ∨ swept sweep now l = { l with status := .expired } := by
    intro l
    unfold swept
    split
    · exact Or.inr rfl
    · exact Or.inl rfl
  constructor
  · intro old member
    have found : leases'.get? old.id = some (swept sweep now old) := by
      rw [h, Table.get?_of_mem member]
      rfl
    have there := Table.mem_of_get? found
    rcases either old with same | lapsed
    · exact Or.inl (same ▸ there)
    · exact Or.inr (lapsed ▸ there)
  · intro l member
    have found := Table.get?_of_mem member
    rw [h] at found
    obtain ⟨old, was, is⟩ := Option.map_eq_some_iff.mp found
    refine ⟨old, Table.mem_of_get? was, ?_⟩
    rw [← is]
    exact either old

/-- What a reservation of the requested paths leaves. -/
structure Leased (ctx : Context) (params : ReserveParams) (leases leases' : Table LeaseRow.id) :
    Prop where
  reserves : ∃ keys lapsed added, Canonical ctx params.paths keys ∧ Lapsed leases lapsed ∧
    Reserves params keys lapsed leases' added

theorem wp_reserveRunLeases {ctx : Context} {params : ReserveParams} {db : Database} :
    wp (reserveRunLeases ctx params) (fun _ db' => Leased ctx params db.leases db'.leases) db := by
  unfold reserveRunLeases
  split
  · rename_i none_
    rw [List.isEmpty_iff] at none_
    refine ⟨[], db.leases, [], ?_, ⟨fun _ => Or.inl, fun l there => ⟨l, there, Or.inl rfl⟩⟩,
      (List.append_nil _).symm, List.forall_mem_nil _, List.Sublist.refl _,
      List.forall_mem_nil _⟩
    rw [none_]
    exact canonical_nil
  · rw [wp_bind, wp_nowIso]
    intro now
    rw [wp_bind]
    apply wp_leaseKeys canonical_nil
    intro keys canonical
    rw [wp_bind, wp_select]
    have current : ∀ l ∈ heldLeases params.projectId db, db.leases.get? l.id = some l :=
      fun l member => Table.get?_of_mem (Table.mem_select.mp member).1
    apply wp_seq (wp_sweep Table.nodup_select current)
    intro _ mid swept_
    refine wp_mono (wp_reserveKeys ?_) ?_
    · intro l member
      obtain ⟨held, active⟩ := List.mem_filter.mp member
      have there := swept_ l.id
      have stays : ∀ sweep, swept sweep now l = l :=
        fun _ => if_neg fun stale => by simp [active] at stale
      rw [current l held, Option.map_some, stays] at there
      unfold isActive at active
      rw [Bool.and_eq_true, beq_iff_eq] at active
      exact ⟨Table.mem_of_get? there, active.1⟩
    · rintro _ db' ⟨added, reserves⟩
      exact ⟨keys, mid.leases, added, canonical, lapsed_swept swept_, reserves⟩

theorem aside_reserveKeys {params : ReserveParams} {now : String} {keys : List String}
    {active : List LeaseRow} {reserved : List String} :
    Writes (fun _ w => ∀ db, work (Tables.write w db) = work db)
      (reserveKeys params now keys active reserved) := by
  induction keys generalizing active reserved with
  | nil => exact writes_done
  | cons path keys ih =>
    unfold reserveKeys
    split
    · exact ih
    · split
      · exact writes_fail
      · apply writes_bind writes_generate
        intro id
        apply writes_bind (writes_insert fun _ _ _ => rfl)
        intro _
        exact writes_bind (writes_logEvent fun _ _ _ => rfl) fun _ => ih

theorem reads_leaseKeys {ctx : Context} {paths keys : List String} :
    Tx.Reads (leaseKeys ctx paths keys) := by
  induction paths generalizing keys with
  | nil => exact writes_done
  | cons raw paths ih =>
    unfold leaseKeys
    split
    · exact writes_fail
    · exact ih

theorem keeps_reserved {ctx : Context} {params : ReserveParams} :
    Keeps (Same work) (reserveRunLeases ctx params) := by
  apply Writes.same
  unfold reserveRunLeases
  split
  · exact writes_done
  · apply writes_bind writes_nowIso
    intro now
    apply writes_bind reads_leaseKeys.writes
    intro keys
    apply writes_bind writes_select
    intro leases
    apply writes_bind
    · apply writes_forM
      intro l _
      split
      · apply writes_bind (writes_update fun _ _ _ _ => rfl)
        intro _
        exact writes_bind (writes_logEvent fun _ _ _ => rfl) fun _ => writes_done
      · exact writes_done
    · exact fun _ => aside_reserveKeys

/-! ## The transaction -/

theorem keeps_logged {spec : EventSpec} : Keeps (Same workLeases) (logEvent spec) :=
  Writes.same (writes_logEvent fun _ _ _ => rfl)

theorem keeps_bound {taskId runId : String} :
    Keeps (Same workLeases) (bindExecutionApprovalToRun taskId runId) := by
  unfold bindExecutionApprovalToRun
  apply Writes.same
  exact writes_bind (writes_update fun _ _ _ _ => rfl) fun _ => writes_done

theorem keeps_started {ctx : Context} {task : TaskRow} {turnId runId now : String} :
    Keeps (Same workLeases) (startTurn ctx task turnId runId now) := by
  unfold startTurn
  apply Writes.same
  apply writes_bind (writes_update fun _ _ _ _ => rfl)
  intro _
  exact writes_bind (writes_logEvent fun _ _ _ => rfl) fun _ => writes_done

/-- The paths to lease: those of the request, or those that a follow-up inherits. -/
def requestedPaths (services : AssignServices) (task : TaskRow) (req : AssignRequest)
    (assistantTurnId : Option String) : Except Failure (List String) :=
  match req.writePaths with
  | some paths => .ok paths
  | none =>
    if assistantTurnId.isSome || task.executionPolicyTaskId.isSome
    then services.inheritedWritePaths else .ok []

/-- What a committed assignment leaves: the task moved once from ready, one run more, and the
leases of the requested paths. -/
structure Assigned (ctx : Context) (services : AssignServices) (req : AssignRequest)
    (assistantTurnId : Option String) (task : TaskRow) (run : RunRow) (db db' : Database) :
    Prop where
  ready : db.tasks.get? task.id = some task ∧ task.status = .ready
  moved : ∃ agentId now, db'.tasks = db.tasks.put
    { task with status := .assigned, assigneeId := some agentId, updatedAt := now }
  queued : run.taskId = task.id ∧ run.status = .queued
  runs : db'.runs.rows = db.runs.rows ++ [run]
  leases : ∃ paths, requestedPaths services task req assistantTurnId = .ok paths ∧
    Leased ctx { taskId := task.id, runId := run.id, projectId := task.projectId, paths := paths }
      db.leases db'.leases

theorem wp_assertAssignablePaths {services : AssignServices} {task : TaskRow} {req : AssignRequest}
    {assistantTurnId : Option String} {db : Database} :
    wp (assertAssignable services task req assistantTurnId) (fun paths _ =>
      requestedPaths services task req assistantTurnId = .ok paths) db := by
  unfold assertAssignable
  apply wp_seq wp_trivial
  intro _ _ _
  have last : ∀ db, wp (match req.writePaths with
      | some paths => return paths
      | none =>
        if assistantTurnId.isSome || task.executionPolicyTaskId.isSome
        then ofExcept services.inheritedWritePaths else return [] : Txn (List String))
      (fun paths _ => requestedPaths services task req assistantTurnId = .ok paths) db := by
    intro db
    unfold requestedPaths
    cases req.writePaths with
    | some paths => rfl
    | none =>
      dsimp only
      split
      · cases services.inheritedWritePaths with
        | ok paths => rfl
        | error e => trivial
      · rfl
  -- whatever the seven checks read
  cases assistantTurnId with
  | none =>
    iterate 7
      apply wp_seq wp_trivial
      intro _ _ _
    exact last _
  | some turnId =>
    iterate 8
      apply wp_seq wp_trivial
      intro _ _ _
    exact last _

theorem tasks_afterTask {taskId now : String} {source target : TaskStatus} {row : TaskRow}
    {db : Database} (found : db.tasks.get? taskId = some row) (is : row.status = source) :
    (afterTask taskId source target now db).tasks = db.tasks.put (setTaskStatus target now row) := by
  unfold afterTask Table.adjust guarded
  rw [found]
  dsimp only
  rw [if_pos (beq_iff_eq.mpr is)]

theorem wp_insertedRun {row : RunRow} {post : Unit → Database → Prop} {db : Database}
    (h : ∀ new, new = row → db.runs.get? new.id = none → post () { db with runs := db.runs.put new }) :
    wp (insertRun row) post db := by
  unfold insertRun
  rw [wp_insert, Option.isSome_eq_false_iff, Option.isNone_iff_eq_none]
  exact h row rfl

theorem wp_assignedTask {ctx : Context} {services : AssignServices} {taskId : String}
    {req : AssignRequest} {assistantTurnId : Option String} {db : Database} :
    wp (assignTask ctx services taskId req assistantTurnId) (fun run db' => ∃ task : TaskRow,
      task.id = taskId ∧ Assigned ctx services req assistantTurnId task run db db') db := by
  unfold assignTask lockTask
  rw [wp_bind, wp_nowIso]
  intro now
  apply Reads.wp_bind reads_refuse
  intro _
  rw [wp_bind, wp_selectForUpdate, wp_bind, wp_orThrow]
  intro task foundTask
  have found : db.tasks.get? taskId = some task := by simpa using foundTask
  have same : Keeps Eq (assertAssignable services task req assistantTurnId) :=
    reads_assertAssignable.keeps
  apply wp_seq (wp_and (same db) wp_assertAssignablePaths)
  rintro paths _ ⟨rfl, requested⟩
  apply Reads.wp_bind reads_ofExcept
  intro selected
  apply Reads.wp_bind reads_lockInstance
  intro _
  apply Reads.wp_bind reads_refuse
  intro _
  rw [wp_bind, wp_generate]
  intro decisionId
  rw [wp_bind, wp_generate]
  intro runId
  rw [wp_bind]
  apply wp_moveTask (fun _ => keeps_appended) .assigned rfl
  intro moved same
  rw [wp_bind, wp_throwIf, Bool.not_eq_eq_eq_not, Bool.not_false]
  intro changed
  have ready : task.status = .ready := by
    unfold changes at changed
    rw [found, Option.any_some] at changed
    exact beq_iff_eq.mp changed
  apply Reads.wp_bind reads_ofExcept
  intro workspaceRoot
  apply Reads.wp_bind reads_refuse
  intro _
  rw [wp_bind]
  apply wp_insertedRun
  intro row is fresh
  apply wp_keeps keeps_bound
  intro _ bound (gated : Same workLeases _ bound)
  have finish : ∀ mid, Same workLeases bound mid → wp (do
      let _ ← reserveRunLeases ctx { taskId, runId, projectId := task.projectId, paths }
      let _ ← update (fun db => (db.tasks.get? taskId).toList) fun row =>
        .task { row with assigneeId := selected.agentId, updatedAt := now }
      let _ ← logEvent (assignedEvent task selected runId decisionId)
      let stored ← select (·.runs.get? runId)
      orThrow stored (.error "assignTask: run missing after insert"))
      (fun run db' => ∃ task : TaskRow, task.id = taskId ∧
        Assigned ctx services req assistantTurnId task run db db') mid := by
    intro mid turned
    have key : task.id = taskId := Table.key_of_get? found
    apply wp_seq (wp_and (keeps_reserved mid) wp_reserveRunLeases)
    rintro _ reserved ⟨same', leased⟩
    rw [wp_bind, wp_update]
    apply wp_keeps keeps_logged
    intro _ db' (logged : Same workLeases _ db')
    rw [wp_bind, wp_select, wp_orThrow]
    intro run stored
    obtain ⟨tasks, runs, leases⟩ := parts (IsTrans.trans _ _ _ gated turned)
    obtain ⟨tasks₁, runs₁, leases₁⟩ := parts same
    obtain ⟨tasks₂, runs₂, leases₂⟩ := parts logged
    obtain ⟨tasks₃, runs₃⟩ := Prod.mk.inj same'
    have was : reserved.tasks = db.tasks.put (setTaskStatus .assigned now task) := by
      rw [tasks₃, tasks]
      change moved.tasks = _
      rw [tasks₁]
      exact tasks_afterTask found ready
    have here : reserved.tasks.get? taskId = some (setTaskStatus .assigned now task) := by
      rw [was]
      exact (Table.key_of_get? found : task.id = taskId) ▸ Table.get?_put_self
    rw [here] at tasks₂ runs₂ leases₂
    have ran : db'.runs = db.runs.put row := by
      rw [runs₂]
      change reserved.runs = _
      rw [runs₃, runs]
      change moved.runs.put row = _
      rw [runs₁]
      rfl
    have rows : db'.runs.rows = db.runs.rows ++ [row] := by
      rw [ran]
      exact Table.rows_put_fresh (runs₁ ▸ fresh)
    have same_ : run = row := by
      have self := @Table.get?_put_self _ _ RunRow.id _ db.runs row
      have held : row.id = runId := by rw [is]
      rw [← ran, held] at self
      exact Option.some.inj (stored.symm.trans self)
    subst same_
    subst key
    refine ⟨task, rfl, ⟨found, ready⟩, ⟨selected.agentId, now, ?_⟩, ?_, rows, paths, requested, ?_⟩
    · rw [tasks₂]
      change reserved.tasks.put _ = _
      rw [was]
      exact Table.put_put rfl
    · rw [is]
      exact ⟨rfl, rfl⟩
    · have kept : db'.leases = reserved.leases := leases₂
      have began : mid.leases = db.leases := by
        rw [leases]
        exact leases₁
      have held : run.id = runId := by rw [is]
      rw [kept, held, ← began]
      exact leased
  cases assistantTurnId with
  | none => exact finish bound rfl
  | some turnId =>
    apply wp_keeps keeps_started
    intro _ mid turned
    exact finish mid turned

/-! ## The request -/

structure AssignCall where
  ctx : Context
  services : AssignServices
  taskId : String
  req : AssignRequest
  assistantTurnId : Option String
  input : Nat → String

def AssignCall.transaction (call : AssignCall) (db : Database) : Except Failure RunRow × Database :=
  (assignTask call.ctx call.services call.taskId call.req call.assistantTurnId).execute call.input db

/-- `onRunQueued`: how the dispatch of a run ends, and the database it leaves. -/
abbrev Dispatch := String → Database → Except Failure Unit × Database

/-- The request: its transaction and, after the commit, the dispatch. -/
def AssignCall.serve (call : AssignCall) (onRunQueued : Dispatch) (db : Database) :
    Except Failure RunRow × Database :=
  match call.transaction db with
  | (.error e, db') => (.error e, db')
  | (.ok run, db') =>
    match onRunQueued run.id db' with
    | (.error e, db'') => (.error e, db'')
    | (.ok _, db'') => (.ok run, db'')

/-- An assignment whose transaction fails, for whatever reason, leaves the database as it was, and
the request fails. One that commits leaves the run, its leases and the moved task, and the request
then ends as the dispatch of the run does. -/
theorem assignment_atomic (call : AssignCall) (onRunQueued : Dispatch) (db : Database) :
    (∃ e, call.transaction db = (.error e, db) ∧ call.serve onRunQueued db = (.error e, db)) ∨
      ∃ task run db', call.transaction db = (.ok run, db') ∧ task.id = call.taskId ∧
        Assigned call.ctx call.services call.req call.assistantTurnId task run db db' ∧
          call.serve onRunQueued db =
            ((onRunQueued run.id db').1.map fun _ => run, (onRunQueued run.id db').2) := by
  have whole := @wp_execute _ _ _ _ _ _ _ _ _ _ call.input (@wp_assignedTask call.ctx call.services
    call.taskId call.req call.assistantTurnId db)
  unfold AssignCall.serve
  rcases whole with ⟨run, ok, task, is, assigned⟩ | ⟨⟨e, failed⟩, same⟩
  · have committed : call.transaction db = (.ok run, (call.transaction db).2) := Prod.ext ok rfl
    refine Or.inr ⟨task, run, (call.transaction db).2, committed, is, assigned, ?_⟩
    rw [committed]
    dsimp only
    rcases onRunQueued run.id (call.transaction db).2 with ⟨_ | _, db''⟩
    · rfl
    · rfl
  · have whole : call.transaction db = (.error e, db) := Prod.ext failed same
    exact Or.inl ⟨e, whole, by rw [whole]⟩

namespace Dispatched

def readyTask : TaskRow := { id := "t1", projectId := "p1", status := .ready, updatedAt := "" }

def start : Database := { Database.empty with tasks := Table.empty.put readyTask }

def call : AssignCall where
  ctx := ⟨"u1", Sample.platform⟩
  services := { schedule := .ok ⟨"c1", "i1", "a1"⟩ }
  taskId := "t1"
  req := { writePaths := some ["src/app"] }
  assistantTurnId := none
  input n := String.ofList (List.replicate n 'x')

/-- The binding of the node is replaced between the commit and the dispatch. -/
def replaced : Failure :=
  .app (.conflict "Run start blocked because the node binding is no longer current"
    [("run_id", .str "xx"), ("dispatch", .str "blocked"), ("reason", .str "binding_replaced")])

/-- The request fails and its assignment stays. -/
theorem assignment_stays :
    (call.serve (fun _ db => (.error replaced, db)) start).1 = .error replaced ∧
      ((call.serve (fun _ db => (.error replaced, db)) start).2.runs.rows.map (·.taskId)) = ["t1"] ∧
        start.runs.rows = [] := by
  decide +kernel

end Dispatched

end Artoo.Server
