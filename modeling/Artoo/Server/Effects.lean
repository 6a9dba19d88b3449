import Artoo.Server.Lifecycle

/-! What the parts of a transaction leave alone: every part but the guarded transitions keeps the
tasks, the runs and the receipts, and appends to the event log. -/
namespace Artoo.Server
open Artoo.Lib Artoo.Protocol Artoo.Domain Tx

/-- The events that report the life of a run. -/
def lifecycleEvents : List EventType :=
  [.runStarted, .runCompleted, .runFailed, .runCancelled, .runReconciled]

/-- What a part may report of which run, and the leases it may release or expire. -/
structure Effect where
  reports : EventType → Option String → Prop := fun _ _ => False
  released : LeaseRow → Prop := fun _ => False
  expired : LeaseRow → Prop := fun _ => False

def Effect.allows (f : Effect) (type : EventType) (runId : Option String) : Prop :=
  type ∈ lifecycleEvents → f.reports type runId

/-- A held lease is released or expired, where the effect allows it. -/
inductive LeaseStep (f : Effect) (l : LeaseRow) : LeaseRow → Prop where
  | same : LeaseStep f l l
  | released (now : String) : l.status = .held → f.released l →
      LeaseStep f l { l with status := .released, releasedAt := some now }
  | expired : l.status = .held → f.expired l → LeaseStep f l { l with status := .expired }

theorem LeaseStep.id {f : Effect} {l l' : LeaseRow} (h : LeaseStep f l l') : l'.id = l.id := by
  cases h <;> rfl

theorem LeaseStep.trans {f : Effect} {l m n : LeaseRow} (first : LeaseStep f l m)
    (last : LeaseStep f m n) : LeaseStep f l n := by
  cases last with
  | same => exact first
  | released now held allowed =>
    cases first with
    | same => exact .released now held allowed
    | released => cases held
    | expired => cases held
  | expired held allowed =>
    cases first with
    | same => exact .expired held allowed
    | released => cases held
    | expired => cases held

def LeasesStep (f : Effect) (db db' : Database) : Prop :=
  ∀ id l, db.leases.get? id = some l → ∃ l', db'.leases.get? id = some l' ∧ LeaseStep f l l'

def Appends (f : Effect) (db db' : Database) : Prop :=
  ∃ new, db'.events.rows = db.events.rows ++ new ∧ ∀ e ∈ new, f.allows e.type e.runId

structure Quiet (f : Effect) (db db' : Database) : Prop where
  tasks : db'.tasks = db.tasks
  runs : db'.runs = db.runs
  ingests : db'.ingests = db.ingests
  leases : LeasesStep f db db'
  events : Appends f db db'

theorem LeasesStep.of_eq {f : Effect} {db db' : Database} (same : db'.leases = db.leases) :
    LeasesStep f db db' :=
  fun _ l found => ⟨l, same ▸ found, .same⟩

theorem Appends.of_eq {f : Effect} {db db' : Database} (same : db'.events = db.events) :
    Appends f db db' :=
  ⟨[], by rw [same, List.append_nil], by simp⟩

theorem LeasesStep.trans {f : Effect} {a b c : Database} (first : LeasesStep f a b)
    (last : LeasesStep f b c) : LeasesStep f a c := by
  intro id l found
  obtain ⟨m, kept, step⟩ := first id l found
  obtain ⟨n, there, next⟩ := last id m kept
  exact ⟨n, there, step.trans next⟩

theorem Appends.trans {f : Effect} {a b c : Database} (first : Appends f a b)
    (last : Appends f b c) : Appends f a c := by
  obtain ⟨new, rows, all⟩ := first
  obtain ⟨more, rows', all'⟩ := last
  refine ⟨new ++ more, by rw [rows', rows, List.append_assoc], fun e member => ?_⟩
  rcases List.mem_append.mp member with early | late
  · exact all e early
  · exact all' e late

instance (f : Effect) : Std.Refl (Quiet f) :=
  ⟨fun _ => ⟨rfl, rfl, rfl, .of_eq rfl, .of_eq rfl⟩⟩

instance (f : Effect) : IsTrans Database (Quiet f) :=
  ⟨fun _ _ _ first last =>
    { tasks := last.tasks.trans first.tasks
      runs := last.runs.trans first.runs
      ingests := last.ingests.trans first.ingests
      leases := first.leases.trans last.leases
      events := first.events.trans last.events }⟩

/-- A part that writes none of the tables the relation is about. -/
theorem Quiet.of_eq {f : Effect} {db db' : Database} (tasks : db'.tasks = db.tasks)
    (runs : db'.runs = db.runs) (ingests : db'.ingests = db.ingests)
    (leases : db'.leases = db.leases) (events : db'.events = db.events) : Quiet f db db' :=
  ⟨tasks, runs, ingests, .of_eq leases, .of_eq events⟩

theorem Quiet.append {f : Effect} {db : Database} {e : EventRow} (fresh : db.events.get? e.id = none)
    (allowed : f.allows e.type e.runId) : Quiet f db { db with events := db.events.put e } :=
  ⟨rfl, rfl, rfl, .of_eq rfl, [e], Table.rows_put_fresh fresh, by simpa using allowed⟩

variable {α : Type} {f : Effect}

theorem keeps_select {query : Database → α} : Keeps (Quiet f) (select query) :=
  fun db => Std.Refl.refl db

theorem keeps_selectForUpdate {query : Database → List α} {lock : α → Lock} :
    Keeps (Quiet f) (selectForUpdate query lock) :=
  fun db => Std.Refl.refl db

theorem keeps_generate : Keeps (Quiet f) generate := fun db _ => Std.Refl.refl db

theorem keeps_nowIso : Keeps (Quiet f) nowIso := fun db _ => Std.Refl.refl db

theorem keeps_throwIf {refused : Bool} {e : Failure} : Keeps (Quiet f) (throwIf refused e) := by
  intro db
  rw [wp_throwIf]
  exact fun _ => Std.Refl.refl db

theorem keeps_orThrow {found : Option α} {e : Failure} : Keeps (Quiet f) (orThrow found e) := by
  intro db
  rw [wp_orThrow]
  exact fun _ _ => Std.Refl.refl db

theorem keeps_logEvent {spec : EventSpec} (allowed : f.allows spec.type spec.runId) :
    Keeps (Quiet f) (logEvent spec) := by
  intro db
  rw [wp_logEvent]
  exact fun id now fresh => Quiet.append fresh allowed

/-- An event that reports no run's life. -/
theorem keeps_logOther {spec : EventSpec} (type : EventType) (is : spec.type = type)
    (other : type ∉ lifecycleEvents) : Keeps (Quiet f) (logEvent spec) :=
  keeps_logEvent fun reported => absurd reported (is ▸ other)

/-- The tables outside the relation. -/
def Write.aside : Write → Prop
  | .approval _ | .message _ | .artifact _ | .turn _ | .usage _ | .queue _ | .blocker _ => True
  | _ => False

theorem quiet_aside {w : Write} (aside : w.aside) (db : Database) : Quiet f db (w.apply db) := by
  cases w <;> first | exact aside.elim | exact .of_eq rfl rfl rfl rfl rfl

theorem keeps_insert {taken : Database → Bool} {w : Write} (aside : w.aside) :
    Keeps (Quiet f) (insert taken w) := by
  intro db
  rw [wp_insert]
  exact fun _ => quiet_aside aside db

theorem keeps_update {matching : Database → List α} {set : α → Write}
    (aside : ∀ row, (set row).aside) : Keeps (Quiet f) (update matching set) := by
  intro db
  rw [wp_update]
  generalize matching db = rows
  induction rows generalizing db with
  | nil => exact Std.Refl.refl db
  | cons row rows ih => exact IsTrans.trans _ _ _ (quiet_aside (aside row) db) (ih _)

/-! ## Leases -/

/-- A loop that changes one current row a round. -/
theorem wp_eachLease {body : LeaseRow → Txn Unit} {rows : List LeaseRow} {db : Database}
    (round : ∀ l ∈ rows, ∀ db, db.leases.get? l.id = some l →
      wp (body l) (fun _ db' => Quiet f db db' ∧
        ∀ id, id ≠ l.id → db'.leases.get? id = db.leases.get? id) db)
    (distinct : (rows.map LeaseRow.id).Nodup)
    (current : ∀ l ∈ rows, db.leases.get? l.id = some l) :
    wp (rows.forM body) (fun _ db' => Quiet f db db') db := by
  induction rows generalizing db with
  | nil => exact Std.Refl.refl db
  | cons l rows ih =>
    change wp (body l >>= fun _ => rows.forM body) _ db
    rw [List.map_cons, List.nodup_cons] at distinct
    apply wp_seq (round l List.mem_cons_self db (current l List.mem_cons_self))
    rintro _ mid ⟨quiet, others⟩
    have still : ∀ m ∈ rows, mid.leases.get? m.id = some m := by
      intro m member
      have other : m.id ≠ l.id := fun same => distinct.1 (same ▸ List.mem_map_of_mem member)
      rw [others m.id other]
      exact current m (List.mem_cons_of_mem _ member)
    have rest := ih (fun m member => round m (List.mem_cons_of_mem _ member)) distinct.2 still
    exact wp_mono rest fun _ _ later => IsTrans.trans _ _ _ quiet later

/-- The update of one current lease, then its event. -/
theorem wp_leaseRound {set : LeaseRow → LeaseRow} {spec : EventSpec} {l : LeaseRow} {db : Database}
    (current : db.leases.get? l.id = some l) (step : LeaseStep f l (set l))
    (type : EventType) (is : spec.type = type) (other : type ∉ lifecycleEvents) :
    wp (do
        let _ ← updateLease l.id set
        let _ ← logEvent spec)
      (fun _ db' => Quiet f db db' ∧ ∀ id, id ≠ l.id → db'.leases.get? id = db.leases.get? id)
      db := by
  have key : (set l).id = l.id := step.id
  unfold updateLease
  simp only [wp_bind, wp_update, current, Option.toList_some, List.map_cons, List.map_nil,
    writeAll_cons, writeAll_nil, write_eq, wp_logEvent]
  intro id now fresh
  constructor
  · refine ⟨rfl, rfl, rfl, ?_, [spec.row id now], Table.rows_put_fresh fresh, ?_⟩
    · intro other m found
      change ∃ l', (db.leases.put (set l)).get? other = some l' ∧ _
      rw [Table.get?_put, key]
      by_cases hit : l.id = other
      · rw [← hit, current] at found
        cases found
        exact ⟨set l, if_pos hit, step⟩
      · exact ⟨m, by rw [if_neg hit, found], .same⟩
    · intro e member
      rw [List.mem_singleton.mp member]
      subst is
      exact fun reported => absurd reported other
  · intro other differs
    change (db.leases.put (set l)).get? other = _
    rw [Table.get?_put, key, if_neg (Ne.symm differs)]

theorem wp_releaseRow {l : LeaseRow} {now : String} {db : Database}
    (current : db.leases.get? l.id = some l) (held : l.status = .held) (released : f.released l) :
    wp (releaseRow l now)
      (fun _ db' => Quiet f db db' ∧ ∀ id, id ≠ l.id → db'.leases.get? id = db.leases.get? id)
      db :=
  wp_leaseRound current (.released now held released) .leaseReleased rfl (by decide)

theorem mem_runLeases {runId : String} {db : Database} {l : LeaseRow} (h : l ∈ runLeases runId db) :
    db.leases.get? l.id = some l ∧ l.status = .held ∧ ownedByRun runId l := by
  have found := Table.mem_select.mp h
  simp only [Bool.and_eq_true, beq_iff_eq] at found
  exact ⟨Table.get?_of_mem found.1, found.2.2, by simp [ownedByRun, found.2.1]⟩

theorem keeps_releaseRunLeases {runId : String}
    (released : ∀ l, ownedByRun runId l → f.released l) :
    Keeps (Quiet f) (releaseRunLeases runId) := by
  intro db
  unfold releaseRunLeases
  simp only [wp_bind, wp_nowIso, wp_select]
  intro now
  apply wp_eachLease
  · intro l member db' current
    obtain ⟨_, held, owned⟩ := mem_runLeases member
    exact wp_releaseRow current held (released l owned)
  · exact Table.nodup_select
  · exact fun l member => (mem_runLeases member).1

theorem wp_expireStaleLeases {p : LeaseRow → Bool} {now : String} {db : Database}
    (expired : ∀ l, f.expired l) :
    wp (expireStaleLeases (db.leases.select p) now) (fun _ db' => Quiet f db db') db := by
  unfold expireStaleLeases
  apply wp_eachLease
  · intro l member db' current
    split
    · rename_i stale
      simp only [Bool.and_eq_true, beq_iff_eq] at stale
      exact wp_leaseRound current (.expired stale.1 (expired l)) .leaseExpired rfl (by decide)
    · exact ⟨Std.Refl.refl db', fun _ _ => rfl⟩
  · exact Table.nodup_select
  · exact fun l member => Table.get?_of_mem (Table.mem_select.mp member).1

theorem keeps_insertLease {row : LeaseRow} : Keeps (Quiet f) (insertLease row) := by
  intro db
  unfold insertLease
  rw [wp_insert, Option.isSome_eq_false_iff, Option.isNone_iff_eq_none]
  intro fresh
  refine ⟨rfl, rfl, rfl, ?_, .of_eq rfl⟩
  intro id l found
  refine ⟨l, ?_, .same⟩
  change (db.leases.put row).get? id = some l
  rw [Table.get?_put_other, found]
  intro hit
  rw [hit, found] at fresh
  cases fresh

theorem keeps_leaseKeys {ctx : Context} {paths keys : List String} :
    Keeps (Quiet f) (leaseKeys ctx paths keys) := by
  induction paths generalizing keys with
  | nil => exact keeps_done
  | cons raw rest ih =>
    unfold leaseKeys
    split
    · exact keeps_fail
    · exact ih

theorem keeps_reserveKeys {params : ReserveParams} {now : String} {keys : List String}
    {active : List LeaseRow} {reserved : List String} :
    Keeps (Quiet f) (reserveKeys params now keys active reserved) := by
  induction keys generalizing active reserved with
  | nil => exact keeps_done
  | cons path keys ih =>
    unfold reserveKeys
    split
    · exact ih
    · split
      · exact keeps_fail
      · apply keeps_bind keeps_generate
        intro id
        apply keeps_bind keeps_insertLease
        intro _
        apply keeps_bind (keeps_logOther .leaseAcquired rfl (by decide))
        intro _
        exact ih

theorem keeps_reserveRunLeases {ctx : Context} {params : ReserveParams}
    (expired : ∀ l, f.expired l) : Keeps (Quiet f) (reserveRunLeases ctx params) := by
  unfold reserveRunLeases
  split
  · exact keeps_done
  · apply keeps_bind keeps_nowIso
    intro now
    apply keeps_bind keeps_leaseKeys
    intro keys db
    rw [wp_bind, wp_select]
    apply wp_seq (wp_expireStaleLeases expired)
    intro _ mid quiet
    exact wp_mono (keeps_reserveKeys mid) fun _ _ later => IsTrans.trans _ _ _ quiet later

/-! ## The parts of the run and approval services -/

theorem keeps_propagateBlocked {sourceTaskId reason : String} :
    Keeps (Quiet f) (propagateBlocked sourceTaskId reason) := by
  unfold propagateBlocked
  apply keeps_bind keeps_select
  intro downstreamIds
  apply keeps_forM
  intro dependentId _
  apply keeps_bind keeps_select
  intro found
  cases found with
  | none => exact keeps_done
  | some dependent =>
    dsimp only
    split
    · exact keeps_bind (keeps_logOther .dagNodeBlocked rfl (by decide)) fun _ => keeps_done
    · exact keeps_done

theorem keeps_emitMessage {s : IngestScope} {payload : Payload} {message : Option EmitMessage}
    {room : Option String} : Keeps (Quiet f) (emitMessage s payload message room) := by
  unfold emitMessage
  split
  · exact keeps_bind keeps_generate fun _ => keeps_insert (by trivial)
  · exact keeps_done

theorem keeps_emit {s : IngestScope} {type : EventType} {payload : Payload}
    {message : Option EmitMessage} (allowed : f.allows type (some s.env.runId)) :
    Keeps (Quiet f) (emit s type payload message) := by
  unfold emit
  apply keeps_bind (keeps_logEvent allowed)
  intro event
  exact keeps_bind keeps_emitMessage fun _ => keeps_done

theorem keeps_emitOther {s : IngestScope} {type : EventType} {payload : Payload}
    {message : Option EmitMessage} (other : type ∉ lifecycleEvents) :
    Keeps (Quiet f) (emit s type payload message) :=
  keeps_emit fun reported => absurd reported other

theorem keeps_ingestRetention {ctx : Context} {s : IngestScope} {r : StoredWorkspaceRetained} :
    Keeps (Quiet f) (ingestRetention ctx s r) := by
  unfold ingestRetention
  apply keeps_bind keeps_select
  intro events
  apply keeps_bind keeps_throwIf
  intro _
  exact keeps_bind (keeps_logOther .runWorkspaceRetained rfl (by decide)) fun _ => keeps_done

theorem keeps_answerTurn {s : IngestScope} {messageId : String} {turn : Option TurnRow} :
    Keeps (Quiet f) (answerTurn s messageId turn) := by
  unfold answerTurn setTurn
  split
  · exact keeps_bind (keeps_update fun _ => by trivial) fun _ => keeps_done
  · exact keeps_done

theorem keeps_replyToThread {turn : Option TurnRow} : Keeps (Quiet f) (replyToThread turn) := by
  unfold replyToThread
  split
  · exact keeps_done
  · apply keeps_bind (keeps_update fun _ => by trivial)
    intro updated
    split
    · exact keeps_done
    · exact keeps_fail

theorem keeps_ingestAnswer {services : Services} {s : IngestScope} {text : String} :
    Keeps (Quiet f) (ingestAnswer services s text) := by
  unfold ingestAnswer
  apply keeps_bind keeps_throwIf
  intro _
  apply keeps_bind keeps_selectForUpdate
  intro turns
  dsimp only
  split
  · exact keeps_emitOther (by decide)
  · split
    · exact keeps_emitOther (by decide)
    · apply keeps_bind keeps_generate
      intro messageId
      apply keeps_bind (keeps_insert (by trivial))
      intro _
      apply keeps_bind keeps_answerTurn
      intro _
      apply keeps_bind keeps_replyToThread
      intro reply
      exact keeps_bind (keeps_logOther .messageCreated rfl (by decide)) fun _ => keeps_done

theorem keeps_ingestUsage {s : IngestScope} {usage : RunUsagePayload} :
    Keeps (Quiet f) (ingestUsage s usage) := by
  unfold ingestUsage
  apply keeps_bind keeps_throwIf
  intro _
  exact keeps_bind (keeps_update fun _ => by trivial) fun _ => keeps_emitOther (by decide)

theorem keeps_enqueueArtifactForIntegration {s : IngestScope} {artifactId : String}
    {type : ArtifactType} : Keeps (Quiet f) (enqueueArtifactForIntegration s artifactId type) := by
  unfold enqueueArtifactForIntegration
  split
  · exact keeps_done
  · apply keeps_bind keeps_nowIso
    intro now
    apply keeps_bind keeps_select
    intro last
    exact keeps_bind keeps_generate fun _ => keeps_insert (by trivial)

theorem keeps_ingestArtifact {s : IngestScope} {type : ArtifactType} {uri : String}
    {checksum : Option String} : Keeps (Quiet f) (ingestArtifact s type uri checksum) := by
  unfold ingestArtifact
  apply keeps_bind keeps_select
  intro stored
  apply keeps_bind keeps_throwIf
  intro _
  have named : ∀ artifactId : String, Keeps (Quiet f) (do
      let eventId ← emit s .artifactCreated
        [("artifact_id", .str artifactId), ("type", .str (artifactTypeName type)), ("uri", .str uri)]
        (some ⟨"artifact", "Artifact created: " ++ artifactTypeName type⟩)
      enqueueArtifactForIntegration s artifactId type
      return eventId) := by
    intro artifactId
    apply keeps_bind (keeps_emitOther (by decide))
    intro eventId
    exact keeps_bind keeps_enqueueArtifactForIntegration fun _ => keeps_done
  cases stored with
  | some artifact => exact named artifact.id
  | none =>
    apply keeps_bind keeps_generate
    intro id
    exact keeps_bind (keeps_insert (by trivial)) fun _ => named id

theorem keeps_enforceGoalBudget {services : Services} {goalId : String} :
    Keeps (Quiet f) (enforceGoalBudget services goalId) := by
  unfold enforceGoalBudget
  split
  · exact keeps_done
  · apply keeps_bind (keeps_logOther .goalPaused rfl (by decide))
    intro _
    exact keeps_bind (keeps_logOther .goalBudgetExceeded rfl (by decide)) fun _ => keeps_done

end Artoo.Server
