import Artoo.Server.Settlement

/-! What an ingest does: a repetition of a stored frame changes nothing, a first delivery applies
its event and stores the receipt. -/
namespace Artoo.Server
open Artoo.Lib Artoo.Protocol Artoo.Domain Tx

def IngestEnvelope.key (env : IngestEnvelope) : String × String × Int :=
  (env.nodeId, env.runId, env.sequence)

/-- A report of a run that does not settle it. -/
def silent : Effect := {}

/-- The application of an event, before its receipt is stored. -/
def Applies (event : RunIngestEvent) (run : RunRow) (db mid : Database) : Prop :=
  match event with
  | .lifecycle phase _ => Settles (verdict run phase) run.id run.taskId db mid
  | _ => Quiet silent db mid

/-- The rows an ingest reads: the run under its lock, and its task. -/
structure Reads (env : IngestEnvelope) (identity : Option String) (db : Database) (run : RunRow)
    (task : TaskRow) : Prop where
  foundRun : db.runs.get? env.runId = some run
  foundTask : db.tasks.get? run.taskId = some task
  owner : identity.isSome → env.nodeId = run.computerId
  range : 0 ≤ env.sequence ∧ env.sequence ≤ maxSequence
  retention : ∃ r, reportedRetention env run = .done r

inductive Ingested (env : IngestEnvelope) (identity : Option String) (db : Database) :
    IngestResult → Database → Prop where
  | repeated {run : RunRow} {task : TaskRow} {existing : IngestRow} {result : IngestResult} :
      Reads env identity db run task → db.ingests.get? env.key = some existing →
      (∀ i, identity = some i → existing.bodyIdentity = some i) →
      result.deduped = true → result.budgetGoalId = none → Ingested env identity db result db
  | first {run : RunRow} {task : TaskRow} {receipt : IngestRow} {result : IngestResult}
      {mid : Database} :
      Reads env identity db run task → db.ingests.get? env.key = none →
      Applies env.event run db mid → receipt.key = env.key → receipt.bodyIdentity = identity →
      result.deduped = false →
      Ingested env identity db result { mid with ingests := mid.ingests.put receipt }

theorem wp_reportedRetention {env : IngestEnvelope} {run : RunRow} {db : Database} :
    wp (reportedRetention env run)
      (fun r db' => db' = db ∧ reportedRetention env run = .done r) db := by
  unfold reportedRetention
  split
  · split
    · trivial
    · split
      · trivial
      · exact ⟨rfl, rfl⟩
  · exact ⟨rfl, rfl⟩

theorem wp_checkReceipt {ctx : Context} {s : IngestScope} {identity : Option String}
    {retention : Option StoredWorkspaceRetained} {existing : IngestRow} {db : Database} :
    wp (checkReceipt ctx s identity retention existing)
      (fun _ db' => db' = db ∧ ∀ i, identity = some i → existing.bodyIdentity = some i) db := by
  unfold checkReceipt
  split
  · trivial
  · rename_i identity' stored found
    rw [wp_throwIf]
    intro same
    refine ⟨rfl, fun i named => ?_⟩
    cases named
    rw [found]
    simpa using same
  · trivial
  · split
    · exact ⟨rfl, fun _ named => nomatch named⟩
    · rw [wp_bind, wp_select, wp_throwIf]
      exact fun _ => ⟨rfl, fun _ named => nomatch named⟩

theorem wp_applyRunEvent {ctx : Context} {services : Services} {s : IngestScope}
    {retention : Option StoredWorkspaceRetained} {db : Database}
    (currentRun : db.runs.get? s.env.runId = some s.run)
    (currentTask : db.tasks.get? s.run.taskId = some s.task) :
    wp (applyRunEvent ctx services s retention) (fun _ mid => Applies s.env.event s.run db mid) db := by
  unfold applyRunEvent Applies
  have key : s.run.id = s.env.runId := Table.key_of_get? currentRun
  cases s.env.event with
  | workspaceRetained report =>
    dsimp only
    split
    · exact keeps_ingestRetention db
    · trivial
  | lifecycle phase failureReason =>
    dsimp only
    rw [key]
    exact wp_ingestLifecycle currentRun currentTask
  | answer text => exact keeps_ingestAnswer db
  | usage usage => exact keeps_ingestUsage db
  | output stream text => exact keeps_emitOther (by decide) db
  | artifact type uri checksum => exact keeps_ingestArtifact db

theorem Applies.ingests {event : RunIngestEvent} {run : RunRow} {db mid : Database}
    (h : Applies event run db mid) : mid.ingests = db.ingests := by
  unfold Applies at h
  split at h
  · exact h.ingests
  · exact h.ingests

theorem wp_ingestRunEventInternal {ctx : Context} {services : Services} {env : IngestEnvelope}
    {identity : Option String} {db : Database} :
    wp (ingestRunEventInternal ctx services env identity) (Ingested env identity db) db := by
  unfold ingestRunEventInternal
  rw [wp_bind, wp_throwIf]
  intro range
  rw [wp_bind, wp_nowIso]
  intro now
  rw [wp_bind, wp_selectForUpdate, wp_bind, wp_orThrow]
  intro run foundRun
  rw [wp_bind, wp_throwIf]
  intro owned
  rw [wp_bind, wp_select, wp_bind, wp_orThrow]
  intro task foundTask
  apply wp_seq wp_reportedRetention
  rintro retention after ⟨unchanged, reported⟩
  rw [unchanged]
  have reads : Reads env identity db run task := by
    refine ⟨by simpa using foundRun, foundTask, fun wire => ?_, by simpa using range, retention,
      reported⟩
    simpa [wire] using owned
  rw [wp_bind, wp_select]
  cases duplicate : Table.get? _ (env.nodeId, env.runId, env.sequence) with
  | some existing =>
    apply wp_seq wp_checkReceipt
    rintro _ _ ⟨rfl, same⟩
    exact .repeated reads duplicate same rfl rfl
  | none =>
    dsimp only
    apply wp_seq (wp_applyRunEvent reads.foundRun reads.foundTask)
    intro eventId mid applies
    rw [wp_bind, wp_insert]
    intro _
    exact .first reads duplicate applies rfl rfl rfl

/-- What the ingest of a wire frame does: nothing for a body outside the core loop. -/
inductive WireIngested (platform : Platform) (frame : RunEventMessage) (db : Database) :
    Option WireIngestResult → Database → Prop where
  | unmapped : runEventMessageValid frame → mapRunEvent frame = none →
      WireIngested platform frame db none db
  | mapped {env : IngestEnvelope} {result : IngestResult} {db' : Database} :
      runEventMessageValid frame → mapRunEvent frame = some env →
      Ingested env (some (bodyIdentity platform frame.event)) db result db' →
      WireIngested platform frame db (some ⟨result, bodyIdentity platform frame.event⟩) db'

theorem wp_ingestWireRunEvent {ctx : Context} {services : Services} {frame : RunEventMessage}
    {db : Database} :
    wp (ingestWireRunEvent ctx services frame) (WireIngested ctx.platform frame db) db := by
  unfold ingestWireRunEvent
  rw [wp_bind, wp_orThrow]
  intro qualified parsed
  unfold qualifyRunEventMessage at parsed
  split at parsed
  · rename_i valid
    cases parsed
    dsimp only
    cases mapped : mapRunEvent frame with
    | none => exact .unmapped valid mapped
    | some env => exact wp_seq wp_ingestRunEventInternal fun _ _ => .mapped valid mapped
  · cases parsed

end Artoo.Server
