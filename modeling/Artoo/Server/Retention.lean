import Artoo.Lib.Latest
import Artoo.Server.Ordinary
import Artoo.Server.System
import Mathlib.Data.Prod.Lex
import Mathlib.Data.String.Basic

/-! The retained workspace of a run: the history of its reports, and its latest report as the runs'
lists and the audits read it. -/
namespace Artoo.Server
open Artoo.Lib Artoo.Protocol Artoo.Domain Tx

/-! ## The readers -/

/-- An event with the position its insert drew. -/
structure StoredEvent where
  position : Nat
  event : EventRow
  deriving DecidableEq

def StoredEvent.runId (e : StoredEvent) : Option String := e.event.runId

/-- The projection carries the position of its event. -/
def projectStored (platform : Platform) (run : RunRow) (e : Option StoredEvent) :
    Option (WorkspaceRetentionProjection × Nat) := do
  let e ← e
  let projection ← projectWorkspaceRetention platform run (some e.event)
  if 0 < e.position ∧ e.position ≤ maxSafeInteger then some (projection, e.position) else none

/-- By run, the latest first. -/
def StoredEvent.order (e : StoredEvent) : Lex (String × OrderDual Nat) :=
  toLex (e.runId.getD "", OrderDual.toDual e.position)

def loadWorkspaceRetentions (platform : Platform) (stored : List StoredEvent) (runRows : List RunRow) :
    List (String × Option (WorkspaceRetentionProjection × Nat)) :=
  if runRows.isEmpty then []
  else
    let wanted := stored.filter fun e =>
      e.event.type == .runWorkspaceRetained && (runRows.map fun run => some run.id).contains e.runId
    let latest := distinctOn StoredEvent.runId (wanted.mergeSort fun a b => decide (a.order ≤ b.order))
    runRows.map fun run =>
      (run.id, projectStored platform run (latest.find? fun e => decide (e.runId = some run.id)))

def workspaceRetentionsFromEvents (platform : Platform) (runRows : List RunRow)
    (events : List StoredEvent) : List (String × Option (WorkspaceRetentionProjection × Nat)) :=
  let reports := events.filter fun e => e.event.type == .runWorkspaceRetained && e.runId.isSome
  let latest := reports.foldl (keepLatest StoredEvent.runId StoredEvent.position) fun _ => none
  runRows.map fun run => (run.id, projectStored platform run (latest (some run.id)))

section Readers

variable {platform : Platform} {stored listed : List StoredEvent} {runRows : List RunRow} {run : RunRow}

/-- The reports of runs. -/
def reportsOf (events : List StoredEvent) : List StoredEvent :=
  events.filter fun e => e.event.type == .runWorkspaceRetained && e.runId.isSome

theorem position_le {a b : StoredEvent} (below : a.order ≤ b.order) (same : a.runId = b.runId) :
    b.position ≤ a.position := by
  rcases Prod.Lex.le_iff.mp below with less | ⟨_, within⟩
  · change a.runId.getD "" < b.runId.getD "" at less
    rw [same] at less
    exact absurd less (lt_irrefl _)
  · exact within

theorem isLatest_load (member : run ∈ runRows) :
    IsLatest StoredEvent.runId StoredEvent.position (reportsOf stored) (some run.id)
      ((distinctOn StoredEvent.runId ((stored.filter fun e => e.event.type == .runWorkspaceRetained &&
        (runRows.map fun run => some run.id).contains e.runId).mergeSort
          fun a b => decide (a.order ≤ b.order))).find? fun e => decide (e.runId = some run.id)) := by
  rw [find?_distinctOn]
  have sorted := @List.pairwise_mergeSort _ (fun a b : StoredEvent => decide (a.order ≤ b.order))
    (fun a b c ab bc => decide_eq_true (le_trans (of_decide_eq_true ab) (of_decide_eq_true bc)))
    (fun a b => by simpa using le_total a.order b.order)
    (stored.filter fun e => e.event.type == .runWorkspaceRetained &&
      (runRows.map fun run => some run.id).contains e.runId)
  have ranked := sorted.imp fun below => position_le (of_decide_eq_true below)
  apply (isLatest_find? ranked).congr
  intro e ofRun
  rw [List.mem_mergeSort, List.mem_filter, reportsOf, List.mem_filter, ofRun]
  have asked : (runRows.map fun run => some run.id).contains (some run.id) = true := by
    rw [List.contains_iff_mem]
    exact List.mem_map.mpr ⟨run, member, rfl⟩
  rw [asked]
  rfl

/-- The two readers agree, in whatever order the events are listed. -/
theorem load_eq_fromEvents (distinct : (stored.map (·.position)).Nodup) (perm : listed.Perm stored) :
    loadWorkspaceRetentions platform stored runRows =
      workspaceRetentionsFromEvents platform runRows listed := by
  unfold loadWorkspaceRetentions workspaceRetentionsFromEvents
  split
  · rename_i none_
    rw [List.isEmpty_iff.mp none_]
    rfl
  · apply List.map_congr_left
    intro run member
    congr 1
    have load := @isLatest_load stored _ _ member
    have fold : IsLatest StoredEvent.runId StoredEvent.position (reportsOf listed) (some run.id)
        ((reportsOf listed).foldl (keepLatest StoredEvent.runId StoredEvent.position)
          (fun _ => none) (some run.id)) := isLatest_foldl
    have same := fold.congr fun e _ => (perm.filter _).mem_iff (a := e)
    have apart : ((reportsOf stored).map StoredEvent.position).Nodup :=
      distinct.sublist (List.filter_sublist.map _)
    rw [load.unique same apart]
    rfl

end Readers

/-! ## The history -/

/-- The reports of a run's retained workspace, in the order of their ingests. -/
def retained (runId : String) (db : Database) : List EventRow :=
  db.events.select fun e => e.runId == some runId && e.type == .runWorkspaceRetained

def EventRow.outcome (e : EventRow) : Option WorkspaceRetentionOutcome :=
  (parseStoredRetained e.payload).map (·.report.outcome)

/-- No report, one, or a completed one and its correction. -/
inductive RetentionHistory : List EventRow → Prop
  | none : RetentionHistory []
  | single (e : EventRow) (outcome : WorkspaceRetentionOutcome) : e.outcome = some outcome →
      RetentionHistory [e]
  | corrected (e later : EventRow) (sequence next : Int) : e.outcome = some .completed →
      later.outcome = some .incompleteDelivery → e.sequence = some sequence →
      later.sequence = some next → sequence < next → RetentionHistory [e, later]

section History

variable {platform : Platform} {runId : String} {db db' : Database} {e : EventRow}

theorem outcome_stored {r : StoredWorkspaceRetained} (valid : storedRetainedValid r = true) :
    parseStoredRetained (storedRetainedPayload r) = some r := by
  have found : ∀ o, outcomes.find? (fun o' => outcomeName o' == outcomeName o) = some o := by
    intro o
    cases o <;> decide
  unfold parseStoredRetained storedRetainedPayload retainedPayload
  simp [lookupString, List.lookup_cons, found, valid]

theorem projected {run : RunRow} {p : WorkspaceRetentionProjection}
    (is : projectWorkspaceRetention platform run (some e) = some p) :
    e.outcome = some p.retained.report.outcome ∧ e.sequence = some p.sequence := by
  unfold projectWorkspaceRetention at is
  rw [Option.bind_eq_bind, Option.bind_some] at is
  split at is
  · cases is
  · obtain ⟨r, parsed, is⟩ := Option.bind_eq_some_iff.mp is
    split at is
    · cases is
    · obtain ⟨reportedAt, _, is⟩ := Option.bind_eq_some_iff.mp is
      obtain ⟨sequence, numbered, is⟩ := Option.bind_eq_some_iff.mp is
      split at is
      · cases is
        refine ⟨?_, numbered⟩
        unfold EventRow.outcome
        rw [parsed]
        rfl
      · cases is

/-- An accepted correction follows the first report, which was completed. -/
theorem RetentionHistory.append {history : List EventRow} {ctx : Context} {s : IngestScope}
    {r : StoredWorkspaceRetained} (h : RetentionHistory history)
    (allowed : correctionAllowed ctx s r history.getLast? = true)
    (outcome : e.outcome = some r.report.outcome) (sequence : e.sequence = some s.env.sequence) :
    RetentionHistory (history ++ [e]) := by
  have corrects : ∀ latest, history.getLast? = some latest → latest.outcome = some .completed ∧
      r.report.outcome = .incompleteDelivery ∧
        ∃ n, latest.sequence = some n ∧ n < s.env.sequence := by
    intro latest last
    rw [last] at allowed
    obtain ⟨previous, is, checks⟩ := (Option.any_eq_true _ _).mp allowed
    simp only [Bool.and_eq_true, beq_iff_eq, decide_eq_true_eq] at checks
    have reads := projected is
    exact ⟨reads.1.trans (congrArg some checks.1.1), checks.1.2, previous.sequence, reads.2, checks.2⟩
  cases h with
  | none => exact .single e _ outcome
  | single first known is =>
    obtain ⟨completed, incomplete, n, numbered, less⟩ := corrects first rfl
    exact .corrected first e n _ completed (outcome.trans (congrArg some incomplete)) numbered
      sequence less
  | corrected first later m n completed incomplete =>
    obtain ⟨completed', _⟩ := corrects later rfl
    cases incomplete.symm.trans completed'

theorem retained_write {w : Write} (unreported : Unreported db w) :
    retained runId (w.apply db) = retained runId db := by
  cases w with
  | event e =>
    apply Table.select_put_out
    · simp [unreported.1]
    · intro old there
      simp [unreported.2 old there]
  | _ => rfl

theorem Unreported.after {w w' : Write} (h : Unreported db w) (h' : Unreported db w') :
    Unreported (w'.apply db) w := by
  cases w with
  | event e =>
    refine ⟨h.1, fun old there => ?_⟩
    cases w' with
    | event e' =>
      change (db.events.put e').get? e.id = some old at there
      rw [Table.get?_put] at there
      split at there
      · cases there
        exact h'.1
      · exact h.2 old there
    | _ => exact h.2 old there
  | _ => trivial

theorem keeps_unreported {α : Type} {p : Txn α} (h : Writes Unreported p) :
    Keeps (Same (retained runId)) p := by
  apply Writes.keeps h
  intro view log all
  unfold Same
  induction log generalizing view with
  | nil => rfl
  | cons w log ih =>
    rw [writeAll_cons, write_eq, ih]
    · exact retained_write (all w List.mem_cons_self)
    · intro w' member
      exact (all w' (List.mem_cons_of_mem _ member)).after (all w List.mem_cons_self)

/-- A run's history stays one. -/
def StaysHistory (runId : String) (db db' : Database) : Prop :=
  RetentionHistory (retained runId db) → RetentionHistory (retained runId db')

instance : Std.Refl (StaysHistory runId) := ⟨fun _ h => h⟩

instance : IsTrans Database (StaysHistory runId) := ⟨fun _ _ _ first last h => last (first h)⟩

theorem keeps_history {α : Type} {p : Txn α} (h : Writes Unreported p) :
    Keeps (StaysHistory runId) p := by
  apply keeps_mono (keeps_unreported h)
  intro db db' same history
  rw [same]
  exact history

theorem keeps_ingestRetention_history {ctx : Context} {s : IngestScope}
    {r : StoredWorkspaceRetained} (valid : storedRetainedValid r = true) :
    Keeps (StaysHistory runId) (ingestRetention ctx s r) := by
  intro db
  unfold ingestRetention
  rw [wp_bind, wp_select, wp_bind, wp_throwIf]
  intro allowed
  rw [wp_bind, wp_logEvent]
  intro id occurredAt fresh
  rw [pure_eq, wp_done]
  intro history
  unfold retained
  rw [Table.select_put_fresh fresh]
  by_cases ofRun : s.env.runId = runId
  · rw [if_pos (by simp [EventSpec.row, agentSpec, ofRun])]
    apply @RetentionHistory.append _ _ ctx s r history
    · rw [Bool.not_eq_false'] at allowed
      unfold retentionEvents at allowed
      rw [List.head?_reverse, ofRun] at allowed
      exact allowed
    · unfold EventRow.outcome
      change (parseStoredRetained (storedRetainedPayload r)).map _ = _
      rw [outcome_stored valid]
      rfl
    · rfl
  · rw [if_neg (by simp [EventSpec.row, agentSpec, ofRun]), List.append_nil]
    exact history

theorem storedRetainedValid_of_reported {env : IngestEnvelope} {run : RunRow}
    {retention : Option StoredWorkspaceRetained} (is : reportedRetention env run = .done retention) :
    ∀ r ∈ retention, storedRetainedValid r = true := by
  unfold reportedRetention at is
  split at is
  · split at is
    · cases is
    · split at is
      · cases is
      · rename_i valid
        cases is
        intro r there
        cases there
        simpa using valid
  · cases is
    exact nofun

theorem keeps_applyRunEvent_history {ctx : Context} {services : Services} {s : IngestScope}
    {retention : Option StoredWorkspaceRetained}
    (valid : ∀ r ∈ retention, storedRetainedValid r = true) :
    Keeps (StaysHistory runId) (applyRunEvent ctx services s retention) := by
  by_cases report : ∃ r, s.env.event = .workspaceRetained r
  · obtain ⟨report, is⟩ := report
    unfold applyRunEvent
    rw [is]
    cases retention with
    | none => exact fun _ => trivial
    | some r => exact keeps_ingestRetention_history (valid r rfl)
  · exact keeps_history (unreported_applyRunEvent fun r is => report ⟨r, is⟩)

theorem keeps_ingest_history {ctx : Context} {services : Services} {env : IngestEnvelope}
    {identity : Option String} :
    Keeps (StaysHistory runId) (ingestRunEventInternal ctx services env identity) := by
  unfold ingestRunEventInternal
  apply keeps_bind (keeps_history writes_throwIf)
  intro _
  apply keeps_bind (keeps_history writes_nowIso)
  intro now
  apply keeps_bind (keeps_history writes_selectForUpdate)
  intro runs
  apply keeps_bind (keeps_history writes_orThrow)
  intro run
  apply keeps_bind (keeps_history writes_throwIf)
  intro _
  apply keeps_bind (keeps_history writes_select)
  intro found
  apply keeps_bind (keeps_history writes_orThrow)
  intro task db
  apply wp_seq wp_reportedRetention
  rintro retention after ⟨unchanged, reported⟩
  rw [unchanged]
  have valid := storedRetainedValid_of_reported reported
  refine (?_ : Keeps (StaysHistory runId) _) db
  apply keeps_bind (keeps_history writes_select)
  intro duplicate
  cases duplicate with
  | some existing =>
    exact keeps_bind (keeps_history reads_checkReceipt.writes) fun _ => keeps_done
  | none =>
    apply keeps_bind (keeps_applyRunEvent_history valid)
    intro eventId
    refine keeps_bind (keeps_history (writes_insert fun _ _ => ?_)) fun _ => ?_
    · trivial
    · apply keeps_bind (keeps_history writes_select)
      intro finalRun
      apply keeps_bind (keeps_history writes_select)
      exact fun _ => keeps_done

/-- Where the positions are in the order of the inserts, the last of a run's reports is its latest. -/
theorem isLatest_retained {stored : List StoredEvent} (rows : stored.map (·.event) = db.events.rows)
    (sorted : (stored.map (·.position)).Pairwise (· < ·)) :
    ∃ latest, IsLatest StoredEvent.runId StoredEvent.position (reportsOf stored) (some runId) latest ∧
      latest.map (·.event) = (retained runId db).getLast? := by
  have ranked := ((List.pairwise_map.mp sorted).filter fun e : StoredEvent =>
    e.event.type == .runWorkspaceRetained && e.runId.isSome).imp fun less => Nat.le_of_lt less
  refine ⟨_, isLatest_getLast? ranked, ?_⟩
  have ofRun : ((reportsOf stored).filter fun e => decide (e.runId = some runId)).map (·.event) =
      retained runId db := by
    unfold retained Table.select reportsOf
    rw [← rows, List.filter_map, List.filter_filter]
    congr 1
    apply List.filter_congr
    intro e _
    by_cases is : e.event.runId = some runId <;> simp [StoredEvent.runId, is]
  rw [← ofRun, List.getLast?_map]

/-- What is loaded for a run is the projection of the last report of its history. -/
theorem load_retained {stored : List StoredEvent} {runRows : List RunRow} {run : RunRow}
    (rows : stored.map (·.event) = db.events.rows)
    (sorted : (stored.map (·.position)).Pairwise (· < ·)) (member : run ∈ runRows) :
    ∃ latest, latest.map (·.event) = (retained run.id db).getLast? ∧
      (run.id, projectStored platform run latest) ∈
        loadWorkspaceRetentions platform stored runRows := by
  obtain ⟨latest, is, last⟩ := @isLatest_retained run.id _ stored rows sorted
  refine ⟨latest, last, ?_⟩
  have distinct : ((reportsOf stored).map StoredEvent.position).Nodup :=
    (sorted.imp fun less => Nat.ne_of_lt less).sublist (List.filter_sublist.map _)
  unfold loadWorkspaceRetentions
  rw [if_neg]
  · rw [is.unique (isLatest_load member) distinct]
    exact List.mem_map.mpr ⟨run, member, rfl⟩
  · rw [List.isEmpty_iff]
    rintro rfl
    exact absurd member List.not_mem_nil

end History

/-! ## Runs of the server -/

def Op.ingests : Op → Bool
  | .ingestRunEvent _ _ | .ingestWireRunEvent _ _ => true
  | _ => false

/-- An ingest of some frame, or another transaction: none but an ingest reports a retained
workspace. -/
def Reporting (platform : Platform) : Option Request → Database → Database → Prop
  | some r, db, db' => r.op.ingests = true ∧ Step platform r db db'
  | none, db, db' => ∀ runId, retained runId db' = retained runId db

theorem reporting_history {platform : Platform} {runId : String} {move : Option Request}
    {db db' : Database} (h : Reporting platform move db db') : StaysHistory runId db db' := by
  cases move with
  | none =>
    intro history
    rw [h runId]
    exact history
  | some r =>
    obtain ⟨ingests, rfl⟩ := h
    have keeps : Keeps (StaysHistory runId) (r.op.program ⟨r.actorUserId, platform⟩) := by
      cases is : r.op with
      | ingestRunEvent services env =>
        exact keeps_bind keeps_ingest_history fun _ => keeps_done
      | ingestWireRunEvent services frame =>
        apply keeps_bind _ fun _ => keeps_done
        unfold ingestWireRunEvent
        apply keeps_bind (keeps_history writes_orThrow)
        intro qualified
        split
        · exact keeps_done
        · exact keeps_bind keeps_ingest_history fun _ => keeps_done
      | _ =>
        rw [is] at ingests
        cases ingests
    exact keeps_execute keeps

/-- A run's history through ingests in any order, and the two readers of it, which take its last
report where the positions are in the order of the inserts. -/
theorem retention_history (platform : Platform) (runId : String) (moves : List (Option Request))
    (db db' : Database) (start : retained runId db = [])
    (path : Path (Reporting platform) moves db db') :
    RetentionHistory (retained runId db') ∧
      ∀ stored : List StoredEvent, stored.map (·.event) = db'.events.rows → ∀ runRows,
        ((stored.map (·.position)).Nodup → ∀ listed : List StoredEvent, listed.Perm stored →
          loadWorkspaceRetentions platform stored runRows =
            workspaceRetentionsFromEvents platform runRows listed) ∧
        ((stored.map (·.position)).Pairwise (· < ·) → ∀ run ∈ runRows,
          ∃ latest, latest.map (·.event) = (retained run.id db').getLast? ∧
            (run.id, projectStored platform run latest) ∈
              loadWorkspaceRetentions platform stored runRows) := by
  constructor
  · apply Path.invariant (P := fun db => RetentionHistory (retained runId db)) _ path
    · rw [start]
      exact .none
    · exact fun move _ _ history step => reporting_history step history
  · intro stored rows runRows
    constructor
    · exact fun distinct listed perm => load_eq_fromEvents distinct perm
    · exact fun sorted run member => load_retained rows sorted member

/-! A run with a worktree of its own, whose completed report is corrected. -/
namespace Sample

def worktreeRun : RunRow where
  id := "run1"
  taskId := "t1"
  computerId := "node1"
  agentInstanceId := "i1"
  status := .completed
  workspaceRoot := some "/work/run1"
  workspaceBranch := some "artoo/run1"
  createdAt := clock

def worktreeTask : TaskRow where
  id := "t1"
  projectId := "p1"
  status := .review
  updatedAt := clock

def worktree : Database :=
  { Database.empty with
    tasks := Table.empty.put worktreeTask
    runs := Table.empty.put worktreeRun }

def retain (sequence : Int) (outcome : WorkspaceRetentionOutcome) (eventId : String) : Request :=
  request (.ingestRunEvent {}
    ⟨"run1", "node1", sequence, .workspaceRetained ⟨"/work/run1", "artoo/run1", outcome⟩⟩)
    [clock, eventId, clock]

/-- A late report of less, a correction, and a report of a sequence that comes before it. -/
def reports : List Request :=
  [retain 5 .completed "e1", retain 3 .incompleteDelivery "e2", retain 9 .incompleteDelivery "e3",
    retain 12 .failed "e4"]

end Sample

open Sample in
theorem retention_history_corrected :
    (retained "run1" (serve platform reports worktree)).map (·.sequence) = [some 5, some 9] ∧
      RetentionHistory (retained "run1" (serve platform reports worktree)) := by
  refine ⟨by decide +kernel, ?_⟩
  exact (retention_history platform "run1" (reports.map some) worktree _ rfl
    (.cons ⟨rfl, rfl⟩ (.cons ⟨rfl, rfl⟩ (.cons ⟨rfl, rfl⟩ (.cons ⟨rfl, rfl⟩ (.nil _)))))).1

end Artoo.Server
