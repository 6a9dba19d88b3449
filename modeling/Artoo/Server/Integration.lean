import Artoo.Lib.Processes
import Artoo.Lib.Views
import Artoo.Server.Concurrent
import Artoo.Server.Ordinary
import Artoo.Server.System

/-! The integration queue: which artifacts are enqueued, and with which sequences. -/
namespace Artoo.Server
open Artoo.Lib Artoo.Protocol Artoo.Domain Tx

theorem queue_writeAll {log : List Write} {db : Database} :
    (writeAll log db).queue = (log.filterMap queueOf).foldl Table.put db.queue := by
  apply table_writeAll (fun db : Database => db.queue)
  intro w db
  cases w <;> rfl

theorem artifacts_writeAll {log : List Write} {db : Database} :
    (writeAll log db).artifacts = (log.filterMap artifactOf).foldl Table.put db.artifacts := by
  apply table_writeAll (fun db : Database => db.artifacts)
  intro w db
  cases w <;> rfl

/-- Artifacts are only inserted, and the queue is left as it is. -/
def Aside (view : Database) : Write → Prop
  | .queue _ => False
  | .artifact row => view.artifacts.get? row.id = none
  | _ => True

theorem Elsewhere.aside {view : Database} {w : Write} (h : Elsewhere view w) : Aside view w := by
  cases w with
  | queue row => cases h.1
  | artifact row => cases h.2
  | _ => trivial

theorem filterMap_nil {ρ : Type} {of : Write → Option ρ} {log : List Write}
    (none_ : ∀ w ∈ log, of w = none) : log.filterMap of = [] := by
  rw [List.filterMap_eq_nil_iff]
  exact none_

/-- Others add artifacts and queue rows, but leave the rows that are locked. -/
def queueRely : Rely Database Lock where
  rel locks db db' := db.artifacts.rows <+: db'.artifacts.rows ∧ ∀ k ∈ locks, k.Same db db'
  refl _ _ := ⟨List.prefix_refl _, fun _ _ => .refl⟩
  trans _ _ _ _ first last :=
    ⟨first.1.trans last.1, fun k held => (first.2 k held).trans (last.2 k held)⟩
  weaken _ _ _ _ fewer step := ⟨step.1, fun k held => step.2 k (fewer held)⟩

/-- The artifacts that a transaction has inserted are new, and locked. -/
def Inserted (s : Standing) : Prop := ∀ row ∈ s.log.filterMap artifactOf,
  .artifact row.id ∈ s.locks ∧ s.db.artifacts.get? row.id = none

section Inserted

variable {s : Standing} {db : Database} {runId uri artifactId : String}

theorem Inserted.later (h : Inserted s) (step : queueRely.rel s.locks s.db db) :
    Inserted (s.at_ db) := by
  intro row there
  obtain ⟨locked, absent⟩ := h row there
  have same : db.artifacts.get? row.id = s.db.artifacts.get? row.id := step.2 _ locked
  exact ⟨locked, same.trans absent⟩

theorem Inserted.grows (h : Inserted s) : s.db.artifacts.rows <+: s.view.artifacts.rows := by
  unfold Progress.view
  rw [artifacts_writeAll]
  exact Table.prefix_foldl_put (List.prefix_refl _) fun row there => (h row there).2

theorem Inserted.after (h : Inserted s) {locks : Database → List Lock}
    {writes : Database → List Write} (aside : ∀ w ∈ writes s.view, Aside s.view w) :
    Inserted (s.after locks writes) := by
  intro row there
  rw [Progress.after_log, List.filterMap_append, List.mem_append] at there
  rcases there with old | new
  · obtain ⟨locked, absent⟩ := h row old
    exact ⟨Progress.locks_after locked, absent⟩
  · obtain ⟨w, written, is⟩ := List.mem_filterMap.mp new
    cases w with
    | artifact row' =>
      cases is
      constructor
      · apply List.mem_append_right
        apply List.mem_append_right
        exact List.mem_flatMap.mpr ⟨_, written, List.mem_singleton.mpr rfl⟩
      · have absent : s.view.artifacts.get? row.id = none := aside _ written
        rw [Progress.after_db]
        cases found : s.db.artifacts.get? row.id with
        | none => rfl
        | some old =>
          rw [Table.get?_of_prefix h.grows found] at absent
          cases absent
    | _ => cases is

theorem inserted_none (none_ : s.log = []) : Inserted s := by
  intro row there
  rw [none_] at there
  cases there

theorem storedArtifact_later {a : ArtifactRow} {db db' : Database}
    (before : db.artifacts.rows <+: db'.artifacts.rows)
    (found : storedArtifact runId uri db = some a) : storedArtifact runId uri db' = some a := by
  obtain ⟨rest, is⟩ := before
  unfold storedArtifact Table.select at found ⊢
  rw [← is, List.filter_append, List.head?_append, found]
  rfl

theorem storedArtifact_there {a : ArtifactRow} (found : storedArtifact runId uri db = some a) :
    a ∈ db.artifacts := (Table.mem_select.mp (List.mem_of_head? found)).1

/-- The artifact of a run and an uri, found or inserted. -/
def Located (runId uri artifactId : String) (s : Standing) : Prop :=
  (∃ a, storedArtifact runId uri s.db = some a ∧ a.id = artifactId) ∨
    ∃ row ∈ s.log.filterMap artifactOf, row.id = artifactId

theorem Located.later (h : Located runId uri artifactId s)
    (step : queueRely.rel s.locks s.db db) : Located runId uri artifactId (s.at_ db) := by
  rcases h with ⟨a, found, is⟩ | inserted
  · exact Or.inl ⟨a, storedArtifact_later step.1 found, is⟩
  · exact Or.inr inserted

theorem Located.after (h : Located runId uri artifactId s) {locks : Database → List Lock}
    {writes : Database → List Write} : Located runId uri artifactId (s.after locks writes) := by
  rcases h with found | ⟨row, there, is⟩
  · exact Or.inl found
  · refine Or.inr ⟨row, ?_, is⟩
    rw [Progress.after_log, List.filterMap_append]
    exact List.mem_append_left _ there

end Inserted

/-! ## The transaction of an event -/

/-- What a transaction knows of the one row it enqueues; `v` is the view of its read. -/
structure Enqueued (runId uri : String) (v : Database) (q : QueueRow) (s : Standing) : Prop where
  inserted : Inserted s
  logged : s.log.filterMap queueOf = [q]
  artifact : ∃ artifactId, q.artifactRef = some artifactId ∧ Located runId uri artifactId s
  sequence : q.sequence = lastQueueSequence q.projectId v + 1
  locked : .queue q.id ∈ s.locks
  fresh : s.db.queue.get? q.id = none

/-- The transaction enqueues nothing. -/
structure Unqueued (s : Standing) : Prop where
  inserted : Inserted s
  logged : s.log.filterMap queueOf = []

section Enqueued

variable {s : Standing} {db v : Database} {runId uri : String} {q : QueueRow}

theorem Enqueued.later (h : Enqueued runId uri v q s) (step : queueRely.rel s.locks s.db db) :
    Enqueued runId uri v q (s.at_ db) := by
  obtain ⟨artifactId, is, located⟩ := h.artifact
  have same : db.queue.get? q.id = s.db.queue.get? q.id := step.2 _ h.locked
  exact ⟨h.inserted.later step, h.logged, ⟨artifactId, is, located.later step⟩, h.sequence, h.locked,
    same.trans h.fresh⟩

theorem Enqueued.after (h : Enqueued runId uri v q s) {locks : Database → List Lock}
    {writes : Database → List Write} (elsewhere : ∀ w ∈ writes s.view, Elsewhere s.view w) :
    Enqueued runId uri v q (s.after locks writes) := by
  obtain ⟨artifactId, is, located⟩ := h.artifact
  refine ⟨h.inserted.after fun w there => (elsewhere w there).aside, ?_,
    ⟨artifactId, is, located.after⟩, h.sequence, Progress.locks_after h.locked, h.fresh⟩
  rw [Progress.after_log, List.filterMap_append, h.logged,
    filterMap_nil fun w there => (elsewhere w there).1]
  rfl

theorem Unqueued.later (h : Unqueued s) (step : queueRely.rel s.locks s.db db) :
    Unqueued (s.at_ db) := ⟨h.inserted.later step, h.logged⟩

theorem Unqueued.after (h : Unqueued s) {locks : Database → List Lock}
    {writes : Database → List Write} (aside : ∀ w ∈ writes s.view, Aside s.view w) :
    Unqueued (s.after locks writes) := by
  refine ⟨h.inserted.after aside, ?_⟩
  have none_ : ∀ w ∈ writes s.view, queueOf w = none := by
    intro w there
    have outside := aside w there
    cases w with
    | queue row => exact outside.elim
    | _ => rfl
  rw [Progress.after_log, List.filterMap_append, h.logged, filterMap_nil none_]
  rfl

theorem unqueued_none (none_ : s.log = []) : Unqueued s :=
  ⟨inserted_none none_, by rw [none_]; rfl⟩

end Enqueued

/-! ## Artifacts -/

section Seen

variable {α β : Type} {s : Standing} {views : List Database}
  {post : β × List Database → Standing → Prop}

theorem under_seen_select {query : Database → α} {k : α → Txn β} :
    under queueRely (seen (select query >>= k) views) post s ↔
      ∀ db, queueRely.rel s.locks s.db db →
        under queueRely (seen (k (query (s.at_ db).view)) ((s.at_ db).view :: views)) post
          (s.at_ db) := by
  change (∀ db, _ → under queueRely (seen (k _) _) post
    ((s.at_ db).after (fun _ => []) fun _ => [])) ↔ _
  simp only [Progress.after_read]

theorem under_seen_insert {taken : Database → Bool} {w : Write}
    {post : Unit × List Database → Standing → Prop}
    (rest : ∀ db, queueRely.rel s.locks s.db db → taken (s.at_ db).view = false →
      ∀ db', queueRely.rel (s.locks ++ [w.lock]) db db' →
        post ((), (s.at_ db).view :: views) ⟨db', s.locks ++ [w.lock], s.log ++ [w]⟩) :
    under queueRely (seen (insert taken w) views) post s := by
  intro db later
  have here := rest db later
  dsimp only [Progress.after, Progress.wants]
  cases fresh : taken (s.at_ db).view with
  | true => trivial
  | false => exact here fresh

/-- A program that writes nothing, before the first write. -/
theorem under_unwritten {p : Txn α} (reads : Tx.Reads p) (none_ : s.log = []) :
    under queueRely p (fun _ s' => s'.log = []) s := by
  apply Tx.Writes.under reads (fun _ _ same _ => same) _ none_
  intro s locks writes same nothing
  have empty : writes s.view = [] := List.eq_nil_iff_forall_not_mem.mpr nothing
  rw [Progress.after_log, same, empty]
  rfl

end Seen

/-- What the transaction of an event enlists in, after the statements that follow the insert. -/
def Enlists (n : Nat) (about : Option (String × String)) (views : List Database) (s : Standing) :
    Prop :=
  Unqueued s ∨ ∃ runId uri q v, about = some (runId, uri) ∧ views[n]? = some v ∧
    Enqueued runId uri v q s

theorem Enlists.later {n : Nat} {about : Option (String × String)} {views : List Database} {s : Standing}
    {db : Database} (h : Enlists n about views s) (step : queueRely.rel s.locks s.db db) :
    Enlists n about views (s.at_ db) := by
  rcases h with unqueued | ⟨runId, uri, q, v, is, seen, enqueued⟩
  · exact Or.inl (unqueued.later step)
  · exact Or.inr ⟨runId, uri, q, v, is, seen, enqueued.later step⟩

section Artifacts

variable {st : Standing} {views : List Database} {s : IngestScope} {type : ArtifactType}
  {uri artifactId : String} {checksum : Option String}

theorem under_enqueue (inserted : Inserted st) (unqueued : st.log.filterMap queueOf = [])
    (located : Located s.env.runId uri artifactId st) :
    under queueRely (seen (enqueueArtifactForIntegration s artifactId type) views)
      (fun r st' => Enlists 1 (some (s.env.runId, uri)) r.2 st') st := by
  unfold enqueueArtifactForIntegration
  split
  · exact fun db later => Or.inl (Unqueued.later ⟨inserted, unqueued⟩ later)
  · intro now
    apply under_seen_select.mpr
    intro db later id
    apply under_seen_insert
    intro db' later' fresh db'' later''
    have since := queueRely.trans _ _ _ _ later later'
    have unwritten : (st.at_ db').view.queue = db'.queue := by
      unfold Progress.view
      rw [queue_writeAll]
      exact congrArg (List.foldl Table.put db'.queue) unqueued
    let q : QueueRow :=
      { id, projectId := s.task.projectId, taskId := s.run.taskId, runId := s.env.runId,
        sequence := lastQueueSequence s.task.projectId (st.at_ db).view + 1,
        artifactRef := artifactId, enqueuedAt := now }
    have enqueued : Enqueued s.env.runId uri (st.at_ db).view q
        ⟨db', st.locks ++ [.queue id], st.log ++ [.queue q]⟩ := by
      constructor
      · intro row there
        rw [List.filterMap_append] at there
        obtain ⟨locked, absent⟩ := inserted.later since row (by simpa [artifactOf] using there)
        exact ⟨List.mem_append_left _ locked, absent⟩
      · rw [List.filterMap_append, unqueued]
        rfl
      · refine ⟨artifactId, rfl, ?_⟩
        rcases located.later since with found | ⟨row, there, is⟩
        · exact Or.inl found
        · refine Or.inr ⟨row, ?_, is⟩
          rw [List.filterMap_append]
          exact List.mem_append_left _ there
      · rfl
      · exact List.mem_append_right _ List.mem_cons_self
      · change ((st.at_ db').view.queue.get? id).isSome = false at fresh
        rw [unwritten] at fresh
        exact Option.not_isSome_iff_eq_none.mp (by simpa using fresh)
    exact Or.inr ⟨s.env.runId, uri, q, (st.at_ db).view, rfl, rfl, enqueued.later later''⟩

/-- The artifact is found, or inserted; then the event is written. -/
theorem under_ingestArtifact (none_ : st.log = []) :
    under queueRely (seen (ingestArtifact s type uri checksum) views)
      (fun r st' => Enlists 1 (some (s.env.runId, uri)) r.2 st') st := by
  have rest : ∀ artifactId st views, Inserted st → st.log.filterMap queueOf = [] →
      Located s.env.runId uri artifactId st →
      under queueRely (seen (do
        let eventId ← emit s .artifactCreated [("artifact_id", .str artifactId),
          ("type", .str (artifactTypeName type)), ("uri", .str uri)]
          (some ⟨"artifact", "Artifact created: " ++ artifactTypeName type⟩)
        enqueueArtifactForIntegration s artifactId type
        return eventId) views) (fun r st' => Enlists 1 (some (s.env.runId, uri)) r.2 st') st := by
    intro artifactId st views inserted unqueued located
    have emitted : ∀ {payload message}, under queueRely (emit s .artifactCreated payload message)
        (fun _ st' => Unqueued st' ∧ Located s.env.runId uri artifactId st') st := by
      intro payload message
      have emits : Writes Ordinary (emit s .artifactCreated payload message) := ordinary_emit nofun
      apply emits.under
      · exact fun _ _ h later => ⟨h.1.later later, h.2.later later⟩
      · exact fun _ _ _ h there => ⟨h.1.after fun w written => (there w written).elsewhere.aside, h.2.after⟩
      · exact ⟨⟨inserted, unqueued⟩, located⟩
    apply under_seen_seq emitted
    intro eventId st' views ⟨unqueued, located⟩
    rw [seen_bind]
    apply under_seq (under_enqueue unqueued.inserted unqueued.logged located)
    intro r st'' enlists db later
    exact enlists.later later
  unfold ingestArtifact
  apply under_seen_select.mpr
  intro db later
  unfold throwIf
  split
  · trivial
  · rw [done_bind]
    dsimp only
    have view : (st.at_ db).view = db := by
      unfold Progress.view
      rw [Progress.at_log, none_]
      rfl
    cases stored : storedArtifact s.env.runId uri (st.at_ db).view with
    | some artifact =>
      apply rest artifact.id
      · exact inserted_none none_
      · rw [Progress.at_log, none_]
        rfl
      · rw [view] at stored
        exact Or.inl ⟨artifact, stored, rfl⟩
    | none =>
      intro id
      let row : ArtifactRow :=
        { id, taskId := s.run.taskId, runId := s.env.runId, type, uri, checksum,
          createdAt := s.now }
      have added : ∀ {views}, under queueRely
          (seen (insert (fun db => (db.artifacts.get? id).isSome) (.artifact row)) views)
          (fun _ st' => Inserted st' ∧ st'.log.filterMap queueOf = [] ∧
            Located s.env.runId uri id st') (st.at_ db) := by
        intro views
        apply under_seen_insert
        intro db' later' fresh db'' later''
        have empty : (st.at_ db').log = [] := none_
        have absent : db'.artifacts.get? id = none := by
          have view : ((st.at_ db).at_ db').view = db' := by
            unfold Progress.view
            rw [Progress.at_at, empty]
            rfl
          rw [view] at fresh
          exact Option.not_isSome_iff_eq_none.mp (by simpa using fresh)
        have inserted : Inserted ⟨db', st.locks ++ [.artifact id], st.log ++ [.artifact row]⟩ := by
          intro row' there
          rw [none_] at there
          cases List.mem_singleton.mp there
          exact ⟨List.mem_append_right _ List.mem_cons_self, absent⟩
        refine ⟨inserted.later later'', ?_, Or.inr ⟨row, ?_, rfl⟩⟩
        · change (st.log ++ [Write.artifact row]).filterMap queueOf = []
          rw [none_]
          rfl
        · change row ∈ (st.log ++ [Write.artifact row]).filterMap artifactOf
          rw [none_]
          exact List.mem_cons_self
      change under queueRely (seen (insert _ (.artifact row) >>= _) _) _ _
      rw [seen_bind]
      apply under_seq added
      rintro r st' ⟨inserted, unqueued, located⟩
      exact rest id st' r.2 inserted unqueued located

end Artifacts

/-- The run and the uri that an event announces. -/
def IngestEnvelope.announces (env : IngestEnvelope) : Option (String × String) :=
  match env.event with
  | .artifact _ uri _ => some (env.runId, uri)
  | _ => none

section Ingest

variable {ctx : Context} {services : Services} {s : IngestScope} {st : Standing}
  {views : List Database} {retention : Option StoredWorkspaceRetained}

theorem under_applyRunEvent (none_ : st.log = []) :
    under queueRely (seen (applyRunEvent ctx services s retention) views)
      (fun r st' => Enlists 1 s.env.announces r.2 st') st := by
  by_cases artifact : ∃ type uri checksum, s.env.event = .artifact type uri checksum
  · obtain ⟨type, uri, checksum, is⟩ := artifact
    unfold applyRunEvent IngestEnvelope.announces
    rw [is]
    exact under_ingestArtifact none_
  · have other : ∀ type uri checksum, s.env.event ≠ .artifact type uri checksum :=
      fun type uri checksum is => artifact ⟨type, uri, checksum, is⟩
    apply under_mono (under_seen ((elsewhere_applyRunEvent other).under
      (fun _ _ unqueued later => unqueued.later later)
      (fun _ _ _ unqueued there => unqueued.after fun w written => (there w written).aside)
      (unqueued_none none_)))
    exact fun _ _ unqueued => Or.inl unqueued

theorem Enlists.after {n : Nat} {about : Option (String × String)} (h : Enlists n about views st)
    {locks : Database → List Lock} {writes : Database → List Write}
    (elsewhere : ∀ w ∈ writes st.view, Elsewhere st.view w) :
    Enlists n about views (st.after locks writes) := by
  rcases h with unqueued | ⟨runId, uri, q, v, is, seen, enqueued⟩
  · exact Or.inl (unqueued.after fun w written => (elsewhere w written).aside)
  · exact Or.inr ⟨runId, uri, q, v, is, seen, enqueued.after elsewhere⟩

theorem Enlists.next {n : Nat} {about : Option (String × String)} (h : Enlists n about views st)
    {view : Database} : Enlists (n + 1) about (view :: views) st := by
  rcases h with unqueued | ⟨runId, uri, q, v, is, seen, enqueued⟩
  · exact Or.inl unqueued
  · exact Or.inr ⟨runId, uri, q, v, is, seen, enqueued⟩

theorem under_stored {n : Nat} {about : Option (String × String)} {taken : Database → Bool}
    {row : IngestRow} (h : Enlists n about views st) :
    under queueRely (seen (insert taken (.ingest row)) views)
      (fun r st' => Enlists (n + 1) about r.2 st') st := by
  apply under_seen_insert
  intro db later _ db' later'
  have elsewhere : ∀ w ∈ [Write.ingest row], Elsewhere (st.at_ db).view w := by
    intro w written
    rw [List.mem_singleton.mp written]
    exact ⟨rfl, rfl⟩
  have after : Enlists n about views ((st.at_ db).after (fun _ => []) fun _ => [.ingest row]) :=
    (h.later later).after elsewhere
  rw [Progress.after_single] at after
  exact (after.later later').next

theorem under_ingest {env : IngestEnvelope} {wireIdentity : Option String} (none_ : st.log = []) :
    under queueRely (seen (ingestRunEventInternal ctx services env wireIdentity) views)
      (fun r st' => Enlists 4 env.announces r.2 st') st := by
  unfold ingestRunEventInternal
  apply under_seen_seq (under_unwritten writes_throwIf none_)
  intro _ st views none_
  apply under_seen_seq (under_unwritten writes_nowIso none_)
  intro now st views none_
  apply under_seen_seq (under_unwritten writes_selectForUpdate none_)
  intro runs st views none_
  apply under_seen_seq (under_unwritten writes_orThrow none_)
  intro run st views none_
  apply under_seen_seq (under_unwritten writes_throwIf none_)
  intro _ st views none_
  apply under_seen_seq (under_unwritten writes_select none_)
  intro found st views none_
  apply under_seen_seq (under_unwritten writes_orThrow none_)
  intro task st views none_
  apply under_seen_seq (under_unwritten reads_reportedRetention none_)
  intro retention st views none_
  apply under_seen_seq (under_unwritten writes_select none_)
  intro duplicate st views none_
  cases duplicate with
  | some existing =>
    apply under_seen_seq (under_unwritten reads_checkReceipt none_)
    exact fun _ st views none_ db later => Or.inl ((unqueued_none none_).later later)
  | none =>
    dsimp only
    rw [seen_bind]
    apply under_seq (under_applyRunEvent none_)
    intro r st enlists
    rw [seen_bind]
    apply under_seq (under_stored enlists)
    intro r st enlists
    apply under_seen_select.mpr
    intro db later
    apply under_seen_select.mpr
    intro db' later' db'' later''
    exact (((enlists.later later).next.later later').next).later later''

end Ingest

/-! ## The queue of a project -/

def projectQueue (projectId : String) (db : Database) : List QueueRow :=
  db.queue.select (·.projectId == projectId)

/-- Each artifact is enqueued at most once, and the sequences of a project are 1 to its number of
rows. -/
structure Queued (db : Database) : Prop where
  refers : ∀ q ∈ db.queue, ∃ id, q.artifactRef = some id ∧ (db.artifacts.get? id).isSome
  once : ∀ q ∈ db.queue, ∀ q' ∈ db.queue, q.artifactRef = q'.artifactRef → q = q'
  numbered : ∀ projectId, ((projectQueue projectId db).map (·.sequence)).Perm
    (List.range' 1 (projectQueue projectId db).length)

theorem foldl_max_range (k : Nat) : (List.range' 1 k).foldl max 0 = k := by
  induction k with
  | zero => rfl
  | succ k ih =>
    rw [List.range'_concat, List.foldl_append, ih]
    simp only [List.foldl_cons, List.foldl_nil]
    omega

theorem lastQueueSequence_eq {projectId : String} {db : Database} (h : Queued db) :
    lastQueueSequence projectId db = (projectQueue projectId db).length := by
  have last := (h.numbered projectId).foldl_eq (f := max) 0
  exact last.trans (foldl_max_range _)

/-- The read of the last sequence is followed by four statements. -/
def readView (views : List Database) : Option Database := views[4]?

/-- A row may be committed: nothing was enqueued for its project since the last sequence was read,
and the artifact of the event is not in the queue. -/
def Steady (db : Database) (about : Option (String × String)) (views : List Database)
    (q : QueueRow) : Prop :=
  (∀ v ∈ (readView views).toList, projectQueue q.projectId v = projectQueue q.projectId db) ∧
    ∀ event ∈ about.toList, ∀ a ∈ (storedArtifact event.1 event.2 db).toList,
      ∀ q' ∈ db.queue.rows, q'.artifactRef ≠ some a.id

instance {db : Database} {about : Option (String × String)} {views : List Database} {q : QueueRow} :
    Decidable (Steady db about views q) := inferInstanceAs (Decidable (_ ∧ _))

section Commit

variable {s : Standing} {views : List Database} {about : Option (String × String)}

theorem Queued.unqueued (h : Queued s.db) (unqueued : Unqueued s) : Queued s.view := by
  have same : s.view.queue = s.db.queue := by
    unfold Progress.view
    rw [queue_writeAll, unqueued.logged]
    rfl
  have queues : ∀ projectId, projectQueue projectId s.view = projectQueue projectId s.db :=
    fun projectId => congrArg (fun t : Table QueueRow.id => t.select _) same
  constructor
  · rw [same]
    intro q there
    obtain ⟨id, is, found⟩ := h.refers q there
    obtain ⟨a, is'⟩ := Option.isSome_iff_exists.mp found
    refine ⟨id, is, ?_⟩
    rw [Table.get?_of_prefix unqueued.inserted.grows is']
    rfl
  · rw [same]
    exact h.once
  · intro projectId
    rw [queues]
    exact h.numbered projectId

theorem Queued.enqueued {runId uri : String} {v : Database} {q : QueueRow} (h : Queued s.db)
    (enqueued : Enqueued runId uri v q s)
    (read : projectQueue q.projectId v = projectQueue q.projectId s.db)
    (unlisted : ∀ a, storedArtifact runId uri s.db = some a →
      ∀ q' ∈ s.db.queue, q'.artifactRef ≠ some a.id) : Queued s.view := by
  have queue : s.view.queue = s.db.queue.put q := by
    unfold Progress.view
    rw [queue_writeAll, enqueued.logged]
    rfl
  obtain ⟨artifactId, ref, located⟩ := enqueued.artifact
  have new : ∀ q' ∈ s.db.queue, q'.artifactRef ≠ q.artifactRef := by
    intro q' there
    rw [ref]
    rcases located with ⟨a, stored, rfl⟩ | ⟨row, inserted, rfl⟩
    · exact unlisted a stored q' there
    · intro same
      obtain ⟨id, is, found⟩ := h.refers q' there
      have hit : id = row.id := Option.some.inj (is.symm.trans same)
      rw [hit, (enqueued.inserted row inserted).2] at found
      cases found
  constructor
  · rw [queue]
    intro a there
    rcases Table.mem_put.mp there with rfl | ⟨old, -⟩
    · refine ⟨artifactId, ref, ?_⟩
      unfold Progress.view
      rw [artifacts_writeAll]
      apply Table.isSome_foldl_put
      rcases located with ⟨a, stored, rfl⟩ | inserted
      · rw [Table.get?_of_mem (storedArtifact_there stored)]
        exact Or.inr rfl
      · exact Or.inl inserted
    · obtain ⟨id, is, found⟩ := h.refers a old
      obtain ⟨artifact, is'⟩ := Option.isSome_iff_exists.mp found
      refine ⟨id, is, ?_⟩
      rw [Table.get?_of_prefix enqueued.inserted.grows is']
      rfl
  · rw [queue]
    intro a ha b hb same
    rcases Table.mem_put.mp ha with rfl | ⟨oldA, -⟩
    · rcases Table.mem_put.mp hb with rfl | ⟨oldB, -⟩
      · rfl
      · exact absurd same.symm (new b oldB)
    · rcases Table.mem_put.mp hb with rfl | ⟨oldB, -⟩
      · exact absurd same (new a oldA)
      · exact h.once a oldA b oldB same
  · intro projectId
    have rows : projectQueue projectId s.view =
        projectQueue projectId s.db ++ if q.projectId == projectId then [q] else [] := by
      unfold projectQueue
      rw [queue]
      exact Table.select_put_fresh enqueued.fresh
    rw [rows]
    by_cases hit : q.projectId = projectId
    · subst hit
      have next : q.sequence = 1 + (projectQueue q.projectId s.db).length := by
        rw [enqueued.sequence, Nat.add_comm, ← lastQueueSequence_eq h]
        exact congrArg (fun rows => 1 + (rows.map (·.sequence)).foldl max 0) read
      rw [if_pos (beq_self_eq_true _), List.map_append, List.length_append, List.length_singleton,
        List.range'_concat, List.map_singleton, next, Nat.one_mul]
      exact (h.numbered q.projectId).append_right _
    · rw [if_neg (by simpa using hit), List.append_nil]
      exact h.numbered projectId

end Commit

/-! ## Runs -/

/-- The ingest of an event, or a transaction that leaves the queue alone. -/
inductive QueueCall where
  | ingest (ctx : Context) (services : Services) (env : IngestEnvelope)
      (wireIdentity : Option String)
  | other (p : Txn Unit) (aside : Writes Aside p)

def QueueCall.announces : QueueCall → Option (String × String)
  | .ingest _ _ env _ => env.announces
  | .other _ _ => none

def QueueCall.program (call : QueueCall) : Txn (Unit × List Database) :=
  match call with
  | .ingest ctx services env wireIdentity => do
    let r ← seen (ingestRunEventInternal ctx services env wireIdentity) []
    return ((), r.2)
  | .other p _ => seen p []

abbrev QueueWorld := World QueueCall Database Write Lock String Failure (Unit × List Database)

/-- Each row that is committed may be. -/
def steady (w : QueueWorld) (id : Nat) : Act QueueCall String → Prop
  | .commit => ∀ s ∈ w.sessions.rows, s.id = id → ∀ result ∈ s.result.toList,
      ∀ q ∈ s.log.filterMap queueOf, Steady w.db s.label.announces result.2 q
  | _ => True

instance {w : QueueWorld} {id : Nat} {act : Act QueueCall String} : Decidable (steady w id act) := by
  unfold steady
  split <;> infer_instance

theorem under_queueCall {call : QueueCall} {db : Database} :
    under queueRely call.program (fun r s => Enlists 4 call.announces r.2 s) ⟨db, [], []⟩ := by
  cases call with
  | ingest ctx services env wireIdentity =>
    apply under_seq (under_ingest rfl)
    exact fun r s enlists db' later => enlists.later later
  | other p aside =>
    apply under_mono (under_seen (aside.under (fun _ _ unqueued later => unqueued.later later)
      (fun _ _ _ unqueued there => unqueued.after there) (unqueued_none rfl)))
    exact fun _ _ unqueued => Or.inl unqueued

theorem queue_rules : World.Rules QueueCall.program steady queueRely
    (fun call _ r s => Enlists 4 call.announces r.2 s) Queued := by
  constructor
  · exact fun _ _ _ => under_queueCall
  · intro w s r there rest allowed queued guarded enlists
    have result : r ∈ s.result.toList := by
      rw [Session.result_eq.mpr rest]
      exact List.mem_singleton_self r
    constructor
    · rcases enlists with unqueued | ⟨runId, uri, q, v, about, read, enqueued⟩
      · exact queued.unqueued unqueued
      · have logged : q ∈ s.log.filterMap queueOf := by
          have only : s.log.filterMap queueOf = [q] := enqueued.logged
          rw [only]
          exact List.mem_singleton_self q
        obtain ⟨same, unlisted⟩ := allowed s there rfl r result q logged
        apply queued.enqueued enqueued
        · exact same v (by simpa [readView] using read)
        · intro a stored q' there'
          have stored' : storedArtifact runId uri w.db = some a := stored
          exact unlisted (runId, uri) (Option.mem_toList.mpr about) a (Option.mem_toList.mpr stored')
            q' there'
    · intro others free
      have inserted : Inserted (s.at_ w.db) := by
        rcases enlists with unqueued | ⟨runId, uri, q, v, about, read, enqueued⟩
        · exact unqueued.inserted
        · exact enqueued.inserted
      refine ⟨inserted.grows, fun k held => ?_⟩
      apply Lock.same_writeAll
      rintro x written rfl
      exact free _ held (guarded x written _ (List.mem_singleton.mpr rfl))

theorem integration_queue {ls : List (Nat × Act QueueCall String)} {db : Database} {w : QueueWorld}
    (path : Path (World.Steps QueueCall.program steady) ls (World.quiet db) w)
    (start : Queued db) : Queued w.db :=
  (World.holds_path queue_rules path (World.holds_quiet start)).1.invariant

/-! Patches of two runs of one project. -/
namespace Sample

def patchTask (id : String) : TaskRow :=
  { id, projectId := "p1", status := .running, updatedAt := clock }

def patchRun (id taskId : String) : RunRow :=
  { id, taskId, agentInstanceId := "i1", computerId := "node1", status := .running,
    createdAt := clock }

def twoRuns : Database :=
  { Database.empty with
    tasks := (Table.empty.put (patchTask "t1")).put (patchTask "t2")
    runs := (Table.empty.put (patchRun "r1" "t1")).put (patchRun "r2" "t2") }

def announce (runId : String) (sequence : Int) (uri : String) : QueueCall :=
  .ingest ⟨"u1", platform⟩ {} ⟨runId, "node1", sequence, .artifact .patch uri none⟩ none

def statements (id n : Nat) : List (Nat × Act QueueCall String) :=
  List.replicate n (id, .statement)

/-- Up to the read of the last sequence; an artifact is inserted where none is stored. -/
def readsLast (id : Nat) (call : QueueCall) (artifactId : Option String) (eventId : String) :
    List (Nat × Act QueueCall String) :=
  [(id, .begin call), (id, .draw clock)] ++ statements id 4 ++
    (artifactId.toList.flatMap fun artifactId => [(id, .draw artifactId), (id, .statement)]) ++
    [(id, .draw eventId), (id, .draw clock), (id, .statement), (id, .draw clock), (id, .statement)]

def enqueues (id : Nat) (jobId : String) : List (Nat × Act QueueCall String) :=
  [(id, .draw jobId)] ++ statements id 4 ++ [(id, .commit)]

/-- Two runs, each with a patch of its own. -/
def oneByOne : List (Nat × Act QueueCall String) :=
  readsLast 1 (announce "r1" 0 "a.patch") "a1" "e1" ++ enqueues 1 "q1" ++
    readsLast 2 (announce "r2" 0 "b.patch") "a2" "e2" ++ enqueues 2 "q2"

/-- The same patch in two events. -/
def twice : List (Nat × Act QueueCall String) :=
  readsLast 1 (announce "r1" 0 "a.patch") "a1" "e1" ++ enqueues 1 "q1" ++
    readsLast 2 (announce "r1" 1 "a.patch") none "e2" ++ enqueues 2 "q2"

/-- Neither transaction sees the row that the other enqueues. -/
def overlapping : List (Nat × Act QueueCall String) :=
  readsLast 1 (announce "r1" 0 "a.patch") "a1" "e1" ++
    readsLast 2 (announce "r2" 0 "b.patch") "a2" "e2" ++ enqueues 1 "q1" ++ enqueues 2 "q2"

end Sample

open Sample

theorem queued_empty {db : Database} (none_ : db.queue = .empty) : Queued db := by
  constructor
  · rw [none_]
    exact fun _ there => absurd there Table.not_mem_empty
  · rw [none_]
    exact fun _ there => absurd there Table.not_mem_empty
  · intro projectId
    unfold projectQueue
    rw [none_]
    exact List.Perm.refl _

theorem integration_queue_one_by_one :
    ∃ w, World.exec QueueCall.program steady oneByOne (World.quiet twoRuns) = some w ∧
      w.db.queue.rows.map (fun q => (q.artifactRef, q.sequence)) =
        [(some "a1", 1), (some "a2", 2)] ∧ Queued w.db := by
  have runs : ((World.exec QueueCall.program steady oneByOne (World.quiet twoRuns)).map fun w =>
      w.db.queue.rows.map fun q => (q.artifactRef, q.sequence)) =
      some [(some "a1", 1), (some "a2", 2)] := by decide +kernel
  obtain ⟨w, found, rows⟩ := Option.map_eq_some_iff.mp runs
  exact ⟨w, found, rows, integration_queue (World.exec_path found) (queued_empty rfl)⟩

/-- An artifact that is announced again is enqueued again, and two runs may get one sequence. -/
theorem enqueued_again :
    (¬ ∀ (ls : List (Nat × Act QueueCall String)) (w : QueueWorld),
      Path (World.Steps QueueCall.program fun _ _ _ => True) ls (World.quiet twoRuns) w →
      ∀ q ∈ w.db.queue.rows, ∀ q' ∈ w.db.queue.rows, q.artifactRef = q'.artifactRef → q = q') ∧
    ¬ ∀ (ls : List (Nat × Act QueueCall String)) (w : QueueWorld),
      Path (World.Steps QueueCall.program fun _ _ _ => True) ls (World.quiet twoRuns) w →
      ∀ q ∈ w.db.queue.rows, ∀ q' ∈ w.db.queue.rows, q.projectId = q'.projectId →
        q.sequence = q'.sequence → q = q' := by
  let results := fun ls : List (Nat × Act QueueCall String) =>
    World.exec QueueCall.program (fun _ _ _ => True) ls (World.quiet twoRuns)
  constructor
  · intro claimed
    have decided : ((results twice).map fun w => decide (∃ q ∈ w.db.queue.rows,
        ∃ q' ∈ w.db.queue.rows, q.artifactRef = q'.artifactRef ∧ q ≠ q')) = some true := by
      decide +kernel
    obtain ⟨w, found, is⟩ := Option.map_eq_some_iff.mp decided
    obtain ⟨q, there, q', there', same, differ⟩ := of_decide_eq_true is
    exact differ (claimed _ w (World.exec_path found) q there q' there' same)
  · intro claimed
    have decided : ((results overlapping).map fun w => decide (∃ q ∈ w.db.queue.rows,
        ∃ q' ∈ w.db.queue.rows, q.projectId = q'.projectId ∧ q.sequence = q'.sequence ∧
          q ≠ q')) = some true := by
      decide +kernel
    obtain ⟨w, found, is⟩ := Option.map_eq_some_iff.mp decided
    obtain ⟨q, there, q', there', project, same, differ⟩ := of_decide_eq_true is
    exact differ (claimed _ w (World.exec_path found) q there q' there' project same)

end Artoo.Server
