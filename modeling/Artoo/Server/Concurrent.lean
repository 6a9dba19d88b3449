import Artoo.Lib.Sessions
import Artoo.Server.Statements

/-! The statements of the server's transactions under concurrent commits. -/
namespace Artoo.Server
open Artoo.Lib Artoo.Protocol Artoo.Domain Tx

/-- The row under a lock is the same. -/
def Lock.Same (db db' : Database) : Lock → Prop
  | .task id => db'.tasks.get? id = db.tasks.get? id
  | .run id => db'.runs.get? id = db.runs.get? id
  | .lease id => db'.leases.get? id = db.leases.get? id
  | .approval id => db'.approvals.get? id = db.approvals.get? id
  | .event id => db'.events.get? id = db.events.get? id
  | .ingest key => db'.ingests.get? key = db.ingests.get? key
  | .message id => db'.messages.get? id = db.messages.get? id
  | .artifact id => db'.artifacts.get? id = db.artifacts.get? id
  | .turn id => db'.turns.get? id = db.turns.get? id
  | .usage runId => db'.usage.get? runId = db.usage.get? runId
  | .queue id => db'.queue.get? id = db.queue.get? id
  | .blocker id => db'.blockers.get? id = db.blockers.get? id
  | .agentInstance _ => True

theorem Lock.Same.refl {k : Lock} {db : Database} : k.Same db db := by
  cases k <;> first | rfl | trivial

theorem Lock.Same.trans {k : Lock} {a b c : Database} (first : k.Same a b) (last : k.Same b c) :
    k.Same a c := by
  cases k <;> first | exact Eq.trans last first | trivial

theorem Lock.same_write {k : Lock} {w : Write} {db : Database} (other : k ≠ w.lock) :
    k.Same db (w.apply db) := by
  have apart : ∀ {α κ : Type} [DecidableEq κ] {key : α → κ} {t : Table key} {row : α} {j : κ},
      j ≠ key row → (t.put row).get? j = t.get? j := fun ne => Table.get?_put_other ne.symm
  cases w <;> cases k <;> first | rfl | trivial | exact apart fun same => other (congrArg _ same)

theorem Lock.same_writeAll {k : Lock} {log : List Write} {db : Database}
    (free : ∀ w ∈ log, k ≠ w.lock) : k.Same db (writeAll log db) := by
  induction log generalizing db with
  | nil => exact .refl
  | cons w log ih =>
    have first : k.Same db (w.apply db) := same_write (free w List.mem_cons_self)
    exact first.trans (ih fun w member => free w (List.mem_cons_of_mem _ member))

abbrev Standing := Progress Database Write Lock

section Rules

variable {α β : Type} {R : Rely Database Lock} {s : Standing} {post : β → Standing → Prop}

theorem under_select {query : Database → α} {k : α → Txn β} :
    under R (select query >>= k) post s ↔
      ∀ db, R.rel s.locks s.db db → under R (k (query (s.at_ db).view)) post (s.at_ db) := by
  change (∀ db, _ → under R (k _) post ((s.at_ db).after (fun _ => []) fun _ => [])) ↔ _
  simp only [Progress.after_read]

theorem under_update {matching : Database → List α} {set : α → Write} {k : List α → Txn β} :
    under R (update matching set >>= k) post s ↔
      ∀ db, R.rel s.locks s.db db → under R (k (matching (s.at_ db).view)) post
        ⟨db, s.locks ++ (matching (s.at_ db).view).map fun a => (set a).lock,
          s.log ++ (matching (s.at_ db).view).map set⟩ := by
  change (∀ db, _ → under R (k _) post
    ((s.at_ db).after (fun _ => []) fun db => (matching db).map set)) ↔ _
  have guards : ∀ rows : List α, (rows.map set).flatMap (Tables.guards Database) =
      rows.map fun a => (set a).lock := by
    intro rows
    induction rows with
    | nil => rfl
    | cons a rows ih =>
      rw [List.map_cons, List.flatMap_cons, ih]
      rfl
  simp only [Progress.after, Progress.wants, guards, List.nil_append]
  exact Iff.rfl

theorem under_insert {taken : Database → Bool} {w : Write} {k : Unit → Txn β} :
    under R (insert taken w >>= k) post s ↔
      ∀ db, R.rel s.locks s.db db → taken (s.at_ db).view = false →
        under R (k ()) post ⟨db, s.locks ++ [w.lock], s.log ++ [w]⟩ := by
  constructor
  · intro h db later fresh
    have here := h db later
    dsimp only [Progress.after, Progress.wants] at here
    rw [fresh] at here
    exact here
  · intro h db later
    cases fresh : taken (s.at_ db).view with
    | false =>
      have here := h db later fresh
      change under R ((if taken _ then _ else _) >>= k) post _
      dsimp only [Progress.after, Progress.wants]
      rw [fresh]
      exact here
    | true =>
      change under R ((if taken _ then _ else _) >>= k) post _
      rw [fresh]
      trivial

theorem under_generate {k : String → Txn β} :
    under R (generate >>= k) post s ↔ ∀ id, under R (k id) post s := Iff.rfl

theorem under_nowIso {k : String → Txn β} :
    under R (nowIso >>= k) post s ↔ ∀ now, under R (k now) post s := Iff.rfl

theorem under_throwIf {refused : Bool} {e : Failure} {k : Unit → Txn β} :
    under R (throwIf refused e >>= k) post s ↔ (refused = false → under R (k ()) post s) := by
  cases refused with
  | false => exact ⟨fun h _ => h, fun h => h rfl⟩
  | true =>
    constructor
    · intro _ passes
      cases passes
    · exact fun _ => trivial

theorem under_orThrow {found : Option α} {e : Failure} {k : α → Txn β} :
    under R (orThrow found e >>= k) post s ↔ ∀ a, found = some a → under R (k a) post s := by
  cases found with
  | none =>
    constructor
    · intro _ _ is
      cases is
    · exact fun _ => trivial
  | some a =>
    constructor
    · intro h b is
      cases is
      exact h
    · exact fun h => h a rfl

/-- The events that a transition builds, one for each of its specs. -/
def Builds (specs : List EventSpec) (built : List EventRow) : Prop :=
  List.Forall₂ (fun spec e => ∃ id occurredAt, e = EventSpec.row spec id occurredAt) specs built

theorem under_buildEvents {specs : List EventSpec} {k : List EventRow → Txn β}
    (rest : ∀ built, Builds specs built → under R (k built) post s) :
    under R (specs.mapM buildEvent >>= k) post s := by
  induction specs generalizing k with
  | nil => exact rest [] .nil
  | cons spec specs ih =>
    rw [List.mapM_cons, bind_assoc]
    intro id occurredAt
    change under R ((specs.mapM buildEvent >>= fun built => pure (_ :: built)) >>= k) post s
    rw [bind_assoc]
    exact ih fun built builds => rest _ (.cons ⟨id, occurredAt, rfl⟩ builds)

theorem under_logEvent {spec : EventSpec} {k : EventRow → Txn β} :
    under R (logEvent spec >>= k) post s ↔ ∀ id occurredAt db, R.rel s.locks s.db db →
      ((s.at_ db).view.events.get? id).isSome = false →
        under R (k (spec.row id occurredAt)) post
          ⟨db, s.locks ++ [.event id], s.log ++ [.event (spec.row id occurredAt)]⟩ := by
  unfold logEvent buildEvent appendEvent
  simp only [bind_assoc, pure_bind]
  rw [under_generate]
  apply forall_congr'
  intro id
  rw [under_nowIso]
  apply forall_congr'
  intro occurredAt
  exact under_insert

/-- An invariant of what is still to be logged. -/
theorem under_appendEvents {I : List EventSpec → Standing → Prop} {specs : List EventSpec}
    {built : List EventRow} {k : Unit → Txn β} (builds : Builds specs built)
    (stable : ∀ rest s db, I rest s → R.rel s.locks s.db db → I rest (s.at_ db))
    (step : ∀ spec rest s id occurredAt, I (spec :: rest) s →
      I rest ⟨s.db, s.locks ++ [.event id], s.log ++ [.event (spec.row id occurredAt)]⟩)
    (initial : I specs s) (rest : ∀ s', I [] s' → Progress.Since R s s' → under R (k ()) post s') :
    under R (built.forM appendEvent >>= k) post s := by
  suffices logged : under R (built.forM appendEvent) (fun _ s' => I [] s') s from
    under_seq_since logged fun _ s' => rest s'
  clear rest
  induction builds generalizing s with
  | nil => exact fun db later => stable _ _ _ initial later
  | @cons spec e specs built is _ ih =>
    obtain ⟨id, occurredAt, rfl⟩ := is
    change under R (appendEvent _ >>= fun _ => built.forM appendEvent) _ s
    unfold appendEvent
    rw [under_insert]
    intro db later _
    exact ih (step spec specs _ id occurredAt (stable _ _ _ initial later))

/-- A transition writes the row it guards, then its events. -/
theorem under_transitionTask {taskId now : String} {source : TaskStatus} {trigger : TaskTrigger}
    {events : TaskStatus → List EventSpec} {k : TransitionResult TaskStatus → Txn β}
    (rest : ∀ target, applyTaskTransition source trigger = some target →
      ∀ db, R.rel s.locks s.db db →
        (∀ row, (s.at_ db).view.tasks.get? taskId = some row → row.status = source →
          ∀ built, Builds (events target) built →
            under R (built.forM appendEvent >>= fun _ => k ⟨true, target⟩) post
              ⟨db, s.locks ++ [.task taskId],
                s.log ++ [.task (setTaskStatus target now row)]⟩) ∧
        ((∀ row, (s.at_ db).view.tasks.get? taskId = some row → row.status ≠ source) →
          under R (k ⟨false, target⟩) post (s.at_ db))) :
    under R (transitionTask taskId source trigger now events >>= k) post s := by
  unfold transitionTask
  rw [bind_assoc, under_orThrow]
  intro target edge
  rw [bind_assoc, under_update]
  intro db later
  obtain ⟨hit, miss⟩ := rest target edge db later
  cases matching : ((s.at_ db).view.tasks.get? taskId).toList.filter (·.status == source) with
  | nil =>
    simp only [List.map_nil, List.append_nil, List.isEmpty_nil, Bool.not_true,
      Bool.false_eq_true, if_false]
    apply miss
    intro row found is
    rw [found] at matching
    simp [is] at matching
  | cons row rows =>
    have member : row ∈ ((s.at_ db).view.tasks.get? taskId).toList.filter (·.status == source) := by
      rw [matching]
      exact List.mem_cons_self
    obtain ⟨found, same⟩ := List.mem_filter.mp member
    rw [Option.mem_toList] at found
    have alone : rows = [] := by
      rw [found] at matching
      simp only [Option.toList_some, List.filter_cons, same, if_true, List.filter_nil] at matching
      exact (List.cons.inj matching).2.symm
    have key : row.id = taskId := Table.key_of_get? found
    have built := hit row found (beq_iff_eq.mp same)
    simp only [alone, List.map_cons, List.map_nil, List.isEmpty_cons, Bool.not_false, if_true,
      bind_assoc]
    apply under_buildEvents
    intro events builds
    change under R _ post ⟨db, s.locks ++ [.task row.id], _⟩
    rw [key]
    exact built events builds

end Rules

end Artoo.Server
