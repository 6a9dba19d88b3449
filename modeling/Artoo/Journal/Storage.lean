import Artoo.Lib.Ensures
import Artoo.Journal.History

/-! A run's cell inside the database: what the worker's reads return there, and what its
writes do to the cell and to the rest of the database. -/
namespace Artoo.Journal
open Artoo.Protocol Artoo.Lib

/-- The database holds the cell at its run. -/
structure Held (db : Database) (c : Cell) : Prop where
  runs : db.runs c.row.runId = some c.row
  outbox : db.outbox c.row.runId = c.rows
  receipt : c.row.receiptId.bind db.receipts = c.receipt

/-- The database holds a sound cell. -/
structure Stored (digest : NodeRunEvent → String) (db : Database) (c : Cell) : Prop
    extends Held db c where
  inv : c.Inv digest

def EventRow.stored (e : EventRow) : StoredEvent :=
  { runId := e.runId, sequence := e.sequence, eventId := e.eventId, content := e.content,
    contentSha256 := e.contentSha256, committed := e.committed, role := e.role,
    superseded := e.superseded }

/-- What `view` reports of a sound run. -/
def Cell.view (incarnation : String) (c : Cell) : JournalRun :=
  { runId := c.row.runId, mode := c.row.mode, launchKey := c.row.launchKey,
    revision := c.row.revision, phase := c.row.phase, stopRequested := c.row.stopRequested,
    ownership := if c.row.phase = .closed then .fenced
      else if c.row.ownerIncarnation = some incarnation then .localClaim else .unknown
    receipt := c.receipt, finalOutcome := c.row.finalOutcome, liveAbort := c.row.liveAbort }

theorem Cell.Inv.recorded {digest : NodeRunEvent → String} {c : Cell} (inv : c.Inv digest) :
    c.row.receiptId = c.receipt.map (·.id) := by
  cases inv.stage with
  | open_ run =>
    by_cases started : c.row.phase = .started
    · obtain ⟨receipt, found, id, -⟩ := run.started started
      rw [found, id, Option.map_some]
    · obtain ⟨none, id⟩ := run.unstarted started
      rw [none, id, Option.map_none]
  | fenced run =>
    obtain ⟨receipt, found, id, -⟩ := run.receipt
    rw [found, id, Option.map_some]
  | settled run => rw [run.receipt, run.receiptId, Option.map_some]
  | corrected run => rw [run.receipt, run.receiptId, Option.map_some]

/-- The row at a sequence. -/
theorem LogInv.find_sequence {digest : NodeRunEvent → String} {row : RunRow} {rows : List EventRow}
    (inv : LogInv digest row rows) {e : EventRow} (member : e ∈ rows) :
    rows.find? (·.sequence == e.sequence) = some e := by
  cases found : rows.find? (·.sequence == e.sequence) with
  | none => simpa using List.find?_eq_none.mp found e member
  | some x =>
    have same : x.sequence = e.sequence := by simpa using List.find?_some found
    rw [inv.same_of_sequence (List.mem_of_find?_eq_some found) member same]

theorem LogInv.find_event {digest : NodeRunEvent → String} {row : RunRow} {rows : List EventRow}
    (inv : LogInv digest row rows) {e : EventRow} (member : e ∈ rows) :
    rows.find? (·.eventId == e.eventId) = some e := by
  cases found : rows.find? (·.eventId == e.eventId) with
  | none => simpa using List.find?_eq_none.mp found e member
  | some x =>
    have same : x.eventId = e.eventId := by simpa using List.find?_some found
    rw [key_injective inv.eventIds (List.mem_of_find?_eq_some found) member same]

theorem LogInv.ordered {digest : NodeRunEvent → String} {row : RunRow} {rows : List EventRow}
    (inv : LogInv digest row rows) : rows.Pairwise fun a b => a.sequence < b.sequence := by
  have ordered : (rows.map (·.sequence)).Pairwise (· < ·) := by
    rw [inv.sequences]
    exact List.pairwise_lt_range
  exact List.pairwise_map.mp ordered

/-! ### The ordered map of `runEvents` -/

theorem orderBySequence_eq {rows : List EventRow}
    (ordered : rows.Pairwise fun a b => a.sequence < b.sequence) : orderBySequence rows = rows :=
  List.Pairwise.insertionSort_eq (ordered.imp fun before => before.le)

/-- Strictly ordered lists with the same rows are equal. -/
theorem eq_of_ordered {a b : List EventRow} (ha : a.Pairwise fun x y => x.sequence < y.sequence)
    (hb : b.Pairwise fun x y => x.sequence < y.sequence) (same : ∀ e, e ∈ a ↔ e ∈ b) : a = b := by
  have distinct : ∀ {l : List EventRow}, l.Pairwise (fun x y => x.sequence < y.sequence) →
      l.Nodup := fun ordered => ordered.imp fun before same => by simp [same] at before
  have perm := (List.perm_ext_iff_of_nodup (distinct ha) (distinct hb)).mpr same
  exact perm.eq_of_pairwise (fun x y _ _ before after => absurd before (by omega)) ha hb

theorem mem_mapSet {map : List EventRow} {row : EventRow}
    (same : ∀ e ∈ map, e.sequence = row.sequence → e = row) {e : EventRow} :
    e ∈ mapSet map row ↔ e ∈ map ∨ e = row := by
  rw [mapSet]
  split
  next known =>
    obtain ⟨x, hx, hit⟩ := List.any_eq_true.mp known
    have present : row ∈ map := same x hx (by simpa using hit) ▸ hx
    have kept : (map.map fun e => if e.sequence == row.sequence then row else e) = map := by
      refine (List.map_congr_left fun e member => ?_).trans (List.map_id' map)
      by_cases hit : e.sequence = row.sequence
      · simp [same e member hit]
      · simp [hit]
    rw [kept]
    exact ⟨.inl, fun h => h.elim id fun eq => eq ▸ present⟩
  next => simp

theorem mapSet_nodup {map : List EventRow} {row : EventRow} (unique : (map.map (·.sequence)).Nodup) :
    ((mapSet map row).map (·.sequence)).Nodup := by
  rw [mapSet]
  split
  next =>
    have kept : (map.map fun e => if e.sequence == row.sequence then row else e).map (·.sequence) =
        map.map (·.sequence) := by
      rw [List.map_map]
      refine List.map_congr_left fun e _ => ?_
      by_cases hit : e.sequence = row.sequence <;> simp [hit]
    rwa [kept]
  next absent =>
    rw [List.map_append]
    refine List.nodup_append.mpr ⟨unique, List.nodup_singleton _, ?_⟩
    rintro x old y new rfl
    obtain ⟨e, member, hit⟩ := List.mem_map.mp old
    exact absent (List.any_eq_true.mpr ⟨e, member, by simpa using hit.trans (List.mem_singleton.mp new)⟩)

/-- The fold keeps one row for each sequence and loses none. -/
theorem foldl_mapSet {rows : List EventRow}
    (same : ∀ a ∈ rows, ∀ b ∈ rows, a.sequence = b.sequence → a = b) (xs : List EventRow) :
    ∀ map : List EventRow, (∀ e ∈ map, e ∈ rows) → (∀ e ∈ xs, e ∈ rows) →
      (map.map (·.sequence)).Nodup →
      ((xs.foldl mapSet map).map (·.sequence)).Nodup ∧
        ∀ e, e ∈ xs.foldl mapSet map ↔ e ∈ map ∨ e ∈ xs := by
  induction xs with
  | nil => intro map _ _ unique; exact ⟨unique, by simp⟩
  | cons row rest ih =>
    intro map known listed unique
    have row_mem := listed row List.mem_cons_self
    have set : ∀ e, e ∈ mapSet map row ↔ e ∈ map ∨ e = row := fun e =>
      mem_mapSet fun x hx hit => same x (known x hx) row row_mem hit
    obtain ⟨nodup, members⟩ := ih (mapSet map row)
      (fun e member => ((set e).mp member).elim (known e) fun eq => eq ▸ row_mem)
      (fun e member => listed e (List.mem_cons_of_mem _ member)) (mapSet_nodup unique)
    refine ⟨nodup, fun e => ?_⟩
    rw [List.foldl_cons, members, set, List.mem_cons, or_assoc]

instance : Std.Total sequenceLe := ⟨fun a b => Nat.le_total a.sequence b.sequence⟩

instance : IsTrans EventRow sequenceLe := ⟨fun _ _ _ => Nat.le_trans⟩

theorem orderBySequence_ordered {rows : List EventRow} (unique : (rows.map (·.sequence)).Nodup) :
    (orderBySequence rows).Pairwise fun a b => a.sequence < b.sequence := by
  have sorted : (orderBySequence rows).Pairwise sequenceLe := List.pairwise_insertionSort _ _
  have distinct : (orderBySequence rows).Pairwise fun a b => a.sequence ≠ b.sequence := by
    have perm := (List.perm_insertionSort sequenceLe rows).map (·.sequence)
    exact List.pairwise_map.mp (perm.nodup_iff.mpr unique)
  exact (sorted.and distinct).imp fun both => lt_of_le_of_ne both.1 both.2

/-- What `runEvents` returns: the outstanding rows and maybe some settled ones, in order. -/
structure EventsOf (c : Cell) (events : List EventRow) : Prop where
  subset : ∀ e ∈ events, e ∈ c.rows
  ordered : events.Pairwise fun a b => a.sequence < b.sequence
  active : events.filter EventRow.active = c.outstanding

theorem EventsOf.mem_active {c : Cell} {events : List EventRow} (h : EventsOf c events)
    {e : EventRow} (active : e.active = true) : e ∈ events ↔ e ∈ c.rows := by
  constructor
  · exact h.subset e
  · intro member
    have out : e ∈ events.filter EventRow.active :=
      h.active ▸ List.mem_filter.mpr ⟨member, active⟩
    exact List.mem_of_mem_filter out

namespace Held

variable {digest : NodeRunEvent → String} {db : Database} {c : Cell}

theorem rerun_eq (h : Held db c) (value : RunRow) (same : value.runId = c.row.runId) :
    rerun db value = c.row := by
  rw [rerun, same, h.runs, Option.getD_some]

theorem findEvent_eq (h : Held db c) (inv : LogInv digest c.row c.rows) {e : EventRow} (member : e ∈ c.rows) :
    db.findEvent c.row.runId e.eventId = some e := by
  rw [Database.findEvent, h.outbox]
  exact inv.find_event member

theorem findSequence_eq (h : Held db c) (inv : LogInv digest c.row c.rows) {e : EventRow} (member : e ∈ c.rows) :
    db.findSequence c.row.runId e.sequence = some e := by
  rw [Database.findSequence, h.outbox]
  exact inv.find_sequence member

theorem of_findSequence (h : Held db c) {sequence : Nat} {e : EventRow}
    (found : db.findSequence c.row.runId sequence = some e) : e ∈ c.rows ∧ e.sequence = sequence := by
  rw [Database.findSequence, h.outbox] at found
  exact ⟨List.mem_of_find?_eq_some found, by simpa using List.find?_some found⟩

theorem of_findEvent (h : Held db c) {eventId : String} {e : EventRow}
    (found : db.findEvent c.row.runId eventId = some e) : e ∈ c.rows ∧ e.eventId = eventId := by
  rw [Database.findEvent, h.outbox] at found
  exact ⟨List.mem_of_find?_eq_some found, by simpa using List.find?_some found⟩

theorem originalRow_mem (h : Held db c) {suffix : Suffix} {e : EventRow}
    (found : originalRow db c.row.runId suffix = some e) : e ∈ c.rows := by
  rw [originalRow, h.runs] at found
  simp only at found
  split at found
  · cases found
  · split at found
    · cases found
    · exact (h.of_findEvent found).1

/-- The active bound never refuses a run within its backlog. -/
theorem runEvents_ok (h : Held db c) (inv : LogInv digest c.row c.rows)
    (backlog : c.outstanding.length ≤ maxBacklog) :
    ∃ events, Journal.runEvents db c.row.runId = .ok events ∧ EventsOf c events := by
  have ordered : c.outstanding.Pairwise fun a b => a.sequence < b.sequence :=
    inv.ordered.filter _
  have fits : ¬ maxBacklog < c.outstanding.length := Nat.not_lt.mpr backlog
  have within : c.outstanding.length ≤ maxBacklog + 1 := Nat.le_succ_of_le backlog
  have active : (orderBySequence ((db.outbox c.row.runId).filter EventRow.active)).take
      (maxBacklog + 1) = c.outstanding := by
    rw [h.outbox]
    exact (congrArg _ (orderBySequence_eq ordered)).trans (List.take_of_length_le within)
  let original := Suffix.all.filterMap (originalRow db c.row.runId)
  have known : ∀ e ∈ c.outstanding ++ original, e ∈ c.rows := by
    intro e member
    rcases List.mem_append.mp member with out | settled
    · exact List.mem_of_mem_filter out
    · obtain ⟨suffix, -, found⟩ := List.mem_filterMap.mp settled
      exact h.originalRow_mem found
  obtain ⟨unique, members⟩ := foldl_mapSet
    (fun a ha b hb same => inv.same_of_sequence ha hb same) (c.outstanding ++ original) []
    (fun _ member => nomatch member) known List.nodup_nil
  have listed : ∀ e, e ∈ orderBySequence ((c.outstanding ++ original).foldl mapSet []) ↔
      e ∈ c.outstanding ++ original := by
    intro e
    rw [orderBySequence, List.mem_insertionSort, members]
    simp
  have sorted := orderBySequence_ordered unique
  refine ⟨orderBySequence ((c.outstanding ++ original).foldl mapSet []), ?_, ?_, sorted, ?_⟩
  · simp only [Journal.runEvents, active, if_neg fits]
    rfl
  · exact fun e member => known e ((listed e).mp member)
  · refine eq_of_ordered (sorted.filter _) ordered fun e => ?_
    rw [List.mem_filter, listed]
    constructor
    · rintro ⟨member, active⟩
      exact List.mem_filter.mpr ⟨known e member, active⟩
    · intro member
      exact ⟨List.mem_append_left _ member, (List.mem_filter.mp member).2⟩

end Held

namespace Stored

variable {w : Worker} {db : Database} {c : Cell}

theorem receipt_ok (h : Stored w.digest db c) :
    Journal.receipt db c.row.receiptId = .ok c.receipt := by
  have found := h.receipt
  have recorded := h.inv.recorded
  cases id : c.row.receiptId with
  | none =>
    rw [id, Option.bind_none] at found
    rw [← found]
    rfl
  | some key =>
    rw [id, Option.bind_some] at found
    rw [id] at recorded
    cases saved : c.receipt with
    | none => simp [saved] at recorded
    | some receipt => simp [Journal.receipt, found, saved]

theorem event_ok (h : Stored w.digest db c) {e : EventRow} (member : e ∈ c.rows) :
    event w e = .ok e.stored := by
  have digest := (h.inv.each e member).digest
  simp [event, digest, EventRow.stored]

theorem attempts_ok (h : Stored w.digest db c) {e : EventRow} (member : e ∈ c.rows) :
    attempts e = .ok e.attempts := by
  have row := h.inv.each e member
  rw [attempts, if_neg]
  rintro (many | twice | bad | unset)
  · exact absurd row.budget (by omega)
  · exact twice row.ids
  · obtain ⟨a, attempted, wrong⟩ := List.any_eq_true.mp bad
    simp only [Bool.or_eq_true, beq_iff_eq, decide_eq_true_eq] at wrong
    rcases wrong with unnamed | late
    · exact row.named a attempted unnamed
    · exact absurd (row.ticks a attempted) (by omega)
  · obtain ⟨deadline, clock⟩ := row.timed unset.1
    rcases unset.2 with none | none
    · simp [none] at clock
    · simp [none] at deadline

/-- The stored row of a listed core. -/
theorem of_core {core : EventCore} (listed : core ∈ c.rows.map EventRow.core) :
    ∃ e ∈ c.rows, e.core = core :=
  List.mem_map.mp listed

theorem checkSettled_ok (h : Stored w.digest db c) {key : String} {n : Nat} {outcome : FinalOutcome}
    {suffix : Suffix}
    (listed : settlementCore w.digest c.row.runId key n outcome suffix ∈ c.rows.map EventRow.core) :
    ∃ stored, checkSettled w db c.row key suffix
      (settlementCore w.digest c.row.runId key n outcome suffix).content = .ok stored := by
  obtain ⟨e, member, core⟩ := of_core listed
  have id : e.eventId = settlementEventId key suffix := congrArg EventCore.eventId core
  have content := congrArg EventCore.content core
  have found := h.findEvent_eq h.inv.toLogInv member
  rw [id] at found
  refine ⟨e.stored, ?_⟩
  rw [checkSettled, found]
  simp only
  rw [if_neg, h.event_ok member]
  exact not_not_intro content

/-- The two settlement rows are listed in every physically closed run. -/
theorem settlement_listed (h : Stored w.digest db c) {closure : ReceiptRow}
    (recorded : c.receipt = some closure) (kind : closure.kind = .processExitConfirmed) :
    ∃ key outcome n, ClosedRun c key outcome closure ∧ ∀ suffix,
      settlementCore w.digest c.row.runId key n outcome suffix ∈ c.rows.map EventRow.core := by
  cases h.inv.stage with
  | open_ run =>
    by_cases started : c.row.phase = .started
    · obtain ⟨receipt, found, -, accepted⟩ := run.started started
      obtain rfl := Option.some.inj (found.symm.trans recorded)
      simp [accepted] at kind
    · simp [(run.unstarted started).1] at recorded
  | fenced run =>
    obtain ⟨receipt, found, -, fence⟩ := run.receipt
    obtain rfl := Option.some.inj (found.symm.trans recorded)
    rcases fence with fence | fence <;> simp [fence] at kind
  | @settled key outcome other history run =>
    obtain rfl := Option.some.inj (run.receipt.symm.trans recorded)
    refine ⟨key, outcome, history.length, run.toClosedRun, fun suffix => ?_⟩
    rw [run.cores]
    cases suffix <;> simp [Suffix.all]
  | @corrected key outcome other history run =>
    obtain rfl := Option.some.inj (run.receipt.symm.trans recorded)
    refine ⟨key, outcome, history.length, run.toClosedRun, fun suffix => ?_⟩
    rw [run.cores]
    cases suffix <;> simp [Suffix.all]

theorem checkClosure_ok (h : Stored w.digest db c) {closure : ReceiptRow}
    (recorded : c.receipt = some closure) (kind : closure.kind = .processExitConfirmed) :
    checkClosure w db c.row = .ok () := by
  obtain ⟨key, outcome, n, run, listed⟩ := h.settlement_listed recorded kind
  obtain ⟨first, retained⟩ := h.checkSettled_ok (listed .retained)
  obtain ⟨second, terminal⟩ := h.checkSettled_ok (listed .terminal)
  simp only [settlementCore] at retained terminal
  simp only [checkClosure, run.finalOutcome, run.launchKey, if_neg run.named, retained, terminal,
    ok_bind]

theorem closed_receipt (inv : c.Inv w.digest) (closed : c.row.phase = .closed) :
    c.receipt.map (·.kind) ≠ none ∧ c.receipt.map (·.kind) ≠ some .accepted := by
  cases inv.stage with
  | open_ run => exact absurd closed run.phase
  | fenced run =>
    obtain ⟨receipt, found, -, fence⟩ := run.receipt
    rcases fence with fence | fence <;> simp [found, fence]
  | settled run => simp [run.receipt, run.kind]
  | corrected run => simp [run.receipt, run.kind]

/-- The checks in `view` never refuse a sound run. -/
theorem view_ok (h : Stored w.digest db c) :
    Journal.view w db c.row = .ok (c.view w.incarnation) := by
  have sound : ¬ (c.row.phase = .closed ∧ (c.receipt.map (·.kind) = none ∨
      c.receipt.map (·.kind) = some .accepted)) := by
    rintro ⟨closed, none | accepted⟩
    · exact (closed_receipt h.inv closed).1 none
    · exact (closed_receipt h.inv closed).2 accepted
  by_cases kind : c.receipt.map (·.kind) = some .processExitConfirmed
  · obtain ⟨closure, recorded, exit⟩ := Option.map_eq_some_iff.mp kind
    simp only [Journal.view, h.receipt_ok, ok_bind, if_neg sound, if_pos kind,
      h.checkClosure_ok recorded exit, Cell.view]
  · simp only [Journal.view, h.receipt_ok, ok_bind, if_neg sound, if_neg kind, Cell.view]

theorem checkCorrectionRow_ok (h : Stored w.digest db c) {receiptId : String} {n : Nat}
    {outcome : FinalOutcome} {suffix : Suffix}
    (listed : correctionCore w.digest c.row.runId receiptId n outcome suffix ∈
      c.rows.map EventRow.core) :
    ∃ stored, checkCorrectionRow w db c.row (correctionRole suffix)
      ⟨correctionEventId receiptId suffix, n + suffix.index,
        w.digest (correctionContent outcome suffix)⟩ = .ok stored := by
  obtain ⟨e, member, core⟩ := of_core listed
  have sequence : e.sequence = n + suffix.index := congrArg EventCore.sequence core
  have id : e.eventId = correctionEventId receiptId suffix := congrArg EventCore.eventId core
  have role : e.role = correctionRole suffix := congrArg EventCore.role core
  have sha : e.contentSha256 = w.digest (correctionContent outcome suffix) :=
    congrArg EventCore.contentSha256 core
  have found := h.findSequence_eq h.inv.toLogInv member
  rw [sequence] at found
  refine ⟨e.stored, ?_⟩
  simp only [checkCorrectionRow, found, role, id, sha, ne_eq, not_true_eq_false, or_self, if_false,
    h.event_ok member]

/-- The checks in `correction` never refuse a sound run. -/
theorem correction_ok (h : Stored w.digest db c) :
    Journal.correction w db c.row = .ok c.row.deliveryCorrection := by
  have none_ok : c.row.deliveryCorrection = none → c.row.deliveryRevision = .zero →
      Journal.correction w db c.row = .ok c.row.deliveryCorrection := by
    intro none zero
    simp [Journal.correction, none, zero]
  cases h.inv.stage with
  | open_ run => exact none_ok run.correction run.revision
  | fenced run => exact none_ok run.correction run.revision
  | settled run => exact none_ok run.correction run.revision
  | @corrected key outcome closure history run =>
    obtain ⟨trigger, saved⟩ := run.correction
    have listed : ∀ suffix, correctionCore w.digest c.row.runId closure.id (history.length + 2)
        outcome suffix ∈ c.rows.map EventRow.core := by
      intro suffix
      rw [run.cores]
      cases suffix <;> simp [Suffix.all]
    obtain ⟨first, retained⟩ := h.checkCorrectionRow_ok (listed .retained)
    obtain ⟨second, terminal⟩ := h.checkCorrectionRow_ok (listed .terminal)
    simp only [correctionRole, Suffix.index, Nat.add_zero] at retained terminal
    simp [Journal.correction, saved, run.revision, run.receiptId, retained, terminal]

theorem backlog (h : Stored w.digest db c) : c.outstanding.length ≤ maxBacklog := by
  have count : c.outstanding.length = c.rows.countP EventRow.active :=
    List.countP_eq_length_filter.symm
  rw [count]
  cases h.inv.stage with
  | open_ run => exact run.backlog.trans (Nat.sub_le _ _)
  | fenced run => simp [run.rows]
  | settled run => exact run.backlog.trans (Nat.sub_le _ _)
  | corrected run => exact run.backlog

theorem events_ok (h : Stored w.digest db c) :
    ∃ events, runEvents db c.row.runId = .ok events ∧ EventsOf c events :=
  h.runEvents_ok h.inv.toLogInv h.backlog

end Stored

end Artoo.Journal
