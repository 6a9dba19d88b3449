import Artoo.Lib.Path
import Artoo.Realtime.Event

/-! The publisher tails the event log by position while transactions commit in any order. -/
namespace Artoo.Realtime
open Artoo.Lib

/-- The event log with the transactions on it, and a publisher. -/
structure Tail where
  /-- the last position drawn -/
  sequence : Nat
  /-- inserted rows of open transactions -/
  pending : List (Nat × EventRow) := []
  log : EventLog
  cursor : Nat
  /-- the rows of a drain that has read but not published them -/
  inFlight : Option (List EventRow) := none
  published : List EventRow := []
  frames : List EventFrame := []
  /-- what was committed when the publisher started -/
  history : List EventRow := []

/-- `start`: the cursor jumps over what is there. -/
def Tail.started (ctx : RealtimeContext) (sequence : Nat) (pending : List (Nat × EventRow))
    (log : EventLog) : Tail :=
  let ours := log.rows.filter (·.organizationId == ctx.organizationId)
  { sequence, pending, log, history := ours, cursor := (ours.getLast?.map (·.position)).getD 0 }

inductive TailAct where
  | append (transaction : Nat) (event : EventEnvelope)
  | commit (transaction : Nat)
  | abort (transaction : Nat)
  | poll
  | publish (users : List String)
  | fail

def Tail.rowsOf (s : Tail) (transaction : Nat) : List EventRow :=
  (s.pending.filter (·.1 == transaction)).map (·.2)

def Tail.others (s : Tail) (transaction : Nat) : List (Nat × EventRow) :=
  s.pending.filter (·.1 != transaction)

/-- The loop of a drain over its rows. -/
def advance (cursor : Nat) (rows : List EventRow) : Nat :=
  rows.foldl (fun cursor row => if cursor < row.position then row.position else cursor) cursor

/-- A second poll joins the drain in flight. -/
def Tail.step (ctx : RealtimeContext) (s : Tail) : TailAct → Option Tail
  | .append transaction event =>
    let row : EventRow := { event with position := s.sequence + 1 }
    some { s with sequence := s.sequence + 1, pending := s.pending ++ [(transaction, row)] }
  | .commit transaction =>
    some { s with
      pending := s.others transaction
      log := (s.rowsOf transaction).foldl EventLog.insert s.log }
  | .abort transaction => some { s with pending := s.others transaction }
  | .poll =>
    match s.inFlight with
    | some _ => some s
    | none =>
      some { s with inFlight := some (eventsAfter s.log ctx.organizationId s.cursor eventBatchLimit) }
  | .publish users =>
    match s.inFlight with
    | none => none
    | some rows =>
      some { s with
        inFlight := none
        cursor := advance s.cursor rows
        published := s.published ++ rows
        frames := s.frames ++ drainFrames ctx users rows }
  | .fail =>
    match s.inFlight with
    | none => none
    | some _ => some { s with inFlight := none }

/-! ## The invariant of every run -/

section Invariant

variable {ctx : RealtimeContext} {s t : Tail} {act : TailAct}

def Tail.positions (s : Tail) : List Nat :=
  s.pending.map (·.2.position) ++ s.log.rows.map (·.position)

/-- What holds whatever the order of the commits. -/
structure Tail.Valid (ctx : RealtimeContext) (s : Tail) : Prop where
  distinct : s.positions.Nodup
  drawn : ∀ n ∈ s.positions, n ≤ s.sequence
  skipped : ∀ row ∈ s.history, row.position ≤ s.cursor
  passed : ∀ row ∈ s.published, row ∈ s.log ∧ row.position ≤ s.cursor
  once : s.published.Nodup
  batch : ∀ rows, s.inFlight = some rows → rows.Nodup ∧ ∀ row ∈ rows,
    row ∈ s.log ∧ row.organizationId = ctx.organizationId ∧ s.cursor < row.position

theorem le_advance {cursor : Nat} {rows : List EventRow} : cursor ≤ advance cursor rows := by
  unfold advance
  induction rows generalizing cursor with
  | nil => exact Nat.le_refl _
  | cons row rows ih =>
    rw [List.foldl_cons]
    apply Nat.le_trans _ ih
    split <;> omega

theorem position_le_advance {cursor : Nat} {rows : List EventRow} {row : EventRow}
    (h : row ∈ rows) : row.position ≤ advance cursor rows := by
  induction rows generalizing cursor with
  | nil => cases h
  | cons first rows ih =>
    have unfolds : advance cursor (first :: rows) =
        advance (if cursor < first.position then first.position else cursor) rows := rfl
    rw [unfolds]
    rcases List.mem_cons.mp h with rfl | later
    · apply Nat.le_trans _ le_advance
      split <;> omega
    · exact ih later

/-- The cursor stays or reaches the position of a row. -/
theorem advance_eq {cursor : Nat} {rows : List EventRow} :
    advance cursor rows = cursor ∨ ∃ row ∈ rows, advance cursor rows = row.position := by
  induction rows generalizing cursor with
  | nil => exact Or.inl rfl
  | cons first rows ih =>
    have unfolds : advance cursor (first :: rows) =
        advance (if cursor < first.position then first.position else cursor) rows := rfl
    rw [unfolds]
    rcases @ih (if cursor < first.position then first.position else cursor) with stays | ⟨row, there, is⟩
    · rw [stays]
      split
      · exact Or.inr ⟨first, List.mem_cons_self, rfl⟩
      · exact Or.inl rfl
    · exact Or.inr ⟨row, List.mem_cons_of_mem _ there, is⟩

/-- A row ahead of the cursor that a prefix reaches is in the prefix. -/
theorem mem_take_of_le_advance {cursor visible : Nat} {rows : List EventRow} {row : EventRow}
    (sorted : rows.Pairwise EventRow.upTo) (distinct : (rows.map (·.position)).Nodup)
    (here : row ∈ rows) (ahead : cursor < row.position)
    (reached : row.position ≤ advance cursor (rows.take visible)) : row ∈ rows.take visible := by
  rcases @advance_eq cursor (rows.take visible) with stays | ⟨last, there, is⟩
  · omega
  · have member := here
    rw [← List.take_append_drop visible rows] at member sorted
    rcases List.mem_append.mp member with taken | left
    · exact taken
    · have upTo : last.position ≤ row.position := (List.pairwise_append.mp sorted).2.2 last there row left
      have same : last.position = row.position := by omega
      have equal := List.inj_on_of_nodup_map distinct (List.mem_of_mem_take there) here same
      exact equal ▸ there

theorem mem_foldl_insert {rows : List EventRow} {log : EventLog} {row : EventRow} :
    row ∈ rows.foldl EventLog.insert log ↔ row ∈ rows ∨ row ∈ log := by
  induction rows generalizing log with
  | nil => simp
  | cons first rows ih =>
    rw [List.foldl_cons, ih, EventLog.mem_insert, List.mem_cons]
    tauto

theorem foldl_insert_perm {rows : List EventRow} {log : EventLog} :
    (rows.foldl EventLog.insert log).rows.Perm (rows ++ log.rows) := by
  induction rows generalizing log with
  | nil => exact .refl _
  | cons first rows ih =>
    rw [List.foldl_cons]
    apply ih.trans
    have inserted : (log.insert first).rows.Perm (first :: log.rows) := List.perm_orderedInsert _ _ _
    exact (inserted.append_left rows).trans List.perm_middle

/-- A commit only moves rows from the transaction to the log. -/
theorem Tail.commit_positions {transaction : Nat} :
    ((s.others transaction).map (·.2.position) ++
      ((s.rowsOf transaction).foldl EventLog.insert s.log).rows.map (·.position)).Perm
      s.positions := by
  have parts : (s.pending.map (·.2.position)).Perm
      ((s.others transaction).map (·.2.position) ++ (s.rowsOf transaction).map (·.position)) := by
    unfold Tail.others Tail.rowsOf
    rw [List.map_map, ← Function.comp_def EventRow.position Prod.snd, ← List.map_append]
    apply List.Perm.map
    have split_ := List.filter_append_perm (fun p : Nat × EventRow => p.1 == transaction) s.pending
    exact split_.symm.trans List.perm_append_comm
  have logged := (@foldl_insert_perm (s.rowsOf transaction) s.log).map (·.position)
  rw [List.map_append] at logged
  unfold Tail.positions
  apply (logged.append_left _).trans
  rw [← List.append_assoc]
  exact (parts.symm.append_right _)

theorem mem_eventsAfter {log : EventLog} {organizationId : String} {since limit : Nat}
    {row : EventRow} (h : row ∈ eventsAfter log organizationId since limit) :
    row ∈ log ∧ row.organizationId = organizationId ∧ since < row.position := by
  obtain ⟨there, selected⟩ := List.mem_filter.mp (List.mem_of_mem_take h)
  rw [Bool.and_eq_true, beq_iff_eq, decide_eq_true_iff] at selected
  exact ⟨there, selected.1, by omega⟩

theorem Tail.Valid.log_nodup (h : s.Valid ctx) : s.log.rows.Nodup :=
  List.Nodup.of_map _ (List.nodup_append.mp h.distinct).2.1

theorem Tail.Valid.step (h : s.Valid ctx) (step : s.step ctx act = some t) : t.Valid ctx := by
  cases act with
  | append transaction event =>
    cases step
    have appended : ∀ n, n ∈ (s.pending ++ [(transaction,
        ({ event with position := s.sequence + 1 } : EventRow))]).map (·.2.position) ++
        s.log.rows.map (·.position) ↔ n = s.sequence + 1 ∨ n ∈ s.positions := by
      intro n
      unfold Tail.positions
      simp only [List.map_append, List.mem_append, List.map_cons, List.map_nil, List.mem_singleton]
      tauto
    constructor
    · have fresh : s.sequence + 1 ∉ s.positions := by
        intro used
        have := h.drawn _ used
        omega
      unfold Tail.positions
      rw [List.map_append, List.append_assoc]
      apply (List.perm_middle).nodup_iff.mpr
      exact List.nodup_cons.mpr ⟨fresh, h.distinct⟩
    · intro n member
      rcases (appended n).mp member with rfl | old
      · exact Nat.le_refl _
      · exact Nat.le_succ_of_le (h.drawn n old)
    · exact h.skipped
    · exact h.passed
    · exact h.once
    · exact h.batch
  | commit transaction =>
    cases step
    have perm := @Tail.commit_positions s transaction
    constructor
    · exact perm.nodup_iff.mpr h.distinct
    · exact fun n member => h.drawn n (perm.mem_iff.mp member)
    · exact h.skipped
    · intro row there
      have old := h.passed row there
      exact ⟨mem_foldl_insert.mpr (Or.inr old.1), old.2⟩
    · exact h.once
    · intro rows inFlight
      obtain ⟨nodup, valid⟩ := h.batch rows inFlight
      refine ⟨nodup, fun row there => ?_⟩
      obtain ⟨inLog, rest⟩ := valid row there
      exact ⟨mem_foldl_insert.mpr (Or.inr inLog), rest⟩
  | abort transaction =>
    cases step
    have fewer : (({ s with pending := s.others transaction } : Tail).positions).Sublist
        s.positions :=
      ((List.filter_sublist).map _).append_right _
    exact ⟨h.distinct.sublist fewer, fun n member => h.drawn n (fewer.subset member), h.skipped,
      h.passed, h.once, h.batch⟩
  | poll =>
    unfold Tail.step at step
    cases inFlight : s.inFlight with
    | some rows =>
      rw [inFlight] at step
      cases step
      exact h
    | none =>
      rw [inFlight] at step
      cases step
      refine ⟨h.distinct, h.drawn, h.skipped, h.passed, h.once, ?_⟩
      intro rows is
      cases is
      refine ⟨?_, fun row there => mem_eventsAfter there⟩
      exact (h.log_nodup.filter _).sublist (List.take_sublist _ _)
  | publish users =>
    unfold Tail.step at step
    cases inFlight : s.inFlight with
    | none =>
      rw [inFlight] at step
      cases step
    | some rows =>
      rw [inFlight] at step
      cases step
      obtain ⟨nodup, valid⟩ := h.batch rows inFlight
      constructor
      · exact h.distinct
      · exact h.drawn
      · exact fun row there => Nat.le_trans (h.skipped row there) le_advance
      · intro row there
        rcases List.mem_append.mp there with old | new
        · exact ⟨(h.passed row old).1, Nat.le_trans (h.passed row old).2 le_advance⟩
        · exact ⟨(valid row new).1, position_le_advance new⟩
      · apply h.once.append nodup
        intro row old new
        have behind := (h.passed row old).2
        have ahead := (valid row new).2.2
        omega
      · intro _ is
        cases is
  | fail =>
    unfold Tail.step at step
    cases inFlight : s.inFlight with
    | none =>
      rw [inFlight] at step
      cases step
    | some rows =>
      rw [inFlight] at step
      cases step
      exact ⟨h.distinct, h.drawn, h.skipped, h.passed, h.once, fun _ is => by cases is⟩

/-! ## Completeness -/

/-- A row that the publisher is to publish. -/
def Tail.Due (ctx : RealtimeContext) (s : Tail) (row : EventRow) : Prop :=
  row ∈ s.log ∧ row.organizationId = ctx.organizationId ∧ row ∉ s.history

/-- What was committed is published once, or is still ahead of the cursor. -/
def Tail.ExactlyOnce (ctx : RealtimeContext) (s : Tail) : Prop :=
  ∀ row, s.Due ctx row → s.published.count row = 1 ∨
    (s.published.count row = 0 ∧ s.cursor < row.position)

/-- No commit behind the cursor, and no publishing past a row that was committed since the read. -/
def unpassed (ctx : RealtimeContext) (s : Tail) : TailAct → Prop
  | .commit transaction => ∀ row ∈ s.rowsOf transaction,
      row.organizationId = ctx.organizationId → s.cursor < row.position
  | .publish _ => ∀ row ∈ s.log.rows, row.organizationId = ctx.organizationId →
      s.cursor < row.position → ∀ last ∈ s.inFlight.getD [], row.position ≤ last.position →
        row ∈ s.inFlight.getD []
  | _ => True

instance {ctx : RealtimeContext} (s : Tail) (act : TailAct) : Decidable (unpassed ctx s act) := by
  unfold unpassed
  split <;> infer_instance

def Tail.Steps (ctx : RealtimeContext) (ok : Tail → TailAct → Prop) (act : TailAct) (s t : Tail) :
    Prop :=
  s.step ctx act = some t ∧ ok s act

def Tail.Complete (ctx : RealtimeContext) (s : Tail) : Prop :=
  ∀ row, s.Due ctx row → row ∈ s.published ∨ s.cursor < row.position

theorem Tail.Complete.exactlyOnce (h : s.Complete ctx) (valid : s.Valid ctx) :
    s.ExactlyOnce ctx := by
  intro row due
  by_cases there : row ∈ s.published
  · exact Or.inl (List.count_eq_one_of_mem valid.once there)
  · rcases h row due with now | ahead
    · exact absurd now there
    · exact Or.inr ⟨List.count_eq_zero_of_not_mem there, ahead⟩

theorem Tail.Complete.step (h : s.Complete ctx) (step : s.step ctx act = some t)
    (ok : unpassed ctx s act) : t.Complete ctx := by
  cases act with
  | append transaction event =>
    cases step
    exact h
  | commit transaction =>
    cases step
    rintro row ⟨there, ours, new⟩
    rcases mem_foldl_insert.mp there with mine | old
    · exact Or.inr (ok row mine ours)
    · exact h row ⟨old, ours, new⟩
  | abort transaction =>
    cases step
    exact h
  | poll =>
    unfold Tail.step at step
    cases inFlight : s.inFlight with
    | some rows =>
      rw [inFlight] at step
      cases step
      exact h
    | none =>
      rw [inFlight] at step
      cases step
      exact h
  | publish users =>
    unfold Tail.step at step
    unfold unpassed at ok
    cases inFlight : s.inFlight with
    | none =>
      rw [inFlight] at step
      cases step
    | some rows =>
      rw [inFlight] at step ok
      cases step
      intro row due
      rcases h row due with done | ahead
      · exact Or.inl (List.mem_append_left _ done)
      · rcases @advance_eq s.cursor rows with stays | ⟨last, there, reaches⟩
        · apply Or.inr
          change advance s.cursor rows < row.position
          omega
        · by_cases behind : row.position ≤ last.position
          · exact Or.inl (List.mem_append_right _ (ok row due.1 due.2.1 ahead last there behind))
          · apply Or.inr
            change advance s.cursor rows < row.position
            omega
  | fail =>
    unfold Tail.step at step
    cases inFlight : s.inFlight with
    | none =>
      rw [inFlight] at step
      cases step
    | some rows =>
      rw [inFlight] at step
      cases step
      exact h

/-- A row that the publisher has passed is never published. -/
theorem Tail.passed_stays {row : EventRow} (valid : s.Valid ctx)
    (passed : row.position ≤ s.cursor ∧ row ∉ s.published) (step : s.step ctx act = some t) :
    row.position ≤ t.cursor ∧ row ∉ t.published := by
  cases act with
  | append transaction event =>
    cases step
    exact passed
  | commit transaction =>
    cases step
    exact passed
  | abort transaction =>
    cases step
    exact passed
  | poll =>
    unfold Tail.step at step
    cases inFlight : s.inFlight <;> rw [inFlight] at step <;> cases step <;> exact passed
  | publish users =>
    unfold Tail.step at step
    cases inFlight : s.inFlight with
    | none =>
      rw [inFlight] at step
      cases step
    | some rows =>
      rw [inFlight] at step
      cases step
      refine ⟨Nat.le_trans passed.1 le_advance, fun there => ?_⟩
      rcases List.mem_append.mp there with old | new
      · exact passed.2 old
      · have ahead := ((valid.batch rows inFlight).2 row new).2.2
        omega
  | fail =>
    unfold Tail.step at step
    cases inFlight : s.inFlight <;> rw [inFlight] at step <;> cases step <;> exact passed

/-- The start: positions come from the sequence, each for one row. -/
theorem Tail.started_valid {sequence : Nat} {pending : List (Nat × EventRow)} {log : EventLog}
    (distinct : (Tail.started ctx sequence pending log).positions.Nodup)
    (drawn : ∀ n ∈ (Tail.started ctx sequence pending log).positions, n ≤ sequence) :
    (Tail.started ctx sequence pending log).Valid ctx := by
  refine ⟨distinct, drawn, ?_, fun _ there => absurd there List.not_mem_nil, .nil,
    fun _ is => by cases is⟩
  intro row there
  have sorted : (log.rows.filter (·.organizationId == ctx.organizationId)).Pairwise
      EventRow.upTo := log.ordered.filter _
  change row.position ≤ (((log.rows.filter _).getLast?).map (·.position)).getD 0
  have skipped : row ∈ log.rows.filter (·.organizationId == ctx.organizationId) := there
  obtain ⟨front, last, is⟩ := List.eq_nil_or_concat' (log.rows.filter
    (·.organizationId == ctx.organizationId)) |>.resolve_left (List.ne_nil_of_mem skipped)
  rw [is] at sorted skipped ⊢
  rw [List.getLast?_concat]
  rcases List.mem_append.mp skipped with before | here
  · exact (List.pairwise_append.mp sorted).2.2 row before last (List.mem_singleton.mpr rfl)
  · rw [List.mem_singleton] at here
    rw [here]
    exact Nat.le_refl _

theorem Tail.started_complete {sequence : Nat} {pending : List (Nat × EventRow)} {log : EventLog} :
    (Tail.started ctx sequence pending log).Complete ctx := by
  rintro row ⟨there, ours, new⟩
  exact absurd (List.mem_filter.mpr ⟨there, by simpa using ours⟩) new

end Invariant

/-! ## Polls without commits -/

section Drain

variable {ctx : RealtimeContext} {s : Tail}

/-- One poll whose drain succeeds. -/
def Tail.drain (ctx : RealtimeContext) (users : List String) (s : Tail) : Tail :=
  let rows := eventsAfter s.log ctx.organizationId s.cursor eventBatchLimit
  { s with
    cursor := advance s.cursor rows
    published := s.published ++ rows
    frames := s.frames ++ drainFrames ctx users rows }

theorem Tail.drain_path (idle : s.inFlight = none) (users : List String) :
    Path (Tail.Steps ctx fun _ _ => True) [.poll, .publish users] s (s.drain ctx users) := by
  let read : Tail :=
    { s with inFlight := some (eventsAfter s.log ctx.organizationId s.cursor eventBatchLimit) }
  have first : s.step ctx .poll = some read := by
    unfold Tail.step
    rw [idle]
  have last : read.step ctx (.publish users) = some (s.drain ctx users) := by
    cases s
    cases idle
    rfl
  exact .cons ⟨first, trivial⟩ (.single ⟨last, trivial⟩)

/-- The rows ahead of the cursor. -/
def Tail.ahead (ctx : RealtimeContext) (s : Tail) : List EventRow :=
  s.log.rows.filter fun row =>
    row.organizationId == ctx.organizationId && decide ((s.cursor : Int) < row.position)

theorem Tail.mem_ahead {row : EventRow} :
    row ∈ s.ahead ctx ↔ row ∈ s.log ∧ row.organizationId = ctx.organizationId ∧
      s.cursor < row.position := by
  unfold Tail.ahead
  rw [List.mem_filter, Bool.and_eq_true, beq_iff_eq, decide_eq_true_iff, Int.ofNat_lt]
  exact Iff.rfl

theorem Tail.drain_valid (valid : s.Valid ctx) (idle : s.inFlight = none) (users : List String) :
    (s.drain ctx users).Valid ctx := by
  apply Path.invariant _ (s.drain_path idle users) valid
  exact fun act _ _ h step => h.step step.1

/-- What is read at once is a prefix of what is ahead. -/
theorem Tail.drain_complete (valid : s.Valid ctx) (h : s.Complete ctx) (users : List String) :
    (s.drain ctx users).Complete ctx := by
  intro row due
  rcases h row due with done | ahead
  · exact Or.inl (List.mem_append_left _ done)
  · by_cases reached : row.position ≤ (s.drain ctx users).cursor
    · have distinct : ((s.ahead ctx).map (·.position)).Nodup :=
        (List.nodup_append.mp valid.distinct).2.1.sublist (List.filter_sublist.map _)
      have taken : row ∈ (s.ahead ctx).take eventBatchLimit :=
        mem_take_of_le_advance (s.log.ordered.filter _) distinct
          (Tail.mem_ahead.mpr ⟨due.1, due.2.1, ahead⟩) ahead reached
      exact Or.inl (List.mem_append_right _ taken)
    · exact Or.inr (Nat.lt_of_not_le reached)

theorem Tail.drain_ahead (users : List String) (some_ : s.ahead ctx ≠ []) :
    ((s.drain ctx users).ahead ctx).length < (s.ahead ctx).length := by
  have fewer : (s.drain ctx users).ahead ctx = (s.ahead ctx).filter fun row =>
      decide ((s.drain ctx users).cursor < row.position) := by
    unfold Tail.ahead
    rw [List.filter_filter]
    apply List.filter_congr
    intro row _
    have grows : s.cursor ≤ (s.drain ctx users).cursor := le_advance
    by_cases ours : row.organizationId = ctx.organizationId
    · by_cases ahead : (s.drain ctx users).cursor < row.position
      · have before : s.cursor < row.position := by omega
        simp [ours, ahead, before]
      · simp [ours, ahead]
    · have foreign : (row.organizationId == ctx.organizationId) = false := by simpa using ours
      rw [foreign]
      simp
  rw [fewer]
  obtain ⟨first, rest, is⟩ := List.exists_cons_of_ne_nil some_
  apply List.length_filter_lt_length_iff_exists.mpr
  refine ⟨first, by rw [is]; exact List.mem_cons_self, ?_⟩
  have taken : first ∈ eventsAfter s.log ctx.organizationId s.cursor eventBatchLimit := by
    change first ∈ (s.ahead ctx).take eventBatchLimit
    rw [is]
    exact List.mem_cons_self
  have reached : first.position ≤ (s.drain ctx users).cursor := position_le_advance taken
  simpa using reached

/-- Enough polls publish everything that was committed. -/
theorem Tail.drains (users : List String) (valid : s.Valid ctx) (h : s.Complete ctx)
    (idle : s.inFlight = none) :
    ∃ n, ∀ row, s.Due ctx row → ((Tail.drain ctx users)^[n] s).published.count row = 1 := by
  induction size : (s.ahead ctx).length using Nat.strong_induction_on generalizing s with
  | _ size ih =>
    cases rest : s.ahead ctx with
    | nil =>
      refine ⟨0, fun row due => ?_⟩
      rcases h row due with done | ahead
      · exact List.count_eq_one_of_mem valid.once done
      · have here := Tail.mem_ahead.mpr ⟨due.1, due.2.1, ahead⟩
        rw [rest] at here
        cases here
    | cons first more =>
      have some_ : s.ahead ctx ≠ [] := by
        rw [rest]
        exact List.cons_ne_nil _ _
      obtain ⟨n, all⟩ := ih _ (size ▸ Tail.drain_ahead users some_) (s.drain_valid valid idle users)
        (Tail.drain_complete valid h users) idle rfl
      exact ⟨n + 1, fun row due => all row due⟩

end Drain

/-- Positions are drawn from the sequence, each for one row. -/
structure Drawn (sequence : Nat) (pending : List (Nat × EventRow)) (log : EventLog) : Prop where
  distinct : (pending.map (·.2.position) ++ log.rows.map (·.position)).Nodup
  bounded : ∀ n ∈ pending.map (·.2.position) ++ log.rows.map (·.position), n ≤ sequence

theorem publishes_exactly_once {ctx : RealtimeContext} {sequence : Nat}
    {pending : List (Nat × EventRow)} {log : EventLog} {acts : List TailAct} {s : Tail}
    (drawn : Drawn sequence pending log)
    (path : Path (Tail.Steps ctx (unpassed ctx)) acts (Tail.started ctx sequence pending log) s) :
    s.ExactlyOnce ctx ∧ (s.inFlight = none → ∀ users, ∃ n, ∀ row, s.Due ctx row →
      ((Tail.drain ctx users)^[n] s).published.count row = 1) := by
  have holds : s.Valid ctx ∧ s.Complete ctx := by
    apply Path.invariant _ path
    · exact ⟨Tail.started_valid drawn.distinct drawn.bounded, Tail.started_complete⟩
    · exact fun act _ _ h step => ⟨h.1.step step.1, h.2.step step.1 step.2⟩
  exact ⟨holds.2.exactlyOnce holds.1, fun idle users => Tail.drains users holds.1 holds.2 idle⟩

/-! Two transactions that draw their positions in one order and commit in either. -/
namespace Sample

def tailContext : RealtimeContext := ⟨"org_default", "user_owner"⟩

def eventNamed (id : String) : EventEnvelope :=
  { id, type := "task.updated", schemaVersion := "2026-06-11", organizationId := "org_default",
    actorType := "user", actorId := "user_owner", occurredAt := "2026-01-05T10:00:00.000Z",
    correlationId := id }

def drawnRow (id : String) (position : Nat) : EventRow := { eventNamed id with position }

/-- Both draw; one commits and is published; then the other commits. -/
def commits (first second : Nat) : List TailAct :=
  [.append 1 (eventNamed "a"), .append 2 (eventNamed "b"), .commit first, .poll,
   .publish ["user_owner"], .commit second]

end Sample

open Sample

theorem Drawn.empty : Drawn 0 [] .empty := ⟨.nil, fun _ there => absurd there List.not_mem_nil⟩

theorem publishes_in_order :
    ∃ s, Path.exec (Tail.step tailContext) (unpassed tailContext) (commits 1 2)
        (Tail.started tailContext 0 [] .empty) = some s ∧
      s.log.rows = [drawnRow "a" 1, drawnRow "b" 2] ∧ s.ExactlyOnce tailContext ∧
        (s.inFlight = none → ∀ users, ∃ n, ∀ row, s.Due tailContext row →
          ((Tail.drain tailContext users)^[n] s).published.count row = 1) := by
  have rows : (Path.exec (Tail.step tailContext) (unpassed tailContext) (commits 1 2)
      (Tail.started tailContext 0 [] .empty)).map (·.log.rows) =
      some [drawnRow "a" 1, drawnRow "b" 2] := by decide +kernel
  obtain ⟨s, found, is⟩ := Option.map_eq_some_iff.mp rows
  exact ⟨s, found, is, publishes_exactly_once Drawn.empty (Path.of_exec found)⟩

/-- The row that is committed behind the cursor is published in no continuation. -/
theorem late_commit_lost :
    ¬ ∀ (ctx : RealtimeContext) (sequence : Nat) (pending : List (Nat × EventRow)) (log : EventLog)
      (acts : List TailAct) (s : Tail), Drawn sequence pending log →
      Path (Tail.Steps ctx fun _ _ => True) acts (Tail.started ctx sequence pending log) s →
      ∀ row, s.Due ctx row →
        ∃ more t, Path (Tail.Steps ctx fun _ _ => True) more s t ∧ t.published.count row = 1 := by
  intro claimed
  have late : (Path.exec (Tail.step tailContext) (fun _ _ => True) (commits 2 1)
      (Tail.started tailContext 0 [] .empty)).map (fun s => (s.log.rows, s.history, s.published, s.cursor)) =
      some ([drawnRow "a" 1, drawnRow "b" 2], [], [drawnRow "b" 2], 2) := by decide +kernel
  obtain ⟨s, found, is⟩ := Option.map_eq_some_iff.mp late
  simp only [Prod.mk.injEq] at is
  obtain ⟨log, history, published, cursor⟩ := is
  have path : Path (Tail.Steps tailContext fun _ _ => True) _ _ s := Path.of_exec found
  have valid : s.Valid tailContext :=
    Path.invariant (fun _ _ _ h step => h.step step.1) path
      (Tail.started_valid Drawn.empty.distinct Drawn.empty.bounded)
  have due : s.Due tailContext (drawnRow "a" 1) := by
    refine ⟨?_, rfl, ?_⟩
    · change _ ∈ s.log.rows
      rw [log]
      exact List.mem_cons_self
    · rw [history]
      exact List.not_mem_nil
  obtain ⟨more, t, rest, once⟩ := claimed tailContext 0 [] .empty _ s Drawn.empty path _ due
  have lost : t.Valid tailContext ∧ (drawnRow "a" 1).position ≤ t.cursor ∧
      drawnRow "a" 1 ∉ t.published := by
    apply Path.invariant _ rest
    · refine ⟨valid, ?_, ?_⟩
      · rw [cursor]
        decide
      · rw [published]
        decide
    · exact fun act _ _ h step => ⟨h.1.step step.1, Tail.passed_stays h.1 h.2 step.1⟩
  rw [List.count_eq_zero_of_not_mem lost.2.2] at once
  cases once

end Artoo.Realtime
