import Artoo.Journal.Live

/-! Every command of the worker as an effect on one run of a sound database. -/
namespace Artoo.Journal
open Artoo.Protocol Artoo.Lib

variable {w : Worker} {db db' : Database} {c : Cell}

namespace Command

/-- The run a command names. -/
def runId : Command → String
  | .lookup runId | .stop runId _ | .pending runId _ => runId
  | .admitRun input => input.runId
  | .advance owner _ _ | .started owner | .producerClosed owner _ | .append owner _ _ | .live owner _ =>
    owner.runId
  | .delivery scope _ => scope.runId

/-- The credentials an owner's command presents. -/
def owner : Command → Option Owner
  | .advance owner _ _ | .started owner | .producerClosed owner _ | .append owner _ _ | .live owner _ =>
    some owner
  | _ => none

/-- The receipt or failure a command carries. -/
def settle : Command → Option Settle
  | .live _ op => op.settle
  | .delivery _ (.settle s) => some s
  | _ => none

/-- Only a failure the caller reports as a timeout can be too early. -/
def reported (cmd : Command) : Bool :=
  cmd.settle.any fun s => !s.accepted && s.reason == .receiptTimeout

def reads : Command → Bool
  | .lookup _ | .pending _ _ => true
  | _ => false

/-- What the journal checks before it sends a command. -/
def WellFormed : Command → Prop
  | .admitRun input => input.key ≠ "" ∧ input.mode ≠ .fenced
  | .append _ eventId content =>
    eventId ≠ "" ∧ startsWith reservedPrefix eventId = false ∧ settlementBody content = false
  | .producerClosed _ input =>
    input.outcome.terminal.phase.terminal = true ∧ input.eventContents = input.outcome.contents
  | .delivery _ (.settle s) => s.accepted = true → s.hash.isSome = true
  | _ => True

end Command

namespace Reply

/-- The claim a reply grants, live or on a closed run. -/
def granted : Reply → Option DeliveryClaim
  | .liveClaim (.claimed claim) | .deliveryClaim (.claimed claim) => some claim
  | _ => none

def fresh : Reply → Bool
  | .admission .fresh _ => true
  | _ => false

/-- The view of a closed run that a reply reports. -/
def report : Reply → Option ClosedRunDeliveryView
  | .delivery view | .deliveryClaim (.other _ _ view) => some view
  | _ => none

end Reply

/-- Every stored run is sound, and an unknown run has no rows. -/
structure Database.Inv (digest : NodeRunEvent → String) (db : Database) : Prop where
  empty : ∀ r, db.runs r = none → db.outbox r = []
  stored : ∀ r row, db.runs r = some row → ∃ c, c.row = row ∧ row.runId = r ∧ Stored digest db c

theorem Database.empty_inv (digest : NodeRunEvent → String) : Database.empty.Inv digest :=
  ⟨fun _ _ => rfl, fun _ _ found => nomatch found⟩

/-- The steps of a call, with what its command and its reply say about them. -/
inductive Account (w : Worker) (cmd : Command) (db : Database) (c : Cell) (reply : Reply)
    (db' : Database) : Cell → List Label → Prop where
  | quiet {c' : Cell} {ls : List Label} (moves : Moves w.digest ls db c db' c')
      (quiet : ∀ l ∈ ls, l.quiet = true) (none : reply.granted = none) :
      Account w cmd db c reply db' c' ls
  | receipt {s : Settle} {c' : Cell} {ls : List Label} (moves : Moves w.digest ls db c db' c')
      (carried : cmd.settle = some s) (causes : ∀ l ∈ ls, s.Causes c l)
      (none : reply.granted = none) : Account w cmd db c reply db' c' ls
  | claim {claim : DeliveryClaim} {db₁ : Database} {c₁ c' : Cell} {ls ms : List Label}
      (moves : Moves w.digest ls db c db₁ c₁) (quiet : ∀ l ∈ ls, l.quiet = true)
      (grants : reply.granted = some claim)
      (granted : Granted w (w.hrtime 0) db₁ c₁ claim db' c' ms) :
      Account w cmd db c reply db' c' (ls ++ ms)

theorem Granted.moves {now : Nat} {claim : DeliveryClaim} {c' : Cell} {ls : List Label}
    (granted : Granted w now db c claim db' c' ls) : Moves w.digest ls db c db' c' := by
  cases granted with
  | mk gate moves => exact moves

theorem Account.moves {cmd : Command} {reply : Reply} {c' : Cell} {ls : List Label}
    (account : Account w cmd db c reply db' c' ls) : Moves w.digest ls db c db' c' := by
  cases account with
  | quiet moves | receipt moves => exact moves
  | claim moves quiet grants granted => exact moves.trans granted.moves

/-- A view is reported only of a physically closed run. -/
structure Reports (view : ClosedRunDeliveryView) (c c' : Cell) : Prop extends Describes view c' where
  closed : c.row.phase = .closed
  settled : ∃ outcome, c.row.finalOutcome = some outcome

/-- What a committed call did to the run it names. -/
inductive Effect (w : Worker) (cmd : Command) (db : Database) (reply : Reply) (db' : Database) :
    Prop where
  | same (absent : db.runs cmd.runId = none) (reads : cmd.reads = true) (unchanged : db' = db)
      (ungranted : reply.granted = none) (stale : reply.fresh = false)
      (unreported : reply.report = none)
  | admitted {input : AdmitInput} (command : cmd = .admitRun input) (absent : db.runs input.runId = none)
      (reply : reply = .admission .fresh ((Cell.admitted input w.incarnation).view w.incarnation))
      (stored : Stored w.digest db' (Cell.admitted input w.incarnation))
      (frame : Frame input.runId db db')
  | fenced {runId : String} {key : Option String} {receipt : ReceiptRow}
      (command : cmd = .stop runId key) (absent : db.runs runId = none)
      (reply : reply = .stoppedIntent ((Cell.fenced runId key receipt).view w.incarnation))
      (stored : Stored w.digest db' (Cell.fenced runId key receipt)) (frame : Frame runId db db')
  | moved {c c' : Cell} {ls : List Label} (names : c.row.runId = cmd.runId)
      (stored : Stored w.digest db c) (account : Account w cmd db c reply db' c' ls)
      (reports : ∀ view, reply.report = some view → Reports view c c')
      (live : ∀ claim, reply = .liveClaim (.claimed claim) → c.row.phase ≠ .closed ∧
        ∃ ms, Granted w (w.hrtime 0) db c claim db' c' ms)
      (stale : reply.fresh = false)

/-! ### The operations -/

/-- A live receipt, failure or claim at a clock reading. -/
theorem executeTimed_spec (fresh : FreshId db w.uuid) (last : Nat) {owner : Owner} (op : LiveOp)
    (names : c.row.runId = owner.runId) (h : Stored w.digest db c) (opened : c.row.phase ≠ .closed)
    {active : List EventRow} (of : EventsOf c active) {healthy : Bool} {now : Nat}
    (clock : healthy = true → w.clockId.isSome = true ∧ now = w.hrtime 0) (time : now ≤ maxSafeInteger) :
    Ensures (External (Command.live owner op).reported)
      (fun result => Effect w (.live owner op) db result.1 result.2.db)
      (executeTimed w ⟨db, last⟩ c.row active healthy now op.settle) := by
  cases settle : op.settle with
  | some s =>
    refine (h.liveSettle_spec opened healthy now s).allow ?_ |>.bind fun db' moved => ?_
    · simp only [Command.reported, Command.settle, settle, Option.any_some, imp_self, implies_true]
    · obtain ⟨c', ls, moves, causes⟩ := moved
      rw [ensures_ok]
      exact .moved names h (.receipt moves settle causes rfl) (fun _ same => nomatch same)
        (fun _ same => nomatch same) rfl
  | none =>
    refine ((h.liveClaim_spec fresh opened of (fun steady => (clock steady).1) time).allow
      fun _ impossible => impossible.elim).bind fun result answer => ?_
    obtain ⟨⟨reply, db'⟩, c', ls, answer⟩ := result, answer
    rw [ensures_ok]
    cases answer with
    | waiting =>
      exact .moved names h (.quiet (Moves.refl h) (fun _ member => nomatch member) rfl)
        (fun _ same => nomatch same) (fun _ same => nomatch same) rfl
    | stopRequired before =>
      exact .moved names h (.quiet before.moves before.quiet rfl) (fun _ same => nomatch same)
        (fun _ same => nomatch same) rfl
    | claimed steady granted =>
      rw [(clock steady).2] at granted
      refine .moved names h (.claim (Moves.refl h) (fun _ member => nomatch member) rfl granted)
        (fun _ same => nomatch same) ?_ rfl
      rintro claim ⟨⟩
      exact ⟨opened, _, granted⟩

/-- The live operations of a started run. -/
theorem executeStarted_spec (fresh : FreshId db w.uuid) (last : Nat) {owner : Owner} (op : LiveOp)
    (names : c.row.runId = owner.runId) (h : Stored w.digest db c) (opened : c.row.phase ≠ .closed) :
    Ensures (External (Command.live owner op).reported)
      (fun result => Effect w (.live owner op) db result.1 result.2.db)
      (executeStarted w ⟨db, last⟩ c.row op.settle) := by
  obtain ⟨active, read, of⟩ := h.events_ok
  simp only [executeStarted, read, ok_bind]
  split
  next healthy =>
    have clock := (healthy_rows (Bool.and_eq_true_iff.mp healthy).2).1
    refine ((tickMs_spec w 0 last).allow fun _ => External.mono).bind fun now tick => ?_
    exact executeTimed_spec fresh now op names h opened of (fun _ => ⟨clock, tick.1⟩) tick.2
  next =>
    exact executeTimed_spec fresh last op names h opened of (fun steady => nomatch steady)
      (Nat.zero_le _)

theorem Stored.mapM_event (h : Stored w.digest db c) {rows : List EventRow}
    (known : ∀ e ∈ rows, e ∈ c.rows) : rows.mapM (event w) = .ok (rows.map EventRow.stored) := by
  induction rows with
  | nil => rfl
  | cons e rest ih =>
    have tail := ih fun x hx => known x (List.mem_cons_of_mem _ hx)
    rw [List.mapM_cons, h.event_ok (known e List.mem_cons_self), ok_bind, tail, ok_bind]
    rfl

section
variable (inv : db.Inv w.digest)
include inv

theorem Database.Inv.find {r : String} {row : RunRow} (found : db.runs r = some row) :
    ∃ c, c.row = row ∧ c.row.runId = r ∧ Stored w.digest db c := by
  obtain ⟨c, rfl, runId, stored⟩ := inv.stored r row found
  exact ⟨c, rfl, runId, stored⟩

/-- The run an owner's command finds. -/
theorem owned_spec (owner : Owner) :
    Ensures (External false)
      (fun value => ∃ c, c.row = value ∧ c.row.runId = owner.runId ∧ Stored w.digest db c ∧
        owned w db owner = .ok c.row)
      (owned w db owner) := by
  refine (owned_external w db owner).imp fun value mine => ?_
  obtain ⟨c, rfl, runId, stored⟩ := inv.find (owned_ok mine).1
  exact ⟨c, rfl, runId, stored, mine⟩

/-- The run a delivery command finds. -/
theorem closedRun_spec (scope : ClosedScope) :
    Ensures (External false)
      (fun value => ∃ c outcome, c.row = value ∧ c.row.runId = scope.runId ∧ Stored w.digest db c ∧
        c.row.phase = .closed ∧ c.row.finalOutcome = some outcome)
      (closedRun w db scope) := by
  rw [closedRun]
  split
  next => exact ⟨rfl, nofun⟩
  next value found =>
    obtain ⟨c, rfl, runId, stored⟩ := inv.find found
    split
    next => exact ⟨rfl, nofun⟩
    next =>
      simp only [stored.view_ok, ok_bind]
      split
      next => exact ⟨rfl, nofun⟩
      next exit =>
        obtain ⟨closure, recorded, kind⟩ := Option.map_eq_some_iff.mp (not_not.mp exit)
        obtain ⟨key, outcome, n, run, -⟩ := stored.settlement_listed recorded kind
        exact ⟨c, outcome, rfl, runId, stored, run.phase, run.finalOutcome⟩

/-- A receipt or failure for a closed run. -/
theorem executeSettle_spec (last : Nat) (scope : ClosedScope) (s : Settle) :
    Ensures (External (!s.accepted && s.reason == .receiptTimeout))
      (fun result => ∃ c c' ls view, result.1 = .delivery view ∧ c.row.runId = scope.runId ∧
        Stored w.digest db c ∧ Settled w s db c view result.2.db c' ls ∧ Reports view c c')
      (executeDelivery w ⟨db, last⟩ scope (.settle s)) := by
  refine ((closedRun_spec inv scope).allow fun _ => External.mono).bind fun value found => ?_
  obtain ⟨c, outcome, rfl, names, h, phase, outcomeIs⟩ := found
  simp only [h.correction_ok, ok_bind]
  refine (h.deliverySettle_spec last phase outcomeIs s).bind fun result settled => ?_
  obtain ⟨c', ls, settled⟩ := settled
  exact ⟨c, c', ls, result.1, rfl, names, h, settled, settled.describes, phase, outcome, outcomeIs⟩

theorem executeDelivery_spec (fresh : FreshId db w.uuid) (last : Nat) (scope : ClosedScope)
    (op : DeliveryOp) :
    Ensures (External (Command.delivery scope op).reported)
      (fun result => Effect w (.delivery scope op) db result.1 result.2.db)
      (executeDelivery w ⟨db, last⟩ scope op) := by
  cases op with
  | settle s =>
    refine (executeSettle_spec inv last scope s).allow ?_ |>.imp fun result settled => ?_
    · simp only [Command.reported, Command.settle, Option.any_some, imp_self, implies_true]
    obtain ⟨⟨_, tx⟩, c, c', ls, view, rfl, names, h, settled, reports⟩ := result, settled
    refine .moved names h (.receipt settled.moves rfl settled.causes rfl) ?_ (fun _ same => nomatch same) rfl
    rintro view ⟨⟩
    exact reports
  | inspect =>
    refine ((closedRun_spec inv scope).allow fun _ => External.mono).bind fun value found => ?_
    obtain ⟨c, outcome, rfl, names, h, phase, outcomeIs⟩ := found
    obtain ⟨⟨view, db'⟩, viewed, c', ls, reported⟩ := h.deliveryView_spec.result
    simp only [h.correction_ok, viewed, ok_bind]
    refine .moved names h (.quiet reported.moves reported.quiet rfl) ?_ (fun _ same => nomatch same) rfl
    rintro view ⟨⟩
    exact ⟨reported.describes, phase, outcome, outcomeIs⟩
  | claim =>
    refine ((closedRun_spec inv scope).allow fun _ => External.mono).bind fun value found => ?_
    obtain ⟨c, outcome, rfl, names, h, phase, outcomeIs⟩ := found
    simp only [h.correction_ok, ok_bind]
    refine ((h.deliveryClaim_spec last fresh phase outcomeIs).allow fun _ => External.mono).bind
      fun result answer => ?_
    obtain ⟨⟨reply, tx⟩, c', ls, answer⟩ := result, answer
    rw [ensures_ok]
    cases answer with
    | other moves quiet describes =>
      refine .moved names h (.quiet moves quiet rfl) ?_ (fun _ same => nomatch same) rfl
      rintro view ⟨⟩
      exact ⟨describes, phase, outcome, outcomeIs⟩
    | claimed moves quiet granted =>
      exact .moved names h (.claim moves quiet rfl granted) (fun _ same => nomatch same)
        (fun _ same => nomatch same) rfl

/-- A live operation, or the late receipt of a run closed meanwhile. -/
theorem executeLive_spec (fresh : FreshId db w.uuid) (last : Nat) (owner : Owner) (op : LiveOp) :
    Ensures (External (Command.live owner op).reported)
      (fun result => Effect w (.live owner op) db result.1 result.2.db)
      (executeLive w ⟨db, last⟩ owner op) := by
  refine ((owned_spec inv owner).allow fun _ => External.mono).bind fun value found => ?_
  obtain ⟨c, rfl, names, h, -⟩ := found
  cases late : (if c.row.phase = .closed then op.late else none) with
  | some s =>
    have carried : op.settle = some s := by
      split at late
      · cases op <;> first | exact late | cases late
      · cases late
    refine (executeSettle_spec inv last ⟨owner.runId, owner.key, c.row.receiptId⟩ s).allow
      ?_ |>.bind fun result settled => ?_
    · simp only [Command.reported, Command.settle, carried, Option.any_some, imp_self, implies_true]
    obtain ⟨⟨_, tx⟩, d, d', ls, view, rfl, named, stored, settled, -⟩ := result, settled
    rw [ensures_ok]
    exact .moved named stored (.receipt settled.moves carried settled.causes rfl)
      (fun _ same => nomatch same) (fun _ same => nomatch same) rfl
  | none =>
    by_cases barred : c.row.mode ≠ .perRun ∨ c.row.phase = .closed
    · simp only [if_pos barred]
      exact ⟨rfl, nofun⟩
    simp only [if_neg barred]
    have opened : c.row.phase ≠ .closed := fun closed => barred (.inr closed)
    have timed : ∀ op, Ensures (External (Command.live owner op).reported)
        (fun result => Effect w (.live owner op) db result.1 result.2.db)
        (do
          let recorded ← if c.row.phase = .started then receipt db c.row.receiptId else .ok none
          if c.row.phase ≠ .started ∨ recorded.map (·.kind) ≠ some .accepted then
            .error .startupNotDurable
          else executeStarted w ⟨db, last⟩ c.row op.settle) := by
      intro op
      by_cases phase : c.row.phase = .started
      · simp only [if_pos phase, h.receipt_ok, ok_bind]
        split
        next => exact ⟨rfl, nofun⟩
        next => exact executeStarted_spec fresh last op names h opened
      · simp only [if_neg phase, ok_bind]
        rw [if_pos (.inl phase)]
        exact ⟨rfl, nofun⟩
    cases op with
    | abort cause =>
      obtain ⟨c', ls, latched, -⟩ := h.latch_prelude opened c.row rfl rfl cause
      exact .moved names h (.quiet latched.moves latched.quiet rfl) (fun _ same => nomatch same)
        (fun _ same => nomatch same) rfl
    | receipt sequence hash attemptId status => exact timed (.receipt sequence hash attemptId status)
    | failure sequence attemptId reason => exact timed (.failure sequence attemptId reason)
    | claim => exact timed .claim

/-- An owner's operation stops at the owner check, or runs on the owner's run. -/
theorem owner_spec (owner : Owner) {reported : Bool} {post : Reply × Database → Prop}
    {op : Except JournalError (Reply × Database)}
    (refused : ∀ e, owned w db owner = .error e → op = .error e)
    (runs : ∀ c, c.row.runId = owner.runId → Stored w.digest db c → owned w db owner = .ok c.row →
      Ensures (External reported) post op) : Ensures (External reported) post op := by
  have checked := owned_spec inv owner
  cases result : owned w db owner with
  | error e =>
    rw [refused e result]
    exact (checked.of_error result).mono
  | ok value =>
    obtain ⟨c, rfl, names, h, mine⟩ := checked.of_ok result
    exact runs c names h mine

omit inv in
theorem keepClock_spec (last : Nat) {reported : Bool} {post : Reply → Database → Prop}
    {op : Except JournalError (Reply × Database)}
    (h : Ensures (External reported) (fun result => post result.1 result.2) op) :
    Ensures (External reported) (fun result => post result.1 result.2.db)
      (keepClock ⟨db, last⟩ op) := by
  cases op with
  | error e => exact h
  | ok result => exact h

omit inv in
/-- An operation that neither claims nor reports a delivery view. -/
theorem Effect.quietly {cmd : Command} (names : c.row.runId = cmd.runId) (h : Stored w.digest db c)
    {reply : Reply} {c' : Cell} {ls : List Label} (moves : Moves w.digest ls db c db' c')
    (quiet : ∀ l ∈ ls, l.quiet = true) (ungranted : reply.granted = none)
    (unreported : reply.report = none) (stale : reply.fresh = false) : Effect w cmd db reply db' := by
  refine .moved names h (.quiet moves quiet ungranted) ?_ ?_ stale
  · rintro view found
    rw [unreported] at found
    cases found
  · rintro claim rfl
    cases ungranted

/-- A call is refused for a reason outside the journal, or it is an effect on the run it names. -/
theorem execute_spec (fresh : FreshId db w.uuid) (last : Nat) {cmd : Command}
    (formed : cmd.WellFormed) :
    Ensures (External cmd.reported) (fun result => Effect w cmd db result.1 result.2.db)
      (execute w ⟨db, last⟩ cmd) := by
  cases cmd with
  | lookup runId =>
    simp only [execute]
    split
    next absent => exact .same absent rfl rfl rfl rfl rfl
    next value found =>
      obtain ⟨c, rfl, names, h⟩ := inv.find found
      simp only [h.view_ok, ok_bind]
      exact .moved names h (.quiet (Moves.refl h) (fun _ member => nomatch member) rfl)
        (fun _ same => nomatch same) (fun _ same => nomatch same) rfl
  | admitRun input =>
    simp only [execute, keepClock]
    cases known : db.runs input.runId with
    | none =>
      obtain ⟨db', result, stored, frame⟩ :=
        admit_absent w known (inv.empty _ known) formed.1
      simp only [result, ok_bind]
      exact .admitted rfl known rfl stored frame
    | some existing =>
      obtain ⟨c, rfl, names, h⟩ := inv.find known
      simp only [h.admit_existing names.symm, ok_bind]
      refine .moved names h (.quiet (Moves.refl h) (fun _ member => nomatch member) rfl)
        (fun _ same => nomatch same) (fun _ same => nomatch same) ?_
      have stale := existingKind_ne_fresh w c.row input
      cases kind : existingKind w c.row input <;> first | rfl | exact absurd kind stale
  | advance owner revision phase =>
    refine keepClock_spec last (owner_spec inv owner (fun e refused => ?_) fun c names h mine => ?_)
    · simp only [advance, refused, error_bind]
    · obtain ⟨kind, c', db', ls, result, moves, outcome⟩ := h.advance_spec mine revision phase
      rw [result]
      rcases outcome with ⟨rfl, rfl⟩ | ⟨rfl, rfl⟩
      · exact .quietly names h moves (fun _ member => nomatch member) rfl rfl rfl
      · exact .quietly names h moves (by simp [Label.quiet]) rfl rfl rfl
  | stop runId key =>
    refine keepClock_spec last ?_
    cases known : db.runs runId with
    | none =>
      obtain ⟨db', receipt, result, stored, frame⟩ :=
        stop_absent fresh known (inv.empty runId known) key
      rw [result]
      exact .fenced rfl known rfl stored frame
    | some existing =>
      obtain ⟨c, rfl, rfl, h⟩ := inv.find known
      obtain ⟨kind, c', db', ls, result, moves, labels, outcome⟩ := h.stop_spec key
      have quiet : ∀ l ∈ ls, l.quiet = true := by
        rcases labels with rfl | rfl <;> simp [Label.quiet]
      rw [result]
      rcases outcome with rfl | ⟨rfl, -⟩
      · exact .quietly rfl h moves quiet rfl rfl rfl
      · exact .quietly rfl h moves quiet rfl rfl rfl
  | started owner =>
    refine keepClock_spec last (owner_spec inv owner (fun e refused => ?_) fun c names h mine => ?_)
    · simp only [started, refused, error_bind]
    · obtain ⟨kind, c', db', ls, result, moves, outcome⟩ := h.started_spec fresh mine
      rw [result]
      rcases outcome with ⟨rfl, rfl⟩ | ⟨rfl, rfl⟩
      · exact .quietly names h moves (fun _ member => nomatch member) rfl rfl rfl
      · exact .quietly names h moves (by simp [Label.quiet]) rfl rfl rfl
  | producerClosed owner input =>
    refine keepClock_spec last (owner_spec inv owner (fun e refused => ?_) fun c names h mine => ?_)
    · simp only [producerClosed, refused, error_bind]
    · refine ((h.producerClosed_spec fresh mine formed.2).allow fun _ => External.mono).imp
        fun result settled => ?_
      obtain ⟨⟨_, db'⟩, c', ls, rfl, moves, labels, -⟩ := result, settled
      have quiet : ∀ l ∈ ls, l.quiet = true := by
        rcases labels with rfl | rfl <;> simp [Label.quiet]
      exact .quietly names h moves quiet rfl rfl rfl
  | append owner eventId content =>
    refine keepClock_spec last (owner_spec inv owner (fun e refused => ?_) fun c names h mine => ?_)
    · simp only [append, refused, error_bind]
    · obtain ⟨reply, c', db', ls, result, moves, labels⟩ := h.append_spec mine formed.2.1 formed.2.2
      have quiet : ∀ l ∈ ls, l.quiet = true := by
        rcases labels with rfl | rfl <;> simp [Label.quiet]
      rw [result]
      exact .quietly names h moves quiet rfl rfl rfl
  | pending runId limit =>
    simp only [execute]
    cases known : db.runs runId with
    | none =>
      have none_listed : (orderBySequence (List.filter (!·.committed) [])).take limit = [] := by
        cases limit <;> rfl
      simp only [inv.empty runId known, none_listed]
      exact .same known rfl rfl rfl rfl rfl
    | some existing =>
      obtain ⟨c, rfl, rfl, h⟩ := inv.find known
      rw [h.outbox, h.mapM_event]
      · exact .quietly rfl h (Moves.refl h) (fun _ member => nomatch member) rfl rfl rfl
      · intro e member
        have listed := (List.mem_insertionSort _).mp (List.mem_of_mem_take member)
        exact List.mem_of_mem_filter listed
  | live owner op => exact executeLive_spec inv fresh last owner op
  | delivery scope op => exact executeDelivery_spec inv fresh last scope op

end

end Artoo.Journal
