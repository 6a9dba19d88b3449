import Artoo.Journal.Correction

/-! Claims of outstanding rows, live and on a closed run. -/
namespace Artoo.Journal
open Artoo.Protocol Artoo.Lib

variable {w : Worker} {db : Database} {c : Cell}

/-- No attempt of the run has this id. -/
def Cell.Unnamed (c : Cell) (uuid : String) : Prop :=
  ∀ e ∈ c.rows, ∀ a ∈ e.attempts, a.id ≠ uuid

theorem FreshId.unnamed (fresh : FreshId db w.uuid) (h : Held db c) : c.Unnamed w.uuid :=
  fun e member => fresh.attempt c.row.runId e (h.outbox ▸ member)

/-- Only a claim names a new attempt. -/
theorem Step.unnamed {digest : NodeRunEvent → String} {l : Label} {c c' : Cell} {uuid : String}
    (step : Step digest l c c') (quiet : l.quiet = true) (unnamed : c.Unnamed uuid) :
    c'.Unnamed uuid := by
  have failed : ∀ {target : EventRow} {id : String} {reason : DeliveryFailureReason}
      {exhausted : Bool}, target ∈ c.rows → (c.failed target id reason exhausted).Unnamed uuid := by
    intro target id reason exhausted member e listed a attempted
    obtain ⟨x, hx, rfl⟩ := List.mem_map.mp listed
    by_cases hit : x.sequence = target.sequence
    · simp only [hit, beq_self_eq_true, if_true] at attempted
      obtain ⟨b, hb, same, -⟩ := mem_markFailure attempted
      exact same ▸ unnamed target member b hb
    · simp only [beq_eq_false_iff_ne.mpr hit, Bool.false_eq_true, if_false] at attempted
      exact unnamed x hx a attempted
  cases step with
  | stop | advance | launch | clockLost | abort | report => exact unnamed
  | settle =>
    intro e member a attempted
    rcases List.mem_append.mp member with old | new
    · exact unnamed e old a attempted
    · rw [(Cell.settlement_newborn _ e new).attempts] at attempted
      cases attempted
  | append =>
    intro e member a attempted
    rcases List.mem_append.mp member with old | new
    · exact unnamed e old a attempted
    · rw [List.mem_singleton.mp new] at attempted
      cases attempted
  | claim => cases quiet
  | fail failing kept => exact failed failing.member
  | correct failing =>
    intro e member a attempted
    rcases List.mem_append.mp member with old | new
    · obtain ⟨x, hx, rfl⟩ := List.mem_map.mp old
      exact failed failing.member x hx a attempted
    · rw [(Cell.correction_newborn _ e new).attempts] at attempted
      cases attempted
  | accept => cases quiet

theorem path_unnamed {digest : NodeRunEvent → String} {ls : List Label} {c c' : Cell} {uuid : String}
    (path : Path (Step digest) ls c c') (quiet : ∀ l ∈ ls, l.quiet = true) (unnamed : c.Unnamed uuid) :
    c'.Unnamed uuid := by
  induction path with
  | nil => exact unnamed
  | cons step _ ih =>
    exact ih (fun l member => quiet l (List.mem_cons_of_mem _ member))
      (step.unnamed (quiet _ List.mem_cons_self) unnamed)

/-! ### Expiry -/

/-- An outstanding row whose deadline has passed unnoticed. -/
def Overdue (now : Nat) (e : EventRow) : Prop :=
  e.active = true ∧ e.exhausted = false ∧ ∃ d, e.deadlineTickMs = some d ∧ d ≤ now

theorem skipped_iff (now : Nat) (e : EventRow) :
    (e.committed || e.superseded || e.exhausted || !e.deadlineTickMs.any (decide <| · ≤ now)) = true ↔
      ¬ Overdue now e := by
  by_cases done : e.committed = true <;> by_cases gone : e.superseded = true <;>
    by_cases spent : e.exhausted = true <;> cases deadline : e.deadlineTickMs <;>
    simp [Overdue, EventRow.active, done, gone, spent, deadline]

/-- The clock that set every outstanding deadline is this process's. -/
def Healthy (w : Worker) (c : Cell) : Prop :=
  w.clockId.isSome = true ∧ ∀ e ∈ c.rows, e.active = true → e.clockId = none ∨ e.clockId = w.clockId

namespace Stored

/-- The overdue row of the loop fails on its last attempt. -/
theorem expire_row (h : Stored w.digest db c) {target : EventRow} {outcome : FinalOutcome} {now : Nat}
    (member : target ∈ c.rows) (overdue : Overdue now target)
    (clock : target.clockId = none ∨ target.clockId = w.clockId) (phase : c.row.phase = .closed)
    (outcomeIs : c.row.finalOutcome = some outcome) :
    ∃ attempt db' saved c' ls, target.attempts.getLast? = some attempt ∧
      failAttempt w db c.row target target.attempts attempt .receiptTimeout now = .ok (db', saved) ∧
      FailResult w db c target attempt .receiptTimeout now db' saved c' ls := by
  obtain ⟨active, fresh, d, deadline, late⟩ := overdue
  have row := h.inv.each target member
  have tried : target.attempts ≠ [] := fun none => by simp [(row.untried none).1] at deadline
  have last := List.getLast?_eq_some_getLast tried
  have timely : ¬ (DeliveryFailureReason.receiptTimeout = .receiptTimeout ∧ tooEarly w target now) := by
    rintro ⟨-, unset | other | none | early⟩
    · exact absurd (row.timed tried).2 (by simp [unset])
    · rcases clock with unset | same
      · exact absurd (row.timed tried).2 (by simp [unset])
      · exact other same
    · simp [deadline] at none
    · simp only [deadline, Option.getD_some] at early
      omega
  obtain ⟨db', saved, c', ls, result, effect⟩ :=
    h.failAttempt_ok member (List.getLast_mem tried) phase outcomeIs timely
  exact ⟨_, db', saved, c', ls, last, result, effect⟩

/-- The loop leaves no overdue row: each is exhausted, or the run is corrected. -/
theorem expire_ok {outcome : FinalOutcome} (now : Nat) (rest : List EventRow) :
    ∀ {db : Database} {c : Cell}, Stored w.digest db c → c.row.phase = .closed →
      c.row.finalOutcome = some outcome → (∀ e ∈ rest, e ∈ c.rows) →
      (rest.Pairwise fun a b => a.sequence < b.sequence) →
      (∀ e ∈ rest, e.active = true → e.clockId = none ∨ e.clockId = w.clockId) →
      (∀ e ∈ c.rows, Overdue now e → e ∈ rest) →
      ∃ db' c' ls, expire w now rest db c.row = .ok (db', c'.row) ∧ Moves w.digest ls db c db' c' ∧
        (∀ l ∈ ls, l.quiet = true) ∧ ∀ e ∈ c'.rows, ¬ Overdue now e := by
  induction rest with
  | nil =>
    intro db c h _ _ _ _ _ pending
    exact ⟨db, c, [], rfl, Moves.refl h, nofun, fun e member overdue => nomatch pending e member overdue⟩
  | cons target rest ih =>
    intro db c h phase outcomeIs known ordered clocks pending
    have member := known target List.mem_cons_self
    have later := List.pairwise_cons.mp ordered
    have tail : ∀ e ∈ rest, e ∈ c.rows := fun e hx => known e (List.mem_cons_of_mem _ hx)
    have tailClocks : ∀ e ∈ rest, e.active = true → e.clockId = none ∨ e.clockId = w.clockId :=
      fun e hx => clocks e (List.mem_cons_of_mem _ hx)
    rw [expire]
    split
    next skipped =>
      refine ih h phase outcomeIs tail later.2 tailClocks fun e listed overdue => ?_
      rcases List.mem_cons.mp (pending e listed overdue) with rfl | old
      · exact absurd overdue ((skipped_iff now e).mp skipped)
      · exact old
    next due =>
      have overdue : Overdue now target := not_not.mp (mt (skipped_iff now target).mpr due)
      obtain ⟨attempt, db₁, saved, c₁, ls₁, last, result, effect⟩ :=
        h.expire_row member overdue (clocks target List.mem_cons_self overdue.1) phase outcomeIs
      simp only [h.attempts_ok member, ok_bind, last, result]
      cases effect with
      | kept acknowledged => simp [target.uncommitted overdue.1] at acknowledged
      | @corrected _ outcome' trigger failing revision moves =>
        have rerun := moves.stored.rerun_eq c.row rfl
        rw [rerun]
        refine ⟨db₁, _, _, if_pos ⟨revision, rfl⟩, moves, by simp [Label.quiet], ?_⟩
        rintro e listed ⟨active, -, d, deadline, -⟩
        have new := Cell.corrected_active listed active
        simp [(Cell.correction_newborn _ e new).deadline] at deadline
      | @failed _ exhausted failing done moves =>
        have rerun := moves.stored.rerun_eq c.row rfl
        rw [rerun]
        have same : ¬ (c.row.deliveryRevision = .zero ∧
            (c.failed target attempt.id .receiptTimeout exhausted).row.deliveryRevision = .one) := by
          rintro ⟨zero, one⟩
          exact absurd (zero.symm.trans one) (by decide)
        rw [if_neg same]
        have pending' : ∀ e ∈ (c.failed target attempt.id .receiptTimeout exhausted).rows,
            Overdue now e → e ∈ rest := by
          rintro e listed ⟨active, fresh, d, deadline, late⟩
          rcases ((Cell.failed_retouch failing).mem_rows h.inv.toLogInv).mp listed with rfl | ⟨old, other⟩
          · simp only at fresh deadline
            simp [done (by simpa [deadline] using late)] at fresh
          · rcases List.mem_cons.mp (pending e old ⟨active, fresh, d, deadline, late⟩) with rfl | hit
            · exact absurd rfl other
            · exact hit
        obtain ⟨db', c', ls, finished, moves', quiet, clean⟩ := ih moves.stored phase outcomeIs
          (fun e hx => mem_of_updateAt_other (tail e hx) (later.1 e hx).ne') later.2 tailClocks pending'
        refine ⟨db', c', _, finished, moves.trans moves', ?_, clean⟩
        intro l listed
        rcases List.mem_append.mp listed with first | second
        · rw [List.mem_singleton.mp first]
          rfl
        · exact quiet l second

end Stored

/-! ### The gate of a closed run -/

theorem Attempt.pending_iff (a : Attempt) : a.pending = true ↔ a.resolved = false := by
  cases accepted : a.accepted <;> cases failure : a.failure <;>
    simp [Attempt.pending, Attempt.resolved, accepted, failure]

/-- Only the last attempt of a row can be unresolved. -/
theorem RowInv.resolved {digest : NodeRunEvent → String} {e : EventRow} (row : RowInv digest e)
    (settled : awaiting e.attempts = false) : ∀ a ∈ e.attempts, a.resolved = true := by
  intro a member
  have tried := List.ne_nil_of_mem member
  rw [← List.dropLast_append_getLast tried] at member
  rcases List.mem_append.mp member with early | last
  · exact row.order a early
  · rw [List.mem_singleton.mp last]
    rw [awaiting, List.getLast?_eq_some_getLast tried, Option.any_some] at settled
    exact Bool.not_eq_false _ ▸ mt (Attempt.pending_iff _).mpr (by simp [settled])

/-- A resolved history within budget leaves room for one more claim. -/
theorem RowInv.room {digest : NodeRunEvent → String} {e : EventRow} (row : RowInv digest e)
    (active : e.active = true) (notExhausted : e.exhausted = false)
    (resolved : ∀ a ∈ e.attempts, a.resolved = true) : e.attempts.length < maxAttempts := by
  by_contra full
  have done : Journal.spent e.attempts = true := by
    simp only [Journal.spent, Bool.and_eq_true, decide_eq_true_eq, List.all_eq_true]
    exact ⟨by omega, resolved⟩
  rcases row.spent done with committed | exhausted
  · simp [e.uncommitted active] at committed
  · simp [notExhausted] at exhausted

/-- The order in which the rows of a closed run are offered. -/
def After (c : Cell) (a b : EventRow) : Prop :=
  if completedPath c.row then a.sequence < b.sequence else retryLe a b

/-- Every other outstanding row is given up or comes after `target`. -/
def First (c : Cell) (target : EventRow) : Prop :=
  ∀ e ∈ c.rows, e.active = true → e.exhausted = true ∨ e = target ∨ After c target e

variable {target : EventRow}

theorem Cell.Inv.success {digest : NodeRunEvent → String} (inv : c.Inv digest)
    (path : completedPath c.row = true) :
    Serial c ∧ (∀ e ∈ c.rows, e.superseded = false) ∧
      ∀ e ∈ c.rows, e.active = true → e.exhausted = false := by
  obtain ⟨outcome, outcomeIs, -⟩ := (Option.any_eq_true _ _).mp (Bool.and_eq_true_iff.mp path).2
  obtain ⟨completed, key, closure, history, run⟩ := inv.settled_of_path outcomeIs path
  obtain ⟨serial, fresh⟩ := run.success completed
  exact ⟨serial, run.kept, fresh⟩

/-- On the success path the first row of the order has nothing outstanding before it. -/
theorem First.serial {digest : NodeRunEvent → String} (first : First c target)
    (inv : c.Inv digest) (path : completedPath c.row = true) {e : EventRow} (member : e ∈ c.rows)
    (before : e.sequence < target.sequence) : e.committed = true := by
  obtain ⟨-, kept, fresh⟩ := inv.success path
  by_contra uncommitted
  have active : e.active = true := by
    simpa [EventRow.active, kept e member] using uncommitted
  rcases first e member active with spent | rfl | after
  · simp [fresh e member active] at spent
  · omega
  · rw [After, if_pos path] at after
    omega

theorem priority_zero {e : EventRow} (settled : awaiting e.attempts = false) (tried : e.attempts ≠ [])
    (zero : priority e = 0) : ∃ a ∈ e.attempts, a.accepted = true := by
  refine ⟨e.attempts.getLast tried, List.getLast_mem tried, ?_⟩
  rw [awaiting, List.getLast?_eq_some_getLast tried, Option.any_some] at settled
  rw [priority, List.getLast?_eq_some_getLast tried, Option.any_some] at zero
  by_cases failed : (e.attempts.getLast tried).failure.isSome = true
  · simp [failed] at zero
  · have none : (e.attempts.getLast tried).failure = none := by simpa using failed
    simpa [Attempt.pending, none] using settled

/-- Off the success path a row that is retried or unanswered never comes after an untried one. -/
theorem First.resolved {digest : NodeRunEvent → String} (first : First c target)
    (inv : c.Inv digest) (member : target ∈ c.rows) (active : target.active = true)
    (settled : awaiting target.attempts = false) {e : EventRow} (listed : e ∈ c.rows)
    (current : e.active = true) (fresh : e.exhausted = false) : ∀ a ∈ e.attempts, a.resolved = true := by
  apply (inv.each e listed).resolved
  rcases first e listed current with spent | rfl | after
  · simp [fresh] at spent
  · exact settled
  · by_contra unanswered
    rw [Bool.not_eq_false] at unanswered
    obtain ⟨a, last, pending⟩ := (Option.any_eq_true _ _).mp unanswered
    have tried : e.attempts ≠ [] := List.ne_nil_of_mem (List.mem_of_getLast? last)
    by_cases path : completedPath c.row = true
    · rw [After, if_pos path] at after
      have committed := (inv.success path).1 e listed tried target member after
      simp [target.uncommitted active] at committed
    · rw [After, if_neg path] at after
      have zero : priority e = 0 := by
        have failure : a.failure.isSome = false := by
          simpa using (Bool.and_eq_true_iff.mp pending).1
        simp [priority, last, failure]
      rcases after with lower | ⟨same, before⟩
      · omega
      · have targetTried : target.attempts ≠ [] := by
          rcases Nat.lt_or_eq_of_le before with lt | eq
          · exact inv.claimOrder e listed current tried target member active lt
          · exact inv.same_of_sequence member listed eq ▸ tried
        have accepted := priority_zero settled targetTried (same.trans zero)
        have committed := (inv.each target member).committed.mpr accepted
        simp [target.uncommitted active] at committed

theorem First.inOrder {digest : NodeRunEvent → String} (first : First c target)
    (inv : c.Inv digest) {e : EventRow} (listed : e ∈ c.rows) (current : e.active = true)
    (before : e.sequence < target.sequence) : e.attempts ≠ [] := by
  intro untried
  rcases first e listed current with spent | rfl | after
  · simp [((inv.each e listed).untried untried).2.2] at spent
  · omega
  · by_cases path : completedPath c.row = true
    · rw [After, if_pos path] at after
      omega
    · rw [After, if_neg path] at after
      rcases after with lower | ⟨-, later⟩
      · simp [priority, untried] at lower
      · omega

/-- What the second loop checks before it grants a claim. -/
theorem First.gate {digest : NodeRunEvent → String} {now : Nat} (first : First c target)
    (inv : c.Inv digest) (phase : c.row.phase = .closed) (member : target ∈ c.rows)
    (active : target.active = true) (notExhausted : target.exhausted = false)
    (settled : awaiting target.attempts = false) (clean : ∀ e ∈ c.rows, ¬ Overdue now e) :
    Gate c target now where
  inOrder e listed current before := first.inOrder inv listed current before
  serial path e listed before := by
    rcases path with opened | path
    · exact absurd phase opened
    · exact first.serial inv path listed before
  member := member
  active := active
  notExhausted := notExhausted
  budget := (inv.each target member).room active notExhausted ((inv.each target member).resolved settled)
  deadline d deadline := by
    by_contra late
    exact clean target member ⟨active, notExhausted, d, deadline, by omega⟩
  resolved e listed current fresh := first.resolved inv member active settled listed current fresh
  live opened := absurd phase opened

/-! ### Claims of a closed run -/

/-- A granted claim: its gate held, and its one row was written. -/
inductive Granted (w : Worker) (now : Nat) (db : Database) (c : Cell) :
    DeliveryClaim → Database → Cell → List Label → Prop where
  | mk {target : EventRow} {revision : Revision} {db' : Database} (gate : Gate c target now)
      (moves : Moves w.digest [.claim target.sequence w.uuid now] db c db'
        (c.claimed target (newAttempt w revision now)
          (target.deadlineTickMs.getD (now + receiptWindowMs)) w.clockId)) :
      Granted w now db c
        ⟨target.stored, w.uuid, revision, w.clockId,
          target.deadlineTickMs.getD (now + receiptWindowMs)⟩ db'
        (c.claimed target (newAttempt w revision now)
          (target.deadlineTickMs.getD (now + receiptWindowMs)) w.clockId)
        [.claim target.sequence w.uuid now]

/-- What a claim needs of the process that makes it. -/
structure Claimant (w : Worker) (c : Cell) (now : Nat) : Prop where
  named : w.uuid ≠ ""
  unnamed : c.Unnamed w.uuid
  clock : w.clockId.isSome = true
  time : now ≤ maxSafeInteger

theorem Stored.claim_granted (h : Stored w.digest db c) {target : EventRow} {now : Nat}
    (claimant : Claimant w c now) (gate : Gate c target now) (revision : Revision) :
    Granted w now db c
      ⟨target.stored, w.uuid, revision, w.clockId, target.deadlineTickMs.getD (now + receiptWindowMs)⟩
      (claimRow w db c.row target (newAttempt w revision now)
        (target.deadlineTickMs.getD (now + receiptWindowMs)))
      (c.claimed target (newAttempt w revision now)
        (target.deadlineTickMs.getD (now + receiptWindowMs)) w.clockId)
      [.claim target.sequence w.uuid now] := by
  obtain ⟨clockId, clock⟩ := Option.isSome_iff_exists.mp claimant.clock
  have step : Step w.digest (.claim target.sequence w.uuid now) c
      (c.claimed target (newAttempt w revision now)
        (target.deadlineTickMs.getD (now + receiptWindowMs)) w.clockId) := by
    rw [clock]
    exact @Step.claim _ c target (newAttempt w revision now) clockId gate claimant.time
      claimant.named (claimant.unnamed target gate.member) ⟨rfl, rfl⟩
  exact .mk gate (.of_step h.inv step (h.updateOutbox _ _) (Frame.updateOutbox _ _))

/-- The answers of the second loop. -/
inductive Offer (w : Worker) (now : Nat) (db : Database) (c : Cell) :
    ClosedClaimReply → Database → Cell → List Label → Prop where
  | waiting {kind : ClosedClaimKind} {reason : ClosedClaimReason} {view : ClosedRunDeliveryView}
      {db' : Database} {c' : Cell} {ls : List Label} (reported : Reported w db c view db' c' ls) :
      Offer w now db c (.other kind reason view) db' c' ls
  | claimed {claim : DeliveryClaim} {db' : Database} {c' : Cell} {ls : List Label}
      (granted : Granted w now db c claim db' c' ls) : Offer w now db c (.claimed claim) db' c' ls

/-- The loop's own consistency checks cannot fire on a sound run. -/
theorem Stored.claimNext_spec (h : Stored w.digest db c) {now : Nat} (claimant : Claimant w c now)
    (phase : c.row.phase = .closed) (clean : ∀ e ∈ c.rows, ¬ Overdue now e)
    (events : List EventRow) (successPath : Bool) (list : List EventRow)
    (known : ∀ e ∈ list, e ∈ c.rows ∧ e.active = true) (sorted : list.Pairwise (After c))
    (cover : ∀ e ∈ c.rows, e.active = true → e.exhausted = true ∨ e ∈ list) :
    Ensures (fun _ => False)
      (fun result => ∀ reply db', result = some (reply, db') →
        ∃ c' ls, Offer w now db c reply db' c' ls)
      (claimNext w db c.row events successPath now list) := by
  induction list with
  | nil =>
    rw [claimNext, ensures_ok]
    intro reply db' same
    cases same
  | cons target rest ih =>
    obtain ⟨member, active⟩ := known target List.mem_cons_self
    obtain ⟨later, tail⟩ := List.pairwise_cons.mp sorted
    obtain ⟨⟨view, db₁⟩, viewed, c₁, ls, reported⟩ := h.deliveryView_spec.result
    have waiting : ∀ (kind : ClosedClaimKind) (reason : ClosedClaimReason),
        Ensures (fun _ : JournalError => False)
          (fun result => ∀ reply db', result = some (reply, db') →
            ∃ c' ls, Offer w now db c reply db' c' ls)
          (.ok (some (ClosedClaimReply.other kind reason view, db₁))) := by
      rintro kind reason reply db' ⟨⟩
      exact ⟨c₁, ls, .waiting reported⟩
    simp only [claimNext, h.attempts_ok member, ok_bind, viewed]
    by_cases spent : target.exhausted = true
    · rw [if_pos spent]
      refine ih (fun e hx => known e (List.mem_cons_of_mem _ hx)) tail fun e listed current => ?_
      rcases cover e listed current with given | hit
      · exact .inl given
      · rcases List.mem_cons.mp hit with rfl | hit
        · exact .inl spent
        · exact .inr hit
    rw [if_neg spent]
    by_cases asked : awaiting target.attempts = true
    · rw [if_pos asked]
      exact waiting _ _
    rw [if_neg asked]
    split
    · exact waiting _ _
    have first : First c target := by
      intro e listed current
      rcases cover e listed current with given | hit
      · exact .inl given
      · rcases List.mem_cons.mp hit with rfl | hit
        · exact .inr (.inl rfl)
        · exact .inr (.inr (later e hit))
    have gate := first.gate h.inv phase member active (by simpa using spent) (by simpa using asked) clean
    have budget : ¬ maxAttempts ≤ target.attempts.length := Nat.not_le.mpr gate.budget
    have early : ¬ target.deadlineTickMs.getD (now + receiptWindowMs) ≤ now := by
      cases deadline : target.deadlineTickMs with
      | none => simp [receiptWindowMs]
      | some d => exact Nat.not_le.mpr (gate.deadline d deadline)
    rw [if_neg budget, if_neg early, h.event_ok member]
    rintro reply db' ⟨⟩
    exact ⟨_, _, .claimed (h.claim_granted claimant gate _)⟩

/-- A clock reading that the process accepts. -/
theorem tickMs_spec (w : Worker) (reading last : Nat) :
    Ensures (External false) (fun now => now = w.hrtime reading ∧ now ≤ maxSafeInteger)
      (tickMs w reading last) := by
  simp only [tickMs]
  split
  next => exact ⟨rfl, nofun⟩
  next steady => exact ⟨rfl, by omega⟩

instance : Std.Total retryLe := ⟨fun a b => by unfold retryLe; omega⟩

instance : IsTrans EventRow retryLe := ⟨fun a b c => by unfold retryLe; omega⟩

/-- The loop walks the outstanding rows in the order of the run's path. -/
theorem After.sorted {events : List EventRow} (of : EventsOf c events) :
    (if completedPath c.row then events.filter EventRow.active
      else (events.filter EventRow.active).insertionSort retryLe).Pairwise (After c) := by
  split
  next path =>
    refine (of.ordered.filter _).imp fun before => ?_
    rw [After, if_pos path]
    exact before
  next path =>
    refine (List.pairwise_insertionSort retryLe _).imp fun before => ?_
    rw [After, if_neg path]
    exact before

theorem Stored.mapM_attempts (h : Stored w.digest db c) (rows : List EventRow)
    (known : ∀ e ∈ rows, e ∈ c.rows) : rows.mapM attempts = .ok (rows.map (·.attempts)) := by
  induction rows with
  | nil => rfl
  | cons e rest ih =>
    have tail := ih fun x hx => known x (List.mem_cons_of_mem _ hx)
    rw [List.mapM_cons, h.attempts_ok (known e List.mem_cons_self), ok_bind, tail, ok_bind]
    rfl

theorem healthy_rows {events : List EventRow} (healthy : clockHealthy w events = true) :
    w.clockId.isSome = true ∧
      ∀ e ∈ events, e.active = true → e.clockId = none ∨ e.clockId = w.clockId := by
  obtain ⟨clock, rows⟩ := Bool.and_eq_true_iff.mp healthy
  refine ⟨clock, fun e member active => ?_⟩
  have row := List.all_eq_true.mp rows e member
  simpa [e.uncommitted active, e.current active] using row

/-- The answer of `delivery_claim`. -/
inductive ClaimAnswer (w : Worker) (db : Database) (c : Cell) :
    ClosedClaimReply → Database → Cell → List Label → Prop where
  | other {kind : ClosedClaimKind} {reason : ClosedClaimReason} {view : ClosedRunDeliveryView}
      {db' : Database} {c' : Cell} {ls : List Label} (moves : Moves w.digest ls db c db' c')
      (quiet : ∀ l ∈ ls, l.quiet = true) (describes : Describes view c') :
      ClaimAnswer w db c (.other kind reason view) db' c' ls
  | claimed {claim : DeliveryClaim} {db₁ db' : Database} {c₁ c' : Cell} {ls ms : List Label}
      (moves : Moves w.digest ls db c db₁ c₁) (quiet : ∀ l ∈ ls, l.quiet = true)
      (granted : Granted w (w.hrtime 0) db₁ c₁ claim db' c' ms) :
      ClaimAnswer w db c (.claimed claim) db' c' (ls ++ ms)

theorem Stored.answer_view (h : Stored w.digest db c) :
    ∃ view db', deliveryView w db c.row = .ok (view, db') ∧ ∀ kind reason,
      ∃ c' ls, ClaimAnswer w db c (.other kind reason view) db' c' ls := by
  obtain ⟨⟨view, db'⟩, viewed, c', ls, reported⟩ := h.deliveryView_spec.result
  exact ⟨view, db', viewed, fun _ _ => ⟨c', ls, .other reported.moves reported.quiet reported.describes⟩⟩

/-- An answer after quiet moves. -/
theorem ClaimAnswer.after {db₁ : Database} {c₁ : Cell} {ls : List Label}
    (moves : Moves w.digest ls db c db₁ c₁) (quiet : ∀ l ∈ ls, l.quiet = true)
    {reply : ClosedClaimReply} {db' : Database} {c' : Cell} {ms : List Label}
    (answer : ClaimAnswer w db₁ c₁ reply db' c' ms) : ∃ ns, ClaimAnswer w db c reply db' c' ns := by
  have both : ∀ {ms : List Label}, (∀ l ∈ ms, l.quiet = true) → ∀ l ∈ ls ++ ms, l.quiet = true :=
    fun later l member => (List.mem_append.mp member).elim (quiet l) (later l)
  cases answer with
  | other moves' quiet' describes => exact ⟨_, .other (moves.trans moves') (both quiet') describes⟩
  | claimed moves' quiet' granted => exact ⟨_, .claimed (moves.trans moves') (both quiet') granted⟩

theorem Offer.answer {now : Nat} (clock : now = w.hrtime 0) {reply : ClosedClaimReply}
    {db' : Database} {c' : Cell} {ls : List Label} (h : Stored w.digest db c)
    (offer : Offer w now db c reply db' c' ls) : ClaimAnswer w db c reply db' c' ls := by
  subst clock
  cases offer with
  | waiting reported => exact .other reported.moves reported.quiet reported.describes
  | claimed granted => exact .claimed (Moves.refl h) nofun granted

/-- `delivery_claim` refuses only a clock that runs backwards. -/
theorem Stored.deliveryClaim_spec (h : Stored w.digest db c) (last : Nat) (fresh : FreshId db w.uuid)
    (phase : c.row.phase = .closed) {outcome : FinalOutcome}
    (outcomeIs : c.row.finalOutcome = some outcome) :
    Ensures (External false)
      (fun result => ∃ c' ls, ClaimAnswer w db c result.1 result.2.db c' ls)
      (deliveryClaim w ⟨db, last⟩ c.row) := by
  obtain ⟨events, read, of⟩ := h.events_ok
  obtain ⟨view, db₀, viewed, answer⟩ := h.answer_view
  simp only [deliveryClaim, read, ok_bind, viewed]
  by_cases done : events.all (fun e => e.committed || e.superseded) = true
  · simp only [if_pos done]
    exact answer _ _
  simp only [if_neg done]
  by_cases lost : (c.row.deliveryClockUnknown || !clockHealthy w events) = true
  · simp only [if_pos lost]
    exact answer _ _
  simp only [if_neg lost]
  refine (tickMs_spec w 0 last).bind fun now reading => ?_
  have healthy : clockHealthy w events = true := by
    simp only [Bool.or_eq_true, not_or, Bool.not_eq_true', Bool.not_eq_false] at lost
    exact lost.2
  obtain ⟨clock, clocks⟩ := healthy_rows healthy
  obtain ⟨db₁, c₁, ls, expired, moves, quiet, clean⟩ := expire_ok now events h phase outcomeIs
    of.subset of.ordered clocks fun e member overdue => (of.mem_active overdue.1).mpr member
  have forward := path_forward moves.path h.inv
  obtain ⟨events₁, read₁, of₁⟩ := moves.stored.events_ok
  have outcome₁ := forward.outcome outcome outcomeIs
  have mapped := moves.stored.mapM_attempts (events₁.filter EventRow.active)
    fun e member => of₁.subset e (List.mem_of_mem_filter member)
  obtain ⟨view₁, db₂, viewed₁, answer₁⟩ := moves.stored.answer_view
  have unnamed := path_unnamed moves.path quiet (fresh.unnamed h.toHeld)
  have claimNext := moves.stored.claimNext_spec ⟨fresh.named, unnamed, clock, reading.2⟩
    (forward.closed phase) clean events₁ (completedPath c₁.row)
    (if completedPath c₁.row then events₁.filter EventRow.active
      else (events₁.filter EventRow.active).insertionSort retryLe)
    (fun e member => by
      have listed : e ∈ events₁.filter EventRow.active := by
        split at member
        · exact member
        · exact (List.mem_insertionSort _).mp member
      exact ⟨of₁.subset e (List.mem_of_mem_filter listed), (List.mem_filter.mp listed).2⟩)
    (After.sorted of₁)
    (fun e member active => by
      have listed : e ∈ events₁.filter EventRow.active :=
        List.mem_filter.mpr ⟨(of₁.mem_active active).mpr member, active⟩
      right
      split
      · exact listed
      · exact (List.mem_insertionSort _).mpr listed)
  obtain ⟨result, next, offers⟩ := claimNext.result
  simp only [expired, ok_bind, read₁, outcome₁, mapped, reduceCtorEq, if_false, next, viewed₁]
  cases result with
  | none =>
    have final : ∀ kind reason, ∃ c' ls, ClaimAnswer w db c (.other kind reason view₁) db₂ c' ls := by
      intro kind reason
      obtain ⟨c', ms, given⟩ := answer₁ kind reason
      obtain ⟨ns, given⟩ := given.after moves quiet
      exact ⟨c', ns, given⟩
    split_ifs <;> exact final _ _
  | some found =>
    obtain ⟨c', ms, offer⟩ := offers found.1 found.2 rfl
    obtain ⟨ns, given⟩ := (offer.answer reading.1 moves.stored).after moves quiet
    split_ifs <;> exact ⟨c', ns, given⟩

end Artoo.Journal
