import Artoo.Node.ManagedTransport

/-! What the managed transport counts, and on what it takes an event for accepted. -/
namespace Artoo.Node
open Artoo.Lib

variable {o : Options} {t t' : Transport} {identity : Tuple} {outcome : Outcome} {e : Trace}
  {m : RunEventMessage} {gid : Nat}

/-! ## The trace -/

def Trace.promise : Trace → Option Nat
  | .observing p _ | .pending p _ | .wrote p _ _ | .settled p _ => some p
  | .sequenced _ _ | .acked _ _ _ => none

/-- What an event rests on: an acceptance on the acknowledgement just received, in the generation
that wrote the frame before, a sequence on being above the earlier ones of its run, and an entry on
a promise of its own. -/
def Trace.Due : Trace → List Trace → Prop
  | .settled p (.status .accepted), before => ∃ g identity rest,
    before = .acked g identity .accepted :: rest ∧ .wrote p identity g ∈ rest
  | .sequenced runId sequence, before => ∀ earlier, .sequenced runId earlier ∈ before →
    earlier < sequence
  | .observing p _, before | .pending p _, before => ∀ e ∈ before, e.promise ≠ some p
  | _, _ => True

def History (trace : List Trace) : Prop :=
  ∀ later e before, trace = later ++ e :: before → e.Due before

theorem history_cons {trace : List Trace} (h : History trace) (due : e.Due trace) :
    History (e :: trace) := by
  intro later e' before is
  cases later with
  | nil =>
    cases is
    exact due
  | cons _ later =>
    cases is
    exact h later e' before rfl

/-! ## The invariant -/

structure Receipts (t : Transport) : Prop where
  bytes : t.receiptBytes = t.receiptObservers.total (·.bytes)
  most : t.receiptObservers.rows.length ≤ maxReceipts ∧ t.receiptBytes ≤ maxReceiptBytes
  sizes : ∀ item ∈ t.receiptObservers, 0 ≤ item.bytes
  wrote : ∀ item ∈ t.receiptObservers, item.exposed →
    .wrote item.promise item.identity item.generation ∈ t.trace
  observed : ∀ p identity, .observing p identity ∈ t.trace →
    (∃ outcome, .settled p outcome ∈ t.trace) ∨
      ∃ item ∈ t.receiptObservers, item.promise = p ∧ item.identity = identity

structure LegacyEvents (t : Transport) : Prop where
  bytes : t.legacyPendingBytes = t.legacyPending.total (·.bytes)
  most : t.legacyPending.rows.length ≤ maxLegacyEvents ∧ t.legacyPendingBytes ≤ maxLegacyBytes
  sizes : ∀ item ∈ t.legacyPending, 0 ≤ item.bytes
  wrote : ∀ item ∈ t.legacyPending, ∀ g, item.sentGeneration = some g →
    .wrote item.promise item.identity g ∈ t.trace

structure Sequences (t : Transport) : Prop where
  last : ∀ runId sequence, .sequenced runId sequence ∈ t.trace →
    ∃ last, t.legacySequences runId = some last ∧ sequence ≤ last
  bound : ∀ runId, t.runModes runId = none → t.legacySequences runId = none

/-- The buffered commands of a generation. -/
structure Buffered (g : Generation) : Prop where
  bytes : g.commandBytes = g.commands.sum
  most : g.commands.length ≤ maxCommands ∧ g.commandBytes ≤ maxCommandBytes

/-- The promises so far. -/
structure Numbered (t : Transport) : Prop where
  trace : ∀ e ∈ t.trace, ∀ p, e.promise = some p → p < t.promises
  receipts : ∀ item ∈ t.receiptObservers, item.promise < t.promises
  legacy : ∀ item ∈ t.legacyPending, item.promise < t.promises

structure Accounts (t : Transport) : Prop where
  receipts : Receipts t
  legacy : LegacyEvents t
  sequences : Sequences t
  numbered : Numbered t
  commands : ∀ g, t.current = some g → Buffered g
  history : History t.trace

/-! ## Entries -/

/-- More is in the trace, but no observer and no sequence. -/
structure Longer (t t' : Transport) : Prop where
  kept : t.trace ⊆ t'.trace
  observing : ∀ p identity, .observing p identity ∈ t'.trace → .observing p identity ∈ t.trace
  sequenced : ∀ runId sequence, .sequenced runId sequence ∈ t'.trace →
    .sequenced runId sequence ∈ t.trace

theorem Receipts.congr (h : Receipts t) (longer : Longer t t')
    (observers : t'.receiptObservers = t.receiptObservers)
    (bytes : t'.receiptBytes = t.receiptBytes) : Receipts t' := by
  constructor
  · rw [bytes, observers]
    exact h.bytes
  · rw [bytes, observers]
    exact h.most
  · rw [observers]
    exact h.sizes
  · rw [observers]
    exact fun item there exposed => longer.kept (h.wrote item there exposed)
  · intro p identity there
    rw [observers]
    rcases h.observed p identity (longer.observing p identity there) with ⟨outcome, done_⟩ | here
    · exact Or.inl ⟨outcome, longer.kept done_⟩
    · exact Or.inr here

theorem LegacyEvents.congr (h : LegacyEvents t) (longer : Longer t t')
    (pending : t'.legacyPending = t.legacyPending)
    (bytes : t'.legacyPendingBytes = t.legacyPendingBytes) : LegacyEvents t' := by
  constructor
  · rw [bytes, pending]
    exact h.bytes
  · rw [bytes, pending]
    exact h.most
  · rw [pending]
    exact h.sizes
  · rw [pending]
    exact fun item there g sent => longer.kept (h.wrote item there g sent)

theorem Sequences.congr (h : Sequences t) (longer : Longer t t') (modes : t'.runModes = t.runModes)
    (sequences : t'.legacySequences = t.legacySequences) : Sequences t' := by
  constructor
  · rw [sequences]
    exact fun runId sequence there => h.last runId sequence (longer.sequenced runId sequence there)
  · rw [sequences, modes]
    exact h.bound

theorem longer_refl (same : t'.trace = t.trace) : Longer t t' := by
  constructor
  all_goals rw [same]
  · exact fun _ there => there
  · exact fun _ _ there => there
  · exact fun _ _ there => there

/-- An event of another kind. -/
def Trace.aside : Trace → Prop
  | .observing _ _ | .sequenced _ _ => False
  | _ => True

theorem longer_cons (same : t'.trace = e :: t.trace) (aside : e.aside) : Longer t t' := by
  constructor
  all_goals rw [same]
  · exact fun _ there => List.mem_cons_of_mem _ there
  · intro p identity there
    rcases List.mem_cons.mp there with rfl | old
    · exact aside.elim
    · exact old
  · intro runId sequence there
    rcases List.mem_cons.mp there with rfl | old
    · exact aside.elim
    · exact old

theorem Numbered.cons (h : Numbered t) (same : t'.trace = e :: t.trace)
    (promises : t'.promises = t.promises) (mine : ∀ p, e.promise = some p → p < t.promises)
    (receipts : ∀ item ∈ t'.receiptObservers, ∃ old ∈ t.receiptObservers, old.promise = item.promise)
    (legacy : ∀ item ∈ t'.legacyPending, ∃ old ∈ t.legacyPending, old.promise = item.promise) :
    Numbered t' := by
  constructor
  · rw [same, promises]
    intro e' there p is
    rcases List.mem_cons.mp there with rfl | old
    · exact mine p is
    · exact h.trace e' old p is
  · intro item there
    obtain ⟨old, member, is⟩ := receipts item there
    rw [promises, ← is]
    exact h.receipts old member
  · intro item there
    obtain ⟨old, member, is⟩ := legacy item there
    rw [promises, ← is]
    exact h.legacy old member

/-- The other tables of the transport. -/
theorem Accounts.settled (h : Accounts t) (same : t'.trace = e :: t.trace) (aside : e.aside)
    (due : e.Due t.trace) (receipts : Receipts t') (legacy : LegacyEvents t')
    (numbered : Numbered t') (modes : t'.runModes = t.runModes) (sequences : t'.legacySequences = t.legacySequences)
    (current : t'.current = t.current) : Accounts t' := by
  refine ⟨receipts, legacy, h.sequences.congr (longer_cons same aside) modes sequences, numbered, ?_,
    ?_⟩
  · rw [current]
    exact h.commands
  · rw [same]
    exact history_cons h.history due

theorem Receipts.remove (h : Receipts t) {item : ReceiptObserver}
    (found : t.receiptObservers.get? identity = some item)
    (observers : t'.receiptObservers = t.receiptObservers.remove identity)
    (bytes : t'.receiptBytes = t.receiptBytes - item.bytes)
    (same : t'.trace = .settled item.promise outcome :: t.trace) : Receipts t' := by
  have size := h.sizes item (Table.mem_of_get? found)
  have key : item.identity = identity := Table.key_of_get? found
  constructor
  · rw [bytes, observers, Table.total_remove found, h.bytes]
  · rw [bytes, observers]
    have fewer : (t.receiptObservers.remove identity).rows.length ≤
        t.receiptObservers.rows.length := List.length_filter_le _ _
    exact ⟨Nat.le_trans fewer h.most.1, by have := h.most.2; omega⟩
  · rw [observers]
    exact fun x there => h.sizes x (Table.mem_remove.mp there).1
  · rw [observers, same]
    exact fun x there exposed =>
      List.mem_cons_of_mem _ (h.wrote x (Table.mem_remove.mp there).1 exposed)
  · intro p id there
    rw [same] at there ⊢
    have old : .observing p id ∈ t.trace := by
      rcases List.mem_cons.mp there with is | old
      · cases is
      · exact old
    rcases h.observed p id old with ⟨o', done_⟩ | ⟨x, member, promise, id_eq⟩
    · exact Or.inl ⟨o', List.mem_cons_of_mem _ done_⟩
    · by_cases hit : x.identity = identity
      · have is : x = item := by
          have there' := Table.get?_of_mem member
          rw [hit, found] at there'
          exact (Option.some.inj there').symm
        subst is
        rw [← promise]
        exact Or.inl ⟨outcome, List.mem_cons_self⟩
      · rw [observers]
        exact Or.inr ⟨x, Table.mem_remove.mpr ⟨member, hit⟩, promise, id_eq⟩

theorem LegacyEvents.remove (h : LegacyEvents t) {item : LegacyPendingEvent}
    (found : t.legacyPending.get? identity = some item)
    (pending : t'.legacyPending = t.legacyPending.remove identity)
    (bytes : t'.legacyPendingBytes = t.legacyPendingBytes - item.bytes)
    (kept : t.trace ⊆ t'.trace) : LegacyEvents t' := by
  have size := h.sizes item (Table.mem_of_get? found)
  constructor
  · rw [bytes, pending, Table.total_remove found, h.bytes]
  · rw [bytes, pending]
    have fewer : (t.legacyPending.remove identity).rows.length ≤ t.legacyPending.rows.length :=
      List.length_filter_le _ _
    exact ⟨Nat.le_trans fewer h.most.1, by have := h.most.2; omega⟩
  · rw [pending]
    exact fun x there => h.sizes x (Table.mem_remove.mp there).1
  · rw [pending]
    exact fun x there g sent => kept (h.wrote x (Table.mem_remove.mp there).1 g sent)

/-- A promise is only accepted on an acknowledgement just received. -/
def Answered (t : Transport) (p : Nat) (outcome : Outcome) : Prop :=
  outcome = .status .accepted → (Trace.settled p outcome).Due t.trace

theorem Answered.due {p : Nat} (h : Answered t p outcome) :
    (Trace.settled p outcome).Due t.trace := by
  by_cases accepted : outcome = .status .accepted
  · exact h accepted
  · cases outcome with
    | error => trivial
    | status s => cases s with
      | accepted => exact absurd rfl accepted
      | rejected => trivial

theorem Accounts.settleReceipt (h : Accounts t)
    (answered : ∀ item, t.receiptObservers.get? identity = some item →
      Answered t item.promise outcome) : Accounts (t.settleReceipt identity outcome) := by
  unfold Transport.settleReceipt
  cases found : t.receiptObservers.get? identity with
  | none => exact h
  | some item =>
    have numbered := h.numbered.receipts item (Table.mem_of_get? found)
    refine h.settled rfl trivial (answered item found).due (h.receipts.remove found rfl rfl rfl)
      (h.legacy.congr (longer_cons rfl trivial) rfl rfl) (h.numbered.cons rfl rfl ?_ ?_ ?_) rfl rfl
      rfl
    · rintro p ⟨⟩
      exact numbered
    · exact fun x there => ⟨x, (Table.mem_remove.mp there).1, rfl⟩
    · exact fun x there => ⟨x, there, rfl⟩

theorem Accounts.settleLegacy (h : Accounts t)
    (answered : ∀ item, t.legacyPending.get? identity = some item →
      Answered t item.promise outcome) : Accounts (t.settleLegacy identity outcome) := by
  unfold Transport.settleLegacy
  cases found : t.legacyPending.get? identity with
  | none => exact h
  | some item =>
    have numbered := h.numbered.legacy item (Table.mem_of_get? found)
    refine h.settled rfl trivial (answered item found).due
      (h.receipts.congr (longer_cons rfl trivial) rfl rfl)
      (h.legacy.remove found rfl rfl fun _ there => List.mem_cons_of_mem _ there)
      (h.numbered.cons rfl rfl ?_ ?_ ?_) rfl rfl rfl
    · rintro p ⟨⟩
      exact numbered
    · exact fun x there => ⟨x, there, rfl⟩
    · exact fun x there => ⟨x, (Table.mem_remove.mp there).1, rfl⟩

theorem answered_error {p : Nat} : Answered t p .error := nofun

/-- What the counters and the histories are about is the same. -/
theorem Accounts.congr (h : Accounts t) (trace : t'.trace = t.trace)
    (observers : t'.receiptObservers = t.receiptObservers)
    (receiptBytes : t'.receiptBytes = t.receiptBytes)
    (pending : t'.legacyPending = t.legacyPending)
    (legacyBytes : t'.legacyPendingBytes = t.legacyPendingBytes) (modes : t'.runModes = t.runModes)
    (sequences : t'.legacySequences = t.legacySequences) (promises : t'.promises = t.promises)
    (commands : ∀ g, t'.current = some g → Buffered g) : Accounts t' := by
  have longer : Longer t t' := longer_refl trace
  refine ⟨h.receipts.congr longer observers receiptBytes, h.legacy.congr longer pending legacyBytes,
    h.sequences.congr longer modes sequences, ?_, commands, ?_⟩
  · constructor
    · rw [trace, promises]
      exact h.numbered.trace
    · rw [observers, promises]
      exact h.numbered.receipts
    · rw [pending, promises]
      exact h.numbered.legacy
  · rw [trace]
    exact h.history

theorem Accounts.setCurrent {g : Generation} (h : Accounts t) (buffered : Buffered g) :
    Accounts (t.setCurrent g) := by
  refine h.congr rfl rfl rfl rfl rfl rfl rfl rfl fun g' is => ?_
  cases is
  exact buffered

theorem Accounts.acked {g : Nat} {status : Status} (h : Accounts t) :
    Accounts (t.log (.acked g identity status)) :=
  h.settled rfl trivial trivial (h.receipts.congr (longer_cons rfl trivial) rfl rfl)
    (h.legacy.congr (longer_cons rfl trivial) rfl rfl)
    (h.numbered.cons rfl rfl nofun (fun x there => ⟨x, there, rfl⟩) fun x there => ⟨x, there, rfl⟩)
    rfl rfl rfl

theorem Accounts.failLegacy (h : Accounts t) : Accounts t.failLegacy := by
  unfold Transport.failLegacy
  generalize t.legacyPending.rows.map (·.identity) = identities
  induction identities generalizing t with
  | nil => exact h
  | cons identity rest ih => exact ih (h.settleLegacy fun _ _ => answered_error)

theorem Accounts.failObservers (h : Accounts t) : Accounts (t.failObservers gid) := by
  unfold Transport.failObservers
  generalize (t.receiptObservers.select (·.generation == gid)).map (·.identity) = identities
  induction identities generalizing t with
  | nil => exact h
  | cons identity rest ih => exact ih (h.settleReceipt fun _ _ => answered_error)

theorem unsent_bytes {item : LegacyPendingEvent} : (item.unsent gid).bytes = item.bytes := by
  unfold LegacyPendingEvent.unsent
  split
  · rfl
  · rfl

theorem unsent_promise {item : LegacyPendingEvent} : (item.unsent gid).promise = item.promise := by
  unfold LegacyPendingEvent.unsent
  split
  · rfl
  · rfl

theorem unsent_sent {item : LegacyPendingEvent} {g : Nat}
    (sent : (item.unsent gid).sentGeneration = some g) : item.unsent gid = item := by
  unfold LegacyPendingEvent.unsent at sent ⊢
  split at sent
  · cases sent
  · rename_i other
    rw [if_neg other]

theorem LegacyEvents.forget (h : LegacyEvents t) : LegacyEvents (t.forget gid) := by
  have keeps : ∀ item : LegacyPendingEvent, (item.unsent gid).identity = item.identity :=
    fun item => item.unsent_identity gid
  constructor
  · have same : (t.forget gid).legacyPending.total (·.bytes) = t.legacyPending.total (·.bytes) :=
      Table.total_modify keeps fun _ => unsent_bytes
    rw [same]
    exact h.bytes
  · have same : (t.forget gid).legacyPending.rows.length = t.legacyPending.rows.length :=
      List.length_map _
    rw [same]
    exact h.most
  · intro item there
    obtain ⟨old, member, rfl⟩ := (Table.mem_modify keeps).mp there
    rw [unsent_bytes]
    exact h.sizes old member
  · intro item there g sent
    obtain ⟨old, member, rfl⟩ := (Table.mem_modify keeps).mp there
    have same := unsent_sent sent
    rw [same] at sent ⊢
    exact h.wrote old member g sent

theorem Accounts.forget (h : Accounts t) : Accounts (t.forget gid) := by
  have keeps : ∀ item : LegacyPendingEvent, (item.unsent gid).identity = item.identity :=
    fun item => item.unsent_identity gid
  refine ⟨h.receipts.congr (longer_refl rfl) rfl rfl, h.legacy.forget,
    h.sequences.congr (longer_refl rfl) rfl rfl, ?_, h.commands, h.history⟩
  refine ⟨h.numbered.trace, h.numbered.receipts, fun item there => ?_⟩
  obtain ⟨old, member, rfl⟩ := (Table.mem_modify keeps).mp there
  rw [unsent_promise]
  exact h.numbered.legacy old member

/-! ## Generations -/

theorem buffered_empty {g : Generation} (commands : g.commands = []) (bytes : g.commandBytes = 0) :
    Buffered g := by
  constructor
  · rw [commands, bytes]
    rfl
  · rw [commands, bytes]
    decide

theorem Accounts.dispose {g : Generation} (h : Accounts t) : Accounts (t.dispose g) := by
  unfold Transport.dispose
  exact ((h.setCurrent (buffered_empty rfl rfl)).failObservers).forget

theorem Accounts.fatal (h : Accounts t) : Accounts t.fatal := by
  unfold Transport.fatal
  split
  · exact h
  · have closed : Accounts { t with closed := true, reconnect := false } :=
      h.congr rfl rfl rfl rfl rfl rfl rfl rfl h.commands
    apply Accounts.failLegacy
    dsimp only
    split
    · exact closed.dispose
    · exact closed

theorem Accounts.lose {permanent : Bool} (h : Accounts t) : Accounts (t.lose gid permanent) := by
  unfold Transport.lose
  split
  · exact h
  · split
    · exact h.fatal
    · rename_i g _ _
      have disposed : Accounts (t.dispose g) := h.dispose
      exact disposed.congr rfl rfl rfl rfl rfl rfl rfl rfl disposed.commands

theorem Accounts.connect {nonce : String} (h : Accounts t) : Accounts (t.connect nonce) := by
  unfold Transport.connect
  split
  · exact h
  · refine h.congr rfl rfl rfl rfl rfl rfl rfl rfl fun g is => ?_
    cases is
    exact buffered_empty rfl rfl

theorem live_some {g : Generation} (is : t.live gid = some g) : t.current = some g ∧ g.id = gid := by
  unfold Transport.live at is
  obtain ⟨current, alive⟩ := Option.filter_eq_some_iff.mp is
  rw [Bool.and_eq_true, Bool.and_eq_true, beq_iff_eq] at alive
  exact ⟨current, alive.1.1⟩

theorem Accounts.live {g : Generation} (h : Accounts t) (is : t.live gid = some g) : Buffered g :=
  h.commands g (live_some is).1

/-! ## Messages -/

theorem Accounts.probe {id : String} {now : Int} (h : Accounts t) :
    Accounts (t.probe gid id now) := by
  unfold Transport.probe
  split
  · exact h
  · rename_i g is
    split
    · exact h
    · have buffered := h.live is
      exact h.setCurrent ⟨buffered.bytes, buffered.most⟩

theorem Accounts.onReady {p : Transport.ReadyPayload} {probeId : String} {now : Int}
    (h : Accounts t) : Accounts (t.onReady o gid p probeId now) := by
  unfold Transport.onReady
  split
  · exact h
  · rename_i g is
    split
    · exact h.lose
    · split
      · split
        · exact h.lose
        · exact h
      · split
        · exact h.lose
        · have buffered := h.live is
          apply Accounts.probe
          exact h.setCurrent ⟨buffered.bytes, buffered.most⟩

theorem Accounts.onPong {nodeId sessionId probeId : String} {now : Int} (h : Accounts t) :
    Accounts (t.onPong o gid nodeId sessionId probeId now) := by
  unfold Transport.onPong
  split
  · exact h
  · rename_i g is
    have buffered := h.live is
    split
    · split
      · exact h
      · split
        · exact h.lose
        · split
          · exact h.setCurrent ⟨buffered.bytes, buffered.most⟩
          · split
            · apply Accounts.lose
              exact h.setCurrent ⟨buffered.bytes, buffered.most⟩
            · exact h.setCurrent ⟨buffered.bytes, buffered.most⟩
    · exact h

theorem Accounts.onCommand {bytes : Int} (h : Accounts t) : Accounts (t.onCommand gid bytes) := by
  unfold Transport.onCommand
  split
  · exact h
  · rename_i g is
    split
    · exact h.lose
    · split
      · exact h
      · split
        · exact h.lose
        · rename_i room
          have buffered := h.live is
          have bytes_eq := buffered.bytes
          apply h.setCurrent
          constructor
          · simp [bytes_eq]
          · simp only [List.length_append, List.length_singleton]
            omega

theorem Accounts.qualify (h : Accounts t) : Accounts (t.qualify gid) := by
  unfold Transport.qualify
  split
  · exact h
  · exact h.congr rfl rfl rfl rfl rfl rfl rfl rfl h.commands

theorem Accounts.drain (h : Accounts t) : Accounts (t.drain gid) := by
  unfold Transport.drain
  split
  · exact h
  · exact h.setCurrent (buffered_empty rfl rfl)

/-- The acknowledgement is the last event, and the entry was written in its generation. -/
theorem answered_acked {p : Nat} {status : Status} {g : Nat}
    (wrote : .wrote p identity g ∈ t.trace) :
    Answered (t.log (.acked g identity status)) p (.status status) := by
  intro accepted
  cases accepted
  exact ⟨g, identity, t.trace, rfl, wrote⟩

theorem Accounts.onAck {status : Status} {now : Int} (h : Accounts t) :
    Accounts (t.onAck o gid identity status now) := by
  unfold Transport.onAck
  split
  · exact h
  · rename_i g is
    have received : Accounts (t.log (.acked g.id identity status)) := h.acked
    dsimp only
    split
    · split
      · exact received
      · rename_i item found
        have key : item.identity = identity := Table.key_of_get? found
        split
        · exact received
        · rename_i sent
          split
          · exact received.settleLegacy fun _ _ => answered_error
          · apply received.settleLegacy
            intro item' found'
            cases found.symm.trans found'
            have wrote := h.legacy.wrote item (Table.mem_of_get? found) g.id (not_not.mp sent)
            rw [key] at wrote
            exact answered_acked wrote
    · split
      · exact received
      · split
        · exact received
        · rename_i item found
          have key : item.identity = identity := Table.key_of_get? found
          split
          · exact received
          · rename_i matching
            rw [Bool.or_eq_true, decide_eq_true_eq, Bool.not_eq_true', not_or, not_not,
              Bool.not_eq_false] at matching
            apply received.settleReceipt
            intro item' found'
            cases found.symm.trans found'
            have wrote := h.receipts.wrote item (Table.mem_of_get? found) matching.2
            rw [key, matching.1] at wrote
            exact answered_acked wrote

/-! ## Sends -/

theorem refuse_bind_ok {α : Type} {refused : Bool} {message : String}
    {rest : Unit → Except String α} {x : α} :
    (refuse refused message >>= rest) = .ok x ↔ refused = false ∧ rest () = .ok x := by
  unfold refuse
  cases refused
  · simp [bind, Except.bind]
  · simp [bind, Except.bind]

theorem Accounts.attempt {c : Call} (h : Accounts t)
    (ok : ∀ t', c = .ok t' → Accounts t') : Accounts (t.attempt c) := by
  unfold Transport.attempt
  cases is : c with
  | ok t' => exact ok t' is
  | error _ => exact h

theorem Numbered.more (h : Numbered t) (same : t'.trace = e :: t.trace)
    (promises : t'.promises = t.promises + 1) (mine : ∀ p, e.promise = some p → p < t.promises + 1)
    (receipts : ∀ item ∈ t'.receiptObservers, item.promise < t.promises + 1)
    (legacy : ∀ item ∈ t'.legacyPending, item.promise < t.promises + 1) : Numbered t' := by
  constructor
  · rw [same, promises]
    intro e' there p is
    rcases List.mem_cons.mp there with rfl | old
    · exact mine p is
    · exact Nat.lt_succ_of_lt (h.trace e' old p is)
  · rw [promises]
    exact receipts
  · rw [promises]
    exact legacy

/-- The next promise is a new one. -/
theorem Numbered.own (h : Numbered t) : ∀ e ∈ t.trace, e.promise ≠ some t.promises :=
  fun e there is => Nat.lt_irrefl _ (h.trace e there t.promises is)

theorem bytes_nonneg : 0 ≤ m.bytes := Int.natCast_nonneg _

theorem Accounts.bindRun {runId : String} {mode : RunDeliveryMode} (h : Accounts t)
    (is : t.bindRun o runId mode = .ok t') : Accounts t' := by
  unfold Transport.bindRun at is
  simp only [refuse_bind_ok] at is
  obtain ⟨-, -, -, -, is⟩ := is
  cases is
  refine ⟨h.receipts.congr (longer_refl rfl) rfl rfl, h.legacy.congr (longer_refl rfl) rfl rfl, ?_,
    ⟨h.numbered.trace, h.numbered.receipts, h.numbered.legacy⟩, h.commands, h.history⟩
  constructor
  · intro id sequence there
    obtain ⟨last, known, most⟩ := h.sequences.last id sequence there
    refine ⟨last, ?_, most⟩
    dsimp only
    rw [if_neg]
    · exact known
    · rintro ⟨rfl, -, unbound⟩
      rw [h.sequences.bound id unbound] at known
      cases known
  · intro id unbound
    dsimp only at unbound ⊢
    split at unbound
    · cases unbound
    · rename_i other
      rw [if_neg fun hit => other hit.1]
      exact h.sequences.bound id unbound

theorem Accounts.takeSequence (h : Accounts t)
    (above : ∀ last, t.legacySequences m.runId = some last → last < m.sequence)
    (bound : t.runModes m.runId ≠ none) : Accounts (t.takeSequence m) := by
  have earlier : ∀ sequence, .sequenced m.runId sequence ∈ t.trace → sequence < m.sequence := by
    intro sequence there
    obtain ⟨last, known, most⟩ := h.sequences.last m.runId sequence there
    exact Int.lt_of_le_of_lt most (above last known)
  have observing : ∀ p identity, .observing p identity ∈ (t.takeSequence m).trace →
      .observing p identity ∈ t.trace := by
    intro p identity there
    rcases List.mem_cons.mp there with is | old
    · cases is
    · exact old
  have kept : t.trace ⊆ (t.takeSequence m).trace := fun _ there => List.mem_cons_of_mem _ there
  constructor
  · refine ⟨h.receipts.bytes, h.receipts.most, h.receipts.sizes,
      fun item there exposed => kept (h.receipts.wrote item there exposed), fun p identity there => ?_⟩
    rcases h.receipts.observed p identity (observing p identity there) with ⟨o', done_⟩ | here
    · exact Or.inl ⟨o', kept done_⟩
    · exact Or.inr here
  · exact ⟨h.legacy.bytes, h.legacy.most, h.legacy.sizes,
      fun item there g sent => kept (h.legacy.wrote item there g sent)⟩
  · constructor
    · intro runId sequence there
      change ∃ last, (if runId = m.runId then some m.sequence else t.legacySequences runId) =
        some last ∧ sequence ≤ last
      rcases List.mem_cons.mp there with is | old
      · cases is
        exact ⟨m.sequence, if_pos rfl, Int.le_refl _⟩
      · by_cases same : runId = m.runId
        · subst same
          exact ⟨m.sequence, if_pos rfl, Int.le_of_lt (earlier sequence old)⟩
        · rw [if_neg same]
          exact h.sequences.last runId sequence old
    · intro runId unbound
      have other : runId ≠ m.runId := by
        rintro rfl
        exact bound unbound
      exact (if_neg other).trans (h.sequences.bound runId unbound)
  · exact h.numbered.cons rfl rfl nofun (fun x there => ⟨x, there, rfl⟩)
      fun x there => ⟨x, there, rfl⟩
  · exact h.commands
  · exact history_cons h.history earlier

theorem Accounts.addLegacy {now : Int} (h : Accounts t)
    (fresh : t.legacyPending.get? m.identity = none)
    (room : t.legacyPending.rows.length < maxLegacyEvents)
    (bytes : t.legacyPendingBytes + m.bytes ≤ maxLegacyBytes) : Accounts (t.addLegacy m now) := by
  have entry : t.legacyPending.get? (Transport.legacyEntry m now t.promises).identity = none := fresh
  have longer : Longer t (t.addLegacy m now) := longer_cons rfl trivial
  refine ⟨h.receipts.congr longer rfl rfl, ?_, h.sequences.congr longer rfl rfl, ?_, h.commands, ?_⟩
  · constructor
    · have sum : (t.addLegacy m now).legacyPending.total (·.bytes) =
          t.legacyPending.total (·.bytes) + m.bytes := Table.total_put_fresh entry
      rw [sum, ← h.legacy.bytes]
      rfl
    · refine ⟨?_, bytes⟩
      have more : (t.addLegacy m now).legacyPending.rows.length =
          t.legacyPending.rows.length + 1 := Table.length_put_fresh entry
      omega
    · intro item there
      rcases Table.mem_put.mp there with rfl | ⟨old, -⟩
      · exact bytes_nonneg
      · exact h.legacy.sizes item old
    · intro item there g sent
      rcases Table.mem_put.mp there with rfl | ⟨old, -⟩
      · cases sent
      · exact longer.kept (h.legacy.wrote item old g sent)
  · apply h.numbered.more rfl rfl
    · rintro p ⟨⟩
      exact Nat.lt_succ_self _
    · exact fun item there => Nat.lt_succ_of_lt (h.numbered.receipts item there)
    · intro item there
      rcases Table.mem_put.mp there with rfl | ⟨old, -⟩
      · exact Nat.lt_succ_self _
      · exact Nat.lt_succ_of_lt (h.numbered.legacy item old)
  · exact history_cons h.history h.numbered.own

theorem Accounts.sendLegacyPending {now : Int} {socketOpen : Bool} (h : Accounts t) :
    Accounts (t.sendLegacyPending gid identity now socketOpen) := by
  unfold Transport.sendLegacyPending
  split
  · rename_i item g found is
    have key : item.identity = identity := Table.key_of_get? found
    subst key
    split
    · exact h
    · split
      · exact h.settleLegacy fun _ _ => answered_error
      · have there : t.legacyPending.get? { item with sentGeneration := some g.id }.identity =
            some item := found
        have numbered := h.numbered.legacy item (Table.mem_of_get? found)
        refine h.settled rfl trivial trivial (h.receipts.congr (longer_cons rfl trivial) rfl rfl) ?_
          (h.numbered.cons rfl rfl ?_ (fun x there => ⟨x, there, rfl⟩) ?_) rfl rfl rfl
        · constructor
          · have sum : (t.legacyPending.put { item with sentGeneration := some g.id }).total
                (·.bytes) = t.legacyPending.total (·.bytes) := Table.total_put_there there rfl
            exact h.legacy.bytes.trans sum.symm
          · have count : (t.legacyPending.put { item with
                sentGeneration := some g.id }).rows.length = t.legacyPending.rows.length :=
              Table.length_put_there there
            exact ⟨Nat.le_trans (Nat.le_of_eq count) h.legacy.most.1, h.legacy.most.2⟩
          · intro x member
            rcases Table.mem_put.mp member with rfl | ⟨old, -⟩
            · exact h.legacy.sizes item (Table.mem_of_get? found)
            · exact h.legacy.sizes x old
          · intro x member g' sent
            rcases Table.mem_put.mp member with rfl | ⟨old, -⟩
            · cases sent
              exact List.mem_cons_self
            · exact List.mem_cons_of_mem _ (h.legacy.wrote x old g' sent)
        · rintro p ⟨⟩
          exact numbered
        · intro x member
          rcases Table.mem_put.mp member with rfl | ⟨old, -⟩
          · exact ⟨item, Table.mem_of_get? found, rfl⟩
          · exact ⟨x, old, rfl⟩
  · exact h

theorem Accounts.send {bestEffort socketOpen : Bool} {now : Int} (h : Accounts t)
    (is : t.send o m bestEffort now socketOpen = .ok t') : Accounts t' := by
  unfold Transport.send Transport.sendLegacy Transport.assertRunMode at is
  simp only [refuse_bind_ok] at is
  obtain ⟨mixed, -, -, -, mode, -, -, is⟩ := is
  have bound : t.runModes m.runId ≠ none := by
    intro unbound
    rw [unbound] at mode
    rw [Bool.not_eq_false'] at mixed
    rw [mixed] at mode
    cases mode
  split at is
  · simp only [refuse_bind_ok] at is
    cases is.2.2
  · rename_i fresh
    simp only [refuse_bind_ok] at is
    obtain ⟨room, above, is⟩ := is
    have taken : Accounts (t.takeSequence m) := by
      apply h.takeSequence ?_ bound
      intro last known
      rw [known] at above
      simpa using above
    split at is
    · cases is
      exact taken
    · rename_i required
      have fits : t.legacyPending.rows.length < maxLegacyEvents ∧
          t.legacyPendingBytes + m.bytes ≤ maxLegacyBytes := by
        simp only [Bool.not_eq_true] at required
        simp only [required, Bool.not_false, Bool.true_and, Bool.or_eq_false_iff,
          decide_eq_false_iff_not] at room
        omega
      have added : Accounts ((t.takeSequence m).addLegacy m now) :=
        taken.addLegacy fresh fits.1 fits.2
      split at is
      · cases is
        exact added.sendLegacyPending
      · cases is
        exact added

theorem Accounts.observe {g : Generation} {hash : String} (h : Accounts t)
    (fresh : t.receiptObservers.get? m.identity = none) (room : t.hasCapacity m.bytes = true) :
    Accounts (t.observe g m hash) := by
  unfold Transport.hasCapacity at room
  rw [Bool.and_eq_true, decide_eq_true_eq, decide_eq_true_eq] at room
  have kept : t.trace ⊆ (t.observe g m hash).trace := fun _ there => List.mem_cons_of_mem _ there
  have others : ∀ x ∈ t.receiptObservers, x ∈ (t.observe g m hash).receiptObservers :=
    fun x there => Table.mem_put.mpr (Or.inr ⟨there, Table.get?_eq_none.mp fresh x there⟩)
  constructor
  · constructor
    · have sum : (t.observe g m hash).receiptObservers.total (·.bytes) =
          t.receiptObservers.total (·.bytes) + m.bytes := Table.total_put_fresh fresh
      rw [sum, ← h.receipts.bytes]
      rfl
    · refine ⟨?_, room.2⟩
      have more : (t.observe g m hash).receiptObservers.rows.length =
          t.receiptObservers.rows.length + 1 := Table.length_put_fresh fresh
      omega
    · intro item there
      rcases Table.mem_put.mp there with rfl | ⟨old, -⟩
      · exact bytes_nonneg
      · exact h.receipts.sizes item old
    · intro item there exposed
      rcases Table.mem_put.mp there with rfl | ⟨old, -⟩
      · cases exposed
      · exact kept (h.receipts.wrote item old exposed)
    · intro p identity there
      rcases List.mem_cons.mp there with is | old
      · cases is
        exact Or.inr ⟨_, Table.mem_put.mpr (Or.inl rfl), rfl, rfl⟩
      · rcases h.receipts.observed p identity old with ⟨o', done_⟩ | ⟨x, member, is⟩
        · exact Or.inl ⟨o', kept done_⟩
        · exact Or.inr ⟨x, others x member, is⟩
  · exact ⟨h.legacy.bytes, h.legacy.most, h.legacy.sizes,
      fun item there g sent => kept (h.legacy.wrote item there g sent)⟩
  · refine ⟨fun runId sequence there => ?_, h.sequences.bound⟩
    rcases List.mem_cons.mp there with is | old
    · cases is
    · exact h.sequences.last runId sequence old
  · apply h.numbered.more rfl rfl
    · rintro p ⟨⟩
      exact Nat.lt_succ_self _
    · intro item there
      rcases Table.mem_put.mp there with rfl | ⟨old, -⟩
      · exact Nat.lt_succ_self _
      · exact Nat.lt_succ_of_lt (h.numbered.receipts item old)
    · exact fun item there => Nat.lt_succ_of_lt (h.numbered.legacy item there)
  · exact h.commands
  · exact history_cons h.history h.numbered.own

theorem Accounts.expose (h : Accounts t) : Accounts (t.expose identity) := by
  unfold Transport.expose
  split
  · exact h
  · rename_i item found
    have key : item.identity = identity := Table.key_of_get? found
    subst key
    have there : t.receiptObservers.get? { item with exposed := true }.identity = some item := found
    have member := Table.mem_of_get? found
    have numbered := h.numbered.receipts item member
    refine h.settled rfl trivial trivial ?_ (h.legacy.congr (longer_cons rfl trivial) rfl rfl)
      (h.numbered.cons rfl rfl ?_ ?_ fun x there => ⟨x, there, rfl⟩) rfl rfl rfl
    · constructor
      · have sum : (t.receiptObservers.put { item with exposed := true }).total (·.bytes) =
            t.receiptObservers.total (·.bytes) := Table.total_put_there there rfl
        exact h.receipts.bytes.trans sum.symm
      · have count : (t.receiptObservers.put { item with exposed := true }).rows.length =
            t.receiptObservers.rows.length := Table.length_put_there there
        exact ⟨Nat.le_trans (Nat.le_of_eq count) h.receipts.most.1, h.receipts.most.2⟩
      · intro x inside
        rcases Table.mem_put.mp inside with rfl | ⟨old, -⟩
        · exact h.receipts.sizes item member
        · exact h.receipts.sizes x old
      · intro x inside exposed
        rcases Table.mem_put.mp inside with rfl | ⟨old, -⟩
        · exact List.mem_cons_self
        · exact List.mem_cons_of_mem _ (h.receipts.wrote x old exposed)
      · intro p identity observing
        have old : .observing p identity ∈ t.trace := by
          rcases List.mem_cons.mp observing with is | old
          · cases is
          · exact old
        rcases h.receipts.observed p identity old with ⟨o', done_⟩ | ⟨x, inside, promise, same⟩
        · exact Or.inl ⟨o', List.mem_cons_of_mem _ done_⟩
        · right
          by_cases hit : x.identity = item.identity
          · have is : x = item := Table.key_inj inside member hit
            subst is
            exact ⟨_, Table.mem_put.mpr (Or.inl rfl), promise, same⟩
          · exact ⟨x, Table.mem_put.mpr (Or.inr ⟨inside, hit⟩), promise, same⟩
    · rintro p ⟨⟩
      exact numbered
    · intro x inside
      rcases Table.mem_put.mp inside with rfl | ⟨old, -⟩
      · exact ⟨item, member, rfl⟩
      · exact ⟨x, old, rfl⟩

theorem Accounts.exposeOnce {c : Transport.ManagedExposureContext} {aborted socketOpen : Bool}
    {now : Int} {again : Transport.Again} (h : Accounts t)
    (is : t.exposeOnce o m c aborted now socketOpen again = .ok t') : Accounts t' := by
  unfold Transport.exposeOnce Transport.assertRunMode at is
  simp only [refuse_bind_ok] at is
  obtain ⟨-, is⟩ := is
  cases session : t.assertSession socketOpen with
  | error e =>
    rw [session] at is
    cases is
  | ok g =>
    rw [session] at is
    change (refuse _ _ >>= _) = _ at is
    simp only [refuse_bind_ok] at is
    obtain ⟨-, -, -, -, is⟩ := is
    split at is
    · cases is
    · rename_i fresh
      simp only [refuse_bind_ok] at is
      obtain ⟨room, -, is⟩ := is
      have observed : Accounts (t.observe g m c.contentSha256) :=
        h.observe fresh (by simpa using room)
      split at is
      · cases is
        exact observed.settleReceipt fun _ _ => answered_error
      · cases is
        exact observed.expose

/-! ## Runs -/

theorem accounts_step (op : Op) (h : Accounts t) : Accounts (t.step o op) := by
  cases op with
  | bindRun runId mode => exact h.attempt fun _ is => h.bindRun is
  | send m bestEffort now socketOpen => exact h.attempt fun _ is => h.send is
  | flush gid identity now socketOpen => exact h.sendLegacyPending
  | retentionTimeout identity => exact h.settleLegacy fun _ _ => answered_error
  | exposeOnce m c aborted now socketOpen again => exact h.attempt fun _ is => h.exposeOnce is
  | retire identity => exact h.settleReceipt fun _ _ => answered_error
  | start nonce =>
    change Accounts (t.start nonce)
    unfold Transport.start
    split
    · exact h
    · apply Accounts.connect
      exact h.congr rfl rfl rfl rfl rfl rfl rfl rfl h.commands
  | connectAgain nonce =>
    change Accounts (t.connectAgain nonce)
    unfold Transport.connectAgain
    split
    · apply Accounts.connect
      exact h.congr rfl rfl rfl rfl rfl rfl rfl rfl h.commands
    · exact h
  | opened gid now =>
    change Accounts (t.opened gid now)
    unfold Transport.opened
    split
    · exact h
    · rename_i g is
      have buffered := h.live is
      exact h.setCurrent ⟨buffered.bytes, buffered.most⟩
  | ready gid p probeId now => exact h.onReady
  | probe gid id now => exact h.probe
  | pong gid nodeId sessionId probeId now => exact h.onPong
  | qualify gid => exact h.qualify
  | drain gid => exact h.drain
  | ack gid identity status now => exact h.onAck
  | command gid bytes => exact h.onCommand
  | lose gid permanent => exact h.lose
  | close => exact h.fatal

theorem accounts_start : Accounts {} := by
  constructor
  · exact ⟨rfl, by decide, nofun, nofun, nofun⟩
  · exact ⟨rfl, by decide, nofun, nofun⟩
  · exact ⟨nofun, fun _ _ => rfl⟩
  · exact ⟨nofun, nofun, nofun⟩
  · exact nofun
  · intro later e before is
    cases later with
    | nil => cases is
    | cons _ _ => cases is

theorem accounts_run (ops : List Op) : Accounts (Transport.run o ops) := by
  unfold Transport.run
  have from_here : ∀ t, Accounts t → Accounts (ops.foldl (Transport.step o) t) := by
    induction ops with
    | nil => exact fun _ h => h
    | cons op rest ih => exact fun t h => ih _ (accounts_step op h)
  exact from_here {} accounts_start

/-- The promise of an entry that waits. -/
def Transport.Waiting (t : Transport) (p : Nat) : Prop := ∀ outcome, .settled p outcome ∉ t.trace

theorem managed_transport (o : Options) (ops : List Op) :
    let t := Transport.run o ops
    (t.receiptBytes = (t.receiptObservers.rows.map (·.bytes)).sum ∧
      t.receiptBytes ≤ maxReceiptBytes ∧ t.receiptObservers.rows.length ≤ maxReceipts) ∧
    (t.legacyPendingBytes = (t.legacyPending.rows.map (·.bytes)).sum ∧
      t.legacyPendingBytes ≤ maxLegacyBytes ∧ t.legacyPending.rows.length ≤ maxLegacyEvents) ∧
    (∀ g, t.current = some g → g.commandBytes = g.commands.sum ∧
      g.commandBytes ≤ maxCommandBytes ∧ g.commands.length ≤ maxCommands) ∧
    (∀ later p before, t.trace = later ++ .settled p (.status .accepted) :: before →
      ∃ g identity rest, before = .acked g identity .accepted :: rest ∧
        .wrote p identity g ∈ rest) ∧
    (∀ later p identity before, t.trace = later ++ .observing p identity :: before ∨
      t.trace = later ++ .pending p identity :: before → ∀ e ∈ before, e.promise ≠ some p) ∧
    (∀ p q identity, .observing p identity ∈ t.trace → .observing q identity ∈ t.trace →
      t.Waiting p → t.Waiting q → p = q) ∧
    ∀ later runId sequence before, t.trace = later ++ .sequenced runId sequence :: before →
      ∀ earlier, .sequenced runId earlier ∈ before → earlier < sequence := by
  intro t
  have h : Accounts t := accounts_run ops
  refine ⟨⟨h.receipts.bytes, h.receipts.most.2, h.receipts.most.1⟩,
    ⟨h.legacy.bytes, h.legacy.most.2, h.legacy.most.1⟩, fun g is => ?_, ?_, ?_, ?_, ?_⟩
  · have buffered := h.commands g is
    exact ⟨buffered.bytes, buffered.most.2, buffered.most.1⟩
  · exact fun later p before is => h.history later _ before is
  · intro later p identity before is
    rcases is with is | is
    · exact h.history later _ before is
    · exact h.history later _ before is
  · intro p q identity first second waiting waiting'
    have open_ : ∀ p, .observing p identity ∈ t.trace → t.Waiting p →
        ∃ item ∈ t.receiptObservers, item.promise = p ∧ item.identity = identity := by
      intro p there waiting
      rcases h.receipts.observed p identity there with ⟨outcome, done_⟩ | here
      · exact absurd done_ (waiting outcome)
      · exact here
    obtain ⟨x, inside, rfl, same⟩ := open_ p first waiting
    obtain ⟨y, inside', rfl, same'⟩ := open_ q second waiting'
    exact congrArg _ (Table.key_inj inside inside' (same.trans same'.symm))
  · exact fun later runId sequence before is => h.history later _ before is

example :
    let o : Options := ⟨"n", "node", false, id⟩
    let ready : Transport.ReadyPayload :=
      ⟨1, "node", "nonce", "run-event-body-v1", 2147483647, 10000, 10000, "session", "ready"⟩
    let m : RunEventMessage := ⟨"node", "run", 0, .output, "body", "frame"⟩
    let c : Transport.ManagedExposureContext :=
      ⟨"n", "node", "run", "event", 0, "body", "attempt", "clock", 50⟩
    (Transport.run o [.start "nonce", .opened 1 1, .ready 1 ready "probe" 2,
      .pong 1 "node" "session" "probe" 3, .exposeOnce m c false 4 true ⟨false, true, 5⟩,
      .ack 1 ("run", 0) .accepted 6]).trace =
    [.settled 0 (.status .accepted), .acked 1 ("run", 0) .accepted, .wrote 0 ("run", 0) 1,
      .observing 0 ("run", 0)] := by
  decide +kernel

end Artoo.Node
