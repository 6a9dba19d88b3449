import Artoo.Lib.Decimal
import Mathlib.Data.List.Induction
import Mathlib.Data.List.Perm.Basic
import Mathlib.Data.List.Range

/-! The transport of a node over a WebSocket: its frames wait for their receipts. -/
namespace Artoo.Node.LegacyTransport

abbrev Text := List Char

inductive EventType where
  | output | retained | other
  deriving DecidableEq

/-- `π` stands for the rest of a frame. -/
inductive Message (π : Type) where
  | hello (rest : π)
  | heartbeat (rest : π)
  | commandAck (rest : π)
  | runEvent (runId : Text) (sequence : ℕ) (type : EventType) (rest : π)

inductive Delivery where
  | required | bestEffort

inductive Outcome where
  | resolved
  | rejected (error : Text)
  deriving DecidableEq

/-- A pending frame: the send whose promise it holds is the `ticket`-th. -/
structure Item (π : Type) where
  message : Message π
  ticket : ℕ
  enqueuedAt : ℕ
  retentionTimer : Bool

structure Settled (π : Type) where
  item : Item π
  outcome : Outcome
  settledAt : ℕ

inductive ReadyState where
  | connecting | opened | closing | closed
  deriving DecidableEq

structure World (π : Type) where
  /-- the `Map`, in the order of its insertions -/
  pending : List (Text × Item π) := []
  counter : ℕ := 0
  closed : Bool := false
  connectedOnce : Bool := false
  reconnecting : Bool := false
  readyState : ReadyState := .connecting
  /-- what the socket has been given -/
  written : List (Message π) := []
  tickets : ℕ := 0
  settled : List (Settled π) := []
  steps : ℕ := 0

structure Options (π : Type) where
  hello : Message π
  acknowledgeRunEvents : Bool
  retentionReceiptTimeoutMs : ℕ := 30000

section Transport

variable {π : Type}

def Message.isRetained : Message π → Bool
  | .runEvent _ _ .retained _ => true
  | _ => false

def Message.isOutput : Message π → Bool
  | .runEvent _ _ .output _ => true
  | _ => false

def Message.isHeartbeat : Message π → Bool
  | .heartbeat _ => true
  | _ => false

/-- The run and the sequence of a run event. -/
def Message.event : Message π → Option (Text × ℕ)
  | .runEvent runId sequence _ _ => some (runId, sequence)
  | _ => none

def eventKey (runId : Text) (sequence : ℕ) : Text := runId ++ ':' :: Nat.toDigits 10 sequence

def frameKey (n : ℕ) : Text := "frame:".toList ++ Nat.toDigits 10 n

def get (key : Text) (pending : List (Text × Item π)) : Option (Item π) :=
  (pending.find? (·.1 == key)).map (·.2)

/-- A key that is there keeps its place. -/
def set (key : Text) (item : Item π) (pending : List (Text × Item π)) : List (Text × Item π) :=
  if pending.any (·.1 == key) then
    pending.map fun entry => if entry.1 == key then (key, item) else entry
  else pending ++ [(key, item)]

def delete (key : Text) (pending : List (Text × Item π)) : List (Text × Item π) :=
  pending.eraseP (·.1 == key)

def settle (item : Item π) (outcome : Outcome) (w : World π) : World π :=
  { w with settled := w.settled ++ [⟨item, outcome, w.steps⟩] }

def settlePending (key : Text) (outcome : Outcome) (w : World π) : World π :=
  match get key w.pending with
  | none => w
  | some item => settle item outcome { w with pending := delete key w.pending }

def failPending (error : Text) (w : World π) : World π :=
  (w.pending.map (·.1)).foldl (fun w key => settlePending key (.rejected error) w) w

def write (message : Message π) (w : World π) : World π :=
  { w with written := w.written ++ [message] }

/-- It throws unless the socket is open. -/
def sendRaw (message : Message π) (w : World π) : Option (World π) :=
  if w.readyState = .opened then some (write message w) else none

def sendOpen (message : Message π) (w : World π) : World π := (sendRaw message w).getD w

/-- The send waits for a receipt. -/
def awaits (o : Options π) (message : Message π) : Bool :=
  message.event.isSome && o.acknowledgeRunEvents

def flushFrom (o : Options π) : List (Text × Item π) → World π → World π
  | [], w => w
  | (key, item) :: rest, w =>
    match sendRaw item.message w with
    | none => w
    | some w => flushFrom o rest (if awaits o item.message then w else settlePending key .resolved w)

def flush (o : Options π) (w : World π) : World π := flushFrom o w.pending w

/-- The promise of a send that is settled at once. -/
def settleNow (message : Message π) (outcome : Outcome) (w : World π) : World π :=
  settle ⟨message, w.tickets, w.steps, false⟩ outcome { w with tickets := w.tickets + 1 }

def keyOf (w : World π) : Message π → Text
  | .runEvent runId sequence _ _ => eventKey runId sequence
  | _ => frameKey w.counter

def countFrame (message : Message π) (w : World π) : World π :=
  if message.event.isSome then w else { w with counter := w.counter + 1 }

def enqueue (o : Options π) (key : Text) (message : Message π) (w : World π) : World π :=
  let item := ⟨message, w.tickets, w.steps, message.isRetained && o.acknowledgeRunEvents⟩
  { w with pending := set key item w.pending, tickets := w.tickets + 1 }

def sendBestEffort (message : Message π) (w : World π) : World π :=
  if !message.isOutput || w.closed || (get (keyOf w message) w.pending).isSome then w
  else sendOpen message w

def bufferFull : Text := "node event delivery buffer is full".toList
def alreadyPending : Text := "workspace retention event is already pending".toList

/-- A frame that cannot be sent now waits for the next socket. -/
def sendEnqueued (o : Options π) (key : Text) (message : Message π) (w : World π) : World π :=
  match sendRaw message w with
  | none => w
  | some w => if awaits o message then w else settlePending key .resolved w

def timedOut (o : Options π) : Text :=
  s!"workspace retention receipt timed out after {o.retentionReceiptTimeoutMs}ms".toList

def sendRequired (o : Options π) (message : Message π) (w : World π) : World π :=
  if w.closed then settleNow message (.rejected "websocket is closed".toList) w
  else if message.isHeartbeat then settleNow message .resolved (sendOpen message w)
  else if 1000 ≤ w.pending.length then settleNow message (.rejected bufferFull) w
  else
    let key := keyOf w message
    let w' := countFrame message w
    if (get key w.pending).any fun previous => message.isRetained || previous.message.isRetained then
      settleNow message (.rejected alreadyPending) w'
    else sendEnqueued o key message (enqueue o key message w')

/-! ## The steps -/

inductive Step (π : Type) where
  | send (message : Message π) (delivery : Delivery)
  /-- the socket is open -/
  | opened
  /-- a `run.event.ack`, accepted or not -/
  | receipt (runId : Text) (sequence : ℕ) (accepted : Bool) (message : Option Text)
  /-- the socket is no longer open, and its close event is still to come -/
  | closing
  | closeEvent (policy : Bool)
  | reconnectTimer
  | heartbeatTimer (beat : Message π)
  | retentionTimer (key : Text)
  | close

def onOpen (o : Options π) (w : World π) : World π :=
  if w.closed then { w with readyState := .closing }
  else flush o { w with connectedOnce := true, readyState := .opened, written := [o.hello] }

def onClose (policy : Bool) (w : World π) : World π :=
  if w.closed then w
  else if !w.connectedOnce || policy then
    failPending (if w.connectedOnce then "node credential rejected or revoked".toList
      else "websocket closed before ready".toList) { w with closed := true }
  else { w with reconnecting := true }

/-- What cannot happen in a state changes nothing. -/
def perform (o : Options π) : Step π → World π → World π
  | .send message .required, w => sendRequired o message w
  | .send message .bestEffort, w => sendBestEffort message w
  | .opened, w => if w.readyState = .connecting then onOpen o w else w
  | .receipt runId sequence accepted message, w =>
    settlePending (eventKey runId sequence)
      (if accepted then .resolved else .rejected (message.getD "run event rejected".toList)) w
  | .closing, w => if w.readyState = .opened then { w with readyState := .closing } else w
  | .closeEvent policy, w =>
    if w.readyState = .closed then w else onClose policy { w with readyState := .closed }
  | .reconnectTimer, w =>
    if w.reconnecting then
      let w := { w with reconnecting := false }
      if w.closed then w else { w with readyState := .connecting, written := [] }
    else w
  | .heartbeatTimer beat, w => sendOpen beat w
  | .retentionTimer key, w =>
    if (get key w.pending).any (·.retentionTimer) then
      settlePending key (.rejected (timedOut o)) w
    else w
  | .close, w =>
    let w := failPending "websocket closed".toList { w with closed := true, reconnecting := false }
    if w.readyState = .closed then w else { w with readyState := .closing }

def step (o : Options π) (w : World π) (s : Step π) : World π :=
  let w := perform o s w
  { w with steps := w.steps + 1 }

def run (o : Options π) (steps : List (Step π)) : World π := steps.foldl (step o) {}

/-! ## What holds of every run -/

/-- The send takes the key of a frame that is pending. -/
def Replaces (w : World π) : Step π → Prop
  | .send message .required => w.closed = false ∧ message.isHeartbeat = false ∧
      w.pending.length < 1000 ∧ ∃ previous, get (keyOf w message) w.pending = some previous ∧
        (message.isRetained || previous.message.isRetained) = false
  | _ => False

/-- With what was done before, the last step among it. -/
structure Kept (history : List (Step π)) (w : World π) : Prop where
  keys : (w.pending.map (·.1)).Nodup
  order : (w.pending.map (·.2.ticket)).Pairwise (· < ·)
  once : (w.pending.map (·.2.ticket) ++ w.settled.map (·.item.ticket)).Perm (List.range w.tickets)
  few : w.pending.length ≤ 1000
  keyed : ∀ entry ∈ w.pending, ∀ runId sequence,
    entry.2.message.event = some (runId, sequence) → entry.1 = eventKey runId sequence
  sent : ∀ entry ∈ w.pending,
    history[entry.2.enqueuedAt]? = some (.send entry.2.message .required)
  receipts : ∀ s ∈ w.settled, s.outcome = .resolved → ∀ runId sequence,
    s.item.message.event = some (runId, sequence) →
      (∃ message, history[s.settledAt]? = some (.receipt runId sequence true message)) ∧
        s.item.enqueuedAt < s.settledAt ∧
        history[s.item.enqueuedAt]? = some (.send s.item.message .required)

section Moves

variable {o : Options π} {history : List (Step π)} {w w' : World π} {item : Item π} {key : Text}
  {outcome : Outcome} {message : Message π}

/-- Nothing of a world that promises are about. -/
structure Same (w w' : World π) : Prop where
  pending : w'.pending = w.pending
  settled : w'.settled = w.settled
  tickets : w'.tickets = w.tickets

theorem Kept.same (kept : Kept history w) (same : Same w w') : Kept history w' := by
  refine ⟨?_, ?_, ?_, ?_, ?_, ?_, ?_⟩
  · rw [same.pending]; exact kept.keys
  · rw [same.pending]; exact kept.order
  · rw [same.pending, same.settled, same.tickets]; exact kept.once
  · rw [same.pending]; exact kept.few
  · rw [same.pending]; exact kept.keyed
  · rw [same.pending]; exact kept.sent
  · rw [same.settled]; exact kept.receipts

theorem Kept.later (kept : Kept history w) (s : Step π) : Kept (history ++ [s]) w := by
  have more : ∀ {i : ℕ} {t : Step π}, history[i]? = some t → (history ++ [s])[i]? = some t := by
    intro i t is
    have small : i < history.length := (List.getElem?_eq_some_iff.mp is).1
    rw [List.getElem?_append_left small]
    exact is
  refine ⟨kept.keys, kept.order, kept.once, kept.few, kept.keyed, ?_, ?_⟩
  · intro entry among
    exact more (kept.sent entry among)
  · intro done among resolved runId sequence event
    obtain ⟨⟨message, received⟩, before, sent⟩ := kept.receipts done among resolved _ _ event
    exact ⟨⟨message, more received⟩, before, more sent⟩

/-- The entry of a key, among the others. -/
theorem get_eq_some (is : get key w.pending = some item) :
    ∃ before after, w.pending = before ++ (key, item) :: after ∧
      delete key w.pending = before ++ after := by
  obtain ⟨⟨found, item'⟩, there, rfl⟩ := Option.map_eq_some_iff.mp is
  obtain ⟨this, before, after, split, none_⟩ := List.find?_eq_some_iff_append.mp there
  have same : found = key := beq_iff_eq.mp this
  subst same
  refine ⟨before, after, split, ?_⟩
  unfold delete
  rw [split, List.eraseP_append_right _ (fun entry among off => by
    have is := none_ entry among
    rw [off] at is
    cases is), List.eraseP_cons_of_pos (p := fun entry : Text × Item π => entry.1 == found) this]

theorem Kept.settlePending (kept : Kept history w)
    (receipt : ∀ item, get key w.pending = some item → outcome = .resolved → ∀ runId sequence,
      item.message.event = some (runId, sequence) →
        (∃ message, history[w.steps]? = some (.receipt runId sequence true message)) ∧
          item.enqueuedAt < w.steps) :
    Kept history (settlePending key outcome w) := by
  unfold LegacyTransport.settlePending
  cases is : get key w.pending with
  | none => exact kept
  | some item =>
    obtain ⟨before, after, split, rest⟩ := get_eq_some is
    have fewer : (before ++ after).Sublist w.pending := by
      rw [split]
      exact List.Sublist.append_left (List.sublist_cons_self _ _) _
    have pending : (settle item outcome { w with pending := delete key w.pending }).pending =
        before ++ after := rest
    refine ⟨?_, ?_, ?_, ?_, ?_, ?_, ?_⟩
    · rw [pending]
      exact kept.keys.sublist (fewer.map _)
    · rw [pending]
      exact kept.order.sublist (fewer.map _)
    · rw [pending]
      refine List.Perm.trans ?_ kept.once
      unfold settle
      rw [split]
      simp only [List.map_append, List.map_cons, List.map_nil, List.append_assoc, List.cons_append]
      refine List.Perm.append_left _ ?_
      rw [← List.append_assoc]
      exact (List.perm_append_singleton _ _)
    · rw [pending]
      exact fewer.length_le.trans kept.few
    · rw [pending]
      intro entry among
      exact kept.keyed entry (fewer.subset among)
    · rw [pending]
      intro entry among
      exact kept.sent entry (fewer.subset among)
    · intro done among resolved runId sequence event
      rcases List.mem_append.mp among with among | among
      · exact kept.receipts done among resolved runId sequence event
      · cases List.mem_singleton.mp among
        obtain ⟨received, before'⟩ := receipt item is resolved runId sequence event
        have there : (key, item) ∈ w.pending := by
          rw [split]
          exact List.mem_append_right _ List.mem_cons_self
        exact ⟨received, before', kept.sent _ there⟩

/-- A promise that is settled at once. -/
theorem Kept.settleNow (kept : Kept history w)
    (plain : outcome = .resolved → message.event = none) :
    Kept history (settleNow message outcome w) := by
  refine ⟨kept.keys, kept.order, ?_, kept.few, kept.keyed, kept.sent, ?_⟩
  · unfold LegacyTransport.settleNow settle
    rw [List.range_succ, List.map_append, ← List.append_assoc]
    exact kept.once.append_right _
  · intro done among resolved runId sequence event
    rcases List.mem_append.mp among with among | among
    · exact kept.receipts done among resolved runId sequence event
    · cases List.mem_singleton.mp among
      cases (plain resolved).symm.trans event

theorem set_of_none (new : get key w.pending = none) :
    set key item w.pending = w.pending ++ [(key, item)] := by
  have none_ : w.pending.any (·.1 == key) = false := by
    rw [List.any_eq_false]
    exact List.find?_eq_none.mp (Option.map_eq_none_iff.mp new)
  unfold set
  rw [none_]
  rfl

theorem Kept.ticket_lt (kept : Kept history w) {entry : Text × Item π} (among : entry ∈ w.pending) :
    entry.2.ticket < w.tickets :=
  List.mem_range.mp (kept.once.subset
    (List.mem_append_left _ (List.mem_map.mpr ⟨entry, among, rfl⟩)))

/-- A frame with a key of its own. -/
theorem Kept.enqueue (kept : Kept history w) (new : get key w.pending = none)
    (room : w.pending.length < 1000)
    (own : ∀ runId sequence, message.event = some (runId, sequence) → key = eventKey runId sequence)
    (sent : history[w.steps]? = some (.send message .required)) :
    Kept history (LegacyTransport.enqueue o key message w) := by
  have pending : (LegacyTransport.enqueue o key message w).pending = w.pending ++
      [(key, ⟨message, w.tickets, w.steps, message.isRetained && o.acknowledgeRunEvents⟩)] :=
    set_of_none new
  have fresh : ∀ entry ∈ w.pending, entry.1 ≠ key := by
    intro entry among is
    have off := List.find?_eq_none.mp (Option.map_eq_none_iff.mp new) entry among
    exact off (beq_iff_eq.mpr is)
  refine ⟨?_, ?_, ?_, ?_, ?_, ?_, kept.receipts⟩
  · rw [pending, List.map_append]
    refine List.Nodup.append kept.keys (List.nodup_singleton _) ?_
    intro k among same
    obtain ⟨entry, there, rfl⟩ := List.mem_map.mp among
    exact fresh entry there (List.mem_singleton.mp same)
  · rw [pending, List.map_append, List.pairwise_append]
    refine ⟨kept.order, List.pairwise_singleton _ _, ?_⟩
    intro t among t' same
    obtain ⟨entry, there, rfl⟩ := List.mem_map.mp among
    rw [List.mem_singleton.mp same]
    exact kept.ticket_lt there
  · rw [pending]
    have all : (LegacyTransport.enqueue o key message w).tickets = w.tickets + 1 := rfl
    rw [all, List.range_succ, List.map_append, List.append_assoc]
    refine List.Perm.trans ?_ (kept.once.append_right _)
    rw [List.append_assoc]
    exact List.Perm.append_left _ List.perm_append_comm
  · rw [pending, List.length_append]
    exact room
  · rw [pending]
    intro entry among runId sequence event
    rcases List.mem_append.mp among with among | among
    · exact kept.keyed entry among runId sequence event
    · cases List.mem_singleton.mp among
      exact own runId sequence event
  · rw [pending]
    intro entry among
    rcases List.mem_append.mp among with among | among
    · exact kept.sent entry among
    · cases List.mem_singleton.mp among
      exact sent

/-! ## What the loops do -/

theorem steps_settlePending (key : Text) (outcome : Outcome) (w : World π) :
    (LegacyTransport.settlePending key outcome w).steps = w.steps := by
  unfold LegacyTransport.settlePending
  cases get key w.pending with
  | none => rfl
  | some item => rfl

theorem Kept.failPending (kept : Kept history w) (error : Text) :
    Kept history (failPending error w) := by
  unfold LegacyTransport.failPending
  generalize w.pending.map (·.1) = keys
  induction keys generalizing w with
  | nil => exact kept
  | cons key keys ih =>
    apply ih
    apply kept.settlePending
    intro item is resolved
    cases resolved

theorem steps_failPending (error : Text) (w : World π) :
    (LegacyTransport.failPending error w).steps = w.steps := by
  unfold LegacyTransport.failPending
  generalize w.pending.map (·.1) = keys
  induction keys generalizing w with
  | nil => rfl
  | cons key keys ih => exact (ih _).trans (steps_settlePending _ _ w)

theorem same_sendOpen (message : Message π) (w : World π) : Same w (sendOpen message w) := by
  unfold sendOpen sendRaw
  split_ifs
  · exact ⟨rfl, rfl, rfl⟩
  · exact ⟨rfl, rfl, rfl⟩

theorem mem_of_get (is : get key w.pending = some item) : (key, item) ∈ w.pending := by
  obtain ⟨before, after, split, -⟩ := get_eq_some is
  rw [split]
  exact List.mem_append_right _ List.mem_cons_self

theorem pending_settlePending (key : Text) (outcome : Outcome) (w : World π) :
    (LegacyTransport.settlePending key outcome w).pending ⊆ w.pending := by
  unfold LegacyTransport.settlePending
  cases get key w.pending with
  | none => exact List.Subset.refl _
  | some item => exact (List.eraseP_sublist).subset

theorem socket_settlePending (key : Text) (outcome : Outcome) (w : World π) :
    (LegacyTransport.settlePending key outcome w).written = w.written ∧
      (LegacyTransport.settlePending key outcome w).readyState = w.readyState := by
  unfold LegacyTransport.settlePending
  cases get key w.pending with
  | none => exact ⟨rfl, rfl⟩
  | some item => exact ⟨rfl, rfl⟩

theorem flushFrom_cons {entries : List (Text × Item π)} (opened : w.readyState = .opened) :
    flushFrom o ((key, item) :: entries) w =
      if awaits o item.message then flushFrom o entries (write item.message w)
      else flushFrom o entries
        (LegacyTransport.settlePending key .resolved (write item.message w)) := by
  rw [flushFrom, sendRaw, if_pos opened]
  dsimp only
  split_ifs <;> rfl

/-- Events are kept by a flush, the rest is settled. -/
theorem Kept.flushFrom (acknowledged : o.acknowledgeRunEvents = true) (kept : Kept history w)
    (opened : w.readyState = .opened) (entries : List (Text × Item π))
    (single : ∀ key item item', (key, item) ∈ w.pending → (key, item') ∈ entries → item' = item) :
    Kept history (LegacyTransport.flushFrom o entries w) := by
  induction entries generalizing w with
  | nil => exact kept
  | cons entry entries ih =>
    obtain ⟨key, item⟩ := entry
    have written : Same w (write item.message w) := ⟨rfl, rfl, rfl⟩
    rw [flushFrom_cons opened]
    split_ifs with waits
    · apply ih (kept.same written) opened
      intro key item item' there among
      exact single key item item' there (List.mem_cons_of_mem _ among)
    · apply ih
      · apply (kept.same written).settlePending
        intro item' is resolved runId sequence event
        have same : item = item' := single key item' item (mem_of_get is) List.mem_cons_self
        rw [same] at waits
        unfold awaits at waits
        rw [event, acknowledged] at waits
        exact absurd rfl waits
      · exact (socket_settlePending _ _ _).2.trans opened
      · intro key' item' item'' there among
        have before := pending_settlePending key .resolved (write item.message w) there
        exact single key' item' item'' before (List.mem_cons_of_mem _ among)

theorem steps_flushFrom (entries : List (Text × Item π)) (w : World π) :
    (LegacyTransport.flushFrom o entries w).steps = w.steps := by
  induction entries generalizing w with
  | nil => rfl
  | cons entry entries ih =>
    obtain ⟨key, item⟩ := entry
    by_cases opened : w.readyState = .opened
    · rw [flushFrom_cons opened]
      split_ifs
      · exact ih _
      · exact (ih _).trans (steps_settlePending _ _ _)
    · rw [LegacyTransport.flushFrom, sendRaw, if_neg opened]

/-- A flush writes the frames in their order. -/
theorem written_flushFrom (entries : List (Text × Item π)) (opened : w.readyState = .opened) :
    (LegacyTransport.flushFrom o entries w).written =
      w.written ++ entries.map (·.2.message) := by
  induction entries generalizing w with
  | nil => exact (List.append_nil _).symm
  | cons entry entries ih =>
    obtain ⟨key, item⟩ := entry
    rw [flushFrom_cons opened, List.map_cons]
    have next : (write item.message w).readyState = .opened := opened
    have all : (write item.message w).written ++ entries.map (·.2.message) =
        w.written ++ item.message :: entries.map (·.2.message) := List.append_assoc _ _ _
    split_ifs
    · exact (ih next).trans all
    · obtain ⟨written, same⟩ := socket_settlePending key .resolved (write item.message w)
      rw [ih (same.trans next), written]
      exact all

theorem Kept.flush (acknowledged : o.acknowledgeRunEvents = true) (kept : Kept history w)
    (opened : w.readyState = .opened) : Kept history (flush o w) := by
  apply kept.flushFrom acknowledged opened
  intro key item item' there among
  have same := List.inj_on_of_nodup_map kept.keys among there rfl
  exact (Prod.mk.inj same).2

theorem steps_sendOpen (message : Message π) (w : World π) :
    (sendOpen message w).steps = w.steps := by
  unfold sendOpen sendRaw
  split_ifs <;> rfl

/-! ## The keys -/

/-- The first separator divides a text. -/
theorem divided_inj {α : Type} {c : α} {a b x y : List α} (left : c ∉ a) (right : c ∉ b)
    (same : a ++ c :: x = b ++ c :: y) : a = b ∧ x = y := by
  induction a generalizing b with
  | nil =>
    cases b with
    | nil => exact ⟨rfl, (List.cons.inj same).2⟩
    | cons d b => exact absurd (List.cons.inj same).1 (fun is => right (is ▸ List.mem_cons_self))
  | cons d a ih =>
    cases b with
    | nil => exact absurd (List.cons.inj same).1 (fun is => left (is ▸ List.mem_cons_self))
    | cons e b =>
      obtain ⟨rfl, rest⟩ := List.cons.inj same
      obtain ⟨rfl, rfl⟩ := ih (fun among => left (List.mem_cons_of_mem _ among))
        (fun among => right (List.mem_cons_of_mem _ among)) rest
      exact ⟨rfl, rfl⟩

theorem eventKey_inj {runId runId' : Text} {sequence sequence' : ℕ}
    (same : eventKey runId sequence = eventKey runId' sequence') :
    runId = runId' ∧ sequence = sequence' := by
  have digits : ∀ n : ℕ, ':' ∉ (Nat.toDigits 10 n).reverse := by
    intro n among
    have digit := Lib.toDigits_isDigit ':' (List.mem_reverse.mp among)
    exact absurd digit (by decide)
  have reversed := congrArg List.reverse same
  unfold eventKey at reversed
  simp only [List.reverse_append, List.reverse_cons, List.append_assoc, List.singleton_append]
    at reversed
  obtain ⟨number, run⟩ := divided_inj (digits _) (digits _) reversed
  refine ⟨List.reverse_injective run, ?_⟩
  rw [← Lib.digitsValue_toDigits (n := sequence), List.reverse_injective number,
    Lib.digitsValue_toDigits]

theorem keyOf_event {runId : Text} {sequence : ℕ}
    (event : message.event = some (runId, sequence)) :
    keyOf w message = eventKey runId sequence := by
  cases message with
  | runEvent runId' sequence' type rest =>
    cases event
    rfl
  | hello rest => cases event
  | heartbeat rest => cases event
  | commandAck rest => cases event

theorem same_countFrame (message : Message π) (w : World π) : Same w (countFrame message w) := by
  unfold countFrame
  split_ifs
  · exact ⟨rfl, rfl, rfl⟩
  · exact ⟨rfl, rfl, rfl⟩

theorem steps_countFrame (message : Message π) (w : World π) :
    (countFrame message w).steps = w.steps := by
  unfold countFrame
  split_ifs <;> rfl

/-! ## One step -/

theorem event_of_heartbeat (beat : message.isHeartbeat = true) : message.event = none := by
  cases message with
  | heartbeat rest => rfl
  | hello rest => cases beat
  | commandAck rest => cases beat
  | runEvent runId sequence type rest => cases beat

theorem Kept.sendEnqueued (acknowledged : o.acknowledgeRunEvents = true) (kept : Kept history w)
    (there : (key, item) ∈ w.pending) :
    Kept history (LegacyTransport.sendEnqueued o key item.message w) := by
  unfold LegacyTransport.sendEnqueued sendRaw
  by_cases opened : w.readyState = .opened
  · rw [if_pos opened]
    have written : Kept history (write item.message w) := kept.same ⟨rfl, rfl, rfl⟩
    dsimp only
    split_ifs with waits
    · exact written
    · apply written.settlePending
      intro item' is resolved runId sequence event
      have same := List.inj_on_of_nodup_map kept.keys (mem_of_get (w := w) is) there rfl
      rw [(Prod.mk.inj same).2] at event
      unfold awaits at waits
      rw [event, acknowledged] at waits
      exact absurd rfl waits
  · rw [if_neg opened]
    exact kept

/-- Unless it takes the key of another frame. -/
theorem Kept.sendRequired (acknowledged : o.acknowledgeRunEvents = true) (kept : Kept history w)
    (clear : ¬Replaces w (.send message .required))
    (sent : history[w.steps]? = some (.send message .required)) :
    Kept history (LegacyTransport.sendRequired o message w) := by
  unfold LegacyTransport.sendRequired
  dsimp only
  have counted := kept.same (same_countFrame message w)
  have pending := (same_countFrame message w).pending
  split_ifs with closed beat full refused
  · exact kept.settleNow (by intro resolved; cases resolved)
  · exact (kept.same (same_sendOpen message w)).settleNow fun _ => event_of_heartbeat beat
  · exact kept.settleNow (by intro resolved; cases resolved)
  · exact counted.settleNow (by intro resolved; cases resolved)
  have new : get (keyOf w message) w.pending = none := by
    cases there : get (keyOf w message) w.pending with
    | none => rfl
    | some previous =>
      rw [there] at refused
      exact absurd ⟨Bool.eq_false_iff.mpr closed, Bool.eq_false_iff.mpr beat, not_le.mp full,
        previous, there, Bool.eq_false_iff.mpr refused⟩ clear
  have new' : get (keyOf w message) (countFrame message w).pending = none := by
    rw [pending]
    exact new
  have enqueued : Kept history
      (LegacyTransport.enqueue o (keyOf w message) message (countFrame message w)) := by
    apply counted.enqueue new'
    · rw [pending]
      exact not_le.mp full
    · exact fun _ _ => keyOf_event
    · rw [steps_countFrame]
      exact sent
  have there : (keyOf w message, ⟨message, (countFrame message w).tickets,
      (countFrame message w).steps, message.isRetained && o.acknowledgeRunEvents⟩) ∈
        (LegacyTransport.enqueue o (keyOf w message) message (countFrame message w)).pending := by
    unfold LegacyTransport.enqueue
    dsimp only
    rw [set_of_none new']
    exact List.mem_append_right _ (List.mem_singleton.mpr rfl)
  exact enqueued.sendEnqueued acknowledged there

theorem same_sendBestEffort (message : Message π) (w : World π) :
    Same w (sendBestEffort message w) := by
  unfold sendBestEffort
  split_ifs
  · exact ⟨rfl, rfl, rfl⟩
  · exact same_sendOpen message w

theorem Kept.receipt (kept : Kept history w) (now : w.steps = history.length) {runId : Text}
    {sequence : ℕ} {accepted : Bool} {text : Option Text} :
    Kept (history ++ [.receipt runId sequence accepted text])
      (LegacyTransport.settlePending (eventKey runId sequence)
        (if accepted then .resolved else .rejected (text.getD "run event rejected".toList)) w) := by
  apply (kept.later _).settlePending
  intro item is resolved runId' sequence' event
  have there := mem_of_get is
  obtain ⟨rfl, rfl⟩ := eventKey_inj (kept.keyed _ there _ _ event)
  have small := (List.getElem?_eq_some_iff.mp (kept.sent _ there)).1
  rw [now]
  cases accepted with
  | false => cases resolved
  | true => exact ⟨⟨text, List.getElem?_concat_length⟩, small⟩

theorem Kept.onOpen (acknowledged : o.acknowledgeRunEvents = true) (kept : Kept history w) :
    Kept history (LegacyTransport.onOpen o w) := by
  unfold LegacyTransport.onOpen
  split_ifs
  · exact kept.same ⟨rfl, rfl, rfl⟩
  · apply Kept.flush acknowledged
    · exact kept.same ⟨rfl, rfl, rfl⟩
    · rfl

theorem Kept.onClose (policy : Bool) (kept : Kept history w) :
    Kept history (LegacyTransport.onClose policy w) := by
  unfold LegacyTransport.onClose
  split_ifs
  · exact kept
  · apply Kept.failPending
    exact kept.same ⟨rfl, rfl, rfl⟩
  · apply Kept.failPending
    exact kept.same ⟨rfl, rfl, rfl⟩
  · exact kept.same ⟨rfl, rfl, rfl⟩

theorem Kept.perform (acknowledged : o.acknowledgeRunEvents = true) (kept : Kept history w)
    (now : w.steps = history.length) (s : Step π) (clear : ¬Replaces w s) :
    Kept (history ++ [s]) (perform o s w) := by
  have later := kept.later s
  cases s with
  | send message delivery =>
    cases delivery with
    | required =>
      apply later.sendRequired acknowledged clear
      rw [now]
      exact List.getElem?_concat_length
    | bestEffort => exact later.same (same_sendBestEffort message w)
  | opened =>
    rw [LegacyTransport.perform]
    split_ifs
    · exact later.onOpen acknowledged
    · exact later
  | receipt runId sequence accepted text => exact kept.receipt now
  | closing =>
    rw [LegacyTransport.perform]
    split_ifs
    · exact later.same ⟨rfl, rfl, rfl⟩
    · exact later
  | closeEvent policy =>
    rw [LegacyTransport.perform]
    split_ifs
    · exact later
    · apply Kept.onClose policy
      exact later.same ⟨rfl, rfl, rfl⟩
  | reconnectTimer =>
    rw [LegacyTransport.perform]
    dsimp only
    split_ifs
    · exact later.same ⟨rfl, rfl, rfl⟩
    · exact later.same ⟨rfl, rfl, rfl⟩
    · exact later
  | heartbeatTimer beat => exact later.same (same_sendOpen beat w)
  | retentionTimer key =>
    rw [LegacyTransport.perform]
    split_ifs
    · exact later.settlePending (by intro item is resolved; cases resolved)
    · exact later
  | close =>
    rw [LegacyTransport.perform]
    have failed := (later.same
      (⟨rfl, rfl, rfl⟩ : Same w { w with closed := true, reconnecting := false })).failPending "websocket closed".toList
    split_ifs
    · exact failed
    · exact failed.same ⟨rfl, rfl, rfl⟩

theorem steps_flush (w : World π) : (LegacyTransport.flush o w).steps = w.steps :=
  steps_flushFrom w.pending w

theorem steps_sendEnqueued (key : Text) (message : Message π) (w : World π) :
    (LegacyTransport.sendEnqueued o key message w).steps = w.steps := by
  unfold LegacyTransport.sendEnqueued sendRaw
  by_cases opened : w.readyState = .opened
  · rw [if_pos opened]
    dsimp only
    split_ifs
    · rfl
    · exact steps_settlePending _ _ _
  · rw [if_neg opened]

theorem steps_sendRequired (message : Message π) (w : World π) :
    (LegacyTransport.sendRequired o message w).steps = w.steps := by
  unfold LegacyTransport.sendRequired
  dsimp only
  split_ifs
  · rfl
  · exact steps_sendOpen message w
  · rfl
  · exact steps_countFrame message w
  · exact (steps_sendEnqueued _ _ _).trans (steps_countFrame message w)

theorem steps_perform (s : Step π) (w : World π) :
    (LegacyTransport.perform o s w).steps = w.steps := by
  cases s with
  | send message delivery =>
    cases delivery with
    | required => exact steps_sendRequired message w
    | bestEffort =>
      rw [LegacyTransport.perform, sendBestEffort]
      split_ifs
      · rfl
      · exact steps_sendOpen message w
  | opened =>
    rw [LegacyTransport.perform]
    unfold LegacyTransport.onOpen
    split_ifs
    · rfl
    · exact steps_flush _
    · rfl
  | receipt runId sequence accepted text => exact steps_settlePending _ _ w
  | closing =>
    rw [LegacyTransport.perform]
    split_ifs <;> rfl
  | closeEvent policy =>
    rw [LegacyTransport.perform]
    unfold LegacyTransport.onClose
    split_ifs
    · rfl
    · rfl
    · exact steps_failPending _ _
    · exact steps_failPending _ _
    · rfl
  | reconnectTimer =>
    rw [LegacyTransport.perform]
    dsimp only
    split_ifs <;> rfl
  | heartbeatTimer beat => exact steps_sendOpen beat w
  | retentionTimer key =>
    rw [LegacyTransport.perform]
    split_ifs
    · exact steps_settlePending _ _ w
    · rfl
  | close =>
    rw [LegacyTransport.perform]
    split_ifs
    · exact steps_failPending _ _
    · exact steps_failPending _ _

/-! ## Every run -/

/-- No step of a run takes the key of a frame that is pending. -/
def Clear (o : Options π) (w : World π) : List (Step π) → Prop
  | [] => True
  | s :: steps => ¬Replaces w s ∧ Clear o (step o w s) steps

theorem Kept.run (acknowledged : o.acknowledgeRunEvents = true) (kept : Kept history w)
    (now : w.steps = history.length) (steps : List (Step π)) (clear : Clear o w steps) :
    Kept (history ++ steps) (steps.foldl (step o) w) := by
  induction steps generalizing history w with
  | nil =>
    rw [List.append_nil]
    exact kept
  | cons s steps ih =>
    have performed := kept.perform acknowledged now s clear.1
    have next : Kept (history ++ [s]) (step o w s) := performed.same ⟨rfl, rfl, rfl⟩
    have time : (step o w s).steps = (history ++ [s]).length := by
      rw [List.length_append, ← now]
      exact congrArg (· + 1) (steps_perform s w)
    have all := ih next time clear.2
    rw [List.append_assoc] at all
    exact all

theorem kept_init : Kept ([] : List (Step π)) {} := by
  refine ⟨List.nodup_nil, List.Pairwise.nil, List.Perm.refl _, Nat.zero_le _, ?_, ?_, ?_⟩
  · exact List.forall_mem_nil _
  · exact List.forall_mem_nil _
  · exact List.forall_mem_nil _

end Moves

/-- What is promised of the frames, after the steps. -/
structure Delivered (o : Options π) (steps : List (Step π)) : Prop where
  /-- Each required send is settled once, or pending once. -/
  once : ((run o steps).pending.map (·.2.ticket) ++
    (run o steps).settled.map (·.item.ticket)).Perm (List.range (run o steps).tickets)
  few : (run o steps).pending.length ≤ 1000
  /-- A run event is resolved by its own receipt, after it was sent. -/
  receipts : ∀ s ∈ (run o steps).settled, s.outcome = .resolved → ∀ runId sequence,
    s.item.message.event = some (runId, sequence) →
      (∃ message, steps[s.settledAt]? = some (.receipt runId sequence true message)) ∧
        s.item.enqueuedAt < s.settledAt ∧
        steps[s.item.enqueuedAt]? = some (.send s.item.message .required)
  /-- A socket that opens is given all that is pending, in the order of the sends. -/
  replayed : (run o steps).readyState = .connecting → (run o steps).closed = false →
    (run o (steps ++ [.opened])).written = o.hello :: (run o steps).pending.map (·.2.message)
  order : ((run o steps).pending.map (·.2.ticket)).Pairwise (· < ·)
  bestEffort : ∀ message, Same (run o steps) (run o (steps ++ [.send message .bestEffort]))

theorem run_append (o : Options π) (steps : List (Step π)) (s : Step π) :
    run o (steps ++ [s]) = step o (run o steps) s := by
  unfold run
  rw [List.foldl_append]
  rfl

end Transport

def frames : Options Unit := ⟨.hello (), true, 30000⟩

/-- The run and the sequence of each event that must be delivered. -/
def requiredEvents {π : Type} (steps : List (Step π)) : List (Text × ℕ) :=
  steps.filterMap fun s => match s with
    | .send message .required => message.event
    | _ => none

end Artoo.Node.LegacyTransport
