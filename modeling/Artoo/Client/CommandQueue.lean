import Artoo.Lib.Path
import Artoo.Lib.Table
import Artoo.Protocol.RunEvent

/-! The offline command queue of the clients: its flush loop, turn by turn, among the calls that are
made meanwhile. -/
namespace Artoo.Client
open Artoo.Lib Artoo.Protocol

structure CommandConflict where
  baseVersion : Int
  currentVersion : Int
  resourceType : String
  resourceId : String
  deriving DecidableEq

structure PendingCommand where
  key : String
  baseVersion : Option Int := none
  payload : Json
  deriving DecidableEq

inductive SendResult where
  | applied (response : Option Json)
  | conflict (conflict : CommandConflict)
  | retry
  deriving DecidableEq

inductive CommandOutcome where
  | applied (key : String) (response : Json) (duplicate : Bool)
  | conflict (key : String) (conflict : CommandConflict)
  deriving DecidableEq

/-- A queued command with its number in the order of the enqueues. -/
structure Queued where
  number : Nat
  cmd : PendingCommand
  deriving DecidableEq

/-- How a flush loop ends: its queue is empty, a command asks for a retry, a callback throws. -/
inductive LoopEnd where
  | drained | retry | threw
  deriving DecidableEq

/-- Where a `runFlush` is: inside its call of `send`, which may be the one before its first `await`;
at the `await`; inside `onOutcome`; at its end, with the `finally` to come; after the `finally`,
while its promise is about to settle. -/
inductive Phase where
  | calling (first : Bool) (cmd : Queued)
  | awaiting (cmd : Queued)
  | settling
  | left (how : LoopEnd)
  | cleared (how : LoopEnd)
  deriving DecidableEq

structure Pass where
  id : Nat
  phase : Phase
  outcomes : List CommandOutcome := []
  deriving DecidableEq

/-- A call of `flush`: the pass whose promise it returned; whether a command has been sent since,
has asked for a retry since, and has been sent and asked for a retry since. -/
structure FlushCall where
  pass : Nat
  sent : Bool := false
  retried : Bool := false
  attempted : Bool := false
  deriving DecidableEq

def FlushCall.withSend (call : FlushCall) : FlushCall := { call with sent := true }

def FlushCall.withRetry (call : FlushCall) : FlushCall :=
  { call with retried := true, attempted := call.attempted || call.sent }

/-- The attempts that count for a call: those that are answered after it, of which one may have been
under way, or those that are sent after it. -/
inductive Attempts where
  | answered | sent
  deriving DecidableEq

def FlushCall.asked : Attempts → FlushCall → Bool
  | .answered, call => call.retried
  | .sent, call => call.attempted

/-- `queue`, `settledAppliedKeys` and `flushing` are the variables of the source, and `calls`,
`sends` and `settled` record what has happened. -/
structure CommandQueue where
  queue : List Queued := []
  settledAppliedKeys : List String := []
  flushing : Option Nat := none
  passes : Table Pass.id := .empty
  nextPass : Nat := 0
  nextNumber : Nat := 0
  calls : List FlushCall := []
  sends : List Nat := []
  settled : List Nat := []

inductive Turn where
  | enqueue (cmd : PendingCommand)
  | flush
  /-- `send` returns its promise, or throws -/
  | sent (pass : Nat) (threw : Bool)
  /-- the promise of `send` is fulfilled, or rejected -/
  | answer (pass : Nat) (result : Option SendResult)
  /-- `onOutcome` returns, or throws -/
  | notified (pass : Nat) (threw : Bool)
  /-- the callback of `finally` -/
  | clear (pass : Nat)
  /-- the promise that `flush` returned is settled -/
  | resolve (pass : Nat)

namespace CommandQueue

def enqueue (c : CommandQueue) (cmd : PendingCommand) : CommandQueue :=
  { c with queue := c.queue ++ [⟨c.nextNumber, cmd⟩], nextNumber := c.nextNumber + 1 }

/-- `while (queue.length > 0)`: the next command is sent, or the loop ends. -/
def loop (c : CommandQueue) (p : Pass) (first : Bool) : CommandQueue :=
  match c.queue with
  | [] => { c with passes := c.passes.put { p with phase := .left .drained } }
  | head :: _ =>
    { c with
      passes := c.passes.put { p with phase := .calling first head }
      calls := c.calls.map FlushCall.withSend
      sends := c.sends ++ [head.number] }

def called (c : CommandQueue) (pass : Nat) : CommandQueue :=
  { c with calls := c.calls ++ [{ pass }] }

/-- A pass that has nothing to send is at its end when `flush` stores its promise. -/
def flush (c : CommandQueue) : CommandQueue :=
  match c.flushing with
  | some pass => c.called pass
  | none =>
    let started := (c.called c.nextPass).loop { id := c.nextPass, phase := .settling } true
    { started with
      flushing := if c.queue.isEmpty then some c.nextPass else none
      nextPass := c.nextPass + 1 }

def leave (c : CommandQueue) (p : Pass) (how : LoopEnd) : CommandQueue :=
  { c with passes := c.passes.put { p with phase := .left how } }

/-- After the first `await`, `flush` stores the promise of the pass. -/
def sent (c : CommandQueue) (p : Pass) (first : Bool) (cmd : Queued) (threw : Bool) :
    CommandQueue :=
  { c with
    flushing := if first then some p.id else c.flushing
    passes := c.passes.put { p with phase := if threw then .left .threw else .awaiting cmd } }

def outcome (c : CommandQueue) (cmd : PendingCommand) : SendResult → Option CommandOutcome
  | .applied response =>
    some (.applied cmd.key (response.getD .null) (c.settledAppliedKeys.contains cmd.key))
  | .conflict conflict => some (.conflict cmd.key conflict)
  | .retry => none

def appliedKeys (c : CommandQueue) (cmd : PendingCommand) : SendResult → List String
  | .applied _ => c.settledAppliedKeys ++ [cmd.key]
  | _ => c.settledAppliedKeys

def retryAsked (c : CommandQueue) : CommandQueue :=
  { c with calls := c.calls.map FlushCall.withRetry }

/-- The answer to a command; the queue is shifted unless the command is to be sent again. -/
def answered (c : CommandQueue) (p : Pass) (cmd : Queued) (result : SendResult) : CommandQueue :=
  match c.outcome cmd.cmd result with
  | none => c.retryAsked.leave p .retry
  | some outcome =>
    { c with
      queue := c.queue.tail
      settledAppliedKeys := c.appliedKeys cmd.cmd result
      passes := c.passes.put { p with phase := .settling, outcomes := p.outcomes ++ [outcome] }
      settled := c.settled ++ [cmd.number] }

/-- One turn; none where it is not possible. -/
def step (c : CommandQueue) : Turn → Option CommandQueue
  | .enqueue cmd => some (c.enqueue cmd)
  | .flush => some c.flush
  | .sent pass threw =>
    match c.passes.get? pass with
    | some ⟨_, .calling first cmd, outcomes⟩ =>
      some (c.sent ⟨pass, .calling first cmd, outcomes⟩ first cmd threw)
    | _ => none
  | .answer pass result =>
    match c.passes.get? pass with
    | some ⟨_, .awaiting cmd, outcomes⟩ =>
      match result with
      | none => some (c.leave ⟨pass, .awaiting cmd, outcomes⟩ .threw)
      | some result => some (c.answered ⟨pass, .awaiting cmd, outcomes⟩ cmd result)
    | _ => none
  | .notified pass threw =>
    match c.passes.get? pass with
    | some ⟨_, .settling, outcomes⟩ =>
      if threw then some (c.leave ⟨pass, .settling, outcomes⟩ .threw)
      else some (c.loop ⟨pass, .settling, outcomes⟩ false)
    | _ => none
  | .clear pass =>
    match c.passes.get? pass with
    | some ⟨_, .left how, outcomes⟩ =>
      some { c with flushing := none, passes := c.passes.put ⟨pass, .cleared how, outcomes⟩ }
    | _ => none
  | .resolve pass =>
    match c.passes.get? pass with
    | some ⟨_, .cleared _, _⟩ => some { c with passes := c.passes.remove pass }
    | _ => none

end CommandQueue

theorem CommandQueue.loop_nil {c : CommandQueue} {p : Pass} {first : Bool} (queue : c.queue = []) :
    c.loop p first = c.leave p .drained := by
  unfold CommandQueue.loop
  split
  · rfl
  · rename_i is
    cases queue.symm.trans is

theorem CommandQueue.loop_cons {c : CommandQueue} {p : Pass} {first : Bool} {head : Queued}
    {rest : List Queued} (queue : c.queue = head :: rest) : c.loop p first =
      { c with
        passes := c.passes.put { p with phase := .calling first head }
        calls := c.calls.map FlushCall.withSend
        sends := c.sends ++ [head.number] } := by
  unfold CommandQueue.loop
  split
  · rename_i is
    cases queue.symm.trans is
  · rename_i is
    cases queue.symm.trans is
    rfl

/-! ## What a turn keeps -/

def Phase.isOpen : Phase → Bool
  | .cleared _ => false
  | _ => true

def Phase.isFirstCall : Phase → Bool
  | .calling first _ => first
  | _ => false

/-- The command whose answer is still to come. -/
def Phase.command : Phase → Option Queued
  | .calling _ cmd => some cmd
  | .awaiting cmd => some cmd
  | _ => none

def Phase.ended : Phase → Option LoopEnd
  | .left how => some how
  | .cleared how => some how
  | _ => none

/-- No `flush` is called inside the `send` that precedes the first `await` of a pass, or between a
retry and the `finally` of its pass; no command is enqueued between the end of a loop that found the
queue empty and the settling of its promise. Where only the attempts count that are sent after a
call, no call joins an attempt that then asks for a retry. -/
def CommandQueue.undisturbed (attempts : Attempts) (c : CommandQueue) : Turn → Bool
  | .flush => c.passes.rows.all fun p => !p.phase.isFirstCall && p.phase != .left .retry
  | .enqueue _ => c.passes.rows.all fun p => p.phase.ended != some .drained
  | .answer pass (some .retry) =>
    attempts == .answered || c.calls.all fun call => call.pass != pass || call.sent
  | _ => true

/-- Commands are sent and settled in the order in which they were enqueued, each settled once. -/
structure InOrder (c : CommandQueue) : Prop where
  settled : c.settled ++ c.queue.map (·.number) = List.range c.nextNumber
  sends : c.sends.Pairwise (· ≤ ·)
  sent : ∀ n ∈ c.sends, n < c.nextNumber ∧ ∀ q ∈ c.queue, n ≤ q.number

structure Tidy (attempts : Attempts) (c : CommandQueue) : Prop where
  one : ∀ p ∈ c.passes, ∀ q ∈ c.passes, p.phase.isOpen → q.phase.isOpen → p = q
  marker : ∀ p ∈ c.passes, p.phase.isOpen →
    c.flushing = if p.phase.isFirstCall then none else some p.id
  holder : ∀ id, c.flushing = some id → ∃ p ∈ c.passes, p.id = id ∧ p.phase.isOpen
  head : ∀ p ∈ c.passes, ∀ cmd, p.phase.command = some cmd → c.queue.head? = some cmd
  drained : ∀ p ∈ c.passes, p.phase.ended = some .drained → c.queue = []
  retried : ∀ p ∈ c.passes, p.phase.ended = some .retry →
    ∀ call ∈ c.calls, call.pass = p.id → call.asked attempts
  passIds : ∀ p ∈ c.passes, p.id < c.nextPass
  callIds : ∀ call ∈ c.calls, call.pass < c.nextPass
  order : InOrder c

variable {attempts : Attempts} {c c' : CommandQueue} {p p' : Pass}

theorem asked_withSend (call : FlushCall) :
    call.withSend.asked attempts = call.asked attempts := by
  cases attempts <;> rfl

theorem asked_withRetry {call : FlushCall} (asked : call.asked attempts) :
    call.withRetry.asked attempts := by
  cases attempts with
  | answered => rfl
  | sent =>
    change call.attempted = true at asked
    change (call.attempted || call.sent) = true
    rw [asked, Bool.true_or]

theorem withRetry_asked {call : FlushCall} (counts : attempts = .answered ∨ call.sent) :
    call.withRetry.asked attempts := by
  cases attempts with
  | answered => rfl
  | sent =>
    obtain is | sent := counts
    · cases is
    · change (call.attempted || call.sent) = true
      rw [sent, Bool.or_true]

theorem tidy_empty : Tidy attempts {} := by
  constructor
  case order => exact ⟨rfl, List.Pairwise.nil, fun _ member => nomatch member⟩
  case holder => exact fun _ is => nomatch is
  all_goals exact fun _ member => nomatch member

/-- The pass whose loop has not ended, or not been cleared, is the only one. -/
theorem Tidy.closed (h : Tidy attempts c) (member : p ∈ c.passes) (isOpen : p.phase.isOpen)
    {q : Pass} (there : q ∈ c.passes) (other : q.id ≠ p.id) : q.phase.isOpen = false := by
  by_contra also
  rw [Bool.not_eq_false] at also
  exact other (congrArg Pass.id (h.one q there p member also isOpen))

/-- A pass is stored while no other is open. -/
theorem Tidy.put (h : Tidy attempts c)
    (alone : ∀ q ∈ c.passes, q.id ≠ p'.id → q.phase.isOpen = false)
    (passes : c'.passes = c.passes.put p') (ids : c.nextPass ≤ c'.nextPass)
    (own : p'.id < c'.nextPass)
    (marker : p'.phase.isOpen → c'.flushing = if p'.phase.isFirstCall then none else some p'.id)
    (holder : ∀ id, c'.flushing = some id → p'.id = id ∧ p'.phase.isOpen)
    (head : ∀ cmd, p'.phase.command = some cmd → c'.queue.head? = some cmd)
    (drained : p'.phase.ended = some .drained → c'.queue = [])
    (shorter : c.queue = [] → c'.queue = [])
    (retried : p'.phase.ended = some .retry → ∀ call ∈ c'.calls, call.pass = p'.id →
      call.asked attempts)
    (calls : ∀ call' ∈ c'.calls, call'.pass = p'.id ∨ ∃ call ∈ c.calls, call.pass = call'.pass ∧
      (call.asked attempts → call'.asked attempts)) (order : InOrder c') : Tidy attempts c' := by
  have cases_ : ∀ q ∈ c'.passes,
      q = p' ∨ (q ∈ c.passes ∧ q.id ≠ p'.id ∧ q.phase.isOpen = false) := by
    intro q there
    rw [passes] at there
    rcases Table.mem_put.mp there with is | ⟨old, other⟩
    · exact Or.inl is
    · exact Or.inr ⟨old, other, alone q old other⟩
  have new : p' ∈ c'.passes := by
    rw [passes]
    exact Table.mem_put.mpr (Or.inl rfl)
  constructor
  case one =>
    intro q there r there' open_ open'
    rcases cases_ q there with rfl | ⟨_, _, closed⟩
    · rcases cases_ r there' with rfl | ⟨_, _, closed⟩
      · rfl
      · simp [closed] at open'
    · simp [closed] at open_
  case marker =>
    intro q there open_
    rcases cases_ q there with rfl | ⟨_, _, closed⟩
    · exact marker open_
    · simp [closed] at open_
  case holder =>
    intro i is
    exact ⟨p', new, holder i is⟩
  case head =>
    intro q there cmd is
    rcases cases_ q there with rfl | ⟨_, _, closed⟩
    · exact head cmd is
    · cases phase : q.phase <;> simp [phase, Phase.isOpen, Phase.command] at closed is
  case drained =>
    intro q there is
    rcases cases_ q there with rfl | ⟨old, _, _⟩
    · exact drained is
    · exact shorter (h.drained q old is)
  case retried =>
    intro q there is call' member' of
    rcases cases_ q there with rfl | ⟨old, other, _⟩
    · exact retried is call' member' of
    · rcases calls call' member' with own | ⟨call, before, same, kept⟩
      · exact absurd (of.symm.trans own) other
      · exact kept (h.retried q old is call before (same.trans of))
  case passIds =>
    intro q there
    rcases cases_ q there with rfl | ⟨old, _, _⟩
    · exact own
    · exact Nat.lt_of_lt_of_le (h.passIds q old) ids
  case callIds =>
    intro call' member'
    rcases calls call' member' with is | ⟨call, before, same, _⟩
    · exact is ▸ own
    · rw [← same]
      exact Nat.lt_of_lt_of_le (h.callIds call before) ids
  case order => exact order

/-- The open pass moves on. -/
theorem Tidy.turn (h : Tidy attempts c) (member : p ∈ c.passes) (isOpen : p.phase.isOpen)
    (passes : c'.passes = c.passes.put p') (id : p'.id = p.id) (ids : c'.nextPass = c.nextPass)
    (marker : p'.phase.isOpen → c'.flushing = if p'.phase.isFirstCall then none else some p'.id)
    (holder : ∀ id, c'.flushing = some id → p'.id = id ∧ p'.phase.isOpen)
    (head : ∀ cmd, p'.phase.command = some cmd → c'.queue.head? = some cmd)
    (drained : p'.phase.ended = some .drained → c'.queue = [])
    (shorter : c.queue = [] → c'.queue = [])
    (retried : p'.phase.ended = some .retry → ∀ call ∈ c'.calls, call.pass = p'.id →
      call.asked attempts)
    (calls : ∀ call' ∈ c'.calls, ∃ call ∈ c.calls, call.pass = call'.pass ∧
      (call.asked attempts → call'.asked attempts)) (order : InOrder c') : Tidy attempts c' := by
  apply h.put _ passes _ _ marker holder head drained shorter retried
    (fun call there => Or.inr (calls call there)) order
  · intro q there other
    exact h.closed member isOpen there (id ▸ other)
  · exact Nat.le_of_eq ids.symm
  · rw [id, ids]
    exact h.passIds p member

theorem InOrder.queued (h : InOrder c) {q : Queued} (member : q ∈ c.queue) :
    q.number < c.nextNumber := by
  have inside : q.number ∈ c.settled ++ c.queue.map (·.number) :=
    List.mem_append_right _ (List.mem_map_of_mem member)
  rw [h.settled] at inside
  exact List.mem_range.mp inside

theorem InOrder.first (h : InOrder c) {first : Queued} {rest : List Queued}
    (queue : c.queue = first :: rest) : ∀ q ∈ c.queue, first.number ≤ q.number := by
  have sorted : (c.settled ++ c.queue.map (·.number)).Pairwise (· < ·) := by
    rw [h.settled]
    exact List.pairwise_lt_range
  have later := (List.pairwise_append.mp sorted).2.1
  rw [queue, List.map_cons, List.pairwise_cons] at later
  intro q member
  rw [queue] at member
  rcases List.mem_cons.mp member with rfl | inside
  · exact Nat.le_refl _
  · exact Nat.le_of_lt (later.1 _ (List.mem_map_of_mem inside))

theorem InOrder.loop (h : InOrder c) (p : Pass) (first : Bool) : InOrder (c.loop p first) := by
  cases queue : c.queue with
  | nil =>
    rw [CommandQueue.loop_nil queue]
    exact ⟨h.settled, h.sends, h.sent⟩
  | cons head rest =>
    rw [CommandQueue.loop_cons queue]
    have least := h.first queue
    have there : head ∈ c.queue := queue ▸ List.mem_cons_self
    refine ⟨h.settled, ?_, ?_⟩
    · rw [List.pairwise_append]
      refine ⟨h.sends, List.pairwise_singleton _ _, ?_⟩
      intro n member m last
      rw [List.mem_singleton.mp last]
      exact (h.sent n member).2 head there
    · intro n member
      rcases List.mem_append.mp member with old | new
      · exact h.sent n old
      · rw [List.mem_singleton.mp new]
        exact ⟨h.queued there, least⟩

theorem Tidy.leave (h : Tidy attempts c) (member : p ∈ c.passes) (isOpen : p.phase.isOpen)
    (first : p.phase.isFirstCall = false) {how : LoopEnd} (drained : how = .drained → c.queue = [])
    (retried : how = .retry → ∀ call ∈ c.calls, call.pass = p.id → call.asked attempts) :
    Tidy attempts (c.leave p how) := by
  have marked := h.marker p member isOpen
  rw [first] at marked
  apply h.turn member isOpen
  case passes => rfl
  case id => rfl
  case ids => rfl
  case marker => exact fun _ => marked
  case holder =>
    intro id is
    exact ⟨Option.some_inj.mp (marked.symm.trans is), rfl⟩
  case head => exact fun _ is => nomatch is
  case drained => exact fun is => drained (Option.some_inj.mp is)
  case shorter => exact id
  case retried => exact fun is call there of => retried (Option.some_inj.mp is) call there of
  case calls => exact fun call there => ⟨call, there, rfl, id⟩
  case order => exact ⟨h.order.settled, h.order.sends, h.order.sent⟩

theorem Tidy.threw (h : Tidy attempts c) (member : p ∈ c.passes) (isOpen : p.phase.isOpen)
    (first : p.phase.isFirstCall = false) : Tidy attempts (c.leave p .threw) := by
  apply h.leave member isOpen first
  · intro is
    cases is
  · intro is
    cases is

theorem Tidy.loop (h : Tidy attempts c) (member : p ∈ c.passes) (isOpen : p.phase.isOpen)
    (first : p.phase.isFirstCall = false) : Tidy attempts (c.loop p false) := by
  have order := h.order.loop p false
  have marked := h.marker p member isOpen
  rw [first] at marked
  cases queue : c.queue with
  | nil =>
    rw [CommandQueue.loop_nil queue]
    exact h.leave member isOpen first (fun _ => queue) fun is => nomatch is
  | cons head rest =>
    rw [CommandQueue.loop_cons queue] at order ⊢
    apply h.turn member isOpen
    case passes => rfl
    case id => rfl
    case ids => rfl
    case marker => exact fun _ => marked
    case holder =>
      intro id is
      exact ⟨Option.some_inj.mp (marked.symm.trans is), rfl⟩
    case head =>
      rintro cmd ⟨⟩
      exact congrArg List.head? queue
    case drained => exact fun is => nomatch is
    case shorter => exact id
    case retried => exact fun is => nomatch is
    case calls =>
      intro call there
      obtain ⟨before, old, rfl⟩ := List.mem_map.mp there
      exact ⟨before, old, rfl, fun asked => (asked_withSend before).trans asked⟩
    case order => exact order

theorem Tidy.sent (h : Tidy attempts c) {pass : Nat} {first threw : Bool} {cmd : Queued}
    {outcomes : List CommandOutcome} (member : ⟨pass, .calling first cmd, outcomes⟩ ∈ c.passes) :
    Tidy attempts (c.sent ⟨pass, .calling first cmd, outcomes⟩ first cmd threw) := by
  have marked := h.marker _ member rfl
  have flushing : (if first then some pass else c.flushing) = some pass := by
    cases first
    · exact marked
    · rfl
  apply h.turn member rfl
  case passes => rfl
  case id => rfl
  case ids => rfl
  case marker =>
    intro _
    change (if first then some pass else c.flushing) = _
    rw [flushing]
    cases threw <;> rfl
  case holder =>
    intro id is
    change (if first then some pass else c.flushing) = _ at is
    rw [flushing] at is
    exact ⟨Option.some_inj.mp is, by cases threw <;> rfl⟩
  case head =>
    intro other is
    cases threw
    · cases is
      exact h.head _ member cmd rfl
    · cases is
  case drained =>
    intro is
    cases threw <;> cases is
  case shorter => exact id
  case retried =>
    intro is
    cases threw <;> cases is
  case calls => exact fun call there => ⟨call, there, rfl, id⟩
  case order => exact ⟨h.order.settled, h.order.sends, h.order.sent⟩

theorem Tidy.answered (h : Tidy attempts c) {cmd : Queued} {result : SendResult}
    (member : p ∈ c.passes) (phase : p.phase = .awaiting cmd)
    (counts : result = .retry →
      attempts = .answered ∨ ∀ call ∈ c.calls, call.pass = p.id → call.sent) :
    Tidy attempts (c.answered p cmd result) := by
  have marked := h.marker p member (by rw [phase]; rfl)
  have head := h.head p member cmd (by rw [phase]; rfl)
  rw [phase] at marked
  unfold CommandQueue.answered
  split
  · rename_i none
    have retry : result = .retry := by
      cases result with
      | retry => rfl
      | _ => cases none
    -- the command stays at the head, and whoever has called so far has seen the retry
    have asked : Tidy attempts c.retryAsked := by
      refine ⟨h.one, h.marker, h.holder, h.head, h.drained, ?_, h.passIds, ?_,
        ⟨h.order.settled, h.order.sends, h.order.sent⟩⟩
      · intro q there is call member' of
        obtain ⟨before, old, rfl⟩ := List.mem_map.mp member'
        exact asked_withRetry (h.retried q there is before old of)
      · intro call member'
        obtain ⟨before, there, rfl⟩ := List.mem_map.mp member'
        exact h.callIds before there
    apply asked.leave member (by rw [phase]; rfl) (by rw [phase]; rfl)
    · exact fun is => nomatch is
    · intro _ call member' of
      obtain ⟨before, old, rfl⟩ := List.mem_map.mp member'
      apply withRetry_asked
      rcases counts retry with is | sent
      · exact Or.inl is
      · exact Or.inr (sent before old of)
  · obtain ⟨rest, queue⟩ : ∃ rest, c.queue = cmd :: rest := by
      cases queue : c.queue with
      | nil =>
        rw [queue] at head
        cases head
      | cons first rest =>
        rw [queue] at head
        cases head
        exact ⟨rest, rfl⟩
    have tail : c.queue.tail = rest := by rw [queue, List.tail_cons]
    apply h.turn member
    case isOpen => rw [phase]; rfl
    case passes => rfl
    case id => rfl
    case ids => rfl
    case marker => exact fun _ => marked
    case holder =>
      intro id is
      exact ⟨Option.some_inj.mp (marked.symm.trans is), rfl⟩
    case head => exact fun _ is => nomatch is
    case drained => exact fun is => nomatch is
    case shorter =>
      intro empty
      cases queue.symm.trans empty
    case retried => exact fun is => nomatch is
    case calls => exact fun call there => ⟨call, there, rfl, id⟩
    case order =>
      refine ⟨?_, h.order.sends, ?_⟩
      · have settled := h.order.settled
        rw [queue, List.map_cons] at settled
        rw [tail, ← settled, List.append_assoc, List.singleton_append]
      · intro n sent
        refine ⟨(h.order.sent n sent).1, fun q inside => (h.order.sent n sent).2 q ?_⟩
        exact List.mem_of_mem_tail inside

theorem Tidy.enqueue (h : Tidy attempts c) {cmd : PendingCommand}
    (undisturbed : c.undisturbed attempts (.enqueue cmd)) : Tidy attempts (c.enqueue cmd) := by
  have quiet := List.all_eq_true.mp undisturbed
  refine ⟨h.one, h.marker, h.holder, ?_, ?_, h.retried, h.passIds, h.callIds, ?_⟩
  · intro q there other is
    change (c.queue ++ [_]).head? = some other
    rw [List.head?_append, h.head q there other is]
    rfl
  · intro q there is
    have open_ := quiet q there
    simp [is] at open_
  · refine ⟨?_, h.order.sends, ?_⟩
    · change c.settled ++ (c.queue ++ [_]).map Queued.number = List.range (c.nextNumber + 1)
      rw [List.map_append, ← List.append_assoc, h.order.settled, List.range_succ]
      rfl
    · intro n sent
      obtain ⟨less, least⟩ := h.order.sent n sent
      refine ⟨Nat.lt_succ_of_lt less, fun q inside => ?_⟩
      rcases List.mem_append.mp inside with old | new
      · exact least q old
      · rw [List.mem_singleton.mp new]
        exact Nat.le_of_lt less

theorem Tidy.clear (h : Tidy attempts c) {pass : Nat} {how : LoopEnd}
    {outcomes : List CommandOutcome} (member : ⟨pass, .left how, outcomes⟩ ∈ c.passes) :
    Tidy attempts { c with
      flushing := none
      passes := c.passes.put ⟨pass, .cleared how, outcomes⟩ } := by
  apply h.turn member rfl
  case passes => rfl
  case id => rfl
  case ids => rfl
  case marker => exact fun is => nomatch is
  case holder => exact fun _ is => nomatch is
  case head => exact fun _ is => nomatch is
  case drained => exact fun is => h.drained _ member is
  case shorter => exact id
  case retried => exact fun is call there of => h.retried _ member is call there of
  case calls => exact fun call there => ⟨call, there, rfl, id⟩
  case order => exact ⟨h.order.settled, h.order.sends, h.order.sent⟩

theorem Tidy.resolve (h : Tidy attempts c) {pass : Nat} {how : LoopEnd}
    {outcomes : List CommandOutcome} (member : ⟨pass, .cleared how, outcomes⟩ ∈ c.passes) :
    Tidy attempts { c with passes := c.passes.remove pass } := by
  have old : ∀ p ∈ c.passes.remove pass, p ∈ c.passes :=
    fun p there => (Table.mem_remove.mp there).1
  refine ⟨fun p there q there' => h.one p (old p there) q (old q there'),
    fun p there => h.marker p (old p there), ?_, fun p there => h.head p (old p there),
    fun p there => h.drained p (old p there), fun p there => h.retried p (old p there),
    fun p there => h.passIds p (old p there), h.callIds,
    ⟨h.order.settled, h.order.sends, h.order.sent⟩⟩
  intro id is
  obtain ⟨p, there, same, open_⟩ := h.holder id is
  refine ⟨p, Table.mem_remove.mpr ⟨there, fun gone => ?_⟩, same, open_⟩
  rw [Table.key_inj there member gone] at open_
  cases open_

theorem Tidy.flush (h : Tidy attempts c) (undisturbed : c.undisturbed attempts .flush) :
    Tidy attempts c.flush := by
  have quiet := List.all_eq_true.mp undisturbed
  unfold CommandQueue.flush
  cases flushing : c.flushing with
  | some pass =>
    obtain ⟨p, there, same, open_⟩ := h.holder pass flushing
    refine ⟨h.one, h.marker, h.holder, h.head, h.drained, ?_, h.passIds, ?_,
      ⟨h.order.settled, h.order.sends, h.order.sent⟩⟩
    · intro q there' is call member of
      rcases List.mem_append.mp member with old | new
      · exact h.retried q there' is call old of
      · rw [List.mem_singleton.mp new] at of
        -- the pass that the call joins is still in its loop
        have joined : q = p := Table.key_inj there' there (of.symm.trans same.symm)
        have going := quiet p there
        rw [joined] at is
        cases phase : p.phase with
        | left how =>
          rw [phase] at is going
          cases is
          cases going
        | cleared how =>
          rw [phase] at open_
          cases open_
        | _ =>
          rw [phase] at is
          cases is
    · intro call member
      rcases List.mem_append.mp member with old | new
      · exact h.callIds call old
      · rw [List.mem_singleton.mp new, ← same]
        exact h.passIds p there
  | none =>
    have closed : ∀ p ∈ c.passes, p.phase.isOpen = false := by
      intro p there
      by_contra open_
      rw [Bool.not_eq_false] at open_
      have marked := h.marker p there open_
      have going := quiet p there
      rw [flushing] at marked
      cases first : p.phase.isFirstCall with
      | false =>
        rw [first] at marked
        cases marked
      | true =>
        rw [first] at going
        cases going
    have order : InOrder (c.called c.nextPass) := ⟨h.order.settled, h.order.sends, h.order.sent⟩
    have order := order.loop { id := c.nextPass, phase := .settling } true
    have alone : ∀ q ∈ c.passes, q.id ≠ c.nextPass → q.phase.isOpen = false :=
      fun q there _ => closed q there
    have called : ∀ call ∈ c.calls ++ [{ pass := c.nextPass }], call.pass = c.nextPass ∨
        call ∈ c.calls := by
      intro call member
      rcases List.mem_append.mp member with old | new
      · exact Or.inr old
      · exact Or.inl (List.mem_singleton.mp new ▸ rfl)
    cases queue : c.queue with
    | nil =>
      rw [CommandQueue.loop_nil (c := c.called c.nextPass) queue] at order
      change Tidy attempts { (c.called c.nextPass).loop _ true with
        flushing := some c.nextPass
        nextPass := c.nextPass + 1 }
      rw [CommandQueue.loop_nil (c := c.called c.nextPass) queue]
      apply h.put
      case passes => rfl
      case alone => exact alone
      case ids => exact Nat.le_succ _
      case own => exact Nat.lt_succ_self _
      case marker => exact fun _ => rfl
      case holder =>
        rintro _ ⟨⟩
        exact ⟨rfl, rfl⟩
      case head => exact fun _ is => nomatch is
      case drained => exact fun _ => queue
      case shorter => exact id
      case retried => exact fun is => nomatch is
      case calls =>
        intro call there
        rcases called call there with own | old
        · exact Or.inl own
        · exact Or.inr ⟨call, old, rfl, id⟩
      case order => exact ⟨order.settled, order.sends, order.sent⟩
    | cons head rest =>
      rw [CommandQueue.loop_cons (c := c.called c.nextPass) queue] at order
      change Tidy attempts { (c.called c.nextPass).loop _ true with
        flushing := none
        nextPass := c.nextPass + 1 }
      rw [CommandQueue.loop_cons (c := c.called c.nextPass) queue]
      apply h.put
      case passes => rfl
      case alone => exact alone
      case ids => exact Nat.le_succ _
      case own => exact Nat.lt_succ_self _
      case marker => exact fun _ => rfl
      case holder => exact fun _ is => nomatch is
      case head =>
        rintro cmd ⟨⟩
        exact congrArg List.head? queue
      case drained => exact fun is => nomatch is
      case shorter => exact id
      case retried => exact fun is => nomatch is
      case calls =>
        intro call there
        obtain ⟨before, member, rfl⟩ := List.mem_map.mp there
        rcases called before member with own | old
        · exact Or.inl own
        · exact Or.inr ⟨before, old, rfl, fun asked => (asked_withSend before).trans asked⟩
      case order => exact ⟨order.settled, order.sends, order.sent⟩

theorem Tidy.step (h : Tidy attempts c) {t : Turn} (step : c.step t = some c')
    (undisturbed : c.undisturbed attempts t) : Tidy attempts c' := by
  cases t with
  | enqueue cmd =>
    cases step
    exact h.enqueue undisturbed
  | flush =>
    cases step
    exact h.flush undisturbed
  | sent pass threw =>
    simp only [CommandQueue.step] at step
    split at step
    · rename_i found
      cases step
      cases Table.key_of_get? found
      exact h.sent (Table.mem_of_get? found)
    · cases step
  | answer pass result =>
    simp only [CommandQueue.step] at step
    split at step
    · rename_i found
      cases Table.key_of_get? found
      cases result with
      | none =>
        cases step
        exact h.threw (Table.mem_of_get? found) rfl rfl
      | some result =>
        cases step
        apply h.answered (Table.mem_of_get? found) rfl
        rintro rfl
        simp only [CommandQueue.undisturbed, Bool.or_eq_true, beq_iff_eq, List.all_eq_true,
          bne_iff_ne] at undisturbed
        rcases undisturbed with is | sent
        · exact Or.inl is
        · exact Or.inr fun call there of => (sent call there).resolve_left (absurd of)
    · cases step
  | notified pass threw =>
    simp only [CommandQueue.step] at step
    split at step
    · rename_i found
      cases Table.key_of_get? found
      split at step
      · cases step
        exact h.threw (Table.mem_of_get? found) rfl rfl
      · cases step
        exact h.loop (Table.mem_of_get? found) rfl rfl
    · cases step
  | clear pass =>
    simp only [CommandQueue.step] at step
    split at step
    · rename_i found
      cases step
      cases Table.key_of_get? found
      exact h.clear (Table.mem_of_get? found)
    · cases step
  | resolve pass =>
    simp only [CommandQueue.step] at step
    split at step
    · rename_i found
      cases step
      cases Table.key_of_get? found
      exact h.resolve (Table.mem_of_get? found)
    · cases step

/-- A turn at a place where nothing disturbs it. -/
abbrev Turns (attempts : Attempts) : Turn → CommandQueue → CommandQueue → Prop :=
  fun t c c' => c.step t = some c' ∧ c.undisturbed attempts t

/-- The promises that are fulfilled next find the queue empty, or a command has asked for a retry
since the call; one command is in flight at most, in the order of the enqueues. -/
def Progress (attempts : Attempts) (c : CommandQueue) : Prop :=
  (∀ p ∈ c.passes, ∀ how, p.phase = .cleared how → how ≠ .threw →
    ∀ call ∈ c.calls, call.pass = p.id → c.queue = [] ∨ call.asked attempts) ∧
  (∀ p ∈ c.passes, ∀ q ∈ c.passes, p.phase.command.isSome → q.phase.command.isSome → p = q) ∧
  InOrder c

theorem Tidy.progress (h : Tidy attempts c) : Progress attempts c := by
  refine ⟨?_, ?_, h.order⟩
  · intro p there how phase fulfilled call member of
    cases how with
    | drained => exact Or.inl (h.drained p there (by rw [phase]; rfl))
    | retry => exact Or.inr (h.retried p there (by rw [phase]; rfl) call member of)
    | threw => exact absurd rfl fulfilled
  · intro p there q there' sends sends'
    apply h.one p there q there'
    · cases phase : p.phase <;> simp [phase, Phase.command, Phase.isOpen] at sends ⊢
    · cases phase : q.phase <;> simp [phase, Phase.command, Phase.isOpen] at sends' ⊢

/-! A command that is queued after the loop has found the queue empty, and a second `flush`. -/
namespace Sample

def command : PendingCommand := { key := "approve-1", payload := .null }

/-- One command is sent and applied, and the promise is about to settle. -/
def oneCommand : List Turn :=
  [.enqueue command, .flush, .sent 0 false, .answer 0 (some (.applied none)), .notified 0 false,
   .clear 0]

def lostWakeup : List Turn := [.flush, .enqueue command, .flush, .clear 0]

end Sample

open Sample

end Artoo.Client
