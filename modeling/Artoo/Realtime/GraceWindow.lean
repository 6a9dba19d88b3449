import Artoo.Lib.Automaton
import Mathlib.Algebra.Order.Ring.Int
import Mathlib.Data.Int.Notation
import Mathlib.Data.List.Induction
import Mathlib.Logic.Function.Basic
import Mathlib.Tactic.SplitIfs

/-! The grace windows of computers that lost their connection: one timer for each, which is cancelled
when the computer returns. -/
namespace Artoo.Realtime.GraceWindow
open Artoo.Lib

structure Pending where
  computerId : String
  runIds : List String
  handle : ℕ

/-- What the callback of a timer has closed over, and when it is due. -/
structure Timer where
  computerId : String
  snapshot : List String
  due : ℤ

structure Manager where
  /-- the `Map`, by computer -/
  pending : List Pending := []
  closed : Bool := false
  /-- the timers of the scheduler that are neither fired nor cancelled -/
  timers : ℕ → Option Timer := fun _ => none
  nextHandle : ℕ := 0

inductive Action where
  | arm (computerId : String) (runIds : List String)
  | disarm (computerId : String)
  | close
  /-- the scheduler runs the callback of a timer -/
  | fire (handle : ℕ)

structure Event where
  now : ℤ
  action : Action

inductive Answer where
  | nothing
  /-- what `disarm` returns -/
  | resumed (runIds : List String)
  /-- the call of `onExpire` -/
  | expired (computerId : String) (runIds : List String)

variable (graceMs : ℤ)

def Manager.get (m : Manager) (computerId : String) : Option Pending :=
  m.pending.find? (·.computerId = computerId)

def Manager.delete (m : Manager) (computerId : String) : Manager :=
  { m with pending := m.pending.filter (·.computerId ≠ computerId) }

def Manager.cancel (m : Manager) (handle : ℕ) : Manager :=
  { m with timers := Function.update m.timers handle none }

/-- `scheduler.cancel(existing.handle)` -/
def Manager.cancelExisting (m : Manager) (computerId : String) : Manager :=
  match m.get computerId with
  | none => m
  | some existing => m.cancel existing.handle

/-- `scheduler.schedule`, and `pending.set` -/
def Manager.schedule (m : Manager) (now : ℤ) (computerId : String) (runIds : List String) : Manager :=
  { m.delete computerId with
    pending := (m.delete computerId).pending ++ [⟨computerId, runIds, m.nextHandle⟩]
    timers := Function.update m.timers m.nextHandle (some ⟨computerId, runIds, now + graceMs⟩)
    nextHandle := m.nextHandle + 1 }

def step (m : Manager) (event : Event) : Manager × Answer :=
  match event.action with
  | .arm computerId runIds =>
    if m.closed then (m, .nothing)
    else
      let m := m.cancelExisting computerId
      if runIds.isEmpty then (m.delete computerId, .nothing)
      else (m.schedule graceMs event.now computerId runIds, .nothing)
  | .disarm computerId =>
    match m.get computerId with
    | none => (m, .resumed [])
    | some existing => ((m.cancel existing.handle).delete computerId, .resumed existing.runIds)
  | .close =>
    ({ m.pending.foldl (fun m entry => m.cancel entry.handle) { m with closed := true } with
      pending := [] }, .nothing)
  | .fire handle =>
    match m.timers handle with
    | none => (m, .nothing)
    | some timer =>
      ((m.cancel handle).delete timer.computerId, .expired timer.computerId timer.snapshot)

def automaton : Automaton Manager Event Answer where
  step := step graceMs

/-- The scheduler runs a timer that is set, when its time has come. -/
def Fires (m : Manager) (event : Event) : Prop :=
  ∀ handle, event.action = .fire handle → ∃ timer, m.timers handle = some timer ∧ timer.due ≤ event.now

/-! ## What a window is -/

/-- The runs that are waited for, and since when, as told by what was called and answered. -/
structure Windows where
  of : String → Option (List String × ℤ) := fun _ => none
  closed : Bool := false

def Windows.after (w : Windows) (event : Event) (answer : Answer) : Windows :=
  match event.action, answer with
  | .arm computerId runIds, _ =>
    if w.closed then w
    else { w with
      of := Function.update w.of computerId
        (if runIds.isEmpty then none else some (runIds, event.now)) }
  | .disarm computerId, _ => { w with of := Function.update w.of computerId none }
  | .close, _ => { of := fun _ => none, closed := true }
  | .fire _, .expired computerId _ => { w with of := Function.update w.of computerId none }
  | .fire _, _ => w

/-- An answer that the windows account for: a return resumes the runs of the open window, and a window
expires with its own runs once its time is over. -/
def Windows.Accounts (w : Windows) (event : Event) (answer : Answer) : Prop :=
  match event.action, answer with
  | .arm _ _, .nothing => True
  | .disarm computerId, .resumed runIds => runIds = ((w.of computerId).map Prod.fst).getD []
  | .close, .nothing => True
  | .fire _, .expired computerId runIds =>
    ∃ since, w.of computerId = some (runIds, since) ∧ since + graceMs ≤ event.now
  | _, _ => False

def Accounted (w : Windows) : List (Event × Answer) → Prop
  | [] => True
  | (event, answer) :: rest =>
    w.Accounts graceMs event answer ∧ Accounted (w.after event answer) rest

/-! ## The timers are those of the windows -/

/-- The entry of an open window, with its timer. -/
structure Manager.Waits (m : Manager) (computerId : String) (runIds : List String) (since : ℤ)
    (entry : Pending) : Prop where
  computer : entry.computerId = computerId
  runs : entry.runIds = runIds
  timer : m.timers entry.handle = some ⟨computerId, runIds, since + graceMs⟩

structure Keeps (m : Manager) (w : Windows) : Prop where
  closed : m.closed = w.closed
  /-- a computer has an entry if it has a window -/
  window : ∀ computerId runIds since, w.of computerId = some (runIds, since) →
    ∃ entry, m.get computerId = some entry ∧ m.Waits graceMs computerId runIds since entry
  vacant : ∀ computerId, w.of computerId = none → m.get computerId = none
  /-- no timer is left behind -/
  timer : ∀ handle timer, m.timers handle = some timer →
    ∃ entry, m.get timer.computerId = some entry ∧ entry.handle = handle
  fresh : ∀ handle timer, m.timers handle = some timer → handle < m.nextHandle

variable {graceMs} {m : Manager} {w : Windows} {computerId other : String} {handle : ℕ}
  {runIds : List String} {entry : Pending} {timer : Timer} {now since : ℤ}

theorem get_delete_same : (m.delete computerId).get computerId = none := by
  unfold Manager.get Manager.delete
  rw [List.find?_eq_none]
  intro entry member is
  have := (List.mem_filter.mp member).2
  simp_all

theorem get_delete_other (ne : other ≠ computerId) : (m.delete computerId).get other = m.get other := by
  unfold Manager.get Manager.delete
  simp only
  rw [List.find?_filter]
  congr 1
  funext entry
  by_cases is : entry.computerId = other
  · simp [is, ne]
  · simp [is]

theorem get_schedule_same :
    (m.schedule graceMs now computerId runIds).get computerId =
      some ⟨computerId, runIds, m.nextHandle⟩ := by
  have gone : (m.delete computerId).get computerId = none := get_delete_same
  unfold Manager.get at gone ⊢
  unfold Manager.schedule
  simp only
  rw [List.find?_append, gone]
  simp

theorem get_schedule_other (ne : other ≠ computerId) :
    (m.schedule graceMs now computerId runIds).get other = m.get other := by
  rw [← get_delete_other (m := m) ne]
  unfold Manager.get Manager.schedule
  simp only
  rw [List.find?_append]
  simp [ne.symm]

theorem schedule_delete : (m.delete computerId).schedule graceMs now computerId runIds =
    m.schedule graceMs now computerId runIds := by
  simp [Manager.schedule, Manager.delete, List.filter_filter]

/-- Each entry has the timer of its window. -/
theorem Keeps.existing (keeps : Keeps graceMs m w) (is : m.get computerId = some entry) :
    ∃ runIds since, w.of computerId = some (runIds, since) ∧
      m.Waits graceMs computerId runIds since entry := by
  cases held : w.of computerId with
  | none =>
    rw [keeps.vacant computerId held] at is
    cases is
  | some window =>
    obtain ⟨entry', is', waits⟩ := keeps.window computerId window.1 window.2 held
    cases Option.some.inj (is.symm.trans is')
    exact ⟨_, _, rfl, waits⟩

/-- The timers of two computers are different ones. -/
theorem Keeps.separate (keeps : Keeps graceMs m w) {entry' : Pending}
    (is : m.get computerId = some entry) (is' : m.get other = some entry')
    (same : entry.handle = entry'.handle) : computerId = other := by
  obtain ⟨_, _, -, waits⟩ := keeps.existing is
  obtain ⟨_, _, -, waits'⟩ := keeps.existing is'
  have timers := waits'.timer
  rw [← same, waits.timer] at timers
  exact congrArg Timer.computerId (Option.some.inj timers)

theorem Keeps.cancelled (keeps : Keeps graceMs m w) (is : m.get other = some entry)
    (ne : other ≠ computerId) :
    (m.cancelExisting computerId).timers entry.handle = m.timers entry.handle := by
  unfold Manager.cancelExisting
  cases held : m.get computerId with
  | none => rfl
  | some existing =>
    refine Function.update_of_ne (fun same => ne ?_) _ _
    exact keeps.separate is held same

theorem get_cancelExisting : (m.cancelExisting computerId).get other = m.get other := by
  unfold Manager.cancelExisting
  cases m.get computerId <;> rfl

theorem timers_cancelExisting (is : (m.cancelExisting computerId).timers handle = some timer) :
    m.timers handle = some timer ∧ ∀ entry, m.get computerId = some entry → entry.handle ≠ handle := by
  unfold Manager.cancelExisting at is
  cases held : m.get computerId with
  | none =>
    rw [held] at is
    exact ⟨is, nofun⟩
  | some existing =>
    rw [held] at is
    have ne : handle ≠ existing.handle := by
      rintro rfl
      simp [Manager.cancel] at is
    refine ⟨(Function.update_of_ne ne _ _).symm.trans is, fun entry is => ?_⟩
    cases is
    exact ne.symm

/-- A window is closed: its entry goes, and its timer with it. -/
theorem Keeps.drop (keeps : Keeps graceMs m w) (computerId : String) :
    Keeps graceMs ((m.cancelExisting computerId).delete computerId)
      { w with of := Function.update w.of computerId none } where
  closed := by
    rw [← show m.closed = w.closed from keeps.closed]
    unfold Manager.cancelExisting
    cases m.get computerId <;> rfl
  window other runIds since is := by
    have ne : other ≠ computerId := by
      rintro rfl
      simp at is
    obtain ⟨entry, held, waits⟩ :=
      keeps.window other runIds since ((Function.update_of_ne ne _ _).symm.trans is)
    refine ⟨entry, ?_, waits.computer, waits.runs, ?_⟩
    · rw [get_delete_other ne, get_cancelExisting]
      exact held
    · exact (keeps.cancelled held ne).trans waits.timer
  vacant other is := by
    by_cases same : other = computerId
    · rw [same]
      exact get_delete_same
    · rw [get_delete_other same, get_cancelExisting]
      exact keeps.vacant other ((Function.update_of_ne same _ _).symm.trans is)
  timer handle timer is := by
    obtain ⟨before, spared⟩ := timers_cancelExisting is
    obtain ⟨entry, held, same⟩ := keeps.timer handle timer before
    have ne : timer.computerId ≠ computerId := fun is => spared entry (is ▸ held) same
    refine ⟨entry, ?_, same⟩
    rw [get_delete_other ne, get_cancelExisting]
    exact held
  fresh handle timer is := by
    have range := keeps.fresh handle timer (timers_cancelExisting is).1
    unfold Manager.cancelExisting
    cases m.get computerId <;> exact range

/-- A window is opened where there is none. -/
theorem Keeps.schedule (keeps : Keeps graceMs m w) (free : w.of computerId = none) (now : ℤ)
    (runIds : List String) :
    Keeps graceMs (m.schedule graceMs now computerId runIds)
      { w with of := Function.update w.of computerId (some (runIds, now)) } where
  closed := keeps.closed
  window other runIds' since is := by
    by_cases same : other = computerId
    · subst same
      simp only [Function.update_self, Option.some.injEq, Prod.mk.injEq] at is
      obtain ⟨rfl, rfl⟩ := is
      exact ⟨_, get_schedule_same, rfl, rfl, Function.update_self ..⟩
    · obtain ⟨entry, held, waits⟩ :=
        keeps.window other runIds' since ((Function.update_of_ne same _ _).symm.trans is)
      refine ⟨entry, (get_schedule_other same).trans held, waits.computer, waits.runs, ?_⟩
      have older := keeps.fresh _ _ waits.timer
      exact (Function.update_of_ne older.ne _ _).trans waits.timer
  vacant other is := by
    have ne : other ≠ computerId := by
      rintro rfl
      simp at is
    exact (get_schedule_other ne).trans
      (keeps.vacant other ((Function.update_of_ne ne _ _).symm.trans is))
  timer handle timer is := by
    by_cases same : handle = m.nextHandle
    · subst same
      have made : some (⟨computerId, runIds, now + graceMs⟩ : Timer) = some timer := by
        rw [← is]
        exact (Function.update_self m.nextHandle _ m.timers).symm
      cases made
      exact ⟨_, get_schedule_same, rfl⟩
    · obtain ⟨entry, held, handles⟩ :=
        keeps.timer handle timer ((Function.update_of_ne same _ _).symm.trans is)
      have ne : timer.computerId ≠ computerId := by
        intro is
        rw [is, keeps.vacant computerId free] at held
        cases held
      exact ⟨entry, (get_schedule_other ne).trans held, handles⟩
  fresh handle timer is := by
    by_cases same : handle = m.nextHandle
    · rw [same]
      exact Nat.lt_succ_self _
    · exact (keeps.fresh handle timer ((Function.update_of_ne same _ _).symm.trans is)).trans
        (Nat.lt_succ_self _)

theorem timers_cancelAll (entries : List Pending) (m : Manager) :
    (entries.foldl (fun m entry => m.cancel entry.handle) m).timers handle =
      if ∃ entry ∈ entries, entry.handle = handle then none else m.timers handle := by
  induction entries generalizing m with
  | nil => simp
  | cons first rest ih =>
    rw [List.foldl_cons, ih]
    by_cases later : ∃ entry ∈ rest, entry.handle = handle
    · simp [later]
    · by_cases here : first.handle = handle
      · simp [here, Manager.cancel]
      · simp [later, here, Manager.cancel, Function.update_of_ne (Ne.symm here)]

theorem closed_cancelAll (entries : List Pending) (m : Manager) :
    (entries.foldl (fun m entry => m.cancel entry.handle) m).closed = m.closed := by
  induction entries generalizing m with
  | nil => rfl
  | cons first rest ih => exact ih _

theorem Keeps.close (keeps : Keeps graceMs m w) :
    Keeps graceMs { m.pending.foldl (fun (m : Manager) entry => m.cancel entry.handle)
      { m with closed := true } with pending := [] } { of := fun _ => none, closed := true } := by
  have nothing : ∀ handle, (m.pending.foldl (fun (m : Manager) entry => m.cancel entry.handle)
      { m with closed := true }).timers handle = none := by
    intro handle
    rw [timers_cancelAll]
    split
    · rfl
    · rename_i other
      cases held : m.timers handle with
      | none => rfl
      | some timer =>
        obtain ⟨entry, is, same⟩ := keeps.timer handle timer held
        exact absurd ⟨entry, List.mem_of_find?_eq_some is, same⟩ other
  refine ⟨closed_cancelAll _ _, nofun, fun _ _ => rfl, fun handle timer is => ?_,
    fun handle timer is => ?_⟩
  · rw [show _ = none from nothing handle] at is
    cases is
  · rw [show _ = none from nothing handle] at is
    cases is

theorem Keeps.step (keeps : Keeps graceMs m w) (event : Event) (fires : Fires m event) :
    w.Accounts graceMs event (GraceWindow.step graceMs m event).2 ∧
      Keeps graceMs (GraceWindow.step graceMs m event).1
        (w.after event (GraceWindow.step graceMs m event).2) := by
  obtain ⟨now, action⟩ := event
  cases action with
  | arm computerId runIds =>
    simp only [GraceWindow.step, keeps.closed, Windows.after]
    cases shut : w.closed with
    | true =>
      simp only [if_true]
      exact ⟨trivial, keeps⟩
    | false =>
      have dropped := keeps.drop computerId
      rw [shut] at dropped
      simp only [Bool.false_eq_true, if_false]
      by_cases empty : runIds.isEmpty = true
      · simp only [empty, if_true]
        exact ⟨trivial, dropped⟩
      · simp only [empty, Bool.false_eq_true, if_false]
        refine ⟨trivial, ?_⟩
        have opened := dropped.schedule (Function.update_self ..) now runIds
        rwa [schedule_delete, Function.update_idem] at opened
  | disarm computerId =>
    simp only [GraceWindow.step, Windows.after]
    cases held : m.get computerId with
    | none =>
      have vacant : w.of computerId = none := by
        cases is : w.of computerId with
        | none => rfl
        | some window =>
          obtain ⟨entry, there, -⟩ := keeps.window computerId window.1 window.2 is
          rw [held] at there
          cases there
      refine ⟨by simp [Windows.Accounts, vacant], ?_⟩
      have same : Function.update w.of computerId none = w.of := by
        rw [← vacant, Function.update_eq_self]
      simp only [same]
      exact keeps
    | some existing =>
      obtain ⟨runIds, since, is, waits⟩ := keeps.existing held
      refine ⟨by simp [Windows.Accounts, is, waits.runs], ?_⟩
      have dropped := keeps.drop computerId
      unfold Manager.cancelExisting at dropped
      rwa [held] at dropped
  | close => exact ⟨trivial, keeps.close⟩
  | fire handle =>
    obtain ⟨timer, set, due⟩ := fires handle rfl
    obtain ⟨entry, held, same⟩ := keeps.timer handle timer set
    obtain ⟨runIds, since, is, waits⟩ := keeps.existing held
    have timers := waits.timer
    rw [same, set] at timers
    simp only [GraceWindow.step, set, Windows.after]
    refine ⟨⟨since, ?_, ?_⟩, ?_⟩
    · rw [is, Option.some.inj timers]
    · rw [Option.some.inj timers] at due
      exact due
    · have dropped := keeps.drop timer.computerId
      unfold Manager.cancelExisting at dropped
      rw [held] at dropped
      simp only [same] at dropped
      exact dropped

theorem run_accounted {events : List Event} (keeps : Keeps graceMs m w)
    (legal : (automaton graceMs).Legal Fires m events) :
    Accounted graceMs w (events.zip ((automaton graceMs).answers m events)) := by
  induction events generalizing m w with
  | nil => trivial
  | cons event events ih =>
    obtain ⟨accounts, next⟩ := keeps.step event legal.1
    exact ⟨accounts, ih next legal.2⟩

theorem Keeps.start : Keeps graceMs {} {} :=
  ⟨rfl, nofun, fun _ _ => rfl, nofun, nofun⟩

/-- A window that ends in a return or in its expiry. -/
def ends (computerId : String) (call : Event × Answer) : Bool :=
  match call.1.action, call.2 with
  | .disarm other, .resumed runIds => other == computerId && !runIds.isEmpty
  | .fire _, .expired other _ => other == computerId
  | _, _ => false

def arms (computerId : String) (call : Event × Answer) : Bool :=
  match call.1.action with
  | .arm other runIds => other == computerId && !runIds.isEmpty
  | _ => false

def Windows.count (w : Windows) (computerId : String) : ℕ := if (w.of computerId).isSome then 1 else 0

theorem count_after {event : Event} {answer : Answer} (accounts : w.Accounts graceMs event answer)
    (computerId : String) :
    (w.after event answer).count computerId + (if ends computerId (event, answer) then 1 else 0) ≤
      w.count computerId + (if arms computerId (event, answer) then 1 else 0) := by
  obtain ⟨now, action⟩ := event
  unfold Windows.count
  cases action with
  | arm other runIds =>
    have quiet : ends computerId (⟨now, .arm other runIds⟩, answer) = false := by
      cases answer <;> rfl
    simp only [Windows.after, quiet]
    cases w.closed with
    | true => simp
    | false =>
      by_cases same : computerId = other
      · subst same
        cases runIds <;> simp [arms]
      · simp [Function.update_of_ne same]
  | disarm other =>
    cases answer with
    | resumed runIds =>
      by_cases same : computerId = other
      · subst same
        have resumed : runIds = ((w.of computerId).map Prod.fst).getD [] := accounts
        cases held : w.of computerId with
        | none => simp [Windows.after, ends, arms, resumed, held]
        | some window =>
          simp [Windows.after, arms]
          split <;> omega
      · simp [Windows.after, ends, arms, Function.update_of_ne same, Ne.symm same]
    | nothing => exact accounts.elim
    | expired _ _ => exact accounts.elim
  | close =>
    cases answer with
    | nothing => simp [Windows.after, ends]
    | resumed _ => exact accounts.elim
    | expired _ _ => exact accounts.elim
  | fire handle =>
    cases answer with
    | expired other runIds =>
      obtain ⟨since, held, -⟩ := accounts
      by_cases same : computerId = other
      · subst same
        simp [Windows.after, ends, arms, held]
      · simp [Windows.after, ends, arms, Function.update_of_ne same, Ne.symm same]
    | nothing => exact accounts.elim
    | resumed _ => exact accounts.elim

theorem countP_ends {calls : List (Event × Answer)} (accounted : Accounted graceMs w calls)
    (computerId : String) :
    calls.countP (ends computerId) ≤ w.count computerId + calls.countP (arms computerId) := by
  induction calls generalizing w with
  | nil => simp
  | cons call rest ih =>
    obtain ⟨event, answer⟩ := call
    have here := count_after accounted.1 computerId
    have later := ih accounted.2
    rw [List.countP_cons, List.countP_cons]
    omega

/-- No disconnect is settled twice: in every run, the windows of a computer that end in a return or in
their expiry are no more than its disconnects with runs. -/
theorem ends_le_arms {events : List Event} (legal : (automaton graceMs).Legal Fires {} events)
    (computerId : String) :
    (events.zip ((automaton graceMs).answers {} events)).countP (ends computerId) ≤
      (events.zip ((automaton graceMs).answers {} events)).countP (arms computerId) := by
  have bound := countP_ends (run_accounted .start legal) computerId
  simpa [Windows.count] using bound

/-- A computer that is gone for longer than the wait, and returns after it. -/
def late : List Event :=
  [⟨0, .arm "c" ["run"]⟩, ⟨60, .fire 0⟩, ⟨61, .disarm "c"⟩]

theorem late_legal : (automaton 60).Legal Fires {} late :=
  ⟨nofun, fun _ is => ⟨⟨"c", ["run"], 60⟩, by cases is; rfl, by decide⟩, nofun, trivial⟩

theorem ends_le_arms_late :
    (late.zip ((automaton 60).answers {} late)).countP (ends "c") ≤
      (late.zip ((automaton 60).answers {} late)).countP (arms "c") := ends_le_arms late_legal "c"

end Artoo.Realtime.GraceWindow
