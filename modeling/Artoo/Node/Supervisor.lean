import Mathlib.Data.List.Basic
import Mathlib.Tactic.Linarith

/-! The supervisor of the local node: its state machine, the child that it runs, and the timers of the
restarts. -/
namespace Artoo.Node.Supervisor

/-! ## The state machine -/

inductive SupervisorState where
  | stopped | starting | running | unhealthy | stopping
  deriving DecidableEq, Repr

inductive SupervisorEvent where
  | start
  | ready
  | heartbeat (healthy : Bool)
  | stop
  | exited (expected : Bool)
  | startFailed
  deriving DecidableEq, Repr

def nextSupervisorState : SupervisorState → SupervisorEvent → SupervisorState
  | .stopped, .start => .starting
  | .stopped, _ => .stopped
  | .starting, .ready => .running
  | .starting, .startFailed | .starting, .exited _ => .stopped
  | .starting, .stop => .stopping
  | .starting, _ => .starting
  | .running, .heartbeat healthy => if healthy then .running else .unhealthy
  | .running, .stop => .stopping
  | .running, .exited _ => .stopped
  | .running, _ => .running
  | .unhealthy, .heartbeat healthy => if healthy then .running else .unhealthy
  | .unhealthy, .stop => .stopping
  | .unhealthy, .exited _ => .stopped
  | .unhealthy, _ => .unhealthy
  | .stopping, .exited _ => .stopped
  | .stopping, _ => .stopping

def isCrash (state : SupervisorState) : SupervisorEvent → Bool
  | .exited expected => !expected && state != .stopping && state != .stopped
  | _ => false

structure RestartPolicy where
  maxRestarts : ℕ := 5
  baseDelayMs : ℕ := 1000
  maxDelayMs : ℕ := 30000

/-- The delay of the next restart, if there is one. -/
def restartDecision (restartCount : ℕ) (policy : RestartPolicy) : Option ℕ :=
  if policy.maxRestarts ≤ restartCount then none
  else some (min (policy.baseDelayMs * 2 ^ restartCount) policy.maxDelayMs)

/-! ## The supervisor -/

inductive Signal where
  | sigterm | sigkill
  deriving DecidableEq, Repr

inductive Timer (ε : Type) where
  | respawn (generation : ℕ) (env : ε) (delayMs : ℕ)
  | kill (handle : ℕ) (delayMs : ℕ)

structure SupervisorDeps where
  dateParse : String → Option ℤ
  staleAfterMs : ℤ := 30000
  killGraceMs : ℕ := 5000
  restartPolicy : RestartPolicy := {}

/-- The supervisor, and what it has begun: its children by number, of which some still run and some
have an exit that is not handled yet, the signals sent to them, and the timers that are set. -/
structure World (ε : Type) where
  state : SupervisorState := .stopped
  restarts : ℕ := 0
  child : Option ℕ := none
  lastEnv : Option ε := none
  stopRequested : Bool := false
  generation : ℕ := 0
  spawned : ℕ := 0
  live : List ℕ := []
  awaited : List ℕ := []
  signals : List (ℕ × Signal) := []
  timers : List (Timer ε) := []

section Supervisor

variable {ε : Type} (deps : SupervisorDeps)

def isHeartbeatHealthy (lastSeenIso : Option String) (nowIso : String) : Bool :=
  match lastSeenIso.bind deps.dateParse, deps.dateParse nowIso with
  | some last, some now => now - last ≤ deps.staleAfterMs
  | _, _ => false

def maybeRestart (w : World ε) : World ε :=
  match restartDecision w.restarts deps.restartPolicy, w.lastEnv with
  | some delayMs, some env =>
    { w with
      restarts := w.restarts + 1
      timers := w.timers ++ [.respawn w.generation env delayMs] }
  | _, _ => w

def transition (event : SupervisorEvent) (w : World ε) : World ε :=
  let crashed := isCrash w.state event
  let w := { w with state := nextSupervisorState w.state event }
  if crashed then maybeRestart deps w else w

/-- The spawner may throw, and then no child is there. -/
def spawnNode (env : ε) (throws : Bool) (w : World ε) : World ε :=
  let w := { w with lastEnv := some env, stopRequested := false }
  if throws then w
  else
    transition deps .start
      { w with
        child := some w.spawned
        spawned := w.spawned + 1
        live := w.spawned :: w.live
        awaited := w.spawned :: w.awaited }

/-- What `handle.exited` is followed by. -/
def onExited (handle : ℕ) (w : World ε) : World ε :=
  let expected := w.stopRequested
  transition deps (.exited expected)
    { w with child := if w.child = some handle then none else w.child }

def start (env : ε) (throws : Bool) (w : World ε) : World ε :=
  if w.state ≠ .stopped then w
  else spawnNode deps env throws { w with generation := w.generation + 1, restarts := 0 }

def tick (lastHeartbeatIso : Option String) (nowIso : String) (w : World ε) : World ε :=
  if w.state = .stopped ∨ w.state = .stopping then w
  else
    let healthy := isHeartbeatHealthy deps lastHeartbeatIso nowIso
    let w := if healthy then { w with restarts := 0 } else w
    if w.state = .starting then if healthy then transition deps .ready w else w
    else transition deps (.heartbeat healthy) w

def stop (w : World ε) : World ε :=
  let w := { w with generation := w.generation + 1 }
  if w.state = .stopped then w
  else
    let w := transition deps .stop { w with stopRequested := true }
    match w.child with
    | none => transition deps (.exited true) w
    | some handle =>
      { w with
        signals := w.signals ++ [(handle, .sigterm)]
        timers := w.timers ++ [.kill handle deps.killGraceMs] }

def onTimer (timer : Timer ε) (throws : Bool) (w : World ε) : World ε :=
  match timer with
  | .respawn generation env _ =>
    if w.generation = generation ∧ w.state = .stopped then spawnNode deps env throws w else w
  | .kill handle _ =>
    if w.state = .stopping ∧ w.child = some handle then
      { w with signals := w.signals ++ [(handle, .sigkill)] }
    else w

/-! ## Events -/

inductive Event (ε : Type) where
  | start (env : ε) (throws : Bool)
  | stop
  | tick (lastHeartbeatIso : Option String) (nowIso : String)
  /-- the process of a child ends -/
  | exits (handle : ℕ)
  /-- its end is handled -/
  | exited (handle : ℕ)
  /-- a timer that is set fires -/
  | timer (index : ℕ) (throws : Bool)

def step (w : World ε) : Event ε → World ε
  | .start env throws => start deps env throws w
  | .stop => stop deps w
  | .tick lastHeartbeatIso nowIso => tick deps lastHeartbeatIso nowIso w
  | .exits handle => { w with live := w.live.erase handle }
  | .exited handle =>
    if handle ∈ w.awaited ∧ handle ∉ w.live then
      onExited deps handle { w with awaited := w.awaited.erase handle }
    else w
  | .timer index throws =>
    match w.timers[index]? with
    | some timer => onTimer deps timer throws { w with timers := w.timers.eraseIdx index }
    | none => w

def run (w : World ε) (events : List (Event ε)) : World ε := events.foldl (step deps) w

/-! ## The invariant -/

/-- A restart that no start and no stop has cancelled. -/
def current (generation : ℕ) : Timer ε → Bool
  | .respawn g _ _ => g == generation
  | .kill _ _ => false

def pending (w : World ε) : ℕ := w.timers.countP (current w.generation)

/-- Outside of `stopped` there is one child, and its exit is still to be handled; a restart is pending
only in `stopped`, and it is one of the counted ones. -/
structure Inv (w : World ε) : Prop where
  idle : w.state = .stopped → w.awaited = []
  busy : w.state ≠ .stopped → pending w = 0 ∧ ∃ c, w.awaited = [c] ∧ w.child = some c
  within : w.live.Sublist w.awaited
  past : ∀ g env delayMs, .respawn g env delayMs ∈ w.timers → g ≤ w.generation
  one : pending w ≤ 1
  counted : pending w ≤ w.restarts
  few : w.restarts ≤ deps.restartPolicy.maxRestarts

variable {deps} {w : World ε}

theorem countP_eraseIdx {α : Type} {l : List α} {i : ℕ} {a : α} (p : α → Bool) (is : l[i]? = some a) :
    (l.eraseIdx i).countP p + (if p a then 1 else 0) = l.countP p := by
  obtain ⟨lt, rfl⟩ := List.getElem?_eq_some_iff.mp is
  have whole : l = l.take i ++ l[i] :: l.drop (i + 1) := by
    rw [← List.drop_eq_getElem_cons lt, List.take_append_drop]
  rw [List.eraseIdx_eq_take_drop_succ, List.countP_append]
  conv_rhs => rw [whole, List.countP_append, List.countP_cons]
  omega

theorem pending_bump (past : ∀ g env delayMs, .respawn g env delayMs ∈ w.timers → g ≤ w.generation) :
    w.timers.countP (current (w.generation + 1)) = 0 := by
  rw [List.countP_eq_zero]
  intro timer there
  cases timer with
  | respawn g env delayMs =>
    have le := past g env delayMs there
    simp only [current, beq_iff_eq]
    omega
  | kill handle delayMs => simp [current]

variable (deps) in
theorem transition_cases (event : SupervisorEvent) (w : World ε) :
    transition deps event w = { w with state := nextSupervisorState w.state event } ∨
    isCrash w.state event = true ∧ ∃ env delayMs, w.restarts < deps.restartPolicy.maxRestarts ∧
      transition deps event w =
        { w with
          state := nextSupervisorState w.state event
          restarts := w.restarts + 1
          timers := w.timers ++ [.respawn w.generation env delayMs] } := by
  unfold transition maybeRestart
  cases crashed : isCrash w.state event with
  | false => exact Or.inl rfl
  | true =>
    unfold restartDecision
    by_cases spent : deps.restartPolicy.maxRestarts ≤ w.restarts
    · left
      simp [spent]
    · cases w.lastEnv with
      | none =>
        left
        simp [spent]
      | some env =>
        right
        refine ⟨rfl, env, min (deps.restartPolicy.baseDelayMs * 2 ^ w.restarts)
          deps.restartPolicy.maxDelayMs, by omega, ?_⟩
        simp [spent]

theorem transition_quiet {event : SupervisorEvent} (quiet : isCrash w.state event = false) :
    transition deps event w = { w with state := nextSupervisorState w.state event } := by
  unfold transition
  rw [quiet]
  rfl

theorem Inv.live_of_stopped (h : Inv deps w) (stopped : w.state = .stopped) : w.live = [] := by
  have sub := h.within
  rw [h.idle stopped] at sub
  exact List.sublist_nil.mp sub

theorem Inv.spawn (h : Inv deps w) (stopped : w.state = .stopped) (none_ : pending w = 0) (env : ε)
    (throws : Bool) : Inv deps (spawnNode deps env throws w) ∧
      pending (spawnNode deps env throws w) = 0 ∧
      (spawnNode deps env throws w).restarts = w.restarts ∧
      (spawnNode deps env throws w).spawned ≤ w.spawned + 1 := by
  unfold spawnNode
  cases throws with
  | true =>
    refine ⟨⟨h.idle, h.busy, h.within, h.past, h.one, h.counted, h.few⟩, none_, rfl, ?_⟩
    exact Nat.le_succ _
  | false =>
    simp only [Bool.false_eq_true, if_false]
    rw [transition_quiet rfl, stopped]
    have waits := h.idle stopped
    have lives := h.live_of_stopped stopped
    refine ⟨⟨nofun, fun _ => ⟨none_, w.spawned, ?_, rfl⟩, ?_, h.past, h.one, h.counted, h.few⟩,
      none_, rfl, le_refl _⟩
    · rw [waits]
    · rw [waits, lives]

theorem Inv.start (h : Inv deps w) (env : ε) (throws : Bool) :
    Inv deps (start deps env throws w) := by
  unfold Supervisor.start
  split_ifs with other
  · exact h
  · have stopped : w.state = .stopped := not_not.mp other
    have none_ := pending_bump h.past
    have reset : Inv deps { w with generation := w.generation + 1, restarts := 0 } :=
      ⟨h.idle, fun busy => absurd stopped busy, h.within,
        fun g env delayMs there => (h.past g env delayMs there).trans (Nat.le_succ _),
        none_.trans_le (Nat.zero_le _), none_.le, Nat.zero_le _⟩
    exact (reset.spawn stopped none_ env throws).1

theorem next_still {state : SupervisorState} {event : SupervisorEvent} (busy : state ≠ .stopped)
    (runs : event = .ready ∨ event = .stop ∨ ∃ healthy, event = .heartbeat healthy) :
    nextSupervisorState state event ≠ .stopped ∧ isCrash state event = false := by
  rcases runs with rfl | rfl | ⟨healthy, rfl⟩
  · cases state <;> simp [nextSupervisorState, isCrash] at busy ⊢
  · cases state <;> simp [nextSupervisorState, isCrash] at busy ⊢
  · cases state <;> cases healthy <;> simp [nextSupervisorState, isCrash] at busy ⊢

/-- A state that is not `stopped` is left for another such state. -/
theorem Inv.still (h : Inv deps w) (busy : w.state ≠ .stopped) {event : SupervisorEvent}
    (runs : event = .ready ∨ event = .stop ∨ ∃ healthy, event = .heartbeat healthy) :
    Inv deps (transition deps event w) ∧
      transition deps event w = { w with state := nextSupervisorState w.state event } := by
  obtain ⟨other, quiet⟩ := next_still busy runs
  rw [transition_quiet quiet]
  exact ⟨⟨fun is => absurd is other, fun _ => h.busy busy, h.within, h.past, h.one, h.counted, h.few⟩,
    rfl⟩

theorem Inv.tick (h : Inv deps w) (lastHeartbeatIso : Option String) (nowIso : String) :
    Inv deps (tick deps lastHeartbeatIso nowIso w) ∧
      (tick deps lastHeartbeatIso nowIso w).spawned = w.spawned ∧
      pending (tick deps lastHeartbeatIso nowIso w) = pending w ∧
      (isHeartbeatHealthy deps lastHeartbeatIso nowIso = false →
        (tick deps lastHeartbeatIso nowIso w).restarts = w.restarts) := by
  unfold Supervisor.tick
  by_cases out : w.state = .stopped ∨ w.state = .stopping
  · rw [if_pos out]
    exact ⟨h, rfl, rfl, fun _ => rfl⟩
  · rw [if_neg out]
    have busy : w.state ≠ .stopped := fun is => out (Or.inl is)
    have none_ := (h.busy busy).1
    cases isHeartbeatHealthy deps lastHeartbeatIso nowIso with
    | true =>
      have reset : Inv deps { w with restarts := 0 } :=
        ⟨h.idle, h.busy, h.within, h.past, h.one, none_.le, Nat.zero_le _⟩
      dsimp only
      simp only [if_true]
      split_ifs with starting
      · obtain ⟨inv, is⟩ := reset.still busy (Or.inl rfl)
        rw [is] at inv ⊢
        exact ⟨inv, rfl, rfl, nofun⟩
      · obtain ⟨inv, is⟩ := reset.still busy (Or.inr (Or.inr ⟨true, rfl⟩))
        rw [is] at inv ⊢
        exact ⟨inv, rfl, rfl, nofun⟩
    | false =>
      dsimp only
      simp only [Bool.false_eq_true, if_false]
      split_ifs with starting
      · exact ⟨h, rfl, rfl, fun _ => rfl⟩
      · obtain ⟨inv, is⟩ := h.still busy (Or.inr (Or.inr ⟨false, rfl⟩))
        rw [is] at inv ⊢
        exact ⟨inv, rfl, rfl, fun _ => rfl⟩

/-- After a stop nothing is pending, and the child was asked to end. -/
def Stopped (w : World ε) : Prop :=
  pending w = 0 ∧ (w.state = .stopped ∨ (w.state = .stopping ∧ w.stopRequested = true))

theorem pending_kill {n : ℕ} {timers : List (Timer ε)} {handle delayMs : ℕ} :
    (timers ++ [Timer.kill handle delayMs]).countP (current n) = timers.countP (current n) := by
  rw [List.countP_append, List.countP_singleton]
  simp [current]

theorem Inv.stop (h : Inv deps w) :
    Inv deps (stop deps w) ∧ Stopped (stop deps w) ∧ (stop deps w).spawned = w.spawned ∧
      (stop deps w).restarts = w.restarts := by
  have none_ := pending_bump h.past
  have bumped : Inv deps { w with generation := w.generation + 1 } :=
    ⟨h.idle, fun busy => ⟨none_, (h.busy busy).2⟩, h.within,
      fun g env delayMs there => (h.past g env delayMs there).trans (Nat.le_succ _),
      none_.trans_le (Nat.zero_le _), none_.trans_le (Nat.zero_le _), h.few⟩
  unfold Supervisor.stop
  by_cases stopped : w.state = .stopped
  · rw [if_pos stopped]
    exact ⟨bumped, ⟨none_, Or.inl stopped⟩, rfl, rfl⟩
  · rw [if_neg stopped]
    obtain ⟨_, c, waits, child⟩ := h.busy stopped
    have asked : Inv deps { w with generation := w.generation + 1, stopRequested := true } :=
      ⟨bumped.idle, bumped.busy, bumped.within, bumped.past, bumped.one, bumped.counted, bumped.few⟩
    obtain ⟨inv, is⟩ := asked.still stopped (Or.inr (Or.inl rfl))
    have stopping : nextSupervisorState w.state .stop = .stopping := by
      cases state : w.state with
      | stopped => exact absurd state stopped
      | _ => rfl
    dsimp only
    rw [is] at inv ⊢
    dsimp only
    rw [child]
    have same : (w.timers ++ [Timer.kill c deps.killGraceMs]).countP (current (w.generation + 1)) =
        w.timers.countP (current (w.generation + 1)) := pending_kill
    refine ⟨⟨inv.idle, fun busy => ⟨same.trans none_, c, waits, rfl⟩, inv.within, ?_,
      (same.trans none_).trans_le (Nat.zero_le _), (same.trans none_).trans_le (Nat.zero_le _),
      inv.few⟩, ⟨same.trans none_, Or.inr ⟨stopping, rfl⟩⟩, rfl, rfl⟩
    intro g env delayMs there
    rcases List.mem_append.mp there with old | new
    · exact inv.past g env delayMs old
    · cases List.mem_singleton.mp new

theorem Inv.exited {handle : ℕ} (h : Inv deps w) (waits : handle ∈ w.awaited)
    (ended : handle ∉ w.live) :
    let after := onExited deps handle { w with awaited := w.awaited.erase handle }
    Inv deps after ∧ after.spawned = w.spawned ∧ (Stopped w → Stopped after) ∧
      pending after + w.restarts ≤ pending w + after.restarts := by
  have busy : w.state ≠ .stopped := by
    intro stopped
    rw [h.idle stopped] at waits
    cases waits
  obtain ⟨none_, c, alone, child⟩ := h.busy busy
  rw [alone, List.mem_singleton] at waits
  subst waits
  have dead : w.live = [] := by
    have sub := h.within
    rw [alone] at sub
    rcases List.sublist_singleton.mp sub with none_ | one
    · exact none_
    · rw [one] at ended
      exact absurd List.mem_cons_self ended
  have stops : nextSupervisorState w.state (.exited w.stopRequested) = .stopped := by
    cases is : w.state with
    | stopped => exact absurd is busy
    | _ => rfl
  unfold onExited
  rw [alone, List.erase_cons_head, if_pos child, dead]
  dsimp only
  rcases transition_cases deps (.exited w.stopRequested)
    { w with child := none, live := [], awaited := [] } with is | ⟨crashed, env, delayMs, room, is⟩
  · rw [is]
    refine ⟨⟨fun _ => rfl, fun still => absurd stops still, List.nil_sublist _, h.past, h.one,
      h.counted, h.few⟩, rfl, fun _ => ⟨none_, Or.inl stops⟩, le_refl _⟩
  · rw [is]
    have one : pending
        { w with
          state := nextSupervisorState w.state (.exited w.stopRequested)
          restarts := w.restarts + 1
          child := none
          live := []
          awaited := []
          timers := w.timers ++ [.respawn w.generation env delayMs] } = 1 := by
      have before : w.timers.countP (current w.generation) = 0 := none_
      unfold pending
      dsimp only
      rw [List.countP_append, before, List.countP_singleton]
      simp [current]
    refine ⟨⟨fun _ => rfl, fun still => absurd stops still, List.nil_sublist _, ?_, one.le,
      one.trans_le (Nat.le_add_left _ _), room⟩, rfl, ?_, ?_⟩
    · intro g env' delayMs' there
      rcases List.mem_append.mp there with old | new
      · exact h.past g env' delayMs' old
      · cases List.mem_singleton.mp new
        exact le_refl _
    · -- an exit that was asked for is no crash
      rintro ⟨_, stopped | ⟨stopping, _⟩⟩
      · exact absurd stopped busy
      · dsimp only at crashed
        rw [stopping] at crashed
        simp [isCrash] at crashed
    · rw [one, none_]
      dsimp only
      omega

theorem Inv.erase (h : Inv deps w) (index : ℕ) :
    Inv deps { w with timers := w.timers.eraseIdx index } ∧
      pending { w with timers := w.timers.eraseIdx index } ≤ pending w := by
  have fewer : pending { w with timers := w.timers.eraseIdx index } ≤ pending w :=
    (List.eraseIdx_sublist w.timers index).countP_le
  refine ⟨⟨h.idle, fun busy => ⟨Nat.le_zero.mp (fewer.trans (h.busy busy).1.le), (h.busy busy).2⟩,
    h.within, ?_, fewer.trans h.one, fewer.trans h.counted, h.few⟩, fewer⟩
  intro g env delayMs there
  exact h.past g env delayMs (List.mem_of_mem_eraseIdx there)

theorem Inv.timer {index : ℕ} {timer : Timer ε} (h : Inv deps w) (throws : Bool)
    (there : w.timers[index]? = some timer) :
    let after := onTimer deps timer throws { w with timers := w.timers.eraseIdx index }
    Inv deps after ∧ (Stopped w → Stopped after ∧ after.spawned = w.spawned) ∧
      after.spawned + pending after + w.restarts ≤ w.spawned + pending w + after.restarts := by
  obtain ⟨inv, fewer⟩ := h.erase index
  have quiet : Stopped w → Stopped { w with timers := w.timers.eraseIdx index } :=
    fun stopped => ⟨Nat.le_zero.mp (fewer.trans stopped.1.le), stopped.2⟩
  unfold onTimer
  cases timer with
  | kill handle delayMs =>
    dsimp only
    split_ifs with stopping
    · refine ⟨⟨inv.idle, inv.busy, inv.within, inv.past, inv.one, inv.counted, inv.few⟩,
        fun stopped => ⟨quiet stopped, rfl⟩, ?_⟩
      have same : w.spawned + pending { w with timers := w.timers.eraseIdx index } + w.restarts ≤
        w.spawned + pending w + w.restarts := by omega
      exact same
    · refine ⟨inv, fun stopped => ⟨quiet stopped, rfl⟩, ?_⟩
      dsimp only
      omega
  | respawn g env delayMs =>
    dsimp only
    split_ifs with fits
    · obtain ⟨same, stopped⟩ := fits
      have counts := countP_eraseIdx (current w.generation) there
      rw [if_pos (by simp [current, same])] at counts
      have before : w.timers.countP (current w.generation) = pending w := rfl
      have after : (w.timers.eraseIdx index).countP (current w.generation) =
        pending { w with timers := w.timers.eraseIdx index } := rfl
      rw [before, after] at counts
      have one := h.one
      obtain ⟨fine, none_, restarts, spawned⟩ := inv.spawn stopped (by omega) env throws
      refine ⟨fine, ?_, ?_⟩
      · rintro ⟨idle, -⟩
        omega
      · rw [none_, restarts]
        dsimp only at spawned ⊢
        omega
    · refine ⟨inv, fun stopped => ⟨quiet stopped, rfl⟩, ?_⟩
      dsimp only
      omega

/-! ## Runs -/

/-- The events that clear the budget: a start and a healthy sample. -/
def Event.resets (deps : SupervisorDeps) : Event ε → Bool
  | .start _ _ => true
  | .tick lastHeartbeatIso nowIso => isHeartbeatHealthy deps lastHeartbeatIso nowIso
  | _ => false

variable (deps) in
theorem step_timer (w : World ε) (index : ℕ) (throws : Bool) :
    step deps w (.timer index throws) = w ∨ ∃ timer, w.timers[index]? = some timer ∧
      step deps w (.timer index throws) =
        onTimer deps timer throws { w with timers := w.timers.eraseIdx index } := by
  unfold step
  dsimp only
  cases w.timers[index]? with
  | none => exact Or.inl rfl
  | some timer => exact Or.inr ⟨timer, rfl, rfl⟩

theorem step_inv (h : Inv deps w) (event : Event ε) : Inv deps (step deps w event) := by
  cases event with
  | start env throws => exact h.start env throws
  | stop => exact h.stop.1
  | tick last now => exact (h.tick last now).1
  | exits handle =>
    exact ⟨h.idle, h.busy, List.erase_sublist.trans h.within, h.past, h.one, h.counted, h.few⟩
  | exited handle =>
    unfold step
    dsimp only
    split_ifs with due
    · exact (h.exited due.1 due.2).1
    · exact h
  | timer index throws =>
    rcases step_timer deps w index throws with is | ⟨timer, there, is⟩
    · rw [is]
      exact h
    · rw [is]
      exact (h.timer throws there).1

theorem step_stopped (h : Inv deps w) {event : Event ε} (other : ∀ env throws, event ≠ .start env throws)
    (stopped : Stopped w) :
    Stopped (step deps w event) ∧ (step deps w event).spawned = w.spawned := by
  cases event with
  | start env throws => exact absurd rfl (other env throws)
  | stop => exact ⟨h.stop.2.1, h.stop.2.2.1⟩
  | tick last now =>
    have out : w.state = .stopped ∨ w.state = .stopping := stopped.2.imp id And.left
    have same : step deps w (.tick last now) = w := if_pos out
    rw [same]
    exact ⟨stopped, rfl⟩
  | exits handle => exact ⟨stopped, rfl⟩
  | exited handle =>
    unfold step
    dsimp only
    split_ifs with due
    · obtain ⟨-, spawned, quiet, -⟩ := h.exited due.1 due.2
      exact ⟨quiet stopped, spawned⟩
    · exact ⟨stopped, rfl⟩
  | timer index throws =>
    rcases step_timer deps w index throws with is | ⟨timer, there, is⟩
    · rw [is]
      exact ⟨stopped, rfl⟩
    · rw [is]
      exact (h.timer throws there).2.1 stopped

/-- A spawn without a reset uses up a restart that was counted before. -/
theorem step_spends (h : Inv deps w) {event : Event ε} (other : event.resets deps = false) :
    (step deps w event).spawned + pending (step deps w event) + w.restarts ≤
      w.spawned + pending w + (step deps w event).restarts := by
  cases event with
  | start env throws => cases other
  | stop =>
    obtain ⟨-, ⟨none_, -⟩, spawned, restarts⟩ := h.stop
    change (stop deps w).spawned + pending (stop deps w) + w.restarts ≤ _ + (stop deps w).restarts
    omega
  | tick last now =>
    obtain ⟨-, spawned, pending_, restarts⟩ := h.tick last now
    have same := restarts other
    change (tick deps last now w).spawned + pending (tick deps last now w) + w.restarts ≤
      _ + (tick deps last now w).restarts
    omega
  | exits handle => exact le_refl _
  | exited handle =>
    unfold step
    dsimp only
    split_ifs with due
    · obtain ⟨-, spawned, -, spends⟩ := h.exited due.1 due.2
      omega
    · exact le_refl _
  | timer index throws =>
    rcases step_timer deps w index throws with is | ⟨timer, there, is⟩
    · rw [is]
    · rw [is]
      exact (h.timer throws there).2.2

theorem run_inv (h : Inv deps w) (events : List (Event ε)) : Inv deps (run deps w events) := by
  unfold run
  induction events generalizing w with
  | nil => exact h
  | cons event events ih => exact ih (step_inv h event)

theorem run_stopped (h : Inv deps w) {events : List (Event ε)}
    (others : ∀ event ∈ events, ∀ env throws, event ≠ .start env throws) (stopped : Stopped w) :
    (run deps w events).spawned = w.spawned := by
  unfold run
  induction events generalizing w with
  | nil => rfl
  | cons event events ih =>
    obtain ⟨still, same⟩ := step_stopped h (others event List.mem_cons_self) stopped
    exact (ih (step_inv h event)
      (fun later there => others later (List.mem_cons_of_mem _ there)) still).trans same

theorem run_spends (h : Inv deps w) {events : List (Event ε)}
    (others : ∀ event ∈ events, event.resets deps = false) :
    (run deps w events).spawned + pending (run deps w events) + w.restarts ≤
      w.spawned + pending w + (run deps w events).restarts := by
  unfold run
  induction events generalizing w with
  | nil => exact le_refl _
  | cons event events ih =>
    have first := step_spends h (others event List.mem_cons_self)
    have rest := ih (step_inv h event) fun later there => others later (List.mem_cons_of_mem _ there)
    rw [List.foldl_cons]
    omega

theorem inv_initial (deps : SupervisorDeps) : Inv deps ({} : World ε) :=
  ⟨fun _ => rfl, fun busy => absurd rfl busy, List.Sublist.refl _, nofun, Nat.zero_le _, le_refl _,
    Nat.zero_le _⟩

/-- At most one child runs; after a stop none is spawned until the next start; and between two resets
of the budget at most `maxRestarts` are. -/
theorem supervision (deps : SupervisorDeps) (before : List (Event ε)) :
    (run deps {} before).live.length ≤ 1 ∧
    (∀ after, (∀ event ∈ after, ∀ env throws, event ≠ .start env throws) →
      (run deps {} (before ++ .stop :: after)).spawned = (run deps {} before).spawned) ∧
    ∀ after, (∀ event ∈ after, event.resets deps = false) →
      (run deps {} (before ++ after)).spawned ≤
        (run deps {} before).spawned + deps.restartPolicy.maxRestarts := by
  have inv := run_inv (inv_initial deps) before
  refine ⟨?_, ?_, ?_⟩
  · refine inv.within.length_le.trans ?_
    by_cases stopped : (run deps {} before).state = .stopped
    · rw [inv.idle stopped]
      exact Nat.zero_le _
    · obtain ⟨-, c, alone, -⟩ := inv.busy stopped
      rw [alone]
      exact le_refl _
  · intro after others
    have whole : run deps {} (before ++ .stop :: after) =
        run deps (stop deps (run deps {} before)) after := by
      unfold run
      rw [List.foldl_append]
      rfl
    rw [whole, run_stopped inv.stop.1 others inv.stop.2.1]
    exact inv.stop.2.2.1
  · intro after others
    have whole : run deps {} (before ++ after) = run deps (run deps {} before) after :=
      List.foldl_append
    have spends := run_spends inv others
    have last := (run_inv inv after).few
    have counted := inv.counted
    rw [whole]
    omega

end Supervisor

/-- With a budget of one restart, two starts lead to two respawns, and no sample was taken. -/
theorem supervision_started :
    let deps : SupervisorDeps := { dateParse := fun _ => none, restartPolicy := { maxRestarts := 1 } }
    let life (handle : ℕ) : List (Event Unit) :=
      [.exits handle, .exited handle, .timer 0 false, .exits (handle + 1), .exited (handle + 1)]
    let events := .start () false :: life 0 ++ .start () false :: life 2
    (∀ event ∈ events, event matches .start _ _ | .exits _ | .exited _ | .timer _ _) ∧
    deps.restartPolicy.maxRestarts + events.countP (fun event => event matches .start _ _) <
      (run deps {} events).spawned := by
  decide

end Artoo.Node.Supervisor
