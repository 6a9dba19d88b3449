import Artoo.Node.OwnedGitRuns

/-! No signal goes to a process group that was observed absent. -/
namespace Artoo.Node.OwnedGit

variable {options : OwnedGitOptions} {oracle : Oracle} {v w : World} {past : List Event}

def Calm (acts : List Act) : Prop :=
  acts.Pairwise fun earlier later => earlier = .absent → later = .absent

theorem calm_append {acts : List Act} (present : .absent ∉ acts) (act : Act) : Calm (acts ++ [act]) := by
  unfold Calm
  rw [List.pairwise_append]
  refine ⟨?_, List.pairwise_singleton _ _, ?_⟩
  · exact List.Pairwise.imp_of_mem (fun member _ _ is => absurd (is ▸ member) present)
      (List.pairwise_of_forall fun _ _ => trivial)
  · intro earlier member _ _ is
    exact absurd (is ▸ member) present

/-- The group was observed absent only after a spawn or an exit, and nothing brings it back. -/
structure Guarded (past : List Event) (w : World) : Prop where
  calm : Calm w.acts
  gone : .absent ∈ w.acts → w.groupState = .absent ∧ (w.spawned = true ∨ w.exitObserved = true)
  own : w.pid = w.childPid
  drain : w.normalDrainStarted ≠ none → w.exitObserved = true
  began : w.spawned = true → .spawn ∈ past
  left : w.exitObserved = true → ∃ code signal, Event.exit code signal ∈ past

structure Unmoved (v w : World) : Prop where
  acts : v.acts = w.acts
  groupState : v.groupState = w.groupState
  childPid : v.childPid = w.childPid
  pid : v.pid = w.pid
  spawned : v.spawned = w.spawned
  exitObserved : v.exitObserved = w.exitObserved
  normalDrainStarted : v.normalDrainStarted = w.normalDrainStarted

theorem Guarded.unmoved (h : Guarded past w) (same : Unmoved v w) : Guarded past v := by
  constructor
  · rw [same.acts]; exact h.calm
  · rw [same.acts, same.groupState, same.spawned, same.exitObserved]; exact h.gone
  · rw [same.pid, same.childPid]; exact h.own
  · rw [same.normalDrainStarted, same.exitObserved]; exact h.drain
  · rw [same.spawned]; exact h.began
  · rw [same.exitObserved]; exact h.left

theorem Guarded.more (h : Guarded past w) (event : Event) : Guarded (past ++ [event]) w := by
  refine ⟨h.calm, h.gone, h.own, h.drain, ?_, ?_⟩
  · intro spawned
    exact List.mem_append_left _ (h.began spawned)
  · intro exited
    obtain ⟨code, signal, member⟩ := h.left exited
    exact ⟨code, signal, List.mem_append_left _ member⟩

theorem Guarded.present (h : Guarded past w) (present : w.groupState ≠ .absent) : .absent ∉ w.acts :=
  fun member => present (h.gone member).1

/-! ## The operations -/

theorem Guarded.finish (h : Guarded past w) (code : Option OwnedGitErrorCode) :
    Guarded past (finish code w) := by
  unfold OwnedGit.finish
  split_ifs
  · exact h
  · exact h.unmoved (by constructor <;> rfl)

theorem Guarded.probe (h : Guarded past w) (started : w.spawned = true ∨ w.exitObserved = true) :
    Guarded past (probeGroup oracle w) := by
  unfold probeGroup
  split_ifs with known
  · exact h
  · simp only [Bool.or_eq_true, beq_iff_eq, not_or] at known
    have present := h.present known.2
    dsimp only
    cases oracle.kill (w.kills + 1 - 1) with
    | sent => exact ⟨h.calm, fun member => absurd member present, h.own, h.drain, h.began, h.left⟩
    | failed code =>
      dsimp only
      split_ifs
      · exact ⟨calm_append present _, fun _ => ⟨rfl, started⟩, h.own, h.drain, h.began, h.left⟩
      · exact ⟨h.calm, fun member => absurd member present, h.own, h.drain, h.began, h.left⟩

theorem Guarded.signalGroup (h : Guarded past w) (spawned : w.spawned = true)
    (known : w.groupState ≠ .absent) (name : Signal) : Guarded past (signalGroup oracle name w) := by
  have present : Act.absent ∉ w.acts ++ [.signal name] := by
    simp only [List.mem_append, List.mem_singleton, reduceCtorEq, or_false]
    exact h.present known
  unfold OwnedGit.signalGroup
  dsimp only
  cases oracle.kill (w.kills + 1 - 1) with
  | sent =>
    exact ⟨calm_append (h.present known) _, fun member => absurd member present, h.own, h.drain,
      h.began, h.left⟩
  | failed code =>
    dsimp only
    split_ifs
    · exact ⟨calm_append present _, fun _ => ⟨rfl, Or.inl spawned⟩, h.own, h.drain, h.began, h.left⟩
    · exact ⟨calm_append (h.present known) _, fun member => absurd member present, h.own, h.drain,
        h.began, h.left⟩

theorem Guarded.send (h : Guarded past w) (name : Signal) :
    Guarded past (sendGroupSignal oracle name w) := by
  unfold sendGroupSignal
  by_cases idle : w.pid.isNone || !w.spawned
  · rw [if_pos idle]
    exact h
  · rw [if_neg idle]
    simp only [Bool.or_eq_true, Bool.not_eq_true', not_or, Bool.not_eq_false] at idle
    have probed : Guarded past (probeGroup oracle w) := h.probe (Or.inl idle.2)
    dsimp only
    split_ifs with known
    · exact probed
    · apply probed.signalGroup
      · rw [(same_probeGroup oracle w).spawned]
        exact idle.2
      · exact known

theorem Guarded.probeSpawned (h : Guarded past w) : Guarded past (probeSpawned oracle w) := by
  unfold OwnedGit.probeSpawned
  split_ifs with spawned
  · exact h.probe (Or.inl spawned)
  · exact h

theorem Guarded.terminateGroup (h : Guarded past w) : Guarded past (terminateGroup oracle w) := by
  have marked : Guarded past { w with termSent := true } := h.unmoved (by constructor <;> rfl)
  unfold OwnedGit.terminateGroup
  split_ifs
  · exact marked.send _
  · exact h

theorem Guarded.killGroup (h : Guarded past w) (elapsed : ℚ) :
    Guarded past (killGroup options oracle elapsed w) := by
  have marked : Guarded past { w with killSent := true } := h.unmoved (by constructor <;> rfl)
  unfold OwnedGit.killGroup
  dsimp only
  split_ifs
  · exact marked.send _
  · exact h

theorem Guarded.pollCleanup (h : Guarded past w) : Guarded past (pollCleanup options oracle w) := by
  unfold OwnedGit.pollCleanup
  cases w.settled with
  | true => exact h
  | false =>
    cases w.terminationStarted with
    | none => exact h
    | some since =>
      have probed : Guarded past (OwnedGit.probeSpawned oracle w) := h.probeSpawned
      have read : Guarded past (OwnedGit.probeSpawned oracle w).read :=
        probed.unmoved (by constructor <;> rfl)
      dsimp only
      split_ifs
      · exact probed.finish _
      · exact probed.finish _
      · exact (read.terminateGroup.killGroup _).finish _
      · exact read.terminateGroup.killGroup _

theorem Guarded.interruptDrain (h : Guarded past w) : Guarded past (interruptDrain oracle w) := by
  unfold OwnedGit.interruptDrain
  cases w.normalDrainStarted with
  | none => exact h
  | some started =>
    dsimp only
    split_ifs
    · exact h.unmoved (by constructor <;> rfl)
    · exact h

theorem Guarded.terminate (h : Guarded past w) (reason : Trigger) :
    Guarded past (terminate options oracle reason w) := by
  have noted_ : Guarded past (noted reason w) := h.unmoved (by constructor <;> rfl)
  have interrupted : Guarded past (OwnedGit.interruptDrain oracle (noted reason w)) :=
    noted_.interruptDrain
  unfold OwnedGit.terminate
  dsimp only
  split_ifs
  · exact h
  · exact (interrupted.unmoved (by constructor <;> rfl)).pollCleanup
  · exact interrupted

theorem Guarded.pollNormalDrain (h : Guarded past w) :
    Guarded past (pollNormalDrain options oracle w) := by
  unfold OwnedGit.pollNormalDrain
  cases w.settled || w.trigger.isSome with
  | true => exact h
  | false =>
    cases started : w.normalDrainStarted with
    | none => exact h
    | some since =>
      have probed : Guarded past (probeGroup oracle w) :=
        h.probe (Or.inr (h.drain (by rw [started]; nofun)))
      have polled : Guarded past (drainRead oracle since (probeGroup oracle w)) :=
        probed.unmoved (by constructor <;> rfl)
      dsimp only
      split_ifs
      · exact (polled.unmoved (by constructor <;> rfl)).terminate _
      · exact (polled.unmoved (by constructor <;> rfl)).finish _
      · exact polled

/-! ## Callbacks -/

/-- A spawn comes first, and once. -/
theorem Guarded.onSpawn (h : Guarded past w) (first : .spawn ∉ past)
    (early : ∀ code signal, Event.exit code signal ∉ past) :
    Guarded (past ++ [.spawn]) (onSpawn options oracle w) := by
  have idle : Act.absent ∉ w.acts := by
    intro member
    cases (h.gone member).2 with
    | inl spawned => exact first (h.began spawned)
    | inr exited =>
      obtain ⟨code, signal, exit⟩ := h.left exited
      exact early code signal exit
  have more := h.more .spawn
  have spawned : Guarded (past ++ [.spawn])
      { w with spawned := true, pid := w.childPid, groupState := .present } :=
    ⟨h.calm, fun member => absurd member idle, rfl, h.drain,
      fun _ => List.mem_append_right _ (List.mem_singleton_self _), more.left⟩
  unfold OwnedGit.onSpawn
  dsimp only
  split_ifs
  · exact spawned.pollCleanup
  · exact spawned

theorem Guarded.onChildError (h : Guarded past w) (code : Option String) :
    Guarded past (onChildError options oracle code w) := by
  unfold OwnedGit.onChildError
  dsimp only
  split_ifs with late
  · simp only [Bool.and_eq_true] at late
    have own := h.own
    rw [Option.isNone_iff_eq_none.mp late.1] at own
    rw [← own] at late
    exact absurd late.2 Bool.false_ne_true
  · exact (h.unmoved (by constructor <;> rfl)).terminate _

theorem Guarded.onExit (h : Guarded past w) (code : Option ℤ) (childSignal : Option String) :
    Guarded (past ++ [.exit code childSignal]) (onExit options oracle code childSignal w) := by
  have more := h.more (.exit code childSignal)
  have exited : Guarded (past ++ [.exit code childSignal]) { w with
      exitObserved := true
      status := code
      exitSignal := childSignal
      exits := w.exits ++ [(code, childSignal)] } :=
    ⟨h.calm, fun member => ⟨(h.gone member).1, Or.inr rfl⟩, h.own, fun _ => rfl, more.began,
      fun _ => ⟨code, childSignal, List.mem_append_right _ (List.mem_singleton_self _)⟩⟩
  unfold OwnedGit.onExit
  dsimp only
  split_ifs
  · exact exited
  · exact exited.terminate _
  · exact exited.terminate _
  · apply Guarded.pollNormalDrain
    unfold beginDrain
    split_ifs
    · exact ⟨exited.calm, exited.gone, exited.own, fun _ => rfl, exited.began, exited.left⟩
    · exact exited

theorem Guarded.onClose (h : Guarded past w) (code : Option ℤ) (childSignal : Option String) :
    Guarded past (onClose options oracle code childSignal w) := by
  have closed : Guarded past { w with
      closeObserved := true
      status := w.status.or code
      exitSignal := w.exitSignal.or childSignal } := h.unmoved (by constructor <;> rfl)
  unfold OwnedGit.onClose
  dsimp only
  split_ifs
  · exact closed.pollCleanup
  · exact closed.pollNormalDrain
  · exact closed.terminate _
  · exact closed.terminate _

theorem Guarded.retain (h : Guarded past w) (target : Target) (chunk : List UInt8) :
    Guarded past (retain options target chunk w) := by
  unfold OwnedGit.retain
  dsimp only
  split_ifs
  · cases target with
    | stdout => exact h.unmoved (by constructor <;> rfl)
    | stderr => exact h.unmoved (by constructor <;> rfl)
  · exact h.unmoved (by constructor <;> rfl)

theorem Guarded.capture (h : Guarded past w) (target : Target) (chunk : List UInt8) :
    Guarded past (capture options oracle target chunk w) := by
  have kept : Guarded past (OwnedGit.retain options target chunk w) := h.retain target chunk
  unfold OwnedGit.capture
  dsimp only
  split_ifs
  · exact h
  · exact (kept.unmoved (by constructor <;> rfl)).terminate _
  · exact kept

/-! ## A run -/

/-- As Node emits the callbacks: `spawn` at most once, and before an exit. -/
def SpawnFirst (events : List Event) : Prop :=
  ∀ earlier later, events = earlier ++ .spawn :: later →
    .spawn ∉ earlier ∧ ∀ code signal, Event.exit code signal ∉ earlier

theorem Guarded.step (h : Guarded past w) {event : Event} (ordered : SpawnFirst (past ++ [event])) :
    Guarded (past ++ [event]) (step options oracle w event) := by
  unfold OwnedGit.step
  by_cases settled : w.settled = true
  · rw [if_pos settled]
    exact h.more event
  · rw [if_neg settled]
    cases event with
    | spawn =>
      obtain ⟨first, early⟩ := ordered past [] rfl
      dsimp only
      split_ifs
      · exact h.onSpawn first early
      · exact h.more _
    | error code => exact (h.more _).onChildError code
    | exit code signal => exact h.onExit code signal
    | close code signal => exact (h.more _).onClose code signal
    | data target chunk => exact (h.more _).capture target chunk
    | streamError => exact (h.more _).terminate _
    | abort => exact (h.more _).terminate _
    | operationTimer => exact (h.more _).terminate _
    | cleanupTimer => exact (h.more _).pollCleanup
    | drainTimer => exact (h.more _).pollNormalDrain

theorem Guarded.run (h : Guarded past w) {events : List Event} (ordered : SpawnFirst (past ++ events)) :
    Guarded (past ++ events) (run options oracle w events) := by
  induction events generalizing past w with
  | nil =>
    rw [List.append_nil]
    exact h
  | cons event events ih =>
    rw [List.append_cons] at ordered ⊢
    apply ih _ ordered
    apply h.step
    intro earlier later is
    apply ordered earlier (later ++ events)
    rw [is, List.append_assoc, List.cons_append]

theorem guarded_fresh (attempted failed : Bool) (code : Option String) (pid : Option ℕ)
    (trigger : Option Trigger) (reasons : List Trigger) :
    Guarded [] { spawnAttempted := attempted, synchronousSpawnFailure := failed, spawnErrorCode := code
                 childPid := pid, pid, trigger, reasons } := by
  refine ⟨List.Pairwise.nil, nofun, rfl, ?_, nofun, nofun⟩
  intro begun
  exact absurd rfl begun

theorem guarded_launch (request : OwnedGitRequest) (result : SpawnResult) :
    Guarded [] (launch options request result) := by
  unfold launch refuse
  split_ifs
  · exact (guarded_fresh false false none none _ _).finish _
  · exact (guarded_fresh false false none none _ _).finish _
  · exact (guarded_fresh false false none none _ _).finish _
  · cases result with
    | throws code => exact (guarded_fresh true true code none _ _).finish _
    | child pid => exact guarded_fresh true false none pid none []

theorem calm_runOwnedGit (request : OwnedGitRequest) (result : SpawnResult) (events : List Event)
    (ordered : SpawnFirst events) :
    Calm (runOwnedGit options oracle request result events).acts :=
  ((guarded_launch request result).run ordered).calm

/-- A call is settled at most once, and says what happened; it keeps no more output than it may, and once
the group was observed absent it signals nothing. -/
theorem runOwnedGit_sound (options : OwnedGitOptions) (oracle : Oracle) (request : OwnedGitRequest)
    (result : SpawnResult) (events : List Event) :
    let w := runOwnedGit options oracle request result events
    w.settlements.length ≤ 1 ∧
    (∀ s confirmed, (s, confirmed) ∈ w.settlements → Reported options oracle w s) ∧
    w.stdout.length + w.stderr.length = w.capturedBytes ∧
    (w.capturedBytes : ℤ) ≤ max 0 options.maxOutputBytes ∧
    (SpawnFirst events → ∀ earlier name later, w.acts = earlier ++ .absent :: later →
      .signal name ∉ later) := by
  intro w
  have fine : Fine options oracle w := (fine_launch request result).run events
  have silent : SpawnFirst events → ∀ earlier name later, w.acts = earlier ++ .absent :: later →
      Act.signal name ∉ later := by
    intro ordered earlier name later is member
    have calm : Calm w.acts := calm_runOwnedGit request result events ordered
    rw [is] at calm
    have after := List.rel_of_pairwise_cons (List.pairwise_append.mp calm).2.1 member
    exact absurd (after rfl) nofun
  cases fine with
  | inl unsettled =>
    rw [unsettled.nothing]
    exact ⟨Nat.zero_le _, nofun, unsettled.captured,
      le_max_of_le_right unsettled.room, silent⟩
  | inr settled =>
    obtain ⟨s, confirmed, is, reported⟩ := settled.one
    rw [is]
    refine ⟨le_refl _, ?_, settled.captured, ?_, silent⟩
    swap
    · cases settled.room with
      | inl none_ => rw [none_]; exact le_max_left 0 _
      | inr room => exact le_max_of_le_right room
    intro s' confirmed' member
    obtain ⟨rfl, rfl⟩ := Prod.mk.inj (List.mem_singleton.mp member)
    exact reported

theorem runOwnedGit_sound_listing :
    let options : OwnedGitOptions :=
      { gitExecutable := "/usr/bin/git", readTimeoutMs := 1000, materializeTimeoutMs := 1000
        maxOutputBytes := 4 }
    let oracle : Oracle := { now := fun n => n, kill := fun _ => .failed (some "ESRCH") }
    let events : List Event :=
      [.spawn, .data .stdout [97, 98, 99], .exit (some 0) none, .close (some 0) none, .abort]
    let w := runOwnedGit options oracle { cwd := "/repo", kind := "read" } (.child (some 7)) events
    w.settlements = [(.resolved 0, true)] ∧ w.acts = [.absent] ∧
      Reported options oracle w (.resolved 0) ∧
      ∀ earlier name later, w.acts = earlier ++ .absent :: later → .signal name ∉ later := by
  intro options oracle events w
  have settled : w.settlements = [(.resolved 0, true)] := by decide +kernel
  have sound := runOwnedGit_sound options oracle { cwd := "/repo", kind := "read" }
    (.child (some 7)) events
  refine ⟨settled, by decide +kernel, ?_, sound.2.2.2.2 ?_⟩
  · apply sound.2.1 (.resolved 0) true
    change (_, _) ∈ w.settlements
    rw [settled]
    exact List.mem_singleton_self _
  · intro earlier later is
    cases earlier with
    | nil => exact ⟨nofun, nofun⟩
    | cons event earlier =>
      have rest : [_, _, _, _] = earlier ++ .spawn :: later := (List.cons.inj is).2
      have member : Event.spawn ∈ earlier ++ .spawn :: later := by simp
      rw [← rest] at member
      simp at member

end Artoo.Node.OwnedGit
