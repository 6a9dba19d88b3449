import Artoo.Node.OwnedGit

/-! The runs of the owned Git runner: what its one settlement says, and what is done to the group. -/
namespace Artoo.Node.OwnedGit

variable {options : OwnedGitOptions} {oracle : Oracle} {v w : World}

/-! ## The settlement -/

/-- Before the settlement. Without a trigger a drain has begun with a normal exit. -/
structure Unsettled (options : OwnedGitOptions) (w : World) : Prop where
  pending : w.settled = false
  nothing : w.settlements = []
  sticky : w.trigger = w.reasons.head?
  ended : w.terminationStarted ≠ none → w.trigger ≠ none
  drained : w.trigger = none → w.normalDrainStarted ≠ none →
    w.exitObserved = true ∧ ∃ n, w.status = some n ∧ (some n, none) ∈ w.exits
  output : w.trigger = none → (w.observedBytes : ℤ) ≤ options.maxOutputBytes
  captured : w.stdout.length + w.stderr.length = w.capturedBytes
  room : (w.capturedBytes : ℤ) ≤ options.maxOutputBytes
  observed : w.groupState = .absent → .absent ∈ w.acts

/-- A result comes from a normal exit, a close and an absent group, all before the deadline of the drain;
an error names the first reason. -/
def Reported (options : OwnedGitOptions) (oracle : Oracle) (w : World) : Settlement → Prop
  | .resolved n => w.reasons = [] ∧ w.exitObserved = true ∧ (some n, none) ∈ w.exits ∧
      w.closeObserved = true ∧ w.groupState = .absent ∧ .absent ∈ w.acts ∧
      (∃ started reading, w.normalDrainStarted = some started ∧
        w.normalDrainElapsed = oracle.now reading - started ∧
        oracle.now reading - started < options.normalExitDrainMs) ∧
      (w.observedBytes : ℤ) ≤ options.maxOutputBytes
  | .rejected code => code = .cleanupUncertain ∨ ∃ t, code = .trigger t ∧ w.reasons.head? = some t

structure Settled (options : OwnedGitOptions) (oracle : Oracle) (w : World) : Prop where
  done : w.settled = true
  one : ∃ s confirmed, w.settlements = [(s, confirmed)] ∧ Reported options oracle w s
  captured : w.stdout.length + w.stderr.length = w.capturedBytes
  room : w.capturedBytes = 0 ∨ (w.capturedBytes : ℤ) ≤ options.maxOutputBytes

def Fine (options : OwnedGitOptions) (oracle : Oracle) (w : World) : Prop :=
  Unsettled options w ∨ Settled options oracle w

theorem Unsettled.reject (h : Unsettled options w) {code : OwnedGitErrorCode}
    (is : code = .cleanupUncertain ∨ ∃ t, code = .trigger t ∧ w.reasons.head? = some t) :
    Settled options oracle (finish (some code) w) := by
  unfold finish
  rw [h.pending]
  refine ⟨rfl, ⟨.rejected code, cleanupConfirmed w, ?_, is⟩, h.captured, Or.inr h.room⟩
  change w.settlements ++ _ = _
  rw [h.nothing]
  rfl

theorem Unsettled.resolve (h : Unsettled options w) (quiet : w.trigger = none)
    (begun : w.normalDrainStarted ≠ none) (closed : w.closeObserved = true)
    (absent : w.groupState = .absent)
    (early : ∃ started reading, w.normalDrainStarted = some started ∧
      w.normalDrainElapsed = oracle.now reading - started ∧
      oracle.now reading - started < options.normalExitDrainMs) :
    Settled options oracle (finish none w) := by
  obtain ⟨exited, n, status, exit⟩ := h.drained quiet begun
  have reasons : w.reasons = [] := List.head?_eq_none_iff.mp (h.sticky.symm.trans quiet)
  unfold finish
  rw [h.pending, status]
  refine ⟨rfl, ⟨.resolved n, cleanupConfirmed w, ?_, ?_⟩, h.captured, Or.inr h.room⟩
  · change w.settlements ++ _ = _
    rw [h.nothing]
    rfl
  · exact ⟨reasons, exited, exit, closed, absent, h.observed absent, early, h.output quiet⟩

theorem Unsettled.first (h : Unsettled options w) (ended : w.terminationStarted ≠ none) :
    ∃ t, w.trigger = some t ∧ w.reasons.head? = some t := by
  obtain ⟨t, is⟩ := Option.ne_none_iff_exists'.mp (h.ended ended)
  exact ⟨t, is, h.sticky.symm.trans is⟩

/-! ## The process group -/

/-- What probes, signals and readings of the clock leave as it is. -/
structure Same (v w : World) : Prop where
  settled : v.settled = w.settled
  settlements : v.settlements = w.settlements
  trigger : v.trigger = w.trigger
  reasons : v.reasons = w.reasons
  terminationStarted : v.terminationStarted = w.terminationStarted
  normalDrainStarted : v.normalDrainStarted = w.normalDrainStarted
  exitObserved : v.exitObserved = w.exitObserved
  closeObserved : v.closeObserved = w.closeObserved
  status : v.status = w.status
  exits : v.exits = w.exits
  observedBytes : v.observedBytes = w.observedBytes
  capturedBytes : v.capturedBytes = w.capturedBytes
  stdout : v.stdout = w.stdout
  stderr : v.stderr = w.stderr
  childPid : v.childPid = w.childPid
  pid : v.pid = w.pid
  spawned : v.spawned = w.spawned
  readings : v.readings = w.readings

theorem Same.refl (w : World) : Same w w := by
  constructor <;> rfl

theorem same_probeGroup (oracle : Oracle) (w : World) : Same (probeGroup oracle w) w := by
  unfold probeGroup
  split_ifs
  · exact Same.refl w
  · dsimp only
    cases oracle.kill (w.kills + 1 - 1) with
    | sent => constructor <;> rfl
    | failed code =>
      dsimp only
      split_ifs
      · constructor <;> rfl
      · constructor <;> rfl

theorem observed_probeGroup (oracle : Oracle) (h : w.groupState = .absent → .absent ∈ w.acts) :
    (probeGroup oracle w).groupState = .absent → .absent ∈ (probeGroup oracle w).acts := by
  unfold probeGroup
  split_ifs
  · exact h
  · dsimp only
    cases oracle.kill (w.kills + 1 - 1) with
    | sent => nofun
    | failed code =>
      dsimp only
      split_ifs
      · simp
      · nofun

theorem same_signalGroup (oracle : Oracle) (name : Signal) (w : World) :
    Same (signalGroup oracle name w) w := by
  unfold signalGroup
  dsimp only
  cases oracle.kill (w.kills + 1 - 1) with
  | sent => constructor <;> rfl
  | failed code =>
    dsimp only
    split_ifs
    · constructor <;> rfl
    · constructor <;> rfl

theorem observed_signalGroup (oracle : Oracle) (name : Signal)
    (h : w.groupState = .absent → .absent ∈ w.acts) :
    (signalGroup oracle name w).groupState = .absent →
      .absent ∈ (signalGroup oracle name w).acts := by
  unfold signalGroup
  dsimp only
  cases oracle.kill (w.kills + 1 - 1) with
  | sent =>
    intro absent
    exact List.mem_append_left _ (h absent)
  | failed code =>
    dsimp only
    split_ifs
    · simp
    · nofun

theorem Unsettled.same (h : Unsettled options w) (same : Same v w)
    (observed : v.groupState = .absent → .absent ∈ v.acts) : Unsettled options v := by
  constructor
  · rw [same.settled]; exact h.pending
  · rw [same.settlements]; exact h.nothing
  · rw [same.trigger, same.reasons]; exact h.sticky
  · rw [same.terminationStarted, same.trigger]; exact h.ended
  · rw [same.trigger, same.normalDrainStarted, same.exitObserved, same.status, same.exits]
    exact h.drained
  · rw [same.trigger, same.observedBytes]; exact h.output
  · rw [same.stdout, same.stderr, same.capturedBytes]; exact h.captured
  · rw [same.capturedBytes]; exact h.room
  · exact observed

theorem Unsettled.probe (h : Unsettled options w) : Unsettled options (probeGroup oracle w) :=
  h.same (same_probeGroup oracle w) (observed_probeGroup oracle h.observed)

theorem Unsettled.send (h : Unsettled options w) (name : Signal) :
    Unsettled options (sendGroupSignal oracle name w) := by
  unfold sendGroupSignal
  dsimp only
  split_ifs
  · exact h
  · exact h.probe
  · exact h.probe.same (same_signalGroup oracle name _) (observed_signalGroup oracle name h.probe.observed)

theorem Unsettled.probeSpawned (h : Unsettled options w) :
    Unsettled options (probeSpawned oracle w) := by
  unfold OwnedGit.probeSpawned
  split_ifs
  · exact h.probe
  · exact h

theorem same_probeSpawned (oracle : Oracle) (w : World) : Same (probeSpawned oracle w) w := by
  unfold probeSpawned
  split_ifs
  · exact same_probeGroup oracle w
  · exact Same.refl w

theorem Unsettled.terminateGroup (h : Unsettled options w) :
    Unsettled options (terminateGroup oracle w) := by
  have marked : Unsettled options { w with termSent := true } :=
    ⟨h.pending, h.nothing, h.sticky, h.ended, h.drained, h.output, h.captured, h.room, h.observed⟩
  unfold OwnedGit.terminateGroup
  split_ifs
  · exact marked.send _
  · exact h

theorem Unsettled.killGroup (h : Unsettled options w) (elapsed : ℚ) :
    Unsettled options (killGroup options oracle elapsed w) := by
  have marked : Unsettled options { w with killSent := true } :=
    ⟨h.pending, h.nothing, h.sticky, h.ended, h.drained, h.output, h.captured, h.room, h.observed⟩
  unfold OwnedGit.killGroup
  dsimp only
  split_ifs
  · exact marked.send _
  · exact h

theorem Unsettled.read (h : Unsettled options w) : Unsettled options w.read :=
  ⟨h.pending, h.nothing, h.sticky, h.ended, h.drained, h.output, h.captured, h.room, h.observed⟩

/-! ## Termination -/

theorem Unsettled.pollCleanup (h : Unsettled options w) :
    Fine options oracle (pollCleanup options oracle w) := by
  unfold OwnedGit.pollCleanup
  rw [h.pending]
  cases started : w.terminationStarted with
  | none => exact Or.inl h
  | some since =>
    obtain ⟨t, trigger, first⟩ := h.first (by rw [started]; nofun)
    have probed : Unsettled options (OwnedGit.probeSpawned oracle w) := h.probeSpawned
    have same := same_probeSpawned oracle w
    rw [← same.trigger] at trigger
    rw [← same.reasons] at first
    dsimp only
    rw [trigger]
    split_ifs
    · exact Or.inr (probed.reject (Or.inr ⟨t, rfl, first⟩))
    · exact Or.inr (probed.reject (Or.inr ⟨t, rfl, first⟩))
    · exact Or.inr ((probed.read.terminateGroup.killGroup _).reject (Or.inl rfl))
    · exact Or.inl (probed.read.terminateGroup.killGroup _)

/-- What holds before a termination, also where the output was just seen to be too long. -/
structure Failing (options : OwnedGitOptions) (w : World) : Prop where
  pending : w.settled = false
  nothing : w.settlements = []
  sticky : w.trigger = w.reasons.head?
  captured : w.stdout.length + w.stderr.length = w.capturedBytes
  room : (w.capturedBytes : ℤ) ≤ options.maxOutputBytes
  observed : w.groupState = .absent → .absent ∈ w.acts

theorem Unsettled.failing (h : Unsettled options w) : Failing options w :=
  ⟨h.pending, h.nothing, h.sticky, h.captured, h.room, h.observed⟩

theorem Failing.drainRead (h : Failing options w) (started : ℚ) :
    Failing options (drainRead oracle started w) :=
  ⟨h.pending, h.nothing, h.sticky, h.captured, h.room, h.observed⟩

theorem Failing.noted (h : Failing options w) (reason : Trigger) : Failing options (noted reason w) := by
  refine ⟨h.pending, h.nothing, ?_, h.captured, h.room, h.observed⟩
  change w.trigger.or (some reason) = (w.reasons ++ [reason]).head?
  rw [h.sticky, List.head?_append]
  rfl

theorem Failing.interruptDrain (h : Failing options w) :
    Failing options (interruptDrain oracle w) := by
  unfold OwnedGit.interruptDrain
  cases w.normalDrainStarted with
  | none => exact h
  | some started =>
    have read : Failing options (OwnedGit.drainRead oracle started w) := h.drainRead started
    dsimp only
    split_ifs
    · exact ⟨read.pending, read.nothing, read.sticky, read.captured, read.room, read.observed⟩
    · exact h

theorem trigger_interruptDrain (oracle : Oracle) (w : World) :
    (interruptDrain oracle w).trigger = w.trigger := by
  unfold interruptDrain
  cases w.normalDrainStarted with
  | none => rfl
  | some started =>
    dsimp only
    split_ifs
    · rfl
    · rfl

theorem Failing.unsettled (h : Failing options w) (triggered : w.trigger ≠ none) :
    Unsettled options w :=
  ⟨h.pending, h.nothing, h.sticky, fun _ => triggered, fun none_ => absurd none_ triggered,
    fun none_ => absurd none_ triggered, h.captured, h.room, h.observed⟩

theorem Failing.terminating (h : Failing options w) : Failing options (terminating oracle w) :=
  ⟨h.pending, h.nothing, h.sticky, h.captured, h.room, h.observed⟩

theorem Failing.terminate (h : Failing options w) (reason : Trigger) :
    Fine options oracle (terminate options oracle reason w) := by
  have noted_ : Failing options (OwnedGit.interruptDrain oracle (OwnedGit.noted reason w)) :=
    (h.noted reason).interruptDrain
  have triggered : (OwnedGit.interruptDrain oracle (OwnedGit.noted reason w)).trigger ≠ none := by
    rw [trigger_interruptDrain]
    change w.trigger.or (some reason) ≠ none
    cases w.trigger with
    | none => nofun
    | some t => nofun
  unfold OwnedGit.terminate
  rw [if_neg (by rw [h.pending]; nofun)]
  dsimp only
  split_ifs with first
  · exact (noted_.terminating.unsettled triggered).pollCleanup
  · exact Or.inl (noted_.unsettled triggered)

/-! ## The end of a normal exit -/

theorem Unsettled.drainRead (h : Unsettled options w) (started : ℚ) :
    Unsettled options (drainRead oracle started w) :=
  ⟨h.pending, h.nothing, h.sticky, h.ended, h.drained, h.output, h.captured, h.room, h.observed⟩

theorem Unsettled.pollNormalDrain (h : Unsettled options w) :
    Fine options oracle (pollNormalDrain options oracle w) := by
  unfold OwnedGit.pollNormalDrain
  rw [h.pending, Bool.false_or]
  cases trigger : w.trigger with
  | some t => exact Or.inl h
  | none =>
    cases started : w.normalDrainStarted with
    | none => exact Or.inl h
    | some since =>
      have same := same_probeGroup oracle w
      have probed : Unsettled options (probeGroup oracle w) := h.probe
      have polled : Unsettled options (OwnedGit.drainRead oracle since (probeGroup oracle w)) :=
        probed.drainRead since
      rw [← same.trigger] at trigger
      rw [← same.normalDrainStarted] at started
      dsimp only [Option.isSome_none]
      split_ifs with late closed
      · apply Failing.terminate
        exact ⟨polled.pending, polled.nothing, polled.sticky, polled.captured, polled.room,
          polled.observed⟩
      · simp only [Bool.and_eq_true, beq_iff_eq] at closed
        have closing : Unsettled options { OwnedGit.drainRead oracle since (probeGroup oracle w) with
            normalDrainOutcome := .closed } :=
          ⟨polled.pending, polled.nothing, polled.sticky, polled.ended, polled.drained, polled.output,
            polled.captured, polled.room, polled.observed⟩
        have begun : (probeGroup oracle w).normalDrainStarted ≠ none := by rw [started]; nofun
        right
        exact closing.resolve trigger begun closed.1.2 closed.2
          ⟨since, (probeGroup oracle w).readings, started, rfl, not_le.mp late⟩
      · exact Or.inl polled

/-! ## Callbacks -/

theorem Unsettled.onSpawn (h : Unsettled options w) : Fine options oracle (onSpawn options oracle w) := by
  have spawned : Unsettled options
      { w with spawned := true, pid := w.childPid, groupState := .present } :=
    ⟨h.pending, h.nothing, h.sticky, h.ended, h.drained, h.output, h.captured, h.room, nofun⟩
  unfold OwnedGit.onSpawn
  dsimp only
  split_ifs
  · exact spawned.pollCleanup
  · exact Or.inl spawned

theorem Unsettled.onChildError (h : Unsettled options w) (code : Option String) :
    Fine options oracle (onChildError options oracle code w) := by
  unfold OwnedGit.onChildError
  dsimp only
  split_ifs
  · apply Failing.terminate
    exact ⟨h.pending, h.nothing, h.sticky, h.captured, h.room, fun absent => nomatch absent⟩
  · apply Failing.terminate
    exact ⟨h.pending, h.nothing, h.sticky, h.captured, h.room, h.observed⟩

theorem Unsettled.onExit (h : Unsettled options w) (code : Option ℤ) (childSignal : Option String) :
    Fine options oracle (onExit options oracle code childSignal w) := by
  unfold OwnedGit.onExit
  dsimp only
  split_ifs with triggered signaled empty
  · left
    have some_ : w.trigger ≠ none := by
      intro none_
      rw [none_] at triggered
      exact absurd triggered Bool.false_ne_true
    exact ⟨h.pending, h.nothing, h.sticky, h.ended, fun none_ => absurd none_ some_,
      h.output, h.captured, h.room, h.observed⟩
  · apply Failing.terminate
    exact ⟨h.pending, h.nothing, h.sticky, h.captured, h.room, h.observed⟩
  · apply Failing.terminate
    exact ⟨h.pending, h.nothing, h.sticky, h.captured, h.room, h.observed⟩
  · obtain ⟨n, rfl⟩ : ∃ n, code = some n := by
      cases code with
      | none => exact absurd rfl empty
      | some n => exact ⟨n, rfl⟩
    obtain rfl : childSignal = none := by
      cases childSignal with
      | none => rfl
      | some s => exact absurd rfl signaled
    apply Unsettled.pollNormalDrain
    unfold beginDrain
    have exits : (some n, none) ∈ w.exits ++ [(some n, (none : Option String))] := by simp
    split_ifs
    · exact ⟨h.pending, h.nothing, h.sticky, h.ended, fun _ _ => ⟨rfl, n, rfl, exits⟩, h.output,
        h.captured, h.room, h.observed⟩
    · exact ⟨h.pending, h.nothing, h.sticky, h.ended, fun _ _ => ⟨rfl, n, rfl, exits⟩, h.output,
        h.captured, h.room, h.observed⟩

theorem Unsettled.onClose (h : Unsettled options w) (code : Option ℤ) (childSignal : Option String) :
    Fine options oracle (onClose options oracle code childSignal w) := by
  have drained : w.trigger = none → w.normalDrainStarted ≠ none →
      w.exitObserved = true ∧ ∃ n, w.status.or code = some n ∧ (some n, none) ∈ w.exits := by
    intro quiet begun
    obtain ⟨exited, n, status, exit⟩ := h.drained quiet begun
    exact ⟨exited, n, by rw [status]; rfl, exit⟩
  unfold OwnedGit.onClose
  dsimp only
  split_ifs
  · exact Unsettled.pollCleanup ⟨h.pending, h.nothing, h.sticky, h.ended, drained, h.output,
      h.captured, h.room, h.observed⟩
  · exact Unsettled.pollNormalDrain ⟨h.pending, h.nothing, h.sticky, h.ended, drained, h.output,
      h.captured, h.room, h.observed⟩
  · apply Failing.terminate
    exact ⟨h.pending, h.nothing, h.sticky, h.captured, h.room, h.observed⟩
  · apply Failing.terminate
    exact ⟨h.pending, h.nothing, h.sticky, h.captured, h.room, h.observed⟩

theorem Failing.retain (h : Failing options w) (target : Target) (chunk : List UInt8) :
    Failing options (retain options target chunk w) := by
  unfold OwnedGit.retain
  dsimp only
  split_ifs with more
  · have short : (chunk.take (options.maxOutputBytes - w.capturedBytes).toNat).length ≤
        (options.maxOutputBytes - w.capturedBytes).toNat := List.length_take_le _ _
    generalize chunk.take (options.maxOutputBytes - w.capturedBytes).toNat = part at short
    have captured := h.captured
    have room : ((w.capturedBytes + part.length : ℕ) : ℤ) ≤ options.maxOutputBytes := by omega
    cases target with
    | stdout =>
      refine ⟨h.pending, h.nothing, h.sticky, ?_, room, h.observed⟩
      change (w.stdout ++ part).length + w.stderr.length = w.capturedBytes + part.length
      rw [List.length_append]
      omega
    | stderr =>
      refine ⟨h.pending, h.nothing, h.sticky, ?_, room, h.observed⟩
      change w.stdout.length + (w.stderr ++ part).length = w.capturedBytes + part.length
      rw [List.length_append]
      omega
  · exact ⟨h.pending, h.nothing, h.sticky, h.captured, h.room, h.observed⟩

theorem Unsettled.retain (h : Unsettled options w) (target : Target) (chunk : List UInt8)
    (fits : ((retain options target chunk w).observedBytes : ℤ) ≤ options.maxOutputBytes) :
    Unsettled options (retain options target chunk w) := by
  have kept := h.failing.retain target chunk
  unfold OwnedGit.retain at kept fits ⊢
  dsimp only at kept fits ⊢
  split_ifs at kept fits ⊢
  · cases target with
    | stdout => exact ⟨kept.pending, kept.nothing, kept.sticky, h.ended, h.drained, fun _ => fits,
        kept.captured, kept.room, kept.observed⟩
    | stderr => exact ⟨kept.pending, kept.nothing, kept.sticky, h.ended, h.drained, fun _ => fits,
        kept.captured, kept.room, kept.observed⟩
  · exact ⟨kept.pending, kept.nothing, kept.sticky, h.ended, h.drained, fun _ => fits,
      kept.captured, kept.room, kept.observed⟩

theorem Unsettled.capture (h : Unsettled options w) (target : Target) (chunk : List UInt8) :
    Fine options oracle (capture options oracle target chunk w) := by
  have kept := h.failing.retain target chunk
  unfold OwnedGit.capture
  rw [if_neg (by rw [h.pending]; nofun)]
  dsimp only
  split_ifs with long
  · apply Failing.terminate
    exact ⟨kept.pending, kept.nothing, kept.sticky, kept.captured, kept.room, kept.observed⟩
  · exact Or.inl (h.retain target chunk (not_lt.mp long))

/-! ## A run -/

theorem Unsettled.step (h : Unsettled options w) (event : Event) :
    Fine options oracle (step options oracle w event) := by
  unfold OwnedGit.step
  rw [if_neg (by rw [h.pending]; nofun)]
  cases event with
  | spawn =>
    dsimp only
    split_ifs
    · exact h.onSpawn
    · exact Or.inl h
  | error code => exact h.onChildError code
  | exit code signal => exact h.onExit code signal
  | close code signal => exact h.onClose code signal
  | data target chunk => exact h.capture target chunk
  | streamError => exact h.failing.terminate _
  | abort => exact h.failing.terminate _
  | operationTimer => exact h.failing.terminate _
  | cleanupTimer => exact h.pollCleanup
  | drainTimer => exact h.pollNormalDrain

theorem Fine.step (h : Fine options oracle w) (event : Event) :
    Fine options oracle (step options oracle w event) := by
  cases h with
  | inl unsettled => exact unsettled.step event
  | inr settled =>
    unfold OwnedGit.step
    rw [if_pos settled.done]
    exact Or.inr settled

theorem Fine.run (h : Fine options oracle w) (events : List Event) :
    Fine options oracle (run options oracle w events) := by
  induction events generalizing w with
  | nil => exact h
  | cons event events ih => exact ih (h.step event)

theorem fine_refuse (trigger : Trigger) (failure : Bool) (code : Option String) :
    Fine options oracle (refuse trigger
      { spawnAttempted := failure, synchronousSpawnFailure := failure, spawnErrorCode := code }) :=
  Or.inr ⟨rfl, ⟨.rejected (.trigger trigger), _, rfl, Or.inr ⟨trigger, rfl, rfl⟩⟩, rfl, Or.inl rfl⟩

theorem fine_launch (request : OwnedGitRequest) (result : SpawnResult) :
    Fine options oracle (launch options request result) := by
  unfold launch
  split_ifs with platform invalid aborted
  · exact fine_refuse _ false none
  · exact fine_refuse _ false none
  · exact fine_refuse _ false none
  · cases result with
    | throws code => exact fine_refuse _ true code
    | child pid =>
      have valid : 1 ≤ options.maxOutputBytes := by
        simp only [validInput, bounded, Bool.not_eq_true', Bool.and_eq_true, decide_eq_true_eq,
          Bool.not_eq_false] at invalid
        omega
      refine Or.inl ⟨rfl, rfl, rfl, ?_, ?_, ?_, rfl, ?_, ?_⟩
      · intro ended
        exact absurd rfl ended
      · intro _ begun
        exact absurd rfl begun
      · intro _
        change ((0 : ℕ) : ℤ) ≤ _
        omega
      · change ((0 : ℕ) : ℤ) ≤ _
        omega
      · nofun

end Artoo.Node.OwnedGit
