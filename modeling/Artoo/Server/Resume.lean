import Mathlib.Data.List.Basic
import Mathlib.Data.List.Nodup
import Artoo.Domain.Goal
import Artoo.Domain.State

/-! The reconciliation of a goal with its latest checkpoint. Each statement and each transaction of
a call is one step; calls overlap with each other and with the transactions of others, which draw
the positions of their events before they commit. -/
namespace Artoo.Server.Resume
open Artoo.Domain

/-- Why a run is blocked, or not. -/
inductive RunResumeOutcome where
  | continue_ | completed | failedBlocker | staleBlocker | missingBlocker
  deriving DecidableEq

structure RunResumeFact where
  status : Option RunStatus
  updatedSinceCheckpoint : Bool

def reconcileRun (fact : RunResumeFact) : RunResumeOutcome :=
  match fact.status with
  | none => .missingBlocker
  | some .completed => .completed
  | some .failed | some .cancelled => .failedBlocker
  | some _ => if fact.updatedSinceCheckpoint then .continue_ else .staleBlocker

def RunResumeOutcome.blocks : RunResumeOutcome → Bool
  | .continue_ | .completed => false
  | .failedBlocker | .staleBlocker | .missingBlocker => true

structure ResumeEvaluation where
  continueRuns : List String
  completedRuns : List String
  blockers : List (String × RunResumeOutcome)

/-- A run without a fact is missing. -/
def outcomeOf (facts : List (String × RunResumeFact)) (runId : String) : RunResumeOutcome :=
  reconcileRun ((facts.lookup runId).getD ⟨none, false⟩)

def evaluateResume (activeRuns : List String) (facts : List (String × RunResumeFact)) :
    ResumeEvaluation where
  continueRuns := activeRuns.filter fun r => outcomeOf facts r == .continue_
  completedRuns := activeRuns.filter fun r => outcomeOf facts r == .completed
  blockers := (activeRuns.filter fun r => (outcomeOf facts r).blocks).map fun r =>
    (r, outcomeOf facts r)

/-- `committed` is how many events were committed when it was taken. -/
structure Checkpoint where
  activeRuns : List String
  eventCursor : ℕ
  committed : ℕ

structure Event where
  position : ℕ
  runId : Option String

/-- `runId` is the source of a blocker of a run; `active` is open or mitigated. -/
structure Blocker where
  goalId : String
  runId : Option String
  active : Bool

inductive Stage where
  | goal
  | checkpoint (status : GoalStatus)
  /-- the two reads of a run's fact -/
  | status (status : GoalStatus) (cp : Checkpoint) (runId : String) (left : List String)
      (facts : List (String × RunResumeFact))
  | newer (status : GoalStatus) (cp : Checkpoint) (runId : String) (read : Option RunStatus)
      (left : List String) (facts : List (String × RunResumeFact))
  /-- the look for a blocker of the run, and `createBlocker` -/
  | existing (status : GoalStatus) (cp : Checkpoint) (runId : String) (left : List String)
  | insert (status : GoalStatus) (cp : Checkpoint) (runId : String) (left : List String)
  | active (status : GoalStatus) (cp : Checkpoint)
  | transition

def Stage.cp : Stage → Option Checkpoint
  | .status _ cp _ _ _ | .newer _ cp _ _ _ _ | .existing _ cp _ _ | .insert _ cp _ _
  | .active _ cp => some cp
  | .goal | .checkpoint _ | .transition => none

structure Call where
  goalId : String
  stage : Stage

structure System where
  goals : String → Option GoalStatus := fun _ => none
  runs : String → Option RunStatus := fun _ => none
  /-- the latest of each goal -/
  checkpoints : String → Option Checkpoint := fun _ => none
  blockers : List Blocker := []
  /-- in the order of their commits -/
  events : List Event := []
  /-- with their transaction -/
  drawn : List (ℕ × Event) := []
  next : ℕ := 1
  calls : ℕ → Option Call := fun _ => none
  /-- the runs called stale, with the events that were committed after the checkpoint -/
  stale : List (String × List Event) := []
  /-- the goals moved to blocked, and whether they had an active blocker -/
  moves : List (String × Bool) := []

def isTerminalGoalStatus (status : GoalStatus) : Bool :=
  status == .completed || status == .cancelled || status == .archived

def nextBlocker (status : GoalStatus) (cp : Checkpoint) : List String → Stage
  | [] => .active status cp
  | runId :: left => .existing status cp runId left

/-- After the last fact the checkpoint is evaluated. -/
def nextFact (status : GoalStatus) (cp : Checkpoint) (facts : List (String × RunResumeFact)) :
    List String → Stage
  | [] => nextBlocker status cp ((evaluateResume cp.activeRuns facts).blockers.map (·.1))
  | runId :: left => .status status cp runId left facts

section Steps

variable (s : System) (n : ℕ)

def setCall (call : Option Call) : System :=
  { s with calls := fun m => if m = n then call else s.calls m }

def cursor : ℕ := (s.events.map (·.position)).foldr max 0

/-- The events committed after a checkpoint. -/
def since (cp : Checkpoint) : List Event := s.events.drop cp.committed

def blockedOn (goalId runId : String) : Bool :=
  s.blockers.any fun b => b.goalId == goalId && b.runId == some runId && b.active

def hasActive (goalId : String) : Bool := s.blockers.any fun b => b.goalId == goalId && b.active

def noteStale (cp : Checkpoint) (runId : String) (fact : RunResumeFact) : System :=
  if reconcileRun fact = .staleBlocker then { s with stale := s.stale ++ [(runId, since s cp)] }
  else s

def openBlocker (goalId : String) (runId : Option String) : System :=
  { s with blockers := s.blockers ++ [⟨goalId, runId, true⟩] }

def setGoal (goalId : String) (status : GoalStatus) : System :=
  { s with goals := fun g => if g = goalId then some status else s.goals g }

def noteMove (goalId : String) : System :=
  { s with moves := s.moves ++ [(goalId, hasActive s goalId)] }

/-- One statement, or one transaction. -/
def advance : System :=
  match s.calls n with
  | none => s
  | some ⟨goalId, .goal⟩ =>
    match s.goals goalId with
    | none => setCall s n none
    | some status =>
      if isTerminalGoalStatus status then setCall s n none
      else setCall s n (some ⟨goalId, .checkpoint status⟩)
  | some ⟨goalId, .checkpoint status⟩ =>
    match s.checkpoints goalId with
    | none => setCall s n none
    | some cp => setCall s n (some ⟨goalId, nextFact status cp [] cp.activeRuns⟩)
  | some ⟨goalId, .status status cp runId left facts⟩ =>
    setCall s n (some ⟨goalId, .newer status cp runId (s.runs runId) left facts⟩)
  | some ⟨goalId, .newer status cp runId read left facts⟩ =>
    let fact : RunResumeFact :=
      ⟨read, s.events.any fun e => e.runId == some runId && decide (cp.eventCursor < e.position)⟩
    setCall (noteStale s cp runId fact) n
      (some ⟨goalId, nextFact status cp ((runId, fact) :: facts) left⟩)
  | some ⟨goalId, .existing status cp runId left⟩ =>
    if blockedOn s goalId runId then setCall s n (some ⟨goalId, nextBlocker status cp left⟩)
    else setCall s n (some ⟨goalId, .insert status cp runId left⟩)
  | some ⟨goalId, .insert status cp runId left⟩ =>
    setCall (openBlocker s goalId (some runId)) n (some ⟨goalId, nextBlocker status cp left⟩)
  | some ⟨goalId, .active status _⟩ =>
    if hasActive s goalId && status == .running && canTransitionGoal .running .blockedDetected then
      setCall s n (some ⟨goalId, .transition⟩)
    else setCall s n none
  | some ⟨goalId, .transition⟩ =>
    match (s.goals goalId).bind (applyGoalTransition · .blockedDetected) with
    | none => setCall s n none
    | some target => setCall (noteMove (setGoal s goalId target) goalId) n none

end Steps

inductive Step where
  | begin (n : ℕ) (goalId : String)
  | advance (n : ℕ)
  /-- an error, or the end of the process -/
  | fail (n : ℕ)
  | createGoal (goalId : String)
  /-- pauses, resumes and the like -/
  | goal (goalId : String) (trigger : GoalTrigger)
  | checkpoint (goalId : String) (activeRuns : List String)
  | createRun (runId : String)
  | run (runId : String) (trigger : RunTrigger)
  /-- a transaction draws the position of an event -/
  | draw (transaction : ℕ) (runId : Option String)
  | commit (transaction : ℕ)
  | rollback (transaction : ℕ)
  /-- of another source -/
  | openBlocker (goalId : String)
  | setBlocker (i : ℕ) (active : Bool)

def step (s : System) : Step → System
  | .begin n goalId => if (s.calls n).isNone then setCall s n (some ⟨goalId, .goal⟩) else s
  | .advance n => advance s n
  | .fail n => setCall s n none
  | .createGoal goalId => if (s.goals goalId).isNone then setGoal s goalId .draft else s
  | .goal goalId trigger =>
    match (s.goals goalId).bind (applyGoalTransition · trigger) with
    | none => s
    | some target => setGoal s goalId target
  | .checkpoint goalId activeRuns =>
    let cp : Checkpoint := ⟨activeRuns, cursor s, s.events.length⟩
    { s with checkpoints := fun g => if g = goalId then some cp else s.checkpoints g }
  | .createRun runId =>
    if (s.runs runId).isNone then
      { s with runs := fun r => if r = runId then some .queued else s.runs r }
    else s
  | .run runId trigger =>
    match (s.runs runId).bind (applyRunTransition · trigger) with
    | none => s
    | some target => { s with runs := fun r => if r = runId then some target else s.runs r }
  | .draw transaction runId =>
    { s with drawn := s.drawn ++ [(transaction, ⟨s.next, runId⟩)], next := s.next + 1 }
  | .commit transaction =>
    { s with
      events := s.events ++ (s.drawn.filter (·.1 == transaction)).map (·.2)
      drawn := s.drawn.filter (·.1 != transaction) }
  | .rollback transaction => { s with drawn := s.drawn.filter (·.1 != transaction) }
  | .openBlocker goalId => openBlocker s goalId none
  | .setBlocker i active =>
    match s.blockers[i]? with
    | none => s
    | some b => { s with blockers := s.blockers.set i { b with active } }

def run (steps : List Step) : System := steps.foldl step {}

/-- The run is missing, has failed, or has had no event since the checkpoint. -/
def Needs (s : System) (cp : Checkpoint) (runId : String) : Prop :=
  (reconcileRun ⟨s.runs runId, (since s cp).any (·.runId == some runId)⟩).blocks = true

structure Lawful (s : System) : Prop where
  single : ∀ goalId runId, (s.blockers.filter fun b =>
    b.goalId == goalId && b.runId == some runId && b.active).length ≤ 1
  /-- when all runs of its checkpoint are seen to -/
  covered : ∀ n goalId status cp, s.calls n = some ⟨goalId, .active status cp⟩ →
    ∀ runId ∈ cp.activeRuns, Needs s cp runId → blockedOn s goalId runId = true
  stale : ∀ entry ∈ s.stale, ∀ e ∈ entry.2, e.runId ≠ some entry.1
  once : (s.moves.map (·.1)).Nodup
  blocked : ∀ move ∈ s.moves, move.2 = true

/-- The call has looked for a blocker of the run in vain. -/
def Inserts (s : System) (n : ℕ) (goalId runId : String) : Prop :=
  ∃ status cp left, s.calls n = some ⟨goalId, .insert status cp runId left⟩

/-- A step does not cross the reads of a call: a blocker of a run is not opened while another call
has looked for one, and not reopened then or beside an active one; a goal that was moved to blocked
does not return to running; no run fails and no blocker is closed while a reconciliation of their
goal is under way; and no transaction with an event of a run holds a position below the cursor of a
new checkpoint. -/
def Undisturbed (s : System) : Step → Prop
  | .advance n => ∀ goalId runId, Inserts s n goalId runId → ∀ m, m ≠ n → ¬Inserts s m goalId runId
  | .goal goalId trigger => (s.goals goalId).bind (applyGoalTransition · trigger) = some .running →
      goalId ∉ s.moves.map (·.1)
  | .run runId trigger => ∀ target,
      (s.runs runId).bind (applyRunTransition · trigger) = some target →
        target = .failed ∨ target = .cancelled →
        ∀ n call cp, s.calls n = some call → call.stage.cp = some cp → runId ∉ cp.activeRuns
  | .checkpoint _ _ => ∀ entry ∈ s.drawn, entry.2.runId ≠ none → cursor s < entry.2.position
  | .setBlocker i active => ∀ b, s.blockers[i]? = some b →
      if active then b.active = false →
        ∀ runId, b.runId = some runId →
          blockedOn s b.goalId runId = false ∧ ∀ n, ¬Inserts s n b.goalId runId
      else ∀ n call, s.calls n = some call → call.goalId ≠ b.goalId
  | _ => True

def UndisturbedRun : System → List Step → Prop
  | _, [] => True
  | s, a :: as => Undisturbed s a ∧ UndisturbedRun (step s a) as

/-! ## What holds on the way -/

/-- What needs a blocker now did so when it was read. -/
def Behind (was now : Option RunStatus) : Prop :=
  ∀ updated, (reconcileRun ⟨now, updated⟩).blocks = true →
    (reconcileRun ⟨was, updated⟩).blocks = true

/-- The runs that need a blocker have one, or the call still comes to them. -/
def Sound (s : System) (goalId : String) : Stage → Prop
  | .status _ cp runId left facts => (∀ q ∈ runId :: left, q ∈ cp.activeRuns) ∧
      ∀ q ∈ cp.activeRuns, Needs s cp q → q ∈ runId :: left ∨ (outcomeOf facts q).blocks = true
  | .newer _ cp runId read left facts => (∀ q ∈ runId :: left, q ∈ cp.activeRuns) ∧
      (∀ q ∈ cp.activeRuns, Needs s cp q → q ∈ runId :: left ∨ (outcomeOf facts q).blocks = true) ∧
      Behind read (s.runs runId)
  | .existing _ cp runId left =>
      ∀ q ∈ cp.activeRuns, Needs s cp q → q ∈ runId :: left ∨ blockedOn s goalId q = true
  | .insert _ cp runId left => blockedOn s goalId runId = false ∧
      ∀ q ∈ cp.activeRuns, Needs s cp q → q ∈ runId :: left ∨ blockedOn s goalId q = true
  | .active _ cp => ∀ q ∈ cp.activeRuns, Needs s cp q → blockedOn s goalId q = true
  | .transition => hasActive s goalId = true
  | .goal | .checkpoint _ => True

/-- The cursor divides the events of runs by their commits. -/
structure Cut (s : System) (cp : Checkpoint) : Prop where
  committed : cp.committed ≤ s.events.length
  before : ∀ e ∈ s.events.take cp.committed, e.position ≤ cp.eventCursor
  after : ∀ e ∈ since s cp, e.runId ≠ none → cp.eventCursor < e.position
  drawn : ∀ entry ∈ s.drawn, entry.2.runId ≠ none → cp.eventCursor < entry.2.position
  next : cp.eventCursor < s.next

structure Log (s : System) : Prop where
  positions : ∀ e ∈ s.events, e.position < s.next
  drawn : ∀ entry ∈ s.drawn, entry.2.position < s.next
  positive : 0 < s.next

structure Notes (s : System) : Prop where
  single : ∀ goalId runId, (s.blockers.filter fun b =>
    b.goalId == goalId && b.runId == some runId && b.active).length ≤ 1
  stale : ∀ entry ∈ s.stale, ∀ e ∈ entry.2, e.runId ≠ some entry.1
  once : (s.moves.map (·.1)).Nodup
  blocked : ∀ move ∈ s.moves, move.2 = true
  moved : ∀ goalId ∈ s.moves.map (·.1), s.goals goalId ≠ some .running

structure Kept (s : System) : Prop where
  log : Log s
  notes : Notes s
  checkpoints : ∀ goalId cp, s.checkpoints goalId = some cp → Cut s cp
  cuts : ∀ n call cp, s.calls n = some call → call.stage.cp = some cp → Cut s cp
  calls : ∀ n call, s.calls n = some call → Sound s call.goalId call.stage

/-- What a call relies on. -/
structure Frame (s s' : System) (goalId : String) (stage : Stage) : Prop where
  needs : ∀ cp, stage.cp = some cp → ∀ q ∈ cp.activeRuns, Needs s' cp q → Needs s cp q
  behind : ∀ cp, stage.cp = some cp → ∀ q ∈ cp.activeRuns, Behind (s.runs q) (s'.runs q)
  blocked : ∀ q, blockedOn s goalId q = true → blockedOn s' goalId q = true
  alone : ∀ status cp runId left, stage = .insert status cp runId left →
    blockedOn s goalId runId = false → blockedOn s' goalId runId = false
  active : hasActive s goalId = true → hasActive s' goalId = true

section Moves

variable {s s' : System} {n : ℕ} {goalId : String} {cp : Checkpoint} {stage : Stage}
  {status : GoalStatus}

theorem Frame.of_blockers (blockers : s'.blockers = s.blockers)
    (needs : ∀ cp, stage.cp = some cp → ∀ q ∈ cp.activeRuns, Needs s' cp q → Needs s cp q)
    (behind : ∀ cp, stage.cp = some cp → ∀ q ∈ cp.activeRuns, Behind (s.runs q) (s'.runs q)) :
    Frame s s' goalId stage := by
  refine ⟨needs, behind, ?_, ?_, ?_⟩
  · unfold blockedOn
    rw [blockers]
    exact fun _ blocked => blocked
  · unfold blockedOn
    rw [blockers]
    exact fun _ _ _ _ _ alone => alone
  · unfold hasActive
    rw [blockers]
    exact fun active => active

theorem Frame.of_same (blockers : s'.blockers = s.blockers) (events : s'.events = s.events)
    (runs : s'.runs = s.runs) : Frame s s' goalId stage := by
  apply Frame.of_blockers blockers
  · unfold Needs since
    rw [events, runs]
    exact fun _ _ _ _ needs => needs
  · rw [runs]
    exact fun _ _ _ _ _ blocks => blocks

theorem Sound.frame (sound : Sound s goalId stage) (frame : Frame s s' goalId stage) :
    Sound s' goalId stage := by
  cases stage with
  | goal => trivial
  | checkpoint status => trivial
  | transition => exact frame.active sound
  | status status cp runId left facts =>
    exact ⟨sound.1, fun q listed needs => sound.2 q listed (frame.needs cp rfl q listed needs)⟩
  | newer status cp runId read left facts =>
    refine ⟨sound.1,
      fun q listed needs => sound.2.1 q listed (frame.needs cp rfl q listed needs), ?_⟩
    intro updated now
    have listed := sound.1 runId List.mem_cons_self
    exact sound.2.2 updated (frame.behind cp rfl runId listed updated now)
  | existing status cp runId left =>
    intro q listed needs
    exact (sound q listed (frame.needs cp rfl q listed needs)).imp_right (frame.blocked q)
  | insert status cp runId left =>
    refine ⟨frame.alone status cp runId left rfl sound.1, ?_⟩
    intro q listed needs
    exact (sound.2 q listed (frame.needs cp rfl q listed needs)).imp_right (frame.blocked q)
  | active status cp =>
    intro q listed needs
    exact frame.blocked q (sound q listed (frame.needs cp rfl q listed needs))

/-- The calls are as they were. -/
theorem Kept.change (kept : Kept s) (calls : s'.calls = s.calls) (log : Log s') (notes : Notes s')
    (cut : ∀ cp, Cut s cp → Cut s' cp)
    (checkpoints : ∀ goalId cp, s'.checkpoints goalId = some cp →
      s.checkpoints goalId = some cp ∨ Cut s' cp)
    (frame : ∀ n call, s.calls n = some call → Frame s s' call.goalId call.stage) : Kept s' := by
  refine ⟨log, notes, ?_, ?_, ?_⟩
  · intro goalId cp is
    rcases checkpoints goalId cp is with before | new
    · exact cut cp (kept.checkpoints goalId cp before)
    · exact new
  · rw [calls]
    exact fun n call cp is of => cut cp (kept.cuts n call cp is of)
  · rw [calls]
    exact fun n call is => (kept.calls n call is).frame (frame n call is)

/-- A change of neither events, runs nor blockers. -/
theorem Kept.aside (kept : Kept s) (calls : s'.calls = s.calls) (notes : Notes s')
    (events : s'.events = s.events) (drawn : s'.drawn = s.drawn) (next : s'.next = s.next)
    (runs : s'.runs = s.runs) (blockers : s'.blockers = s.blockers)
    (checkpoints : s'.checkpoints = s.checkpoints) : Kept s' := by
  obtain ⟨positions, owned, positive⟩ := kept.log
  apply kept.change calls _ notes
  · rintro cp ⟨committed, before, after, cutDrawn, cutNext⟩
    refine ⟨?_, ?_, ?_, ?_, ?_⟩
    · rw [events]
      exact committed
    · rw [events]
      exact before
    · unfold since at after ⊢
      rw [events]
      exact after
    · rw [drawn]
      exact cutDrawn
    · rw [next]
      exact cutNext
  · intro goalId cp is
    rw [checkpoints] at is
    exact .inl is
  · exact fun _ _ _ => Frame.of_same blockers events runs
  · rw [← events, ← next] at positions
    rw [← drawn, ← next] at owned
    rw [← next] at positive
    exact ⟨positions, owned, positive⟩

theorem Notes.same (notes : Notes s) (blockers : s'.blockers = s.blockers)
    (stale : s'.stale = s.stale) (moves : s'.moves = s.moves) (goals : s'.goals = s.goals) :
    Notes s' := by
  refine ⟨?_, ?_, ?_, ?_, ?_⟩
  · rw [blockers]
    exact notes.single
  · rw [stale]
    exact notes.stale
  · rw [moves]
    exact notes.once
  · rw [moves]
    exact notes.blocked
  · rw [moves, goals]
    exact notes.moved

theorem Kept.setCall (kept : Kept s) {call : Option Call}
    (new : ∀ c, call = some c →
      (∀ cp, c.stage.cp = some cp → Cut s cp) ∧ Sound s c.goalId c.stage) :
    Kept (setCall s n call) := by
  have same : ∀ {cp}, Cut s cp → Cut (Resume.setCall s n call) cp := fun cut =>
    ⟨cut.committed, cut.before, cut.after, cut.drawn, cut.next⟩
  have framed : ∀ {c : Call}, Sound s c.goalId c.stage →
      Sound (Resume.setCall s n call) c.goalId c.stage := fun sound =>
    sound.frame (Frame.of_same rfl rfl rfl)
  refine ⟨⟨kept.log.positions, kept.log.drawn, kept.log.positive⟩,
    (kept.notes.same rfl rfl rfl rfl),
    fun goalId cp is => same (kept.checkpoints goalId cp is), ?_, ?_⟩
  · intro m c cp is of
    change (if m = n then call else s.calls m) = some c at is
    split_ifs at is
    · exact same ((new c is).1 cp of)
    · exact same (kept.cuts m c cp is of)
  · intro m c is
    change (if m = n then call else s.calls m) = some c at is
    split_ifs at is
    · exact framed (new c is).2
    · exact framed (kept.calls m c is)

theorem Kept.endCall (kept : Kept s) : Kept (Resume.setCall s n none) :=
  kept.setCall fun _ off => by cases off

theorem cp_nextBlocker (left : List String) : (nextBlocker status cp left).cp = some cp := by
  cases left <;> rfl

theorem cp_nextFact (facts : List (String × RunResumeFact)) (left : List String) :
    (nextFact status cp facts left).cp = some cp := by
  cases left with
  | nil => exact cp_nextBlocker _
  | cons runId left => rfl

theorem sound_nextBlocker {left : List String}
    (left_ : ∀ q ∈ cp.activeRuns, Needs s cp q → q ∈ left ∨ blockedOn s goalId q = true) :
    Sound s goalId (nextBlocker status cp left) := by
  cases left with
  | nil =>
    intro q listed needs
    exact (left_ q listed needs).resolve_left List.not_mem_nil
  | cons runId left => exact left_

theorem sound_nextFact {facts : List (String × RunResumeFact)} {left : List String}
    (listed : ∀ q ∈ left, q ∈ cp.activeRuns)
    (left_ : ∀ q ∈ cp.activeRuns, Needs s cp q → q ∈ left ∨ (outcomeOf facts q).blocks = true) :
    Sound s goalId (nextFact status cp facts left) := by
  cases left with
  | nil =>
    apply sound_nextBlocker
    intro q there needs
    have blocks := (left_ q there needs).resolve_left List.not_mem_nil
    left
    unfold evaluateResume
    dsimp only
    rw [List.map_map]
    exact List.mem_map.mpr ⟨q, List.mem_filter.mpr ⟨there, blocks⟩, rfl⟩
  | cons runId left => exact ⟨listed, left_⟩

/-- The events above the cursor are those after the checkpoint. -/
theorem Cut.newer (cut : Cut s cp) (runId : String) :
    (s.events.any fun e => e.runId == some runId && decide (cp.eventCursor < e.position)) =
      (since s cp).any (·.runId == some runId) := by
  have all : s.events = s.events.take cp.committed ++ since s cp := (List.take_append_drop ..).symm
  rw [all, List.any_append]
  have none_ : ((s.events.take cp.committed).any fun e =>
      e.runId == some runId && decide (cp.eventCursor < e.position)) = false := by
    rw [List.any_eq_false]
    intro e among
    have below := cut.before e among
    rw [Bool.and_eq_true, not_and]
    intro _
    simpa using below
  rw [none_, Bool.false_or, Bool.eq_iff_iff, List.any_eq_true, List.any_eq_true]
  constructor
  · rintro ⟨e, among, is⟩
    rw [Bool.and_eq_true] at is
    exact ⟨e, among, is.1⟩
  · rintro ⟨e, among, is⟩
    have ofRun : e.runId ≠ none := by
      rw [beq_iff_eq.mp is]
      exact Option.some_ne_none _
    refine ⟨e, among, ?_⟩
    rw [is, Bool.true_and]
    exact decide_eq_true (cut.after e among ofRun)

theorem Kept.noteStale (kept : Kept s) {runId : String} {fact : RunResumeFact}
    (updated : fact.updatedSinceCheckpoint = (since s cp).any (·.runId == some runId)) :
    Kept (noteStale s cp runId fact) := by
  unfold Resume.noteStale
  split_ifs with stale
  · refine kept.aside rfl ?_ rfl rfl rfl rfl rfl rfl
    refine ⟨kept.notes.single, ?_, kept.notes.once, kept.notes.blocked, kept.notes.moved⟩
    intro entry among
    rcases List.mem_append.mp among with before | is
    · exact kept.notes.stale entry before
    · rw [List.mem_singleton.mp is]
      intro e there same
      have yes : fact.updatedSinceCheckpoint = true := by
        rw [updated, List.any_eq_true]
        exact ⟨e, there, beq_iff_eq.mpr same⟩
      unfold reconcileRun at stale
      rw [yes] at stale
      split at stale <;> cases stale
  · exact kept

theorem blockedOn_openBlocker {runId : Option String} {g r : String} :
    blockedOn (openBlocker s goalId runId) g r =
      (blockedOn s g r || (goalId == g && runId == some r)) := by
  unfold blockedOn openBlocker
  rw [List.any_append, List.any_cons, List.any_nil, Bool.or_false, Bool.and_true]

theorem filter_of_not_blockedOn {g r : String} (none_ : blockedOn s g r = false) :
    (s.blockers.filter fun b => b.goalId == g && b.runId == some r && b.active) = [] := by
  rw [List.filter_eq_nil_iff]
  intro b among
  unfold blockedOn at none_
  exact List.any_eq_false.mp none_ b among

theorem running_of_blockedDetected {target : GoalStatus}
    (edge : applyGoalTransition status .blockedDetected = some target) :
    status = .running ∧ target = .blocked := by
  cases status <;> cases edge
  exact ⟨rfl, rfl⟩

theorem hasActive_openBlocker {runId : Option String} {g : String} (active : hasActive s g = true) :
    hasActive (openBlocker s goalId runId) g = true := by
  unfold hasActive openBlocker at *
  rw [List.any_append, active]
  rfl

theorem setCall_openBlocker_endCall {runId : Option String} {call : Option Call} :
    Resume.setCall (openBlocker (Resume.setCall s n none) goalId runId) n call =
      Resume.setCall (openBlocker s goalId runId) n call := by
  have calls : (fun m => if m = n then call else if m = n then none else s.calls m) =
      fun m => if m = n then call else s.calls m := by
    funext m
    split_ifs <;> rfl
  unfold Resume.setCall Resume.openBlocker
  dsimp only
  rw [calls]

theorem Kept.openBlocker (kept : Kept s) {runId : Option String}
    (alone : ∀ r, runId = some r → blockedOn s goalId r = false ∧ ∀ m, ¬Inserts s m goalId r) :
    Kept (openBlocker s goalId runId) := by
  refine kept.change rfl ⟨kept.log.positions, kept.log.drawn, kept.log.positive⟩ ?_ ?_ ?_ ?_
  · refine ⟨?_, kept.notes.stale, kept.notes.once, kept.notes.blocked, kept.notes.moved⟩
    intro g r
    change ((s.blockers ++ [_]).filter _).length ≤ 1
    rw [List.filter_append, List.length_append]
    by_cases is : goalId = g ∧ runId = some r
    · obtain ⟨rfl, rfl⟩ := is
      rw [filter_of_not_blockedOn (alone r rfl).1, List.length_nil, Nat.zero_add]
      exact List.length_filter_le ..
    · have off : ([⟨goalId, runId, true⟩] : List Blocker).filter (fun b =>
          b.goalId == g && b.runId == some r && b.active) = [] := by
        rw [List.filter_eq_nil_iff]
        intro b among
        rw [List.mem_singleton.mp among]
        simpa using is
      rw [off]
      exact kept.notes.single g r
  · exact fun cp cut => ⟨cut.committed, cut.before, cut.after, cut.drawn, cut.next⟩
  · exact fun _ _ is => .inl is
  · intro m call there
    refine ⟨fun _ _ _ _ needs => needs, fun _ _ _ _ _ blocks => blocks, ?_, ?_,
      hasActive_openBlocker⟩
    · intro q blocked
      rw [blockedOn_openBlocker, blocked]
      rfl
    · intro status cp r left is none_
      rw [blockedOn_openBlocker, none_, Bool.false_or, Bool.and_eq_false_iff]
      by_contra hit
      push Not at hit
      have same := beq_iff_eq.mp (Bool.eq_true_of_not_eq_false hit.1)
      have ofRun := beq_iff_eq.mp (Bool.eq_true_of_not_eq_false hit.2)
      obtain ⟨g, stage⟩ := call
      cases is
      cases same
      exact (alone r ofRun).2 m ⟨status, cp, left, there⟩

/-- Only a running goal is moved, and it has not been moved before. -/
theorem Kept.transition (kept : Kept s) {target : GoalStatus}
    (edge : (s.goals goalId).bind (applyGoalTransition · .blockedDetected) = some target)
    (active : hasActive s goalId = true) :
    Kept (noteMove (setGoal s goalId target) goalId) := by
  obtain ⟨status, now, edge'⟩ := Option.bind_eq_some_iff.mp edge
  obtain ⟨rfl, rfl⟩ := running_of_blockedDetected edge'
  have first : goalId ∉ s.moves.map (·.1) := fun moved => kept.notes.moved goalId moved now
  refine kept.aside rfl ?_ rfl rfl rfl rfl rfl rfl
  refine ⟨kept.notes.single, kept.notes.stale, ?_, ?_, ?_⟩
  · change ((s.moves ++ [_]).map Prod.fst).Nodup
    rw [List.map_append]
    refine List.Nodup.append kept.notes.once (List.nodup_singleton _) ?_
    intro g among is
    rw [List.mem_singleton.mp is] at among
    exact first among
  · intro move among
    rcases List.mem_append.mp among with before | is
    · exact kept.notes.blocked move before
    · rw [List.mem_singleton.mp is]
      exact active
  · intro g among running
    change (if g = goalId then some _ else s.goals g) = some .running at running
    split_ifs at running with same
    · cases running
    change g ∈ (s.moves ++ [_]).map Prod.fst at among
    rw [List.map_append, List.mem_append] at among
    rcases among with before | is
    · exact kept.notes.moved g before running
    · exact same (List.mem_singleton.mp is)

theorem Kept.setGoal (kept : Kept s) {target : GoalStatus}
    (apart : target = .running → goalId ∉ s.moves.map (·.1)) : Kept (setGoal s goalId target) := by
  refine kept.aside rfl ?_ rfl rfl rfl rfl rfl rfl
  refine ⟨kept.notes.single, kept.notes.stale, kept.notes.once, kept.notes.blocked, ?_⟩
  intro g moved running
  change (if g = goalId then some target else s.goals g) = some .running at running
  split_ifs at running with same
  · subst same
    exact apart (Option.some.inj running) moved
  · exact kept.notes.moved g moved running

theorem outcomeOf_cons {runId q : String} {fact : RunResumeFact}
    {facts : List (String × RunResumeFact)} (other : q ≠ runId) :
    outcomeOf ((runId, fact) :: facts) q = outcomeOf facts q := by
  unfold outcomeOf
  rw [List.lookup_cons, beq_eq_false_iff_ne.mpr other]

theorem outcomeOf_self {runId : String} {fact : RunResumeFact}
    {facts : List (String × RunResumeFact)} :
    outcomeOf ((runId, fact) :: facts) runId = reconcileRun fact := by
  unfold outcomeOf
  rw [List.lookup_cons_self]
  rfl

/-- The others have not looked for a blocker of the run, which has none yet. -/
theorem Kept.insert (kept : Kept s) {runId : String} {left : List String}
    (undisturbed : Undisturbed s (.advance n))
    (is : s.calls n = some ⟨goalId, .insert status cp runId left⟩) :
    Kept (Resume.setCall (Resume.openBlocker s goalId (some runId)) n
      (some ⟨goalId, nextBlocker status cp left⟩)) := by
  obtain ⟨none_, sound⟩ := kept.calls n _ is
  have cut := kept.cuts n _ cp is rfl
  have opened : Kept (Resume.openBlocker (Resume.setCall s n none) goalId (some runId)) := by
    apply kept.endCall.openBlocker
    intro r same
    cases same
    refine ⟨none_, ?_⟩
    rintro m ⟨status', cp', left', there⟩
    change (if m = n then none else s.calls m) = _ at there
    split_ifs at there with other
    exact undisturbed goalId runId ⟨_, _, _, is⟩ m other ⟨_, _, _, there⟩
  rw [← setCall_openBlocker_endCall]
  apply opened.setCall
  intro c same
  cases same
  constructor
  · intro cp' of
    rw [cp_nextBlocker] at of
    cases of
    exact ⟨cut.committed, cut.before, cut.after, cut.drawn, cut.next⟩
  · apply sound_nextBlocker
    intro q listed needs
    rw [blockedOn_openBlocker]
    rcases sound q listed needs with among | has
    · rcases List.mem_cons.mp among with rfl | later
      · right
        simp
      · exact .inl later
    · right
      rw [Bool.or_eq_true]
      exact .inl has

theorem Kept.advance (kept : Kept s) (undisturbed : Undisturbed s (.advance n)) :
    Kept (advance s n) := by
  unfold Resume.advance
  cases is : s.calls n with
  | none => exact kept
  | some call =>
    obtain ⟨goalId, stage⟩ := call
    have sound := kept.calls n _ is
    have cuts := fun cp => kept.cuts n ⟨goalId, stage⟩ cp is
    cases stage with
    | goal =>
      dsimp only
      split
      · exact kept.endCall
      · split_ifs
        · exact kept.endCall
        · apply kept.setCall
          intro c same
          cases same
          exact ⟨fun _ off => (by cases off), trivial⟩
    | checkpoint status =>
      dsimp only
      cases found : s.checkpoints goalId with
      | none => exact kept.endCall
      | some cp =>
        apply kept.setCall
        intro c same
        cases same
        constructor
        · intro cp' of
          rw [cp_nextFact] at of
          cases of
          exact kept.checkpoints goalId cp found
        · exact sound_nextFact (fun _ => id) fun q listed _ => .inl listed
    | status status cp runId left facts =>
      apply kept.setCall
      intro c same
      cases same
      exact ⟨fun cp' of => cuts cp' of, sound.1, sound.2, fun _ blocks => blocks⟩
    | newer status cp runId read left facts =>
      have cut := cuts cp rfl
      have noted : Kept (Resume.noteStale s cp runId ⟨read, s.events.any fun e =>
          e.runId == some runId && decide (cp.eventCursor < e.position)⟩) :=
        kept.noteStale (cut.newer runId)
      dsimp only
      apply noted.setCall
      intro c same
      cases same
      obtain ⟨listed, needed, behind⟩ := sound
      have blocksRun : Needs s cp runId → (reconcileRun ⟨read, s.events.any fun e =>
          e.runId == some runId && decide (cp.eventCursor < e.position)⟩).blocks = true := by
        intro needs
        rw [cut.newer runId]
        exact behind _ needs
      have sound' : Sound s goalId (nextFact status cp ((runId, ⟨read, s.events.any fun e =>
          e.runId == some runId && decide (cp.eventCursor < e.position)⟩) :: facts) left) := by
        apply sound_nextFact fun q among => listed q (List.mem_cons_of_mem _ among)
        intro q there needs
        by_cases same : q = runId
        · subst same
          right
          rw [outcomeOf_self]
          exact blocksRun needs
        · rw [outcomeOf_cons same]
          rcases needed q there needs with among | blocks
          · exact .inl ((List.mem_cons.mp among).resolve_left same)
          · exact .inr blocks
      have frame : ∀ stage, Frame s (Resume.noteStale s cp runId ⟨read, s.events.any fun e =>
          e.runId == some runId && decide (cp.eventCursor < e.position)⟩) goalId stage := by
        intro stage
        unfold Resume.noteStale
        split_ifs <;> exact Frame.of_same rfl rfl rfl
      constructor
      · intro cp' of
        rw [cp_nextFact] at of
        cases of
        unfold Resume.noteStale
        split_ifs
        · exact ⟨cut.committed, cut.before, cut.after, cut.drawn, cut.next⟩
        · exact cut
      · exact sound'.frame (frame _)
    | existing status cp runId left =>
      dsimp only
      split_ifs with blocked
      · apply kept.setCall
        intro c same
        cases same
        constructor
        · intro cp' of
          rw [cp_nextBlocker] at of
          exact cuts cp' of
        · apply sound_nextBlocker
          intro q listed needs
          rcases sound q listed needs with among | has
          · rcases List.mem_cons.mp among with rfl | later
            · exact .inr blocked
            · exact .inl later
          · exact .inr has
      · apply kept.setCall
        intro c same
        cases same
        exact ⟨fun cp' of => cuts cp' of, Bool.eq_false_of_not_eq_true blocked, sound⟩
    | insert status cp runId left => exact kept.insert undisturbed is
    | active status cp =>
      dsimp only
      split_ifs with blocked
      · rw [Bool.and_eq_true, Bool.and_eq_true] at blocked
        apply kept.setCall
        intro c same
        cases same
        exact ⟨fun _ off => (by cases off), blocked.1.1⟩
      · exact kept.endCall
    | transition =>
      dsimp only
      cases edge : (s.goals goalId).bind (applyGoalTransition · .blockedDetected) with
      | none => exact kept.endCall
      | some target => exact (kept.transition edge sound).endCall

/-! ## The steps of others -/

theorem le_cursor {e : Event} (among : e ∈ s.events) : e.position ≤ cursor s := by
  unfold cursor
  generalize s.events = events at among
  induction events with
  | nil => cases among
  | cons f events ih =>
    rw [List.map_cons, List.foldr_cons]
    rcases List.mem_cons.mp among with rfl | there
    · exact Nat.le_max_left ..
    · exact Nat.le_trans (ih there) (Nat.le_max_right ..)

theorem Log.cursor_lt (log : Log s) : cursor s < s.next := by
  have bounded := log.positions
  unfold cursor
  generalize s.events = events at bounded
  induction events with
  | nil => exact log.positive
  | cons e events ih =>
    rw [List.forall_mem_cons] at bounded
    rw [List.map_cons, List.foldr_cons]
    exact Nat.max_lt.mpr ⟨bounded.1, ih bounded.2⟩

theorem Kept.checkpoint (kept : Kept s) {activeRuns : List String}
    (undisturbed : Undisturbed s (.checkpoint goalId activeRuns)) :
    Kept (step s (.checkpoint goalId activeRuns)) := by
  refine kept.change rfl ⟨kept.log.positions, kept.log.drawn, kept.log.positive⟩
    (kept.notes.same rfl rfl rfl rfl)
    (fun cp cut => ⟨cut.committed, cut.before, cut.after, cut.drawn, cut.next⟩) ?_
    fun _ _ _ => Frame.of_same rfl rfl rfl
  intro g cp is
  change (if g = goalId then some _ else s.checkpoints g) = some cp at is
  split_ifs at is
  · cases is
    right
    refine ⟨Nat.le_refl _, ?_, ?_, undisturbed, kept.log.cursor_lt⟩
    · intro e among
      exact le_cursor (List.mem_of_mem_take among)
    · intro e among
      change e ∈ s.events.drop s.events.length at among
      rw [List.drop_length] at among
      cases among
  · exact .inl is

/-- A run that has not failed needs no blocker that it did not need before. -/
theorem behind_run {now target : Option RunStatus}
    (fine : now = none ∧ target = some .queued ∨ ∃ status trigger status',
      now = some status ∧ target = some status' ∧ applyRunTransition status trigger = some status' ∧
        status' ≠ .failed ∧ status' ≠ .cancelled) : Behind now target := by
  intro updated blocks
  rcases fine with ⟨rfl, rfl⟩ | ⟨status, trigger, status', rfl, rfl, edge, notFailed, notCancelled⟩
  · rfl
  · cases updated with
    | true =>
      revert blocks
      cases status' with
      | failed => exact absurd rfl notFailed
      | cancelled => exact absurd rfl notCancelled
      | _ => intro off; cases off
    | false =>
      cases status with
      | completed => cases trigger <;> cases edge
      | _ => rfl

theorem Kept.runs (kept : Kept s) {runId : String} {target : RunStatus}
    (frame : ∀ n call cp, s.calls n = some call → call.stage.cp = some cp →
      runId ∈ cp.activeRuns → Behind (s.runs runId) (some target)) :
    Kept { s with runs := fun r => if r = runId then some target else s.runs r } := by
  refine kept.change rfl ⟨kept.log.positions, kept.log.drawn, kept.log.positive⟩
    (kept.notes.same rfl rfl rfl rfl)
    (fun cp cut => ⟨cut.committed, cut.before, cut.after, cut.drawn, cut.next⟩)
    (fun _ _ is => .inl is) ?_
  intro n call is
  have behind : ∀ cp, call.stage.cp = some cp → ∀ q ∈ cp.activeRuns,
      Behind (s.runs q) (if q = runId then some target else s.runs q) := by
    intro cp of q listed
    split_ifs with same
    · subst same
      exact frame n call cp is of listed
    · exact fun _ blocks => blocks
  exact Frame.of_blockers rfl (fun cp of q listed needs => behind cp of q listed _ needs) behind

theorem Kept.draw (kept : Kept s) (transaction : ℕ) (runId : Option String) :
    Kept (step s (.draw transaction runId)) := by
  obtain ⟨positions, owned, positive⟩ := kept.log
  refine kept.change rfl ?_ (kept.notes.same rfl rfl rfl rfl)
    ?_ (fun _ _ is => .inl is)
    fun _ _ _ => Frame.of_same rfl rfl rfl
  · refine ⟨fun e among => Nat.lt_succ_of_lt (positions e among), ?_, Nat.succ_pos _⟩
    intro entry among
    rcases List.mem_append.mp among with before | is
    · exact Nat.lt_succ_of_lt (owned entry before)
    · rw [List.mem_singleton.mp is]
      exact Nat.lt_succ_self _
  · rintro cp ⟨committed, before, after, drawn, next⟩
    refine ⟨committed, before, after, ?_, Nat.lt_succ_of_lt next⟩
    intro entry among ofRun
    rcases List.mem_append.mp among with there | is
    · exact drawn entry there ofRun
    · rw [List.mem_singleton.mp is]
      exact next

theorem Kept.commit (kept : Kept s) (transaction : ℕ) : Kept (step s (.commit transaction)) := by
  obtain ⟨positions, owned, positive⟩ := kept.log
  have written : ∀ e ∈ (s.drawn.filter (·.1 == transaction)).map (·.2), ∃ entry ∈ s.drawn,
      entry.2 = e := by
    intro e among
    obtain ⟨entry, there, is⟩ := List.mem_map.mp among
    exact ⟨entry, List.mem_of_mem_filter there, is⟩
  refine kept.change rfl ?_ (kept.notes.same rfl rfl rfl rfl)
    ?_ (fun _ _ is => .inl is) ?_
  · refine ⟨?_, fun entry among => owned entry (List.mem_of_mem_filter among), positive⟩
    intro e among
    rcases List.mem_append.mp among with before | new
    · exact positions e before
    · obtain ⟨entry, there, rfl⟩ := written e new
      exact owned entry there
  · rintro cp ⟨committed, before, after, drawn, next⟩
    refine ⟨?_, ?_, ?_, fun entry among => drawn entry (List.mem_of_mem_filter among), next⟩
    · change cp.committed ≤ (s.events ++ _).length
      rw [List.length_append]
      exact Nat.le_trans committed (Nat.le_add_right ..)
    · change ∀ e ∈ (s.events ++ _).take cp.committed, _
      rw [List.take_append_of_le_length committed]
      exact before
    · change ∀ e ∈ (s.events ++ _).drop cp.committed, _
      rw [List.drop_append_of_le_length committed]
      intro e among ofRun
      rcases List.mem_append.mp among with there | new
      · exact after e there ofRun
      · obtain ⟨entry, there, rfl⟩ := written e new
        exact drawn entry there ofRun
  · intro n call is
    refine Frame.of_blockers rfl ?_ fun _ _ _ _ _ blocks => blocks
    intro cp of q listed needs
    have committed := (kept.cuts n call cp is of).committed
    unfold Needs since at needs ⊢
    change (reconcileRun ⟨s.runs q, ((s.events ++ _).drop cp.committed).any _⟩).blocks = true
      at needs
    rw [List.drop_append_of_le_length committed, List.any_append] at needs
    cases updated : (s.events.drop cp.committed).any (·.runId == some q) with
    | true =>
      rw [updated, Bool.true_or] at needs
      exact needs
    | false =>
      revert needs
      cases s.runs q with
      | none => exact fun _ => rfl
      | some status =>
        cases status with
        | completed => exact fun off => off
        | _ => exact fun _ => rfl

theorem Kept.rollback (kept : Kept s) (transaction : ℕ) :
    Kept (step s (.rollback transaction)) := by
  refine kept.change rfl ?_ (kept.notes.same rfl rfl rfl rfl)
    ?_ (fun _ _ is => .inl is)
    fun _ _ _ => Frame.of_same rfl rfl rfl
  · exact ⟨kept.log.positions, fun entry among =>
      kept.log.drawn entry (List.mem_of_mem_filter among), kept.log.positive⟩
  · exact fun cp cut => ⟨cut.committed, cut.before, cut.after,
      fun entry among => cut.drawn entry (List.mem_of_mem_filter among), cut.next⟩

/-- One element of a list is set. -/
theorem set_split {α : Type} {l : List α} {i : ℕ} {a : α} (here : l[i]? = some a) :
    ∃ as cs, l = as ++ a :: cs ∧ ∀ b, l.set i b = as ++ b :: cs := by
  induction l generalizing i with
  | nil => cases here
  | cons x l ih =>
    cases i with
    | zero =>
      cases here
      exact ⟨[], l, rfl, fun _ => rfl⟩
    | succ i =>
      obtain ⟨as, cs, is, set⟩ := ih here
      exact ⟨x :: as, cs, congrArg (x :: ·) is, fun b => congrArg (x :: ·) (set b)⟩

theorem any_replace {α : Type} {f : α → Bool} {as cs : List α} {a b : α}
    (le : f a = true → f b = true) (found : (as ++ a :: cs).any f = true) :
    (as ++ b :: cs).any f = true := by
  rw [List.any_append, List.any_cons, Bool.or_eq_true, Bool.or_eq_true] at found ⊢
  exact found.imp_right (Or.imp_left le)

theorem Kept.setBlocker (kept : Kept s) {i : ℕ} {active : Bool}
    (undisturbed : Undisturbed s (.setBlocker i active)) :
    Kept (step s (.setBlocker i active)) := by
  rw [Resume.step]
  cases here : s.blockers[i]? with
  | none => exact kept
  | some b =>
    have fine := undisturbed b here
    obtain ⟨as, cs, is, set⟩ := set_split here
    dsimp only
    rw [set]
    refine kept.change rfl ⟨kept.log.positions, kept.log.drawn, kept.log.positive⟩ ?_
      (fun cp cut => ⟨cut.committed, cut.before, cut.after, cut.drawn, cut.next⟩)
      (fun _ _ is => .inl is) ?_
    · refine ⟨?_, kept.notes.stale, kept.notes.once, kept.notes.blocked, kept.notes.moved⟩
      intro g r
      have single := kept.notes.single g r
      change ((as ++ _ :: cs).filter _).length ≤ 1
      rw [is, List.filter_append, List.filter_cons] at single
      rw [List.filter_append, List.filter_cons]
      dsimp only
      cases active with
      | false =>
        rw [Bool.and_false, if_neg Bool.false_ne_true, List.length_append]
        rw [List.length_append] at single
        split_ifs at single
        · rw [List.length_cons] at single
          omega
        · exact single
      | true =>
        cases was : b.active with
        | true =>
          rw [was] at single
          split_ifs at single ⊢
          · rw [List.length_append, List.length_cons] at single ⊢
            exact single
          · exact single
        | false =>
          by_cases hit : b.goalId = g ∧ b.runId = some r
          · obtain ⟨rfl, ofRun⟩ := hit
            have none_ := filter_of_not_blockedOn (fine was r ofRun).1
            rw [is, List.filter_append, List.filter_cons, was, Bool.and_false,
              if_neg Bool.false_ne_true, List.append_eq_nil_iff] at none_
            rw [none_.1, none_.2, List.nil_append]
            split_ifs
            · exact Nat.le_refl 1
            · exact Nat.zero_le 1
          · rw [was, Bool.and_false, if_neg Bool.false_ne_true] at single
            have off : (b.goalId == g && b.runId == some r && true) = false := by
              rw [Bool.and_true]
              simpa using hit
            rw [off, if_neg Bool.false_ne_true]
            exact single
    · intro n call there
      have grows : ∀ q, (b.goalId == call.goalId && b.runId == q && b.active) = true →
          (b.goalId == call.goalId && b.runId == q && active) = true := by
        intro q was
        cases active with
        | true =>
          rw [Bool.and_eq_true] at was
          rw [was.1]
          rfl
        | false =>
          rw [Bool.and_eq_true, Bool.and_eq_true, beq_iff_eq] at was
          exact absurd was.1.1.symm (fine n call there)
      refine ⟨fun _ _ _ _ needs => needs, fun _ _ _ _ _ blocks => blocks, ?_, ?_, ?_⟩
      · intro q blocked
        unfold blockedOn at blocked ⊢
        rw [is] at blocked
        exact any_replace (grows (some q)) blocked
      · intro status cp r left at_ none_
        rw [Bool.eq_false_iff] at none_ ⊢
        intro blocked
        apply none_
        unfold blockedOn at blocked ⊢
        rw [is]
        refine any_replace ?_ blocked
        intro now
        rw [Bool.and_eq_true, Bool.and_eq_true, beq_iff_eq, beq_iff_eq] at now
        obtain ⟨⟨ofGoal, ofRun⟩, now⟩ := now
        dsimp only at ofGoal ofRun now
        subst now
        obtain ⟨g, stage⟩ := call
        cases at_
        cases was : b.active with
        | true => simp [ofGoal, ofRun]
        | false =>
          cases ofGoal
          exact absurd ⟨status, cp, left, there⟩ ((fine was r ofRun).2 n)
      · intro found
        unfold hasActive at found ⊢
        rw [is] at found
        refine any_replace ?_ found
        intro was
        have now := grows b.runId
        rw [beq_self_eq_true, Bool.and_true] at now
        exact now was

theorem Kept.step (kept : Kept s) {a : Step} (undisturbed : Undisturbed s a) :
    Kept (Resume.step s a) := by
  cases a with
  | begin n goalId =>
    unfold Resume.step
    dsimp only
    split_ifs
    · apply kept.setCall
      intro c is
      cases is
      exact ⟨fun _ off => (by cases off), trivial⟩
    · exact kept
  | advance n => exact kept.advance undisturbed
  | fail n => exact kept.endCall
  | createGoal goalId =>
    unfold Resume.step
    dsimp only
    split_ifs
    · exact kept.setGoal fun off => by cases off
    · exact kept
  | goal goalId trigger =>
    unfold Resume.step
    dsimp only
    cases edge : (s.goals goalId).bind (applyGoalTransition · trigger) with
    | none => exact kept
    | some target =>
      apply kept.setGoal
      rintro rfl
      exact undisturbed edge
  | checkpoint goalId activeRuns => exact kept.checkpoint undisturbed
  | createRun runId =>
    unfold Resume.step
    dsimp only
    split_ifs with new
    · apply kept.runs
      intro _ _ _ _ _ _
      exact behind_run (.inl ⟨Option.isNone_iff_eq_none.mp new, rfl⟩)
    · exact kept
  | run runId trigger =>
    unfold Resume.step
    dsimp only
    cases edge : (s.runs runId).bind (applyRunTransition · trigger) with
    | none => exact kept
    | some target =>
      apply kept.runs
      intro n call cp is of listed
      obtain ⟨status, now, edge'⟩ := Option.bind_eq_some_iff.mp edge
      have apart := fun failed => undisturbed target edge failed n call cp is of listed
      exact behind_run (.inr ⟨status, trigger, target, now, rfl, edge',
        fun failed => apart (.inl failed), fun cancelled => apart (.inr cancelled)⟩)
  | draw transaction runId => exact kept.draw transaction runId
  | commit transaction => exact kept.commit transaction
  | rollback transaction => exact kept.rollback transaction
  | openBlocker goalId => exact kept.openBlocker fun _ off => by cases off
  | setBlocker i active => exact kept.setBlocker undisturbed

theorem Kept.start : Kept {} := by
  refine ⟨⟨List.forall_mem_nil _, List.forall_mem_nil _, Nat.one_pos⟩,
    ⟨fun _ _ => Nat.zero_le 1, List.forall_mem_nil _, List.nodup_nil, List.forall_mem_nil _,
      List.forall_mem_nil _⟩, ?_, ?_, ?_⟩
  · intro _ _ off
    cases off
  · intro _ _ _ off
    cases off
  · intro _ _ off
    cases off

theorem Kept.run {steps : List Step} (kept : Kept s) (undisturbed : UndisturbedRun s steps) :
    Kept (steps.foldl Resume.step s) := by
  induction steps generalizing s with
  | nil => exact kept
  | cons a as ih => exact ih (kept.step undisturbed.1) undisturbed.2

theorem Kept.lawful (kept : Kept s) : Lawful s :=
  ⟨kept.notes.single, fun n _ _ _ is => kept.calls n _ is, kept.notes.stale, kept.notes.once,
    kept.notes.blocked⟩

end Moves

theorem calls_advance {s : System} {n m : ℕ} (other : m ≠ n) :
    (advance s n).calls m = s.calls m := by
  have apart : ∀ s call, (setCall s n call).calls m = s.calls m := fun _ _ => if_neg other
  have noted : ∀ cp runId fact, (noteStale s cp runId fact).calls m = s.calls m := by
    intro cp runId fact
    unfold noteStale
    split_ifs <;> rfl
  unfold advance
  cases s.calls n with
  | none => rfl
  | some call =>
    obtain ⟨goalId, stage⟩ := call
    cases stage with
    | goal =>
      dsimp only
      split
      · exact apart ..
      · split_ifs <;> exact apart ..
    | checkpoint status =>
      dsimp only
      split <;> exact apart ..
    | status status cp runId left facts => exact apart ..
    | newer status cp runId read left facts => exact (apart ..).trans (noted ..)
    | existing status cp runId left =>
      dsimp only
      split_ifs <;> exact apart ..
    | insert status cp runId left => exact apart ..
    | active status cp =>
      dsimp only
      split_ifs <;> exact apart ..
    | transition =>
      dsimp only
      split <;> exact apart ..

/-- A call alone is not disturbed. -/
theorem undisturbed_advances {s : System} {n : ℕ} (only : ∀ m, m ≠ n → s.calls m = none) (k : ℕ) :
    UndisturbedRun s (List.replicate k (.advance n)) := by
  induction k generalizing s with
  | zero => trivial
  | succ k ih =>
    constructor
    · rintro goalId runId - m other ⟨_, _, _, there⟩
      rw [only m other] at there
      cases there
    · apply ih
      intro m other
      exact (calls_advance other).trans (only m other)

/-- Of two runs one has gone on and one is missing: a blocker is opened, and the goal moved. -/
def reconciled : List Step :=
  .createGoal "g" :: .goal "g" .planAccepted :: .goal "g" .dagMaterialized :: .createRun "p" ::
    .checkpoint "g" ["p", "r"] :: .draw 0 (some "p") :: .commit 0 :: .begin 0 "g" ::
    List.replicate 10 (.advance 0)

theorem undisturbed_reconciled : UndisturbedRun {} reconciled := by
  refine ⟨trivial, fun _ => List.not_mem_nil, fun _ => List.not_mem_nil, trivial,
    List.forall_mem_nil _, trivial, trivial, trivial, undisturbed_advances ?_ 10⟩
  intro m other
  exact if_neg other

/-- Two calls look for a blocker of the same run before either opens one. -/
def overlapping : List Step :=
  [.createGoal "g", .checkpoint "g" ["r"], .begin 0 "g", .begin 1 "g",
    .advance 0, .advance 0, .advance 0, .advance 0, .advance 1, .advance 1, .advance 1, .advance 1,
    .advance 0, .advance 1, .advance 0, .advance 1]

/-- A run draws a position before the last event of the checkpoint, and commits it afterwards. -/
def overtaken : List Step :=
  [.createGoal "g", .createRun "r", .draw 0 (some "r"), .draw 1 none, .commit 1,
    .checkpoint "g" ["r"], .commit 0, .begin 0 "g", .advance 0, .advance 0, .advance 0, .advance 0]

example : (run overtaken).stale.map (fun entry => entry.2.map (·.runId)) = [[some "r"]] := by
  decide

end Artoo.Server.Resume
