import Mathlib.Data.List.Infix
import Artoo.Journal.System

/-! Runs computed from their actions. The promises about an action are checked along the way, for
actions that name one run. -/
namespace Artoo.Journal
open Artoo.Protocol Artoo.Lib

variable {digest : NodeRunEvent → String} {s s' : System} {r : String}

def System.exec (digest : NodeRunEvent → String) (s : System) :
    List Action → List (Action × Observation) × System
  | [] => ([], s)
  | action :: rest =>
    let (observation, t) := s.step digest action
    let (trace, u) := t.exec digest rest
    ((action, observation) :: trace, u)

/-- No row mentions the id. -/
def unmentioned (uuid : String) (rows : List EventRow) : Bool :=
  rows.all fun e => e.attempts.all (·.id != uuid) && !decide (uuid.toList <:+: e.eventId.toList)

instance : DecidablePred Command.WellFormed
  | .admitRun input => inferInstanceAs (Decidable (input.key ≠ "" ∧ input.mode ≠ .fenced))
  | .append _ eventId content => inferInstanceAs (Decidable
      (eventId ≠ "" ∧ startsWith reservedPrefix eventId = false ∧ settlementBody content = false))
  | .producerClosed _ input => inferInstanceAs (Decidable
      (input.outcome.terminal.phase.terminal = true ∧ input.eventContents = input.outcome.contents))
  | .delivery _ (.settle s) => inferInstanceAs (Decidable (s.accepted = true → s.hash.isSome = true))
  | .lookup _ | .advance .. | .stop .. | .started _ | .pending .. | .live .. | .delivery _ .inspect
  | .delivery _ .claim => inferInstanceAs (Decidable True)

/-- The check of `Action.Allowed` where every outbox but `r`'s is empty. -/
def Action.allowed (r : String) (s : System) : Action → Bool
  | .launch incarnation _ _ => (s.processes incarnation).isNone
  | .call _ env cmd =>
    cmd.runId == r && env.uuid != "" && (s.db.receipts env.uuid).isNone &&
      unmentioned env.uuid (s.db.outbox r) && decide cmd.WellFormed
  | _ => true

def allowed (digest : NodeRunEvent → String) (r : String) (s : System) : List Action → Bool
  | [] => true
  | action :: rest => action.allowed r s && allowed digest r (s.step digest action).2 rest

/-- A sound database with rows for one run at most. -/
structure Solo (digest : NodeRunEvent → String) (r : String) (s : System) : Prop where
  inv : s.db.Inv digest
  others : ∀ r', r' ≠ r → s.db.outbox r' = []

theorem Solo.fresh (solo : Solo digest r s) {uuid : String} (named : uuid ≠ "")
    (receipt : s.db.receipts uuid = none) (rows : unmentioned uuid (s.db.outbox r) = true) :
    FreshId s.db uuid := by
  have each : ∀ r', ∀ e ∈ s.db.outbox r',
      (∀ a ∈ e.attempts, a.id ≠ uuid) ∧ ¬ uuid.toList <:+: e.eventId.toList := by
    intro r' e member
    by_cases hit : r' = r
    · rw [hit] at member
      simpa using List.all_eq_true.mp rows e member
    · rw [solo.others r' hit] at member
      cases member
  exact ⟨named, receipt, fun r' e member => (each r' e member).1, fun r' e member => (each r' e member).2⟩

theorem Solo.allowed (solo : Solo digest r s) {action : Action} (check : action.allowed r s = true) :
    action.Allowed s := by
  cases action with
  | launch incarnation clockId reading => exact Option.isNone_iff_eq_none.mp check
  | claimStart | invoke => trivial
  | call incarnation env cmd =>
    simp only [Action.allowed, Bool.and_eq_true, bne_iff_ne, Option.isNone_iff_eq_none,
      decide_eq_true_eq] at check
    obtain ⟨⟨⟨⟨-, named⟩, receipt⟩, rows⟩, formed⟩ := check
    exact ⟨solo.fresh named receipt rows, formed⟩

theorem Effect.frame {w : Worker} {cmd : Command} {db db' : Database} {reply : Reply}
    (effect : Effect w cmd db reply db') : Frame cmd.runId db db' := by
  cases effect with
  | same absent reads unchanged => exact unchanged ▸ Frame.refl _ _
  | admitted command absent reply stored frame | fenced command absent reply stored frame =>
    exact command ▸ frame
  | moved names stored account => exact names ▸ account.moves.frame

theorem Solo.step (solo : Solo digest r s) {action : Action} (check : action.allowed r s = true) :
    Solo digest r (s.step digest action).2 := by
  have step : System.Step digest (action, (s.step digest action).1) s (s.step digest action).2 :=
    ⟨solo.allowed check, rfl⟩
  refine ⟨step.inv solo.inv, fun r' other => ?_⟩
  cases step.acted solo.inv with
  | idle db silent => exact (congrArg (Database.outbox · r') db).trans (solo.others r' other)
  | @ran call p tx shown found ran effect =>
    have names : call.cmd.runId = r := by
      cases action with
      | call incarnation env cmd =>
        simp only [Action.allowed, Bool.and_eq_true, beq_iff_eq] at check
        obtain ⟨⟨⟨⟨names, -⟩, -⟩, -⟩, -⟩ := check
        have same : call.cmd = cmd := by
          generalize (s.step digest (.call incarnation env cmd)).1 = observation at shown
          cases observation with
          | called outcome =>
            obtain ⟨reply, -, rfl⟩ := Option.map_eq_some_iff.mp shown
            rfl
          | opened | claimed | started | refused => cases shown
        rw [same, names]
      | launch | claimStart | invoke => cases shown
    exact (effect.frame.outbox r' (names ▸ other)).trans (solo.others r' other)

theorem exec_path (actions : List Action) :
    ∀ {s : System}, Solo digest r s → allowed digest r s actions = true →
      System.Run digest (s.exec digest actions).1 s (s.exec digest actions).2 := by
  induction actions with
  | nil =>
    intro s _ _
    exact .nil s
  | cons action rest ih =>
    intro s solo checks
    obtain ⟨check, later⟩ := Bool.and_eq_true_iff.mp checks
    exact .cons ⟨solo.allowed check, rfl⟩ (ih (solo.step check) later)

theorem Solo.initial (digest : NodeRunEvent → String) (r : String) : Solo digest r .initial :=
  ⟨Database.empty_inv digest, fun _ _ => rfl⟩

/-- The run of checked actions from the provisioned journal. -/
theorem exec_run (actions : List Action) (checks : allowed digest r .initial actions = true) :
    System.Run digest (System.initial.exec digest actions).1 .initial
      (System.initial.exec digest actions).2 :=
  exec_path actions (.initial digest r) checks

theorem exec_solo (actions : List Action) :
    ∀ {s : System}, Solo digest r s → allowed digest r s actions = true →
      Solo digest r (s.exec digest actions).2 := by
  induction actions with
  | nil => exact fun solo _ => solo
  | cons action rest ih =>
    intro s solo checks
    obtain ⟨check, later⟩ := Bool.and_eq_true_iff.mp checks
    exact ih (solo.step check) later

/-! ### A run to evaluate -/

def sampleDigest : NodeRunEvent → String
  | .output _ text => "sha256:" ++ text
  | _ => "sha256"

def sampleOwner : Owner := ⟨"run", "nonce", "key"⟩

def sampleEnv (uuid : String) (now : Nat) : Env := ⟨uuid, fun _ => now, .none⟩

/-- A run admitted and started by its first worker. -/
def sampleStart : List Action :=
  [.launch "first" (some "boot") 0,
   .call "first" (sampleEnv "u1" 1) (.admitRun ⟨"run", .perRun, "key", "{}", "nonce"⟩),
   .call "first" (sampleEnv "u2" 1) (.advance sampleOwner 1 .preparing),
   .call "first" (sampleEnv "u3" 1) (.advance sampleOwner 2 .launchIntent),
   .claimStart 0,
   .invoke 0 .none,
   .call "first" (sampleEnv "u4" 1) (.started sampleOwner)]

/-- Two appended events. -/
def sampleAppends : List Action :=
  [.call "first" (sampleEnv "u5" 2) (.append sampleOwner "e0" (.output .stdout "a")),
   .call "first" (sampleEnv "u6" 2) (.append sampleOwner "e1" (.output .stdout "b"))]

def sampleOutcome (phase : LifecyclePhase) (outcome : WorkspaceRetentionOutcome) : FinalOutcome :=
  ⟨⟨phase, .absent⟩, ⟨"/w", "b", outcome⟩⟩

end Artoo.Journal
