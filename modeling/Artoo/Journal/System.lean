import Artoo.Journal.Effects

/-! The processes that open one journal, the transactions of their calls and the launch permits
their journals hand out. -/
namespace Artoo.Journal
open Artoo.Protocol Artoo.Lib

/-- Where a call fails besides its own refusals. -/
inductive Fault where
  /-- nowhere -/
  | none
  /-- at a check, a statement or the commit: the transaction is rolled back -/
  | before
  /-- at the checks after the commit, or with a reply that comes too late -/
  | after
  deriving DecidableEq, Repr

/-- The surroundings of a call: a random id, the clock's readings and the failure. -/
structure Env where
  uuid : String
  hrtime : Nat → Nat
  fault : Fault

/-- One open worker. Its incarnation is the key it is found by. -/
structure Process where
  clockId : Option String
  last : Nat
  unavailable : Bool := false

def Process.worker (digest : NodeRunEvent → String) (incarnation : String) (p : Process) (env : Env) :
    Worker :=
  ⟨incarnation, p.clockId, digest, env.uuid, env.hrtime⟩

/-- The one use of `startOwnedProcess`. -/
inductive Bridge where
  | unused | claimed | spent
  deriving DecidableEq, Repr

/-- The state behind a fresh launch permit. -/
structure Permit where
  incarnation : String
  owner : Owner
  mode : RunMode
  revision : Nat
  phase : DurablePhase
  bridge : Bridge := .unused
  deriving DecidableEq, Repr

structure System where
  db : Database
  processes : String → Option Process
  permits : List Permit

/-- A provisioned journal that nobody has opened. -/
def System.initial : System := ⟨Database.empty, fun _ => none, []⟩

/-- What becomes of a call. -/
inductive Outcome where
  | replied (reply : Reply)
  /-- committed, but the caller sees an error -/
  | lost (reply : Reply)
  | failed (e : JournalError)
  deriving DecidableEq

def Outcome.committed : Outcome → Option Reply
  | .replied reply | .lost reply => some reply
  | .failed _ => none

def Outcome.thrown : Outcome → Option JournalError
  | .replied _ => none
  | .lost _ => some .boundary
  | .failed e => some e

/-- `transaction`: an error before the commit rolls back, one after it does not. -/
def transaction (fault : Fault) (tx : Tx) (result : Except JournalError (Reply × Tx)) : Outcome × Tx :=
  match fault, result with
  | .before, _ => (.failed .storage, tx)
  | _, .error e => (.failed e, tx)
  | .none, .ok (reply, tx') => (.replied reply, tx')
  | .after, .ok (reply, tx') => (.lost reply, tx')

/-- One message of the worker's channel. Any error makes the worker unavailable for good. -/
def System.call (digest : NodeRunEvent → String) (s : System) (incarnation : String) (env : Env)
    (cmd : Command) : Outcome × System :=
  match s.processes incarnation with
  | none => (.failed .unavailable, s)
  | some p =>
    if p.unavailable then (.failed .unavailable, s)
    else
      let tx : Tx := ⟨s.db, p.last⟩
      let (outcome, tx) := transaction env.fault tx (execute (p.worker digest incarnation env) tx cmd)
      let p := { p with last := tx.last, unavailable := outcome.thrown.isSome }
      (outcome, { s with db := tx.db, processes := Function.update s.processes incarnation (some p) })

/-- `update(state, run)` on the permit a command was sent for. -/
def Permit.observe (p : Permit) : Reply → Permit
  | .advanced run | .blocked run | .recorded run | .settled run =>
    { p with revision := run.revision, phase := run.phase }
  | .append (.stored _ revision) => { p with revision := revision }
  | _ => p

/-- The journal's use of a reply: a fresh admission mints its permit. -/
def System.deliver (s : System) (incarnation : String) (cmd : Command) (reply : Reply) : System :=
  match cmd, reply with
  | .admitRun input, .admission .fresh run =>
    { s with permits := s.permits ++
        [{ incarnation := incarnation, owner := ⟨input.runId, input.nonce, input.key⟩,
           mode := input.mode, revision := run.revision, phase := run.phase }] }
  | _, _ =>
    { s with permits := s.permits.map fun p =>
        if p.incarnation = incarnation ∧ cmd.owner = some p.owner then p.observe reply else p }

def System.setPermit (s : System) (i : Nat) (p : Permit) : System :=
  { s with permits := s.permits.set i p }

inductive Action where
  /-- a restart: a new worker on the same database, with its own random incarnation -/
  | launch (incarnation : String) (clockId : Option String) (reading : Nat)
  | call (incarnation : String) (env : Env) (cmd : Command)
  /-- `startOwnedProcess` up to its first await -/
  | claimStart (permit : Nat)
  /-- `startOwnedProcess` from its lookup on -/
  | invoke (permit : Nat) (fault : Fault)

inductive Observation where
  | opened
  | called (outcome : Outcome)
  | claimed
  | started (runId : String)
  | refused
  deriving DecidableEq

/-- The lookup reads neither the clock nor a random id. -/
def lookupEnv (fault : Fault) : Env := ⟨"", fun _ => 0, fault⟩

/-- The record that lets the bridge call the producer. -/
def mayInvoke : Outcome → Bool
  | .replied (.lookup (some run)) => !run.stopRequested && run.phase == .launchIntent
  | _ => false

def System.step (digest : NodeRunEvent → String) (s : System) : Action → Observation × System
  | .launch incarnation clockId reading =>
    let p : Process := { clockId := clockId, last := reading }
    (.opened, { s with processes := Function.update s.processes incarnation (some p) })
  | .call incarnation env cmd =>
    let (outcome, s) := s.call digest incarnation env cmd
    match outcome with
    | .replied reply => (.called outcome, s.deliver incarnation cmd reply)
    | _ => (.called outcome, s)
  | .claimStart i =>
    match s.permits[i]? with
    | none => (.refused, s)
    | some p =>
      if p.mode = .perRun ∧ p.phase = .launchIntent ∧ p.bridge = .unused then
        (.claimed, s.setPermit i { p with bridge := .claimed })
      else (.refused, s)
  | .invoke i fault =>
    match s.permits[i]? with
    | none => (.refused, s)
    | some p =>
      if p.bridge ≠ .claimed then (.refused, s)
      else
        let (outcome, s) := s.call digest p.incarnation (lookupEnv fault) (.lookup p.owner.runId)
        let s := s.setPermit i { p with bridge := .spent }
        (if mayInvoke outcome then .started p.owner.runId else .refused, s)

/-- What randomness and the journal's own checks promise about an action. -/
def Action.Allowed (s : System) : Action → Prop
  | .launch incarnation _ _ => s.processes incarnation = none
  | .call _ env cmd => FreshId s.db env.uuid ∧ cmd.WellFormed
  | _ => True

/-- One action with what it shows. -/
structure System.Step (digest : NodeRunEvent → String) (l : Action × Observation) (s s' : System) :
    Prop where
  allowed : l.1.Allowed s
  result : s.step digest l.1 = (l.2, s')

/-- Any order of calls, restarts and starts. -/
abbrev System.Run (digest : NodeRunEvent → String) : List (Action × Observation) → System → System → Prop :=
  Path (System.Step digest)

/-- A committed call. -/
structure Call where
  incarnation : String
  env : Env
  cmd : Command
  reply : Reply

/-- The committed call an action shows, delivered or not. -/
def committed : Action × Observation → Option Call
  | (.call incarnation env cmd, .called outcome) =>
    outcome.committed.map fun reply => ⟨incarnation, env, cmd, reply⟩
  | _ => none

/-- The committed calls of a run, in order. -/
def calls (trace : List (Action × Observation)) : List Call := trace.filterMap committed

/-! ### What an action does to the database -/

variable {digest : NodeRunEvent → String}

/-- A call commits its effect or leaves the database alone. -/
inductive Called (digest : NodeRunEvent → String) (s : System) (incarnation : String) (env : Env)
    (cmd : Command) : Outcome → System → Prop where
  | failed {e : JournalError} {s' : System} (db : s'.db = s.db) (permits : s'.permits = s.permits)
      (external : External cmd.reported e) : Called digest s incarnation env cmd (.failed e) s'
  | committed {p : Process} {outcome : Outcome} {reply : Reply} {tx : Tx} {s' : System}
      (found : s.processes incarnation = some p) (up : p.unavailable = false)
      (ran : execute (p.worker digest incarnation env) ⟨s.db, p.last⟩ cmd = .ok (reply, tx))
      (shown : outcome.committed = some reply) (db : s'.db = tx.db) (permits : s'.permits = s.permits)
      (effect : Effect (p.worker digest incarnation env) cmd s.db reply s'.db) :
      Called digest s incarnation env cmd outcome s'

theorem System.call_spec {s : System} (inv : s.db.Inv digest) (incarnation : String) {env : Env}
    (fresh : FreshId s.db env.uuid) {cmd : Command} (formed : cmd.WellFormed) :
    Called digest s incarnation env cmd (s.call digest incarnation env cmd).1
      (s.call digest incarnation env cmd).2 := by
  rw [System.call]
  split
  next => exact .failed rfl rfl ⟨rfl, nofun⟩
  next p found =>
    split
    next => exact .failed rfl rfl ⟨rfl, nofun⟩
    next up =>
      have spec := execute_spec (w := p.worker digest incarnation env) inv fresh p.last formed
      cases ran : execute (p.worker digest incarnation env) ⟨s.db, p.last⟩ cmd with
      | error e =>
        have external := spec.of_error ran
        simp only [ran]
        cases env.fault with
        | none | after => exact .failed rfl rfl external
        | before => exact .failed rfl rfl ⟨rfl, nofun⟩
      | ok result =>
        have effect := spec.of_ok ran
        simp only [ran]
        cases env.fault with
        | none | after => exact .committed found (by simpa using up) ran rfl rfl rfl effect
        | before => exact .failed rfl rfl ⟨rfl, nofun⟩

theorem lookup_db {w : Worker} {tx tx' : Tx} {runId : String} {reply : Reply}
    (ran : execute w tx (.lookup runId) = .ok (reply, tx')) : tx' = tx := by
  simp only [execute] at ran
  split at ran
  next => exact (Prod.ext_iff.mp (Except.ok.inj ran)).2.symm
  next value _ =>
    cases viewed : view w tx.db value with
    | error e => simp [viewed] at ran
    | ok record =>
      simp only [viewed, ok_bind] at ran
      exact (Prod.ext_iff.mp (Except.ok.inj ran)).2.symm

/-- A lookup writes nothing. -/
theorem System.call_lookup (digest : NodeRunEvent → String) (s : System) (incarnation : String) (env : Env) (runId : String) :
    (s.call digest incarnation env (.lookup runId)).2.db = s.db ∧
      (s.call digest incarnation env (.lookup runId)).2.permits = s.permits := by
  rw [System.call]
  split
  next => exact ⟨rfl, rfl⟩
  next p found =>
    split
    next => exact ⟨rfl, rfl⟩
    next =>
      refine ⟨?_, rfl⟩
      cases ran : execute (p.worker digest incarnation env) ⟨s.db, p.last⟩ (.lookup runId) with
      | error e =>
        simp only [ran]
        cases env.fault <;> rfl
      | ok result =>
        have same := lookup_db ran
        simp only [ran]
        cases env.fault <;> simp [transaction, same]

/-- What an action does to the database: nothing, or the effect of one committed call. -/
inductive Acted (digest : NodeRunEvent → String) (l : Action × Observation) (s s' : System) : Prop where
  | idle (db : s'.db = s.db) (silent : committed l = none)
  | ran {call : Call} {p : Process} {tx : Tx} (shown : committed l = some call)
      (found : s.processes call.incarnation = some p)
      (ran : execute (p.worker digest call.incarnation call.env) ⟨s.db, p.last⟩ call.cmd =
        .ok (call.reply, tx))
      (effect : Effect (p.worker digest call.incarnation call.env) call.cmd s.db call.reply s'.db)

theorem System.deliver_db (s : System) (incarnation : String) (cmd : Command) (reply : Reply) :
    (s.deliver incarnation cmd reply).db = s.db := by
  unfold System.deliver
  split <;> rfl

theorem System.Step.acted {l : Action × Observation} {s s' : System} (step : System.Step digest l s s')
    (inv : s.db.Inv digest) : Acted digest l s s' := by
  obtain ⟨action, observation⟩ := l
  obtain ⟨allowed, result⟩ := step
  cases action with
  | launch incarnation clockId reading =>
    cases result
    exact .idle rfl rfl
  | claimStart i =>
    simp only [System.step] at result
    split at result
    next => cases result; exact .idle rfl rfl
    next p _ => split at result <;> cases result <;> exact .idle rfl rfl
  | invoke i fault =>
    simp only [System.step] at result
    split at result
    next => cases result; exact .idle rfl rfl
    next p _ =>
      split at result
      next => cases result; exact .idle rfl rfl
      next =>
        cases result
        exact .idle (s.call_lookup digest p.incarnation (lookupEnv fault) p.owner.runId).1 rfl
  | call incarnation env cmd =>
    have called := System.call_spec inv incarnation allowed.1 allowed.2
    simp only [System.step] at result
    generalize s.call digest incarnation env cmd = pair at called result
    obtain ⟨outcome, t⟩ := pair
    cases called with
    | failed db permits external =>
      cases result
      exact .idle db rfl
    | committed found up ran shown db permits effect =>
      cases outcome with
      | failed e => cases shown
      | lost reply =>
        cases result
        obtain rfl := Option.some.inj shown
        exact @Acted.ran _ _ _ _ ⟨incarnation, env, cmd, reply⟩ _ _ rfl found ran effect
      | replied reply =>
        cases result
        obtain rfl := Option.some.inj shown
        refine @Acted.ran _ _ _ _ ⟨incarnation, env, cmd, reply⟩ _ _ rfl found ran ?_
        rw [System.deliver_db]
        exact effect

theorem System.Step.inv {l : Action × Observation} {s s' : System} (step : System.Step digest l s s')
    (inv : s.db.Inv digest) : s'.db.Inv digest := by
  cases step.acted inv with
  | idle db => exact db ▸ inv
  | ran shown found ran effect => exact effect.inv inv

theorem System.Step.later {l : Action × Observation} {s s' : System} (step : System.Step digest l s s')
    (inv : s.db.Inv digest) : Later digest s.db s'.db := by
  cases step.acted inv with
  | idle db => exact db ▸ Later.refl digest s.db
  | ran shown found ran effect => exact effect.later

variable {trace : List (Action × Observation)} {s s' : System}

theorem System.run_inv (run : System.Run digest trace s s') (inv : s.db.Inv digest) :
    s'.db.Inv digest :=
  run.invariant (P := (·.db.Inv digest)) (fun _ _ _ inv step => step.inv inv) inv

/-- The database invariant of every reachable system. -/
theorem System.reachable_inv (run : System.Run digest trace .initial s) : s.db.Inv digest :=
  System.run_inv run (Database.empty_inv digest)

theorem System.run_later (run : System.Run digest trace s s') (inv : s.db.Inv digest) :
    Later digest s.db s'.db :=
  run.relates (P := (·.db.Inv digest)) (R := fun s t => Later digest s.db t.db)
    (fun s => Later.refl digest s.db) (fun _ _ _ => Later.trans) (fun _ _ _ inv step => step.inv inv)
    (fun _ _ _ inv step => step.later inv) inv

end Artoo.Journal
