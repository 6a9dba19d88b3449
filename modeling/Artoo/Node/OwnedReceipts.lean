import Artoo.Node.OwnedClosure
import Mathlib.Data.List.Induction

/-! The receipts of owned runs, over all the executions and the calls that are still waiting. -/
namespace Artoo.Node.OwnedClosure

inductive Kind where
  | notSpawned | confirmedClosed | running | uncertain
  deriving DecidableEq

inductive Stage where
  | starting | started
  | failing (kind : Kind)
  | failed
  deriving DecidableEq

structure OwnedInvocation where
  owner : ℕ
  admission : ℕ
  handle : Option ℕ := none
  genuine : Bool := false
  spawnAttempted : Bool := false
  helperUncertain : Bool := false
  observed : Option Observed := none
  control : Bool := false
  closedFacts : Option OwnedPhysicalFacts := none
  stage : Stage := .starting

/-- A helper ends with its closure confirmed or not; an attempt of a spawn gives a child, or throws. -/
inductive Doing where
  | genuine
  | prepare
  | prepared (confirmed : Bool)
  | attempt (child : Option (Option ℕ))
  | seen (event : Seen)
  | observe (absent : Bool)
  | fail

def observe (absent : Bool) (inv : OwnedInvocation) : OwnedInvocation :=
  match inv.observed with
  | none => inv
  | some o => match observeFullClosure absent o with
    | (o, some facts) => { inv with observed := some o, closedFacts := some facts, control := false }
    | (o, none) => { inv with observed := some o }

/-- `closedFacts ?? observeFullClosure()` -/
def confirm (absent : Bool) (inv : OwnedInvocation) : OwnedInvocation :=
  if inv.closedFacts.isSome then inv else observe absent inv

def look (event : Seen) (inv : OwnedInvocation) : OwnedInvocation :=
  match inv.observed with
  | none => inv
  | some o => if delivered o event then { inv with observed := some (seen o event) } else inv

def attempt (child : Option (Option ℕ)) (inv : OwnedInvocation) : OwnedInvocation :=
  match child with
  | none => { inv with spawnAttempted := true }
  | some pid =>
    { inv with spawnAttempted := true, observed := some { childPid := pid }, control := true }

/-- The kind with which a start fails before its run is stopped. -/
def failing (inv : OwnedInvocation) : Kind :=
  if inv.genuine && !inv.spawnAttempted && !inv.helperUncertain then .notSpawned else .uncertain

def doing (inv : OwnedInvocation) : Doing → OwnedInvocation
  | .seen event => look event inv
  | .observe absent => observe absent inv
  | event =>
    if inv.stage ≠ .starting then inv
    else match event with
      | .genuine => { inv with genuine := true }
      | .prepare => { inv with helperUncertain := true }
      | .prepared confirmed => { inv with helperUncertain := !confirmed }
      | .attempt child => if inv.spawnAttempted then inv else attempt child inv
      | .fail => { inv with stage := .failing (failing inv) }
      | _ => inv

inductive Operation where
  | stop | inspect
  deriving DecidableEq

/-- With its scope. One of a start has no operation. -/
structure Receipt where
  operation : Option Operation
  index : ℕ
  admission : ℕ
  handle : Option ℕ
  kind : Kind
  facts : Option OwnedPhysicalFacts

/-- A call that waits, and what it has been told. -/
structure Pending where
  operation : Operation
  index : ℕ
  answer : Kind := .uncertain

/-- A handle is the index of the entry that `ownedExecutions` has for it. -/
structure World where
  claimed : List Bool := []
  invocations : List OwnedInvocation := []
  handles : List ℕ := []
  pending : List Pending := []
  receipts : List Receipt := []

def ownedExecution (w : World) (owner handle admission : ℕ) : Option (ℕ × OwnedInvocation) :=
  match w.handles[handle]? with
  | none => none
  | some i => match w.invocations[i]? with
    | none => none
    | some inv =>
      if inv.owner = owner ∧ inv.admission = admission ∧ inv.handle = some handle then some (i, inv)
      else none

/-- `closedFacts ?? control?.facts()` -/
def facts (inv : OwnedInvocation) : Option OwnedPhysicalFacts :=
  match inv.closedFacts with
  | some facts => some facts
  | none => if inv.control then inv.observed.map physicalFacts else none

def issue (operation : Option Operation) (i : ℕ) (inv : OwnedInvocation) (kind : Kind) (w : World) :
    World :=
  { w with receipts := w.receipts ++ [⟨operation, i, inv.admission, inv.handle, kind, facts inv⟩] }

def change (i : ℕ) (f : OwnedInvocation → OwnedInvocation) (w : World) : World :=
  { w with invocations := w.invocations.modify i f }

def startOwnedRun (owner admission : ℕ) (w : World) : World :=
  if w.claimed[admission]? = some false then
    { w with claimed := w.claimed.set admission true, invocations := w.invocations ++ [{ owner, admission }] }
  else w

def handOver (handle : ℕ) (inv : OwnedInvocation) : OwnedInvocation :=
  { inv with handle := some handle, stage := .started }

def started (i : ℕ) (w : World) : World :=
  match w.invocations[i]? with
  | none => w
  | some inv =>
    if inv.stage = .starting ∧ inv.handle = none then
      change i (handOver w.handles.length) { w with handles := w.handles ++ [i] }
    else w

def endStart (inv : OwnedInvocation) : OwnedInvocation := { inv with stage := .failed }

def startFailed (i : ℕ) (w : World) : World :=
  match w.invocations[i]? with
  | none => w
  | some inv => match inv.stage with
    | .failing kind =>
      let kind := match inv.closedFacts with
        | some facts => if facts.childSpawned then .confirmedClosed else .notSpawned
        | none => kind
      change i endStart (if inv.genuine then issue none i inv kind w else w)
    | _ => w

def call (operation : Operation) (owner handle admission : ℕ) (w : World) : World :=
  match ownedExecution w owner handle admission with
  | none => w
  | some (i, inv) =>
    if inv.closedFacts.isSome then issue (some operation) i inv .confirmedClosed w
    else if !inv.control then issue (some operation) i inv .uncertain w
    else { w with pending := w.pending ++ [{ operation, index := i }] }

/-- A call that waits observes the closure, or that its run is there. -/
def ask (k : ℕ) (absent present : Bool) (w : World) : World :=
  match w.pending[k]? with
  | none => w
  | some p => match w.invocations[p.index]? with
    | none => w
    | some inv =>
      let answer := if (confirm absent inv).closedFacts.isSome then .confirmedClosed
        else if present && p.operation = .inspect then .running else p.answer
      change p.index (confirm absent) { w with pending := w.pending.set k { p with answer } }

def settled (p : Pending) (threw : Bool) (inv : OwnedInvocation) : Kind :=
  match threw, p.operation with
  | true, _ => .uncertain
  | false, .stop => if inv.closedFacts.isSome then .confirmedClosed else .uncertain
  | false, .inspect => p.answer

def settle (k : ℕ) (threw : Bool) (w : World) : World :=
  match w.pending[k]? with
  | none => w
  | some p => match w.invocations[p.index]? with
    | none => w
    | some inv =>
      issue (some p.operation) p.index inv (settled p threw inv)
        { w with pending := w.pending.eraseIdx k }

inductive Event where
  | createAdmission
  | startOwnedRun (owner admission : ℕ)
  | during (i : ℕ) (event : Doing)
  | started (i : ℕ)
  | startFailed (i : ℕ)
  | call (operation : Operation) (owner handle admission : ℕ)
  | ask (k : ℕ) (absent present : Bool)
  | settle (k : ℕ) (threw : Bool)

def step (w : World) : Event → World
  | .createAdmission => { w with claimed := w.claimed ++ [false] }
  | .startOwnedRun owner admission => startOwnedRun owner admission w
  | .during i event => change i (doing · event) w
  | .started i => started i w
  | .startFailed i => startFailed i w
  | .call operation owner handle admission => call operation owner handle admission w
  | .ask k absent present => ask k absent present w
  | .settle k threw => settle k threw w

def run (events : List Event) : World := events.foldl step {}

/-- `getOwnedStopReceipt`, `getOwnedRunStatusReceipt`: `value` is the receipt that was issued. -/
def getReceipt (w : World) (operation : Operation) (value admission handle : ℕ) : Option Receipt :=
  match w.receipts[value]? with
  | none => none
  | some r =>
    if r.operation = some operation ∧ r.admission = admission ∧ r.handle = some handle then some r
    else none

/-! ## One execution -/

def Over (inv : OwnedInvocation) : Prop := inv.stage = .failed ∨ ∃ kind, inv.stage = .failing kind

/-- What a later state of an execution keeps. -/
structure Later (inv inv' : OwnedInvocation) : Prop where
  admission : inv'.admission = inv.admission
  handle : ∀ h, inv.handle = some h → inv'.handle = some h
  closed : ∀ f, inv.closedFacts = some f → inv'.closedFacts = some f
  over_ : Over inv → Over inv' ∧ inv'.spawnAttempted = inv.spawnAttempted ∧
    inv'.helperUncertain = inv.helperUncertain

theorem Later.refl (inv : OwnedInvocation) : Later inv inv :=
  ⟨rfl, fun _ is => is, fun _ is => is, fun ended => ⟨ended, rfl, rfl⟩⟩

theorem Later.trans {a b c : OwnedInvocation} (first : Later a b) (last : Later b c) : Later a c := by
  refine ⟨last.admission.trans first.admission, fun h is => last.handle h (first.handle h is),
    fun f is => last.closed f (first.closed f is), fun ended => ?_⟩
  obtain ⟨ended', same, same'⟩ := first.over_ ended
  obtain ⟨ended'', more, more'⟩ := last.over_ ended'
  exact ⟨ended'', more.trans same, more'.trans same'⟩

structure Sound (inv : OwnedInvocation) : Prop where
  ordered : ∀ o, inv.observed = some o → Ordered o
  closed : ∀ f, inv.closedFacts = some f → ∃ o, inv.observed = some o ∧ Closed o ∧ physicalFacts o = f
  attempted : inv.observed.isSome = true → inv.spawnAttempted = true
  unspawned : inv.stage = .failing .notSpawned →
    inv.spawnAttempted = false ∧ inv.helperUncertain = false
  unconfirmed : inv.stage ≠ .failing .confirmedClosed

theorem Sound.look {inv : OwnedInvocation} (h : Sound inv) (event : Seen) :
    Sound (look event inv) ∧ Later inv (look event inv) := by
  unfold OwnedClosure.look
  cases is : inv.observed with
  | none => exact ⟨h, Later.refl inv⟩
  | some o =>
    dsimp only
    split_ifs with sent
    · have ordered := h.ordered o is
      refine ⟨⟨?_, ?_, fun _ => h.attempted (by rw [is]; rfl), h.unspawned, h.unconfirmed⟩,
        rfl, fun _ is => is, fun _ is => is, fun ended => ⟨ended, rfl, rfl⟩⟩
      · intro o' is'
        rw [← Option.some.inj is']
        exact ordered_seen ordered sent
      · intro f closed
        obtain ⟨o', is', gone, same⟩ := h.closed f closed
        cases is.symm.trans is'
        obtain ⟨gone', same'⟩ := closed_seen ordered gone sent
        exact ⟨_, rfl, gone', same'.trans same⟩
    · exact ⟨h, Later.refl inv⟩

/-- A closure that is observed is what it was, if it was one. -/
theorem Sound.observe {inv : OwnedInvocation} (h : Sound inv) (absent : Bool) :
    Sound (observe absent inv) ∧ Later inv (observe absent inv) := by
  unfold OwnedClosure.observe
  cases is : inv.observed with
  | none => exact ⟨h, Later.refl inv⟩
  | some o =>
    have ordered := h.ordered o is
    have attempted := h.attempted (by rw [is]; rfl)
    have ordered' : Ordered (observeFullClosure absent o).1 := ordered_observe ordered
    have same : ∀ f, inv.closedFacts = some f → observeFullClosure absent o = (o, some f) := by
      intro f closed
      obtain ⟨o', is', gone, same⟩ := h.closed f closed
      cases is.symm.trans is'
      rw [observe_closed ordered gone, same]
    dsimp only
    cases found : observeFullClosure absent o with
    | mk o' found' =>
      rw [found] at ordered'
      cases found' with
      | some facts =>
        have seen : (observeFullClosure absent o).2 = some facts := by rw [found]
        have closed := closed_observe ordered seen
        rw [found] at closed
        refine ⟨⟨?_, ?_, fun _ => attempted, h.unspawned, h.unconfirmed⟩,
          rfl, fun _ is => is, fun f was => ?_, fun ended => ⟨ended, rfl, rfl⟩⟩
        · intro x is'
          rw [← Option.some.inj is']
          exact ordered'
        · intro f is'
          exact ⟨o', rfl, closed.1, closed.2.trans (Option.some.inj is')⟩
        · have again := (same f was).symm.trans found
          exact congrArg Prod.snd again.symm
      | none =>
        refine ⟨⟨?_, ?_, fun _ => attempted, h.unspawned, h.unconfirmed⟩,
          rfl, fun _ is => is, fun f was => was, fun ended => ⟨ended, rfl, rfl⟩⟩
        · intro x is'
          rw [← Option.some.inj is']
          exact ordered'
        · intro f was
          exact absurd (congrArg Prod.snd ((same f was).symm.trans found)) nofun

theorem Sound.confirm {inv : OwnedInvocation} (h : Sound inv) (absent : Bool) :
    Sound (confirm absent inv) ∧ Later inv (confirm absent inv) := by
  unfold OwnedClosure.confirm
  split_ifs
  · exact ⟨h, Later.refl inv⟩
  · exact h.observe absent

theorem not_over {inv : OwnedInvocation} (starting : inv.stage = .starting) : ¬Over inv := by
  rintro (failed | ⟨kind, failing⟩)
  · rw [starting] at failed
    exact absurd failed nofun
  · rw [starting] at failing
    exact absurd failing nofun

theorem Sound.attempt {inv : OwnedInvocation} (h : Sound inv) (starting : inv.stage = .starting)
    (first : inv.spawnAttempted = false) (child : Option (Option ℕ)) :
    Sound (attempt child inv) ∧ Later inv (attempt child inv) := by
  -- What is observed, and closed, is of a spawn that was attempted.
  have unseen : inv.observed = none := by
    cases is : inv.observed with
    | none => rfl
    | some o =>
      have attempted := h.attempted (by rw [is]; rfl)
      rw [first] at attempted
      exact absurd attempted Bool.false_ne_true
  have open_ : inv.closedFacts = none := by
    cases is : inv.closedFacts with
    | none => rfl
    | some f =>
      obtain ⟨o, is', -⟩ := h.closed f is
      rw [unseen] at is'
      exact absurd is' nofun
  have late : ∀ kind, inv.stage ≠ .failing kind := by
    intro kind is
    rw [starting] at is
    exact absurd is nofun
  unfold OwnedClosure.attempt
  cases child with
  | none =>
    exact ⟨⟨h.ordered, h.closed, fun _ => rfl, fun is => absurd is (late _), h.unconfirmed⟩,
      rfl, fun _ is => is, fun _ is => is, fun ended => absurd ended (not_over starting)⟩
  | some pid =>
    refine ⟨⟨?_, ?_, fun _ => rfl, fun is => absurd is (late _), h.unconfirmed⟩,
      rfl, fun _ is => is, fun _ is => is, fun ended => absurd ended (not_over starting)⟩
    · intro o is
      rw [← Option.some.inj is]
      exact ⟨nofun, nofun, nofun, nofun, nofun⟩
    · intro f is
      rw [open_] at is
      exact absurd is nofun

theorem Sound.doing {inv : OwnedInvocation} (h : Sound inv) (event : Doing) :
    Sound (doing inv event) ∧ Later inv (doing inv event) := by
  have starting {inv' : OwnedInvocation} (next : inv.stage = .starting → Sound inv' ∧ Later inv inv') :
      Sound (if inv.stage ≠ .starting then inv else inv') ∧
        Later inv (if inv.stage ≠ .starting then inv else inv') := by
    split_ifs with later
    · exact ⟨h, Later.refl inv⟩
    · exact next (not_not.mp later)
  have late {kind : Kind} (early : inv.stage = .starting) : inv.stage ≠ .failing kind := by
    rw [early]
    exact nofun
  unfold OwnedClosure.doing
  cases event with
  | seen event => exact h.look event
  | observe absent => exact h.observe absent
  | genuine =>
    apply starting
    intro early
    exact ⟨⟨h.ordered, h.closed, h.attempted, h.unspawned, h.unconfirmed⟩,
      rfl, fun _ is => is, fun _ is => is, fun ended => ⟨ended, rfl, rfl⟩⟩
  | prepare =>
    apply starting
    intro early
    exact ⟨⟨h.ordered, h.closed, h.attempted, fun is => absurd is (late early), h.unconfirmed⟩,
      rfl, fun _ is => is, fun _ is => is, fun ended => absurd ended (not_over early)⟩
  | prepared confirmed =>
    apply starting
    intro early
    exact ⟨⟨h.ordered, h.closed, h.attempted, fun is => absurd is (late early), h.unconfirmed⟩,
      rfl, fun _ is => is, fun _ is => is, fun ended => absurd ended (not_over early)⟩
  | attempt child =>
    apply starting
    intro early
    split_ifs with again
    · exact ⟨h, Later.refl inv⟩
    · exact h.attempt early (Bool.not_eq_true _ ▸ again) child
  | fail =>
    apply starting
    intro early
    refine ⟨⟨h.ordered, h.closed, h.attempted, fun is => ?_, fun is => ?_⟩,
      rfl, fun _ is => is, fun _ is => is, fun ended => absurd ended (not_over early)⟩
    · have kind : failing inv = .notSpawned := Stage.failing.inj is
      unfold failing at kind
      split_ifs at kind with clean
      rw [Bool.and_eq_true, Bool.and_eq_true, Bool.not_eq_true', Bool.not_eq_true'] at clean
      exact ⟨clean.1.2, clean.2⟩
    · have kind : failing inv = .confirmedClosed := Stage.failing.inj is
      unfold failing at kind
      split_ifs at kind

/-! ## All executions -/

def Grown (w w' : World) : Prop :=
  ∀ (i : ℕ) inv, w.invocations[i]? = some inv → ∃ inv', w'.invocations[i]? = some inv' ∧ Later inv inv'

theorem Grown.refl (w : World) : Grown w w := fun _ inv is => ⟨inv, is, Later.refl inv⟩

theorem Grown.trans {a b c : World} (first : Grown a b) (last : Grown b c) : Grown a c := by
  intro i inv is
  obtain ⟨inv', is', later⟩ := first i inv is
  obtain ⟨inv'', is'', later'⟩ := last i inv' is'
  exact ⟨inv'', is'', later.trans later'⟩

structure GoodReceipt (r : Receipt) (inv : OwnedInvocation) : Prop where
  admission : r.admission = inv.admission
  handle : ∀ operation, r.operation = some operation → ∃ h, r.handle = some h ∧ inv.handle = some h
  confirmed : r.kind = .confirmedClosed → ∃ f, inv.closedFacts = some f ∧ r.facts = some f
  notSpawned : r.kind = .notSpawned → r.operation = none ∧
    ((Over inv ∧ inv.spawnAttempted = false ∧ inv.helperUncertain = false) ∨
      ∃ f, inv.closedFacts = some f ∧ f.childSpawned = false)

theorem GoodReceipt.later {r : Receipt} {inv inv' : OwnedInvocation} (h : GoodReceipt r inv)
    (later : Later inv inv') : GoodReceipt r inv' := by
  refine ⟨h.admission.trans later.admission.symm, fun operation is => ?_, fun is => ?_, fun is => ?_⟩
  · obtain ⟨handle, is, there⟩ := h.handle operation is
    exact ⟨handle, is, later.handle handle there⟩
  · obtain ⟨f, is, there⟩ := h.confirmed is
    exact ⟨f, later.closed f is, there⟩
  · obtain ⟨start, ⟨ended, fresh, sure⟩ | ⟨f, is, unspawned⟩⟩ := h.notSpawned is
    · obtain ⟨ended', same, same'⟩ := later.over_ ended
      exact ⟨start, .inl ⟨ended', same.trans fresh, same'.trans sure⟩⟩
    · exact ⟨start, .inr ⟨f, later.closed f is, unspawned⟩⟩

structure GoodPending (p : Pending) (inv : OwnedInvocation) : Prop where
  handle : ∃ h, inv.handle = some h
  answer : p.answer = .confirmedClosed → ∃ f, inv.closedFacts = some f
  other : p.answer ≠ .notSpawned

theorem GoodPending.later {p : Pending} {inv inv' : OwnedInvocation} (h : GoodPending p inv)
    (later : Later inv inv') : GoodPending p inv' := by
  refine ⟨?_, fun is => ?_, h.other⟩
  · obtain ⟨handle, is⟩ := h.handle
    exact ⟨handle, later.handle handle is⟩
  · obtain ⟨f, is⟩ := h.answer is
    exact ⟨f, later.closed f is⟩

structure Good (w : World) : Prop where
  sound : ∀ (i : ℕ) inv, w.invocations[i]? = some inv → Sound inv
  receipts : ∀ r ∈ w.receipts, ∃ inv, w.invocations[r.index]? = some inv ∧ GoodReceipt r inv
  pending : ∀ p ∈ w.pending, ∃ inv, w.invocations[p.index]? = some inv ∧ GoodPending p inv

/-- Executions are added or grow; no receipt and no call is new. -/
theorem Good.grown {w w' : World} (h : Good w) (grown : Grown w w')
    (sound : ∀ (i : ℕ) inv, w'.invocations[i]? = some inv → Sound inv) (receipts : w'.receipts = w.receipts)
    (pending : ∀ p ∈ w'.pending, p ∈ w.pending) : Good w' := by
  refine ⟨sound, fun r there => ?_, fun p there => ?_⟩
  · rw [receipts] at there
    obtain ⟨inv, is, good⟩ := h.receipts r there
    obtain ⟨inv', is', later⟩ := grown _ inv is
    exact ⟨inv', is', good.later later⟩
  · obtain ⟨inv, is, good⟩ := h.pending p (pending p there)
    obtain ⟨inv', is', later⟩ := grown _ inv is
    exact ⟨inv', is', good.later later⟩

theorem Good.change {w : World} (h : Good w) {i : ℕ} {f : OwnedInvocation → OwnedInvocation}
    (keeps : ∀ inv, w.invocations[i]? = some inv → Sound (f inv) ∧ Later inv (f inv)) :
    Good (change i f w) ∧ Grown w (change i f w) := by
  have grown : Grown w (OwnedClosure.change i f w) := by
    intro j inv is
    refine ⟨if i = j then f inv else inv, ?_, ?_⟩
    · unfold OwnedClosure.change
      dsimp only
      rw [List.getElem?_modify, is]
      rfl
    · split_ifs with same
      · rw [← same] at is
        exact (keeps inv is).2
      · exact Later.refl inv
  refine ⟨h.grown grown (fun j inv is => ?_) rfl fun p there => there, grown⟩
  unfold OwnedClosure.change at is
  dsimp only at is
  rw [List.getElem?_modify] at is
  obtain ⟨old, was, is⟩ := Option.map_eq_some_iff.mp is
  split_ifs at is with same
  · rw [← is]
    rw [← same] at was
    exact (keeps old was).1
  · rw [← is]
    exact h.sound j old was

theorem Good.issue {w : World} (h : Good w) {operation : Option Operation} {i : ℕ}
    {inv : OwnedInvocation} {kind : Kind} (is : w.invocations[i]? = some inv)
    (good : GoodReceipt ⟨operation, i, inv.admission, inv.handle, kind, facts inv⟩ inv) :
    Good (issue operation i inv kind w) := by
  refine ⟨h.sound, fun r there => ?_, h.pending⟩
  rcases List.mem_append.mp there with old | new
  · exact h.receipts r old
  · rw [List.mem_singleton.mp new]
    exact ⟨inv, is, good⟩

theorem facts_closed {inv : OwnedInvocation} {f : OwnedPhysicalFacts} (is : inv.closedFacts = some f) :
    facts inv = some f := by
  unfold facts
  rw [is]

/-- A receipt of a call. -/
theorem goodReceipt_call {inv : OwnedInvocation} {operation : Operation} {i : ℕ} {kind : Kind}
    (handed : ∃ h, inv.handle = some h)
    (confirmed : kind = .confirmedClosed → ∃ f, inv.closedFacts = some f)
    (other : kind ≠ .notSpawned) :
    GoodReceipt ⟨some operation, i, inv.admission, inv.handle, kind, facts inv⟩ inv := by
  obtain ⟨handle, handed⟩ := handed
  refine ⟨rfl, fun _ _ => ⟨handle, handed, handed⟩, fun is => ?_, fun is => absurd is other⟩
  obtain ⟨f, closed⟩ := confirmed is
  exact ⟨f, closed, facts_closed closed⟩

theorem ownedExecution_some {w : World} {owner handle admission i : ℕ} {inv : OwnedInvocation}
    (found : ownedExecution w owner handle admission = some (i, inv)) :
    w.handles[handle]? = some i ∧ w.invocations[i]? = some inv ∧ inv.owner = owner ∧
      inv.admission = admission ∧ inv.handle = some handle := by
  unfold ownedExecution at found
  cases at_ : w.handles[handle]? with
  | none =>
    rw [at_] at found
    exact absurd found nofun
  | some j =>
    rw [at_] at found
    dsimp only at found
    cases is : w.invocations[j]? with
    | none =>
      rw [is] at found
      exact absurd found nofun
    | some old =>
      rw [is] at found
      dsimp only at found
      split_ifs at found with scope
      cases found
      exact ⟨rfl, is, scope⟩

theorem sound_new (owner admission : ℕ) : Sound { owner, admission } := by
  constructor
  · intro o is
    cases is
  · intro f is
    cases is
  · intro is
    cases is
  · intro is
    cases is
  · intro is
    cases is

theorem good_startOwnedRun {w : World} (h : Good w) (owner admission : ℕ) :
    Good (startOwnedRun owner admission w) ∧ Grown w (startOwnedRun owner admission w) := by
  unfold startOwnedRun
  split_ifs
  · have grown : Grown w { w with
        claimed := w.claimed.set admission true
        invocations := w.invocations ++ [{ owner, admission }] } := by
      intro i inv is
      refine ⟨inv, ?_, Later.refl inv⟩
      change (w.invocations ++ _)[i]? = some inv
      rw [List.getElem?_append_left (List.getElem?_eq_some_iff.mp is).1]
      exact is
    refine ⟨h.grown grown (fun i inv is => ?_) rfl fun p there => there, grown⟩
    rcases List.mem_append.mp (List.mem_of_getElem? is) with old | new
    · obtain ⟨j, is⟩ := List.getElem?_of_mem old
      exact h.sound j inv is
    · rw [List.mem_singleton.mp new]
      exact sound_new owner admission
  · exact ⟨h, Grown.refl w⟩

theorem good_started {w : World} (h : Good w) (i : ℕ) :
    Good (started i w) ∧ Grown w (started i w) := by
  unfold started
  cases is : w.invocations[i]? with
  | none => exact ⟨h, Grown.refl w⟩
  | some inv =>
    dsimp only
    split_ifs with first
    · have noted : Good { w with handles := w.handles ++ [i] } := ⟨h.sound, h.receipts, h.pending⟩
      apply noted.change
      intro old was
      cases is.symm.trans was
      have sound := h.sound i inv is
      refine ⟨⟨sound.ordered, sound.closed, sound.attempted, nofun, nofun⟩, rfl, fun _ had => ?_,
        fun _ is => is, fun ended => absurd ended (not_over first.1)⟩
      rw [first.2] at had
      exact absurd had nofun
    · exact ⟨h, Grown.refl w⟩

theorem Sound.endStart {inv : OwnedInvocation} (h : Sound inv) :
    Sound (endStart inv) ∧ Later inv (endStart inv) :=
  ⟨⟨h.ordered, h.closed, h.attempted, nofun, nofun⟩,
    rfl, fun _ is => is, fun _ is => is, fun _ => ⟨.inl rfl, rfl, rfl⟩⟩

theorem goodReceipt_start {inv : OwnedInvocation} {i : ℕ} {kind : Kind} (sound : Sound inv)
    (stage : inv.stage = .failing kind) :
    GoodReceipt ⟨none, i, inv.admission, inv.handle,
      match inv.closedFacts with
        | some facts => if facts.childSpawned then .confirmedClosed else .notSpawned
        | none => kind, facts inv⟩ inv := by
  refine ⟨rfl, nofun, fun is => ?_, fun is => ⟨rfl, ?_⟩⟩
  · cases closed : inv.closedFacts with
    | some f => exact ⟨f, rfl, facts_closed closed⟩
    | none =>
      rw [closed] at is
      cases is
      exact absurd stage sound.unconfirmed
  · cases closed : inv.closedFacts with
    | some f =>
      rw [closed] at is
      dsimp only at is
      split_ifs at is with spawned
      exact .inr ⟨f, rfl, Bool.not_eq_true _ ▸ spawned⟩
    | none =>
      rw [closed] at is
      cases is
      exact .inl ⟨.inr ⟨_, stage⟩, sound.unspawned stage⟩

theorem good_startFailed {w : World} (h : Good w) (i : ℕ) :
    Good (startFailed i w) ∧ Grown w (startFailed i w) := by
  unfold startFailed
  cases is : w.invocations[i]? with
  | none => exact ⟨h, Grown.refl w⟩
  | some inv =>
    dsimp only
    have sound := h.sound i inv is
    cases stage : inv.stage with
    | failing kind =>
      dsimp only
      split_ifs
      · have issued := h.issue is (goodReceipt_start sound stage)
        exact issued.change fun old was => (h.sound i old was).endStart
      · exact h.change fun old was => (h.sound i old was).endStart
    | _ => exact ⟨h, Grown.refl w⟩

theorem good_call {w : World} (h : Good w) (operation : Operation) (owner handle admission : ℕ) :
    Good (call operation owner handle admission w) ∧
      Grown w (call operation owner handle admission w) := by
  unfold call
  cases found : ownedExecution w owner handle admission with
  | none => exact ⟨h, Grown.refl w⟩
  | some entry =>
    obtain ⟨i, inv⟩ := entry
    obtain ⟨-, is, -, -, handed⟩ := ownedExecution_some found
    dsimp only
    split_ifs with closed
    · exact ⟨h.issue is (goodReceipt_call ⟨handle, handed⟩
        (fun _ => Option.isSome_iff_exists.mp closed) nofun), Grown.refl _⟩
    · exact ⟨h.issue is (goodReceipt_call ⟨handle, handed⟩ nofun nofun), Grown.refl _⟩
    · refine ⟨⟨h.sound, h.receipts, fun p there => ?_⟩, Grown.refl _⟩
      rcases List.mem_append.mp there with old | new
      · exact h.pending p old
      · rw [List.mem_singleton.mp new]
        exact ⟨inv, is, ⟨handle, handed⟩, nofun, nofun⟩

theorem good_ask {w : World} (h : Good w) (k : ℕ) (absent present : Bool) :
    Good (ask k absent present w) ∧ Grown w (ask k absent present w) := by
  unfold ask
  cases waits : w.pending[k]? with
  | none => exact ⟨h, Grown.refl w⟩
  | some p =>
    dsimp only
    cases is : w.invocations[p.index]? with
    | none => exact ⟨h, Grown.refl w⟩
    | some inv =>
      dsimp only
      have changed : Good (OwnedClosure.change p.index (confirm absent) w) ∧
          Grown w (OwnedClosure.change p.index (confirm absent) w) :=
        h.change fun old was => (h.sound _ old was).confirm absent
      obtain ⟨inv₀, is₀, good⟩ := h.pending p (List.mem_of_getElem? waits)
      cases is.symm.trans is₀
      have later := ((h.sound _ inv is).confirm absent).2
      have now : (OwnedClosure.change p.index (confirm absent) w).invocations[p.index]? =
          some (confirm absent inv) := by
        unfold OwnedClosure.change
        dsimp only
        rw [List.getElem?_modify, is]
        simp
      refine ⟨⟨changed.1.sound, changed.1.receipts, fun q there => ?_⟩, changed.2⟩
      rcases List.mem_or_eq_of_mem_set there with old | new
      · exact changed.1.pending q old
      · rw [new]
        refine ⟨_, now, (good.later later).handle, fun answer => ?_, ?_⟩
        · dsimp only at answer
          split_ifs at answer with closed running
          · exact Option.isSome_iff_exists.mp closed
          · exact (good.later later).answer answer
        · dsimp only
          split_ifs
          · exact nofun
          · exact nofun
          · exact good.other

theorem GoodPending.settled {p : Pending} {inv : OwnedInvocation} (h : GoodPending p inv)
    (threw : Bool) : (settled p threw inv = .confirmedClosed → ∃ f, inv.closedFacts = some f) ∧
      settled p threw inv ≠ .notSpawned := by
  unfold OwnedClosure.settled
  cases threw with
  | true => exact ⟨nofun, nofun⟩
  | false =>
    cases p.operation with
    | stop =>
      dsimp only
      split_ifs with closed
      · exact ⟨fun _ => Option.isSome_iff_exists.mp closed, nofun⟩
      · exact ⟨nofun, nofun⟩
    | inspect => exact ⟨h.answer, h.other⟩

theorem good_settle {w : World} (h : Good w) (k : ℕ) (threw : Bool) :
    Good (settle k threw w) ∧ Grown w (settle k threw w) := by
  unfold settle
  cases waits : w.pending[k]? with
  | none => exact ⟨h, Grown.refl w⟩
  | some p =>
    dsimp only
    cases is : w.invocations[p.index]? with
    | none => exact ⟨h, Grown.refl w⟩
    | some inv =>
      dsimp only
      obtain ⟨inv₀, is₀, good⟩ := h.pending p (List.mem_of_getElem? waits)
      cases is.symm.trans is₀
      have left : Good { w with pending := w.pending.eraseIdx k } :=
        ⟨h.sound, h.receipts, fun q there => h.pending q (List.mem_of_mem_eraseIdx there)⟩
      obtain ⟨closed, other⟩ := good.settled threw
      exact ⟨left.issue is (goodReceipt_call good.handle closed other), Grown.refl _⟩

theorem good_step {w : World} (h : Good w) (event : Event) :
    Good (step w event) ∧ Grown w (step w event) := by
  cases event with
  | createAdmission => exact ⟨⟨h.sound, h.receipts, h.pending⟩, Grown.refl _⟩
  | startOwnedRun owner admission => exact good_startOwnedRun h owner admission
  | during i event => exact h.change fun old was => (h.sound i old was).doing event
  | started i => exact good_started h i
  | startFailed i => exact good_startFailed h i
  | call operation owner handle admission => exact good_call h operation owner handle admission
  | ask k absent present => exact good_ask h k absent present
  | settle k threw => exact good_settle h k threw

theorem run_append (events : List Event) (event : Event) :
    run (events ++ [event]) = step (run events) event := List.foldl_append

theorem good_run (events : List Event) : Good (run events) := by
  induction events using List.reverseRecOn with
  | nil =>
    refine ⟨fun i inv is => ?_, fun r there => absurd there List.not_mem_nil,
      fun p there => absurd there List.not_mem_nil⟩
    change ([] : List OwnedInvocation)[i]? = some inv at is
    rw [List.getElem?_nil] at is
    cases is
  | append_singleton events event ih =>
    rw [run_append]
    exact (good_step ih event).1

theorem grown_run (events more : List Event) : Grown (run events) (run (events ++ more)) := by
  induction more using List.reverseRecOn with
  | nil =>
    rw [List.append_nil]
    exact Grown.refl _
  | append_singleton more event ih =>
    rw [← List.append_assoc, run_append]
    exact ih.trans (good_step (good_run (events ++ more)) event).2

/-- A receipt of a closure is issued only of one that was observed, and one of no spawn only where none was
attempted and no helper is uncertain, or the spawn failed and gave no pid; facts of a closure stay as they
are; and a receipt is issued for, and read with, no other admission than its handle's. -/
theorem owned_receipts (events : List Event) :
    (∀ r ∈ (run events).receipts, ∃ inv, (run events).invocations[r.index]? = some inv ∧
      r.admission = inv.admission ∧
      (∀ operation, r.operation = some operation → ∃ h, r.handle = some h ∧ inv.handle = some h) ∧
      (r.kind = .confirmedClosed → ∃ o, inv.observed = some o ∧ ChildGone o ∧ GuardianGone o ∧
        r.facts = some (physicalFacts o)) ∧
      (r.kind = .notSpawned → r.operation = none ∧
        ((inv.spawnAttempted = false ∧ inv.helperUncertain = false) ∨
          ∃ o, inv.observed = some o ∧ childNeverSpawned o = true))) ∧
    (∀ before after (i : ℕ) inv f, events = before ++ after → (run before).invocations[i]? = some inv →
      inv.closedFacts = some f →
      ∃ inv', (run events).invocations[i]? = some inv' ∧ inv'.closedFacts = some f) ∧
    (∀ operation owner handle admission,
      call operation owner handle admission (run events) ≠ run events →
      ∃ i inv, (run events).handles[handle]? = some i ∧ (run events).invocations[i]? = some inv ∧
        inv.owner = owner ∧ inv.admission = admission ∧ inv.handle = some handle) ∧
    ∀ operation value admission handle r,
      getReceipt (run events) operation value admission handle = some r →
      ∃ inv, (run events).invocations[r.index]? = some inv ∧ inv.admission = admission ∧
        inv.handle = some handle := by
  have good := good_run events
  refine ⟨fun r there => ?_, ?_, ?_, ?_⟩
  · obtain ⟨inv, is, of⟩ := good.receipts r there
    have sound := good.sound _ inv is
    refine ⟨inv, is, of.admission, of.handle, fun kind => ?_, fun kind => ?_⟩
    · obtain ⟨f, closed, facts⟩ := of.confirmed kind
      obtain ⟨o, seen, gone, same⟩ := sound.closed f closed
      exact ⟨o, seen, gone.1, gone.2, facts.trans (congrArg some same.symm)⟩
    · obtain ⟨start, ⟨-, fresh⟩ | ⟨f, closed, unspawned⟩⟩ := of.notSpawned kind
      · exact ⟨start, .inl fresh⟩
      · obtain ⟨o, seen, gone, same⟩ := sound.closed f closed
        refine ⟨start, .inr ⟨o, seen, gone.1.resolve_right fun exited => ?_⟩⟩
        rw [← same] at unspawned
        exact absurd (exited.1.symm.trans unspawned) (Ne.symm Bool.false_ne_true)
  · intro before after i inv f is there closed
    obtain ⟨inv', there', later⟩ := grown_run before after i inv there
    rw [is]
    exact ⟨inv', there', later.closed f closed⟩
  · intro operation owner handle admission changed
    cases found : ownedExecution (run events) owner handle admission with
    | none =>
      unfold call at changed
      rw [found] at changed
      exact absurd rfl changed
    | some entry => exact ⟨entry.1, entry.2, ownedExecution_some found⟩
  · intro operation value admission handle r read
    unfold getReceipt at read
    cases there : (run events).receipts[value]? with
    | none =>
      rw [there] at read
      exact absurd read nofun
    | some r' =>
      rw [there] at read
      dsimp only at read
      split_ifs at read with scope
      cases read
      obtain ⟨inv, is, of⟩ := good.receipts r (List.mem_of_getElem? there)
      obtain ⟨h, has, handed⟩ := of.handle operation scope.1
      cases has.symm.trans scope.2.2
      exact ⟨inv, is, of.admission.symm.trans scope.2.1, handed⟩

/-! ## Example -/

/-- A run that is stopped once its child and its guardian are gone. -/
def stopped : List Event :=
  [.createAdmission, .startOwnedRun 0 0, .during 0 .genuine, .during 0 (.attempt (some (some 7))),
    .during 0 (.seen (.spawn (some (some 8)))), .during 0 (.seen .guardianSpawn), .started 0, .call .stop 0 0 0,
    .during 0 (.seen .exit), .during 0 (.seen .groupGone), .during 0 (.seen .close), .during 0 (.seen .guardianExit),
    .during 0 (.seen (.guardianClose (some 0) none)), .ask 0 true false, .settle 0 false]

theorem owned_receipts_stopped :
    ∃ r inv o, (run stopped).receipts = [r] ∧ r.kind = .confirmedClosed ∧
      (run stopped).invocations[r.index]? = some inv ∧ inv.observed = some o ∧ ChildGone o ∧
      GuardianGone o := by
  obtain ⟨inv, is, -, -, closed, -⟩ := (owned_receipts stopped).1 _ (List.mem_of_getElem? (i := 0) rfl)
  obtain ⟨o, seen, child, guardian, -⟩ := closed rfl
  exact ⟨_, inv, o, rfl, rfl, is, seen, child, guardian⟩

end Artoo.Node.OwnedClosure
