import Artoo.Planning.PlanAcceptance

/-! The stored plans over whole runs of concurrent operations on plans and goals. -/
namespace Artoo.Planning
open Artoo.Lib Artoo.Domain Tx
open Artoo.Server (TaskRow DependencyRow EventSpec)

inductive PlanCall where
  | createGoal (input : CreateGoalInput) (projectFound : Bool)
  | transitionGoal (goalId : String) (trigger : GoalTrigger)
  | fenceGoal (goalId now : String)
  | cancelFenced (goalId now : String)
  | proposePlan (goalId : String) (input : ProposePlanInput)
  | rejectPlan (planId : String)
  | acceptPlan (planId : String)
  | materializePlan (planId : String)

/-- A call by a user, on the runtime of the server. -/
structure PlanRequest where
  actorUserId : String
  call : PlanCall

def PlanCall.program (ctx : Context) : PlanCall → Txn Unit
  | .createGoal input projectFound => Planning.createGoal ctx input projectFound
  | .transitionGoal goalId trigger => Planning.transitionGoal ctx goalId trigger
  | .fenceGoal goalId now => do
    let _ ← Planning.fenceGoal ctx goalId now
  | .cancelFenced goalId now => Planning.cancelFenced ctx goalId now
  | .proposePlan goalId input => do
    let _ ← Planning.proposePlan ctx goalId input
  | .rejectPlan planId => do
    let _ ← Planning.rejectPlan ctx planId
  | .acceptPlan planId => do
    let _ ← Planning.acceptPlan ctx planId
  | .materializePlan planId => do
    let _ ← Planning.materializePlan ctx planId

def PlanRequest.program (host : Context) (r : PlanRequest) : Txn Unit :=
  r.call.program { host with actorUserId := r.actorUserId }

abbrev PlanWorld := World PlanRequest Store Write Lock String Failure Unit

/-- Every interleaving. -/
abbrev PlanStep (host : Context) := World.Steps (PlanRequest.program host)
  fun (_ : PlanWorld) _ _ => True

variable {number : String → Option Int}

/-! ## What a commit leaves to the others -/

theorem mem_of_putAll {α κ : Type} [DecidableEq κ] {key : α → κ} {rows : List α} {t : Table key}
    {row : α} (member : row ∈ rows.foldl Table.put t) : row ∈ rows ∨ row ∈ t := by
  induction rows generalizing t with
  | nil => exact Or.inr member
  | cons first rows ih =>
    rcases ih member with later | before
    · exact Or.inl (List.mem_cons_of_mem _ later)
    · rcases Table.mem_put.mp before with rfl | ⟨old, _⟩
      · exact Or.inl List.mem_cons_self
      · exact Or.inr old

theorem mem_putAll_other {α κ : Type} [DecidableEq κ] {key : α → κ} {rows : List α} {t : Table key}
    {row : α} (member : row ∈ t) (other : ∀ r ∈ rows, key r ≠ key row) :
    row ∈ rows.foldl Table.put t := by
  induction rows generalizing t with
  | nil => exact member
  | cons first rows ih =>
    apply ih
    · exact Table.mem_put.mpr (Or.inr ⟨member, (other first List.mem_cons_self).symm⟩)
    · exact fun r later => other r (List.mem_cons_of_mem _ later)

theorem Owned.later {s : Standing} (h : Owned s) (state : PlanStore number s.view)
    (guarded : ∀ x ∈ s.log, ∀ k ∈ Tables.guards Store x, k ∈ s.locks) {others : List Lock}
    (free : ∀ k ∈ others, k ∉ s.locks) : PlansLater number others s.db s.view := by
  have plans : s.view.plans = (s.log.filterMap planOf).foldl Table.put s.db.plans := plans_writeAll
  constructor
  · exact fun _ => state
  · exact tasksStay_writeAll
  · intro k held
    apply Lock.same_writeAll
    exact fun x written inside => free k held (guarded x written k inside)
  · intro p member
    have present : s.view.plans.get? p.id ≠ none := by
      rw [plans]
      apply get?_putAll_ne_none
      rw [Table.get?_of_mem member]
      exact Option.some_ne_none _
    obtain ⟨q, found⟩ := Option.ne_none_iff_exists'.mp present
    have same : q.id = p.id := Table.key_of_get? found
    have there := Table.mem_of_get? found
    refine ⟨q, there, same, ?_⟩
    rw [plans] at there
    rcases mem_of_putAll there with written | old
    · obtain ⟨goal, was⟩ := (h q written).2 p member same.symm
      exact ⟨goal.symm, was⟩
    · cases Table.key_inj old member same
      exact ⟨rfl, id⟩
  · intro p held
    rw [plans]
    constructor
    · intro member
      rcases mem_of_putAll member with written | old
      · exact absurd (h p written).1 (free _ held)
      · exact old
    · intro member
      apply mem_putAll_other member
      intro row written same
      obtain ⟨goal, _⟩ := (h row written).2 p member same.symm
      exact free _ held (goal ▸ (h row written).1)

theorem Acceptance.owned {plan accepted final : PlanRow} {replaced : List PlanRow}
    {taskIds : List String} {sources : List TaskSource} {links : List DependencyRow} {s : Standing}
    (h : Acceptance number plan replaced accepted final taskIds sources links s)
    (held : .goal plan.goalId ∈ s.locks) : Owned s := by
  have own : ∀ row : PlanRow, row.id = plan.id → row.goalId = plan.goalId →
      .goal row.goalId ∈ s.locks ∧ ∀ old ∈ s.db.plans, old.id = row.id → old.goalId = row.goalId ∧
        (old.wasAccepted → row.wasAccepted) := by
    intro row id goal
    refine ⟨goal ▸ held, fun old member same => ?_⟩
    cases Table.key_inj member h.stored (same.trans id)
    exact ⟨goal.symm, fun was => absurd was (not_wasAccepted h.proposed)⟩
  intro row member
  rw [h.plans] at member
  rcases List.mem_append.mp member with out | last
  · obtain ⟨p, inside, rfl⟩ := List.mem_map.mp out
    obtain ⟨there, goal, _⟩ := (h.replaces p).mp inside
    refine ⟨goal ▸ held, fun old member same => ?_⟩
    cases Table.key_inj member there same
    exact ⟨rfl, fun _ => Or.inr rfl⟩
  · rcases List.mem_cons.mp last with rfl | last
    · exact own _ h.acceptedId h.acceptedGoal
    · rw [List.mem_singleton.mp last]
      exact own _ h.finalId h.finalGoal

theorem Again.effect {planId : String} {s : Standing} (h : Again planId s) :
    PlanEffect number s ∧ Owned s := by
  obtain ⟨db, locks, log⟩ := s
  cases h.1
  exact PlanEffect.nothing

theorem AcceptsOnce.effect {planId : String} {s : Standing} (h : AcceptsOnce number planId s) :
    PlanEffect number s ∧ Owned s := by
  rcases h with again | ⟨plan, _, _, _, _, _, _, _, acceptance, held⟩
  · exact again.effect
  · exact ⟨.accepted acceptance, acceptance.owned held⟩

theorem Calm.effect {s : Standing} (h : Calm s) : PlanEffect number s ∧ Owned s :=
  ⟨.plain h.unlinked h.plans, h.owned⟩

/-! ## Runs -/

def PlanCall.Spec (number : String → Option Int) (call : PlanCall) (s : Standing) : Prop :=
  PlanEffect number s ∧ Owned s ∧ ∀ planId, call = .acceptPlan planId → AcceptsOnce number planId s

theorem PlanCall.spec_other {call : PlanCall} {s : Standing}
    (other : ∀ planId, call ≠ .acceptPlan planId) (both : PlanEffect number s ∧ Owned s) :
    call.Spec number s :=
  ⟨both.1, both.2, fun planId is => absurd is (other planId)⟩

theorem under_planCall {ctx : Context} {call : PlanCall} {st : Store}
    (runtime : ctx.runtime.number = number) (state : PlanStore number st) :
    under (planRely number) (call.program ctx) (fun _ s' => call.Spec number s') ⟨st, [], []⟩ := by
  cases call with
  | createGoal input projectFound =>
    apply under_mono (Calm.start.under calming_createGoal)
    exact fun _ _ calm => PlanCall.spec_other (fun _ is => nomatch is) calm.effect
  | transitionGoal goalId trigger =>
    apply under_mono (Calm.start.under calming_transitionGoal)
    exact fun _ _ calm => PlanCall.spec_other (fun _ is => nomatch is) calm.effect
  | fenceGoal goalId now =>
    apply under_map.mpr
    apply under_mono (Calm.start.under calming_fenceGoal)
    exact fun _ _ calm => PlanCall.spec_other (fun _ is => nomatch is) calm.effect
  | cancelFenced goalId now =>
    apply under_mono (Calm.start.under calming_cancelFenced)
    exact fun _ _ calm => PlanCall.spec_other (fun _ is => nomatch is) calm.effect
  | proposePlan goalId input =>
    apply under_map.mpr
    apply under_mono under_proposePlan
    exact fun _ _ both => PlanCall.spec_other (fun _ is => nomatch is) both
  | rejectPlan planId =>
    apply under_map.mpr
    apply under_mono under_rejectPlan
    exact fun _ _ both => PlanCall.spec_other (fun _ is => nomatch is) both
  | acceptPlan planId =>
    apply under_map.mpr
    apply under_mono (accepts_acceptPlan runtime state)
    rintro _ s' once
    refine ⟨once.effect.1, once.effect.2, ?_⟩
    rintro _ ⟨⟩
    exact once
  | materializePlan planId =>
    apply under_map.mpr
    have again : under (planRely number) (Planning.materializePlan ctx planId)
        (fun _ s' => Again planId s') ⟨st, [], []⟩ := fun now => again_materializeInTx state
    apply under_mono again
    exact fun _ _ again => PlanCall.spec_other (fun _ is => nomatch is) again.effect

theorem plan_rules {host : Context} : World.Rules (PlanRequest.program host)
    (fun (_ : PlanWorld) _ _ => True) (planRely host.runtime.number)
    (fun r _ _ s => r.call.Spec host.runtime.number s) (PlanStore host.runtime.number) := by
  constructor
  · exact fun r st state => under_planCall rfl state
  · rintro w s _ _ _ _ state guarded ⟨effect, owned, _⟩
    have after := effect.commit state
    exact ⟨after, fun others free => owned.later after guarded free⟩

/-- No goals yet, and so no plans. -/
structure NoGoals (st : Store) : Prop where
  goals : st.goals = .empty
  plans : st.plans = .empty
  sources : st.sources = .empty
  ends : EndsExist st

theorem NoGoals.planStore {st : Store} (h : NoGoals st) : PlanStore number st := by
  have plans : ∀ p, p ∉ st.plans := by
    intro p
    rw [h.plans]
    exact Table.not_mem_empty
  have sources : ∀ x, x ∉ st.sources := by
    intro x
    rw [h.sources]
    exact Table.not_mem_empty
  refine ⟨fun p is => absurd is (plans p), fun p is => absurd is (plans p), ?_,
    fun p is => absurd is (plans p), ?_, fun p is => absurd is (plans p),
    fun p is => absurd is (plans p), fun x is => absurd is (sources x), h.ends⟩
  · intro goalId planId is
    unfold currentPlan at is
    rw [h.goals] at is
    cases is
  · intro goalId
    refine ⟨0, fun p is => absurd is (plans p), ?_, fun p is => absurd is (plans p)⟩
    omega

theorem Again.view {planId : String} {s : Standing} (h : Again planId s) : s.view = s.db := by
  unfold Progress.view
  rw [h.1]
  rfl

/-- After its commit, the plan of an acceptance is accepted. -/
theorem AcceptsOnce.accepted {planId : String} {s : Standing} (h : AcceptsOnce number planId s) :
    ∃ p ∈ s.view.plans, p.id = planId ∧ p.wasAccepted := by
  rcases h with again | ⟨plan, id, _, _, final, _, _, _, acceptance, _⟩
  · rw [again.view]
    obtain ⟨_, p, member, id, status⟩ := again
    exact ⟨p, member, id, Or.inl status⟩
  · refine ⟨final, (acceptance.mem_plans final).mpr (Or.inl rfl), ?_, Or.inl acceptance.finalStatus⟩
    exact acceptance.finalId.trans id

theorem AcceptsOnce.again {planId : String} {s : Standing} (h : AcceptsOnce number planId s)
    {p : PlanRow} (member : p ∈ s.db.plans) (id : p.id = planId) (was : p.wasAccepted) :
    s.view = s.db := by
  rcases h with again | ⟨plan, same, _, _, _, _, _, _, acceptance, _⟩
  · exact again.view
  · have is : p = plan := Table.key_inj member acceptance.stored (id.trans same.symm)
    exact absurd (is ▸ was) (not_wasAccepted acceptance.proposed)

/-- The commit of an acceptance of the plan. -/
def CommitsAccept (host : Context) (planId : String) (w w' : PlanWorld) : Prop :=
  ∃ id, w.step (PlanRequest.program host) id .commit = some w' ∧
    ∃ s ∈ w.sessions, s.id = id ∧ s.label.call = .acceptPlan planId

abbrev PlanHolds (host : Context) (w : PlanWorld) : Prop :=
  w.Holds (planRely host.runtime.number) (fun r _ _ s => r.call.Spec host.runtime.number s)
    (PlanStore host.runtime.number)

theorem CommitsAccept.once {host : Context} {planId : String} {w w' : PlanWorld}
    (h : CommitsAccept host planId w w') (holds : PlanHolds host w) :
    ∃ s : Standing, s.db = w.db ∧ s.view = w'.db ∧ AcceptsOnce host.runtime.number planId s := by
  obtain ⟨id, step, s, there, key, call⟩ := h
  cases World.step_advance step with
  | @commit t a found rest =>
    have same : t = s := Table.key_inj (Table.mem_of_get? found) there
      ((Table.key_of_get? found).trans key.symm)
    subst same
    have under := holds.under t there
    rw [rest] at under
    have spec := under w.db ((planRely _).refl _ _)
    exact ⟨t.at_ w.db, rfl, rfl, spec.2.2 planId call⟩

/-- The plans of every goal are in order after any run, a step that is no commit of an operation that
got to its end changes nothing, and a plan is accepted once. -/
theorem plan_store_in_order {host : Context} {ls : List (Nat × Act PlanRequest String)} {st : Store}
    {w : PlanWorld} (empty : NoGoals st) (path : Path (PlanStep host) ls (World.quiet st) w) :
    PlanStore host.runtime.number w.db ∧
      (∀ id act w', PlanStep host (id, act) w w' → w'.db ≠ w.db →
        act = .commit ∧ ∃ s ∈ w.sessions, s.id = id ∧ s.rest = .done ()) ∧
      ∀ planId w₁, CommitsAccept host planId w w₁ → ∀ more w₂, Path (PlanStep host) more w₁ w₂ →
        ∀ w₃, CommitsAccept host planId w₂ w₃ → w₃.db = w₂.db := by
  have holds : PlanHolds host w :=
    (World.holds_path plan_rules path (World.holds_quiet empty.planStore)).1
  refine ⟨holds.invariant, ?_, ?_⟩
  · rintro id act w' ⟨step, _⟩ changes
    cases World.step_advance step with
    | commit found rest => exact ⟨rfl, _, Table.mem_of_get? found, Table.key_of_get? found, rest⟩
    | _ => exact absurd rfl changes
  · intro planId w₁ first more w₂ later w₃ second
    have ⟨id, step, _⟩ := first
    obtain ⟨holds₁, _⟩ := World.holds_step plan_rules holds ⟨step, trivial⟩
    obtain ⟨holds₂, stays⟩ := World.holds_path plan_rules later holds₁
    obtain ⟨s, _, view, once⟩ := first.once holds
    obtain ⟨p, member, key, was⟩ := once.accepted
    rw [view] at member
    obtain ⟨q, there, same, _, kept⟩ := stays.stays p member
    obtain ⟨t, db, view', again⟩ := second.once holds₂
    rw [← view', ← db]
    exact again.again (db ▸ there) (same.trans key) (kept was)

/-! A goal whose plan of two tasks is accepted twice. -/
namespace Sample

def planner : Context where
  actorUserId := "u1"
  platform := ⟨fun _ => "", id, some, some⟩
  runtime := ⟨fun text => if text = "0" then some 0 else none, fun _ => none, fun a b => decide (a ≤ b)⟩

def twoSteps : ProposePlanInput where
  taskSpecs :=
    [{ title := "first", acceptanceCriteria := ["done"] },
      { title := "second", acceptanceCriteria := ["done"],
        dependencies := some [{ ref := "0", type := "blocks" }] }]

/-- A whole transaction: how many values it draws, and then how many statements it runs, in turn;
the values are numbered from `n`. -/
def turns (id : Nat) : Nat → List (Nat × Nat) → List (Nat × Act PlanRequest String)
  | _, [] => [(id, .commit)]
  | n, (draws, statements) :: rest =>
    (List.range draws).map (fun i => (id, .draw (toString (n + i)))) ++
      List.replicate statements (id, .statement) ++ turns id (n + draws) rest

def transaction (id n : Nat) (call : PlanCall) (counts : List (Nat × Nat)) :
    List (Nat × Act PlanRequest String) :=
  (id, .begin ⟨"u1", call⟩) :: turns id n counts

def acceptedTwice : List (Nat × Act PlanRequest String) :=
  transaction 1 0 (.createGoal { projectId := "p1", title := "goal" } true) [(3, 2), (2, 1)] ++
  transaction 2 5 (.proposePlan "1" twoSteps) [(2, 3), (2, 2)] ++
  transaction 3 9 (.acceptPlan "6") [(1, 6), (2, 4), (3, 2), (2, 1), (2, 1), (1, 2), (2, 1), (2, 1),
    (1, 2), (2, 3)] ++
  transaction 4 27 (.acceptPlan "6") [(1, 7)]

theorem noGoals_empty : NoGoals Store.empty :=
  ⟨rfl, rfl, rfl, fun _ member => absurd member Table.not_mem_empty⟩

end Sample

open Sample

theorem plan_store_in_order_twice :
    ∃ w, World.exec (PlanRequest.program planner) (fun _ _ _ => True) acceptedTwice
        (World.quiet Store.empty) = some w ∧
      (w.db.plans.rows.map fun p => (p.version, p.status)) = [(1, .accepted)] ∧
      (w.db.core.dependencies.rows.map PlanEdge.of) = [⟨"12", "13", .blocks⟩] ∧
      PlanStore planner.runtime.number w.db := by
  have runs : ((World.exec (PlanRequest.program planner) (fun _ _ _ => True) acceptedTwice
      (World.quiet Store.empty)).map fun w => (w.db.plans.rows.map fun p => (p.version, p.status),
        w.db.core.dependencies.rows.map PlanEdge.of)) =
      some ([(1, .accepted)], [⟨"12", "13", .blocks⟩]) := by
    decide +kernel
  obtain ⟨w, found, is⟩ := Option.map_eq_some_iff.mp runs
  obtain ⟨plans, edges⟩ := Prod.mk.inj is
  exact ⟨w, found, plans, edges, (plan_store_in_order noGoals_empty (World.exec_path found)).1⟩

end Artoo.Planning
