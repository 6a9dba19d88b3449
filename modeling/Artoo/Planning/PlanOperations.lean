import Artoo.Planning.Goals
import Artoo.Planning.PlanStore

/-! What every operation on plans and goals does to the stored plans, whatever else commits. -/
namespace Artoo.Planning
open Artoo.Lib Artoo.Domain Tx
open Artoo.Server (TaskRow DependencyRow EventSpec)

/-- What others leave while the locks are held. -/
structure PlansLater (number : String → Option Int) (locks : List Lock) (st st' : Store) : Prop where
  state : PlanStore number st → PlanStore number st'
  tasks : TasksStay st st'
  same : ∀ k ∈ locks, k.Same st st'
  stays : ∀ p ∈ st.plans, ∃ q ∈ st'.plans, q.id = p.id ∧ q.goalId = p.goalId ∧
    (p.wasAccepted → q.wasAccepted)
  own : ∀ p : PlanRow, .goal p.goalId ∈ locks → (p ∈ st'.plans ↔ p ∈ st.plans)

def planRely (number : String → Option Int) : Rely Store Lock where
  rel := PlansLater number
  refl _ _ := ⟨id, .refl, fun _ _ => .refl, fun p member => ⟨p, member, rfl, rfl, id⟩, fun _ _ => Iff.rfl⟩
  trans _ _ _ _ first last := by
    refine ⟨fun state => last.state (first.state state), first.tasks.trans last.tasks,
      fun k held => (first.same k held).trans (last.same k held), ?_,
      fun p held => (last.own p held).trans (first.own p held)⟩
    intro p member
    obtain ⟨q, there, id, goal, was⟩ := first.stays p member
    obtain ⟨r, at_, id', goal', was'⟩ := last.stays q there
    exact ⟨r, at_, id'.trans id, goal'.trans goal, fun is => was' (was is)⟩
  weaken _ _ _ _ sub h :=
    ⟨h.state, h.tasks, fun k held => h.same k (sub held), h.stays, fun p held => h.own p (sub held)⟩

/-- Whoever writes a plan holds its goal, moves it to no other goal and takes back no acceptance. -/
def Owned (s : Standing) : Prop :=
  ∀ row ∈ s.log.filterMap planOf, .goal row.goalId ∈ s.locks ∧
    ∀ old ∈ s.db.plans, old.id = row.id → old.goalId = row.goalId ∧
      (old.wasAccepted → row.wasAccepted)

/-- What a transaction does to the stored plans. -/
inductive PlanEffect (number : String → Option Int) (s : Standing) : Prop where
  | plain : Unlinked s → s.log.filterMap planOf = [] → PlanEffect number s
  | proposed {row : PlanRow} {latest : Nat} : Unlinked s → s.log.filterMap planOf = [row] →
      row.status = .proposed → row.materializedAt = none → s.db.plans.get? row.id = none →
      s.db.goals.get? row.goalId ≠ none → NextVersion row s.db latest → PlanEffect number s
  | rejected {row : PlanRow} : Unlinked s →
      s.log.filterMap planOf = [{ row with status := .rejected }] → row ∈ s.db.plans →
      row.status = .proposed → PlanEffect number s
  | accepted {plan accepted final : PlanRow} {replaced : List PlanRow} {taskIds : List String}
      {sources : List TaskSource} {links : List DependencyRow} :
      Acceptance number plan replaced accepted final taskIds sources links s → PlanEffect number s

theorem PlanEffect.commit {number : String → Option Int} {s : Standing} (h : PlanEffect number s)
    (state : PlanStore number s.db) : PlanStore number s.view := by
  cases h with
  | plain unlinked plans => exact state.plain unlinked plans
  | proposed unlinked plans status stamp fresh goal next =>
    exact state.proposed unlinked plans status stamp fresh goal next
  | rejected unlinked plans stored status => exact state.rejected unlinked plans stored status
  | accepted acceptance => exact state.accept acceptance

/-! ## Operations on goals -/

/-- A write that touches no plan and no current plan. -/
def Calming (view : Store) (w : Write) : Prop :=
  planOf w = none ∧ sourceOf w = none ∧ linkOf w = none ∧
    ∀ row, w = .goal row → currentPlan view row.id = row.currentPlanId

structure Calm (s : Standing) : Prop where
  plans : s.log.filterMap planOf = []
  sources : s.log.filterMap sourceOf = []
  links : s.log.filterMap linkOf = []
  goals : ∀ row ∈ s.log.filterMap goalOf,
    currentPlan s.db row.id = row.currentPlanId ∧ .goal row.id ∈ s.locks

theorem Calm.start {st : Store} : Calm (⟨st, [], []⟩ : Standing) :=
  ⟨rfl, rfl, rfl, fun _ member => absurd member List.not_mem_nil⟩

theorem Calm.unlinked {s : Standing} (h : Calm s) : Unlinked s :=
  ⟨h.sources, h.links, fun row member => (h.goals row member).1⟩

theorem Calm.view {s : Standing} (h : Calm s) (goalId : String) :
    currentPlan s.view goalId = currentPlan s.db goalId := by
  unfold currentPlan Progress.view
  rw [goals_writeAll]
  exact current_putAll (fun row member => (h.goals row member).1) goalId

theorem Calm.stable {number : String → Option Int} {s : Standing} (h : Calm s) {db : Store}
    (later : (planRely number).rel s.locks s.db db) : Calm (s.at_ db) := by
  refine ⟨h.plans, h.sources, h.links, fun row member => ?_⟩
  obtain ⟨current, held⟩ := h.goals row member
  have same : db.goals.get? row.id = s.db.goals.get? row.id := later.same _ held
  refine ⟨?_, held⟩
  unfold currentPlan at current ⊢
  exact same ▸ current

theorem mem_goals {log : List Write} {row : GoalRow} :
    row ∈ log.filterMap goalOf ↔ .goal row ∈ log := by
  rw [List.mem_filterMap]
  constructor
  · rintro ⟨w, member, is⟩
    cases w <;> cases is
    exact member
  · exact fun member => ⟨_, member, rfl⟩

theorem filterMap_nil {α β : Type} {f : α → Option β} {l : List α} (none_ : ∀ a ∈ l, f a = none) :
    l.filterMap f = [] :=
  List.filterMap_eq_nil_iff.mpr none_

theorem Calm.after {s : Standing} (h : Calm s) {locks : Store → List Lock}
    {writes : Store → List Write} (calming : ∀ w ∈ writes s.view, Calming s.view w) :
    Calm (s.after locks writes) := by
  constructor
  · rw [Progress.after_log, List.filterMap_append, h.plans,
      filterMap_nil fun w member => (calming w member).1]
    rfl
  · rw [Progress.after_log, List.filterMap_append, h.sources,
      filterMap_nil fun w member => (calming w member).2.1]
    rfl
  · rw [Progress.after_log, List.filterMap_append, h.links,
      filterMap_nil fun w member => (calming w member).2.2.1]
    rfl
  · intro row member
    rw [Progress.after_log, List.filterMap_append] at member
    rcases List.mem_append.mp member with old | new
    · obtain ⟨current, held⟩ := h.goals row old
      exact ⟨current, List.mem_append_left _ held⟩
    · have written := mem_goals.mp new
      refine ⟨?_, ?_⟩
      · rw [Progress.after_db, ← h.view]
        exact (calming _ written).2.2.2 row rfl
      · apply List.mem_append_right
        apply List.mem_append_right
        exact List.mem_flatMap.mpr ⟨_, written, List.mem_singleton.mpr rfl⟩

theorem Calm.under {α : Type} {number : String → Option Int} {s : Standing} (h : Calm s)
    {p : Txn α} (calming : Writes Calming p) :
    Tx.under (planRely number) p (fun _ s' => Calm s') s :=
  Writes.under calming (fun _ _ here later => here.stable later)
    (fun _ _ _ here new => here.after new) h

theorem calming_core {α : Type} {p : Server.Txn α} : Writes Calming (core p) := by
  apply Writes.mono writes_core
  rintro _ _ ⟨w, rfl⟩
  exact ⟨rfl, rfl, rfl, fun _ is => nomatch is⟩

theorem calming_updateGoal {goalId : String} {set : GoalRow → GoalRow}
    (keeps : ∀ row, (set row).id = row.id ∧ (set row).currentPlanId = row.currentPlanId) :
    Writes Calming (updateGoal goalId set) := by
  apply writes_bind (writes_change ?_) fun _ => writes_done
  intro view row member
  refine ⟨rfl, rfl, rfl, ?_⟩
  rintro _ ⟨⟩
  obtain ⟨id, current⟩ := keeps row
  have there := Option.mem_toList.mp member
  unfold currentPlan
  rw [id, current, Table.key_of_get? there, there]
  rfl

theorem calming_createGoal {ctx : Context} {input : CreateGoalInput} {projectFound : Bool} :
    Writes Calming (createGoal ctx input projectFound) := by
  unfold createGoal insertGoal
  apply writes_bind writes_ofResult
  intro _
  apply writes_bind writes_check
  intro _
  apply writes_bind calming_core
  intro now
  apply writes_bind calming_core
  intro goalId
  apply writes_bind calming_core
  intro roomId
  apply writes_bind
  · apply writes_add
    intro view free
    refine ⟨rfl, rfl, rfl, ?_⟩
    rintro _ ⟨⟩
    rw [Option.isSome_eq_false_iff, Option.isNone_iff_eq_none] at free
    unfold currentPlan
    rw [free]
    rfl
  intro _
  apply writes_bind
  · apply calming_updateGoal
    exact fun _ => ⟨rfl, rfl⟩
  intro _
  exact writes_bind calming_core fun _ => writes_done

theorem calming_transitionGoal {ctx : Context} {id : String} {trigger : GoalTrigger} :
    Writes Calming (transitionGoal ctx id trigger) := by
  unfold transitionGoal lockGoal
  apply writes_bind calming_core
  intro now
  apply writes_bind writes_queryForUpdate
  intro found
  split
  · exact writes_done
  · unfold applyGoal
    apply writes_bind writes_check
    intro _
    apply writes_bind writes_require
    intro target
    apply writes_bind
    · apply calming_updateGoal
      exact fun _ => ⟨rfl, rfl⟩
    intro _
    exact writes_bind calming_core fun _ => writes_done

theorem calming_fenceGoal {ctx : Context} {id now : String} :
    Writes Calming (fenceGoal ctx id now) := by
  unfold fenceGoal lockGoal
  apply writes_bind writes_queryForUpdate
  intro found
  split
  · exact writes_done
  · split
    · exact writes_done
    · apply writes_bind writes_check
      intro _
      split
      · exact writes_done
      · apply writes_bind
        · apply calming_updateGoal
          exact fun _ => ⟨rfl, rfl⟩
        intro _
        exact writes_bind calming_core fun _ => writes_done

theorem calming_cancelFenced {ctx : Context} {id now : String} :
    Writes Calming (cancelFenced ctx id now) := by
  unfold cancelFenced lockGoal unsettledGoalRunIds
  apply writes_bind writes_queryForUpdate
  intro found
  apply writes_bind writes_require
  intro row
  apply writes_bind writes_query
  intro _
  apply writes_bind writes_query
  intro _
  apply writes_bind
  · apply writes_bind writes_query
    intro _
    apply writes_bind writes_query
    intro _
    exact writes_bind calming_core fun _ => writes_done
  intro _
  apply writes_bind writes_check
  intro _
  apply writes_bind writes_query
  intro children
  apply writes_bind
  · apply writes_forM
    intro task _
    unfold cancelChild
    split
    · exact writes_done
    · exact writes_bind calming_core fun _ => calming_core
  intro _
  apply writes_bind
  · apply calming_updateGoal
    exact fun _ => ⟨rfl, rfl⟩
  intro _
  exact writes_bind calming_core fun _ => writes_done

theorem Calm.owned {s : Standing} (h : Calm s) : Owned s := by
  intro row member
  rw [h.plans] at member
  cases member

/-! ## Proposal and rejection -/

variable {number : String → Option Int}

/-- A plan was written, and the goal of the plan is held. -/
structure Written (row : PlanRow) (s : Standing) : Prop where
  plans : s.log.filterMap planOf = [row]
  sources : s.log.filterMap sourceOf = []
  links : s.log.filterMap linkOf = []
  goals : s.log.filterMap goalOf = []
  held : .goal row.goalId ∈ s.locks

theorem Written.unlinked {row : PlanRow} {s : Standing} (h : Written row s) : Unlinked s := by
  refine ⟨h.sources, h.links, fun goal member => ?_⟩
  rw [h.goals] at member
  cases member

theorem Written.core {α : Type} {row : PlanRow} {I : Store → Prop} {s : Standing} (h : Written row s)
    (holds : I s.db)
    (stable : ∀ locks st st', .goal row.goalId ∈ locks → .plan row.id ∈ locks →
      PlansLater number locks st st' → I st → I st')
    (key : .plan row.id ∈ s.locks) {p : Txn α}
    (core_ : Writes (fun _ w => ∃ w', w = Write.core w') p) :
    under (planRely number) p (fun _ s' => Written row s' ∧ I s'.db) s := by
  have whole : under (planRely number) p
      (fun _ s' => Written row s' ∧ .plan row.id ∈ s'.locks ∧ I s'.db) s := by
    apply Writes.under core_
    · rintro t db ⟨written, held, here⟩ later
      exact ⟨⟨written.plans, written.sources, written.links, written.goals, written.held⟩, held,
        stable _ _ _ written.held held later here⟩
    · rintro t locks writes ⟨written, held, here⟩ new
      have none_ : ∀ {β : Type} (f : Write → Option β), (∀ w', f (.core w') = none) →
          (writes t.view).filterMap f = [] := by
        intro β f off
        apply filterMap_nil
        intro w member
        obtain ⟨w', rfl⟩ := new w member
        exact off w'
      refine ⟨⟨?_, ?_, ?_, ?_, List.mem_append_left _ written.held⟩, List.mem_append_left _ held, here⟩
      · rw [Progress.after_log, List.filterMap_append, written.plans, none_ planOf fun _ => rfl]
        rfl
      · rw [Progress.after_log, List.filterMap_append, written.sources, none_ sourceOf fun _ => rfl]
        rfl
      · rw [Progress.after_log, List.filterMap_append, written.links, none_ linkOf fun _ => rfl]
        rfl
      · rw [Progress.after_log, List.filterMap_append, written.goals, none_ goalOf fun _ => rfl]
        rfl
    · exact ⟨h, key, holds⟩
  exact under_mono whole fun _ _ all => ⟨all.1, all.2.2⟩

theorem latestVersion_is (plans : List PlanRow) :
    (∀ p ∈ plans, p.version ≤ latestVersion plans) ∧
      (latestVersion plans = 0 ∨ ∃ p ∈ plans, p.version = latestVersion plans) := by
  have all : ∀ (plans : List PlanRow) (m : Nat),
      m ≤ plans.foldl (fun m p => max m p.version) m ∧
        (∀ p ∈ plans, p.version ≤ plans.foldl (fun m p => max m p.version) m) ∧
        (plans.foldl (fun m p => max m p.version) m = m ∨
          ∃ p ∈ plans, p.version = plans.foldl (fun m p => max m p.version) m) := by
    intro plans
    induction plans with
    | nil =>
      intro m
      exact ⟨Nat.le_refl m, fun _ member => absurd member List.not_mem_nil, Or.inl rfl⟩
    | cons p plans ih =>
      intro m
      obtain ⟨low, bound, reached⟩ := ih (max m p.version)
      rw [List.foldl_cons]
      refine ⟨by omega, ?_, ?_⟩
      · intro q member
        rcases List.mem_cons.mp member with rfl | later
        · omega
        · exact bound q later
      · rcases reached with is | ⟨q, member, is⟩
        · rcases Nat.le_total m p.version with le | le
          · exact Or.inr ⟨p, List.mem_cons_self, by omega⟩
          · exact Or.inl (by omega)
        · exact Or.inr ⟨q, List.mem_cons_of_mem _ member, is⟩
  exact (all plans 0).2

theorem NextVersion.stable {row : PlanRow} {st st' : Store} {latest : Nat}
    (h : NextVersion row st latest)
    (own : ∀ p : PlanRow, p.goalId = row.goalId → (p ∈ st'.plans ↔ p ∈ st.plans)) :
    NextVersion row st' latest := by
  refine ⟨h.is, fun p member goal => h.bound p ((own p goal).mp member) goal, ?_⟩
  rcases h.reached with zero | ⟨p, member, goal, is⟩
  · exact Or.inl zero
  · exact Or.inr ⟨p, (own p goal).mpr member, goal, is⟩

/-- What a proposal still knows of the committed plans at its end. -/
def Appends (row : PlanRow) (latest : Nat) (st : Store) : Prop :=
  st.plans.get? row.id = none ∧ st.goals.get? row.goalId ≠ none ∧ NextVersion row st latest

theorem Appends.stable {row : PlanRow} {latest : Nat} (locks : List Lock) (st st' : Store)
    (goal : .goal row.goalId ∈ locks) (plan : .plan row.id ∈ locks)
    (later : PlansLater number locks st st') (h : Appends row latest st) : Appends row latest st' := by
  obtain ⟨fresh, there, next⟩ := h
  have samePlan : st'.plans.get? row.id = st.plans.get? row.id := later.same _ plan
  have sameGoal : st'.goals.get? row.goalId = st.goals.get? row.goalId := later.same _ goal
  refine ⟨samePlan.trans fresh, sameGoal ▸ there, next.stable fun p is => later.own p ?_⟩
  exact is ▸ goal

/-- The row of a proposal. -/
def proposedRow (ctx : Context) (goalId planId now : String) (input : ProposePlanInput)
    (specs : List TaskSpec) (version : Nat) : PlanRow :=
  { id := planId, goalId, version, authorType := input.authorType.getD .user,
    authorId := input.authorId.getD ctx.actorUserId, rationale := input.rationale.getD "",
    status := .proposed, taskSpecs := specs, createdAt := now }

theorem under_proposePlan {ctx : Context} {goalId : String} {input : ProposePlanInput} {st : Store} :
    under (planRely number) (proposePlan ctx goalId input)
      (fun _ s' => PlanEffect number s' ∧ Owned s') ⟨st, [], []⟩ := by
  unfold proposePlan proposePlanInTx
  rw [under_ofResult]
  intro specs _
  rw [under_nowIso]
  intro now
  rw [under_generate]
  intro planId
  apply under_requireGoalInOrg
  intro st₁ _ goal found
  rw [under_query]
  intro st₂ later₂
  have there : st₂.goals.get? goalId ≠ none := by
    have same : st₂.goals.get? goalId = st₁.goals.get? goalId :=
      later₂.same (.goal goalId) (List.mem_append_right _ List.mem_cons_self)
    rw [same]
    exact found ▸ Option.some_ne_none _
  dsimp only
  rw [under_check]
  intro _
  unfold insertPlan
  rw [under_add]
  intro st₃ later₃ free
  have held : Lock.goal goalId ∈ ([] : List Lock) ++ [.goal goalId] :=
    List.mem_append_right _ List.mem_cons_self
  obtain ⟨fresh, _⟩ := Bool.or_eq_false_iff.mp free
  rw [Option.isSome_eq_false_iff, Option.isNone_iff_eq_none] at fresh
  have same : st₃.goals.get? goalId = st₂.goals.get? goalId := later₃.same _ held
  obtain ⟨bound, reached⟩ := latestVersion_is (st₂.plans.select (·.goalId == goalId))
  have ofGoal : ∀ p ∈ st₃.plans, p.goalId = goalId → p ∈ st₂.plans.select (·.goalId == goalId) := by
    intro p member goal
    have before : p ∈ st₂.plans := (later₃.own p (goal ▸ held)).mp member
    exact Table.mem_select.mpr ⟨before, beq_iff_eq.mpr goal⟩
  have appends : Appends (proposedRow ctx goalId planId now input specs
      (latestVersion (st₂.plans.select (·.goalId == goalId)) + 1))
      (latestVersion (st₂.plans.select (·.goalId == goalId))) st₃ := by
    refine ⟨fresh, same ▸ there, rfl, ?_, ?_⟩
    · exact fun p member goal => bound p (ofGoal p member goal)
    · rcases reached with zero | ⟨p, member, is⟩
      · exact Or.inl zero
      · obtain ⟨before, goal⟩ := Table.mem_select.mp member
        have goal := beq_iff_eq.mp goal
        exact Or.inr ⟨p, (later₃.own p (goal ▸ held)).mpr before, goal, is⟩
  have written : Written (proposedRow ctx goalId planId now input specs
      (latestVersion (st₂.plans.select (·.goalId == goalId)) + 1))
      ⟨st₃, [.goal goalId] ++ [.plan planId, .planVersion goalId
        (latestVersion (st₂.plans.select (·.goalId == goalId)) + 1)],
        [.plan (proposedRow ctx goalId planId now input specs
          (latestVersion (st₂.plans.select (·.goalId == goalId)) + 1))]⟩ :=
    ⟨rfl, rfl, rfl, rfl, List.mem_append_left _ held⟩
  apply under_mono (Written.core written appends Appends.stable
    (List.mem_append_right _ List.mem_cons_self) ?_)
  · rintro _ s₄ ⟨written, fresh, there, next⟩
    refine ⟨.proposed written.unlinked written.plans rfl rfl fresh there next, ?_⟩
    intro row member
    rw [written.plans] at member
    cases List.mem_singleton.mp member
    exact ⟨written.held, fun old member same => absurd same (Table.get?_eq_none.mp fresh old member)⟩
  · apply writes_bind writes_core
    intro _
    apply writes_bind writes_query
    exact fun _ => writes_require

theorem PlanEffect.nothing {st : Store} {locks : List Lock} :
    PlanEffect number ⟨st, locks, []⟩ ∧ Owned ⟨st, locks, []⟩ :=
  ⟨.plain ⟨rfl, rfl, fun _ member => absurd member List.not_mem_nil⟩ rfl,
    fun _ member => absurd member List.not_mem_nil⟩

/-- The goal of a plan that was read before its goal was locked. -/
theorem PlansLater.goal {locks : List Lock} {st st' : Store} (h : PlansLater number locks st st')
    {planId : String} {p q : PlanRow} (before : st.plans.get? planId = some p)
    (after : st'.plans.get? planId = some q) : q.goalId = p.goalId := by
  obtain ⟨r, there, id, goal, _⟩ := h.stays p (Table.mem_of_get? before)
  have same : r = q := Table.key_inj there (Table.mem_of_get? after)
    (id.trans ((Table.key_of_get? before).trans (Table.key_of_get? after).symm))
  exact same ▸ goal

theorem under_rejectPlan {ctx : Context} {planId : String} {st : Store} :
    under (planRely number) (rejectPlan ctx planId)
      (fun _ s' => PlanEffect number s' ∧ Owned s') ⟨st, [], []⟩ := by
  unfold rejectPlan
  rw [under_query]
  intro st₁ _
  split
  · exact fun _ _ => PlanEffect.nothing
  rename_i lookup looked
  apply under_requireGoalInOrg
  intro st₂ later₂ goal _
  rw [under_query]
  intro st₃ later₃
  split
  · exact fun _ _ => PlanEffect.nothing
  rename_i row found
  have found : st₃.plans.get? planId = some row := found
  have whole := (planRely number).trans [] _ _ _ later₂
    ((planRely number).weaken [] _ _ _ (List.nil_subset _) later₃)
  have goalId : row.goalId = lookup.goalId := PlansLater.goal whole looked found
  have held : Lock.goal row.goalId ∈ ([] : List Lock) ++ [.goal lookup.goalId] := by
    rw [goalId]
    exact List.mem_append_right _ List.mem_cons_self
  rw [under_check]
  intro proposed
  unfold planTransition
  rw [under_require]
  intro _ _
  apply under_updatePlan
  intro st₄ later₄
  have there : row ∈ st₄.plans := (later₄.own row held).mpr (Table.mem_of_get? found)
  have key : row.id = planId := Table.key_of_get? found
  refine ⟨row, ?_, ?_⟩
  · exact key ▸ Table.get?_of_mem there
  have status : row.status = .proposed := by simpa using proposed
  have written : Written { row with status := .rejected } ⟨st₄, [.goal lookup.goalId] ++
      [.plan row.id, .planVersion row.goalId row.version],
      [.plan { row with status := .rejected }]⟩ :=
    ⟨rfl, rfl, rfl, rfl, List.mem_append_left _ held⟩
  apply under_mono (Written.core (I := fun st => row ∈ st.plans) written there ?_
    (List.mem_append_right _ List.mem_cons_self) ?_)
  · rintro _ s₅ ⟨written, stored⟩
    refine ⟨.rejected written.unlinked written.plans stored status, ?_⟩
    intro row' member
    rw [written.plans] at member
    cases List.mem_singleton.mp member
    refine ⟨written.held, fun old member same => ?_⟩
    cases Table.key_inj member stored same
    exact ⟨rfl, fun was => absurd was (not_wasAccepted status)⟩
  · exact fun locks st st' goal _ later stored => (later.own row goal).mpr stored
  · apply writes_bind writes_core
    intro _
    exact writes_bind writes_query fun _ => writes_done

end Artoo.Planning
