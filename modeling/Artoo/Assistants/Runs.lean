import Artoo.Assistants.Stages

/-! Every stage keeps its specification, and with it any run of the processes. -/
namespace Artoo.Assistants
open Artoo.Lib Tx Artoo.Domain
open Artoo.Server (TurnStatus)

variable {α : Type} {db : Database} {s : Standing} {d : Deployment}

theorem other_ne : Kind.other ≠ .answer := nofun

/-! ## The stages -/

/-- What the transaction of a stage proves of its end, before the fences. -/
abbrev Meets (d : Deployment) (stage : Stage) : Prop :=
  ∀ db, Sound db → Tx.under assistantRely (stage.program d)
    (fun next s => Ends stage.kind s ∧ stage.Result db next s) ⟨db, [], []⟩

theorem calm_start {kind : Kind} (sound : Sound db) : Calm kind ⟨db, [], []⟩ := .start sound

theorem meets_enqueue {actor roomId : String} {request : SendAssistantTurnRequest} :
    Meets d (.enqueue actor roomId request) := by
  intro db sound
  change Tx.under assistantRely (enqueueAssistantTurn actor roomId request >>= _) _ _
  rw [under_map]
  apply under_mono (under_enqueueAssistantTurn (calm_start sound) rfl other_ne)
  exact fun reply s' both => ⟨both.1, reply, rfl, both.2⟩

theorem meets_retry {id : String} : Meets d (.retry id) := by
  intro db sound
  change Tx.under assistantRely (retryAssistantTurn id >>= _) _ _
  rw [under_map]
  apply under_mono (under_retryAssistantTurn (calm_start sound) rfl)
  exact fun _ s' ends => ⟨ends, fun _ => trivial⟩

theorem meets_cancelTurn {id : String} {caller : Caller} : Meets d (.cancelTurn id caller) := by
  intro db sound
  change Tx.under assistantRely (cancelTurnStage id caller) _ _
  have calm : Calm .other ⟨db, [], []⟩ := calm_start sound
  unfold cancelTurnStage requireTurn
  rw [bind_assoc, under_query]
  intro db₁ step
  have calm₁ := calm.later step
  rw [under_require]
  intro turn found
  rw [calm₁.view_turns] at found
  have ends : ∀ next db₂, assistantRely.rel [] db₁ db₂ →
      ((next = caller.returns turn ∧ turn.status = .cancelled) ∨
        (∃ runId, next = .cancelRun turn runId caller) ∨ next = .cancelPending turn caller) →
      Ends .other ⟨db₂, [], []⟩ ∧ (Stage.cancelTurn id caller).Result db next ⟨db₂, [], []⟩ :=
    fun next db₂ step₂ shape =>
      ⟨(calm₁.ends other_ne).later step₂, db₁, turn, calm₁.sound, step.1, step₂.1, found, shape⟩
  split
  · rename_i cancelled
    exact fun db₂ step₂ => ends _ db₂ step₂ (Or.inl ⟨rfl, cancelled⟩)
  · rw [under_check]
    intro _
    split
    · rename_i runId _
      exact fun db₂ step₂ => ends _ db₂ step₂ (Or.inr (Or.inl ⟨runId, rfl⟩))
    · exact fun db₂ step₂ => ends _ db₂ step₂ (Or.inr (Or.inr rfl))

theorem meets_cancelRun {turn : TurnRow} {runId : String} {caller : Caller} :
    Meets d (.cancelRun turn runId caller) := by
  intro db sound
  change Tx.under assistantRely (cancelRun runId >>= _) _ _
  rw [under_map]
  apply under_mono ((calm_start sound).under mild_cancelRun)
  exact fun _ s' calm => ⟨calm.ends other_ne, rfl⟩

theorem meets_pump : Meets d .pump := by
  intro db sound
  change Tx.under assistantRely (Tx.query pendingTurns >>= _) _ _
  have calm : Calm .other ⟨db, [], []⟩ := calm_start sound
  rw [under_query]
  intro db₁ step db₂ step₂
  refine ⟨((calm.later step).later step₂).ends other_ne, db₁, step₂.1, ?_⟩
  rfl

theorem meets_item {left : List TurnRow} {seen : List Conversation} : Meets d (.item left seen) := by
  intro db sound
  change Tx.under assistantRely (itemStage left seen) _ _
  have calm : Calm .other ⟨db, [], []⟩ := calm_start sound
  cases left with
  | nil => exact fun db₁ step => ⟨(calm.later step).ends other_ne, Or.inl rfl⟩
  | cons snapshot rest =>
    unfold itemStage requireTurn
    dsimp only
    rw [bind_assoc, under_query]
    intro db₁ step
    have calm₁ := calm.later step
    rw [under_require]
    intro turn found db₂ step₂
    rw [calm₁.view_turns] at found
    exact ⟨(calm₁.later step₂).ends other_ne, Or.inr ⟨snapshot, rest, turn, db₁, rfl,
      calm₁.sound, step.1, step₂.1, found, rfl⟩⟩

theorem runOutcome_status {run : Option RunRow} : (runOutcome run).1 ≠ .running := by
  unfold runOutcome
  cases run with
  | none => simp
  | some run =>
    dsimp only
    split <;> simp

theorem meets_settle {turn : TurnRow} {runId : String} {left : List TurnRow}
    {seen : List Conversation} : Meets d (.settle turn runId left seen) := by
  intro db sound
  change Tx.under assistantRely (settleStage turn runId >>= _) _ _
  have calm : Calm .other ⟨db, [], []⟩ := calm_start sound
  rw [under_map]
  have settles : Tx.under assistantRely (settleStage turn runId) (fun _ s' => Ends .other s')
      ⟨db, [], []⟩ := by
    unfold settleStage
    rw [under_query]
    intro db₁ step
    have calm₁ := calm.later step
    split
    · exact under_changeTurn calm₁ other_ne runOutcome_status
    · exact under_return (calm₁.ends other_ne)
  exact under_mono settles fun _ s' ends => ⟨ends, rfl⟩

theorem meets_assign {turn : TurnRow} {left : List TurnRow} {seen : List Conversation} :
    Meets d (.assign turn left seen) := by
  intro db sound
  change Tx.under assistantRely (assignTask turn.taskId (some turn.id) >>= _) _ _
  rw [under_map]
  apply under_mono (under_assignTask (calm_start sound) rfl)
  exact fun _ s' ends => ⟨ends, rfl⟩

theorem meets_failed {turn : TurnRow} {e : Failure} {left : List TurnRow}
    {seen : List Conversation} : Meets d (.failed turn e left seen) := by
  intro db sound
  change Tx.under assistantRely (failedStage turn e >>= _) _ _
  have calm : Calm .other ⟨db, [], []⟩ := calm_start sound
  rw [under_map]
  have fails : Tx.under assistantRely (failedStage turn e) (fun _ s' => Ends .other s')
      ⟨db, [], []⟩ := by
    unfold failedStage requireTurn
    rw [bind_assoc, under_query]
    intro db₁ step
    have calm₁ := calm.later step
    rw [under_require]
    intro current _
    split
    · exact under_return (calm₁.ends other_ne)
    · apply under_changeTurn calm₁ other_ne
      cases e <;> simp
  exact under_mono fails fun _ s' ends => ⟨ends, rfl⟩

theorem under_prepareTask {item : TurnRow} {task : TaskRow} {goesOn waits : Stage}
    (h : Calm .other s) : Tx.under assistantRely (prepareTask item task goesOn waits)
      (fun next s' => Ends .other s' ∧ (next = goesOn ∨ next = waits)) s := by
  have changes : ∀ {status : TurnStatus} {error : Option String}, status ≠ .running →
      Tx.under assistantRely (changeTurn item.id status error >>= fun _ => return waits)
        (fun next s' => Ends .other s' ∧ (next = goesOn ∨ next = waits)) s := by
    intro status error off
    rw [under_map]
    exact under_mono (under_changeTurn h other_ne off) fun _ _ ends => ⟨ends, Or.inr rfl⟩
  have prepares : ∀ {p : Txn Unit}, Writes (Mild .other) p →
      Tx.under assistantRely (p >>= fun _ => return goesOn)
        (fun next s' => Ends .other s' ∧ (next = goesOn ∨ next = waits)) s := by
    intro p mild
    rw [under_map]
    exact under_mono (h.under mild) fun _ _ calm => ⟨calm.ends other_ne, Or.inl rfl⟩
  unfold prepareTask
  cases task.status with
  | assigned | running | awaitingApproval => exact changes (by simp)
  | done | cancelled => exact changes (by simp)
  | backlog => exact prepares mild_markReady
  | blocked => exact prepares mild_retryTask
  | review => exact prepares mild_requestChanges
  | ready => exact fun db step => ⟨(h.later step).ends other_ne, Or.inl rfl⟩

theorem meets_admission {turn : TurnRow} {left : List TurnRow} {seen : List Conversation} :
    Meets d (.admission turn left seen) := by
  intro db sound
  change Tx.under assistantRely (admitStage d turn (.assign turn left seen) (.item left seen)) _ _
  have calm : Calm .other ⟨db, [], []⟩ := calm_start sound
  unfold admitStage
  rw [under_query]
  intro db₁ step
  have calm₁ := calm.later step
  split
  · rw [under_query]
    intro db₂ step₂
    have calm₂ := calm₁.later step₂
    unfold admitTask
    split
    · rw [under_map]
      exact under_mono (under_changeTurn calm₂ other_ne (by simp)) fun _ _ ends => ⟨ends, Or.inr rfl⟩
    · exact under_prepareTask calm₂
  · rw [under_map]
    exact under_mono (under_changeTurn calm₁ other_ne (by simp)) fun _ _ ends => ⟨ends, Or.inr rfl⟩

/-! ## Discussions and other calls -/

theorem meets_advance {id : String} {left : List String} : Meets d (.advance id left) := by
  intro db sound
  change Tx.under assistantRely (advance id >>= _) _ _
  rw [under_map]
  apply under_mono (under_advance (calm_start sound) other_ne)
  exact fun row s' both => ⟨both.1, row, rfl, both.2⟩

theorem meets_cancelDiscussion {id : String} : Meets d (.cancelDiscussion id) := by
  intro db sound
  change Tx.under assistantRely (stopDiscussion id >>= _) _ _
  rw [under_map]
  apply under_mono (under_stopDiscussion (calm_start sound) other_ne)
  exact fun row s' both => ⟨both.1, row, rfl, both.2⟩

theorem meets_conclude {row : DiscussionRow} {after : After} : Meets d (.conclude row after) := by
  intro db sound
  change Tx.under assistantRely (concludeStopping row.id >>= _) _ _
  rw [under_map]
  apply under_mono (under_concludeStopping (calm_start sound) rfl)
  exact fun _ s' ends => ⟨ends, rfl⟩

theorem meets_propose {id : String} : Meets d (.propose id) := by
  intro db sound
  change Tx.under assistantRely (proposeDiscussionPlan id >>= _) _ _
  rw [under_map]
  apply under_mono (under_proposeDiscussionPlan (calm_start sound) other_ne)
  exact fun _ s' ends => ⟨ends, fun _ => trivial⟩

theorem meets_coordinate : Meets d .coordinate := by
  intro db sound
  change Tx.under assistantRely (Tx.query activeDiscussions >>= _) _ _
  have calm : Calm .other ⟨db, [], []⟩ := calm_start sound
  rw [under_query]
  intro db₁ step db₂ step₂
  exact ⟨((calm.later step).later step₂).ends other_ne, fun _ => nextDiscussion_knows⟩

theorem meets_replied {reply : Reply} : Meets d (.replied reply) :=
  fun _ sound _ step => ⟨((calm_start sound).later step).ends other_ne, fun _ => trivial⟩

theorem meets_cancelPending {turn : TurnRow} {caller : Caller} :
    Meets d (.cancelPending turn caller) := by
  intro db sound
  change Tx.under assistantRely (cancelPending turn >>= _) _ _
  rw [under_map]
  apply under_mono (under_cancelPending (calm_start sound) other_ne)
  exact fun _ s' both => ⟨both.1, rfl, both.2⟩

theorem meets_finishStopping {row : DiscussionRow} {after : After} :
    Meets d (.finishStopping row after) := by
  intro db sound
  change Tx.under assistantRely (finishStoppingStage row after) _ _
  have calm : Calm .other ⟨db, [], []⟩ := calm_start sound
  unfold finishStoppingStage
  split
  · exact fun db₁ step => ⟨(calm.later step).ends other_ne, Or.inl rfl⟩
  · rename_i turnId active
    split
    · rename_i stopping
      apply under_seq_since (calm.under writes_mayRefuse)
      intro _ s₁ calm₁ since
      rw [under_query]
      intro db₂ step₂
      have calm₂ := calm₁.later step₂
      have began : Later db db₂ := since.db.1.trans step₂.1
      rw [under_query]
      intro db₃ step₃
      have calm₃ := calm₂.later step₃
      rw [calm₂.view_turns]
      split
      · intro db₄ step₄
        exact ⟨(calm₃.later step₄).ends other_ne, Or.inr ⟨turnId, db₂, stopping, active, calm₂.sound,
          began, step₃.1.trans step₄.1, Or.inl rfl⟩⟩
      · rename_i settled
        intro db₄ step₄
        refine ⟨(calm₃.later step₄).ends other_ne, Or.inr ⟨turnId, db₂, stopping, active,
          calm₂.sound, began, step₃.1.trans step₄.1, Or.inr ⟨rfl, fun turn found => ?_⟩⟩⟩
        have found' : (Progress.at_ s₁ db₂).db.turns.get? turnId = some turn := found
        rw [found', Option.any_some, Option.bind_some] at settled
        unfold TurnRow.unbound
        cases pending : turn.pending with
        | false => rfl
        | true =>
          cases run : turn.runId with
          | some runId => rfl
          | none => simp [pending, run] at settled
    · exact fun db₁ step => ⟨(calm.later step).ends other_ne, Or.inl rfl⟩

theorem meets_startDiscussion {actor goalId : String} {request : StartDiscussionRequest} :
    Meets d (.startDiscussion actor goalId request) := by
  intro db sound
  change Tx.under assistantRely (startDiscussion actor goalId request >>= _) _ _
  rw [under_map]
  apply under_mono (under_startDiscussion (calm_start sound) other_ne)
  exact fun _ s' ends => ⟨ends, fun _ => trivial⟩

theorem meets_mild {call : Call} (mild : Writes (Mild .other) call.program)
    (kind : (Stage.call call).kind = .other) : Meets d (.call call) := by
  intro db sound
  change Tx.under assistantRely (call.program >>= _) _ _
  rw [under_map]
  apply under_mono ((calm_start sound).under mild)
  intro _ s' calm
  rw [kind]
  exact ⟨calm.ends other_ne, fun _ => trivial⟩

theorem meets_call {call : Call} : Meets d (.call call) := by
  have saves : ∀ {w : Write}, (∀ view, Mild .other view w) → Writes (Mild .other) (save w) := mild_save
  cases call with
  | assignTask taskId => exact meets_mild (writes_bind mild_assignTask fun _ => writes_done) rfl
  | ingestAnswer runId text =>
    intro db sound
    change Tx.under assistantRely (ingestAnswer runId text >>= _) _ _
    rw [under_map]
    apply under_mono (under_ingestAnswer sound)
    exact fun _ s' ends => ⟨ends, fun _ => trivial⟩
  | transitionRun runId source trigger failureReason => exact meets_mild mild_transitionRun rfl
  | transitionTask taskId source trigger =>
    exact meets_mild (writes_bind mild_transitionTask fun _ => writes_done) rfl
  | createTask row => exact meets_mild mild_addTask rfl
  | saveUser row => exact meets_mild (saves fun _ => ⟨trivial, rfl, rfl⟩) rfl
  | saveRoom row => exact meets_mild (saves fun _ => ⟨trivial, rfl, rfl⟩) rfl
  | saveGoal row => exact meets_mild (saves fun _ => ⟨trivial, rfl, rfl⟩) rfl
  | saveAgent row => exact meets_mild (saves fun _ => ⟨trivial, rfl, rfl⟩) rfl
  | postMessage row => exact meets_mild mild_postMessage rfl

theorem meets (stage : Stage) : Meets d stage := by
  cases stage with
  | enqueue actor roomId request => exact meets_enqueue
  | retry id => exact meets_retry
  | cancelTurn id caller => exact meets_cancelTurn
  | cancelRun turn runId caller => exact meets_cancelRun
  | cancelPending turn caller => exact meets_cancelPending
  | startDiscussion actor goalId request => exact meets_startDiscussion
  | cancelDiscussion id => exact meets_cancelDiscussion
  | propose id => exact meets_propose
  | call call => exact meets_call
  | pump => exact meets_pump
  | item left seen => exact meets_item
  | settle turn runId left seen => exact meets_settle
  | admission turn left seen => exact meets_admission
  | assign turn left seen => exact meets_assign
  | failed turn e left seen => exact meets_failed
  | coordinate => exact meets_coordinate
  | advance id left => exact meets_advance
  | finishStopping row after => exact meets_finishStopping
  | conclude row after => exact meets_conclude
  | replied reply => exact meets_replied

/-! ## The rules -/

/-- The invariant holds, and what the stage takes for granted. -/
def Informed (db : Database) (stage : Stage) : Prop := Sound db ∧ stage.Knows db

/-- A concluded discussion whose last turn was seen settled or bound. -/
theorem concludes_of_stopped {row : DiscussionRow} {turnId : String} (stopped : Stopped db row)
    (active : row.activeTurnId = some turnId)
    (off : ∀ turn, db.turns.get? turnId = some turn → turn.unbound = false) : Concludes db row := by
  obtain ⟨e, found, status, same⟩ := stopped
  refine ⟨e, found, status, fun x turn is found' _ => off turn ?_⟩
  rw [same, active] at is
  cases is
  exact found'

theorem unbound_of_settled {turn : TurnRow} (settled : turn.pending = false) :
    turn.unbound = false := by
  unfold TurnRow.unbound
  rw [settled]
  rfl

theorem returns_knows {caller : Caller} {turn : TurnRow} (knows : caller.Knows db turn.id)
    (settled : ∀ row, db.turns.get? turn.id = some row → row.pending = false) :
    (caller.returns turn).Knows db := by
  cases caller with
  | client => trivial
  | finishStopping row after =>
    exact concludes_of_stopped knows.1 knows.2 fun row found => unbound_of_settled (settled row found)

theorem stands_knows {row : DiscussionRow} {after : After} (stands : Stands row s) :
    (Stage.finishStopping row after).Knows s.view.fence :=
  fun stopping => ⟨row, stands, by simp [stopping], rfl⟩

theorem nextTurn_knows {snapshot turn : TurnRow} {rest : List TurnRow} {seen : List Conversation}
    (covered : Covered db (snapshot :: rest) seen) (found : db.turns.get? snapshot.id = some turn) :
    (nextTurn turn rest seen).Knows db := by
  unfold nextTurn
  split
  · rename_i drop
    rw [Bool.or_eq_true, Bool.not_eq_true', List.contains_iff_mem] at drop
    exact covered.next found drop
  · rename_i take
    rw [Bool.or_eq_true, Bool.not_eq_true', List.contains_iff_mem, not_or] at take
    split
    · exact covered.take found
    · exact ⟨covered.take found, covered.first found take.2⟩

theorem next_knows {stage next : Stage} {began : Database} (knew : Informed began stage)
    (knows : stage.Knows s.db) (sound : Sound s.db) (step : Later s.db s.view.fence)
    (result : stage.Result began next s) : next.Knows s.view.fence := by
  cases stage with
  | enqueue actor roomId request =>
    obtain ⟨reply, rfl, _⟩ := result
    trivial
  | pump =>
    obtain ⟨db, earlier, rfl⟩ := result
    exact covered_pending.later (earlier.trans step)
  | item left seen =>
    rcases result with rfl | ⟨snapshot, rest, turn, db, rfl, sound', begin_, earlier, found, rfl⟩
    · trivial
    · have covered : Covered db (snapshot :: rest) seen := Covered.later begin_ knew.2
      exact Stage.Knows.later (earlier.trans step) sound' (nextTurn_knows covered found)
  | settle turn runId left seen =>
    cases result
    exact Covered.later step knows
  | assign turn left seen =>
    cases result
    exact knows.1.later step
  | failed turn e left seen =>
    cases result
    exact Covered.later step knows
  | admission turn left seen =>
    rcases result with rfl | rfl
    · exact ⟨knows.1.later step, knows.2.later step⟩
    · exact knows.1.later step
  | cancelTurn id caller =>
    obtain ⟨db, turn, sound', begin_, earlier, found, shape⟩ := result
    have key : turn.id = id := Table.key_of_get? found
    have there : caller.Knows db turn.id := key ▸ Caller.Knows.later begin_ knew.2
    rcases shape with ⟨rfl, cancelled⟩ | ⟨runId, rfl⟩ | rfl
    · apply Stage.Knows.later (earlier.trans step) sound'
      apply returns_knows there
      intro row is
      rw [key, found] at is
      cases is
      unfold TurnRow.pending
      rw [cancelled]
      rfl
    · exact there.later (earlier.trans step)
    · exact there.later (earlier.trans step)
  | cancelRun turn runId caller =>
    cases result
    exact Caller.Knows.later step knows
  | cancelPending turn caller =>
    obtain ⟨rfl, settled⟩ := result
    exact returns_knows (Caller.Knows.later step knows) settled
  | cancelDiscussion id =>
    obtain ⟨row, rfl, stands⟩ := result
    exact stands_knows stands
  | advance id left =>
    obtain ⟨row, rfl, stands⟩ := result
    exact stands_knows stands
  | finishStopping row after =>
    rcases result with rfl | ⟨turnId, db, stopping, active, sound', begin_, earlier, shape⟩
    · exact After.stage_knows
    · have stopped : Stopped db row := (knew.2 stopping).later begin_
      rcases shape with rfl | ⟨rfl, off⟩
      · exact ⟨stopped.later (earlier.trans step), active⟩
      · exact (concludes_of_stopped stopped active off).later (earlier.trans step) sound'
  | conclude row after =>
    cases result
    exact After.stage_knows
  | retry | startDiscussion | propose | call | coordinate | replied => exact result _

theorem fenced_view {s₀ : Standing} : (⟨s₀.db, s₀.locks, s₀.log ++ [.fence]⟩ : Standing).view =
    s₀.view.fence :=
  writeAll_append _ _ _

/-- What a stage's commit leaves. -/
theorem Stage.Spec.commit {stage next : Stage} {began : Database} (h : stage.Spec began next s)
    (knows : stage.Knows s.db) :
    Sound s.view ∧ Later s.db s.view ∧ ∀ k ∉ s.locks, k.Same s.db s.view := by
  obtain ⟨s₀, rfl, ends, _⟩ := h
  rw [fenced_view]
  apply ends.effect.commit ends.orderly
  intro id is d there key
  cases stage with
  | conclude row after =>
    cases is
    obtain ⟨e, found, off, quenched⟩ := knows
    have same : e = d := by
      rw [← key] at found
      change s₀.db.discussions.get? d.id = some e at found
      rw [Table.get?_of_mem there] at found
      exact (Option.some.inj found).symm
    exact same ▸ ⟨off, quenched⟩
  | call call => cases call <;> cases is
  | _ => cases is

theorem assistant_rules : Crew.Rules (code d) assistantRely Stage.Spec Sound Informed := by
  constructor
  case world =>
    constructor
    · intro stage db sound
      exact under_fenced (fun next s both => ⟨s, rfl, both.1, both.2⟩) (meets stage db sound)
    · intro w s next there _ informed sound _ spec
      obtain ⟨invariant, later, others⟩ := spec.commit (informed s there rfl).2.2
      exact ⟨invariant, fun locks apart => ⟨later, fun _ => ⟨invariant, fun k held =>
        others k (apart k held)⟩⟩⟩
  case start => exact fun db stage sound starts => ⟨sound, starts_knows starts⟩
  case stable =>
    exact fun db db' stage step informed =>
      ⟨(step.2 informed.1).1, Stage.Knows.later step.1 informed.1 informed.2⟩
  case next =>
    intro stage began next s sound knew knows step spec
    refine ⟨(step.2 sound).1, ?_⟩
    obtain ⟨s₀, rfl, ends, result⟩ := spec
    rw [fenced_view]
    have step' : Later s₀.db s₀.view.fence := fenced_view ▸ step.1
    exact next_knows knew knows.2 sound step' result
  case recover => exact fun db stage e sound informed => ⟨sound, recover_knows informed.2⟩

/-- In every run the invariant holds, and a later database is later. -/
theorem runs_sound {ls : List (Nat × Crew.Move Draw Failure Stage)} {c : Server}
    (path : Path (ServerStep d) ls (Crew.idle {}) c) :
    c.Holds assistantRely Stage.Spec Sound Informed :=
  (Crew.holds_path assistant_rules path (Crew.holds_idle sound_empty)).1

end Artoo.Assistants
