import Artoo.Assistants.Sound

/-! What a transaction may do by its commit to the turns and the discussions. -/
namespace Artoo.Assistants
open Artoo.Lib Tx
open Artoo.Server (TurnStatus)

abbrev Standing := Progress Database Write Lock

/-- What only one kind of stage does. -/
inductive Kind where
  | dispatch (turnId : String)
  | retry (turnId : String)
  | conclude (discussionId : String)
  | answer
  | other
  deriving DecidableEq

/-! ## The written rows -/

def Write.turn? : Write → Option TurnRow
  | .turn row => some row
  | _ => none

def Write.discussion? : Write → Option DiscussionRow
  | .discussion row => some row
  | _ => none

def Write.message? : Write → Option MessageRow
  | .message row => some row
  | _ => none

def Write.run? : Write → Option RunRow
  | .run row => some row
  | _ => none

def Write.task? : Write → Option TaskRow
  | .task row => some row
  | _ => none

def turnsOf (log : List Write) : List TurnRow := log.filterMap Write.turn?

def discussionsOf (log : List Write) : List DiscussionRow := log.filterMap Write.discussion?

variable {db db' : Database} {log more : List Write} {s : Standing} {kind : Kind}
  {d d' : DiscussionRow} {t row row' : TurnRow}

@[simp] theorem turnsOf_append : turnsOf (log ++ more) = turnsOf log ++ turnsOf more :=
  List.filterMap_append

@[simp] theorem discussionsOf_append :
    discussionsOf (log ++ more) = discussionsOf log ++ discussionsOf more :=
  List.filterMap_append

theorem turn_mem (there : t ∈ turnsOf log) : .turn t ∈ log := by
  obtain ⟨w, member, is⟩ := List.mem_filterMap.mp there
  cases w <;> cases is
  exact member

theorem discussion_mem (there : d ∈ discussionsOf log) : .discussion d ∈ log := by
  obtain ⟨w, member, is⟩ := List.mem_filterMap.mp there
  cases w <;> cases is
  exact member

theorem turns_writeAll : (writeAll log db).turns = (turnsOf log).foldl Table.put db.turns := by
  induction log generalizing db with
  | nil => rfl
  | cons w log ih =>
    rw [writeAll_cons, ih]
    cases w <;> rfl

theorem discussions_writeAll :
    (writeAll log db).discussions = (discussionsOf log).foldl Table.put db.discussions := by
  induction log generalizing db with
  | nil => rfl
  | cons w log ih =>
    rw [writeAll_cons, ih]
    cases w <;> rfl

theorem fences_writeAll (off : .fence ∉ log) : (writeAll log db).fences = db.fences := by
  induction log generalizing db with
  | nil => rfl
  | cons w log ih =>
    rw [writeAll_cons, ih fun member => off (List.mem_cons_of_mem _ member)]
    cases w with
    | fence => exact absurd List.mem_cons_self off
    | _ => rfl

theorem messages_writeAll {id : String} : (writeAll log db).messages.get? id =
    (logged MessageRow.id Write.message? log id).or (db.messages.get? id) :=
  get?_writeAll Database.messages fun w _ => by cases w <;> rfl

theorem runs_writeAll {id : String} : (writeAll log db).runs.get? id =
    (logged RunRow.id Write.run? log id).or (db.runs.get? id) :=
  get?_writeAll Database.runs fun w _ => by cases w <;> rfl

theorem tasks_writeAll {id : String} : (writeAll log db).tasks.get? id =
    (logged TaskRow.id Write.task? log id).or (db.tasks.get? id) :=
  get?_writeAll Database.tasks fun w _ => by cases w <;> rfl

/-! ## Messages -/

/-- What a statement may write: a message answers a turn only where it is an answer. -/
def Tends (kind : Kind) (view : Database) : Write → Prop
  | .message row' => (∃ row, view.messages.get? row'.id = some row ∧ row'.answers = row.answers) ∨
      (view.messages.get? row'.id = none ∧ (kind ≠ .answer → row'.answers = none))
  | .fence => False
  | _ => True

structure Orderly (kind : Kind) (s : Standing) : Prop where
  sound : Sound s.db
  guarded : ∀ x ∈ s.log, ∀ k ∈ x.locks, k ∈ s.locks
  unfenced : .fence ∉ s.log
  messages : ∀ id row', logged MessageRow.id Write.message? s.log id = some row' →
    (∃ row, s.db.messages.get? id = some row ∧ row'.answers = row.answers) ∨
      (s.db.messages.get? id = none ∧ (kind ≠ .answer → row'.answers = none))

theorem Orderly.start (sound : Sound db) : Orderly kind ⟨db, [], []⟩ :=
  ⟨sound, fun _ member => (nomatch member), fun member => (nomatch member), fun _ _ is => (nomatch is)⟩

theorem Orderly.same (h : Orderly kind s) (step : assistantRely.rel s.locks s.db db) {k : Lock}
    (held : k ∈ s.locks) : k.Same s.db db := (step.2 h.sound).2 k held

theorem Orderly.later (h : Orderly kind s) (step : assistantRely.rel s.locks s.db db) :
    Orderly kind (s.at_ db) := by
  refine ⟨(step.2 h.sound).1, h.guarded, h.unfenced, fun id row' is => ?_⟩
  obtain ⟨rfl, x, member, wrote⟩ := logged_eq_some is
  have held : .message row'.id ∈ s.locks := by
    apply h.guarded x member
    cases x <;> cases wrote
    exact List.mem_cons_self
  have same : db.messages.get? row'.id = s.db.messages.get? row'.id := h.same step held
  rw [Progress.at_db, same]
  exact h.messages _ row' is

theorem Orderly.after (h : Orderly kind s) {locks : Database → List Lock}
    {writes : Database → List Write} (tends : ∀ w ∈ writes s.view, Tends kind s.view w) :
    Orderly kind (s.after locks writes) := by
  refine ⟨h.sound, fun x member k guard => ?_, fun member => ?_, fun id row' is => ?_⟩
  · rcases List.mem_append.mp member with old | new
    · exact Progress.locks_after (h.guarded x old k guard)
    · apply List.mem_append_right
      exact List.mem_append_right _ (List.mem_flatMap.mpr ⟨x, new, guard⟩)
  · rcases List.mem_append.mp member with old | new
    · exact h.unfenced old
    · exact tends _ new
  · rw [Progress.after_log, logged_append, Option.or_eq_some_iff] at is
    rcases is with new | ⟨_, old⟩
    · obtain ⟨rfl, x, member, wrote⟩ := logged_eq_some new
      have step := tends x member
      cases x <;> cases wrote
      change (∃ row, s.view.messages.get? row'.id = some row ∧ row'.answers = row.answers) ∨
        (s.view.messages.get? row'.id = none ∧ (kind ≠ .answer → row'.answers = none)) at step
      unfold Progress.view at step
      rw [messages_writeAll] at step
      cases before : logged MessageRow.id Write.message? s.log row'.id with
      | none =>
        rw [before, Option.none_or] at step
        exact step
      | some mid =>
        rw [before, Option.some_or] at step
        rcases step with ⟨_, ⟨⟩, link⟩ | ⟨absent, _⟩
        · rw [link]
          exact h.messages _ mid before
        · cases absent
    · exact h.messages id row' old

/-! ## Effects -/

/-- How a turn changes without being bound to a run or answered. -/
inductive Touch (kind : Kind) : TurnRow → TurnRow → Prop where
  | settle {row : TurnRow} {outcome : TurnStatus × Option String} : row.pending →
      outcome.1 ≠ .running → (outcome.1 = .completed → row.responseMessageId.isSome) →
      Touch kind row (row.settle outcome)
  | cancel {row : TurnRow} : row.pending → Touch kind row row.cancel
  | retry {row : TurnRow} : row.status = .waiting ∨ row.status = .failed → kind = .retry row.id →
      Touch kind row row.retry

/-- A turn that may be added: queued, and the last of its thread. -/
structure Adds (db : Database) (t : TurnRow) : Prop where
  fresh : db.turns.get? t.id = none
  request : ∀ u ∈ db.turns, u.request ≠ t.request
  queued : t.status = .queued
  unbound : t.runId = none
  last : ∀ u ∈ db.turns, u.roomId = t.roomId → u.threadRootId = t.threadRootId →
    u.position < t.position

theorem Adds.last_of (h : Adds db t) {u : TurnRow} (there : u ∈ db.turns)
    (same : u.conversation = t.conversation) : u.position < t.position :=
  h.last u there (congrArg Prod.fst same) (congrArg Prod.snd same)

/-- The step of the active turn is counted, or nothing yet. -/
inductive Counts (db : Database) (d : DiscussionRow) : DiscussionRow → Prop where
  | none : Counts db d d
  | answer {x m : String} {row : TurnRow} : d.status = .running → d.activeTurnId = some x →
      db.turns.get? x = some row → row.status = .completed → row.responseMessageId = some m →
      Counts db d (d.count m)

/-- What the transactions that lock a discussion do to it, with a new turn of its thread. -/
inductive Advances (kind : Kind) (db : Database) (d : DiscussionRow) :
    Option TurnRow → DiscussionRow → Prop where
  | count {d₁ : DiscussionRow} : Counts db d d₁ → Advances kind db d none d₁
  | stop {d₁ : DiscussionRow} {error : Option String} : Counts db d d₁ → d₁.status = .running →
      Advances kind db d none (d₁.stop error)
  | stopIdle {error : Option String} : d.status = .running → d.activeTurnId = none →
      Advances kind db d none (d.stop error).conclude
  | conclude : d.status = .stopping → d.activeTurnId = none ∨ kind = .conclude d.id →
      Advances kind db d none d.conclude
  | ask {d₁ : DiscussionRow} {t : TurnRow} : Counts db d d₁ → d₁.status = .running →
      d₁.activeTurnId = none → Adds db t → t.threadRootId = some d.threadRootId →
      t.asked = d₁.asks d₁.currentStep → Advances kind db d (some t) (d₁.ask t.id)
  | plan {planId : Option String} : Advances kind db d none { d with planId }

/-- The fence of the discussion whose last turn this is, once it stops: the turn is not retried
meanwhile. -/
def Admitted (db : Database) (row : TurnRow) : Prop :=
  ∀ d ∈ db.discussions, row.threadRootId = some d.threadRootId → d.activeTurnId = some row.id →
    ∀ k, db.fences d.id = some k → k = row.retries

/-- What a transaction leaves, as long as it writes no more turns or discussions. -/
inductive Effect (kind : Kind) (s : Standing) : Prop where
  | quiet : turnsOf s.log = [] → discussionsOf s.log = [] →
      (∀ id m, logged MessageRow.id Write.message? s.log id = some m →
        s.db.messages.get? id = none → m.answers = none) → Effect kind s
  | touch {row row' : TurnRow} : turnsOf s.log = [row'] → discussionsOf s.log = [] →
      kind ≠ .answer → s.db.turns.get? row.id = some row → Touch kind row row' → Effect kind s
  | dispatch {row : TurnRow} {run : RunRow} : turnsOf s.log = [row.start run.id] →
      discussionsOf s.log = [] → kind = .dispatch row.id → s.db.turns.get? row.id = some row →
      row.unbound → (∀ u ∈ s.db.turns, u.status = .running → u.conversation = row.conversation →
        u.id = row.id) → s.db.runs.get? run.id = none → .run run ∈ s.log →
      Admitted s.db row → Effect kind s
  | answer {row : TurnRow} {m : MessageRow} {r : String} : turnsOf s.log = [row.answer m.id] →
      discussionsOf s.log = [] → kind = .answer → s.db.turns.get? row.id = some row →
      row.responseMessageId = none → row.runId = some r → m.answers = some (row.id, r) →
      (logged MessageRow.id Write.message? s.log m.id).isSome → s.db.messages.get? m.id = none →
      (∀ id m', logged MessageRow.id Write.message? s.log id = some m' →
        s.db.messages.get? id = none → id = m.id ∧ m'.answers = m.answers) → Effect kind s
  | enqueue {t : TurnRow} : turnsOf s.log = [t] → discussionsOf s.log = [] → kind ≠ .answer →
      Adds s.db t → s.db.ordinary t → .room t.roomId ∈ s.locks →
      (∀ root, t.threadRootId = some root → (s.db.messages.get? root).isSome) → Effect kind s
  | open_ {d : DiscussionRow} : turnsOf s.log = [] → discussionsOf s.log = [d] →
      kind ≠ .answer → s.db.discussions.get? d.id = none →
      (∀ e ∈ s.db.discussions, e.active → e.goalId ≠ d.goalId) →
      s.db.messages.get? d.threadRootId = none → (s.view.messages.get? d.threadRootId).isSome →
      s.db.tasks.get? d.taskId = none → (s.view.tasks.get? d.taskId).isSome →
      d.status = .running → d.currentStep = 0 → d.activeTurnId = none → Effect kind s
  | discuss {d d' : DiscussionRow} {added : Option TurnRow} {between : List DiscussionRow} :
      turnsOf s.log = added.toList → discussionsOf s.log = between ++ [d'] →
      (∀ e ∈ between, e.id = d.id) → kind ≠ .answer → s.db.discussions.get? d.id = some d →
      Advances kind s.db d added d' → Effect kind s

/-! ## Effects under the commits of others -/

theorem Touch.origin (h : Touch kind row row') : row'.origin = row.origin := by
  cases h <;> rfl

theorem Touch.id_eq (h : Touch kind row row') : row'.id = row.id := by
  have same := congrArg TurnRow.id h.origin
  exact same

theorem Counts.origin (h : Counts db d d') : d'.origin = d.origin := by
  cases h with
  | none => rfl
  | answer _ _ _ _ _ => exact count_origin

theorem Advances.origin {added : Option TurnRow} (h : Advances kind db d added d') :
    d'.origin = d.origin := by
  cases h with
  | count counted => exact counted.origin
  | stop counted _ => exact counted.origin
  | ask counted _ _ _ _ _ => exact counted.origin
  | stopIdle _ _ => rfl
  | conclude _ _ => rfl
  | plan => rfl

theorem Advances.id_eq {added : Option TurnRow} (h : Advances kind db d added d') :
    d'.id = d.id := by
  have same := congrArg DiscussionRow.id h.origin
  exact same

theorem Orderly.turn_held (h : Orderly kind s) (there : t ∈ turnsOf s.log) :
    .turn t.id ∈ s.locks ∧ .request t.request ∈ s.locks ∧
      (t.status = .running → .conversation t.conversation ∈ s.locks) := by
  have guarded := h.guarded _ (turn_mem there)
  refine ⟨guarded _ ?_, guarded _ ?_, fun running => guarded _ ?_⟩
  · simp [Write.locks]
  · simp [Write.locks]
  · simp [Write.locks, running]

theorem Orderly.discussion_held (h : Orderly kind s) (there : d ∈ discussionsOf s.log) :
    .discussion d.id ∈ s.locks ∧ (d.active → .activeDiscussion d.goalId ∈ s.locks) := by
  have guarded := h.guarded _ (discussion_mem there)
  refine ⟨guarded _ ?_, fun active => guarded _ ?_⟩
  · simp [Write.locks]
  · simp [Write.locks, active]

theorem Orderly.message_held (h : Orderly kind s) {id : String} {m : MessageRow}
    (is : logged MessageRow.id Write.message? s.log id = some m) : .message id ∈ s.locks := by
  obtain ⟨rfl, w, member, wrote⟩ := logged_eq_some is
  apply h.guarded w member
  cases w <;> cases wrote
  exact List.mem_cons_self

theorem Orderly.task_held (h : Orderly kind s) {id : String} {task : TaskRow}
    (is : logged TaskRow.id Write.task? s.log id = some task) : .task id ∈ s.locks := by
  obtain ⟨rfl, w, member, wrote⟩ := logged_eq_some is
  apply h.guarded w member
  cases w <;> cases wrote
  exact List.mem_cons_self

theorem Orderly.turn_same (h : Orderly kind s) (step : assistantRely.rel s.locks s.db db)
    (there : t ∈ turnsOf s.log) : db.turns.get? t.id = s.db.turns.get? t.id :=
  (h.same step (h.turn_held there).1).1

theorem Adds.later (h : Orderly kind s) (step : assistantRely.rel s.locks s.db db)
    (there : t ∈ turnsOf s.log) (adds : Adds s.db t)
    (none_ : ∀ u ∈ db.turns, u.roomId = t.roomId → u.threadRootId = t.threadRootId →
      (s.db.turns.get? u.id).isSome) : Adds db t := by
  refine ⟨(h.turn_same step there).trans adds.fresh, fun u hu same => ?_, adds.queued,
    adds.unbound, fun u hu room thread => ?_⟩
  · have old := h.same step (h.turn_held there).2.1 u hu same
    obtain ⟨u', found⟩ := Option.isSome_iff_exists.mp old
    have turn := step.1.turn_back hu found
    exact adds.request u' (Table.mem_of_get? found) (turn.request_eq.symm.trans same)
  · obtain ⟨u', found⟩ := Option.isSome_iff_exists.mp (none_ u hu room thread)
    have turn := step.1.turn_back hu found
    rw [turn.position_eq]
    apply adds.last u' (Table.mem_of_get? found)
    · rw [← room]
      exact (congrArg Prod.fst turn.conversation_eq).symm
    · rw [← thread, turn.thread_eq]

theorem Counts.later (step : Later db db') (h : Counts db d d') : Counts db' d d' := by
  cases h with
  | none => exact .none
  | @answer x m row running active found completed response =>
    obtain ⟨row', found', turn⟩ := step.turns x row found
    have same := turn.answered ⟨completed, by rw [response]; rfl⟩
    exact .answer running active (same ▸ found') completed response

theorem Advances.later {added : Option TurnRow} (step : Later db db')
    (adds : ∀ t, added = some t → Adds db t → t.threadRootId = some d.threadRootId → Adds db' t)
    (h : Advances kind db d added d') : Advances kind db' d added d' := by
  cases h with
  | count counted => exact .count (counted.later step)
  | stop counted running => exact .stop (counted.later step) running
  | stopIdle running idle => exact .stopIdle running idle
  | conclude stopping idle => exact .conclude stopping idle
  | ask counted running idle new thread asked =>
    exact .ask (counted.later step) running idle (adds _ rfl new thread) thread asked
  | plan => exact .plan

theorem Admitted.later (h : Orderly kind s) (step : assistantRely.rel s.locks s.db db)
    (held : .turn row.id ∈ s.locks) (found : s.db.turns.get? row.id = some row)
    (admitted : Admitted s.db row) : Admitted db row := by
  intro d there thread active k is
  cases before : s.db.fences d.id with
  | none => exact (h.same step held).2.2 d there before k is active row found
  | some k' =>
    have kept := step.1.fences d.id k' before
    rw [is] at kept
    cases kept
    obtain ⟨e, found', off⟩ := h.sound.fences.stopped d.id k before
    have later := step.1.discussion_back there found'
    apply admitted e (Table.mem_of_get? found')
    · rw [thread, later.root_eq]
    · rw [← (later.stopped off).2.2.1]
      exact active
    · rw [← later.id_eq]
      exact before

theorem ordinary_later (step : Later db db')
    (thread : ∀ root, t.threadRootId = some root → (db.messages.get? root).isSome)
    (h : db.ordinary t) : db'.ordinary t := by
  intro d there is
  cases before : db.discussions.get? d.id with
  | none =>
    have known := thread _ is
    rw [(step.opened d there before).1] at known
    cases known
  | some e =>
    rw [(step.discussion_back there before).root_eq] at is
    exact h e (Table.mem_of_get? before) is

theorem Later.message_there (step : Later db db') {id : String}
    (there : (db.messages.get? id).isSome) : (db'.messages.get? id).isSome := by
  obtain ⟨m, found⟩ := Option.isSome_iff_exists.mp there
  obtain ⟨m', found', _⟩ := step.messages id m found
  rw [found']
  rfl

/-- What is not there and is not written is seen by no one. -/
theorem logged_of_view {id : String} (absent : s.db.messages.get? id = none)
    (seen : (s.view.messages.get? id).isSome) :
    ∃ m, logged MessageRow.id Write.message? s.log id = some m := by
  unfold Progress.view at seen
  rw [messages_writeAll, absent, Option.or_none] at seen
  exact Option.isSome_iff_exists.mp seen

theorem Effect.later (h : Orderly kind s) (step : assistantRely.rel s.locks s.db db)
    (effect : Effect kind s) : Effect kind (s.at_ db) := by
  cases effect with
  | quiet turns discussions new =>
    refine .quiet turns discussions fun id m is absent => new id m is ?_
    have same : db.messages.get? id = s.db.messages.get? id := h.same step (h.message_held is)
    exact same.symm.trans absent
  | @touch row row' turns discussions off found touch =>
    have same := h.turn_same step (turns ▸ List.mem_singleton_self row')
    rw [touch.id_eq] at same
    exact .touch turns discussions off (same.trans found) touch
  | @dispatch row run turns discussions is found unbound alone fresh started admitted =>
    have there : row.start run.id ∈ turnsOf s.log := turns ▸ List.mem_singleton_self _
    obtain ⟨held, _, scope⟩ := h.turn_held there
    have fresh' : db.runs.get? run.id = s.db.runs.get? run.id :=
      h.same step (k := .run run.id) (h.guarded _ started _ List.mem_cons_self)
    refine .dispatch turns discussions is ((h.turn_same step there).trans found) unbound ?_
      (fresh'.trans fresh) started (admitted.later h step held found)
    intro u hu running same
    obtain ⟨u', found', running'⟩ := h.same step (scope rfl) u hu running same
    have turn := step.1.turn_back hu found'
    rw [turn.id_eq]
    exact alone u' (Table.mem_of_get? found') running' (turn.conversation_eq.symm.trans same)
  | @answer row m r turns discussions is found unanswered bound answers wrote fresh new =>
    have there : row.answer m.id ∈ turnsOf s.log := turns ▸ List.mem_singleton_self _
    have same : ∀ id m', logged MessageRow.id Write.message? s.log id = some m' →
        db.messages.get? id = s.db.messages.get? id := fun id m' is =>
      h.same step (h.message_held is)
    obtain ⟨m', wrote'⟩ := Option.isSome_iff_exists.mp wrote
    exact .answer turns discussions is ((h.turn_same step there).trans found) unanswered bound
      answers wrote ((same _ _ wrote').trans fresh)
      fun id m' is absent => new id m' is ((same id m' is).symm.trans absent)
  | @enqueue t turns discussions off adds ordinary room thread =>
    have there : t ∈ turnsOf s.log := turns ▸ List.mem_singleton_self _
    have ordinary' := ordinary_later step.1 thread ordinary
    refine .enqueue turns discussions off (adds.later h step there ?_) ordinary' room
      fun root is => step.1.message_there (thread root is)
    intro u hu same same'
    apply h.same step room u hu same
    unfold Database.ordinary
    rw [same']
    exact ordinary'
  | @open_ d turns discussions off fresh alone root root' task task' running start idle =>
    have there : d ∈ discussionsOf s.log := discussions ▸ List.mem_singleton_self _
    obtain ⟨held, goal⟩ := h.discussion_held there
    have active : d.active = true := by
      unfold DiscussionRow.active
      rw [running]
      rfl
    obtain ⟨m, wrote⟩ := logged_of_view root root'
    have task'' := task'
    unfold Progress.view at task''
    rw [tasks_writeAll, task, Option.or_none] at task''
    obtain ⟨row, wrote'⟩ := Option.isSome_iff_exists.mp task''
    have root'' : db.messages.get? d.threadRootId = s.db.messages.get? d.threadRootId :=
      h.same step (h.message_held wrote)
    refine .open_ turns discussions off ((h.same step held).1.trans fresh) ?_ (root''.trans root)
      ?_ (h.same step (h.task_held wrote') task) ?_ running start idle
    · intro e he is same
      obtain ⟨e', found, is'⟩ := h.same step (goal active) e he is same
      have origin := (step.1.discussion_back he found).origin
      have same' := congrArg DiscussionRow.goalId origin
      exact alone e' (Table.mem_of_get? found) is' (same'.symm.trans same)
    · unfold Progress.view
      rw [messages_writeAll, Progress.at_log, wrote]
      rfl
    · unfold Progress.view
      rw [tasks_writeAll, Progress.at_log, wrote']
      rfl
  | @discuss d d' added between turns discussions same off found advances =>
    have there : d' ∈ discussionsOf s.log := by
      rw [discussions]
      exact List.mem_append_right _ (List.mem_singleton_self _)
    have held := (h.discussion_held there).1
    rw [advances.id_eq] at held
    have found' : db.discussions.get? d.id = some d := (h.same step held).1.trans found
    refine .discuss turns discussions same off found' (advances.later step.1 ?_)
    rintro t rfl adds thread
    apply adds.later h step (turns ▸ List.mem_singleton_self _)
    intro u hu _ same'
    exact (h.same step held).2 d (Table.mem_of_get? found') rfl u hu (same'.trans thread)

end Artoo.Assistants
