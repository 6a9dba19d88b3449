import Artoo.Assistants.Enqueue

/-! The effects of the transactions on discussions, and the rows they return. -/
namespace Artoo.Assistants
open Artoo.Lib Tx Artoo.Domain

variable {α β : Type} {db : Database} {s : Standing} {kind : Kind} {t : TurnRow}
  {d d₁ d' row : DiscussionRow} {between : List DiscussionRow}

/-- The row of a discussion that is locked. -/
structure Owned (d : DiscussionRow) (s : Standing) : Prop where
  lock : .discussion d.id ∈ s.locks
  found : s.db.discussions.get? d.id = some d

theorem Owned.later (h : Owned d s) (o : Orderly kind s) (step : assistantRely.rel s.locks s.db db) :
    Owned d (s.at_ db) :=
  ⟨h.lock, (o.same step h.lock).1.trans h.found⟩

theorem Owned.more (h : Owned d s) {locks : List Lock} {log : List Write} :
    Owned d ⟨s.db, s.locks ++ locks, log⟩ :=
  ⟨List.mem_append_left _ h.lock, h.found⟩

/-- The locked discussion was written so far `between`, and its step is counted in `d₁`. -/
structure Draft (kind : Kind) (d d₁ : DiscussionRow) (between : List DiscussionRow) (s : Standing) :
    Prop extends Orderly kind s where
  turns : turnsOf s.log = []
  discussions : discussionsOf s.log = between
  same : ∀ e ∈ between, e.id = d.id
  owned : Owned d s
  counts : Counts s.db d d₁

theorem Draft.later (h : Draft kind d d₁ between s) (step : assistantRely.rel s.locks s.db db) :
    Draft kind d d₁ between (s.at_ db) :=
  ⟨h.toOrderly.later step, h.turns, h.discussions, h.same, h.owned.later h.toOrderly step,
    h.counts.later step.1⟩

theorem Draft.after (h : Draft kind d d₁ between s) {locks : Database → List Lock}
    {writes : Database → List Write} (mild : ∀ w ∈ writes s.view, Mild kind s.view w) :
    Draft kind d d₁ between (s.after locks writes) := by
  refine ⟨h.toOrderly.after fun w there => (mild w there).1, ?_, ?_, h.same, h.owned.more, h.counts⟩
  · rw [Progress.after_log, turnsOf_append, h.turns, turnsOf_none fun w there => (mild w there).2.1]
    rfl
  · rw [Progress.after_log, discussionsOf_append, h.discussions,
      discussionsOf_none fun w there => (mild w there).2.2, List.append_nil]

theorem Draft.under {p : Txn α} (mild : Writes (Mild kind) p) (h : Draft kind d d₁ between s) :
    Tx.under assistantRely p (fun _ s' => Draft kind d d₁ between s') s :=
  Writes.under mild (fun _ _ draft step => draft.later step) (fun _ _ _ draft mild => draft.after mild) h

theorem Calm.draft (h : Calm kind s) (owned : Owned d s) : Draft kind d d [] s :=
  ⟨h.toOrderly, h.turns, h.discussions, fun _ member => (nomatch member), owned, .none⟩

theorem Draft.calm (h : Draft kind d d₁ [] s) : Calm kind s := ⟨h.toOrderly, h.turns, h.discussions⟩

theorem under_lockDiscussion {id : String} {k : DiscussionRow → Txn β}
    {post : β → Standing → Prop} (h : Calm kind s)
    (rest : ∀ d s', d.id = id → Draft kind d d [] s' → Tx.under assistantRely (k d) post s') :
    Tx.under assistantRely (lockDiscussion id >>= k) post s := by
  unfold lockDiscussion
  rw [bind_assoc, under_queryForUpdate]
  intro db step
  have calm := h.later step
  rw [calm.view_discussions, under_require]
  intro d first
  have found := mem_head first
  have key : d.id = id := Table.key_of_get? found
  refine rest d _ key (calm.lock.draft ⟨?_, key ▸ found⟩)
  rw [found]
  simp

/-- What is returned is what a reader sees now. -/
def Stands (row : DiscussionRow) (s : Standing) : Prop := s.view.discussions.get? row.id = some row

theorem Draft.view (h : Draft kind d d₁ between s) :
    s.view.discussions = between.foldl Table.put s.db.discussions := by
  unfold Progress.view
  rw [discussions_writeAll, h.discussions]

theorem foldl_put_there {rows : List DiscussionRow} {table : Table DiscussionRow.id} {id : String}
    (there : (table.get? id).isSome) : ((rows.foldl Table.put table).get? id).isSome := by
  induction rows generalizing table with
  | nil => exact there
  | cons row rows ih =>
    apply ih
    rw [Table.get?_put]
    split
    · rfl
    · exact there

theorem under_setDiscussion {k : DiscussionRow → Txn β} {post : β → Standing → Prop}
    (h : Draft kind d d₁ between s) (key : row.id = d.id)
    (rest : ∀ s', Draft kind d d₁ (between ++ [row]) s' → Tx.under assistantRely (k row) post s') :
    Tx.under assistantRely (setDiscussion row >>= k) post s := by
  unfold setDiscussion
  rw [bind_assoc, under_change]
  intro db step
  have draft := h.later step
  have there : ((s.at_ db).view.discussions.get? row.id).isSome := by
    rw [draft.view, key]
    apply foldl_put_there
    rw [draft.owned.found]
    rfl
  obtain ⟨old, found⟩ := Option.isSome_iff_exists.mp there
  rw [found, pure_bind]
  apply rest
  have orderly := draft.toOrderly.write (w := .discussion row) trivial
  refine ⟨?_, ?_, ?_, ?_, draft.owned.more, draft.counts⟩
  · simpa using orderly
  · change turnsOf (s.log ++ [.discussion row]) = _
    rw [turnsOf_append, h.turns]
    rfl
  · change discussionsOf (s.log ++ [.discussion row]) = _
    rw [discussionsOf_append, h.discussions]
    rfl
  · intro e there
    rcases List.mem_append.mp there with old | new
    · exact h.same e old
    · cases List.mem_singleton.mp new
      exact key

theorem Draft.stands (h : Draft kind d d₁ (between ++ [row]) s) : Stands row s := by
  unfold Stands
  rw [h.view, List.foldl_append]
  exact Table.get?_put_self

theorem Draft.ends (h : Draft kind d d₁ (between ++ [row]) s) (off : kind ≠ .answer)
    (advances : Counts s.db d d₁ → Advances kind s.db d none row) : Ends kind s := by
  have turns : turnsOf s.log = (none : Option TurnRow).toList := h.turns
  refine ⟨h.toOrderly, .discuss turns h.discussions ?_ off h.owned.found (advances h.counts)⟩
  exact fun e there => h.same e (List.mem_append_left _ there)

/-- The last write of the row. -/
theorem under_finish (h : Draft kind d d₁ between s) (off : kind ≠ .answer) (key : row.id = d.id)
    (advances : ∀ db, Counts db d d₁ → Advances kind db d none row) :
    Tx.under assistantRely (setDiscussion row) (fun r s' => Ends kind s' ∧ Stands r s') s := by
  rw [← bind_pure (setDiscussion row)]
  apply under_setDiscussion h key
  intro s' draft db step
  have draft := draft.later step
  exact ⟨draft.ends off (advances _), draft.stands⟩

/-- The row is returned as it is. -/
theorem under_leave (h : Draft kind d d [] s) (off : kind ≠ .answer) :
    Tx.under assistantRely (return d : Txn DiscussionRow) (fun r s' => Ends kind s' ∧ Stands r s') s := by
  intro db step
  have draft := h.later step
  refine ⟨draft.calm.ends off, ?_⟩
  unfold Stands
  rw [draft.calm.view_discussions]
  exact draft.owned.found

/-! ## The next turn -/

/-- The turn is written, the row not yet. -/
structure Asking (kind : Kind) (d d₁ : DiscussionRow) (t : TurnRow) (between : List DiscussionRow)
    (s : Standing) : Prop extends Orderly kind s where
  turns : turnsOf s.log = [t]
  discussions : discussionsOf s.log = between
  same : ∀ e ∈ between, e.id = d.id
  owned : Owned d s
  counts : Counts s.db d d₁
  adds : Adds s.db t

theorem thread_there (h : Orderly kind s) (owned : Owned d s)
    (step : assistantRely.rel s.locks s.db db) (thread : t.threadRootId = some d.threadRootId) :
    ∀ u ∈ db.turns, u.roomId = t.roomId → u.threadRootId = t.threadRootId →
      (s.db.turns.get? u.id).isSome := by
  intro u there _ same
  have owned' := owned.later h step
  exact (h.same step owned.lock).2 d (Table.mem_of_get? owned'.found) rfl u there (same.trans thread)

theorem Asking.later (h : Asking kind d d₁ t between s) (thread : t.threadRootId = some d.threadRootId)
    (step : assistantRely.rel s.locks s.db db) : Asking kind d d₁ t between (s.at_ db) := by
  refine ⟨h.toOrderly.later step, h.turns, h.discussions, h.same, h.owned.later h.toOrderly step,
    h.counts.later step.1, h.adds.later h.toOrderly step ?_ ?_⟩
  · rw [h.turns]
    exact List.mem_singleton_self _
  · exact thread_there h.toOrderly h.owned step thread

theorem under_setAsked (h : Asking kind d d₁ t between s) (off : kind ≠ .answer)
    (running : d₁.status = .running) (idle : d₁.activeTurnId = none)
    (thread : t.threadRootId = some d.threadRootId) (asked : t.asked = d₁.asks d₁.currentStep) :
    Tx.under assistantRely (setDiscussion (d₁.ask t.id)) (fun r s' => Ends kind s' ∧ Stands r s') s := by
  unfold setDiscussion
  rw [under_change]
  intro db step
  have asking := h.later thread step
  have key : d₁.id = d.id := h.counts.later_row.id_eq
  have view : (s.at_ db).view.discussions = between.foldl Table.put db.discussions := by
    unfold Progress.view
    rw [discussions_writeAll, asking.discussions]
    rfl
  have there : ((s.at_ db).view.discussions.get? (d₁.ask t.id).id).isSome := by
    rw [view]
    apply foldl_put_there
    have found : db.discussions.get? d.id = some d := asking.owned.found
    change (db.discussions.get? d₁.id).isSome
    rw [key, found]
    rfl
  obtain ⟨old, found⟩ := Option.isSome_iff_exists.mp there
  rw [found]
  have orderly := asking.toOrderly.write (w := .discussion (d₁.ask t.id)) trivial
  have turns : turnsOf (s.log ++ [.discussion (d₁.ask t.id)]) = (some t).toList := by
    rw [turnsOf_append, h.turns]
    rfl
  have discussions : discussionsOf (s.log ++ [.discussion (d₁.ask t.id)]) =
      between ++ [d₁.ask t.id] := by
    rw [discussionsOf_append, h.discussions]
    rfl
  have ends : Ends kind ⟨db, s.locks ++ Tables.guards Database (.discussion (d₁.ask t.id)),
      s.log ++ [.discussion (d₁.ask t.id)]⟩ :=
    ⟨orderly, .discuss turns discussions h.same off asking.owned.found
      (.ask asking.counts running idle asking.adds thread asked)⟩
  rw [Option.toList_some, List.map_singleton, List.flatMap_singleton]
  intro db' step'
  refine ⟨ends.later step', ?_⟩
  unfold Stands Progress.view
  rw [discussions_writeAll]
  change ((discussionsOf (s.log ++ [.discussion (d₁.ask t.id)])).foldl Table.put
    db'.discussions).get? (d₁.ask t.id).id = _
  rw [discussions, List.foldl_append]
  exact Table.get?_put_self

theorem under_askNext (h : Draft kind d d₁ between s) (off : kind ≠ .answer)
    (running : d₁.status = .running) (idle : d₁.activeTurnId = none) :
    Tx.under assistantRely (askNext d₁) (fun r s' => Ends kind s' ∧ Stands r s') s := by
  unfold askNext
  apply under_seq (h.under writes_generate)
  intro turnId s₁ draft
  apply under_seq (draft.under writes_generate)
  intro messageId s₂ draft
  apply under_seq (draft.under writes_generate)
  intro prompt s₃ draft
  apply under_seq (draft.under (mild_addMessage fun _ => rfl))
  intro _ s₄ draft
  apply under_seq (draft.under mild_countReply)
  intro _ s₅ draft
  apply under_nextPosition draft.turns
  intro position db step below
  have draft := draft.later step
  have thread : (promptTurn turnId messageId position d₁).threadRootId = some d.threadRootId :=
    congrArg some draft.counts.later_row.root_eq
  unfold addTurn
  rw [under_add]
  intro db₁ step₁ free
  have draft₁ := draft.later step₁
  have view : ((s₅.at_ db).at_ db₁).view.turns = db₁.turns := by
    unfold Progress.view
    rw [turns_writeAll, draft₁.turns]
    rfl
  rw [view] at free
  have adds : Adds db₁ (promptTurn turnId messageId position d₁) :=
    adds_of_free step₁ below free rfl rfl rfl
      (thread_there draft.toOrderly draft.owned step₁ thread)
  have asking : Asking kind d d₁ (promptTurn turnId messageId position d₁) between
      ⟨db₁, s₅.locks ++ Tables.guards Database (.turn (promptTurn turnId messageId position d₁)),
        s₅.log ++ [.turn (promptTurn turnId messageId position d₁)]⟩ := by
    refine ⟨draft₁.toOrderly.write trivial, ?_, ?_, draft.same, draft₁.owned.more, draft₁.counts, adds⟩
    · have none_ : turnsOf s₅.log = [] := draft.turns
      rw [turnsOf_append, none_]
      rfl
    · have written : discussionsOf s₅.log = between := draft.discussions
      rw [discussionsOf_append, written]
      exact List.append_nil _
  exact under_setAsked asking off running idle thread rfl

/-! ## Advance -/

theorem under_proceed (h : Draft kind d d₁ between s) (off : kind ≠ .answer)
    (running : d₁.status = .running) (idle : d₁.activeTurnId = none) :
    Tx.under assistantRely (proceed d₁) (fun r s' => Ends kind s' ∧ Stands r s') s := by
  have key : d₁.id = d.id := h.counts.later_row.id_eq
  unfold proceed
  rw [under_drawn]
  intro draw
  dsimp only
  cases draw.refusal with
  | none => exact under_askNext h off running idle
  | some e =>
    cases e with
    | error message => trivial
    | app code message =>
      dsimp only
      split
      · exact under_finish h off key fun db counts => .stop counts running
      · trivial

theorem under_collect {turnId : String} (h : Draft kind d d [] s) (off : kind ≠ .answer)
    (running : d.status = .running) (active : d.activeTurnId = some turnId) :
    Tx.under assistantRely (collect d turnId) (fun r s' => Ends kind s' ∧ Stands r s') s := by
  unfold collect
  rw [under_query]
  intro db step
  have draft := h.later step
  rw [draft.calm.view_turns]
  split
  · exact under_leave draft off
  · split
    · exact under_finish draft off rfl fun db counts => .stop counts running
    · rename_i answer found
      obtain ⟨turn, filtered, response⟩ := Option.bind_eq_some_iff.mp found
      obtain ⟨there, completed⟩ := Option.filter_eq_some_iff.mp filtered
      have counts : Counts db d (d.count answer) :=
        .answer running active there (by simpa using completed) response
      have counted : Draft kind d (d.count answer) [] (s.at_ db) :=
        ⟨draft.toOrderly, draft.turns, draft.discussions, draft.same, draft.owned, counts⟩
      apply under_setDiscussion counted counts.later_row.id_eq
      intro s' draft'
      split
      · intro db' step'
        have draft' := draft'.later step'
        exact ⟨draft'.ends off .count, draft'.stands⟩
      · rename_i more
        apply under_proceed draft' off _ count_active
        unfold DiscussionRow.count at more ⊢
        split at more
        · exact absurd rfl more
        · rename_i last
          rw [if_neg last]
          exact running

theorem running_of_active (active : d.active) (off : d.status ≠ .stopping) :
    d.status = .running := by
  unfold DiscussionRow.active at active
  rw [Bool.or_eq_true, beq_iff_eq, beq_iff_eq] at active
  exact active.resolve_right off

theorem under_advance {id : String} (h : Calm kind s) (off : kind ≠ .answer) :
    Tx.under assistantRely (advance id) (fun r s' => Ends kind s' ∧ Stands r s') s := by
  unfold advance
  apply under_lockDiscussion h
  intro d s₁ _ draft
  split
  · exact under_leave draft off
  · rename_i active
    rw [Bool.not_eq_true, Bool.not_eq_false'] at active
    rw [under_query]
    intro db step
    rw [under_require]
    intro goal _
    apply under_seq ((draft.later step).under writes_now)
    intro at_ s₂ draft
    split
    · rename_i stopping
      unfold concludeIdle
      split
      · rename_i idle
        rw [Option.isNone_iff_eq_none] at idle
        exact under_finish draft off rfl fun _ _ => .conclude stopping (Or.inl idle)
      · exact under_leave draft off
    · rename_i other
      have running := running_of_active active other
      split
      · have key : (d.stop (some (stopReason d at_))).id = d.id := rfl
        apply under_setDiscussion draft key
        intro s₃ draft
        unfold concludeIdle
        split
        · rename_i idle
          rw [Option.isNone_iff_eq_none] at idle
          exact under_finish draft off rfl fun _ _ => .stopIdle running idle
        · intro db' step'
          have draft := draft.later step'
          exact ⟨draft.ends off fun counts => .stop counts running,
            draft.stands⟩
      · split
        · rename_i turnId is
          exact under_collect draft off running is
        · rename_i idle
          exact under_proceed draft off running idle

/-! ## Stop, conclusion and plan -/

theorem under_concludeStopping {id : String} (h : Calm kind s) (is : kind = .conclude id) :
    Tx.under assistantRely (concludeStopping id) (fun _ s' => Ends kind s') s := by
  have off : kind ≠ .answer := by simp [is]
  unfold concludeStopping
  apply under_lockDiscussion h
  intro d s₁ key draft
  split
  · rename_i stopping
    rw [under_map]
    have finish : Tx.under assistantRely (setDiscussion d.conclude)
        (fun r s' => Ends kind s' ∧ Stands r s') s₁ :=
      under_finish draft off rfl fun _ _ => .conclude stopping (Or.inr (key ▸ is))
    exact under_mono finish fun _ _ both => both.1
  · exact under_return (draft.calm.ends off)

theorem under_stopDiscussion {id : String} (h : Calm kind s) (off : kind ≠ .answer) :
    Tx.under assistantRely (stopDiscussion id) (fun r s' => Ends kind s' ∧ Stands r s') s := by
  unfold stopDiscussion
  apply under_lockDiscussion h
  intro d s₁ _ draft
  split
  · rename_i running
    exact under_finish draft off rfl fun _ counts => .stop counts running
  · exact under_leave draft off

theorem under_proposeDiscussionPlan {id : String} (h : Calm kind s) (off : kind ≠ .answer) :
    Tx.under assistantRely (proposeDiscussionPlan id) (fun _ s' => Ends kind s') s := by
  unfold proposeDiscussionPlan
  apply under_lockDiscussion h
  intro d s₁ _ draft
  split
  · exact under_return (draft.calm.ends off)
  · rw [under_require]
    intro final _
    rw [under_query]
    intro db step
    rw [under_require]
    intro message _
    apply under_seq ((draft.later step).under writes_mayRefuse)
    intro _ s₂ draft
    apply under_seq (draft.under writes_generate)
    intro planId s₃ draft
    rw [under_map]
    have finish : Tx.under assistantRely (setDiscussion { d with planId := planId })
        (fun r s' => Ends kind s' ∧ Stands r s') s₃ :=
      under_finish draft off rfl fun _ _ => .plan
    exact under_mono finish fun _ _ both => both.1

/-! ## Start -/

/-- The task is new. -/
structure TaskNew (taskId : String) (s : Standing) : Prop where
  absent : s.db.tasks.get? taskId = none
  wrote : (logged TaskRow.id Write.task? s.log taskId).isSome

structure RootNew (rootId : String) (s : Standing) : Prop where
  absent : s.db.messages.get? rootId = none
  wrote : (logged MessageRow.id Write.message? s.log rootId).isSome

theorem TaskNew.later {taskId : String} (h : TaskNew taskId s) (o : Orderly kind s)
    (step : assistantRely.rel s.locks s.db db) : TaskNew taskId (s.at_ db) := by
  obtain ⟨row, is⟩ := Option.isSome_iff_exists.mp h.wrote
  exact ⟨o.same step (o.task_held is) h.absent, h.wrote⟩

theorem RootNew.later {rootId : String} (h : RootNew rootId s) (o : Orderly kind s)
    (step : assistantRely.rel s.locks s.db db) : RootNew rootId (s.at_ db) := by
  obtain ⟨row, is⟩ := Option.isSome_iff_exists.mp h.wrote
  have same : db.messages.get? rootId = s.db.messages.get? rootId := o.same step (o.message_held is)
  exact ⟨same.trans h.absent, h.wrote⟩

theorem TaskNew.more {taskId : String} (h : TaskNew taskId s) {locks : List Lock}
    {log : List Write} : TaskNew taskId ⟨s.db, locks, s.log ++ log⟩ := by
  refine ⟨h.absent, ?_⟩
  rw [logged_append]
  exact isSome_or h.wrote

theorem RootNew.more {rootId : String} (h : RootNew rootId s) {locks : List Lock}
    {log : List Write} : RootNew rootId ⟨s.db, locks, s.log ++ log⟩ := by
  refine ⟨h.absent, ?_⟩
  rw [logged_append]
  exact isSome_or h.wrote

theorem TaskNew.seen {taskId : String} (h : TaskNew taskId s) :
    (s.view.tasks.get? taskId).isSome := by
  obtain ⟨row, is⟩ := Option.isSome_iff_exists.mp h.wrote
  unfold Progress.view
  rw [tasks_writeAll, is]
  rfl

theorem RootNew.seen {rootId : String} (h : RootNew rootId s) :
    (s.view.messages.get? rootId).isSome := by
  obtain ⟨row, is⟩ := Option.isSome_iff_exists.mp h.wrote
  unfold Progress.view
  rw [messages_writeAll, is]
  rfl

theorem writes_requireRoom {P : Database → Write → Prop} {goal : GoalRow} {roomId : Option String} :
    Writes P (requireRoom goal roomId) :=
  writes_bind writes_query fun _ => writes_require

theorem writes_requireTeam {P : Database → Write → Prop} {goal : GoalRow} {team : Team} :
    Writes P (requireTeam goal team) :=
  writes_bind writes_query fun _ => writes_bind writes_check fun _ => writes_check

theorem under_addDiscussion {row : DiscussionRow} (h : Calm kind s) (off : kind ≠ .answer)
    (task : TaskNew row.taskId s) (root : RootNew row.threadRootId s) (running : row.status = .running)
    (start : row.currentStep = 0) (idle : row.activeTurnId = none) :
    Tx.under assistantRely (addDiscussion row >>= fun _ => return Reply.discussion row)
      (fun _ s' => Ends kind s') s := by
  unfold addDiscussion
  rw [under_add]
  intro db step free
  have calm := h.later step
  have task' := task.later h.toOrderly step
  have root' := root.later h.toOrderly step
  rw [calm.view_discussions, List.any_eq_false] at free
  apply under_return
  refine ⟨calm.toOrderly.write trivial, .open_ (d := row) ?_ ?_ off ?_ ?_ root'.absent ?_ task'.absent
    ?_ running start idle⟩
  · have none_ : turnsOf s.log = [] := h.turns
    change turnsOf (s.log ++ [.discussion row]) = _
    rw [turnsOf_append, none_]
    rfl
  · have none_ : discussionsOf s.log = [] := h.discussions
    change discussionsOf (s.log ++ [.discussion row]) = _
    rw [discussionsOf_append, none_]
    rfl
  · rw [Table.get?_eq_none]
    intro d there same
    exact free d there (by simp [same])
  · intro d there active same
    exact free d there (by simp [active, same])
  · exact RootNew.seen root'.more
  · exact TaskNew.seen task'.more

theorem under_openDiscussion {actor : String} {goal : GoalRow} {room : RoomRow}
    {request : StartDiscussionRequest} (h : Calm kind s) (off : kind ≠ .answer) :
    Tx.under assistantRely (openDiscussion actor goal room request) (fun _ s' => Ends kind s') s := by
  unfold openDiscussion
  apply under_seq (h.under writes_now)
  intro at_ s₁ calm
  apply under_seq (calm.under writes_generate)
  intro id s₂ calm
  apply under_seq (calm.under writes_generate)
  intro taskId s₃ calm
  apply under_seq (calm.under writes_generate)
  intro rootId s₄ calm
  apply under_seq (calm.under writes_generate)
  intro body s₅ calm
  unfold addTask
  rw [under_add]
  intro db step free
  have calm₁ := calm.later step
  have calm₂ := calm₁.write
    (w := .task { id := taskId, projectId := goal.projectId, roomId := room.id }) ⟨trivial, rfl, rfl⟩
  have task : TaskNew taskId ⟨db, s₅.locks ++ Tables.guards Database (Write.task
      { id := taskId, projectId := goal.projectId, roomId := room.id }), s₅.log ++ [.task
      { id := taskId, projectId := goal.projectId, roomId := room.id }]⟩ := by
    rw [← Bool.not_eq_true, Option.not_isSome_iff_eq_none] at free
    unfold Progress.view at free
    rw [tasks_writeAll, Option.or_eq_none_iff] at free
    refine ⟨free.2, ?_⟩
    rw [logged_append]
    simp [logged, Write.task?, Option.filter]
  unfold addMessage
  rw [under_add]
  intro db' step' free'
  have calm₃ := calm₂.later step'
  have task' := task.later calm₂.toOrderly step'
  have absent := free'
  rw [← Bool.not_eq_true, Option.not_isSome_iff_eq_none] at absent
  have calm₄ := calm₃.write (w := .message (rootMessage rootId actor taskId room body))
    ⟨Or.inr ⟨absent, fun _ => rfl⟩, rfl, rfl⟩
  unfold Progress.view at absent
  rw [messages_writeAll, Option.or_eq_none_iff] at absent
  have root : RootNew rootId ⟨db', (s₅.locks ++ Tables.guards Database (Write.task
      { id := taskId, projectId := goal.projectId, roomId := room.id })) ++
      Tables.guards Database (Write.message (rootMessage rootId actor taskId room body)),
      (s₅.log ++ [.task { id := taskId, projectId := goal.projectId, roomId := room.id }]) ++
      [.message (rootMessage rootId actor taskId room body)]⟩ := by
    refine ⟨absent.2, ?_⟩
    rw [logged_append]
    simp [logged, Write.message?, Option.filter, rootMessage]
  exact under_addDiscussion calm₄ off task'.more root rfl rfl rfl

theorem under_startDiscussion {actor goalId : String} {request : StartDiscussionRequest}
    (h : Calm kind s) (off : kind ≠ .answer) :
    Tx.under assistantRely (startDiscussion actor goalId request) (fun _ s' => Ends kind s') s := by
  unfold startDiscussion
  apply under_seq (h.under writes_mayRefuse)
  intro _ s₁ calm
  apply under_seq (calm.under writes_queryForUpdate)
  intro goals s₂ calm
  rw [under_require]
  intro goal _
  rw [under_check]
  intro _
  apply under_seq (calm.under writes_query)
  intro ongoing s₃ calm
  rw [under_check]
  intro _
  apply under_seq (calm.under writes_requireRoom)
  intro room s₄ calm
  apply under_seq (calm.under writes_requireTeam)
  intro _ s₅ calm
  exact under_openDiscussion calm off

end Artoo.Assistants
