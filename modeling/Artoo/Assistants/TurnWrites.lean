import Artoo.Assistants.Commits

/-! The effects of the transactions on turns. -/
namespace Artoo.Assistants
open Artoo.Lib Tx Artoo.Domain
open Artoo.Server (TurnStatus)

variable {α β : Type} {P : Database → Write → Prop} {db : Database} {s : Standing} {kind : Kind}
  {row row' : TurnRow}

/-! ## Before the first turn or discussion -/

/-- No turn and no discussion is written yet. -/
structure Calm (kind : Kind) (s : Standing) : Prop extends Orderly kind s where
  turns : turnsOf s.log = []
  discussions : discussionsOf s.log = []

/-- A write of another table. -/
def Mild (kind : Kind) (view : Database) (w : Write) : Prop :=
  Tends kind view w ∧ w.turn? = none ∧ w.discussion? = none

theorem Calm.start (sound : Sound db) : Calm kind ⟨db, [], []⟩ := ⟨.start sound, rfl, rfl⟩

theorem Calm.later (h : Calm kind s) (step : assistantRely.rel s.locks s.db db) :
    Calm kind (s.at_ db) :=
  ⟨h.toOrderly.later step, h.turns, h.discussions⟩

theorem Orderly.lock (h : Orderly kind s) {more : List Lock} :
    Orderly kind { s with locks := s.locks ++ more } :=
  ⟨h.sound, fun x member k guard => List.mem_append_left _ (h.guarded x member k guard), h.unfenced,
    h.messages⟩

theorem Calm.lock (h : Calm kind s) {more : List Lock} :
    Calm kind { s with locks := s.locks ++ more } :=
  ⟨h.toOrderly.lock, h.turns, h.discussions⟩

theorem turnsOf_none {log : List Write} (h : ∀ w ∈ log, w.turn? = none) : turnsOf log = [] :=
  List.filterMap_eq_nil_iff.mpr h

theorem discussionsOf_none {log : List Write} (h : ∀ w ∈ log, w.discussion? = none) :
    discussionsOf log = [] :=
  List.filterMap_eq_nil_iff.mpr h

theorem Calm.after (h : Calm kind s) {locks : Database → List Lock} {writes : Database → List Write}
    (mild : ∀ w ∈ writes s.view, Mild kind s.view w) : Calm kind (s.after locks writes) := by
  refine ⟨h.toOrderly.after fun w there => (mild w there).1, ?_, ?_⟩
  · rw [Progress.after_log, turnsOf_append, h.turns, turnsOf_none fun w there => (mild w there).2.1]
    rfl
  · rw [Progress.after_log, discussionsOf_append, h.discussions,
      discussionsOf_none fun w there => (mild w there).2.2]
    rfl

theorem Orderly.write (h : Orderly kind s) {w : Write} (tends : Tends kind s.view w) :
    Orderly kind ⟨s.db, s.locks ++ Tables.guards Database w, s.log ++ [w]⟩ := by
  rw [← Progress.after_single]
  apply h.after
  intro w' there
  cases List.mem_singleton.mp there
  exact tends

theorem Calm.write (h : Calm kind s) {w : Write} (mild : Mild kind s.view w) :
    Calm kind ⟨s.db, s.locks ++ Tables.guards Database w, s.log ++ [w]⟩ := by
  rw [← Progress.after_single]
  apply h.after
  intro w' there
  cases List.mem_singleton.mp there
  exact mild

theorem Calm.turn_written (h : Calm kind s) {t : TurnRow} :
    turnsOf (s.log ++ [.turn t]) = [t] ∧ discussionsOf (s.log ++ [.turn t]) = [] := by
  rw [turnsOf_append, discussionsOf_append, h.turns, h.discussions]
  exact ⟨rfl, rfl⟩

/-- A program that writes other tables keeps what commits of others, more locks and more writes
keep. -/
theorem Calm.keeps {p : Txn α} {K : Standing → Prop} (mild : Writes (Mild kind) p)
    (later : ∀ s db, Calm kind s → assistantRely.rel s.locks s.db db → K s → K (s.at_ db))
    (more : ∀ s locks log, K s → K ⟨s.db, s.locks ++ locks, s.log ++ log⟩) (h : Calm kind s) (k : K s) :
    under assistantRely p (fun _ s' => Calm kind s' ∧ K s') s := by
  apply Writes.under mild (I := fun s => Calm kind s ∧ K s) _ _ ⟨h, k⟩
  · exact fun s db both step => ⟨both.1.later step, later s db both.1 step both.2⟩
  · exact fun s locks writes both mild => ⟨both.1.after mild, more s _ _ both.2⟩

theorem Calm.under {p : Txn α} (mild : Writes (Mild kind) p) (h : Calm kind s) :
    under assistantRely p (fun _ s' => Calm kind s') s :=
  under_mono (Calm.keeps (K := fun _ => True) mild (fun _ _ _ _ _ => trivial) (fun _ _ _ _ => trivial)
    h trivial) fun _ _ both => both.1

theorem Calm.view_turns (h : Calm kind s) : s.view.turns = s.db.turns := by
  unfold Progress.view
  rw [turns_writeAll, h.turns]
  rfl

theorem Calm.view_discussions (h : Calm kind s) : s.view.discussions = s.db.discussions := by
  unfold Progress.view
  rw [discussions_writeAll, h.discussions]
  rfl

theorem Orderly.no_answers (h : Orderly kind s) (off : kind ≠ .answer) {id : String} {m : MessageRow}
    (is : logged MessageRow.id Write.message? s.log id = some m)
    (absent : s.db.messages.get? id = none) : m.answers = none := by
  rcases h.messages id m is with ⟨old, found, _⟩ | ⟨_, none_⟩
  · rw [absent] at found
    cases found
  · exact none_ off

/-- Nothing happens to the turns and the discussions. -/
theorem Calm.quiet (h : Calm kind s) (off : kind ≠ .answer) : Effect kind s :=
  .quiet h.turns h.discussions fun _ _ is absent => h.no_answers off is absent

/-- A commit that keeps the order, and its effect. -/
structure Ends (kind : Kind) (s : Standing) : Prop where
  orderly : Orderly kind s
  effect : Effect kind s

theorem Ends.later (h : Ends kind s) (step : assistantRely.rel s.locks s.db db) :
    Ends kind (s.at_ db) :=
  ⟨h.orderly.later step, h.effect.later h.orderly step⟩

theorem Calm.ends (h : Calm kind s) (off : kind ≠ .answer) : Ends kind s :=
  ⟨h.toOrderly, h.quiet off⟩

theorem under_return {a : α} (h : Ends kind s) :
    under assistantRely (return a : Txn α) (fun _ s' => Ends kind s') s :=
  fun _ step => h.later step

/-! ## One turn -/

/-- The row of a turn that is locked. -/
structure Held (row : TurnRow) (s : Standing) : Prop where
  lock : .turn row.id ∈ s.locks
  found : s.db.turns.get? row.id = some row

theorem Held.later (h : Held row s) (o : Orderly kind s) (step : assistantRely.rel s.locks s.db db) :
    Held row (s.at_ db) :=
  ⟨h.lock, (o.same step h.lock).1.trans h.found⟩

theorem Held.more (h : Held row s) {locks : List Lock} {log : List Write} :
    Held row ⟨s.db, s.locks ++ locks, log⟩ :=
  ⟨List.mem_append_left _ h.lock, h.found⟩

/-- A program that writes other tables leaves the locked row. -/
theorem Calm.holds {p : Txn α} (mild : Writes (Mild kind) p) (h : Calm kind s) (held : Held row s) :
    Tx.under assistantRely p (fun _ s' => Calm kind s' ∧ Held row s') s :=
  h.keeps mild (fun _ _ calm step held => held.later calm.toOrderly step)
    (fun _ _ _ held => held.more) held

/-- A turn as it was read for update. -/
theorem under_lockTurn {id : String} {k : List TurnRow → Txn β} {post : β → Standing → Prop}
    (h : Calm kind s) (none_ : ∀ s', Calm kind s' → Tx.under assistantRely (k []) post s')
    (some_ : ∀ row s', row.id = id → Calm kind s' → Held row s' →
      Tx.under assistantRely (k [row]) post s') :
    Tx.under assistantRely (lockTurn id >>= k) post s := by
  unfold lockTurn
  rw [under_queryForUpdate]
  intro db step
  have calm := h.later step
  rw [calm.view_turns]
  cases found : db.turns.get? id with
  | none =>
    rw [Progress.at_db, found]
    exact none_ _ calm.lock
  | some row =>
    have key : row.id = id := Table.key_of_get? found
    rw [Progress.at_db, found]
    refine some_ row _ key calm.lock ⟨?_, key ▸ found⟩
    simp

/-- The row of a turn is written. -/
structure Wrote (kind : Kind) (row row' : TurnRow) (s : Standing) : Prop extends Orderly kind s where
  turns : turnsOf s.log = [row']
  discussions : discussionsOf s.log = []
  found : s.db.turns.get? row.id = some row

theorem under_setTurn {set : TurnRow → TurnRow} {k : Unit → Txn β} {post : β → Standing → Prop}
    (h : Calm kind s) (held : Held row s)
    (rest : ∀ s', Wrote kind row (set row) s' → s'.log = s.log ++ [.turn (set row)] →
      assistantRely.rel s.locks s.db s'.db → Tx.under assistantRely (k ()) post s') :
    Tx.under assistantRely (setTurn row.id set >>= k) post s := by
  unfold setTurn
  rw [bind_assoc, under_change]
  intro db step
  have calm := h.later step
  have held' := held.later h.toOrderly step
  rw [calm.view_turns, held'.found]
  refine rest _ ?_ rfl step
  have orderly : Orderly kind ((s.at_ db).after (fun _ => []) fun _ => [.turn (set row)]) := by
    apply calm.toOrderly.after
    intro w there
    cases List.mem_singleton.mp there
    trivial
  exact ⟨orderly, h.turn_written.1, h.turn_written.2, held'.found⟩

theorem Wrote.touch (h : Wrote kind row row' s) (off : kind ≠ .answer) (touch : Touch kind row row') :
    Ends kind s :=
  ⟨h.toOrderly, .touch h.turns h.discussions off h.found touch⟩

theorem under_touch {set : TurnRow → TurnRow} (h : Calm kind s) (held : Held row s)
    (off : kind ≠ .answer) (touch : Touch kind row (set row)) :
    Tx.under assistantRely (setTurn row.id set) (fun _ s' => Ends kind s') s := by
  rw [← bind_pure (setTurn row.id set)]
  apply under_setTurn h held
  exact fun s' wrote _ _ => under_return (wrote.touch off touch)

theorem outcomeOf_status {status : TurnStatus} {error : Option String} (off : status ≠ .running) :
    (outcomeOf row status error).1 ≠ .running ∧
      ((outcomeOf row status error).1 = .completed → row.responseMessageId.isSome) := by
  unfold outcomeOf
  split
  · exact ⟨fun is => (nomatch is), fun is => (nomatch is)⟩
  · rename_i more
    refine ⟨off, fun is => ?_⟩
    change status = .completed at is
    cases answer : row.responseMessageId with
    | some m => rfl
    | none => simp [is, answer] at more

theorem under_changeTurn {id : String} {status : TurnStatus} {error expected : Option String}
    (h : Calm kind s) (off : kind ≠ .answer) (other : status ≠ .running) :
    Tx.under assistantRely (changeTurn id status error expected) (fun _ s' => Ends kind s') s := by
  unfold changeTurn
  apply under_lockTurn h
  · exact fun s' calm => under_return (calm.ends off)
  · intro row s' key calm held
    cases wanted : Option.filter (fun row : TurnRow => row.pending && row.runId == expected)
        [row].head? with
    | none => exact under_return (calm.ends off)
    | some row₀ =>
      obtain ⟨is, conditions⟩ := Option.filter_eq_some_iff.mp wanted
      cases is
      have pending : row.pending := (Bool.and_eq_true_iff.mp conditions).1
      have outcome : (outcomeOf row status error).1 ≠ .running ∧
          ((outcomeOf row status error).1 = .completed → row.responseMessageId.isSome) :=
        outcomeOf_status other
      dsimp only
      split
      · exact under_return (calm.ends off)
      · rw [← key]
        exact under_touch calm held off (.settle pending outcome.1 outcome.2)

/-! ## Programs that write other tables -/

theorem writes_generate : Writes P generate := writes_bind writes_drawn fun _ => writes_done

theorem writes_now : Writes P now := writes_bind writes_drawn fun _ => writes_done

theorem writes_mayRefuse : Writes P mayRefuse := by
  apply writes_bind writes_drawn
  intro draw
  cases draw.refusal <;> trivial

theorem writes_requireTurn {id : String} : Writes P (requireTurn id) :=
  writes_bind writes_query fun _ => writes_require

theorem writes_lockTask {id : String} : Writes P (lockTask id) := writes_queryForUpdate

theorem mild_addTask {row : TaskRow} : Writes (Mild kind) (addTask row) :=
  writes_add fun _ _ => ⟨trivial, rfl, rfl⟩

theorem mild_addRun {row : RunRow} : Writes (Mild kind) (addRun row) :=
  writes_add fun _ _ => ⟨trivial, rfl, rfl⟩

/-- A message is new, and an answer only where answers are written. -/
theorem mild_addMessage {row : MessageRow} (off : kind ≠ .answer → row.answers = none) :
    Writes (Mild kind) (addMessage row) := by
  apply writes_add
  intro view free
  refine ⟨Or.inr ⟨?_, off⟩, rfl, rfl⟩
  rwa [← Bool.not_eq_true, Option.not_isSome_iff_eq_none] at free

theorem mild_countReply {rootId : Option String} : Writes (Mild kind) (countReply rootId) := by
  refine writes_bind (writes_change fun view row there => ?_) fun _ => writes_done
  rw [Option.mem_toList, Option.bind_eq_some_iff] at there
  obtain ⟨root, _, found⟩ := there
  have key : row.id = root := Table.key_of_get? found
  exact ⟨Or.inl ⟨row, key ▸ found, rfl⟩, rfl, rfl⟩

theorem mild_transitionTask {id : String} {source : TaskStatus} {trigger : TaskTrigger} :
    Writes (Mild kind) (transitionTask id source trigger) := by
  refine writes_bind writes_require fun _ => writes_bind (writes_change fun _ _ _ => ?_) fun _ =>
    writes_done
  exact ⟨trivial, rfl, rfl⟩

theorem mild_transitionRun {id : String} {source : RunStatus} {trigger : RunTrigger}
    {reason : Option String} : Writes (Mild kind) (transitionRun id source trigger reason) := by
  refine writes_bind writes_require fun _ => writes_bind (writes_change fun _ _ _ => ?_) fun _ =>
    writes_done
  exact ⟨trivial, rfl, rfl⟩

theorem mild_markReady {id : String} : Writes (Mild kind) (markReady id) := by
  refine writes_bind writes_query fun _ => writes_bind writes_require fun _ =>
    writes_bind writes_mayRefuse fun _ => writes_bind writes_check fun _ => ?_
  exact writes_bind mild_transitionTask fun _ => writes_done

theorem mild_retryTask {id : String} : Writes (Mild kind) (retryTask id) := by
  refine writes_bind writes_query fun _ => writes_bind writes_require fun _ =>
    writes_bind writes_check fun _ => writes_bind writes_mayRefuse fun _ => ?_
  exact writes_bind mild_transitionTask fun _ => writes_done

theorem mild_requestChanges {id : String} : Writes (Mild kind) (requestChanges id) := by
  refine writes_bind writes_lockTask fun _ => writes_bind writes_require fun _ =>
    writes_bind writes_check fun _ => writes_bind writes_mayRefuse fun _ => ?_
  exact writes_bind mild_transitionTask fun _ => writes_check

theorem writes_buildRunContextPack {id : String} :
    Writes (Mild kind) (buildRunContextPack id) := by
  refine writes_bind writes_query fun _ => writes_bind writes_now fun _ => ?_
  exact writes_bind writes_check fun _ => writes_mayRefuse

theorem mild_cancelRun {id : String} : Writes (Mild kind) (cancelRun id) := by
  refine writes_bind writes_query fun _ => writes_bind writes_require fun current => ?_
  split
  · exact writes_done
  · refine writes_bind writes_check fun _ => writes_bind writes_mayRefuse fun _ =>
      writes_bind writes_query fun _ => writes_bind writes_require fun run => ?_
    split
    · exact writes_done
    · refine writes_bind mild_transitionRun fun _ => writes_bind writes_query fun task => ?_
      cases Option.filter (fun t : TaskRow => canTransitionTask t.status .cancel) task with
      | none => exact writes_done
      | some task => exact writes_bind mild_transitionTask fun _ => writes_done

theorem mild_assignTask {id : String} : Writes (Mild kind) (assignTask id none) := by
  refine writes_bind writes_mayRefuse fun _ => writes_bind writes_lockTask fun _ =>
    writes_bind writes_require fun _ => writes_bind writes_check fun _ =>
    writes_bind writes_done fun _ => writes_bind writes_mayRefuse fun _ =>
    writes_bind writes_generate fun _ => writes_bind writes_generate fun _ =>
    writes_bind mild_transitionTask fun _ => writes_bind writes_check fun _ => ?_
  refine writes_bind (writes_bind writes_buildRunContextPack fun _ => ?_) fun _ => writes_done
  exact writes_bind mild_addRun fun _ => writes_done

theorem mild_postMessage {row : MessageRow} : Writes (Mild kind) (postMessage row) :=
  writes_bind (mild_addMessage fun _ => rfl) fun _ => mild_countReply

theorem mild_save {w : Write} (mild : ∀ view, Mild kind view w) : Writes (Mild kind) (save w) :=
  writes_bind (writes_change fun view _ _ => mild view) fun _ => writes_done

/-! ## Cancellation and retry -/

/-- Afterwards the turn is settled. -/
theorem under_cancelPending {turn : TurnRow} (h : Calm kind s) (off : kind ≠ .answer) :
    Tx.under assistantRely (cancelPending turn) (fun _ s' => Ends kind s' ∧
      ∀ current, s'.view.turns.get? turn.id = some current → current.pending = false) s := by
  unfold cancelPending
  apply under_seq (h.under writes_lockTask)
  intro _ s₁ calm
  apply under_lockTurn calm
  · exact fun s' _ => trivial
  · intro row s₂ key calm held
    change Tx.under assistantRely (Tx.check _ _ >>= _) _ _
    rw [under_check]
    intro _
    split
    · rename_i pending
      rw [← key, ← bind_pure (setTurn row.id _)]
      apply under_setTurn calm held
      intro s₃ wrote _ _ db step
      have ends := wrote.touch off (.cancel pending)
      refine ⟨ends.later step, fun current found => ?_⟩
      have view : (s₃.at_ db).view.turns.get? row.id = some row.cancel := by
        unfold Progress.view
        rw [turns_writeAll, Progress.at_log, wrote.turns]
        exact Table.get?_put_self
      rw [view] at found
      cases found
      rfl
    · rename_i settled
      intro db step
      have calm' := calm.later step
      refine ⟨calm'.ends off, fun current found => ?_⟩
      rw [calm'.view_turns, ← key, (held.later calm.toOrderly step).found] at found
      cases found
      exact Bool.eq_false_iff.mpr settled

theorem writes_refuseUnsettled : Writes P (refuseUnsettled row) :=
  writes_bind writes_check fun _ => writes_bind writes_query fun _ => writes_bind writes_check fun _ =>
    writes_bind writes_query fun _ => writes_check

theorem under_retryAssistantTurn {id : String} (h : Calm kind s) (is : kind = .retry id) :
    Tx.under assistantRely (retryAssistantTurn id) (fun _ s' => Ends kind s') s := by
  have off : kind ≠ .answer := by simp [is]
  unfold retryAssistantTurn
  apply under_seq (h.under writes_requireTurn)
  intro original s₁ calm
  apply under_seq (calm.under writes_mayRefuse)
  intro _ s₂ calm
  apply under_seq (calm.under writes_lockTask)
  intro _ s₃ calm
  apply under_lockTurn calm
  · exact fun s' _ => trivial
  · intro row s₄ key calm held
    change Tx.under assistantRely (refuseUnsettled row >>= _) _ _
    cases settled : (row.status != .waiting && row.status != .failed) with
    | true =>
      unfold refuseUnsettled
      rw [settled]
      trivial
    | false =>
      apply under_seq (calm.holds writes_refuseUnsettled held)
      intro _ s₅ both
      have source : row.status = .waiting ∨ row.status = .failed := by
        cases status : row.status <;> simp [status] at settled ⊢
      rw [← key]
      exact under_touch both.1 both.2 off (.retry source (key ▸ is))

/-! ## Dispatch -/

theorem under_claimTurn {taskId turnId : String} (h : Calm kind s) :
    Tx.under assistantRely (claimTurn taskId turnId) (fun turn s' => (Calm kind s' ∧ Held turn s') ∧
      turn.id = turnId ∧ turn.taskId = taskId ∧ turn.unbound) s := by
  unfold claimTurn
  rw [under_queryForUpdate]
  intro db step
  have calm := h.later step
  rw [under_require]
  intro turn found
  rw [calm.view_turns, Progress.at_db] at found
  rw [calm.view_turns, Progress.at_db]
  cases is : Option.filter (fun t : TurnRow => t.taskId == taskId) (db.turns.get? turnId) with
  | none =>
    rw [is] at found
    cases found
  | some row =>
    rw [is] at found
    cases found
    obtain ⟨there, task⟩ := Option.filter_eq_some_iff.mp is
    have key : turn.id = turnId := Table.key_of_get? there
    have held : Held turn ⟨db, s.locks ++ (some turn).toList.map fun row => .turn row.id, s.log⟩ :=
      ⟨by simp, key ▸ there⟩
    rw [under_check]
    intro free
    have unbound : turn.unbound := by
      rw [Bool.or_eq_false_iff] at free
      unfold TurnRow.unbound TurnRow.pending
      rw [Bool.and_eq_true, Option.isNone_iff_eq_none]
      refine ⟨?_, by simpa using free.2⟩
      cases status : turn.status <;> simp [status, pendingStatuses] at free ⊢
    apply under_seq (calm.lock.holds writes_mayRefuse held)
    intro _ s₁ both
    rw [under_query]
    intro db₁ step₁
    rw [under_check]
    intro _ db₂ step₂
    have calm₁ := both.1.later step₁
    have held₁ := both.2.later both.1.toOrderly step₁
    exact ⟨⟨calm₁.later step₂, held₁.later calm₁.toOrderly step₂⟩, key, by simpa using task, unbound⟩

theorem admitted_of_running {taskId : String} (sound : Sound db)
    (found : db.turns.get? row.id = some row) (task : row.taskId = taskId) {at_ : Int}
    (runs : ((db.discussions.rows.find? (·.taskId == taskId)).any fun d =>
      d.status != .running || d.deadlineAt ≤ at_) = false) : Admitted db row := by
  intro d there thread _ k fence
  have same := sound.discussions.task_eq there (Table.mem_of_get? found) thread
  rw [task] at same
  obtain ⟨e, first⟩ : ∃ e, db.discussions.rows.find? (·.taskId == taskId) = some e := by
    rw [← Option.isSome_iff_exists, List.find?_isSome]
    exact ⟨d, there, by simp [same]⟩
  have there' : e ∈ db.discussions := List.mem_of_find?_eq_some first
  have task' : e.taskId = taskId := by simpa using List.find?_some first
  have one : d = e := Table.key_inj there there'
    (sound.discussions.apart d there e there' (Or.inr (same.symm.trans task'.symm)))
  obtain ⟨d', found', off⟩ := sound.fences.stopped d.id k fence
  rw [Table.get?_of_mem there] at found'
  cases found'
  rw [first, ← one] at runs
  simp [off] at runs

/-- A turn of a discussion is admitted only while the discussion runs. -/
theorem under_buildRunContextPack {taskId : String} (h : Calm kind s) (held : Held row s)
    (task : row.taskId = taskId) :
    Tx.under assistantRely (buildRunContextPack taskId)
      (fun _ s' => Calm kind s' ∧ Held row s' ∧ Admitted s'.db row) s := by
  unfold buildRunContextPack
  rw [under_query]
  intro db step
  have calm := h.later step
  have held := held.later h.toOrderly step
  rw [calm.view_discussions]
  unfold now
  rw [bind_assoc, under_drawn]
  intro draw
  rw [pure_bind, under_check]
  intro runs
  have admitted : Admitted db row := admitted_of_running calm.sound held.found task runs
  apply calm.keeps writes_mayRefuse (K := fun s => Held row s ∧ Admitted s.db row) _ _ ⟨held, admitted⟩
  · intro s db calm step both
    exact ⟨both.1.later calm.toOrderly step,
      both.2.later calm.toOrderly step both.1.lock both.1.found⟩
  · exact fun s locks log both => ⟨both.1.more, both.2⟩

theorem alone_of_otherRuns (found : db.turns.get? row.id = some row)
    (none_ : otherRuns row.id db = false) :
    ∀ u ∈ db.turns, u.status = .running → u.conversation = row.conversation → u.id = row.id := by
  intro u there running same
  unfold otherRuns at none_
  rw [found, Option.any_some, List.any_eq_false] at none_
  by_contra other
  exact none_ u there (by simp [other, running, same])

theorem under_startTurn {run : RunRow} (h : Calm kind s) (held : Held row s)
    (admitted : Admitted s.db row) (unbound : row.unbound) (is : kind = .dispatch row.id)
    (fresh : s.db.runs.get? run.id = none) (started : .run run ∈ s.log) :
    Tx.under assistantRely (startTurn row.id run.id) (fun _ s' => Ends kind s') s := by
  intro db step
  have calm := h.later step
  have held' := held.later h.toOrderly step
  have admitted' := admitted.later h.toOrderly step held.lock held.found
  have same : db.runs.get? run.id = s.db.runs.get? run.id :=
    h.toOrderly.same step (k := .run run.id) (h.guarded _ started _ List.mem_cons_self)
  have others : otherRuns row.id (s.at_ db).view = otherRuns row.id db := by
    unfold otherRuns
    rw [calm.view_turns]
    rfl
  dsimp only
  rw [others]
  cases none_ : otherRuns row.id db with
  | true => trivial
  | false =>
    have alone := alone_of_otherRuns held'.found none_
    have writes : (if otherRuns row.id (s.at_ db).view then [] else
        ((s.at_ db).view.turns.get? row.id).toList.map fun row => Write.turn (row.start run.id)) =
        [.turn (row.start run.id)] := by
      rw [others, none_, calm.view_turns, held'.found]
      rfl
    rw [Progress.after_writes writes]
    have orderly : Orderly kind
        ((s.at_ db).after (fun _ => []) fun _ => [.turn (row.start run.id)]) := by
      apply calm.toOrderly.after
      intro w there
      cases List.mem_singleton.mp there
      trivial
    intro db' step'
    apply Ends.later _ step'
    exact ⟨orderly, .dispatch h.turn_written.1 h.turn_written.2 is held'.found unbound alone
      (same.trans fresh) (List.mem_append_left _ started) admitted'⟩

theorem under_assignTask {taskId turnId : String} (h : Calm kind s) (is : kind = .dispatch turnId) :
    Tx.under assistantRely (assignTask taskId (some turnId)) (fun _ s' => Ends kind s') s := by
  unfold assignTask
  apply under_seq (h.under writes_mayRefuse)
  intro _ s₁ calm
  apply under_seq (calm.under writes_lockTask)
  intro rows s₂ calm
  rw [under_require]
  intro task _
  rw [under_check]
  intro _
  unfold claimFor
  rw [bind_assoc]
  apply under_seq (under_claimTurn calm)
  rintro row s₃ ⟨⟨calm, held⟩, rfl, rfl, unbound⟩
  rw [pure_bind]
  apply under_seq (calm.holds writes_mayRefuse held)
  rintro _ s₄ ⟨calm, held⟩
  apply under_seq (calm.holds writes_generate held)
  rintro selected s₅ ⟨calm, held⟩
  apply under_seq (calm.holds writes_generate held)
  rintro runId s₆ ⟨calm, held⟩
  apply under_seq (calm.holds mild_transitionTask held)
  rintro changed s₇ ⟨calm, held⟩
  rw [under_check]
  intro _
  rw [under_map]
  unfold startRun
  apply under_seq (under_buildRunContextPack calm held rfl)
  rintro _ s₈ ⟨calm, held, admitted⟩
  unfold addRun
  rw [under_add]
  intro db step free
  have calm' := calm.later step
  have held' := held.later calm.toOrderly step
  have admitted' := admitted.later calm.toOrderly step held.lock held.found
  have fresh : db.runs.get? runId = none := by
    rw [← Bool.not_eq_true, Option.not_isSome_iff_eq_none] at free
    unfold Progress.view at free
    rw [runs_writeAll, Option.or_eq_none_iff] at free
    exact free.2
  have calm'' := calm'.write (w := .run (runOf runId row.taskId selected)) ⟨trivial, rfl, rfl⟩
  have started : Write.run (runOf runId row.taskId selected) ∈
      s₈.log ++ [.run (runOf runId row.taskId selected)] :=
    List.mem_append_right _ (List.mem_singleton_self _)
  have fresh' : db.runs.get? (runOf runId row.taskId selected).id = none := fresh
  exact (under_startTurn calm'' held'.more admitted' unbound is fresh' started :)

/-! ## Answers -/

theorem Orderly.reads {p : Txn α} (reads : Reads p) (h : Orderly kind s) (empty : s.log = []) :
    Tx.under assistantRely p (fun _ s' => Orderly kind s' ∧ s'.log = []) s := by
  apply Reads.under (I := fun s => Orderly kind s ∧ s.log = []) reads _ _ ⟨h, empty⟩
  · exact fun s db both step => ⟨both.1.later step, both.2⟩
  · exact fun s more both => ⟨both.1.lock, both.2⟩

theorem Orderly.calm (h : Orderly kind s) (empty : s.log = []) : Calm kind s := by
  refine ⟨h, ?_, ?_⟩
  · rw [empty]
    rfl
  · rw [empty]
    rfl

theorem Orderly.nothing (h : Orderly kind s) (empty : s.log = []) : Ends kind s := by
  refine ⟨h, .quiet (h.calm empty).turns (h.calm empty).discussions fun id m is => ?_⟩
  rw [empty] at is
  cases is

/-- The answer of a turn is written; later writes only count replies. -/
structure Answering (row : TurnRow) (m : MessageRow) (s : Standing) : Prop
    extends Orderly .answer s where
  turns : turnsOf s.log = [row.answer m.id]
  discussions : discussionsOf s.log = []
  found : s.db.turns.get? row.id = some row
  wrote : (logged MessageRow.id Write.message? s.log m.id).isSome
  fresh : s.db.messages.get? m.id = none
  new : ∀ id m', logged MessageRow.id Write.message? s.log id = some m' →
    s.db.messages.get? id = none → id = m.id ∧ m'.answers = m.answers

variable {m : MessageRow}

theorem Answering.later (h : Answering row m s) (step : assistantRely.rel s.locks s.db db) :
    Answering row m (s.at_ db) := by
  have there : row.answer m.id ∈ turnsOf s.log := h.turns ▸ List.mem_singleton_self _
  have same : ∀ id m', logged MessageRow.id Write.message? s.log id = some m' →
      db.messages.get? id = s.db.messages.get? id := fun id m' is =>
    h.toOrderly.same step (h.toOrderly.message_held is)
  obtain ⟨m', wrote⟩ := Option.isSome_iff_exists.mp h.wrote
  exact ⟨h.toOrderly.later step, h.turns, h.discussions,
    (h.toOrderly.turn_same step there).trans h.found, h.wrote, (same _ _ wrote).trans h.fresh,
    fun id m' is absent => h.new id m' is ((same id m' is).symm.trans absent)⟩

/-- A message that is there, with the same answer. -/
def Counting (view : Database) (w : Write) : Prop :=
  ∃ m' old, w = .message m' ∧ view.messages.get? m'.id = some old ∧ m'.answers = old.answers

theorem counting_countReply {rootId : Option String} : Writes Counting (countReply rootId) := by
  refine writes_bind (writes_change fun view row there => ?_) fun _ => writes_done
  rw [Option.mem_toList, Option.bind_eq_some_iff] at there
  obtain ⟨root, _, found⟩ := there
  have key : row.id = root := Table.key_of_get? found
  exact ⟨_, row, rfl, key ▸ found, rfl⟩

theorem Answering.after (h : Answering row m s) {locks : Database → List Lock}
    {writes : Database → List Write} (counts : ∀ w ∈ writes s.view, Counting s.view w) :
    Answering row m (s.after locks writes) := by
  have shape : ∀ w ∈ writes s.view, w.turn? = none ∧ w.discussion? = none := by
    intro w there
    obtain ⟨m', _, rfl, _⟩ := counts w there
    exact ⟨rfl, rfl⟩
  constructor
  case toOrderly =>
    apply h.toOrderly.after
    intro w there
    obtain ⟨m', old, rfl, found, same⟩ := counts w there
    exact Or.inl ⟨old, found, same⟩
  case turns =>
    rw [Progress.after_log, turnsOf_append, h.turns, turnsOf_none fun w there => (shape w there).1]
    rfl
  case discussions =>
    rw [Progress.after_log, discussionsOf_append, h.discussions,
      discussionsOf_none fun w there => (shape w there).2]
    rfl
  case found => exact h.found
  case wrote =>
    rw [Progress.after_log, logged_append]
    exact isSome_or h.wrote
  case fresh => exact h.fresh
  case new =>
    intro id m' is absent
    rw [Progress.after_log, logged_append, Option.or_eq_some_iff] at is
    rcases is with late | ⟨_, early⟩
    · obtain ⟨rfl, w, there, wrote⟩ := logged_eq_some late
      obtain ⟨m'', old, rfl, found, same⟩ := counts w there
      cases wrote
      change s.db.messages.get? m'.id = none at absent
      unfold Progress.view at found
      rw [messages_writeAll, absent, Option.or_none] at found
      obtain ⟨key, link⟩ := h.new _ old found absent
      exact ⟨key, same.trans link⟩
    · exact h.new id m' early absent

theorem Answering.ends (h : Answering row m s) (unanswered : row.responseMessageId = none)
    {r : String} (bound : row.runId = some r) (answers : m.answers = some (row.id, r)) :
    Ends .answer s :=
  ⟨h.toOrderly, .answer h.turns h.discussions rfl h.found unanswered bound answers h.wrote h.fresh h.new⟩

theorem logged_message {id : String} {m' : MessageRow} {t : TurnRow}
    (is : logged MessageRow.id Write.message? [.message m, .turn t] id = some m') :
    m' = m ∧ m.id = id := by
  obtain ⟨key, w, there, wrote⟩ := logged_eq_some is
  rcases List.mem_cons.mp there with rfl | there
  · cases wrote
    exact ⟨rfl, key⟩
  · cases List.mem_singleton.mp there
    cases wrote

/-- The answer of a run whose turn, if it has one, is locked and unanswered. -/
theorem under_writeAnswer {messageId roomId text : String} {run : RunRow} {turn : Option TurnRow}
    (h : Orderly .answer s) (empty : s.log = [])
    (held : ∀ row, turn = some row → Held row s ∧ row.runId = some run.id ∧
      row.responseMessageId = none) :
    Tx.under assistantRely (writeAnswer messageId roomId text run turn)
      (fun _ s' => Ends .answer s') s := by
  unfold writeAnswer addMessage
  rw [under_add]
  intro db step free
  have calm := (h.calm empty).later step
  have absent : db.messages.get? messageId = none := by
    rw [← Bool.not_eq_true, Option.not_isSome_iff_eq_none] at free
    unfold Progress.view at free
    rw [messages_writeAll, Option.or_eq_none_iff] at free
    exact free.2
  have calm' := calm.write (w := .message (answerMessage messageId roomId text run turn))
    ⟨Or.inr ⟨by simpa using free, fun off => absurd rfl off⟩, rfl, rfl⟩
  cases turn with
  | none =>
    apply under_return
    refine ⟨calm'.toOrderly, .quiet calm'.turns calm'.discussions fun id m' is _ => ?_⟩
    change logged MessageRow.id Write.message? (s.log ++ [_]) id = some m' at is
    rw [empty] at is
    obtain ⟨_, w, there, wrote⟩ := logged_eq_some is
    cases List.mem_singleton.mp there
    cases wrote
    rfl
  | some row =>
    obtain ⟨held, bound, unanswered⟩ := held row rfl
    have held' : Held row ⟨db, s.locks ++ Tables.guards Database
        (.message (answerMessage messageId roomId text run (some row))),
        s.log ++ [.message (answerMessage messageId roomId text run (some row))]⟩ :=
      (held.later h step).more
    apply under_setTurn calm' held'
    intro s' wrote log step'
    have fresh : s'.db.messages.get? messageId = none := by
      have same := calm'.toOrderly.same step' (k := .message messageId)
        (List.mem_append_right _ List.mem_cons_self)
      exact Eq.trans same absent
    have log : s'.log = [.message (answerMessage messageId roomId text run (some row)),
        .turn (row.answer messageId)] := by
      rw [log]
      change (s.log ++ _) ++ _ = _
      rw [empty]
      rfl
    have answering : Answering row (answerMessage messageId roomId text run (some row)) s' := by
      refine ⟨wrote.toOrderly, wrote.turns, wrote.discussions, wrote.found, ?_, fresh, ?_⟩
      · rw [log]
        simp [logged, Write.message?, Option.filter, answerMessage]
      · intro id m' is _
        rw [log] at is
        obtain ⟨rfl, key⟩ := logged_message is
        exact ⟨key.symm, rfl⟩
    have kept : Tx.under assistantRely (countReply row.threadRootId) (fun _ s'' =>
        Answering row (answerMessage messageId roomId text run (some row)) s'') s' :=
      Writes.under counting_countReply (fun _ _ keeps step => keeps.later step)
        (fun _ _ _ keeps counts => keeps.after counts) answering
    exact under_mono kept fun _ _ answering => answering.ends unanswered bound rfl

theorem mem_head {α : Type} {a : Option α} {b : α} (h : a.toList.head? = some b) : a = some b := by
  cases a with
  | none => cases h
  | some c => exact h

theorem under_ingestAnswer {runId text : String} (sound : Sound db) :
    Tx.under assistantRely (ingestAnswer runId text) (fun _ s' => Ends .answer s') ⟨db, [], []⟩ := by
  have start : Orderly .answer ⟨db, [], []⟩ := .start sound
  unfold ingestAnswer
  rw [under_queryForUpdate]
  intro db₁ step₁
  rw [under_require]
  intro run found
  have key : run.id = runId := Table.key_of_get? (mem_head found)
  have h₁ : Orderly .answer ⟨db₁, [] ++ ((Database.runs db₁).get? runId).toList.map fun row => .run row.id, []⟩ :=
    (start.later step₁).lock
  rw [under_query]
  intro db₂ step₂
  rw [under_require]
  intro task _
  apply under_seq ((h₁.later step₂).reads writes_mayRefuse rfl)
  rintro _ s₃ ⟨h₃, empty⟩
  rw [under_queryForUpdate]
  intro db₄ step₄
  have h₄ := h₃.later step₄
  have orderly : Orderly .answer ⟨db₄, s₃.locks ++ ((s₃.at_ db₄).view.turns.select
      (·.runId == some runId)).map fun row => .turn row.id, s₃.log⟩ := h₄.lock
  have held : ∀ row, ((s₃.at_ db₄).view.turns.select (·.runId == some runId)).head? = some row →
      Held row ⟨db₄, s₃.locks ++ ((s₃.at_ db₄).view.turns.select
        (·.runId == some runId)).map fun row => .turn row.id, s₃.log⟩ ∧ row.runId = some run.id := by
    intro row first
    have there := List.mem_of_head? first
    have lock : Lock.turn row.id ∈ ((s₃.at_ db₄).view.turns.select (·.runId == some runId)).map
        fun row => Lock.turn row.id := List.mem_map_of_mem there
    rw [(h₄.calm empty).view_turns, Table.mem_select, beq_iff_eq] at there
    exact ⟨⟨List.mem_append_right _ lock, Table.get?_of_mem there.1⟩, key ▸ there.2⟩
  dsimp only
  generalize ((s₃.at_ db₄).view.turns.select (·.runId == some runId)).head? = turn at held ⊢
  split
  · exact under_return (orderly.nothing empty)
  · rename_i roomId _
    split
    · exact under_return (orderly.nothing empty)
    · rename_i wanted
      rw [Bool.or_eq_true, Bool.or_eq_true, not_or, not_or] at wanted
      unfold generate
      rw [bind_assoc, under_drawn]
      intro draw
      rw [pure_bind]
      apply under_writeAnswer orderly empty
      rintro row rfl
      refine ⟨(held row rfl).1, (held row rfl).2, ?_⟩
      simpa using wanted.1.1

end Artoo.Assistants
