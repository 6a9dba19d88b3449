import Artoo.Assistants.DiscussionWrites

/-! What a stage takes for granted, what its transaction tells the next one, and the rules of the
processes. -/
namespace Artoo.Assistants
open Artoo.Lib Tx Artoo.Domain

variable {db db' : Database} {s : Standing}

/-! ## The dispatcher's list -/

/-- Each turn of the list has its row, and of the earlier turns of its conversation each is past, is
before it in the list, or the conversation was seen. -/
structure Covered (db : Database) (left : List TurnRow) (seen : List Conversation) : Prop where
  rows : ∀ t ∈ left, ∃ row ∈ db.turns, row.origin = t.origin
  ahead : ∀ before t rest, left = before ++ t :: rest → ∀ a ∈ db.turns,
    a.conversation = t.conversation → a.position < t.position →
    a.Past ∨ (∃ b ∈ before, b.id = a.id) ∨ t.conversation ∈ seen

variable {item snapshot : TurnRow} {left : List TurnRow} {seen : List Conversation}

theorem origin_id {a b : TurnRow} (same : a.origin = b.origin) : a.id = b.id := by
  have id := congrArg TurnRow.id same
  exact id

theorem origin_conversation {a b : TurnRow} (same : a.origin = b.origin) :
    a.conversation = b.conversation ∧ a.position = b.position := by
  have conversation := congrArg TurnRow.conversation same
  have position := congrArg TurnRow.position same
  exact ⟨conversation, position⟩

theorem Covered.later (step : Later db db') (h : Covered db left seen) : Covered db' left seen := by
  constructor
  · intro t there
    obtain ⟨row, member, same⟩ := h.rows t there
    obtain ⟨row', member', later⟩ := step.turn_mem member
    exact ⟨row', member', later.origin.trans same⟩
  · intro before t rest split a ha same earlier
    cases old : db.turns.get? a.id with
    | some a' =>
      have later := step.turn_back ha old
      rw [later.conversation_eq] at same
      rw [later.position_eq] at earlier
      rcases h.ahead before t rest split a' (Table.mem_of_get? old) same earlier with
        past | ⟨b, hb, id⟩ | known
      · exact Or.inl (later.past past)
      · exact Or.inr (Or.inl ⟨b, hb, id.trans later.id_eq.symm⟩)
      · exact Or.inr (Or.inr known)
    | none =>
      have there : t ∈ left := split ▸ List.mem_append_right _ List.mem_cons_self
      obtain ⟨row, member, origin⟩ := h.rows t there
      obtain ⟨conversation, position⟩ := origin_conversation origin
      have last := step.added a ha old row member (conversation.trans same.symm)
      omega

/-- The snapshot is in order. -/
theorem covered_pending : Covered db (pendingTurns db) [] := by
  have sorted := List.pairwise_insertionSort (fun a b : TurnRow => a.position ≤ b.position)
    (db.turns.select (·.pending))
  constructor
  · intro t there
    have member := (List.mem_insertionSort _).mp (List.mem_of_mem_take there)
    exact ⟨t, (Table.mem_select.mp member).1, rfl⟩
  · intro before t rest split a ha _ earlier
    cases pending : a.pending with
    | false => exact Or.inl (Or.inl pending)
    | true =>
      right
      left
      have member : a ∈ (db.turns.select (·.pending)).insertionSort
          fun a b => a.position ≤ b.position :=
        (List.mem_insertionSort _).mpr (Table.mem_select.mpr ⟨ha, pending⟩)
      rw [← List.take_append_drop 100 ((db.turns.select (·.pending)).insertionSort _)] at member sorted
      change a ∈ pendingTurns db ++ _ at member
      change (pendingTurns db ++ _).Pairwise _ at sorted
      rw [split, List.append_assoc] at member sorted
      rcases List.mem_append.mp member with first | last
      · exact ⟨a, first, rfl⟩
      · have ordered := (List.pairwise_append.mp sorted).2.1
        rcases List.mem_cons.mp last with rfl | later
        · exact absurd earlier (Nat.lt_irrefl _)
        · have le := (List.pairwise_cons.mp ordered).1 a later
          omega

/-- The next turn of the list, as it is now. -/
theorem Covered.next (h : Covered db (snapshot :: left) seen)
    (found : db.turns.get? snapshot.id = some item)
    (drop : item.pending = false ∨ item.conversation ∈ seen) : Covered db left seen := by
  constructor
  · exact fun t there => h.rows t (List.mem_cons_of_mem _ there)
  · intro before t rest split a ha same earlier
    rcases h.ahead (snapshot :: before) t rest (by rw [split]; rfl) a ha same earlier with
      past | ⟨b, hb, id⟩ | known
    · exact Or.inl past
    · rcases List.mem_cons.mp hb with rfl | hb
      · rw [id, Table.get?_of_mem ha] at found
        cases found
        rcases drop with settled | known
        · exact Or.inl (Or.inl settled)
        · exact Or.inr (Or.inr (same ▸ known))
      · exact Or.inr (Or.inl ⟨b, hb, id⟩)
    · exact Or.inr (Or.inr known)

theorem Covered.take (h : Covered db (snapshot :: left) seen)
    (found : db.turns.get? snapshot.id = some item) :
    Covered db left (item.conversation :: seen) := by
  have wider : Covered db (snapshot :: left) (item.conversation :: seen) := by
    refine ⟨h.rows, fun before t rest split a ha same earlier => ?_⟩
    rcases h.ahead before t rest split a ha same earlier with past | passed | known
    · exact Or.inl past
    · exact Or.inr (Or.inl passed)
    · exact Or.inr (Or.inr (List.mem_cons_of_mem _ known))
  exact wider.next found (Or.inr List.mem_cons_self)

/-- The earlier turns of a turn whose conversation was not seen are past. -/
theorem Covered.first (h : Covered db (snapshot :: left) seen)
    (found : db.turns.get? snapshot.id = some item) (new : item.conversation ∉ seen) :
    Covered db [item] [] := by
  obtain ⟨row, member, origin⟩ := h.rows snapshot List.mem_cons_self
  have is : row = item := by
    rw [← origin_id origin, Table.get?_of_mem member] at found
    exact Option.some.inj found
  subst is
  obtain ⟨conversation, position⟩ := origin_conversation origin
  constructor
  · intro t there
    cases List.mem_singleton.mp there
    exact ⟨row, member, rfl⟩
  · intro before t rest split a ha same earlier
    left
    have is : t = row := by
      have there : t ∈ [row] := split ▸ List.mem_append_right _ List.mem_cons_self
      exact List.mem_singleton.mp there
    subst is
    rcases h.ahead [] snapshot left rfl a ha (same.trans conversation) (position ▸ earlier) with
      past | ⟨_, ⟨⟩, _⟩ | known
    · exact past
    · exact absurd (conversation ▸ known) new

theorem Covered.past (h : Covered db [item] []) {a : TurnRow} (there : a ∈ db.turns)
    (same : a.conversation = item.conversation) (earlier : a.position < item.position) : a.Past := by
  rcases h.ahead [] item [] rfl a there same earlier with past | ⟨_, ⟨⟩, _⟩ | ⟨⟨⟩⟩
  exact past

/-! ## Knowledge -/

/-- The discussion does not run, and its last turn is that of the row. -/
def Stopped (db : Database) (row : DiscussionRow) : Prop :=
  ∃ e, db.discussions.get? row.id = some e ∧ e.status ≠ .running ∧ e.activeTurnId = row.activeTurnId

def Concludes (db : Database) (row : DiscussionRow) : Prop :=
  ∃ e, db.discussions.get? row.id = some e ∧ e.status ≠ .running ∧ db.Quenched e

/-- A turn that is cancelled for a stopping discussion is its last one. -/
def Caller.Knows (db : Database) (turnId : String) : Caller → Prop
  | .client => True
  | .finishStopping row _ => Stopped db row ∧ row.activeTurnId = some turnId

def Stage.Knows (db : Database) : Stage → Prop
  | .item left seen | .settle _ _ left seen | .failed _ _ left seen => Covered db left seen
  | .admission turn left seen | .assign turn left seen => Covered db left seen ∧ Covered db [turn] []
  | .cancelTurn id caller => caller.Knows db id
  | .cancelRun turn _ caller | .cancelPending turn caller => caller.Knows db turn.id
  | .finishStopping row _ => row.status = .stopping → Stopped db row
  | .conclude row _ => Concludes db row
  | _ => True

theorem Stopped.later {row : DiscussionRow} (step : Later db db') (h : Stopped db row) :
    Stopped db' row := by
  obtain ⟨e, found, off, active⟩ := h
  obtain ⟨e', found', later⟩ := step.discussions _ e found
  exact ⟨e', found', (later.stopped off).1, (later.stopped off).2.2.1.trans active⟩

theorem Concludes.later {row : DiscussionRow} (step : Later db db') (sound : Sound db)
    (h : Concludes db row) : Concludes db' row := by
  obtain ⟨e, found, off, quenched⟩ := h
  have there := Table.mem_of_get? found
  obtain ⟨e', found', later⟩ := step.discussions _ e found
  refine ⟨e', found', (later.stopped off).1, ?_⟩
  refine Quenched.later step sound.fences there off ?_ quenched (Table.mem_of_get? found') later.id_eq
  intro x active
  obtain ⟨row, is, _⟩ := sound.discussions.active_found there active
  rw [is]
  rfl

theorem Caller.Knows.later {caller : Caller} {id : String} (step : Later db db')
    (h : caller.Knows db id) : caller.Knows db' id := by
  cases caller with
  | client => trivial
  | finishStopping row after => exact ⟨h.1.later step, h.2⟩

theorem Stage.Knows.later {stage : Stage} (step : Later db db') (sound : Sound db)
    (h : stage.Knows db) : stage.Knows db' := by
  cases stage with
  | item left seen => exact Covered.later step h
  | settle turn runId left seen => exact Covered.later step h
  | failed turn e left seen => exact Covered.later step h
  | admission turn left seen => exact ⟨h.1.later step, h.2.later step⟩
  | assign turn left seen => exact ⟨h.1.later step, h.2.later step⟩
  | cancelTurn id caller => exact Caller.Knows.later step h
  | cancelRun turn runId caller => exact Caller.Knows.later step h
  | cancelPending turn caller => exact Caller.Knows.later step h
  | finishStopping row after => exact fun stopping => (h stopping).later step
  | conclude row after => exact Concludes.later step sound h
  | _ => trivial

theorem nextDiscussion_knows {ids : List String} : (nextDiscussion ids).Knows db := by
  cases ids <;> trivial

theorem After.stage_knows {after : After} {row : DiscussionRow} : (after.stage row).Knows db := by
  cases after with
  | reply => trivial
  | next left => exact nextDiscussion_knows

theorem After.failed_knows {after : After} {row : DiscussionRow} {e : Failure} :
    (after.failed row e).Knows db := by
  cases after with
  | reply => cases e <;> trivial
  | next left => exact nextDiscussion_knows

theorem recover_knows {stage : Stage} {e : Failure} (h : stage.Knows db) :
    (stage.recover e).Knows db := by
  have throws : ∀ {caller : Caller}, (caller.throws e).Knows db := by
    intro caller
    cases caller with
    | client => trivial
    | finishStopping row after => exact After.failed_knows
  cases stage with
  | settle turn runId left seen => exact h
  | admission turn left seen => exact h.1
  | assign turn left seen => exact h.1
  | cancelTurn id caller => exact throws
  | cancelRun turn runId caller => exact throws
  | cancelPending turn caller => exact throws
  | finishStopping row after => exact After.failed_knows
  | conclude row after => exact After.failed_knows
  | advance id left => exact nextDiscussion_knows
  | _ => trivial

theorem starts_knows {stage : Stage} (h : stage.starts) : stage.Knows db := by
  cases stage with
  | cancelTurn id caller =>
    cases caller with
    | client => trivial
    | finishStopping row after => cases h
  | enqueue | retry | startDiscussion | cancelDiscussion | propose | call | pump | coordinate
  | advance | replied => trivial
  | _ => cases h

/-! ## What a transaction tells the next stage -/

def Stage.kind : Stage → Kind
  | .retry id => .retry id
  | .call (.ingestAnswer _ _) => .answer
  | .assign turn _ _ => .dispatch turn.id
  | .conclude row _ => .conclude row.id
  | _ => .other

/-- The next stage, by what the transaction read since its begin and what it leaves. -/
def Stage.Result (stage : Stage) (began : Database) (next : Stage) (s : Standing) : Prop :=
  match stage with
  | .enqueue actor roomId request =>
    ∃ reply, next = .replied reply ∧ Enqueued actor roomId request reply s
  | .pump => ∃ db, Later db s.db ∧ next = .item (pendingTurns db) []
  | .item left seen => next = .replied .done ∨ ∃ snapshot rest turn db, left = snapshot :: rest ∧
      Sound db ∧ Later began db ∧ Later db s.db ∧ db.turns.get? snapshot.id = some turn ∧
      next = nextTurn turn rest seen
  | .settle _ _ left seen | .assign _ left seen | .failed _ _ left seen => next = .item left seen
  | .admission turn left seen => next = .assign turn left seen ∨ next = .item left seen
  | .cancelTurn id caller => ∃ db turn, Sound db ∧ Later began db ∧ Later db s.db ∧
      db.turns.get? id = some turn ∧ ((next = caller.returns turn ∧ turn.status = .cancelled) ∨
        (∃ runId, next = .cancelRun turn runId caller) ∨ next = .cancelPending turn caller)
  | .cancelRun turn _ caller => next = .cancelPending turn caller
  | .cancelPending turn caller => next = caller.returns turn ∧
      ∀ row, s.view.turns.get? turn.id = some row → row.pending = false
  | .cancelDiscussion _ => ∃ row, next = .finishStopping row .reply ∧ Stands row s
  | .advance _ left => ∃ row, next = .finishStopping row (.next left) ∧ Stands row s
  | .finishStopping row after => next = after.stage row ∨ ∃ turnId db, row.status = .stopping ∧
      row.activeTurnId = some turnId ∧ Sound db ∧ Later began db ∧ Later db s.db ∧
      (next = .cancelTurn turnId (.finishStopping row after) ∨ (next = .conclude row after ∧
        ∀ turn, db.turns.get? turnId = some turn → turn.unbound = false))
  | .conclude row after => next = after.stage row
  | _ => ∀ db : Database, next.Knows db

/-- A transaction has kept the order, with its effect, and written the fences. -/
def Stage.Spec (stage : Stage) (began : Database) (next : Stage) (s : Standing) : Prop :=
  ∃ s₀ : Standing, s = ⟨s₀.db, s₀.locks, s₀.log ++ [.fence]⟩ ∧ Ends stage.kind s₀ ∧
    stage.Result began next s₀

theorem under_fenced {p : Txn Stage} {post spec : Stage → Standing → Prop}
    (close : ∀ next s, post next s → spec next ⟨s.db, s.locks, s.log ++ [.fence]⟩)
    (h : Tx.under assistantRely p post s) : Tx.under assistantRely (fenced p) spec s := by
  induction p generalizing s with
  | done next =>
    intro db step db' step'
    rw [Progress.after_single] at step' ⊢
    have no_locks : s.locks ++ Tables.guards Database Write.fence = s.locks := List.append_nil _
    change assistantRely.rel (s.locks ++ Tables.guards Database Write.fence) db db' at step'
    rw [no_locks] at step'
    have closed := close next (s.at_ db') (h db' (assistantRely.trans _ _ _ _ step step'))
    change spec next ⟨db', s.locks ++ Tables.guards Database Write.fence, s.log ++ [.fence]⟩
    rw [no_locks]
    exact closed
  | fail e => trivial
  | draw next ih => exact fun i => ih i (h i)
  | stmt locks writes next ih => exact fun db step => ih _ (h db step)

end Artoo.Assistants
