import Artoo.Assistants.TurnWrites

/-! The effect of a request for a turn, and what it is answered. -/
namespace Artoo.Assistants
open Artoo.Lib Tx Artoo.Domain

variable {α β : Type} {db : Database} {s : Standing} {kind : Kind} {t : TurnRow}

/-! ## A new turn -/

theorem foldl_max_le {ns : List Nat} {a n : Nat} (h : n ≤ a ∨ n ∈ ns) : n ≤ ns.foldl max a := by
  induction ns generalizing a with
  | nil =>
    rcases h with le | member
    · exact le
    · cases member
  | cons m ns ih =>
    rw [List.foldl_cons]
    apply ih
    rcases h with le | member
    · exact Or.inl (Nat.le_trans le (Nat.le_max_left _ _))
    · rcases List.mem_cons.mp member with rfl | later
      · exact Or.inl (Nat.le_max_right _ _)
      · exact Or.inr later

/-- A drawn position is above those that were visible. -/
theorem under_nextPosition {k : Nat → Txn β} {post : β → Standing → Prop}
    (turns : turnsOf s.log = [])
    (rest : ∀ position db, assistantRely.rel s.locks s.db db →
      (∀ u ∈ db.turns, u.position < position) → Tx.under assistantRely (k position) post (s.at_ db)) :
    Tx.under assistantRely (nextPosition >>= k) post s := by
  unfold nextPosition
  rw [bind_assoc, under_drawn]
  intro draw
  rw [bind_assoc, under_query]
  intro db step
  rw [pure_bind]
  apply rest _ db step
  intro u there
  have same : (s.at_ db).view.turns = db.turns := by
    unfold Progress.view
    rw [turns_writeAll, Progress.at_log, turns]
    rfl
  have le := foldl_max_le (a := 0) (Or.inr (List.mem_map_of_mem (f := fun t => t.position) there))
  rw [same]
  omega

/-- A turn that may be added, seen as it is added. -/
theorem adds_of_free {position : Nat} (step : assistantRely.rel s.locks s.db db) (below : ∀ u ∈ s.db.turns, u.position < position)
    (free : (db.turns.rows.any fun u => u.id == t.id || u.request == t.request) = false)
    (queued : t.status = .queued) (unbound : t.runId = none) (at_ : t.position = position)
    (none_ : ∀ u ∈ db.turns, u.roomId = t.roomId → u.threadRootId = t.threadRootId →
      (s.db.turns.get? u.id).isSome) : Adds db t := by
  rw [List.any_eq_false] at free
  refine ⟨?_, fun u there same => ?_, queued, unbound, fun u there room thread => ?_⟩
  · rw [Table.get?_eq_none]
    intro u there same
    exact free u there (by simp [same])
  · exact free u there (by simp [same])
  · obtain ⟨old, found⟩ := Option.isSome_iff_exists.mp (none_ u there room thread)
    rw [(step.1.turn_back there found).position_eq, at_]
    exact below old (Table.mem_of_get? found)

/-! ## The room of a request -/

/-- The room is locked, and the thread is there and no discussion's. -/
structure Entered (roomId : String) (thread : Option String) (s : Standing) : Prop where
  lock : .room roomId ∈ s.locks
  root : ∀ r, thread = some r → (s.db.messages.get? r).isSome
  ordinary : ∀ t : TurnRow, t.threadRootId = thread → s.db.ordinary t

variable {roomId actor : String} {thread : Option String}

theorem Entered.later (h : Entered roomId thread s) (step : assistantRely.rel s.locks s.db db) :
    Entered roomId thread (s.at_ db) := by
  refine ⟨h.lock, fun r is => step.1.message_there (h.root r is), fun t is => ?_⟩
  apply ordinary_later step.1 _ (h.ordinary t is)
  exact fun root same => h.root root (is.symm.trans same)

theorem Calm.enters {p : Txn α} (mild : Writes (Mild kind) p) (h : Calm kind s)
    (entered : Entered roomId thread s) :
    Tx.under assistantRely p (fun _ s' => Calm kind s' ∧ Entered roomId thread s') s :=
  h.keeps mild (fun _ _ _ step entered => entered.later step)
    (fun _ _ _ entered => ⟨List.mem_append_left _ entered.lock, entered.root, entered.ordinary⟩) entered

theorem mild_followUpTask {room : RoomRow} {projectId : String} {original : Option TaskRow} :
    Writes (Mild kind) (followUpTask room projectId original) := by
  refine writes_bind writes_mayRefuse fun _ => writes_bind writes_query fun _ =>
    writes_bind writes_check fun _ => writes_bind writes_generate fun _ => ?_
  exact writes_bind mild_addTask fun _ => writes_done

theorem mild_conversationTask {room : RoomRow} {projectId : String} {root : Option MessageRow} :
    Writes (Mild kind) (conversationTask room projectId root thread) := by
  refine writes_bind writes_query fun _ => writes_bind writes_query fun original => ?_
  cases original.filter (!closedTask ·) with
  | none => exact mild_followUpTask
  | some task => exact writes_done

/-- The answer to a request is its turn. -/
def Enqueued (actor roomId : String) (request : SendAssistantTurnRequest) (reply : Reply)
    (s : Standing) : Prop :=
  ∃ turn message row, reply = .enqueued turn message ∧
    turn.request = (roomId, actor, request.clientRequestId) ∧
    s.view.turns.get? turn.id = some row ∧ row.origin = turn.origin

variable {request : SendAssistantTurnRequest}

theorem under_newTurn {room : RoomRow} {projectId : String} {root : Option MessageRow}
    (h : Calm kind s) (off : kind ≠ .answer) (entered : Entered room.id request.threadRootId s) :
    Tx.under assistantRely (newTurn actor room projectId root request)
      (fun reply s' => Ends kind s' ∧ Enqueued actor room.id request reply s') s := by
  unfold newTurn
  apply under_seq (h.enters writes_mayRefuse entered)
  rintro _ s₁ ⟨calm, entered⟩
  apply under_seq (calm.enters writes_query entered)
  rintro waiting s₂ ⟨calm, entered⟩
  rw [under_check]
  intro _
  apply under_seq (calm.enters mild_conversationTask entered)
  rintro task s₃ ⟨calm, entered⟩
  apply under_seq (calm.enters writes_generate entered)
  rintro id s₄ ⟨calm, entered⟩
  apply under_seq (calm.enters writes_generate entered)
  rintro messageId s₅ ⟨calm, entered⟩
  apply under_seq (calm.enters (mild_addMessage fun _ => rfl) entered)
  rintro _ s₆ ⟨calm, entered⟩
  apply under_seq (calm.enters mild_countReply entered)
  rintro _ s₇ ⟨calm, entered⟩
  apply under_nextPosition calm.turns
  intro position db step below
  have calm := calm.later step
  have entered := entered.later step
  unfold addTurn
  rw [under_add]
  intro db₁ step₁ free
  have calm₁ := calm.later step₁
  have entered₁ := entered.later step₁
  rw [calm₁.view_turns] at free
  have adds : Adds db₁ (requestTurn id messageId actor position room task request) := by
    apply adds_of_free step₁ below free rfl rfl rfl
    exact fun u there at_ same =>
      calm.toOrderly.same step₁ entered.lock u there at_ (entered₁.ordinary u same)
  have ends : Ends kind ⟨db₁, s₇.locks ++ Tables.guards Database
      (.turn (requestTurn id messageId actor position room task request)),
      s₇.log ++ [.turn (requestTurn id messageId actor position room task request)]⟩ := by
    exact ⟨calm₁.toOrderly.write trivial, .enqueue calm₁.turn_written.1 calm₁.turn_written.2 off adds
      (entered₁.ordinary _ rfl) (List.mem_append_left _ entered.lock) entered₁.root⟩
  intro db₂ step₂
  refine ⟨ends.later step₂, _, _, requestTurn id messageId actor position room task request, rfl, rfl,
    ?_, rfl⟩
  have written : turnsOf (s₇.log ++
      [.turn (requestTurn id messageId actor position room task request)]) = _ := calm.turn_written.1
  unfold Progress.view
  rw [turns_writeAll]
  change ((turnsOf (s₇.log ++ [.turn _])).foldl Table.put db₂.turns).get? _ = _
  rw [written]
  exact Table.get?_put_self

theorem under_repeatedTurn {turn : TurnRow} (h : Calm kind s) (off : kind ≠ .answer)
    (there : turn ∈ s.db.turns) (is : turn.request = (roomId, actor, request.clientRequestId)) :
    Tx.under assistantRely (repeatedTurn request turn)
      (fun reply s' => Ends kind s' ∧ Enqueued actor roomId request reply s') s := by
  unfold repeatedTurn
  rw [under_query]
  intro db step
  rw [under_require]
  intro message _
  rw [under_check]
  intro _ db' step'
  have calm := (h.later step).later step'
  obtain ⟨row, found, later⟩ :=
    (step.1.trans step'.1).turns turn.id turn (Table.get?_of_mem there)
  refine ⟨calm.ends off, turn, message, row, rfl, is, ?_, later.origin⟩
  rw [calm.view_turns]
  exact found

/-! ## The request -/

theorem under_requireThreadRoot {k : Option MessageRow → Txn β} {post : β → Standing → Prop}
    (h : Calm kind s) (empty : s.log = [])
    (rest : ∀ root s', Calm kind s' → s'.log = [] → s.locks ⊆ s'.locks →
      (∀ r, thread = some r → (∃ m, root = some m ∧ m.id = r) ∧ (s'.db.messages.get? r).isSome) →
      Tx.under assistantRely (k root) post s') :
    Tx.under assistantRely (requireThreadRoot roomId thread >>= k) post s := by
  unfold requireThreadRoot
  cases thread with
  | none =>
    rw [pure_bind]
    exact rest none s h empty (List.Subset.refl _) fun _ is => nomatch is
  | some rootId =>
    rw [bind_assoc, under_query]
    intro db step
    rw [bind_assoc, under_require]
    intro m is
    rw [pure_bind]
    apply rest (some m) (s.at_ db) (h.later step) empty (List.Subset.refl _)
    intro r same
    cases same
    have found := (Option.filter_eq_some_iff.mp (Option.filter_eq_some_iff.mp is).1).1
    have view : (s.at_ db).view = db := by
      unfold Progress.view
      rw [Progress.at_log, empty]
      rfl
    rw [view] at found
    refine ⟨⟨m, rfl, Table.key_of_get? found⟩, ?_⟩
    rw [Progress.at_db, found]
    rfl

theorem under_enqueueAssistantTurn (h : Calm kind s) (empty : s.log = []) (off : kind ≠ .answer) :
    Tx.under assistantRely (enqueueAssistantTurn actor roomId request)
      (fun reply s' => Ends kind s' ∧ Enqueued actor roomId request reply s') s := by
  unfold enqueueAssistantTurn
  dsimp only
  rw [under_queryForUpdate]
  intro db step
  rw [under_require]
  intro room found
  have key : room.id = roomId := Table.key_of_get? (mem_head found)
  rw [under_require]
  intro projectId _
  apply under_requireThreadRoot (h.later step).lock empty
  intro root s₁ calm empty₁ locks thread
  have lock : .room roomId ∈ s₁.locks := by
    apply locks
    rw [mem_head found, ← key]
    simp
  unfold refuseDiscussionThread
  rw [bind_assoc, under_query]
  intro db₂ step₂
  have calm₂ := calm.later step₂
  rw [under_check]
  intro off_
  rw [calm₂.view_discussions, List.any_eq_false] at off_
  have entered : Entered roomId request.threadRootId (s₁.at_ db₂) := by
    refine ⟨lock, fun r is => step₂.1.message_there (thread r is).2, fun t is d there same => ?_⟩
    rw [is] at same
    obtain ⟨⟨m, rfl, id⟩, _⟩ := thread _ same
    exact off_ d there (by simp [id])
  rw [under_query]
  intro db₃ step₃
  have calm₃ := calm₂.later step₃
  have entered₃ := entered.later step₃
  rw [calm₃.view_turns]
  cases duplicate : db₃.turns.rows.find? fun t =>
      t.request == (roomId, actor, request.clientRequestId) with
  | some turn =>
    rw [Progress.at_db, duplicate]
    exact under_repeatedTurn calm₃ off (List.mem_of_find?_eq_some duplicate)
      (by simpa using List.find?_some duplicate)
  | none =>
    rw [Progress.at_db, duplicate]
    subst key
    exact under_newTurn calm₃ off entered₃

end Artoo.Assistants
