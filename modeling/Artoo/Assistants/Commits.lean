import Artoo.Assistants.Effects

/-! What a commit leaves: the invariant holds, and the others see what their locks promise. -/
namespace Artoo.Assistants
open Artoo.Lib Tx
open Artoo.Server (TurnStatus)

variable {db db' : Database} {s : Standing} {kind : Kind} {new : Option MessageRow}
  {d d' : DiscussionRow} {t row row' : TurnRow} {run : RunRow}

/-- The other tables as the transaction leaves them. -/
def side (s : Standing) : Database :=
  { s.view with turns := s.db.turns, discussions := s.db.discussions }

theorem view_eq {turns : List TurnRow} {discussions : List DiscussionRow}
    (turns_ : turnsOf s.log = turns) (discussions_ : discussionsOf s.log = discussions) :
    s.view = { side s with
      turns := turns.foldl Table.put s.db.turns
      discussions := discussions.foldl Table.put s.db.discussions } := by
  have both : s.view.turns = turns.foldl Table.put s.db.turns ∧
      s.view.discussions = discussions.foldl Table.put s.db.discussions := by
    rw [← turns_, ← discussions_]
    exact ⟨turns_writeAll, discussions_writeAll⟩
  rw [← both.1, ← both.2]
  rfl

theorem isSome_or {α : Type} {a b : Option α} (h : b.isSome) : (a.or b).isSome := by
  cases a with
  | none => exact h
  | some _ => rfl

theorem Orderly.aside (h : Orderly kind s)
    (answers : ∀ id m, logged MessageRow.id Write.message? s.log id = some m →
      s.db.messages.get? id = none → m.answers.isSome → new = some m) :
    Aside new s.db (side s) := by
  have get : ∀ id, (side s).messages.get? id =
      (logged MessageRow.id Write.message? s.log id).or (s.db.messages.get? id) :=
    fun id => messages_writeAll
  constructor
  case turns => rfl
  case discussions => rfl
  case fences => exact fences_writeAll h.unfenced
  case messages =>
    intro id m found
    rw [get]
    cases is : logged MessageRow.id Write.message? s.log id with
    | none => exact ⟨m, found, rfl⟩
    | some m' =>
      refine ⟨m', rfl, ?_⟩
      rcases h.messages id m' is with ⟨old, found', same⟩ | ⟨absent, _⟩
      · rw [found] at found'
        cases found'
        exact same
      · rw [found] at absent
        cases absent
  case answers =>
    intro m there is
    have found := Table.get?_of_mem there
    rw [get, Option.or_eq_some_iff] at found
    rcases found with wrote | ⟨_, old⟩
    · rcases h.messages _ m wrote with ⟨old, found', same⟩ | ⟨absent, _⟩
      · exact Or.inl ⟨old, found', same.symm⟩
      · exact Or.inr (answers _ m wrote absent is)
    · exact Or.inl ⟨m, old, rfl⟩
  case runs =>
    intro id there
    change ((writeAll s.log s.db).runs.get? id).isSome
    rw [runs_writeAll]
    exact isSome_or there
  case tasks =>
    intro id there
    change ((writeAll s.log s.db).tasks.get? id).isSome
    rw [tasks_writeAll]
    exact isSome_or there

/-- Where no answer is written. -/
theorem Orderly.aside_none (h : Orderly kind s) (off : kind ≠ .answer) :
    Aside none s.db (side s) := by
  apply h.aside
  intro id m is absent answers
  rcases h.messages id m is with ⟨old, found, _⟩ | ⟨_, none_⟩
  · rw [absent] at found
    cases found
  · rw [none_ off] at answers
    cases answers

/-! ## One turn -/

theorem put_later (found : db.turns.get? row.id = some row) (later : TurnLater row row') (id : String)
    (old : TurnRow) (is : db.turns.get? id = some old) :
    ∃ new, (db.turns.put row').get? id = some new ∧ TurnLater old new := by
  rw [Table.get?_put, later.id_eq]
  by_cases hit : row.id = id
  · rw [← hit, found] at is
    cases is
    exact ⟨row', if_pos hit, later⟩
  · exact ⟨old, (if_neg hit).trans is, TurnLater.refl old⟩

theorem put_fresh_later (fresh : db.turns.get? t.id = none) (id : String) (old : TurnRow)
    (is : db.turns.get? id = some old) :
    ∃ new, (db.turns.put t).get? id = some new ∧ TurnLater old new := by
  refine ⟨old, ?_, TurnLater.refl old⟩
  rw [Table.get?_put_other, is]
  rintro rfl
  rw [fresh] at is
  cases is

theorem Touch.later (h : Touch kind row row') : TurnLater row row' := by
  have open_ : ∀ {r : TurnRow}, r.pending = true → ¬ r.answered := by
    intro r pending answered
    unfold TurnRow.pending at pending
    rw [answered.1] at pending
    cases pending
  cases h with
  | settle pending _ _ =>
    refine ⟨rfl, Nat.le_refl _, fun _ => ⟨fun off => ?_, fun _ is => is, fun _ is => is⟩, fun is => ?_⟩
    · rw [pending] at off
      cases off
    · exact absurd is (open_ pending)
  | cancel pending =>
    refine ⟨rfl, Nat.le_refl _, fun _ => ⟨fun off => ?_, fun _ is => is, fun _ is => is⟩, fun is => ?_⟩
    · rw [pending] at off
      cases off
    · exact absurd is (open_ pending)
  | retry from_ _ =>
    refine ⟨rfl, Nat.le_succ _, fun same => absurd same (Nat.succ_ne_self _), fun is => ?_⟩
    rcases from_ with waits | failed
    · rw [is.1] at waits
      cases waits
    · rw [is.1] at failed
      cases failed

theorem Touch.not_running (h : Touch kind row row') : row'.status ≠ .running := by
  cases h with
  | settle _ off _ => exact off
  | cancel _ => exact fun is => nomatch is
  | retry _ _ => exact fun is => nomatch is

theorem Touch.completed (h : Touch kind row row') (is : row'.status = .completed) :
    row'.responseMessageId.isSome := by
  cases h with
  | settle _ _ completed => exact completed is
  | cancel _ => cases is
  | retry _ _ => cases is

/-- A turn that still has a run has its response too. -/
theorem Touch.bound (h : Touch kind row row') {r : String} (is : row'.runId = some r) :
    row.runId = some r ∧ row'.responseMessageId = row.responseMessageId := by
  cases h with
  | settle _ _ _ => exact ⟨is, rfl⟩
  | cancel _ => exact ⟨is, rfl⟩
  | retry _ _ => cases is

theorem TurnsSound.touch (h : TurnsSound db) (aside : Aside none db db')
    (found : db.turns.get? row.id = some row) (touch : Touch kind row row') :
    TurnsSound { db' with turns := db'.turns.put row' } := by
  apply h.setTurn aside found touch.later
  case running => exact fun is => absurd is touch.not_running
  case completed => exact touch.completed
  case runs => exact fun r is => aside.runs r (h.runs row (Table.mem_of_get? found) r (touch.bound is).1)
  case answers =>
    intro m there r is bound
    rcases aside.back there (by rw [is]; rfl) with ⟨old, ho, key, link⟩ | ⟨⟨⟩⟩
    obtain ⟨_, row₀, found₀, response⟩ := h.answers old ho row.id r (link.trans is)
    rw [found] at found₀
    cases found₀
    rw [(touch.bound bound).2, response (touch.bound bound).1, key]
  case fresh => exact fun _ is => nomatch is

theorem start_later {runId : String} (unbound : row.unbound) : TurnLater row (row.start runId) := by
  obtain ⟨pending, free⟩ := Bool.and_eq_true_iff.mp unbound
  rw [Option.isNone_iff_eq_none] at free
  constructor
  case origin => rfl
  case retries => exact Nat.le_refl _
  case kept =>
    refine fun _ => ⟨fun off => ?_, fun r is => ?_, fun _ is => is⟩
    · rw [pending] at off
      cases off
    · rw [free] at is
      cases is
  case answered =>
    intro is
    unfold TurnRow.pending at pending
    rw [is.1] at pending
    cases pending

theorem answer_later {m : String} (unanswered : row.responseMessageId = none) :
    TurnLater row (row.answer m) := by
  constructor
  case origin => rfl
  case retries => exact Nat.le_refl _
  case kept =>
    refine fun _ => ⟨fun _ => ⟨rfl, rfl⟩, fun _ is => is, fun _ is => ?_⟩
    rw [unanswered] at is
    cases is
  case answered =>
    intro is
    have some_ := is.2
    rw [unanswered] at some_
    cases some_

theorem TurnsSound.start (h : TurnsSound db) (aside : Aside none db db')
    (found : db.turns.get? row.id = some row) (unbound : row.unbound) {runId : String}
    (alone : ∀ u ∈ db.turns, u.status = .running → u.conversation = row.conversation → u.id = row.id)
    (fresh : db.runs.get? runId = none) (run : (db'.runs.get? runId).isSome) :
    TurnsSound { db' with turns := db'.turns.put (row.start runId) } := by
  apply h.setTurn aside found (start_later unbound)
  case running => exact fun _ => Or.inr alone
  case completed => exact fun is => nomatch is
  case runs =>
    intro r is
    cases is
    exact run
  case answers =>
    intro m there r is bound
    cases bound
    rcases aside.back there (by rw [is]; rfl) with ⟨old, ho, _, link⟩ | ⟨⟨⟩⟩
    have known := (h.answers old ho row.id runId (link.trans is)).1
    rw [fresh] at known
    cases known
  case fresh => exact fun _ is => nomatch is

theorem TurnsSound.answer (h : TurnsSound db) {m : MessageRow} (aside : Aside (some m) db db')
    (found : db.turns.get? row.id = some row) (unanswered : row.responseMessageId = none)
    {r : String} (bound : row.runId = some r) (answers : m.answers = some (row.id, r)) :
    TurnsSound { db' with turns := db'.turns.put (row.answer m.id) } := by
  have there := Table.mem_of_get? found
  apply h.setTurn aside found (answer_later unanswered)
  case running => exact Or.inl
  case completed => exact fun _ => rfl
  case runs => exact fun r' is => aside.runs r' (h.runs row there r' is)
  case answers =>
    intro m' there' r' is bound'
    rcases aside.back there' (by rw [is]; rfl) with ⟨old, ho, _, link⟩ | new
    · obtain ⟨_, row₀, found₀, response⟩ := h.answers old ho row.id r' (link.trans is)
      rw [found] at found₀
      cases found₀
      rw [unanswered] at response
      cases response bound'
    · cases new
      rfl
  case fresh =>
    intro m' is
    cases is
    exact ⟨r, answers, bound⟩

/-! ## One discussion -/

theorem Counts.running (h : Counts db d d') (is : d'.status = .running) : d.status = .running := by
  cases h with
  | none => exact is
  | answer running _ _ _ _ => exact running

theorem active_of_running (h : d.status = .running) : d.active := by
  unfold DiscussionRow.active
  rw [h]
  rfl

theorem Counts.active (h : Counts db d d') (is : d'.active) : d.active := by
  cases h with
  | none => exact is
  | answer running _ _ _ _ => exact active_of_running running

theorem Counts.machine (h : Counts db d d') (sound : DiscussionsSound db)
    (there : d ∈ db.discussions) : Machine d' (db.thread d.threadRootId) := by
  have machine := sound.machine d there
  cases h with
  | none => exact machine
  | @answer x m row running active found completed response =>
    obtain ⟨t, at_, same, _⟩ := machine.active_last active
    have known := (mem_thread.mp (List.mem_of_getElem? at_)).1
    rw [← same, Table.get?_of_mem known] at found
    cases found
    exact machine.count running active at_ completed response

theorem Counts.later_row (h : Counts db d d') : DiscussionLater d d' := by
  cases h with
  | none => exact DiscussionLater.refl d
  | answer running _ _ _ _ =>
    refine ⟨count_origin, fun off => absurd running off, fun off => ?_⟩
    rw [active_of_running running] at off
    cases off

theorem Counts.closed (h : Counts db d d') (closed : d'.closed) : d.closed := by
  cases h with
  | none => exact closed
  | answer running _ _ _ _ =>
    unfold DiscussionRow.count DiscussionRow.closed at closed
    split at closed
    · rcases closed with is | is <;> cases is
    · rcases closed with is | is <;> cases running.symm.trans is

theorem stop_later (running : d.status = .running) {error : Option String} :
    DiscussionLater d (d.stop error) := by
  refine ⟨rfl, fun off => absurd running off, fun off => ?_⟩
  rw [active_of_running running] at off
  cases off

theorem conclude_later (stopping : d.status = .stopping) : DiscussionLater d d.conclude := by
  refine ⟨rfl, fun _ => ⟨?_, rfl, rfl, rfl⟩, fun off => ?_⟩
  · rcases conclude_status (d := d) with is | is <;> simp [is]
  · unfold DiscussionRow.active at off
    rw [stopping] at off
    cases off

theorem Advances.later_row {added : Option TurnRow} (h : Advances kind db d added d') :
    DiscussionLater d d' := by
  cases h with
  | count counted => exact counted.later_row
  | stop counted running => exact counted.later_row.trans (stop_later running)
  | stopIdle running _ =>
    exact (stop_later running).trans (conclude_later rfl)
  | conclude stopping _ => exact conclude_later stopping
  | @ask d₁ t counted running _ _ _ _ =>
    refine counted.later_row.trans ⟨rfl, fun off => absurd running off, fun _ => rfl⟩
  | plan => exact ⟨rfl, fun off => ⟨off, rfl, rfl, rfl⟩, fun _ => rfl⟩

theorem Advances.closed {added : Option TurnRow} (h : Advances kind db d added d')
    (closed : d'.closed) : d.closed ∨ d'.activeTurnId = none ∨ kind = .conclude d'.id := by
  cases h with
  | count counted => exact Or.inl (counted.closed closed)
  | stop _ _ => rcases closed with is | is <;> cases is
  | stopIdle _ idle => exact Or.inr (Or.inl idle)
  | conclude _ idle => exact Or.inr idle
  | ask counted _ _ _ _ _ => exact Or.inl (counted.closed closed)
  | plan => exact Or.inl closed

theorem Advances.active {added : Option TurnRow} (h : Advances kind db d added d')
    (is : d'.active) : d.active := by
  cases h with
  | count counted => exact counted.active is
  | stop counted running => exact active_of_running (counted.running running)
  | stopIdle running _ => exact active_of_running running
  | conclude _ _ =>
    unfold DiscussionRow.active at is
    rcases conclude_status (d := d) with off | off <;> rw [off] at is <;> cases is
  | ask counted running _ _ _ _ => exact active_of_running (counted.running running)
  | plan => exact is

/-- The thread of a discussion that gets no turn. -/
theorem Advances.machine (h : Advances kind db d none d') (sound : DiscussionsSound db)
    (there : d ∈ db.discussions) : Machine d' (db.thread d.threadRootId) := by
  have machine := sound.machine d there
  cases h with
  | count counted => exact counted.machine sound there
  | stop counted running => exact (counted.machine sound there).stop running
  | stopIdle running _ => exact (machine.stop running).conclude rfl
  | conclude stopping _ => exact machine.conclude stopping
  | plan => exact machine.congr rfl rfl rfl Iff.rfl fun _ => rfl

theorem DiscussionsSound.advance (h : DiscussionsSound db) (there : d ∈ db.discussions)
    (advances : Advances kind db d none d') :
    DiscussionsSound { db with discussions := db.discussions.put d' } :=
  h.setDiscussion there advances.origin advances.active (advances.machine h there)

theorem DiscussionsSound.advanceWith (h : DiscussionsSound db) (there : d ∈ db.discussions)
    (advances : Advances kind db d (some t) d') :
    DiscussionsSound { db with
      turns := db.turns.put t
      discussions := db.discussions.put d' } := by
  cases advances with
  | @ask d₁ _ counted running idle adds thread asked =>
    have root : d₁.threadRootId = d.threadRootId := counted.later_row.root_eq
    have conversation : ∀ u ∈ db.thread d₁.threadRootId, u.position < t.position := by
      intro u hu
      obtain ⟨member, is⟩ := mem_thread.mp hu
      rw [root] at is
      apply adds.last u member
      · rw [h.room_eq there member is]
        have here := congrArg (fun a => a.2.2.1) asked
        have same := congrArg DiscussionRow.roomId counted.origin
        exact same.symm.trans here.symm
      · rw [is, thread]
    have first := h.setDiscussion there counted.origin counted.active (counted.machine h there)
    have last := first.ask (d := d₁) (Table.mem_put.mpr (Or.inl rfl)) running idle adds.fresh
      (thread.trans (congrArg some root.symm)) asked conversation
    have same : (db.discussions.put d₁).put (d₁.ask t.id) = db.discussions.put (d₁.ask t.id) :=
      Table.put_put rfl
    dsimp only at last
    rw [same] at last
    exact last

/-! ## The turns and the discussions after a commit -/

structure TurnsKept (s : Standing) : Prop where
  kept : ∀ id row, s.db.turns.get? id = some row →
    ∃ row', s.view.turns.get? id = some row' ∧ TurnLater row row'
  added : ∀ t ∈ s.view.turns, s.db.turns.get? t.id = none →
    (∀ u ∈ s.db.turns, u.conversation = t.conversation → u.position < t.position) ∧
      ((.room t.roomId ∈ s.locks ∧ s.db.ordinary t) ∨ ∃ d ∈ s.db.discussions,
        .discussion d.id ∈ s.locks ∧ t.threadRootId = some d.threadRootId)

structure DiscussionsKept (kind : Kind) (s : Standing) : Prop where
  kept : ∀ id d, s.db.discussions.get? id = some d →
    ∃ d', s.view.discussions.get? id = some d' ∧ DiscussionLater d d'
  opened : ∀ d ∈ s.view.discussions, s.db.discussions.get? d.id = none →
    s.db.messages.get? d.threadRootId = none ∧ s.db.tasks.get? d.taskId = none
  closes : ∀ d ∈ s.view.discussions, d.closed → ∃ e, s.db.discussions.get? d.id = some e ∧
    (e.closed ∨ d.activeTurnId = none ∨ kind = .conclude d.id)

theorem TurnsKept.same (is : s.view.turns = s.db.turns) : TurnsKept s := by
  constructor
  · rw [is]
    exact fun _ row found => ⟨row, found, TurnLater.refl row⟩
  · rw [is]
    intro t there absent
    rw [Table.get?_of_mem there] at absent
    cases absent

theorem TurnsKept.put (is : s.view.turns = s.db.turns.put row')
    (found : s.db.turns.get? row.id = some row) (later : TurnLater row row') : TurnsKept s := by
  constructor
  · rw [is]
    exact put_later found later
  · rw [is]
    intro t there absent
    rcases Table.mem_put.mp there with rfl | ⟨old, _⟩
    · rw [later.id_eq, found] at absent
      cases absent
    · rw [Table.get?_of_mem old] at absent
      cases absent

theorem TurnsKept.add (is : s.view.turns = s.db.turns.put t) (adds : Adds s.db t)
    (where_ : (.room t.roomId ∈ s.locks ∧ s.db.ordinary t) ∨ ∃ d ∈ s.db.discussions,
      .discussion d.id ∈ s.locks ∧ t.threadRootId = some d.threadRootId) : TurnsKept s := by
  constructor
  · rw [is]
    exact put_fresh_later adds.fresh
  · rw [is]
    intro u there absent
    rcases Table.mem_put.mp there with rfl | ⟨old, _⟩
    · exact ⟨fun v hv => adds.last_of hv, where_⟩
    · rw [Table.get?_of_mem old] at absent
      cases absent

theorem DiscussionsKept.same (is : s.view.discussions = s.db.discussions) :
    DiscussionsKept kind s := by
  constructor
  · rw [is]
    exact fun _ d found => ⟨d, found, DiscussionLater.refl d⟩
  · rw [is]
    intro d there absent
    rw [Table.get?_of_mem there] at absent
    cases absent
  · rw [is]
    exact fun d there closed => ⟨d, Table.get?_of_mem there, Or.inl closed⟩

theorem DiscussionsKept.put (is : s.view.discussions = s.db.discussions.put d')
    (found : s.db.discussions.get? d.id = some d) (later : DiscussionLater d d')
    (closed : d'.closed → d.closed ∨ d'.activeTurnId = none ∨ kind = .conclude d'.id) :
    DiscussionsKept kind s := by
  constructor
  · rw [is]
    intro id e found'
    rw [Table.get?_put, later.id_eq]
    by_cases hit : d.id = id
    · rw [← hit, found] at found'
      cases found'
      exact ⟨d', if_pos hit, later⟩
    · exact ⟨e, (if_neg hit).trans found', DiscussionLater.refl e⟩
  · rw [is]
    intro e there absent
    rcases Table.mem_put.mp there with rfl | ⟨old, _⟩
    · rw [later.id_eq, found] at absent
      cases absent
    · rw [Table.get?_of_mem old] at absent
      cases absent
  · rw [is]
    intro e there closes
    rcases Table.mem_put.mp there with rfl | ⟨old, _⟩
    · exact ⟨d, by rw [later.id_eq]; exact found, closed closes⟩
    · exact ⟨e, Table.get?_of_mem old, Or.inl closes⟩

theorem DiscussionsKept.open_ (is : s.view.discussions = s.db.discussions.put d)
    (fresh : s.db.discussions.get? d.id = none) (root : s.db.messages.get? d.threadRootId = none)
    (task : s.db.tasks.get? d.taskId = none) (running : d.status = .running) :
    DiscussionsKept kind s := by
  constructor
  · rw [is]
    intro id e found
    refine ⟨e, ?_, DiscussionLater.refl e⟩
    rw [Table.get?_put_other, found]
    rintro rfl
    rw [fresh] at found
    cases found
  · rw [is]
    intro e there absent
    rcases Table.mem_put.mp there with rfl | ⟨old, _⟩
    · exact ⟨root, task⟩
    · rw [Table.get?_of_mem old] at absent
      cases absent
  · rw [is]
    intro e there closes
    rcases Table.mem_put.mp there with rfl | ⟨old, _⟩
    · exact absurd running closes.off
    · exact ⟨e, Table.get?_of_mem old, Or.inl closes⟩

structure Outcome (kind : Kind) (s : Standing) : Prop where
  turnsSound : TurnsSound s.view
  discussionsSound : DiscussionsSound s.view
  turns : TurnsKept s
  discussions : DiscussionsKept kind s

/-- Only the turns count. -/
theorem Advances.congr {added : Option TurnRow} (h : Advances kind db d added d')
    (same : db'.turns = db.turns) : Advances kind db' d added d' := by
  have counts : ∀ {e}, Counts db d e → Counts db' d e := by
    intro e counted
    cases counted with
    | none => exact .none
    | answer running active found completed response =>
      exact .answer running active (same ▸ found) completed response
  cases h with
  | count counted => exact .count (counts counted)
  | stop counted running => exact .stop (counts counted) running
  | stopIdle running idle => exact .stopIdle running idle
  | conclude stopping idle => exact .conclude stopping idle
  | ask counted running idle adds thread asked =>
    refine .ask (counts counted) running idle ?_ thread asked
    exact ⟨same ▸ adds.fresh, same ▸ adds.request, adds.queued, adds.unbound, same ▸ adds.last⟩
  | plan => exact .plan

/-- What the row of a discussion, and perhaps the next turn, leave. -/
theorem Outcome.discuss {added : Option TurnRow} (sound : Sound s.db)
    (aside : Aside none s.db (side s))
    (view : s.view = { side s with
      turns := added.toList.foldl Table.put s.db.turns
      discussions := s.db.discussions.put d' })
    (held : .discussion d.id ∈ s.locks) (found : s.db.discussions.get? d.id = some d)
    (advances : Advances kind s.db d added d') : Outcome kind s := by
  have there := Table.mem_of_get? found
  have kept : DiscussionsKept kind s :=
    .put (by rw [view]) found advances.later_row advances.closed
  have advances' : Advances kind (side s) d added d' := advances.congr rfl
  have turns := sound.turns.aside aside
  have discussions := sound.discussions.aside aside
  cases added with
  | none =>
    refine ⟨?_, ?_, .same (by rw [view]; rfl), kept⟩
    · rw [view]
      exact turns.congr rfl rfl rfl
    · rw [view]
      exact discussions.advance there advances'
  | some t =>
    cases advances with
    | @ask d₁ _ counted running idle adds thread asked =>
      have root : ∀ r, t.threadRootId = some r → ((side s).messages.get? r).isSome := by
        intro r is
        rw [thread] at is
        cases is
        exact (discussions.roots d there).1
      have added := turns.addTurn adds.fresh adds.request (fun _ => adds.last_of) adds.queued
        adds.unbound root
      refine ⟨?_, ?_, .add (by rw [view]; rfl) adds (Or.inr ⟨d, there, held, thread⟩), kept⟩
      · rw [view]
        exact added.congr rfl rfl rfl
      · rw [view]
        exact discussions.advanceWith there advances'

/-- Only one turn changes. -/
theorem Outcome.turn (sound : DiscussionsSound s.db) (aside : Aside new s.db (side s))
    (turns : turnsOf s.log = [row']) (discussions : discussionsOf s.log = [])
    (found : s.db.turns.get? row.id = some row) (later : TurnLater row row')
    (kept : TurnsSound { side s with turns := (side s).turns.put row' }) : Outcome kind s := by
  have view : s.view = { side s with turns := (side s).turns.put row' } := view_eq turns discussions
  constructor
  · rw [view]
    exact kept
  · rw [view]
    exact (sound.aside aside).setTurn found later
  · exact .put (by rw [view]; rfl) found later
  · exact .same (by rw [view]; rfl)

theorem run_written (there : .run run ∈ s.log) : (s.view.runs.get? run.id).isSome := by
  unfold Progress.view
  rw [runs_writeAll]
  have wrote : ∀ log : List Write, .run run ∈ log →
      (logged RunRow.id Write.run? log run.id).isSome := by
    intro log
    induction log with
    | nil => exact fun member => nomatch member
    | cons w log ih =>
      intro member
      rw [logged]
      rcases List.mem_cons.mp member with rfl | later
      · exact isSome_or (by simp [Write.run?, Option.filter])
      · obtain ⟨r, is⟩ := Option.isSome_iff_exists.mp (ih later)
        rw [is]
        rfl
  obtain ⟨r, is⟩ := Option.isSome_iff_exists.mp (wrote s.log there)
  rw [is]
  rfl

theorem Effect.outcome (h : Effect kind s) (o : Orderly kind s) : Outcome kind s := by
  have sound := o.sound
  cases h with
  | quiet turns discussions none_ =>
    have aside : Aside none s.db (side s) := by
      apply o.aside
      intro id m is absent answers
      rw [none_ id m is absent] at answers
      cases answers
    have view : s.view = side s := view_eq turns discussions
    constructor
    · rw [view]
      exact sound.turns.aside aside
    · rw [view]
      exact sound.discussions.aside aside
    · exact .same (by rw [view]; rfl)
    · exact .same (by rw [view]; rfl)
  | @touch row row' turns discussions off found touch =>
    have aside := o.aside_none off
    exact .turn sound.discussions aside turns discussions found touch.later
      (sound.turns.touch aside found touch)
  | @dispatch row run turns discussions is found unbound alone fresh started admitted =>
    have aside := o.aside_none (by rw [is]; simp)
    exact .turn sound.discussions aside turns discussions found (start_later unbound)
      (sound.turns.start aside found unbound alone fresh (run_written started))
  | @answer row m r turns discussions is found unanswered bound answers wrote fresh new =>
    obtain ⟨m', wrote'⟩ := Option.isSome_iff_exists.mp wrote
    obtain ⟨_, same⟩ := new m.id m' wrote' fresh
    have key : m'.id = m.id := (logged_eq_some wrote').1
    have aside : Aside (some m') s.db (side s) := by
      apply o.aside
      intro id n is' absent _
      obtain ⟨rfl, _⟩ := new id n is' absent
      exact wrote'.symm.trans is'
    have kept := sound.turns.answer aside found unanswered bound (same.trans answers)
    rw [key] at kept
    exact .turn sound.discussions aside turns discussions found (answer_later unanswered) kept
  | @enqueue t turns discussions off adds ordinary room thread =>
    have aside := o.aside_none off
    have view : s.view = { side s with turns := (side s).turns.put t } := view_eq turns discussions
    constructor
    · rw [view]
      exact (sound.turns.aside aside).addTurn adds.fresh adds.request (fun _ => adds.last_of)
        adds.queued adds.unbound fun root is => aside.message (thread root is)
    · rw [view]
      exact (sound.discussions.aside aside).addTurn adds.fresh ordinary
    · exact .add (by rw [view]; rfl) adds (Or.inl ⟨room, ordinary⟩)
    · exact .same (by rw [view]; rfl)
  | @open_ d turns discussions off fresh alone root root' task task' running start idle =>
    have aside := o.aside_none off
    have view : s.view = { side s with discussions := (side s).discussions.put d } :=
      view_eq turns discussions
    constructor
    · rw [view]
      exact (sound.turns.aside aside).congr rfl rfl rfl
    · rw [view]
      exact sound.discussions.open_ sound.turns aside fresh alone ⟨root, root'⟩ ⟨task, task'⟩ running
        ⟨start, idle⟩
    · exact .same (by rw [view]; rfl)
    · exact .open_ (by rw [view]; rfl) fresh root task running
  | @discuss d d' added between turns discussions same off found advances =>
    have last : (between ++ [d']).foldl Table.put s.db.discussions = s.db.discussions.put d' := by
      apply Table.foldl_put
      intro e member
      rw [same e member, advances.id_eq]
    have held : .discussion d'.id ∈ s.locks := by
      apply (o.discussion_held _).1
      rw [discussions]
      exact List.mem_append_right _ (List.mem_singleton_self _)
    rw [advances.id_eq] at held
    apply Outcome.discuss sound (o.aside_none off) _ held found advances
    rw [view_eq turns discussions, last]

/-! ## The commit -/

theorem Outcome.step (h : Outcome kind s) (o : Orderly kind s) : Later s.db s.view := by
  have fences : s.view.fences = s.db.fences := fences_writeAll o.unfenced
  constructor
  case turns => exact h.turns.kept
  case added => exact fun t there absent => (h.turns.added t there absent).1
  case discussions => exact h.discussions.kept
  case opened => exact h.discussions.opened
  case messages =>
    intro id m found
    unfold Progress.view
    rw [messages_writeAll]
    cases is : logged MessageRow.id Write.message? s.log id with
    | none => exact ⟨m, found, rfl⟩
    | some m' =>
      refine ⟨m', rfl, ?_⟩
      rcases o.messages id m' is with ⟨old, found', same⟩ | ⟨absent, _⟩
      · rw [found] at found'
        cases found'
        exact same
      · rw [found] at absent
        cases absent
  case runs =>
    intro id there
    unfold Progress.view
    rw [runs_writeAll]
    exact isSome_or there
  case tasks =>
    intro id there
    unfold Progress.view
    rw [tasks_writeAll]
    exact isSome_or there
  case fences =>
    rw [fences]
    exact fun _ _ is => is

theorem Later.fence (h : Later db db') : Later db db'.fence := by
  refine ⟨h.turns, h.added, h.discussions, h.opened, h.messages, h.runs, h.tasks, fun id k is => ?_⟩
  change (db'.fences id).or _ = some k
  rw [h.fences id k is]
  rfl

theorem turn_unwritten (o : Orderly kind s) {id : String} (off : .turn id ∉ s.locks) :
    s.view.turns.get? id = s.db.turns.get? id := by
  unfold Progress.view
  rw [turns_writeAll]
  apply Table.get?_foldl_put
  rintro t there rfl
  exact off (o.turn_held there).1

theorem discussion_unwritten (o : Orderly kind s) {id : String} (off : .discussion id ∉ s.locks) :
    s.view.discussions.get? id = s.db.discussions.get? id := by
  unfold Progress.view
  rw [discussions_writeAll]
  apply Table.get?_foldl_put
  rintro d there rfl
  exact off (o.discussion_held there).1

theorem turn_cases (there : t ∈ s.view.turns) : t ∈ turnsOf s.log ∨ t ∈ s.db.turns := by
  unfold Progress.view at there
  rw [turns_writeAll] at there
  exact Table.mem_foldl_put there

theorem discussion_cases (there : d ∈ s.view.discussions) :
    d ∈ discussionsOf s.log ∨ d ∈ s.db.discussions := by
  unfold Progress.view at there
  rw [discussions_writeAll] at there
  exact Table.mem_foldl_put there

/-- A turn that is not among the written ones was there. -/
theorem turn_there (off : t ∉ turnsOf s.log) (there : t ∈ s.view.turns) :
    s.db.turns.get? t.id = some t := by
  rcases turn_cases there with wrote | old
  · exact absurd wrote off
  · exact Table.get?_of_mem old

theorem discussion_there (off : d ∉ discussionsOf s.log) (there : d ∈ s.view.discussions) :
    s.db.discussions.get? d.id = some d := by
  rcases discussion_cases there with wrote | old
  · exact absurd wrote off
  · exact Table.get?_of_mem old

theorem fence_new {id : String} {k : Nat} (unfenced : .fence ∉ s.log)
    (absent : s.db.fences id = none) (is : s.view.fence.fences id = some k) :
    ∃ d, s.view.discussions.get? id = some d ∧ k = s.view.retriesOf d.activeTurnId := by
  have same : s.view.fences = s.db.fences := fences_writeAll unfenced
  change (s.view.fences id).or (((s.view.discussions.get? id).filter (·.status != .running)).map
    fun d => s.view.retriesOf d.activeTurnId) = some k at is
  rw [same, absent, Option.none_or] at is
  obtain ⟨d, found, rfl⟩ := Option.map_eq_some_iff.mp is
  exact ⟨d, (Option.filter_eq_some_iff.mp found).1, rfl⟩

/-- The holders of other locks see what these promise. -/
theorem Outcome.others (h : Outcome kind s) (o : Orderly kind s) {k : Lock} (off : k ∉ s.locks) :
    k.Same s.db s.view.fence := by
  cases k with
  | user | goal | agent => trivial
  | task id =>
    intro absent
    change (writeAll s.log s.db).tasks.get? id = none
    rw [tasks_writeAll, absent, Option.or_none]
    cases is : logged TaskRow.id Write.task? s.log id with
    | none => rfl
    | some row => exact absurd (o.task_held is) off
  | run id =>
    change (writeAll s.log s.db).runs.get? id = s.db.runs.get? id
    rw [runs_writeAll]
    cases is : logged RunRow.id Write.run? s.log id with
    | none => rfl
    | some row =>
      obtain ⟨rfl, w, member, wrote⟩ := logged_eq_some is
      refine absurd (o.guarded w member _ ?_) off
      cases w <;> cases wrote
      exact List.mem_cons_self
  | message id =>
    change (writeAll s.log s.db).messages.get? id = s.db.messages.get? id
    rw [messages_writeAll]
    cases is : logged MessageRow.id Write.message? s.log id with
    | none => rfl
    | some m => exact absurd (o.message_held is) off
  | room id =>
    intro t there room ordinary
    cases before : s.db.turns.get? t.id with
    | some u => rfl
    | none =>
      rcases (h.turns.added t there before).2 with ⟨held, _⟩ | ⟨d, hd, _, thread⟩
      · exact absurd (room ▸ held) off
      · obtain ⟨d', found, later⟩ := h.discussions.kept d.id d (Table.get?_of_mem hd)
        refine absurd ?_ (ordinary d' (Table.mem_of_get? found))
        rw [later.root_eq]
        exact thread
  | turn id =>
    have same := turn_unwritten o off
    refine ⟨same, fun m there answer => ?_, fun d there none_ k is active row found => ?_⟩
    · cases before : s.db.messages.get? m.id with
      | some old => rfl
      | none =>
        have found : s.view.messages.get? m.id = some m := Table.get?_of_mem there
        unfold Progress.view at found
        rw [messages_writeAll, before, Option.or_none] at found
        obtain ⟨_, w, member, wrote⟩ := logged_eq_some found
        obtain ⟨r, is⟩ := answer
        refine absurd (o.guarded w member _ ?_) off
        cases w <;> cases wrote
        simp [Write.locks, (MessageRow.answers_eq.mp is).1]
    · obtain ⟨e, found', rfl⟩ := fence_new o.unfenced none_ is
      have same' : s.view.discussions.get? d.id = some d := Table.get?_of_mem there
      rw [found'] at same'
      cases same'
      unfold Database.retriesOf
      rw [active, Option.bind_some, same, found]
      rfl
  | discussion id =>
    have same := discussion_unwritten o off
    refine ⟨same, fun d there key t ht thread => ?_⟩
    have found : s.db.discussions.get? d.id = some d := by
      rw [key, ← same, ← key]
      exact Table.get?_of_mem there
    cases before : s.db.turns.get? t.id with
    | some u => rfl
    | none =>
      rcases (h.turns.added t ht before).2 with ⟨_, ordinary⟩ | ⟨e, he, held, thread'⟩
      · exact absurd thread (ordinary d (Table.mem_of_get? found))
      · rw [thread'] at thread
        have one := o.sound.discussions.apart e he d (Table.mem_of_get? found)
          (Or.inl (Option.some.inj thread))
        exact absurd (key ▸ one ▸ held) off
  | request key =>
    intro t there is
    by_cases wrote : t ∈ turnsOf s.log
    · exact absurd (is ▸ (o.turn_held wrote).2.1) off
    · rw [turn_there wrote there]
      rfl
  | conversation scope =>
    intro t there running is
    by_cases wrote : t ∈ turnsOf s.log
    · exact absurd (is ▸ (o.turn_held wrote).2.2 running) off
    · exact ⟨t, turn_there wrote there, running⟩
  | activeDiscussion goalId =>
    intro d there active is
    by_cases wrote : d ∈ discussionsOf s.log
    · exact absurd (is ▸ (o.discussion_held wrote).2 active) off
    · exact ⟨d, discussion_there wrote there, active⟩

/-- What a commit leaves; for a concluded discussion its stage knows that it is quenched. -/
theorem Effect.commit (h : Effect kind s) (o : Orderly kind s)
    (known : ∀ id, kind = .conclude id → ∀ d ∈ s.db.discussions, d.id = id →
      d.status ≠ .running ∧ s.db.Quenched d) :
    Sound s.view.fence ∧ Later s.db s.view.fence ∧ ∀ k ∉ s.locks, k.Same s.db s.view.fence := by
  have outcome := h.outcome o
  have step := outcome.step o
  have later := step.fence
  have discussions := outcome.discussionsSound
  refine ⟨⟨outcome.turnsSound.congr rfl rfl rfl, ?_, ?_⟩, later, fun k => outcome.others o⟩
  · exact ⟨discussions.roots, discussions.apart, discussions.oneActive, discussions.machine⟩
  · apply o.sound.fences.fence o.sound.discussions (fences_writeAll o.unfenced) step _ later
    intro d there closed
    obtain ⟨e, before, closes⟩ := outcome.discussions.closes d there closed
    rcases closes with closed' | idle | is
    · exact Or.inl ⟨e, before, closed'⟩
    · right
      intro x _ active
      rw [idle] at active
      cases active
    · right
      have there' := Table.mem_of_get? before
      have key : e.id = d.id := Table.key_of_get? before
      obtain ⟨off, quenched⟩ := known d.id is e there' key
      refine Quenched.later later o.sound.fences there' off ?_ quenched there key.symm
      intro x active
      obtain ⟨row, found, _⟩ := o.sound.discussions.active_found there' active
      rw [found]
      rfl

end Artoo.Assistants
