import Artoo.Assistants.Later

/-! What holds of the committed turns, answers and discussions, and what keeps it. -/
namespace Artoo.Assistants
open Artoo.Lib
open Artoo.Server (TurnStatus)

/-! ## The turns of one discussion -/

/-- Whom a turn asks, for whom and where. -/
def TurnRow.asked (t : TurnRow) : String × Option String × String × String × String :=
  (t.clientRequestId, t.agentInstanceId, t.roomId, t.taskId, t.actorUserId)

def DiscussionRow.asks (d : DiscussionRow) (step : Nat) :
    String × Option String × String × String × String :=
  (d.requestId step, some (d.participant step).agentInstanceId, d.roomId, d.taskId, d.actorUserId)

def Database.thread (db : Database) (root : String) : List TurnRow :=
  db.turns.select fun t => t.threadRootId == some root

/-- One turn a step, in the order they were created; only the last may be without an answer. -/
structure Machine (d : DiscussionRow) (turns : List TurnRow) : Prop where
  asked : turns.map TurnRow.asked = (List.range turns.length).map d.asks
  ordered : turns.Pairwise fun t u => t.position < u.position
  counted : turns.length = d.currentStep + if d.activeTurnId.isSome then 1 else 0
  within_ : turns.length ≤ d.totalSteps
  active : d.activeTurnId = turns[d.currentStep]?.map (·.id)
  answered : ∀ t ∈ turns.take d.currentStep, t.answered
  ready : d.status = .ready ↔ d.currentStep = d.totalSteps
  final : d.status = .ready →
    d.finalMessageId.isSome ∧ d.finalMessageId = turns.getLast?.bind (·.responseMessageId)

variable {d d' e : DiscussionRow} {turns turns' : List TurnRow} {t u row row' : TurnRow}

theorem TurnLater.asked_eq (h : TurnLater row row') : row'.asked = row.asked := by
  have same := congrArg TurnRow.asked h.origin
  exact same

theorem map_eq_of_later {β : Type} (f : TurnRow → β) (same : ∀ t t', TurnLater t t' → f t' = f t)
    (later : List.Forall₂ TurnLater turns turns') : turns'.map f = turns.map f := by
  induction later with
  | nil => rfl
  | cons step _ ih => rw [List.map_cons, List.map_cons, ih, same _ _ step]

theorem pairwise_of_later (later : List.Forall₂ TurnLater turns turns')
    (ordered : turns.Pairwise fun t u => t.position < u.position) :
    turns'.Pairwise fun t u => t.position < u.position := by
  have positions := map_eq_of_later (·.position) (fun _ _ step => step.position_eq) later
  have before : (turns.map (·.position)).Pairwise (· < ·) := List.pairwise_map.mpr ordered
  rw [← positions] at before
  exact List.pairwise_map.mp before

/-- The first turns, answered, do not change. -/
theorem take_of_later {n : Nat} (later : List.Forall₂ TurnLater turns turns')
    (answered : ∀ t ∈ turns.take n, t.answered) : turns'.take n = turns.take n := by
  induction later generalizing n with
  | nil => rfl
  | cons step _ ih =>
    cases n with
    | zero => rfl
    | succ n =>
      rw [List.take_succ_cons] at answered
      rw [List.take_succ_cons, List.take_succ_cons, ih fun t there =>
        answered t (List.mem_cons_of_mem _ there), step.answered (answered _ List.mem_cons_self)]

/-- When a discussion is ready, all its turns are answered. -/
theorem Machine.take_ready (h : Machine d turns) (ready : d.status = .ready) :
    turns.take d.currentStep = turns := by
  apply List.take_of_length_le
  rw [h.ready.mp ready]
  exact h.within_

theorem Machine.later (h : Machine d turns) (later : List.Forall₂ TurnLater turns turns') :
    Machine d turns' := by
  have length := later.length_eq
  have ids := map_eq_of_later (·.id) (fun _ _ step => step.id_eq) later
  have taken := take_of_later later h.answered
  constructor
  · rw [map_eq_of_later TurnRow.asked (fun _ _ step => step.asked_eq) later, ← length]
    exact h.asked
  · exact pairwise_of_later later h.ordered
  · rw [← length]
    exact h.counted
  · rw [← length]
    exact h.within_
  · rw [← List.getElem?_map, ids, List.getElem?_map]
    exact h.active
  · rw [taken]
    exact h.answered
  · exact h.ready
  · intro ready
    have all := h.take_ready ready
    have same : turns' = turns := by
      rw [all] at taken
      rw [← taken]
      apply (List.take_of_length_le _).symm
      rw [← length, h.ready.mp ready]
      exact h.within_
    rw [same]
    exact h.final ready

/-- The columns that the turns do not speak of. -/
theorem Machine.congr (h : Machine d turns) (origin : d'.origin = d.origin)
    (step : d'.currentStep = d.currentStep) (active : d'.activeTurnId = d.activeTurnId)
    (status : d'.status = .ready ↔ d.status = .ready)
    (final : d.status = .ready → d'.finalMessageId = d.finalMessageId) : Machine d' turns := by
  have asks : d'.asks = d.asks := by
    have same := congrArg DiscussionRow.asks origin
    exact same
  have total : d'.totalSteps = d.totalSteps := by
    have same := congrArg DiscussionRow.totalSteps origin
    exact same
  constructor
  · rw [asks]
    exact h.asked
  · exact h.ordered
  · rw [step, active]
    exact h.counted
  · rw [total]
    exact h.within_
  · rw [step, active]
    exact h.active
  · rw [step]
    exact h.answered
  · rw [step, total, status]
    exact h.ready
  · intro ready
    rw [final (status.mp ready)]
    exact h.final (status.mp ready)

theorem Machine.stop (h : Machine d turns) (running : d.status = .running) {error : Option String} :
    Machine (d.stop error) turns := by
  have off : ¬ d.status = .ready := by simp [running]
  exact h.congr rfl rfl rfl ⟨fun is => (nomatch is), fun is => absurd is off⟩ fun is => absurd is off

theorem conclude_status : d.conclude.status = .failed ∨ d.conclude.status = .cancelled := by
  unfold DiscussionRow.conclude
  cases d.error.isSome with
  | true => exact Or.inl rfl
  | false => exact Or.inr rfl

theorem Machine.conclude (h : Machine d turns) (stopping : d.status = .stopping) :
    Machine d.conclude turns := by
  have off : ¬ d.status = .ready := by simp [stopping]
  have off' : ¬ d.conclude.status = .ready := by
    rcases conclude_status (d := d) with is | is <;> simp [is]
  exact h.congr rfl rfl rfl ⟨fun is => absurd is off', fun is => absurd is off⟩
    fun is => absurd is off

/-- The active turn is the last one. -/
theorem Machine.active_last (h : Machine d turns) {x : String} (active : d.activeTurnId = some x) :
    ∃ t, turns[d.currentStep]? = some t ∧ t.id = x ∧ turns.length = d.currentStep + 1 := by
  have counted := h.counted
  rw [active, Option.isSome_some, if_pos rfl] at counted
  have is := h.active.symm.trans active
  obtain ⟨t, found, same⟩ := Option.map_eq_some_iff.mp is
  exact ⟨t, found, same, counted⟩

/-- A turn without an answer is the active one. -/
theorem Machine.active_of_unanswered (h : Machine d turns) (there : t ∈ turns)
    (off : ¬ t.answered) : d.activeTurnId = some t.id := by
  obtain ⟨n, found⟩ := List.mem_iff_getElem?.mp there
  have bound : n < turns.length := (List.getElem?_eq_some_iff.mp found).1
  have late : ¬ n < d.currentStep := by
    intro early
    apply off
    apply h.answered
    rw [List.mem_iff_getElem?]
    exact ⟨n, by rw [List.getElem?_take_of_lt early, found]⟩
  have counted := h.counted
  have here : n = d.currentStep := by
    cases active : d.activeTurnId with
    | none =>
      rw [active, Option.isSome_none, if_neg (by simp)] at counted
      omega
    | some x =>
      rw [active, Option.isSome_some, if_pos rfl] at counted
      omega
  rw [h.active, ← here, found]
  rfl

theorem count_origin {m : String} : (d.count m).origin = d.origin := by
  unfold DiscussionRow.count
  split <;> rfl

theorem count_active {m : String} : (d.count m).activeTurnId = none := by
  unfold DiscussionRow.count
  split <;> rfl

theorem count_step {m : String} : (d.count m).currentStep = d.currentStep + 1 := by
  unfold DiscussionRow.count
  split <;> rfl

theorem Machine.count (h : Machine d turns) (running : d.status = .running) {x m : String}
    (active : d.activeTurnId = some x) (found : turns[d.currentStep]? = some t)
    (completed : t.status = .completed) (response : t.responseMessageId = some m) :
    Machine (d.count m) turns := by
  obtain ⟨_, _, _, length⟩ := h.active_last active
  have asks : (d.count m).asks = d.asks := by
    have same := congrArg DiscussionRow.asks (count_origin (d := d) (m := m))
    exact same
  have total : (d.count m).totalSteps = d.totalSteps := by
    have same := congrArg DiscussionRow.totalSteps (count_origin (d := d) (m := m))
    exact same
  have last : turns.getLast? = some t := by
    rw [List.getLast?_eq_getElem?, length, Nat.add_sub_cancel, found]
  have off : ¬ d.status = .ready := by simp [running]
  constructor
  · rw [asks]
    exact h.asked
  · exact h.ordered
  · rw [count_step, count_active, length]
    rfl
  · rw [total]
    exact h.within_
  · rw [count_active, count_step, List.getElem?_eq_none (by omega)]
    rfl
  · rw [count_step]
    intro u there
    rw [List.take_add_one, found] at there
    rcases List.mem_append.mp there with old | new
    · exact h.answered u old
    · cases List.mem_singleton.mp new
      exact ⟨completed, by rw [response]; rfl⟩
  · rw [count_step, total]
    unfold DiscussionRow.count
    split
    · rename_i all
      exact ⟨fun _ => all, fun _ => rfl⟩
    · rename_i more
      exact ⟨fun is => absurd is off, fun is => absurd is more⟩
  · intro ready
    rw [last]
    unfold DiscussionRow.count at ready ⊢
    split at ready
    · rename_i all
      rw [if_pos all]
      exact ⟨rfl, response.symm⟩
    · exact absurd ready off

theorem Machine.ask (h : Machine d turns) (running : d.status = .running)
    (idle : d.activeTurnId = none) (asked : t.asked = d.asks d.currentStep)
    (later : ∀ u ∈ turns, u.position < t.position) : Machine (d.ask t.id) (turns ++ [t]) := by
  have counted := h.counted
  rw [idle, Option.isSome_none, if_neg (by simp), Nat.add_zero] at counted
  have off : ¬ d.status = .ready := by simp [running]
  have more : d.currentStep ≠ d.totalSteps := fun is => off (h.ready.mpr is)
  have within_ := h.within_
  constructor
  · rw [List.map_append, List.length_append, List.length_singleton, List.range_succ,
      List.map_append, h.asked, counted]
    exact congrArg (List.map d.asks (List.range d.currentStep) ++ [·]) asked
  · rw [List.pairwise_append]
    refine ⟨h.ordered, List.pairwise_singleton _ _, fun u there v is => ?_⟩
    cases List.mem_singleton.mp is
    exact later u there
  · rw [List.length_append, counted]
    rfl
  · rw [List.length_append, List.length_singleton]
    change turns.length + 1 ≤ d.totalSteps
    omega
  · change some t.id = (turns ++ [t])[d.currentStep]?.map (·.id)
    rw [← counted, List.getElem?_concat_length]
    rfl
  · change ∀ u ∈ (turns ++ [t]).take d.currentStep, u.answered
    rw [← counted, List.take_left']
    · intro u there
      apply h.answered
      rw [List.take_of_length_le (Nat.le_of_eq counted)]
      exact there
    · rfl
  · exact h.ready
  · exact fun ready => absurd ready off

/-! ## Turns and answers -/

structure TurnsSound (db : Database) : Prop where
  running : ∀ a ∈ db.turns, ∀ b ∈ db.turns, a.status = .running → b.status = .running →
    a.conversation = b.conversation → a.id = b.id
  requests : ∀ a ∈ db.turns, ∀ b ∈ db.turns, a.request = b.request → a.id = b.id
  positions : ∀ a ∈ db.turns, ∀ b ∈ db.turns, a.conversation = b.conversation →
    a.position = b.position → a.id = b.id
  completed : ∀ t ∈ db.turns, t.status = .completed → t.responseMessageId.isSome
  runs : ∀ t ∈ db.turns, ∀ r, t.runId = some r → (db.runs.get? r).isSome
  threads : ∀ t ∈ db.turns, ∀ root, t.threadRootId = some root → (db.messages.get? root).isSome
  answers : ∀ m ∈ db.messages, ∀ t r, m.answers = some (t, r) → (db.runs.get? r).isSome ∧
    ∃ row, db.turns.get? t = some row ∧ (row.runId = some r → row.responseMessageId = some m.id)
  once : ∀ m ∈ db.messages, ∀ m' ∈ db.messages, m.answers.isSome → m.answers = m'.answers →
    m.id = m'.id

/-- The turns do not depend on the discussions. -/
theorem TurnsSound.congr {db db' : Database} (h : TurnsSound db)
    (turns : db'.turns = db.turns) (runs : db'.runs = db.runs)
    (messages : db'.messages = db.messages) : TurnsSound db' := by
  constructor
  case running => rw [turns]; exact h.running
  case requests => rw [turns]; exact h.requests
  case positions => rw [turns]; exact h.positions
  case completed => rw [turns]; exact h.completed
  case runs => rw [turns, runs]; exact h.runs
  case threads => rw [turns, messages]; exact h.threads
  case answers => rw [turns, runs, messages]; exact h.answers
  case once => rw [messages]; exact h.once

/-- The other tables, where at most one answer is new. -/
structure Aside (new : Option MessageRow) (db db' : Database) : Prop where
  turns : db'.turns = db.turns
  discussions : db'.discussions = db.discussions
  fences : db'.fences = db.fences
  messages : ∀ id m, db.messages.get? id = some m →
    ∃ m', db'.messages.get? id = some m' ∧ m'.answers = m.answers
  answers : ∀ m ∈ db'.messages, m.answers.isSome →
    (∃ old, db.messages.get? m.id = some old ∧ old.answers = m.answers) ∨ new = some m
  runs : ∀ id, (db.runs.get? id).isSome → (db'.runs.get? id).isSome
  tasks : ∀ id, (db.tasks.get? id).isSome → (db'.tasks.get? id).isSome

variable {db db' : Database} {new : Option MessageRow}

theorem Aside.message (h : Aside new db db') {id : String} (there : (db.messages.get? id).isSome) :
    (db'.messages.get? id).isSome := by
  obtain ⟨m, found⟩ := Option.isSome_iff_exists.mp there
  obtain ⟨m', found', _⟩ := h.messages id m found
  rw [found']
  rfl

/-- An answer that was there before, by its old row. -/
theorem Aside.back (h : Aside new db db') {m : MessageRow} (there : m ∈ db'.messages)
    (answers : m.answers.isSome) :
    (∃ old ∈ db.messages, old.id = m.id ∧ old.answers = m.answers) ∨ new = some m := by
  rcases h.answers m there answers with ⟨old, found, same⟩ | is
  · exact Or.inl ⟨old, Table.mem_of_get? found, Table.key_of_get? found, same⟩
  · exact Or.inr is

theorem TurnsSound.aside (h : TurnsSound db) (aside : Aside none db db') : TurnsSound db' := by
  constructor
  case running => rw [aside.turns]; exact h.running
  case requests => rw [aside.turns]; exact h.requests
  case positions => rw [aside.turns]; exact h.positions
  case completed => rw [aside.turns]; exact h.completed
  case runs => rw [aside.turns]; exact fun t there r is => aside.runs r (h.runs t there r is)
  case threads =>
    rw [aside.turns]
    exact fun t there root is => aside.message (h.threads t there root is)
  case answers =>
    intro m there t r is
    rcases aside.back there (by rw [is]; rfl) with ⟨old, ho, key, same⟩ | ⟨⟨⟩⟩
    obtain ⟨run, row, found, response⟩ := h.answers old ho t r (same.trans is)
    rw [aside.turns, ← key]
    exact ⟨aside.runs r run, row, found, response⟩
  case once =>
    intro m there m' there' is same
    rcases aside.back there is with ⟨old, ho, key, link⟩ | ⟨⟨⟩⟩
    rcases aside.back there' (same ▸ is) with ⟨old', ho', key', link'⟩ | ⟨⟨⟩⟩
    rw [← key, ← key']
    exact h.once old ho old' ho' (link ▸ is) (link.trans (same.trans link'.symm))

/-- One turn changes, perhaps with its answer. -/
theorem TurnsSound.setTurn (h : TurnsSound db) (aside : Aside new db db')
    (found : db.turns.get? row.id = some row) (later : TurnLater row row')
    (running : row'.status = .running → row.status = .running ∨
      ∀ u ∈ db.turns, u.status = .running → u.conversation = row.conversation → u.id = row.id)
    (completed : row'.status = .completed → row'.responseMessageId.isSome)
    (runs : ∀ r, row'.runId = some r → (db'.runs.get? r).isSome)
    (answers : ∀ m ∈ db'.messages, ∀ r, m.answers = some (row.id, r) → row'.runId = some r →
      row'.responseMessageId = some m.id)
    (fresh : ∀ m, new = some m → ∃ r, m.answers = some (row.id, r) ∧ row'.runId = some r) :
    TurnsSound { db' with turns := db'.turns.put row' } := by
  have there : row ∈ db.turns := Table.mem_of_get? found
  have key := later.id_eq
  have case_ : ∀ t ∈ db'.turns.put row', t = row' ∨ (t ∈ db.turns ∧ t.id ≠ row.id) := by
    intro t member
    rcases Table.mem_put.mp member with is | ⟨old, other⟩
    · exact Or.inl is
    · exact Or.inr ⟨aside.turns ▸ old, key ▸ other⟩
  have only : row'.status = .running → ∀ u ∈ db.turns, u.status = .running →
      u.conversation = row'.conversation → u.id = row.id := by
    intro is u hu run same
    rw [later.conversation_eq] at same
    rcases running is with before | alone
    · exact h.running u hu row there run before same
    · exact alone u hu run same
  constructor
  case running =>
    intro a ha b hb runsA runsB same
    rcases case_ a ha with rfl | ⟨oldA, otherA⟩
    · rcases case_ b hb with rfl | ⟨oldB, otherB⟩
      · rfl
      · exact absurd (only runsA b oldB runsB same.symm) otherB
    · rcases case_ b hb with rfl | ⟨oldB, _⟩
      · exact absurd (only runsB a oldA runsA same) otherA
      · exact h.running a oldA b oldB runsA runsB same
  case requests =>
    intro a ha b hb same
    rcases case_ a ha with rfl | ⟨oldA, otherA⟩
    · rcases case_ b hb with rfl | ⟨oldB, otherB⟩
      · rfl
      · exact absurd (h.requests b oldB row there (same.symm.trans later.request_eq)) otherB
    · rcases case_ b hb with rfl | ⟨oldB, _⟩
      · exact absurd (h.requests a oldA row there (same.trans later.request_eq)) otherA
      · exact h.requests a oldA b oldB same
  case positions =>
    intro a ha b hb scope same
    rcases case_ a ha with rfl | ⟨oldA, otherA⟩
    · rcases case_ b hb with rfl | ⟨oldB, otherB⟩
      · rfl
      · exact absurd (h.positions b oldB row there (scope.symm.trans later.conversation_eq)
          (same.symm.trans later.position_eq)) otherB
    · rcases case_ b hb with rfl | ⟨oldB, _⟩
      · exact absurd (h.positions a oldA row there (scope.trans later.conversation_eq)
          (same.trans later.position_eq)) otherA
      · exact h.positions a oldA b oldB scope same
  case completed =>
    intro t ht is
    rcases case_ t ht with rfl | ⟨old, _⟩
    · exact completed is
    · exact h.completed t old is
  case runs =>
    intro t ht r is
    rcases case_ t ht with rfl | ⟨old, _⟩
    · exact runs r is
    · exact aside.runs r (h.runs t old r is)
  case threads =>
    intro t ht root is
    rcases case_ t ht with rfl | ⟨old, _⟩
    · exact aside.message (h.threads row there root (later.thread_eq ▸ is))
    · exact aside.message (h.threads t old root is)
  case answers =>
    intro m hm t r is
    rcases aside.back hm (by rw [is]; rfl) with ⟨old, ho, same, link⟩ | isNew
    · obtain ⟨run, row₀, found₀, response⟩ := h.answers old ho t r (link.trans is)
      refine ⟨aside.runs r run, ?_⟩
      by_cases hit : row.id = t
      · subst hit
        exact ⟨row', key ▸ Table.get?_put_self, answers m hm r is⟩
      · refine ⟨row₀, ?_, same ▸ response⟩
        change (db'.turns.put row').get? t = _
        rw [Table.get?_put_other (key ▸ hit), aside.turns]
        exact found₀
    · obtain ⟨r', is', bound⟩ := fresh m isNew
      rw [is] at is'
      cases is'
      exact ⟨runs r bound, row', key ▸ Table.get?_put_self, answers m hm r is⟩
  case once =>
    intro m hm m' hm' is same
    have unique : ∀ n ∈ db'.messages, ∀ n' ∈ db'.messages, new = some n →
        n.answers = n'.answers → n.id = n'.id := by
      intro n hn n' hn' isNew same
      obtain ⟨r, link, bound⟩ := fresh n isNew
      have first := answers n hn r link bound
      rw [answers n' hn' r (same ▸ link) bound] at first
      exact (Option.some.inj first).symm
    rcases aside.back hm is with ⟨old, ho, id, link⟩ | isNew
    · rcases aside.back hm' (same ▸ is) with ⟨old', ho', id', link'⟩ | isNew'
      · rw [← id, ← id']
        exact h.once old ho old' ho' (link ▸ is) (link.trans (same.trans link'.symm))
      · exact (unique m' hm' m hm isNew' same.symm).symm
    · exact unique m hm m' hm' isNew same

/-- A turn is added, queued. -/
theorem TurnsSound.addTurn (h : TurnsSound db) (fresh : db.turns.get? t.id = none)
    (request : ∀ u ∈ db.turns, u.request ≠ t.request)
    (last : ∀ u ∈ db.turns, u.conversation = t.conversation → u.position < t.position)
    (queued : t.status = .queued) (unbound : t.runId = none)
    (thread : ∀ root, t.threadRootId = some root → (db.messages.get? root).isSome) :
    TurnsSound { db with turns := db.turns.put t } := by
  have case_ : ∀ u ∈ db.turns.put t, u = t ∨ u ∈ db.turns := by
    intro u member
    rcases Table.mem_put.mp member with is | ⟨old, _⟩
    · exact Or.inl is
    · exact Or.inr old
  constructor
  case running =>
    intro a ha b hb runsA runsB same
    rcases case_ a ha with rfl | oldA
    · rw [queued] at runsA
      cases runsA
    · rcases case_ b hb with rfl | oldB
      · rw [queued] at runsB
        cases runsB
      · exact h.running a oldA b oldB runsA runsB same
  case requests =>
    intro a ha b hb same
    rcases case_ a ha with rfl | oldA
    · rcases case_ b hb with rfl | oldB
      · rfl
      · exact absurd same.symm (request b oldB)
    · rcases case_ b hb with rfl | oldB
      · exact absurd same (request a oldA)
      · exact h.requests a oldA b oldB same
  case positions =>
    intro a ha b hb scope same
    rcases case_ a ha with rfl | oldA
    · rcases case_ b hb with rfl | oldB
      · rfl
      · exact absurd same.symm (Nat.ne_of_lt (last b oldB scope.symm))
    · rcases case_ b hb with rfl | oldB
      · exact absurd same (Nat.ne_of_lt (last a oldA scope))
      · exact h.positions a oldA b oldB scope same
  case completed =>
    intro u hu is
    rcases case_ u hu with rfl | old
    · rw [queued] at is
      cases is
    · exact h.completed u old is
  case runs =>
    intro u hu r is
    rcases case_ u hu with rfl | old
    · rw [unbound] at is
      cases is
    · exact h.runs u old r is
  case threads =>
    intro u hu root is
    rcases case_ u hu with rfl | old
    · exact thread root is
    · exact h.threads u old root is
  case answers =>
    intro m hm t' r is
    obtain ⟨run, row, found, response⟩ := h.answers m hm t' r is
    refine ⟨run, row, ?_, response⟩
    have other : t.id ≠ t' := by
      rintro rfl
      rw [fresh] at found
      cases found
    change (db.turns.put t).get? t' = _
    rw [Table.get?_put_other other]
    exact found
  case once => exact h.once

end Artoo.Assistants
