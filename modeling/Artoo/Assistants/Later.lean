import Artoo.Assistants.Dispatchers

/-! What the commits of others leave of the turns, the discussions and the answers. -/
namespace Artoo.Assistants
open Artoo.Lib

/-- The columns of a turn that never change. -/
def TurnRow.origin (t : TurnRow) : TurnRow :=
  { t with responseMessageId := none, runId := none, status := .queued, error := none, retries := 0 }

/-- The turn may still be bound to a run. -/
def TurnRow.unbound (t : TurnRow) : Bool := t.pending && t.runId.isNone

/-- Settled, or retried. -/
def TurnRow.Past (t : TurnRow) : Prop := t.pending = false ∨ 0 < t.retries

def TurnRow.answered (t : TurnRow) : Prop := t.status = .completed ∧ t.responseMessageId.isSome

/-- What only an explicit retry undoes. -/
structure Kept (row row' : TurnRow) : Prop where
  settled : row.pending = false → row'.status = row.status ∧ row'.runId = row.runId
  bound : ∀ r, row.runId = some r → row'.runId = some r
  response : ∀ m, row.responseMessageId = some m → row'.responseMessageId = some m

structure TurnLater (row row' : TurnRow) : Prop where
  origin : row'.origin = row.origin
  retries : row.retries ≤ row'.retries
  kept : row'.retries = row.retries → Kept row row'
  answered : row.answered → row' = row

variable {a b c row row' : TurnRow}

theorem Kept.refl (row : TurnRow) : Kept row row := ⟨fun _ => ⟨rfl, rfl⟩, fun _ is => is, fun _ is => is⟩

theorem Kept.trans (first : Kept a b) (last : Kept b c) : Kept a c := by
  constructor
  · intro settled
    obtain ⟨status, run⟩ := first.settled settled
    have settled' : b.pending = false := by
      unfold TurnRow.pending
      rw [status]
      exact settled
    obtain ⟨status', run'⟩ := last.settled settled'
    exact ⟨status'.trans status, run'.trans run⟩
  · exact fun r is => last.bound r (first.bound r is)
  · exact fun m is => last.response m (first.response m is)

theorem TurnLater.refl (row : TurnRow) : TurnLater row row :=
  ⟨rfl, Nat.le_refl _, fun _ => Kept.refl row, fun _ => rfl⟩

theorem TurnLater.trans (first : TurnLater a b) (last : TurnLater b c) : TurnLater a c := by
  have le := first.retries
  have le' := last.retries
  constructor
  · exact last.origin.trans first.origin
  · exact Nat.le_trans le le'
  · intro same
    exact (first.kept (by omega)).trans (last.kept (by omega))
  · intro answered
    have same := first.answered answered
    rw [same] at last
    exact last.answered answered

theorem TurnLater.id_eq (h : TurnLater row row') : row'.id = row.id := by
  have same := congrArg TurnRow.id h.origin
  exact same

theorem TurnLater.position_eq (h : TurnLater row row') : row'.position = row.position := by
  have same := congrArg TurnRow.position h.origin
  exact same

theorem TurnLater.conversation_eq (h : TurnLater row row') :
    row'.conversation = row.conversation := by
  have same := congrArg TurnRow.conversation h.origin
  exact same

theorem TurnLater.thread_eq (h : TurnLater row row') : row'.threadRootId = row.threadRootId := by
  have same := congrArg TurnRow.threadRootId h.origin
  exact same

theorem TurnLater.request_eq (h : TurnLater row row') : row'.request = row.request := by
  have same := congrArg TurnRow.request h.origin
  exact same

theorem TurnLater.pending_eq (h : TurnLater row row') (same : row'.retries = row.retries)
    (settled : row.pending = false) : row'.pending = false := by
  unfold TurnRow.pending
  rw [((h.kept same).settled settled).1]
  exact settled

theorem TurnLater.past (h : TurnLater row row') (past : row.Past) : row'.Past := by
  have le := h.retries
  rcases past with settled | retried
  · by_cases same : row'.retries = row.retries
    · exact Or.inl (h.pending_eq same settled)
    · exact Or.inr (by omega)
  · exact Or.inr (by omega)

/-- Without a retry, what is settled or bound stays so. -/
theorem TurnLater.unbound_eq (h : TurnLater row row') (same : row'.retries = row.retries)
    (off : row.unbound = false) : row'.unbound = false := by
  unfold TurnRow.unbound at off ⊢
  rw [Bool.and_eq_false_iff] at off ⊢
  rcases off with settled | bound
  · exact Or.inl (h.pending_eq same settled)
  · right
    rw [Option.isNone_eq_false_iff, Option.isSome_iff_exists] at bound
    obtain ⟨r, is⟩ := bound
    rw [(h.kept same).bound r is]
    rfl

/-! ## Discussions -/

/-- The columns of a discussion that never change. -/
def DiscussionRow.origin (d : DiscussionRow) : DiscussionRow :=
  { d with status := .running, currentStep := 0, activeTurnId := none, finalMessageId := none
           planId := none, error := none }

def DiscussionRow.closed (d : DiscussionRow) : Prop := d.status = .failed ∨ d.status = .cancelled

structure DiscussionLater (d d' : DiscussionRow) : Prop where
  origin : d'.origin = d.origin
  stopped : d.status ≠ .running → d'.status ≠ .running ∧ d'.currentStep = d.currentStep ∧
    d'.activeTurnId = d.activeTurnId ∧ d'.finalMessageId = d.finalMessageId
  settled : d.active = false → d'.status = d.status

variable {d d' d'' : DiscussionRow}

theorem DiscussionLater.refl (d : DiscussionRow) : DiscussionLater d d :=
  ⟨rfl, fun off => ⟨off, rfl, rfl, rfl⟩, fun _ => rfl⟩

theorem DiscussionLater.trans (first : DiscussionLater d d') (last : DiscussionLater d' d'') :
    DiscussionLater d d'' := by
  constructor
  · exact last.origin.trans first.origin
  · intro off
    obtain ⟨off', step, active, final⟩ := first.stopped off
    obtain ⟨off'', step', active', final'⟩ := last.stopped off'
    exact ⟨off'', step'.trans step, active'.trans active, final'.trans final⟩
  · intro settled
    have same := first.settled settled
    have settled' : d'.active = false := by
      unfold DiscussionRow.active
      rw [same]
      exact settled
    exact (last.settled settled').trans same

theorem DiscussionLater.id_eq (h : DiscussionLater d d') : d'.id = d.id := by
  have same := congrArg DiscussionRow.id h.origin
  exact same

theorem DiscussionLater.root_eq (h : DiscussionLater d d') : d'.threadRootId = d.threadRootId := by
  have same := congrArg DiscussionRow.threadRootId h.origin
  exact same

theorem DiscussionLater.task_eq (h : DiscussionLater d d') : d'.taskId = d.taskId := by
  have same := congrArg DiscussionRow.taskId h.origin
  exact same

/-! ## Answers -/

/-- The turn and the run that a message answers. -/
def MessageRow.answers (m : MessageRow) : Option (String × String) :=
  m.turnId.bind fun t => m.runId.map fun r => (t, r)

def MessageRow.answersTurn (m : MessageRow) (turnId : String) : Prop :=
  ∃ r, m.answers = some (turnId, r)

theorem MessageRow.answers_eq {m : MessageRow} {t r : String} :
    m.answers = some (t, r) ↔ m.turnId = some t ∧ m.runId = some r := by
  unfold MessageRow.answers
  cases m.turnId with
  | none => simp
  | some t' => cases m.runId with
    | none => simp
    | some r' => simp

/-! ## Databases -/

/-- A discussion's thread is not one of the room's conversations. -/
def Database.ordinary (db : Database) (t : TurnRow) : Prop :=
  ∀ d ∈ db.discussions, t.threadRootId ≠ some d.threadRootId

structure Later (db db' : Database) : Prop where
  turns : ∀ id row, db.turns.get? id = some row →
    ∃ row', db'.turns.get? id = some row' ∧ TurnLater row row'
  /-- a new turn comes after those of its conversation, and its thread is there -/
  added : ∀ t ∈ db'.turns, db.turns.get? t.id = none →
    ∀ u ∈ db.turns, u.conversation = t.conversation → u.position < t.position
  discussions : ∀ id d, db.discussions.get? id = some d →
    ∃ d', db'.discussions.get? id = some d' ∧ DiscussionLater d d'
  opened : ∀ d ∈ db'.discussions, db.discussions.get? d.id = none →
    db.messages.get? d.threadRootId = none ∧ db.tasks.get? d.taskId = none
  messages : ∀ id m, db.messages.get? id = some m →
    ∃ m', db'.messages.get? id = some m' ∧ m'.answers = m.answers
  runs : ∀ id, (db.runs.get? id).isSome → (db'.runs.get? id).isSome
  tasks : ∀ id, (db.tasks.get? id).isSome → (db'.tasks.get? id).isSome
  fences : ∀ id k, db.fences id = some k → db'.fences id = some k

variable {db db' db'' : Database}

theorem Later.refl (db : Database) : Later db db := by
  constructor
  case turns => exact fun _ row found => ⟨row, found, TurnLater.refl row⟩
  case added =>
    intro t there absent
    rw [Table.get?_of_mem there] at absent
    cases absent
  case discussions => exact fun _ d found => ⟨d, found, DiscussionLater.refl d⟩
  case opened =>
    intro d there absent
    rw [Table.get?_of_mem there] at absent
    cases absent
  case messages => exact fun _ m found => ⟨m, found, rfl⟩
  case runs => exact fun _ there => there
  case tasks => exact fun _ there => there
  case fences => exact fun _ _ is => is

theorem Later.turn_mem (h : Later db db') (there : row ∈ db.turns) :
    ∃ row' ∈ db'.turns, TurnLater row row' := by
  obtain ⟨row', found, later⟩ := h.turns row.id row (Table.get?_of_mem there)
  exact ⟨row', Table.mem_of_get? found, later⟩

/-- A turn that was there already, as it was. -/
theorem Later.turn_back (h : Later db db') {t : TurnRow} (there : t ∈ db'.turns)
    {old : TurnRow} (found : db.turns.get? t.id = some old) : TurnLater old t := by
  obtain ⟨row', found', later⟩ := h.turns t.id old found
  rw [Table.get?_of_mem there] at found'
  cases found'
  exact later

theorem Later.discussion_back (h : Later db db') (there : d' ∈ db'.discussions)
    (found : db.discussions.get? d'.id = some d) : DiscussionLater d d' := by
  obtain ⟨e, found', later⟩ := h.discussions d'.id d found
  rw [Table.get?_of_mem there] at found'
  cases found'
  exact later

theorem none_of_later {α κ : Type} [DecidableEq κ] {key : α → κ} {t t' : Table key} {k : κ}
    (kept : ∀ row, t.get? k = some row → ∃ row', t'.get? k = some row') (off : t'.get? k = none) :
    t.get? k = none := by
  cases found : t.get? k with
  | none => rfl
  | some row =>
    obtain ⟨row', is⟩ := kept row found
    rw [off] at is
    cases is

theorem Later.trans (first : Later db db') (last : Later db' db'') : Later db db'' := by
  constructor
  case turns =>
    intro id row found
    obtain ⟨row', found', step⟩ := first.turns id row found
    obtain ⟨row'', found'', step'⟩ := last.turns id row' found'
    exact ⟨row'', found'', step.trans step'⟩
  case added =>
    intro t there absent u hu same
    obtain ⟨u', hu', later⟩ := first.turn_mem hu
    cases mid : db'.turns.get? t.id with
    | none =>
      rw [← later.position_eq]
      exact last.added t there mid u' hu' (later.conversation_eq.trans same)
    | some t' =>
      have step := last.turn_back there mid
      rw [step.position_eq]
      have key : t'.id = t.id := Table.key_of_get? mid
      exact first.added t' (Table.mem_of_get? mid) (key ▸ absent) u hu
        (same.trans step.conversation_eq)
  case discussions =>
    intro id d found
    obtain ⟨d', found', step⟩ := first.discussions id d found
    obtain ⟨d'', found'', step'⟩ := last.discussions id d' found'
    exact ⟨d'', found'', step.trans step'⟩
  case opened =>
    intro d there absent
    cases mid : db'.discussions.get? d.id with
    | none =>
      obtain ⟨root, task⟩ := last.opened d there mid
      constructor
      · apply none_of_later _ root
        intro m found
        obtain ⟨m', found', _⟩ := first.messages _ m found
        exact ⟨m', found'⟩
      · apply none_of_later _ task
        intro t found
        exact Option.isSome_iff_exists.mp (first.tasks _ (by rw [found]; rfl))
    | some d' =>
      have step := last.discussion_back there mid
      have key : d'.id = d.id := Table.key_of_get? mid
      rw [step.root_eq, step.task_eq]
      exact first.opened d' (Table.mem_of_get? mid) (key ▸ absent)
  case messages =>
    intro id m found
    obtain ⟨m', found', same⟩ := first.messages id m found
    obtain ⟨m'', found'', same'⟩ := last.messages id m' found'
    exact ⟨m'', found'', same'.trans same⟩
  case runs => exact fun id there => last.runs id (first.runs id there)
  case tasks => exact fun id there => last.tasks id (first.tasks id there)
  case fences => exact fun id k is => last.fences id k (first.fences id k is)

/-! ## Locks -/

/-- What the holder of a lock sees unchanged. -/
def Lock.Same (db db' : Database) : Lock → Prop
  | .user _ | .goal _ | .agent _ => True
  | .task id => db.tasks.get? id = none → db'.tasks.get? id = none
  | .run id => db'.runs.get? id = db.runs.get? id
  | .message id => db'.messages.get? id = db.messages.get? id
  -- no turn is added to the conversations of the room
  | .room id => ∀ t ∈ db'.turns, t.roomId = id → db'.ordinary t → (db.turns.get? t.id).isSome
  -- the turn, its answers, and the fence of the discussion whose last turn it is
  | .turn id => db'.turns.get? id = db.turns.get? id ∧
      (∀ m ∈ db'.messages, m.answersTurn id → (db.messages.get? m.id).isSome) ∧
      ∀ d ∈ db'.discussions, db.fences d.id = none → ∀ k, db'.fences d.id = some k →
        d.activeTurnId = some id → ∀ row, db.turns.get? id = some row → k = row.retries
  -- the discussion, and the turns of its thread
  | .discussion id => db'.discussions.get? id = db.discussions.get? id ∧
      ∀ d ∈ db'.discussions, d.id = id → ∀ t ∈ db'.turns, t.threadRootId = some d.threadRootId →
        (db.turns.get? t.id).isSome
  | .request key => ∀ t ∈ db'.turns, t.request = key → (db.turns.get? t.id).isSome
  | .conversation scope => ∀ t ∈ db'.turns, t.status = .running → t.conversation = scope →
      ∃ u, db.turns.get? t.id = some u ∧ u.status = .running
  | .activeDiscussion goalId => ∀ d ∈ db'.discussions, d.active → d.goalId = goalId →
      ∃ e, db.discussions.get? d.id = some e ∧ e.active

theorem Lock.Same.refl (k : Lock) (db : Database) : k.Same db db := by
  have there : ∀ t ∈ db.turns, (db.turns.get? t.id).isSome := fun t member => by
    rw [Table.get?_of_mem member]
    rfl
  cases k with
  | user | goal | agent => trivial
  | task id => exact fun absent => absent
  | run | message => rfl
  | room id => exact fun t member _ _ => there t member
  | turn id =>
    refine ⟨rfl, fun m member _ => ?_, fun d _ none_ k is => ?_⟩
    · rw [Table.get?_of_mem member]
      rfl
    · rw [none_] at is
      cases is
  | discussion id => exact ⟨rfl, fun _ _ _ t member _ => there t member⟩
  | request key => exact fun t member _ => there t member
  | conversation scope => exact fun t member running _ => ⟨t, Table.get?_of_mem member, running⟩
  | activeDiscussion goalId => exact fun d member active _ => ⟨d, Table.get?_of_mem member, active⟩

/-- A fence is that of a stopped discussion. -/
def FencesStopped (db : Database) : Prop :=
  ∀ id k, db.fences id = some k → ∃ d, db.discussions.get? id = some d ∧ d.status ≠ .running

theorem Later.ordinary (h : Later db db') {t t' : TurnRow} (thread : t'.threadRootId = t.threadRootId)
    (off : db'.ordinary t') : db.ordinary t := by
  intro d there is
  obtain ⟨d', found, later⟩ := h.discussions d.id d (Table.get?_of_mem there)
  apply off d' (Table.mem_of_get? found)
  rw [thread, is, later.root_eq]

theorem Lock.Same.trans {k : Lock} (earlier : Later db db') (later : Later db' db'')
    (stopped : FencesStopped db') (first : k.Same db db') (last : k.Same db' db'') :
    k.Same db db'' := by
  have back : ∀ t ∈ db''.turns, (db'.turns.get? t.id).isSome →
      ∃ u ∈ db'.turns, u.id = t.id ∧ TurnLater u t := by
    intro t there old
    obtain ⟨u, found⟩ := Option.isSome_iff_exists.mp old
    exact ⟨u, Table.mem_of_get? found, Table.key_of_get? found, later.turn_back there found⟩
  cases k with
  | user | goal | agent => trivial
  | task id => exact fun absent => last (first absent)
  | run | message => exact Eq.trans last first
  | room id =>
    intro t there room off
    obtain ⟨u, hu, key, step⟩ := back t there (last t there room off)
    rw [← key]
    refine first u hu ?_ (later.ordinary step.thread_eq off)
    rw [← room]
    exact (congrArg Prod.fst step.conversation_eq).symm
  | turn id =>
    obtain ⟨same, answers, fences⟩ := first
    obtain ⟨same', answers', fences'⟩ := last
    refine ⟨same'.trans same, fun m there answer => ?_, fun d there none_ n is active row found => ?_⟩
    · obtain ⟨m', found⟩ := Option.isSome_iff_exists.mp (answers' m there answer)
      obtain ⟨m'', found'', link⟩ := later.messages m.id m' found
      rw [Table.get?_of_mem there] at found''
      cases found''
      obtain ⟨r, is⟩ := answer
      have key : m'.id = m.id := Table.key_of_get? found
      rw [← key]
      exact answers m' (Table.mem_of_get? found) ⟨r, link.symm.trans is⟩
    · cases mid : db'.fences d.id with
      | none => exact fences' d there mid n is active row (same ▸ found)
      | some n' =>
        have again := later.fences d.id n' mid
        rw [is] at again
        cases again
        obtain ⟨e, found', off⟩ := stopped d.id n mid
        have step := later.discussion_back there found'
        have key : e.id = d.id := Table.key_of_get? found'
        refine fences e (Table.mem_of_get? found') (key ▸ none_) n (key ▸ mid) ?_ row found
        rw [← (step.stopped off).2.2.1]
        exact active
  | discussion id =>
    refine ⟨last.1.trans first.1, fun d there key t ht thread => ?_⟩
    obtain ⟨u, hu, same, step⟩ := back t ht (last.2 d there key t ht thread)
    rw [← same]
    have found : db'.discussions.get? d.id = some d := by
      rw [key, ← last.1, ← key]
      exact Table.get?_of_mem there
    exact first.2 d (Table.mem_of_get? found) key u hu (step.thread_eq ▸ thread)
  | request key =>
    intro t there is
    obtain ⟨u, hu, same, step⟩ := back t there (last t there is)
    rw [← same]
    exact first u hu (step.request_eq ▸ is)
  | conversation scope =>
    intro t there running is
    obtain ⟨u, found, running'⟩ := last t there running is
    have step := later.turn_back there found
    have same : u.id = t.id := Table.key_of_get? found
    rw [← same]
    exact first u (Table.mem_of_get? found) running' (step.conversation_eq ▸ is)
  | activeDiscussion goalId =>
    intro d there active is
    obtain ⟨e, found, active'⟩ := last d there active is
    have step := later.discussion_back there found
    have same : e.id = d.id := Table.key_of_get? found
    rw [← same]
    have goal := congrArg DiscussionRow.goalId step.origin
    exact first e (Table.mem_of_get? found) active' (goal.symm.trans is)

end Artoo.Assistants
