import Artoo.Assistants.Runs

/-! The queue of assistant turns over any run of the processes. -/
namespace Artoo.Assistants
open Artoo.Lib Tx

variable {s : Standing} {kind : Kind} {id r : String} {row row' : TurnRow} {d : Deployment}
  {c c' : Server}

/-! ## What a commit does to one turn -/

/-- A turn that is not as it was is written. -/
theorem written_of_changed (found : s.db.turns.get? id = some row)
    (found' : s.view.turns.get? id = some row') (changed : row' ≠ row) : row' ∈ turnsOf s.log := by
  rcases turn_cases (Table.mem_of_get? found') with wrote | old
  · exact wrote
  · have same := Table.get?_of_mem old
    have key : row'.id = id := Table.key_of_get? found'
    rw [key, found] at same
    exact absurd (Option.some.inj same).symm changed

/-- The changes of a turn that was there. -/
inductive Changes (kind : Kind) (s : Standing) (row row' : TurnRow) : Prop where
  | touch : Touch kind row row' → Changes kind s row row'
  | dispatch {runId : String} : row' = row.start runId → kind = .dispatch row.id → row.unbound →
      Admitted s.db row → Changes kind s row row'
  | answer {messageId : String} : row' = row.answer messageId → Changes kind s row row'

theorem Effect.changes (h : Effect kind s) (found : s.db.turns.get? id = some row)
    (there : row' ∈ turnsOf s.log) (key : row'.id = id) : Changes kind s row row' := by
  have same : ∀ {old : TurnRow}, s.db.turns.get? old.id = some old → old.id = id → old = row := by
    intro old found' is
    rw [is, found] at found'
    exact (Option.some.inj found').symm
  have fresh : ∀ {t : TurnRow}, Adds s.db t → row' ≠ t := by
    rintro t adds rfl
    have absent := adds.fresh
    rw [key, found] at absent
    cases absent
  cases h with
  | quiet turns _ _ =>
    rw [turns] at there
    cases there
  | @touch old new turns _ _ found' touch =>
    rw [turns, List.mem_singleton] at there
    subst there
    have is := same found' (touch.id_eq.symm.trans key)
    subst is
    exact .touch touch
  | @dispatch old run turns _ is found' unbound _ _ _ admitted =>
    rw [turns, List.mem_singleton] at there
    subst there
    have is' := same found' key
    subst is'
    exact .dispatch rfl is unbound admitted
  | @answer old m r turns _ _ found' _ _ _ _ _ _ =>
    rw [turns, List.mem_singleton] at there
    subst there
    have is := same found' key
    subst is
    exact .answer rfl
  | enqueue turns _ _ adds _ _ _ =>
    rw [turns, List.mem_singleton] at there
    exact absurd there (fresh adds)
  | open_ turns _ _ _ _ _ _ _ _ _ _ _ =>
    rw [turns] at there
    cases there
  | @discuss _ _ added _ turns _ _ _ _ advances =>
    rw [turns] at there
    cases added with
    | none => cases there
    | some t =>
      cases advances with
      | ask _ _ _ adds _ _ => exact absurd (List.mem_singleton.mp there) (fresh adds)

/-- Only a dispatch binds a turn to a run. -/
theorem Changes.binds (h : Changes kind s row row') (free : row.runId = none)
    (bound : row'.runId = some r) : kind = .dispatch row.id ∧ row.unbound ∧ Admitted s.db row := by
  cases h with
  | touch touch =>
    rw [(touch.bound bound).1] at free
    cases free
  | dispatch _ is unbound admitted => exact ⟨is, unbound, admitted⟩
  | answer is =>
    rw [is] at bound
    change row.runId = some r at bound
    rw [free] at bound
    cases bound

/-- Only a retry counts. -/
theorem Changes.retries (h : Changes kind s row row') (more : row.retries < row'.retries) :
    kind = .retry row.id := by
  cases h with
  | touch touch =>
    cases touch with
    | settle _ _ _ => exact absurd more (Nat.lt_irrefl _)
    | cancel _ => exact absurd more (Nat.lt_irrefl _)
    | retry _ is => exact is
  | dispatch is _ _ _ =>
    rw [is] at more
    exact absurd more (Nat.lt_irrefl _)
  | answer is =>
    rw [is] at more
    exact absurd more (Nat.lt_irrefl _)

/-! ## Commits -/

/-- What the commit of a stage was, by its transaction. -/
structure Committed (stage next : Stage) (db db' : Database) (s : Standing) : Prop where
  db_eq : s.db = db
  view_eq : s.view.fence = db'
  ends : Ends stage.kind s
  result : ∃ began, stage.Result began next s
  knows : stage.Knows db

theorem committed {stage next : Stage} (holds : c.Holds assistantRely Stage.Spec Sound Informed)
    (commits : Crew.Commits (code d) stage next c c') :
    ∃ s, Committed stage next c.world.db c'.world.db s := by
  obtain ⟨knows, began, t, same, view, _, s, rfl, ends, result⟩ := commits.ends holds
  exact ⟨s, same, fenced_view.symm.trans view, ends, ⟨began, result⟩, knows.2⟩

/-- A turn that a step changes is changed by the commit of a stage. -/
theorem step_changes {l : Nat × Crew.Move Draw Failure Stage}
    (holds : c.Holds assistantRely Stage.Spec Sound Informed) (step : ServerStep d l c c')
    (found : c.world.db.turns.get? id = some row) (found' : c'.world.db.turns.get? id = some row')
    (changed : row' ≠ row) : ∃ stage next s, Crew.Commits (code d) stage next c c' ∧
      Committed stage next c.world.db c'.world.db s ∧ Changes stage.kind s row row' := by
  have moved : c'.world.db ≠ c.world.db := by
    intro same
    rw [same, found] at found'
    exact changed (Option.some.inj found').symm
  obtain ⟨stage, next, commits⟩ := Crew.step_commits step moved
  obtain ⟨s, is⟩ := committed holds commits
  refine ⟨stage, next, s, commits, is, ?_⟩
  rw [← is.db_eq] at found
  rw [← is.view_eq] at found'
  exact is.ends.effect.changes found (written_of_changed found found' changed)
    (Table.key_of_get? found')

theorem kind_dispatch {stage : Stage} (is : stage.kind = .dispatch id) :
    ∃ turn left seen, stage = .assign turn left seen ∧ turn.id = id := by
  cases stage with
  | assign turn left seen =>
    cases is
    exact ⟨turn, left, seen, rfl, rfl⟩
  | call call => cases call <;> cases is
  | _ => cases is

theorem kind_retry {stage : Stage} (is : stage.kind = .retry id) : stage = .retry id := by
  cases stage with
  | retry id' =>
    cases is
    rfl
  | call call => cases call <;> cases is
  | _ => cases is

/-! ## Order -/

/-- The step binds the turn to the run. -/
def Dispatched (c c' : Server) (id r : String) : Prop :=
  ∃ row row', c.world.db.turns.get? id = some row ∧ row.runId = none ∧
    c'.world.db.turns.get? id = some row' ∧ row'.runId = some r

/-- A turn is dispatched when it is pending and the earlier ones of its conversation are past, and
one of a discussion that has stopped as often retried as then. -/
theorem dispatched_past {l : Nat × Crew.Move Draw Failure Stage}
    (holds : c.Holds assistantRely Stage.Spec Sound Informed) (step : ServerStep d l c c')
    (dispatched : Dispatched c c' id r) : ∃ row, c.world.db.turns.get? id = some row ∧ row.unbound ∧
      Admitted c.world.db row ∧ ∀ a ∈ c.world.db.turns, a.conversation = row.conversation →
        a.position < row.position → a.Past := by
  obtain ⟨row, row', found, free, found', bound⟩ := dispatched
  have changed : row' ≠ row := by
    rintro rfl
    rw [free] at bound
    cases bound
  obtain ⟨stage, next, s, _, is, changes⟩ := step_changes holds step found found' changed
  obtain ⟨kind, unbound, admitted⟩ := changes.binds free bound
  obtain ⟨turn, left, seen, rfl, key⟩ := kind_dispatch kind
  obtain ⟨_, covered⟩ := is.knows
  obtain ⟨known, member, origin⟩ := covered.rows turn (List.mem_singleton_self _)
  have same : known = row := by
    have there := Table.get?_of_mem member
    have id_eq : row.id = id := Table.key_of_get? found
    rw [origin_id origin, key, id_eq, found] at there
    exact (Option.some.inj there).symm
  subst same
  obtain ⟨conversation, position⟩ := origin_conversation origin
  refine ⟨known, found, unbound, is.db_eq ▸ admitted, fun a there scope earlier => ?_⟩
  exact covered.past there (scope.trans conversation) (position ▸ earlier)

/-- What holds of the turns in every state of a run. -/
structure InOrder (d : Deployment) (c : Server) : Prop where
  /-- one turn of a conversation runs -/
  running : ∀ a ∈ c.world.db.turns, ∀ b ∈ c.world.db.turns, a.status = .running →
    b.status = .running → a.conversation = b.conversation → a = b
  /-- a dispatch has one answer -/
  answers : ∀ m ∈ c.world.db.messages, ∀ m' ∈ c.world.db.messages, m.answers.isSome →
    m.answers = m'.answers → m = m'
  /-- a request has one turn -/
  requests : ∀ a ∈ c.world.db.turns, ∀ b ∈ c.world.db.turns, a.request = b.request → a = b
  /-- and it is answered with this turn every time -/
  once : ∀ actor roomId request request' reply reply' ls (c₁ c₂ c₃ : Server),
    Crew.Commits (code d) (.enqueue actor roomId request) (.replied reply) c c₁ →
    Path (ServerStep d) ls c₁ c₂ →
    Crew.Commits (code d) (.enqueue actor roomId request') (.replied reply') c₂ c₃ →
    request'.clientRequestId = request.clientRequestId →
    ∃ turn message turn' message', reply = .enqueued turn message ∧
      reply' = .enqueued turn' message' ∧ turn'.id = turn.id
  /-- a new turn comes last in its conversation -/
  added : ∀ l (c₁ : Server), ServerStep d l c c₁ → ∀ t ∈ c₁.world.db.turns,
    c.world.db.turns.get? t.id = none → ∀ u ∈ c.world.db.turns,
    u.conversation = t.conversation → u.position < t.position
  /-- the turns of a conversation are dispatched in this order, the retried ones aside -/
  order : ∀ l ls l' t u r r' (c₁ c₂ c₃ : Server), ServerStep d l c c₁ → Dispatched c c₁ t r →
    Path (ServerStep d) ls c₁ c₂ → ServerStep d l' c₂ c₃ → Dispatched c₂ c₃ u r' →
    ∀ rowT rowU, c₂.world.db.turns.get? t = some rowT → c₂.world.db.turns.get? u = some rowU →
    rowT.conversation = rowU.conversation → rowT.position < rowU.position ∨ 0 < rowU.retries
  /-- a turn keeps its run until it is retried -/
  bound : ∀ ls (c₁ : Server), Path (ServerStep d) ls c c₁ → ∀ id row row' r,
    c.world.db.turns.get? id = some row → c₁.world.db.turns.get? id = some row' →
    row.runId = some r → row'.retries = row.retries → row'.runId = some r
  /-- and it is only retried by a request -/
  retried : ∀ l (c₁ : Server), ServerStep d l c c₁ → ∀ id row row',
    c.world.db.turns.get? id = some row → c₁.world.db.turns.get? id = some row' →
    row.retries < row'.retries → ∃ next, Crew.Commits (code d) (.retry id) next c c₁

theorem runs_later {ls : List (Nat × Crew.Move Draw Failure Stage)}
    (holds : c.Holds assistantRely Stage.Spec Sound Informed) (path : Path (ServerStep d) ls c c') :
    c'.Holds assistantRely Stage.Spec Sound Informed ∧ Later c.world.db c'.world.db := by
  obtain ⟨last, step⟩ := Crew.holds_path assistant_rules path holds
  exact ⟨last, step.1⟩

theorem step_later {l : Nat × Crew.Move Draw Failure Stage}
    (holds : c.Holds assistantRely Stage.Spec Sound Informed) (step : ServerStep d l c c') :
    c'.Holds assistantRely Stage.Spec Sound Informed ∧ Later c.world.db c'.world.db := by
  obtain ⟨id, move⟩ := l
  obtain ⟨last, rel⟩ := Crew.holds_step assistant_rules holds step
  exact ⟨last, rel.1⟩

theorem Later.turn_row {db db' : Database} (h : Later db db') (found : db.turns.get? id = some row)
    (found' : db'.turns.get? id = some row') : TurnLater row row' := by
  obtain ⟨known, is, later⟩ := h.turns id row found
  rw [found'] at is
  cases is
  exact later

theorem enqueue_replies {actor roomId : String} {request : SendAssistantTurnRequest} {reply : Reply}
    (holds : c.Holds assistantRely Stage.Spec Sound Informed)
    (commits : Crew.Commits (code d) (.enqueue actor roomId request) (.replied reply) c c') :
    ∃ turn message row, reply = .enqueued turn message ∧
      row.request = (roomId, actor, request.clientRequestId) ∧ row.id = turn.id ∧
      c'.world.db.turns.get? turn.id = some row := by
  obtain ⟨s, is⟩ := committed holds commits
  obtain ⟨_, _, same, turn, message, row, rfl, request_, found, origin⟩ := is.result
  cases same
  have asked : row.request = turn.request := by
    have both := congrArg TurnRow.request origin
    exact both
  refine ⟨turn, message, row, rfl, asked.trans request_, Table.key_of_get? found, ?_⟩
  rw [← is.view_eq]
  exact found

theorem commits_step {stage next : Stage} (commits : Crew.Commits (code d) stage next c c') :
    ∃ l, ServerStep d l c c' := by
  obtain ⟨id, lost, step, _⟩ := commits
  exact ⟨(id, .commit lost), step⟩

theorem unbound_pending (h : row.unbound) : row.pending = true ∧ row.runId = none := by
  unfold TurnRow.unbound at h
  rw [Bool.and_eq_true, Option.isNone_iff_eq_none] at h
  exact h

/-- A turn that is not retried and may still be bound was not past before. -/
theorem TurnLater.not_past (h : TurnLater row row') (unbound : row'.unbound)
    (once : row'.retries = 0) : ¬ row.Past := by
  have retries := h.retries
  rintro (settled | retried)
  · have off := h.pending_eq (by omega) settled
    rw [(unbound_pending unbound).1] at off
    cases off
  · omega

/-- And it had no run. -/
theorem TurnLater.not_bound (h : TurnLater row row') (unbound : row'.unbound)
    (once : row'.retries = 0) : row.runId ≠ some r := by
  intro bound
  have retries := h.retries
  have kept := (h.kept (by omega)).bound r bound
  rw [(unbound_pending unbound).2] at kept
  cases kept

theorem in_order {l l' : Nat × Crew.Move Draw Failure Stage}
    {ls : List (Nat × Crew.Move Draw Failure Stage)} {t u r r' : String} {c₁ c₂ c₃ : Server}
    {rowT rowU : TurnRow} (holds : c.Holds assistantRely Stage.Spec Sound Informed)
    (first : ServerStep d l c c₁) (dispatched : Dispatched c c₁ t r)
    (path : Path (ServerStep d) ls c₁ c₂) (last : ServerStep d l' c₂ c₃)
    (dispatched' : Dispatched c₂ c₃ u r') (foundT : c₂.world.db.turns.get? t = some rowT)
    (foundU : c₂.world.db.turns.get? u = some rowU) (same : rowT.conversation = rowU.conversation) :
    rowT.position < rowU.position ∨ 0 < rowU.retries := by
  obtain ⟨holds₁, step⟩ := step_later holds first
  obtain ⟨holds₂, steps⟩ := runs_later holds₁ path
  obtain ⟨waiting, is, unbound, _, _⟩ := dispatched_past holds₂ last dispatched'
  rw [foundU] at is
  cases is
  obtain ⟨started, found, _, _, past⟩ := dispatched_past holds first dispatched
  have turn := (step.trans steps).turn_row found foundT
  by_cases once : rowU.retries = 0
  · left
    rw [turn.position_eq]
    cases before : c.world.db.turns.get? u with
    | none =>
      have key : rowU.id = u := Table.key_of_get? foundU
      exact (step.trans steps).added rowU (Table.mem_of_get? foundU) (key ▸ before) started
        (Table.mem_of_get? found) (turn.conversation_eq.symm.trans same)
    | some old =>
      have later := (step.trans steps).turn_row before foundU
      have scope : old.conversation = started.conversation :=
        later.conversation_eq.symm.trans (same.symm.trans turn.conversation_eq)
      rw [later.position_eq]
      rcases Nat.lt_trichotomy old.position started.position with earlier | here | after
      · exact absurd (past old (Table.mem_of_get? before) scope earlier)
          (later.not_past unbound once)
      · have ids := holds.world.invariant.turns.positions old (Table.mem_of_get? before) started
          (Table.mem_of_get? found) scope here
        have key : old.id = u := Table.key_of_get? before
        have key' : started.id = t := Table.key_of_get? found
        obtain ⟨_, bound, _, _, found₁, is⟩ := dispatched
        rw [← key', ← ids, key] at found₁
        exact absurd is ((steps.turn_row found₁ foundU).not_bound unbound once)
      · exact after
  · exact Or.inr (Nat.pos_of_ne_zero once)

/-- The turns of every conversation are run in order, one at a time, and each is answered once. -/
theorem assistant_turns {ls : List (Nat × Crew.Move Draw Failure Stage)}
    (path : Path (ServerStep d) ls (Crew.idle {}) c) : InOrder d c := by
  have holds := runs_sound path
  have sound := holds.world.invariant.turns
  constructor
  case running =>
    intro a ha b hb runsA runsB same
    exact Table.key_inj ha hb (sound.running a ha b hb runsA runsB same)
  case answers =>
    intro m hm m' hm' is same
    exact Table.key_inj hm hm' (sound.once m hm m' hm' is same)
  case requests =>
    intro a ha b hb same
    exact Table.key_inj ha hb (sound.requests a ha b hb same)
  case once =>
    intro actor roomId request request' reply reply' ls c₁ c₂ c₃ first path last same
    obtain ⟨l, step⟩ := commits_step first
    obtain ⟨l', step'⟩ := commits_step last
    obtain ⟨holds₁, _⟩ := step_later holds step
    obtain ⟨holds₂, later⟩ := runs_later holds₁ path
    obtain ⟨holds₃, later'⟩ := step_later holds₂ step'
    obtain ⟨turn, message, row, rfl, is, key, found⟩ := enqueue_replies holds first
    obtain ⟨turn', message', row', rfl, is', key', found'⟩ := enqueue_replies holds₂ last
    refine ⟨turn, message, turn', message', rfl, rfl, ?_⟩
    obtain ⟨row'', found'', kept⟩ := (later.trans later').turns turn.id row found
    have asked : row'.request = row''.request := by
      rw [is', same, kept.request_eq, is]
    have ids := holds₃.world.invariant.turns.requests row' (Table.mem_of_get? found') row''
      (Table.mem_of_get? found'') asked
    rw [← key', ids, kept.id_eq, key]
  case added => exact fun l c₁ step => (step_later holds step).2.added
  case order =>
    intro l ls l' t u r r' c₁ c₂ c₃ first dispatched path last dispatched' rowT rowU
    exact in_order holds first dispatched path last dispatched'
  case bound =>
    intro ls c₁ path id row row' r found found' bound once
    exact (((runs_later holds path).2.turn_row found found').kept once).bound r bound
  case retried =>
    intro l c₁ step id row row' found found' more
    have changed : row' ≠ row := by
      rintro rfl
      exact Nat.lt_irrefl _ more
    obtain ⟨stage, next, s, commits, _, changes⟩ := step_changes holds step found found' changed
    have is := kind_retry (changes.retries more)
    have key : row.id = id := Table.key_of_get? found
    rw [is, key] at commits
    exact ⟨next, commits⟩

namespace Sample

abbrev Moves := List (Crew.Move Draw Failure Stage)

def artoo : Deployment := { toLowerCase := fun text => text }

def statements (n : Nat) : Moves := List.replicate n .statement

def draws (texts : List String) : Moves := texts.map fun text => .draw { text }

/-- One transaction. -/
def transaction (moves : Moves) : Moves := .begin :: moves ++ [.commit none]

def request (id : Nat) (stage : Stage) (moves : Moves) : List (Nat × Crew.Move Draw Failure Stage) :=
  (.spawn stage :: transaction moves).map fun move => (id, move)

def greeting : SendAssistantTurnRequest := { body := "hello", clientRequestId := "request" }

/-- A request in the room of a project, and a pass of the dispatcher. -/
def dispatched : List (Nat × Crew.Move Draw Failure Stage) :=
  request 1 (.call (.saveUser { id := "user", email := "user@artoo" })) (statements 2) ++
  request 2 (.call (.saveRoom { id := "room", projectId := "project" })) (statements 2) ++
  request 3 (.enqueue "user" "room" greeting)
    (statements 3 ++ draws [""] ++ statements 3 ++ draws [""] ++ statements 1 ++ draws ["task"] ++
      statements 1 ++ draws ["turn", "message"] ++ statements 2 ++ draws [""] ++ statements 3) ++
  request 4 .pump (statements 2) ++
  (transaction (statements 2) ++
    transaction (statements 3 ++ draws [""] ++ statements 2) ++
    transaction (draws [""] ++ statements 2 ++ draws [""] ++ statements 1 ++
      draws ["", "agent", "run"] ++ statements 2 ++ draws ["", ""] ++ statements 3)).map
    fun move => (4, move)

end Sample
open Sample

theorem assistant_turns_dispatched :
    ∃ c, Crew.exec (code artoo) dispatched (Crew.idle {}) = some c ∧
      c.world.db.turns.rows.map (fun t => (t.id, t.status, t.runId)) =
        [("turn", .running, some "run")] ∧ InOrder artoo c := by
  have runs : (Crew.exec (code artoo) dispatched (Crew.idle {})).map
      (fun c => c.world.db.turns.rows.map fun t => (t.id, t.status, t.runId)) =
        some [("turn", .running, some "run")] := by
    decide +kernel
  obtain ⟨c, found, turns⟩ := Option.map_eq_some_iff.mp runs
  exact ⟨c, found, turns, assistant_turns (Crew.exec_path found)⟩

end Artoo.Assistants
