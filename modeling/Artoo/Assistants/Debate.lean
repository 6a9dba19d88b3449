import Artoo.Assistants.Queue

/-! Planning discussions over any run of the processes. -/
namespace Artoo.Assistants
open Artoo.Lib

variable {d : Deployment} {c c' : Server} {t r : String} {e : DiscussionRow}

/-- A turn of a closed discussion is not run any more. -/
theorem Sound.not_dispatched {l : Nat × Crew.Move Draw Failure Stage}
    (holds : c.Holds assistantRely Stage.Spec Sound Informed) (step : ServerStep d l c c')
    (there : e ∈ c.world.db.discussions) (closed : e.closed) (dispatched : Dispatched c c' t r)
    {row : TurnRow} (found : c.world.db.turns.get? t = some row) :
    row.threadRootId ≠ some e.threadRootId := by
  intro thread
  have sound := holds.world.invariant
  obtain ⟨known, found', unbound, admitted, _⟩ := dispatched_past holds step dispatched
  rw [found] at found'
  cases found'
  have member := Table.mem_of_get? found
  have off : ¬ row.answered := by
    intro answered
    have pending := (unbound_pending unbound).1
    unfold TurnRow.pending at pending
    rw [answered.1] at pending
    cases pending
  have active := (sound.discussions.machine e there).active_of_unanswered
    (mem_thread.mpr ⟨member, thread⟩) off
  obtain ⟨k, fence⟩ := Option.isSome_iff_exists.mp (sound.fences.fenced e there closed.off)
  have same := admitted e there thread active k fence
  have quenched := sound.fences.quenched e there closed row.id row active
    (Table.get?_of_mem member) (same ▸ fence)
  rw [unbound] at quenched
  cases quenched

theorem DiscussionLater.closed {e' : DiscussionRow} (h : DiscussionLater e e') (closed : e.closed) :
    e'.closed := by
  have settled : e.active = false := by
    unfold DiscussionRow.active
    rcases closed with is | is <;> rw [is] <;> rfl
  have same := h.settled settled
  unfold DiscussionRow.closed
  rw [same]
  exact closed

/-- What holds of the discussions in every state of a run. -/
structure Debated (d : Deployment) (c : Server) : Prop where
  machine : ∀ e ∈ c.world.db.discussions, Machine e (c.world.db.thread e.threadRootId)
  /-- a goal has one discussion that runs or stops -/
  oneActive : ∀ e ∈ c.world.db.discussions, ∀ e' ∈ c.world.db.discussions, e.active → e'.active →
    e.goalId = e'.goalId → e = e'
  /-- from then on no turn of a failed or cancelled discussion is bound to a run -/
  closed : ∀ e ∈ c.world.db.discussions, e.closed → ∀ ls l t r row (c₁ c₂ : Server),
    Path (ServerStep d) ls c c₁ → ServerStep d l c₁ c₂ → Dispatched c₁ c₂ t r →
    c₁.world.db.turns.get? t = some row → row.threadRootId ≠ some e.threadRootId

theorem planning_discussions {ls : List (Nat × Crew.Move Draw Failure Stage)}
    (path : Path (ServerStep d) ls (Crew.idle {}) c) : Debated d c := by
  have holds := runs_sound path
  have sound := holds.world.invariant.discussions
  constructor
  case machine => exact sound.machine
  case oneActive =>
    intro e he e' he' active active' goal
    exact Table.key_inj he he' (sound.oneActive e he e' he' active active' goal)
  case closed =>
    intro e there closed ls l t r row c₁ c₂ path step dispatched found
    obtain ⟨holds₁, later⟩ := runs_later holds path
    obtain ⟨e', found', same⟩ := later.discussions e.id e (Table.get?_of_mem there)
    rw [← same.root_eq]
    exact Sound.not_dispatched holds₁ step (Table.mem_of_get? found') (same.closed closed)
      dispatched found

namespace Sample

def pair : Team where
  members := [⟨"a", "author"⟩, ⟨"b", "critic"⟩]
  least := by decide
  most := by decide
  distinct := by decide

/-- A discussion is started, its first turn is asked, and it is cancelled. -/
def cancelled : List (Nat × Crew.Move Draw Failure Stage) :=
  request 1 (.call (.saveRoom { id := "room", projectId := "project" })) (statements 2) ++
  request 2 (.call (.saveGoal { id := "goal", projectId := "project", roomId := "room" }))
    (statements 2) ++
  request 3 (.call (.saveAgent { id := "a", runtime := "codex" })) (statements 2) ++
  request 4 (.call (.saveAgent { id := "b", runtime := "codex" })) (statements 2) ++
  request 5 (.startDiscussion "user" "goal" { team := pair, rounds := 1, maxMinutes := 10 })
    (draws [""] ++ statements 4 ++ draws ["", "discussion", "task", "root", "topic"] ++
      statements 4) ++
  request 6 .coordinate (statements 2) ++
  (transaction (statements 2 ++ draws ["", "", "turn", "message", "prompt"] ++ statements 2 ++
    draws [""] ++ statements 4)).map (fun move => (6, move)) ++
  request 7 (.cancelDiscussion "discussion") (statements 3) ++
  (transaction (draws [""] ++ statements 3) ++ transaction (statements 2) ++
    transaction (statements 4) ++ transaction (statements 3)).map fun move => (7, move)

end Sample
open Sample

theorem planning_discussions_cancelled :
    ∃ c, Crew.exec (code artoo) cancelled (Crew.idle {}) = some c ∧
      c.world.db.discussions.rows.map (fun e => (e.id, e.status, e.activeTurnId)) =
        [("discussion", .cancelled, some "turn")] ∧ Debated artoo c := by
  have runs : (Crew.exec (code artoo) cancelled (Crew.idle {})).map
      (fun c => c.world.db.discussions.rows.map fun e => (e.id, e.status, e.activeTurnId)) =
        some [("discussion", .cancelled, some "turn")] := by
    decide +kernel
  obtain ⟨c, found, discussions⟩ := Option.map_eq_some_iff.mp runs
  exact ⟨c, found, discussions, planning_discussions (Crew.exec_path found)⟩

end Artoo.Assistants
