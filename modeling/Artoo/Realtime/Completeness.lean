import Artoo.Realtime.Linked

/-! A reconnecting client misses no event of its subscription. -/
namespace Artoo.Realtime
open Artoo.Lib

/-- A client before its first connection, a publisher anywhere in the log. -/
def Link.start (log : EventLog) (cursor : Nat) : Link := { log, cursor }

/-- The connection has caught up with the log. -/
def Link.CaughtUp (s : Link) (c : Connection) : Prop :=
  s.connection = some c ∧ c.requested = false ∧ c.replaying = false ∧ c.channel = [] ∧
    s.log.top ≤ s.cursor

theorem Connection.Linked.caughtUp {ctx : LinkContext} {s : Link} {c : Connection}
    (h : c.Linked ctx s) (distinct : (s.log.rows.map (·.position)).Nodup) (up : s.CaughtUp c) :
    s.Through ctx s.log.top := by
  obtain ⟨_, subscribed, done, channel, all⟩ := up
  have settled : c.Settled := ⟨subscribed, done, by simp [channel]⟩
  intro row there concerned snapshot upTo
  by_cases after : c.joined < row.position
  · obtain ⟨p, sent, kind, carries⟩ := h.pushed subscribed row there concerned after (by omega)
    have got : p ∈ c.got := by
      rw [h.parts, channel, List.append_nil] at sent
      exact sent
    exact h.has_row distinct got (by simp [kind]) there carries.2
  · cases since : c.since with
    | none =>
      have covered := h.liveOnly subscribed since
      omega
    | some n =>
      have some_ : c.since.isSome = true := by rw [since]; rfl
      have joined := (h.replayed subscribed done some_).1
      exact h.through_collected distinct settled some_ row there concerned snapshot (by omega)

/-- The event was given to `onEvent`. -/
def Link.Delivered (s : Link) (row : EventRow) : Prop := ∃ e ∈ s.delivered, e.id = row.id

theorem sync_complete {ctx : LinkContext} {log : EventLog} {cursor : Nat} {acts : List LinkAct}
    {s : Link} (distinct : (log.rows.map (·.position)).Nodup) (reached : cursor ≤ log.top)
    (path : Path (Link.Steps ctx (steady ctx)) acts (Link.start log cursor) s) :
    (s.connection = none → ∀ row ∈ s.log, ctx.Concerns row → s.horizon < row.position →
      row.position ≤ s.client.maxCursor → s.Delivered row) ∧
    ∀ c, s.CaughtUp c → ∀ row ∈ s.log, ctx.Concerns row → s.horizon < row.position →
      s.Delivered row := by
  have valid : s.Valid ctx := by
    apply Path.invariant _ path
    · refine ⟨distinct, reached, Nat.zero_le _, ?_, ?_, fun _ is => by cases is⟩
      · intro id
        constructor
        · intro there
          cases there
        · rintro ⟨_, there, _⟩
          cases there
      · intro _ row _ _ snapshot upTo
        have zero : row.position ≤ 0 := upTo
        have positive : 0 < row.position := snapshot
        omega
    · exact fun act _ _ h step => h.step step.1 step.2
  constructor
  · intro absent row there concerned snapshot upTo
    exact (valid.surfaced _).mp (valid.unlinked absent row there concerned snapshot upTo)
  · intro c up row there concerned snapshot
    have through := (valid.linked c up.1).caughtUp valid.distinct up
    exact (valid.surfaced _).mp (through row there concerned snapshot (le_top there))

/-! A client of one project, with a drop after its first event and one before it. -/
namespace Sample

def projectLink : LinkContext := ⟨tailContext, tailContext, ["project:p1"]⟩

def projectEvent (id : String) (position : Nat) : EventRow :=
  { eventNamed id with projectId := "p1", position }

def appears (id : String) (position : Nat) : List LinkAct :=
  [.commit (projectEvent id position), .publish ["user_owner"] 500]

/-- The second event is committed while the client is away; the catch-up brings it. -/
def resumed : List LinkAct :=
  [.connect, .subscribe] ++ appears "a" 1 ++ [.receive, .drop] ++ appears "b" 2 ++
    [.connect, .subscribe, .collect "marker" "now", .receive, .drop]

/-- The first event is committed while the client, which has received nothing yet, is away. -/
def liveOnlyTwice : List LinkAct :=
  [.connect, .subscribe, .drop] ++ appears "a" 1 ++ [.connect, .subscribe] ++ appears "b" 2 ++
    [.receive, .drop]

end Sample

open Sample

instance {c : Connection} : Decidable c.Quiet := inferInstanceAs (Decidable (∀ _ ∈ _, _))

instance {c : Connection} : Decidable c.Settled := inferInstanceAs (Decidable (_ ∧ _ ∧ _))

instance {s : Link} : Decidable (∀ c, s.connection = some c → c.Quiet ∨ c.Settled) :=
  decidable_of_iff (∀ c ∈ s.connection.toList, c.Quiet ∨ c.Settled) (by simp)

instance {ctx : LinkContext} (s : Link) (act : LinkAct) : Decidable (steady ctx s act) := by
  unfold steady
  split <;> infer_instance

theorem sync_complete_resumed :
    ∃ s, Path.exec (Link.step projectLink) (steady projectLink) resumed (Link.start .empty 0) = some s ∧
      s.delivered.map (·.id) = ["a", "b"] ∧ s.client.maxCursor = 2 ∧
      (s.connection = none → ∀ row ∈ s.log, projectLink.Concerns row → s.horizon < row.position →
        row.position ≤ s.client.maxCursor → s.Delivered row) ∧
      ∀ c, s.CaughtUp c → ∀ row ∈ s.log, projectLink.Concerns row → s.horizon < row.position →
        s.Delivered row := by
  have runs : (Path.exec (Link.step projectLink) (steady projectLink) resumed
      (Link.start .empty 0)).map (fun s => (s.delivered.map (·.id), s.client.maxCursor)) =
      some (["a", "b"], 2) := by decide +kernel
  obtain ⟨s, found, is⟩ := Option.map_eq_some_iff.mp runs
  rw [Prod.mk.injEq] at is
  exact ⟨s, found, is.1, is.2, @sync_complete projectLink .empty 0 resumed s List.nodup_nil
    (Nat.zero_le _) (Path.of_exec found)⟩

/-- A client that has received nothing has no cursor to resume from. -/
theorem live_only_skips :
    ¬ ∀ (ctx : LinkContext) (log : EventLog) (cursor : Nat) (acts : List LinkAct) (s : Link),
      (log.rows.map (·.position)).Nodup → cursor ≤ log.top →
      Path (Link.Steps ctx (steady ctx)) acts (Link.start log cursor) s → s.connection = none →
      ∀ row ∈ s.log, ctx.Concerns row → row.position ≤ s.client.maxCursor → s.Delivered row := by
  intro claimed
  have runs : (Path.exec (Link.step projectLink) (steady projectLink) liveOnlyTwice
      (Link.start .empty 0)).map (fun s =>
        (s.connection.isNone, s.log.rows, s.client.maxCursor, s.delivered.map (·.id))) =
      some (true, [projectEvent "a" 1, projectEvent "b" 2], 2, ["b"]) := by decide +kernel
  obtain ⟨s, found, is⟩ := Option.map_eq_some_iff.mp runs
  simp only [Prod.mk.injEq] at is
  obtain ⟨absent, rows, maxCursor, delivered⟩ := is
  have there : projectEvent "a" 1 ∈ s.log := by
    change _ ∈ s.log.rows
    rw [rows]
    exact List.mem_cons_self
  have concerned : projectLink.Concerns (projectEvent "a" 1) :=
    ⟨rfl, "project:p1", by decide, by decide⟩
  obtain ⟨e, member, same⟩ := claimed projectLink .empty 0 _ s .nil (Nat.zero_le _)
    (Path.of_exec found) (Option.isNone_iff_eq_none.mp absent) _ there concerned
    (by rw [maxCursor]; decide)
  have id_ : e.id ∈ s.delivered.map (·.id) := List.mem_map_of_mem member
  rw [delivered, same] at id_
  exact absurd id_ (by decide)

end Artoo.Realtime
