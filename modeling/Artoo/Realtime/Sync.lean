import Artoo.Lib.Path
import Artoo.Realtime.Publisher
import Artoo.Realtime.Topics

/-! A sync client that reconnects: live pushes, catch-up frames and drops in any order. -/
namespace Artoo.Realtime
open Artoo.Lib

/-! ## The client -/

structure SyncState where
  seen : List String := []
  maxCursor : Nat := 0

def SyncState.reach (s : SyncState) (cursor : Nat) : SyncState :=
  if s.maxCursor < cursor then { s with maxCursor := cursor } else s

/-- The event to surface, if it is new. -/
def SyncState.accept (s : SyncState) (frame : EventFrame) :
    SyncState × Option (EventEnvelope × Nat) :=
  let s := s.reach frame.cursor
  if s.seen.contains frame.event.id then (s, none)
  else ({ s with seen := frame.event.id :: s.seen }, some (frame.event, frame.cursor))

/-- The `since_cursor` of the subscribe frame; without one the subscription is live only. -/
def sinceCursor (s : SyncState) : Option Nat := if 0 < s.maxCursor then some s.maxCursor else none

@[simp] theorem reach_seen {s : SyncState} {cursor : Nat} : (s.reach cursor).seen = s.seen := by
  unfold SyncState.reach
  split <;> rfl

@[simp] theorem reach_maxCursor {s : SyncState} {cursor : Nat} :
    (s.reach cursor).maxCursor = max s.maxCursor cursor := by
  unfold SyncState.reach
  split
  · change cursor = _
    omega
  · omega

theorem accept_maxCursor {s : SyncState} {frame : EventFrame} :
    (s.accept frame).1.maxCursor = max s.maxCursor frame.cursor := by
  unfold SyncState.accept
  dsimp only
  split <;> exact reach_maxCursor

theorem accept_seen {s : SyncState} {frame : EventFrame} {id : String} :
    id ∈ (s.accept frame).1.seen ↔ id = frame.event.id ∨ id ∈ s.seen := by
  unfold SyncState.accept
  dsimp only
  rw [reach_seen]
  split
  · rename_i there
    have member : frame.event.id ∈ s.seen := by simpa using there
    rw [reach_seen]
    constructor
    · exact Or.inr
    · rintro (rfl | old)
      · exact member
      · exact old
  · exact List.mem_cons

/-- What is surfaced is what becomes seen. -/
theorem accept_surfaces {s : SyncState} {frame : EventFrame} {delivered : List EventEnvelope}
    (h : ∀ id, id ∈ s.seen ↔ ∃ e ∈ delivered, e.id = id) (id : String) :
    id ∈ (s.accept frame).1.seen ↔
      ∃ e ∈ delivered ++ ((s.accept frame).2.map (·.1)).toList, e.id = id := by
  rw [accept_seen, h]
  unfold SyncState.accept
  dsimp only
  rw [reach_seen]
  split
  · rename_i there
    obtain ⟨e, member, same⟩ := (h frame.event.id).mp (by simpa using there)
    simp only [Option.map_none, Option.toList_none, List.append_nil]
    constructor
    · rintro (rfl | old)
      · exact ⟨e, member, same⟩
      · exact old
    · exact Or.inr
  · simp only [Option.map_some, Option.toList_some, List.mem_append, List.mem_singleton]
    constructor
    · rintro (rfl | ⟨e, member, same⟩)
      · exact ⟨frame.event, Or.inr rfl, rfl⟩
      · exact ⟨e, Or.inl member, same⟩
    · rintro ⟨e, member | rfl, same⟩
      · exact Or.inr ⟨e, member, same⟩
      · exact Or.inl same.symm

/-! ## The connection -/

inductive PushKind where
  | live | replay | marker
  deriving DecidableEq

/-- A frame on its way to the client. -/
structure Push where
  kind : PushKind
  frame : EventFrame

/-- A connection of the client; the last fields record what was sent and received on it. -/
structure Connection where
  since : Option Nat
  /-- the subscribe frame has not reached the server -/
  requested : Bool := true
  /-- the catch-up has not been collected -/
  replaying : Bool := false
  channel : List Push := []
  joined : Nat := 0
  collected : Nat := 0
  sent : List Push := []
  got : List Push := []

def EventLog.top (log : EventLog) : Nat := log.rows.foldl (fun n row => max n row.position) 0

structure Link where
  log : EventLog
  /-- the position that the publisher has reached -/
  cursor : Nat
  client : SyncState := {}
  /-- the events given to `onEvent` -/
  delivered : List EventEnvelope := []
  connection : Option Connection := none
  /-- the position up to which the client has to rely on a snapshot -/
  horizon : Nat := 0

/-- What a connection acts for, and what the server publishes for. -/
structure LinkContext where
  server : RealtimeContext
  user : RealtimeContext
  topics : List String

def LinkContext.wanted (ctx : LinkContext) : List String := allowedTopics ctx.user ctx.topics

inductive LinkAct where
  | commit (row : EventRow)
  /-- a drain publishes the first rows of a batch: those that were visible when it read -/
  | publish (users : List String) (visible : Nat)
  | connect
  | subscribe
  | collect (id now : String)
  | receive
  | drop

def pushes (kind : PushKind) (frames : List EventFrame) : List Push := frames.map (Push.mk kind)

def Connection.send (c : Connection) (more : List Push) : Connection :=
  { c with channel := c.channel ++ more, sent := c.sent ++ more }

/-- The hub sends to the connection what it has subscribed to. -/
def Connection.push (ctx : LinkContext) (users : List String) (rows : List EventRow)
    (c : Connection) : Connection :=
  if c.requested then c
  else c.send (pushes .live (received ctx.wanted (drainFrames ctx.server users rows)))

def Link.drained (ctx : LinkContext) (s : Link) (visible : Nat) : List EventRow :=
  (eventsAfter s.log ctx.user.organizationId s.cursor eventBatchLimit).take visible

/-- The frames of `collectCatchUp`. -/
def Connection.replay (ctx : LinkContext) (id now : String) (log : EventLog) (since : Nat)
    (c : Connection) : Connection :=
  { c.send (pushes .replay (catchUpFrames ctx.user.actorUserId ctx.wanted
      (eventsAfter log ctx.user.organizationId since eventBatchLimit)) ++
      pushes .marker (overflow ctx.user id now log since ctx.wanted)) with
    replaying := false
    collected := log.top }

theorem replay_collects {ctx : LinkContext} {id now : String} {log : EventLog} {since : Nat}
    {c : Connection} : (c.replay ctx id now log since).channel.map (·.frame) =
      c.channel.map (·.frame) ++ collectCatchUp ctx.user id now log since ctx.wanted := by
  have frames : ∀ kind fs, (pushes kind fs).map (·.frame) = fs := by
    intro kind fs
    unfold pushes
    rw [List.map_map]
    exact List.map_id fs
  rw [collectCatchUp_eq]
  change (c.channel ++ (_ ++ _)).map _ = _
  rw [List.map_append, List.map_append, frames, frames]

def Link.step (ctx : LinkContext) (s : Link) : LinkAct → Option Link
  | .commit row => some { s with log := s.log.insert row }
  | .publish users visible =>
    some { s with
      cursor := advance s.cursor (s.drained ctx visible)
      connection := s.connection.map (Connection.push ctx users (s.drained ctx visible)) }
  | .connect =>
    match s.connection with
    | some _ => none
    | none => some { s with connection := some { since := sinceCursor s.client } }
  | .subscribe =>
    match s.connection with
    | some c =>
      if c.requested then
        some { s with
          connection := some { c with requested := false, replaying := c.since.isSome, joined := s.cursor }
          horizon := if c.since.isSome then s.horizon else max s.horizon s.cursor }
      else none
    | none => none
  | .collect id now =>
    match s.connection with
    | some c =>
      match c.replaying, c.since with
      | true, some since => some { s with connection := some (c.replay ctx id now s.log since) }
      | _, _ => none
    | none => none
  | .receive =>
    match s.connection with
    | some c =>
      match c.channel with
      | [] => none
      | p :: rest =>
        let (client, out) := s.client.accept p.frame
        some { s with
          client
          delivered := s.delivered ++ (out.map (·.1)).toList
          connection := some { c with channel := rest, got := c.got ++ [p] }
          horizon := if p.kind = .marker then max s.horizon c.collected else s.horizon }
    | none => none
  | .drop => s.connection.map fun _ => { s with connection := none }

/-! ## What is sent on a connection -/

section Frames

variable {userId : String} {wanted : List String} {rows : List EventRow} {f : EventFrame}

/-- The row has a topic that the user has subscribed to. -/
def concerns (userId : String) (wanted : List String) (row : EventRow) : Prop :=
  ∃ topic ∈ topicsForEvent (toEnvelope row) userId, topic ∈ wanted

/-- The frame carries the row. -/
def EventFrame.carries (f : EventFrame) (row : EventRow) : Prop :=
  f.event = toEnvelope row ∧ f.cursor = row.position

theorem mem_catchUpFrames (h : f ∈ catchUpFrames userId wanted rows) : ∃ row ∈ rows, f.carries row := by
  obtain ⟨row, there, member⟩ := List.mem_flatMap.mp h
  obtain ⟨topic, _, rfl⟩ := List.mem_map.mp member
  exact ⟨row, there, rfl, rfl⟩

theorem catchUpFrames_concerns {row : EventRow} (there : row ∈ rows)
    (concerned : concerns userId wanted row) : ∃ f ∈ catchUpFrames userId wanted rows, f.carries row := by
  obtain ⟨topic, of, subscribed⟩ := concerned
  refine ⟨⟨topic, toEnvelope row, row.position⟩, ?_, rfl, rfl⟩
  apply List.mem_flatMap.mpr
  refine ⟨row, there, List.mem_map.mpr ⟨topic, ?_, rfl⟩⟩
  exact List.mem_filter.mpr ⟨of, by simpa using subscribed⟩

/-- Frames of ascending rows ascend. -/
def Ascending (pushes : List Push) : Prop :=
  pushes.Pairwise fun a b => a.frame.cursor ≤ b.frame.cursor

theorem ascending_flatMap {kind : PushKind} {topics : EventRow → List String}
    (sorted : rows.Pairwise EventRow.upTo) :
    Ascending (pushes kind (rows.flatMap fun row => (topics row).map fun topic =>
      ({ topic, event := toEnvelope row, cursor := row.position } : EventFrame))) := by
  unfold Ascending pushes
  rw [List.pairwise_map, List.pairwise_flatMap]
  constructor
  · intro row _
    rw [List.pairwise_map]
    exact List.pairwise_of_forall fun _ _ => Nat.le_refl _
  · apply sorted.imp
    intro a b upTo x hx y hy
    obtain ⟨_, _, rfl⟩ := List.mem_map.mp hx
    obtain ⟨_, _, rfl⟩ := List.mem_map.mp hy
    exact upTo

theorem ascending_catchUp {kind : PushKind} (sorted : rows.Pairwise EventRow.upTo) :
    Ascending (pushes kind (catchUpFrames userId wanted rows)) := ascending_flatMap sorted

theorem ascending_live {kind : PushKind} {ctx : RealtimeContext} {users : List String}
    (sorted : rows.Pairwise EventRow.upTo) :
    Ascending (pushes kind (received wanted (drainFrames ctx users rows))) := by
  unfold Ascending pushes received
  rw [List.pairwise_map]
  have all : Ascending (pushes kind (drainFrames ctx users rows)) := ascending_flatMap sorted
  unfold Ascending pushes at all
  rw [List.pairwise_map] at all
  exact all.filter _

theorem sorted_eventsAfter {log : EventLog} {organizationId : String} {since : Int} {limit : Nat} :
    (eventsAfter log organizationId since limit).Pairwise EventRow.upTo :=
  (log.ordered.filter _).sublist (List.take_sublist _ _)

/-- Of an ascending list that was received in part, all up to a received position was received. -/
theorem got_up_to {got rest : List Push} {p q : Push} (sorted : Ascending (got ++ rest))
    (here : p ∈ got) (sent : q ∈ got ++ rest) (upTo : q.frame.cursor ≤ p.frame.cursor) :
    q ∈ got ∨ q.frame.cursor = p.frame.cursor := by
  rcases List.mem_append.mp sent with now | later
  · exact Or.inl now
  · have after := (List.pairwise_append.mp sorted).2.2 p here q later
    exact Or.inr (Nat.le_antisymm upTo after)

theorem le_top {log : EventLog} {row : EventRow} (h : row ∈ log) : row.position ≤ log.top := by
  have key : ∀ (rows : List EventRow) n, (n ≤ rows.foldl (fun n row => max n row.position) n) ∧
      ∀ row ∈ rows, row.position ≤ rows.foldl (fun n row => max n row.position) n := by
    intro rows
    induction rows with
    | nil => exact fun n => ⟨Nat.le_refl _, fun _ there => absurd there List.not_mem_nil⟩
    | cons first rows ih =>
      intro n
      rw [List.foldl_cons]
      obtain ⟨grows, all⟩ := ih (max n first.position)
      refine ⟨Nat.le_trans (Nat.le_max_left _ _) grows, fun row there => ?_⟩
      rcases List.mem_cons.mp there with rfl | later
      · exact Nat.le_trans (Nat.le_max_right _ _) grows
      · exact all row later
  exact (key log.rows 0).2 row h

end Frames

end Artoo.Realtime
