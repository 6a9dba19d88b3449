import Artoo.Realtime.Sync

/-! What a client has received of an open connection, and what is still on its way. -/
namespace Artoo.Realtime
open Artoo.Lib

/-! ## The invariant -/

/-- The client's subscription covers the row. -/
def LinkContext.Concerns (ctx : LinkContext) (row : EventRow) : Prop :=
  row.organizationId = ctx.user.organizationId ∧ concerns ctx.user.actorUserId ctx.wanted row

/-- The events of the subscription up to a position that no snapshot covers have been delivered. -/
def Link.Through (ctx : LinkContext) (s : Link) (n : Nat) : Prop :=
  ∀ row ∈ s.log.rows, ctx.Concerns row → s.horizon < row.position → row.position ≤ n →
    row.id ∈ s.client.seen

/-- No live frame has been received on the connection. -/
def Connection.Quiet (c : Connection) : Prop := ∀ p ∈ c.got, p.kind ≠ .live

/-- The catch-up of the connection, if it has one, has been received. -/
def Connection.Settled (c : Connection) : Prop :=
  c.requested = false ∧ c.replaying = false ∧ ∀ p ∈ c.channel, p.kind = .live

def isLive (p : Push) : Bool := p.kind = .live

def Push.carries (p : Push) (row : EventRow) : Prop := p.frame.carries row

structure Connection.Linked (ctx : LinkContext) (s : Link) (c : Connection) : Prop where
  old : s.Through ctx (c.since.getD 0)
  base : c.since.getD 0 ≤ s.log.top
  reached : s.client.maxCursor ≤ c.since.getD 0 ∨
    ∃ p ∈ c.got, s.client.maxCursor ≤ p.frame.cursor
  parts : c.sent = c.got ++ c.channel
  has : ∀ p ∈ c.got, p.frame.event.id ∈ s.client.seen
  marked : ∀ p ∈ c.got, p.kind = .marker → c.collected ≤ s.horizon
  idle : c.requested = true → c.sent = [] ∧ c.replaying = false
  joined : c.joined ≤ s.cursor
  liveOnly : c.requested = false → c.since = none → c.joined ≤ s.horizon
  live : ∀ p ∈ c.sent, p.kind = .live → p.frame.cursor ≤ s.cursor ∧
    ∃ row ∈ s.log.rows, p.carries row
  liveSorted : Ascending (c.sent.filter isLive)
  pushed : c.requested = false → ∀ row ∈ s.log.rows, ctx.Concerns row → c.joined < row.position →
    row.position ≤ s.cursor → ∃ p ∈ c.sent, p.kind = .live ∧ p.carries row
  other : ∀ p ∈ c.sent, p.kind ≠ .live → c.replaying = false ∧ c.since.isSome = true ∧
    p.frame.cursor ≤ c.collected
  replays : ∀ p ∈ c.sent, p.kind = .replay → ∃ row ∈ s.log.rows, p.carries row
  otherSorted : Ascending (c.sent.filter fun p => !isLive p)
  beyond : ∀ p ∈ c.sent, ∀ q ∈ c.sent, p.kind = .replay → q.kind = .marker →
    p.frame.cursor < q.frame.cursor
  replayed : c.requested = false → c.replaying = false → c.since.isSome = true →
    c.joined ≤ c.collected ∧ c.collected ≤ s.log.top ∧
      ∀ row ∈ s.log.rows, ctx.Concerns row → c.since.getD 0 < row.position →
        row.position ≤ c.collected → (∃ p ∈ c.sent, p.kind = .replay ∧ p.carries row) ∨
          ∃ p ∈ c.sent, p.kind = .marker ∧ p.frame.cursor ≤ row.position

structure Link.Valid (ctx : LinkContext) (s : Link) : Prop where
  distinct : (s.log.rows.map (·.position)).Nodup
  cursor : s.cursor ≤ s.log.top
  reach : s.client.maxCursor ≤ s.log.top
  surfaced : ∀ id, id ∈ s.client.seen ↔ ∃ e ∈ s.delivered, e.id = id
  unlinked : s.connection = none → s.Through ctx s.client.maxCursor
  linked : ∀ c, s.connection = some c → c.Linked ctx s

section Linked

variable {ctx : LinkContext} {s : Link} {c : Connection}

/-- A received frame at the position of a row carries it, unless it is a marker. -/
theorem Connection.Linked.has_row (h : c.Linked ctx s)
    (distinct : (s.log.rows.map (·.position)).Nodup) {p : Push} {row : EventRow} (got : p ∈ c.got)
    (plain : p.kind ≠ .marker) (there : row ∈ s.log.rows) (same : p.frame.cursor = row.position) :
    row.id ∈ s.client.seen := by
  have sent : p ∈ c.sent := by
    rw [h.parts]
    exact List.mem_append_left _ got
  have carried : ∃ other ∈ s.log.rows, p.carries other := by
    cases kind : p.kind with
    | live => exact (h.live p sent kind).2
    | replay => exact h.replays p sent kind
    | marker => exact absurd kind plain
  obtain ⟨other, inLog, carries⟩ := carried
  have equal : other = row :=
    List.inj_on_of_nodup_map distinct inLog there (carries.2.symm.trans same)
  have seen := h.has p got
  rw [carries.1, equal] at seen
  exact seen

/-- What was sent of a kind is received in the order of its positions. -/
theorem Connection.Linked.got_prefix (h : c.Linked ctx s) {kind : Push → Bool}
    (sorted : Ascending (c.sent.filter kind)) {p q : Push} (got : p ∈ c.got) (ofKind : kind p = true)
    (sent : q ∈ c.sent) (sameKind : kind q = true) (upTo : q.frame.cursor ≤ p.frame.cursor) :
    q ∈ c.got ∨ q.frame.cursor = p.frame.cursor := by
  rw [h.parts, List.filter_append] at sorted
  rw [h.parts] at sent
  have member : q ∈ c.got.filter kind ++ c.channel.filter kind := by
    rw [← List.filter_append]
    exact List.mem_filter.mpr ⟨sent, sameKind⟩
  rcases got_up_to sorted (List.mem_filter.mpr ⟨got, ofKind⟩) member upTo with now | same
  · exact Or.inl (List.mem_filter.mp now).1
  · exact Or.inr same

/-- The replayed events up to a received replay position have been delivered. -/
theorem Connection.Linked.through_replay (h : c.Linked ctx s)
    (distinct : (s.log.rows.map (·.position)).Nodup) {p : Push} (got : p ∈ c.got)
    (replay : p.kind ≠ .live) : s.Through ctx p.frame.cursor := by
  intro row there concerned snapshot upTo
  by_cases before : row.position ≤ c.since.getD 0
  · exact h.old row there concerned snapshot before
  · have sent : p ∈ c.sent := by
      rw [h.parts]
      exact List.mem_append_left _ got
    obtain ⟨done, since, bound⟩ := h.other p sent replay
    have subscribed : c.requested = false := by
      cases asked : c.requested with
      | false => rfl
      | true =>
        rw [(h.idle asked).1] at sent
        cases sent
    have notLive : (!isLive p) = true := by simpa [isLive] using replay
    have fresh : p.kind ≠ .marker := by
      intro marker
      have covered := h.marked p got marker
      omega
    have isReplay : p.kind = .replay := by
      cases kind : p.kind with
      | live => exact absurd kind replay
      | replay => rfl
      | marker => exact absurd kind fresh
    rcases (h.replayed subscribed done since).2.2 row there concerned (by omega) (by omega) with
      ⟨q, sentQ, kind, carries⟩ | ⟨q, sentQ, kind, bound'⟩
    · have cursor : q.frame.cursor = row.position := carries.2
      rcases h.got_prefix h.otherSorted got notLive sentQ (by simp [isLive, kind]) (by omega) with
        gotQ | same
      · exact h.has_row distinct gotQ (by simp [kind]) there cursor
      · exact h.has_row distinct got fresh there (same.symm.trans cursor)
    · have apart := h.beyond p sent q sentQ isReplay kind
      omega

/-- The live events up to a received live position have been delivered. -/
theorem Connection.Linked.through_live (h : c.Linked ctx s)
    (distinct : (s.log.rows.map (·.position)).Nodup) {p : Push} (got : p ∈ c.got)
    (live : p.kind = .live) {row : EventRow} (there : row ∈ s.log.rows) (concerned : ctx.Concerns row)
    (after : c.joined < row.position) (upTo : row.position ≤ p.frame.cursor) :
    row.id ∈ s.client.seen := by
  have sent : p ∈ c.sent := by
    rw [h.parts]
    exact List.mem_append_left _ got
  have subscribed : c.requested = false := by
    cases asked : c.requested with
    | false => rfl
    | true =>
      rw [(h.idle asked).1] at sent
      cases sent
  have bound := (h.live p sent live).1
  obtain ⟨q, sentQ, kind, carries⟩ := h.pushed subscribed row there concerned after (by omega)
  have cursor : q.frame.cursor = row.position := carries.2
  rcases h.got_prefix h.liveSorted got (by simp [isLive, live]) sentQ (by simp [isLive, kind])
    (by omega) with gotQ | same
  · exact h.has_row distinct gotQ (by simp [kind]) there cursor
  · exact h.has_row distinct got (by simp [live]) there (same.symm.trans cursor)

theorem Connection.Linked.quiet (h : c.Linked ctx s)
    (distinct : (s.log.rows.map (·.position)).Nodup) (quiet : c.Quiet) :
    s.Through ctx s.client.maxCursor := by
  intro row there concerned snapshot upTo
  rcases h.reached with none_ | ⟨p, got, bound⟩
  · exact h.old row there concerned snapshot (by omega)
  · exact h.through_replay distinct got (quiet p got) row there concerned snapshot (by omega)

/-- After the catch-up, all that was committed before it has been delivered. -/
theorem Connection.Linked.through_collected (h : c.Linked ctx s)
    (distinct : (s.log.rows.map (·.position)).Nodup) (settled : c.Settled)
    (since : c.since.isSome = true) : s.Through ctx c.collected := by
  obtain ⟨subscribed, done, channel⟩ := settled
  intro row there concerned snapshot upTo
  by_cases before : row.position ≤ c.since.getD 0
  · exact h.old row there concerned snapshot before
  · have received_ : ∀ q ∈ c.sent, q.kind ≠ .live → q ∈ c.got := by
      intro q sentQ kind
      rw [h.parts] at sentQ
      rcases List.mem_append.mp sentQ with now | later
      · exact now
      · exact absurd (channel q later) kind
    rcases (h.replayed subscribed done since).2.2 row there concerned (by omega) upTo with
      ⟨q, sentQ, kind, carries⟩ | ⟨q, sentQ, kind, _⟩
    · exact h.has_row distinct (received_ q sentQ (by simp [kind])) (by simp [kind]) there carries.2
    · have covered := h.marked q (received_ q sentQ (by simp [kind])) kind
      omega

theorem Connection.Linked.settled (h : c.Linked ctx s)
    (distinct : (s.log.rows.map (·.position)).Nodup) (settled : c.Settled) :
    s.Through ctx s.client.maxCursor := by
  intro row there concerned snapshot upTo
  rcases h.reached with none_ | ⟨p, got, bound⟩
  · exact h.old row there concerned snapshot (by omega)
  · by_cases live : p.kind = .live
    · by_cases after : c.joined < row.position
      · exact h.through_live distinct got live there concerned after (by omega)
      · cases since : c.since with
        | none =>
          have covered := h.liveOnly settled.1 since
          omega
        | some n =>
          have some_ : c.since.isSome = true := by rw [since]; rfl
          have joined := (h.replayed settled.1 settled.2.1 some_).1
          exact h.through_collected distinct settled some_ row there concerned snapshot (by omega)
    · exact h.through_replay distinct got live row there concerned snapshot (by omega)

end Linked

/-! ## The steps -/

section Steps

variable {ctx : LinkContext} {s t : Link} {c : Connection} {act : LinkAct}

theorem top_le {log : EventLog} {n : Nat} (h : ∀ row ∈ log.rows, row.position ≤ n) : log.top ≤ n := by
  have key : ∀ (rows : List EventRow) m, m ≤ n → (∀ row ∈ rows, row.position ≤ n) →
      rows.foldl (fun m row => max m row.position) m ≤ n := by
    intro rows
    induction rows with
    | nil => exact fun _ small _ => small
    | cons first rows ih =>
      intro m small all
      rw [List.foldl_cons]
      apply ih
      · exact Nat.max_le.mpr ⟨small, all first List.mem_cons_self⟩
      · exact fun row there => all row (List.mem_cons_of_mem _ there)
  exact key log.rows 0 (Nat.zero_le _) h

theorem top_insert {log : EventLog} {row : EventRow} : log.top ≤ (log.insert row).top :=
  top_le fun _ there => le_top (EventLog.mem_insert.mpr (Or.inr there))

/-- An event that is committed in order is behind nothing. -/
theorem Link.Through.commit {n : Nat} (h : s.Through ctx n) {row : EventRow}
    (order : s.log.top < row.position) (bound : n ≤ s.log.top) :
    ({ s with log := s.log.insert row } : Link).Through ctx n := by
  intro other there concerned snapshot upTo
  rcases EventLog.mem_insert.mp there with rfl | old
  · omega
  · exact h other old concerned snapshot upTo

theorem Connection.Linked.commit (h : c.Linked ctx s) {row : EventRow}
    (order : s.log.top < row.position) (cursor : s.cursor ≤ s.log.top) :
    c.Linked ctx { s with log := s.log.insert row } := by
  have grows : ∀ p : Push, (∃ other ∈ s.log.rows, p.carries other) →
      ∃ other ∈ (s.log.insert row).rows, p.carries other := by
    rintro p ⟨other, there, carries⟩
    exact ⟨other, EventLog.mem_insert.mpr (Or.inr there), carries⟩
  constructor
  · exact h.old.commit order h.base
  · exact Nat.le_trans h.base top_insert
  · exact h.reached
  · exact h.parts
  · exact h.has
  · exact h.marked
  · exact h.idle
  · exact h.joined
  · exact h.liveOnly
  · exact fun p sent kind => ⟨(h.live p sent kind).1, grows p (h.live p sent kind).2⟩
  · exact h.liveSorted
  · intro subscribed other there concerned after upTo
    rcases EventLog.mem_insert.mp there with rfl | old
    · have bound : other.position ≤ s.cursor := upTo
      omega
    · exact h.pushed subscribed other old concerned after upTo
  · exact h.other
  · exact fun p sent kind => grows p (h.replays p sent kind)
  · exact h.otherSorted
  · exact h.beyond
  · intro subscribed done since
    obtain ⟨joined, collected, all⟩ := h.replayed subscribed done since
    refine ⟨joined, Nat.le_trans collected top_insert, fun other there concerned after upTo => ?_⟩
    rcases EventLog.mem_insert.mp there with rfl | old
    · omega
    · exact all other old concerned after upTo

theorem mem_pushes {kind : PushKind} {frames : List EventFrame} {p : Push} :
    p ∈ pushes kind frames ↔ p.kind = kind ∧ p.frame ∈ frames := by
  unfold pushes
  rw [List.mem_map]
  constructor
  · rintro ⟨f, there, rfl⟩
    exact ⟨rfl, there⟩
  · rintro ⟨rfl, there⟩
    exact ⟨p.frame, there, rfl⟩

theorem filter_pushes {kind : PushKind} {frames : List EventFrame} {p : Push → Bool}
    (all : ∀ f, p ⟨kind, f⟩ = true) : (pushes kind frames).filter p = pushes kind frames := by
  apply List.filter_eq_self.mpr
  intro q member
  obtain ⟨rfl, _⟩ := mem_pushes.mp member
  exact all q.frame

theorem filter_pushes_none {kind : PushKind} {frames : List EventFrame} {p : Push → Bool}
    (none_ : ∀ f, p ⟨kind, f⟩ = false) : (pushes kind frames).filter p = [] := by
  apply List.filter_eq_nil_iff.mpr
  intro q member
  obtain ⟨rfl, _⟩ := mem_pushes.mp member
  have no := none_ q.frame
  exact fun yes => by rw [yes] at no; cases no

theorem Ascending.append {xs ys : List Push} (left : Ascending xs) (right : Ascending ys)
    (bound : ∀ p ∈ xs, ∀ q ∈ ys, p.frame.cursor ≤ q.frame.cursor) : Ascending (xs ++ ys) :=
  List.pairwise_append.mpr ⟨left, right, bound⟩

theorem Link.mem_drained {visible : Nat} {row : EventRow} (h : row ∈ s.drained ctx visible) :
    row ∈ s.log.rows ∧ s.cursor < row.position := by
  obtain ⟨there, _, ahead⟩ := mem_eventsAfter (List.mem_of_mem_take h)
  exact ⟨there, ahead⟩

theorem Link.drained_all {visible : Nat} {row : EventRow}
    (distinct : (s.log.rows.map (·.position)).Nodup) (there : row ∈ s.log.rows)
    (ours : row.organizationId = ctx.user.organizationId) (ahead : s.cursor < row.position)
    (reached : row.position ≤ advance s.cursor (s.drained ctx visible)) :
    row ∈ s.drained ctx visible := by
  unfold Link.drained eventsAfter at reached ⊢
  rw [List.take_take] at reached ⊢
  apply mem_take_of_le_advance (s.log.ordered.filter _) _ _ ahead reached
  · exact distinct.sublist (List.filter_sublist.map _)
  · apply List.mem_filter.mpr
    refine ⟨there, ?_⟩
    rw [Bool.and_eq_true, beq_iff_eq, decide_eq_true_iff]
    exact ⟨ours, by omega⟩

theorem advance_le_top {visible : Nat} (cursor : s.cursor ≤ s.log.top) :
    advance s.cursor (s.drained ctx visible) ≤ s.log.top := by
  rcases @advance_eq s.cursor (s.drained ctx visible) with stays | ⟨row, there, is⟩
  · rw [stays]
    exact cursor
  · rw [is]
    exact le_top (Link.mem_drained there).1

theorem Connection.Linked.publish (h : c.Linked ctx s)
    (distinct : (s.log.rows.map (·.position)).Nodup) {users : List String} {visible : Nat}
    (member : ctx.user.actorUserId ∈ users) :
    (c.push ctx users (s.drained ctx visible)).Linked ctx
      { s with cursor := advance s.cursor (s.drained ctx visible) } := by
  have later : s.cursor ≤ advance s.cursor (s.drained ctx visible) := le_advance
  unfold Connection.push
  cases asked : c.requested with
  | true =>
    rw [if_pos rfl]
    refine { h with joined := Nat.le_trans h.joined later, live := ?_, pushed := ?_ }
    · exact fun p sent kind => ⟨Nat.le_trans (h.live p sent kind).1 later, (h.live p sent kind).2⟩
    · intro subscribed
      rw [asked] at subscribed
      cases subscribed
  | false =>
    rw [if_neg Bool.false_ne_true]
    have perm := @drain_perm ctx.server users ctx.wanted ctx.user.actorUserId
      (s.drained ctx visible) member own_allowed
    have sorted : (s.drained ctx visible).Pairwise EventRow.upTo :=
      sorted_eventsAfter.sublist (List.take_sublist _ _)
    have fresh : ∀ p ∈ pushes .live (received ctx.wanted (drainFrames ctx.server users
        (s.drained ctx visible))), p.kind = .live ∧ s.cursor < p.frame.cursor ∧
        p.frame.cursor ≤ advance s.cursor (s.drained ctx visible) ∧
        ∃ row ∈ s.log.rows, p.carries row := by
      intro p new
      obtain ⟨kind, frame⟩ := mem_pushes.mp new
      obtain ⟨row, there, carries⟩ := mem_catchUpFrames (perm.mem_iff.mp frame)
      have at_ : p.frame.cursor = row.position := carries.2
      obtain ⟨inLog, ahead⟩ := Link.mem_drained there
      have reached := @position_le_advance s.cursor _ _ there
      exact ⟨kind, by omega, by omega, row, inLog, carries⟩
    have others : ∀ p ∈ c.sent ++ pushes .live (received ctx.wanted (drainFrames ctx.server users
        (s.drained ctx visible))), p.kind ≠ .live → p ∈ c.sent := by
      intro p sent kind
      rcases List.mem_append.mp sent with old | new
      · exact old
      · exact absurd (fresh p new).1 kind
    constructor
    · exact h.old
    · exact h.base
    · exact h.reached
    · change c.sent ++ _ = c.got ++ (c.channel ++ _)
      rw [h.parts, List.append_assoc]
    · exact h.has
    · exact h.marked
    · intro again
      rw [show (c.send _).requested = c.requested from rfl, asked] at again
      cases again
    · exact Nat.le_trans h.joined later
    · exact h.liveOnly
    · intro p sent kind
      rcases List.mem_append.mp sent with old | new
      · exact ⟨Nat.le_trans (h.live p old kind).1 later, (h.live p old kind).2⟩
      · exact ⟨(fresh p new).2.2.1, (fresh p new).2.2.2⟩
    · change Ascending ((c.sent ++ _).filter isLive)
      rw [List.filter_append, filter_pushes fun f => by simp [isLive]]
      apply h.liveSorted.append (ascending_live sorted)
      intro p old q new
      obtain ⟨sent, live⟩ := List.mem_filter.mp old
      have before := (h.live p sent (by simpa [isLive] using live)).1
      have after := (fresh q new).2.1
      omega
    · intro subscribed row there concerned after upTo
      by_cases before : row.position ≤ s.cursor
      · obtain ⟨p, sent, live⟩ := h.pushed subscribed row there concerned after before
        exact ⟨p, List.mem_append_left _ sent, live⟩
      · have drained := Link.drained_all distinct there concerned.1 (by omega) upTo
        obtain ⟨f, frame, carries⟩ := catchUpFrames_concerns drained concerned.2
        refine ⟨⟨.live, f⟩, List.mem_append_right _ (mem_pushes.mpr ⟨rfl, ?_⟩), rfl, carries⟩
        exact perm.mem_iff.mpr frame
    · exact fun p sent kind => h.other p (others p sent kind) kind
    · exact fun p sent kind => h.replays p (others p sent (by simp [kind])) kind
    · change Ascending ((c.sent ++ _).filter fun p => !isLive p)
      rw [List.filter_append, filter_pushes_none fun f => by simp [isLive], List.append_nil]
      exact h.otherSorted
    · exact fun p sent q sentQ kind kindQ =>
        h.beyond p (others p sent (by simp [kind])) q (others q sentQ (by simp [kindQ])) kind kindQ
    · intro subscribed done since
      obtain ⟨joined, collected, all⟩ := h.replayed subscribed done since
      refine ⟨joined, collected, fun row there concerned after upTo => ?_⟩
      rcases all row there concerned after upTo with ⟨p, sent, rest⟩ | ⟨p, sent, rest⟩
      · exact Or.inl ⟨p, List.mem_append_left _ sent, rest⟩
      · exact Or.inr ⟨p, List.mem_append_left _ sent, rest⟩

theorem Link.Valid.connect (h : s.Valid ctx) (absent : s.connection = none) :
    ({ since := sinceCursor s.client } : Connection).Linked ctx s := by
  have base : (sinceCursor s.client).getD 0 = s.client.maxCursor := by
    unfold sinceCursor
    split
    · rfl
    · rename_i zero
      change 0 = _
      omega
  have nothing : ∀ p : Push, p ∈ ([] : List Push) → False := fun _ there => List.not_mem_nil there
  constructor
  · exact fun row there concerned snapshot upTo =>
      h.unlinked absent row there concerned snapshot (by rw [← base]; exact upTo)
  · rw [base]
    exact h.reach
  · exact Or.inl (Nat.le_of_eq base.symm)
  · rfl
  · exact fun p there => (nothing p there).elim
  · exact fun p there => (nothing p there).elim
  · exact fun _ => ⟨rfl, rfl⟩
  · exact Nat.zero_le _
  · intro subscribed
    cases subscribed
  · exact fun p there => (nothing p there).elim
  · exact .nil
  · intro subscribed
    cases subscribed
  · exact fun p there => (nothing p there).elim
  · exact fun p there => (nothing p there).elim
  · exact .nil
  · exact fun p there => (nothing p there).elim
  · intro subscribed
    cases subscribed

theorem Link.Through.snapshot {n horizon : Nat} (h : s.Through ctx n) (more : s.horizon ≤ horizon) :
    ({ s with horizon } : Link).Through ctx n :=
  fun row there concerned snapshot upTo =>
    h row there concerned (Nat.lt_of_le_of_lt more snapshot) upTo

theorem Connection.Linked.subscribe (h : c.Linked ctx s) (asked : c.requested = true) :
    ({ c with requested := false, replaying := c.since.isSome, joined := s.cursor } :
      Connection).Linked ctx { s with
        horizon := if c.since.isSome then s.horizon else max s.horizon s.cursor } := by
  have more : s.horizon ≤ if c.since.isSome then s.horizon else max s.horizon s.cursor := by
    split
    · exact Nat.le_refl _
    · exact Nat.le_max_left _ _
  have empty := (h.idle asked).1
  have none_ : c.got = [] := by
    have parts := h.parts
    rw [empty] at parts
    exact (List.append_eq_nil_iff.mp parts.symm).1
  have nothing : ∀ p, p ∈ c.sent → False := by
    intro p there
    rw [empty] at there
    cases there
  constructor
  · exact h.old.snapshot more
  · exact h.base
  · exact h.reached
  · exact h.parts
  · exact h.has
  · intro p got
    rw [show ({ c with requested := false, replaying := c.since.isSome, joined := s.cursor } :
      Connection).got = c.got from rfl, none_] at got
    cases got
  · intro again
    cases again
  · exact Nat.le_refl _
  · intro _ since
    change s.cursor ≤ if c.since.isSome then s.horizon else max s.horizon s.cursor
    rw [show c.since = none from since]
    exact Nat.le_max_right _ _
  · exact fun p sent => (nothing p sent).elim
  · exact h.liveSorted
  · intro _ row _ _ after upTo
    have beyond : s.cursor < row.position := after
    have within : row.position ≤ s.cursor := upTo
    omega
  · exact fun p sent => (nothing p sent).elim
  · exact fun p sent => (nothing p sent).elim
  · exact h.otherSorted
  · exact fun p sent => (nothing p sent).elim
  · intro _ done since
    have waiting : c.since.isSome = false := done
    rw [show c.since.isSome = true from since] at waiting
    cases waiting

/-- The marker stands for the first row that does not fit. -/
theorem overflow_row {id now : String} {log : EventLog} {since : Nat} {f : EventFrame}
    (h : f ∈ overflow ctx.user id now log since ctx.wanted) :
    ∃ row ∈ (log.rows.filter fun row => row.organizationId == ctx.user.organizationId &&
        decide ((since : Int) < row.position)).drop eventBatchLimit, f.cursor = row.position := by
  unfold overflow at h
  split at h
  · rename_i row _ beyond
    rw [List.mem_singleton] at h
    subst h
    refine ⟨row, ?_, rfl⟩
    unfold eventsAfter at beyond
    rw [List.getElem?_take_of_lt (Nat.lt_succ_self _)] at beyond
    have head : ((log.rows.filter fun row => row.organizationId == ctx.user.organizationId &&
        decide ((since : Int) < row.position)).drop eventBatchLimit)[0]? = some row := by
      rw [List.getElem?_drop]
      exact beyond
    exact List.mem_of_getElem? head
  · cases h

/-- A row that does not fit is at or after the marker. -/
theorem overflow_covers {id now : String} {log : EventLog} {since : Nat} {row : EventRow}
    (concerned : ctx.Concerns row)
    (left : row ∈ (log.rows.filter fun row => row.organizationId == ctx.user.organizationId &&
      decide ((since : Int) < row.position)).drop eventBatchLimit) :
    ∃ f ∈ overflow ctx.user id now log since ctx.wanted, f.cursor ≤ row.position := by
  obtain ⟨topic, _, subscribed⟩ := concerned.2
  obtain ⟨first, more, wanted⟩ := List.exists_cons_of_ne_nil (List.ne_nil_of_mem subscribed)
  have sorted : ((log.rows.filter fun row => row.organizationId == ctx.user.organizationId &&
      decide ((since : Int) < row.position)).drop eventBatchLimit).Pairwise EventRow.upTo :=
    (log.ordered.filter _).sublist (List.drop_sublist _ _)
  obtain ⟨marked, rest, is⟩ := List.exists_cons_of_ne_nil (List.ne_nil_of_mem left)
  have beyond : (eventsAfter log ctx.user.organizationId since (eventBatchLimit + 1))[eventBatchLimit]? =
      some marked := by
    unfold eventsAfter
    have head : ((log.rows.filter fun row => row.organizationId == ctx.user.organizationId &&
        decide ((since : Int) < row.position)).drop eventBatchLimit)[0]? = some marked := by
      rw [is]
      rfl
    rw [List.getElem?_drop] at head
    rw [List.getElem?_take_of_lt (Nat.lt_succ_self _)]
    exact head
  refine ⟨⟨first, syncRequired ctx.user id now, marked.position⟩, ?_, ?_⟩
  · unfold overflow
    rw [wanted, beyond]
    exact List.mem_singleton.mpr rfl
  · rw [is] at left sorted
    rcases List.mem_cons.mp left with rfl | later
    · exact Nat.le_refl _
    · exact (List.pairwise_cons.mp sorted).1 row later

theorem Connection.Linked.collect (h : c.Linked ctx s)
    (distinct : (s.log.rows.map (·.position)).Nodup) (cursor : s.cursor ≤ s.log.top)
    (waiting : c.replaying = true) {since : Nat} (some_ : c.since = some since) {id now : String} :
    (c.replay ctx id now s.log since).Linked ctx s := by
  let after := s.log.rows.filter fun row => row.organizationId == ctx.user.organizationId &&
    decide ((since : Int) < row.position)
  have sorted : (after.take eventBatchLimit ++ after.drop eventBatchLimit).Pairwise EventRow.upTo := by
    rw [List.take_append_drop]
    exact s.log.ordered.filter _
  have positions : ((after.take eventBatchLimit ++ after.drop eventBatchLimit).map
      (·.position)).Nodup := by
    rw [List.take_append_drop]
    exact distinct.sublist (List.filter_sublist.map _)
  have liveOnly : ∀ p ∈ c.sent, p.kind = .live := by
    intro p sent
    by_contra kind
    have done := (h.other p sent kind).1
    rw [waiting] at done
    cases done
  have strict : ∀ row ∈ after.take eventBatchLimit, ∀ later ∈ after.drop eventBatchLimit,
      row.position < later.position := by
    intro row there later left
    have upTo : row.position ≤ later.position := (List.pairwise_append.mp sorted).2.2 row there later left
    have differ : row.position ≠ later.position := by
      rw [List.map_append] at positions
      exact (List.nodup_append.mp positions).2.2 _ (List.mem_map_of_mem there) _
        (List.mem_map_of_mem left)
    omega
  let frames := catchUpFrames ctx.user.actorUserId ctx.wanted
    (eventsAfter s.log ctx.user.organizationId since eventBatchLimit)
  let marker := overflow ctx.user id now s.log since ctx.wanted
  have replayRow : ∀ p ∈ pushes .replay frames, p.kind = .replay ∧
      ∃ row ∈ after.take eventBatchLimit, p.carries row := by
    intro p new
    obtain ⟨kind, frame⟩ := mem_pushes.mp new
    exact ⟨kind, mem_catchUpFrames frame⟩
  have markerRow : ∀ p ∈ pushes .marker marker, p.kind = .marker ∧
      ∃ row ∈ after.drop eventBatchLimit, p.frame.cursor = row.position := by
    intro p new
    obtain ⟨kind, frame⟩ := mem_pushes.mp new
    exact ⟨kind, overflow_row frame⟩
  have inLog : ∀ row, row ∈ after.take eventBatchLimit ∨ row ∈ after.drop eventBatchLimit →
      row ∈ s.log.rows := by
    intro row there
    rcases there with taken | left
    · exact (List.mem_filter.mp (List.mem_of_mem_take taken)).1
    · exact (List.mem_filter.mp (List.mem_of_mem_drop left)).1
  have sent_ : ∀ p, p ∈ (c.replay ctx id now s.log since).sent ↔
      p ∈ c.sent ∨ p ∈ pushes .replay frames ∨ p ∈ pushes .marker marker := by
    intro p
    change p ∈ c.sent ++ (_ ++ _) ↔ _
    rw [List.mem_append, List.mem_append]
  have subscribed : c.requested = false := by
    cases asked : c.requested with
    | false => rfl
    | true =>
      have done := (h.idle asked).2
      rw [waiting] at done
      cases done
  have isSome : c.since.isSome = true := by rw [some_]; rfl
  constructor
  · exact h.old
  · exact h.base
  · exact h.reached
  · change c.sent ++ _ = c.got ++ (c.channel ++ _)
    rw [h.parts, List.append_assoc]
  · exact h.has
  · intro p got kind
    have sent : p ∈ c.sent := by
      rw [h.parts]
      exact List.mem_append_left _ got
    rw [liveOnly p sent] at kind
    cases kind
  · intro asked
    rw [show (c.replay ctx id now s.log since).requested = c.requested from rfl, subscribed] at asked
    cases asked
  · exact h.joined
  · exact h.liveOnly
  · intro p sent kind
    rcases (sent_ p).mp sent with old | new | new
    · exact h.live p old kind
    · rw [(replayRow p new).1] at kind
      cases kind
    · rw [(markerRow p new).1] at kind
      cases kind
  · change Ascending ((c.sent ++ (_ ++ _)).filter isLive)
    rw [List.filter_append, List.filter_append, filter_pushes_none fun f => by simp [isLive],
      filter_pushes_none fun f => by simp [isLive], List.append_nil, List.append_nil]
    exact h.liveSorted
  · intro _ row there concerned later upTo
    obtain ⟨p, sent, rest⟩ := h.pushed subscribed row there concerned later upTo
    exact ⟨p, (sent_ p).mpr (Or.inl sent), rest⟩
  · intro p sent kind
    refine ⟨rfl, isSome, ?_⟩
    rcases (sent_ p).mp sent with old | new | new
    · exact absurd (liveOnly p old) kind
    · obtain ⟨_, row, there, carries⟩ := replayRow p new
      have bound : row.position ≤ s.log.top := le_top (inLog row (Or.inl there))
      exact Nat.le_trans (Nat.le_of_eq carries.2) bound
    · obtain ⟨_, row, there, at_⟩ := markerRow p new
      have bound : row.position ≤ s.log.top := le_top (inLog row (Or.inr there))
      exact Nat.le_trans (Nat.le_of_eq at_) bound
  · intro p sent kind
    rcases (sent_ p).mp sent with old | new | new
    · rw [liveOnly p old] at kind
      cases kind
    · obtain ⟨_, row, there, carries⟩ := replayRow p new
      exact ⟨row, inLog row (Or.inl there), carries⟩
    · rw [(markerRow p new).1] at kind
      cases kind
  · change Ascending ((c.sent ++ (_ ++ _)).filter fun p => !isLive p)
    have none_ : c.sent.filter (fun p => !isLive p) = [] := by
      apply List.filter_eq_nil_iff.mpr
      intro p sent
      simp [isLive, liveOnly p sent]
    rw [List.filter_append, List.filter_append, none_, List.nil_append,
      filter_pushes fun f => by simp [isLive], filter_pushes fun f => by simp [isLive]]
    apply (ascending_catchUp sorted_eventsAfter).append
    · unfold overflow
      split
      · exact List.pairwise_singleton _ _
      · exact .nil
    · intro p new q newQ
      obtain ⟨_, row, there, carries⟩ := replayRow p new
      obtain ⟨_, later, left, at_⟩ := markerRow q newQ
      have less := strict row there later left
      have here : p.frame.cursor = row.position := carries.2
      omega
  · intro p sent q sentQ kind kindQ
    have new : p ∈ pushes .replay frames := by
      rcases (sent_ p).mp sent with old | new | new
      · rw [liveOnly p old] at kind
        cases kind
      · exact new
      · rw [(markerRow p new).1] at kind
        cases kind
    have newQ : q ∈ pushes .marker marker := by
      rcases (sent_ q).mp sentQ with old | new | new
      · rw [liveOnly q old] at kindQ
        cases kindQ
      · rw [(replayRow q new).1] at kindQ
        cases kindQ
      · exact new
    obtain ⟨_, row, there, carries⟩ := replayRow p new
    obtain ⟨_, later, left, at_⟩ := markerRow q newQ
    have less := strict row there later left
    have here : p.frame.cursor = row.position := carries.2
    omega
  · intro _ _ _
    refine ⟨Nat.le_trans h.joined cursor, Nat.le_refl _, fun row there concerned later _ => ?_⟩
    have ahead : since < row.position := by
      rw [show (c.replay ctx id now s.log since).since = c.since from rfl, some_] at later
      exact later
    have member : row ∈ after := by
      apply List.mem_filter.mpr
      refine ⟨there, ?_⟩
      rw [Bool.and_eq_true, beq_iff_eq, decide_eq_true_iff]
      exact ⟨concerned.1, by omega⟩
    rw [← List.take_append_drop eventBatchLimit after] at member
    rcases List.mem_append.mp member with taken | left
    · obtain ⟨f, frame, carries⟩ := @catchUpFrames_concerns ctx.user.actorUserId ctx.wanted _ _
        taken concerned.2
      exact Or.inl ⟨⟨.replay, f⟩, (sent_ _).mpr (Or.inr (Or.inl (mem_pushes.mpr ⟨rfl, frame⟩))), rfl,
        carries⟩
    · obtain ⟨f, frame, upTo⟩ := @overflow_covers ctx id now _ _ _ concerned left
      exact Or.inr ⟨⟨.marker, f⟩, (sent_ _).mpr (Or.inr (Or.inr (mem_pushes.mpr ⟨rfl, frame⟩))), rfl,
        upTo⟩

/-- What a received frame changes at the client. -/
structure Accepts (s t : Link) (p : Push) (collected : Nat) : Prop where
  log : t.log = s.log
  cursor : t.cursor = s.cursor
  maxCursor : t.client.maxCursor = max s.client.maxCursor p.frame.cursor
  seen : ∀ id, id ∈ t.client.seen ↔ id = p.frame.event.id ∨ id ∈ s.client.seen
  horizon : t.horizon = if p.kind = .marker then max s.horizon collected else s.horizon

theorem Accepts.snapshot {p : Push} {collected : Nat} (accepts : Accepts s t p collected) :
    s.horizon ≤ t.horizon := by
  rw [accepts.horizon]
  split
  · exact Nat.le_max_left _ _
  · exact Nat.le_refl _

theorem Connection.Linked.receive (h : c.Linked ctx s) {p : Push} {rest : List Push}
    (channel : c.channel = p :: rest) (accepts : Accepts s t p c.collected) :
    ({ c with channel := rest, got := c.got ++ [p] } : Connection).Linked ctx t := by
  have more := accepts.snapshot
  have grows : ∀ q ∈ c.got ++ [p], q ∈ c.got ∨ q = p := by
    intro q there
    rcases List.mem_append.mp there with old | new
    · exact Or.inl old
    · exact Or.inr (List.mem_singleton.mp new)
  constructor
  · intro row there concerned snapshot upTo
    rw [accepts.log] at there
    exact (accepts.seen _).mpr (Or.inr (h.old row there concerned (by omega) upTo))
  · rw [accepts.log]
    exact h.base
  · rw [accepts.maxCursor]
    by_cases ahead : s.client.maxCursor ≤ p.frame.cursor
    · exact Or.inr ⟨p, List.mem_append_right _ (List.mem_singleton.mpr rfl), by omega⟩
    · rcases h.reached with low | ⟨q, got, bound⟩
      · exact Or.inl (by change _ ≤ c.since.getD 0; omega)
      · exact Or.inr ⟨q, List.mem_append_left _ got, by omega⟩
  · change c.sent = c.got ++ [p] ++ rest
    rw [h.parts, channel, List.append_assoc]
    rfl
  · intro q there
    rcases grows q there with old | rfl
    · exact (accepts.seen _).mpr (Or.inr (h.has q old))
    · exact (accepts.seen _).mpr (Or.inl rfl)
  · intro q there kind
    rcases grows q there with old | rfl
    · exact Nat.le_trans (h.marked q old kind) more
    · rw [accepts.horizon, if_pos kind]
      exact Nat.le_max_right _ _
  · exact h.idle
  · rw [accepts.cursor]
    exact h.joined
  · exact fun subscribed since => Nat.le_trans (h.liveOnly subscribed since) more
  · rw [accepts.cursor, accepts.log]
    exact h.live
  · exact h.liveSorted
  · rw [accepts.cursor, accepts.log]
    exact h.pushed
  · exact h.other
  · rw [accepts.log]
    exact h.replays
  · exact h.otherSorted
  · exact h.beyond
  · rw [accepts.log]
    exact h.replayed

theorem Connection.Linked.relink (h : c.Linked ctx s) (connection : Option Connection) :
    c.Linked ctx { s with connection } := { h with }

/-- The frames on the way are of what is committed. -/
theorem Connection.Linked.channel_top (h : c.Linked ctx s) (cursor : s.cursor ≤ s.log.top)
    {p : Push} (there : p ∈ c.channel) : p.frame.cursor ≤ s.log.top := by
  have sent : p ∈ c.sent := by
    rw [h.parts]
    exact List.mem_append_right _ there
  by_cases live : p.kind = .live
  · exact Nat.le_trans (h.live p sent live).1 cursor
  · obtain ⟨done, since, bound⟩ := h.other p sent live
    have subscribed : c.requested = false := by
      cases asked : c.requested with
      | false => rfl
      | true =>
        rw [(h.idle asked).1] at sent
        cases sent
    exact Nat.le_trans bound (h.replayed subscribed done since).2.1

/-- Commits in order of position, drains that load the user, and no drop between the first live
frame of a connection and the end of its catch-up. -/
def steady (ctx : LinkContext) (s : Link) : LinkAct → Prop
  | .commit row => s.log.top < row.position
  | .publish users _ => ctx.user.actorUserId ∈ users
  | .drop => ∀ c, s.connection = some c → c.Quiet ∨ c.Settled
  | _ => True

def Link.Steps (ctx : LinkContext) (ok : Link → LinkAct → Prop) (act : LinkAct) (s t : Link) : Prop :=
  s.step ctx act = some t ∧ ok s act

theorem Link.Valid.step (h : s.Valid ctx) (step : s.step ctx act = some t) (ok : steady ctx s act) :
    t.Valid ctx := by
  cases act with
  | commit row =>
    cases step
    have order : s.log.top < row.position := ok
    constructor
    · have inserted : (s.log.insert row).rows.Perm (row :: s.log.rows) := List.perm_orderedInsert _ _ _
      apply (inserted.map _).nodup_iff.mpr
      rw [List.map_cons, List.nodup_cons]
      refine ⟨fun used => ?_, h.distinct⟩
      obtain ⟨other, there, same⟩ := List.mem_map.mp used
      have bound : other.position ≤ s.log.top := le_top there
      omega
    · exact Nat.le_trans h.cursor top_insert
    · exact Nat.le_trans h.reach top_insert
    · exact h.surfaced
    · exact fun absent => (h.unlinked absent).commit order h.reach
    · exact fun c found => (h.linked c found).commit order h.cursor
  | publish users visible =>
    cases step
    constructor
    · exact h.distinct
    · exact advance_le_top h.cursor
    · exact h.reach
    · exact h.surfaced
    · exact fun absent => h.unlinked (Option.map_eq_none_iff.mp absent)
    · intro c found
      obtain ⟨before, here, rfl⟩ := Option.map_eq_some_iff.mp found
      exact (@Connection.Linked.publish ctx s before (h.linked before here) h.distinct users visible
        ok).relink _
  | connect =>
    unfold Link.step at step
    cases found : s.connection with
    | some c =>
      rw [found] at step
      cases step
    | none =>
      rw [found] at step
      cases step
      refine ⟨h.distinct, h.cursor, h.reach, h.surfaced, ?_, ?_⟩
      · intro absent
        cases absent
      · intro c is
        cases is
        exact (h.connect found).relink _
  | subscribe =>
    unfold Link.step at step
    cases found : s.connection with
    | none =>
      rw [found] at step
      cases step
    | some c =>
      rw [found] at step
      dsimp only at step
      split at step
      · rename_i asked
        cases step
        refine ⟨h.distinct, h.cursor, h.reach, h.surfaced, ?_, ?_⟩
        · intro absent
          cases absent
        · intro c' is
          cases is
          exact ((h.linked c found).subscribe asked).relink _
      · cases step
  | collect id now =>
    unfold Link.step at step
    cases found : s.connection with
    | none =>
      rw [found] at step
      cases step
    | some c =>
      rw [found] at step
      dsimp only at step
      split at step
      · rename_i since waiting some_
        cases step
        refine ⟨h.distinct, h.cursor, h.reach, h.surfaced, ?_, ?_⟩
        · intro absent
          cases absent
        · intro c' is
          cases is
          exact ((h.linked c found).collect h.distinct h.cursor waiting some_).relink _
      · cases step
  | receive =>
    unfold Link.step at step
    cases found : s.connection with
    | none =>
      rw [found] at step
      cases step
    | some c =>
      rw [found] at step
      dsimp only at step
      split at step
      · cases step
      · rename_i p rest channel
        cases step
        have bound := (h.linked c found).channel_top h.cursor
          (by rw [channel]; exact List.mem_cons_self)
        constructor
        · exact h.distinct
        · exact h.cursor
        · change (s.client.accept p.frame).1.maxCursor ≤ s.log.top
          rw [accept_maxCursor]
          exact Nat.max_le.mpr ⟨h.reach, bound⟩
        · exact accept_surfaces h.surfaced
        · intro absent
          cases absent
        · intro c' is
          cases is
          exact (h.linked c found).receive channel
            ⟨rfl, rfl, accept_maxCursor, fun _ => accept_seen, rfl⟩
  | drop =>
    unfold Link.step at step
    obtain ⟨c, found, rfl⟩ := Option.map_eq_some_iff.mp step
    refine ⟨h.distinct, h.cursor, h.reach, h.surfaced, fun _ => ?_, fun _ is => by cases is⟩
    rcases ok c found with quiet | settled
    · exact (h.linked c found).quiet h.distinct quiet
    · exact (h.linked c found).settled h.distinct settled

end Steps

end Artoo.Realtime
