import Artoo.Realtime.Event

/-! Live publishing and catch-up give a user the same frames, and no others' private ones. -/
namespace Artoo.Realtime
open Artoo.Protocol
open Artoo.Server (Payload)

/-! ## Sets in insertion order -/

theorem mem_addOnce {set : List String} {item x : String} :
    x ∈ addOnce set item ↔ x ∈ set ∨ x = item := by
  unfold addOnce
  split
  · rename_i there
    have member : item ∈ set := by simpa using there
    constructor
    · exact Or.inl
    · rintro (old | rfl)
      · exact old
      · exact member
  · simp

theorem nodup_addOnce {set : List String} {item : String} (h : set.Nodup) :
    (addOnce set item).Nodup := by
  unfold addOnce
  split
  · exact h
  · rename_i absent
    have fresh : item ∉ set := by simpa using absent
    exact h.append (List.nodup_singleton item) (by simpa using fresh)

theorem mem_foldl_addOnce {xs set : List String} {x : String} :
    x ∈ xs.foldl addOnce set ↔ x ∈ set ∨ x ∈ xs := by
  induction xs generalizing set with
  | nil => simp
  | cons y ys ih =>
    rw [List.foldl_cons, ih, mem_addOnce, List.mem_cons]
    exact or_assoc

@[simp] theorem mem_toSet {xs : List String} {x : String} : x ∈ toSet xs ↔ x ∈ xs := by
  unfold toSet
  rw [mem_foldl_addOnce]
  simp

theorem nodup_toSet {xs : List String} : (toSet xs).Nodup := by
  have key : ∀ (ys set : List String), set.Nodup → (ys.foldl addOnce set).Nodup := by
    intro ys
    induction ys with
    | nil => exact fun _ h => h
    | cons y ys ih => exact fun set h => ih _ (nodup_addOnce h)
  exact key xs [] List.nodup_nil

/-! ## The topics of one event -/

theorem inboxTopic_injective {a b : String} (h : inboxTopic a = inboxTopic b) : a = b :=
  (String.append_right_inj "inbox:").mp h

theorem isInbox_inboxTopic {userId : String} : isInbox (inboxTopic userId) = true := by
  unfold isInbox startsWith inboxTopic
  rw [String.toList_append]
  exact List.isPrefixOf_iff_prefix.mpr (List.prefix_append _ _)

/-- A topic is told by the first two letters of its kind. -/
theorem kind_apart {kind other a b : String} (long : 2 ≤ kind.toList.length)
    (long' : 2 ≤ other.toList.length) (differ : kind.toList.take 2 ≠ other.toList.take 2) :
    kind ++ a ≠ other ++ b := by
  intro same
  apply differ
  have heads := congrArg (fun s => s.toList.take 2) same
  simp only [String.toList_append] at heads
  rwa [List.take_append_of_le_length long, List.take_append_of_le_length long'] at heads

theorem mem_entityTopics {event : EventEnvelope} {topic : String} :
    topic ∈ entityTopics event ↔ ∃ kind id, topic = kind ++ id ∧
      (kind = "task:" ∧ event.taskId = some id ∨ kind = "room:" ∧ event.roomId = some id ∨
        kind = "run:" ∧ event.runId = some id ∨ kind = "project:" ∧ event.projectId = some id) := by
  unfold entityTopics
  simp only [List.mem_append, Option.mem_toList, Option.map_eq_some_iff]
  constructor
  · rintro (((⟨id, is, rfl⟩ | ⟨id, is, rfl⟩) | ⟨id, is, rfl⟩) | ⟨id, is, rfl⟩) <;>
      exact ⟨_, id, rfl, by simp [is]⟩
  · rintro ⟨kind, id, rfl, ⟨rfl, is⟩ | ⟨rfl, is⟩ | ⟨rfl, is⟩ | ⟨rfl, is⟩⟩
    · exact Or.inl (Or.inl (Or.inl ⟨id, is, rfl⟩))
    · exact Or.inl (Or.inl (Or.inr ⟨id, is, rfl⟩))
    · exact Or.inl (Or.inr ⟨id, is, rfl⟩)
    · exact Or.inr ⟨id, is, rfl⟩

theorem isInbox_entity {event : EventEnvelope} {topic : String} (h : topic ∈ entityTopics event) :
    isInbox topic = false := by
  obtain ⟨kind, id, rfl, is⟩ := mem_entityTopics.mp h
  unfold isInbox startsWith
  rw [String.toList_append]
  rcases is with ⟨rfl, _⟩ | ⟨rfl, _⟩ | ⟨rfl, _⟩ | ⟨rfl, _⟩ <;> rfl

theorem nodup_entityTopics {event : EventEnvelope} : (entityTopics event).Nodup := by
  have single : ∀ (o : Option String), o.toList.Nodup := by
    intro o
    cases o with
    | none => exact List.nodup_nil
    | some a => exact List.nodup_singleton a
  unfold entityTopics
  refine (((single _).append (single _) ?_).append (single _) ?_).append (single _) ?_
  all_goals
    intro topic left right
    simp only [List.mem_append, Option.mem_toList, Option.map_eq_some_iff] at left right
  · obtain ⟨a, _, rfl⟩ := left
    obtain ⟨b, _, same⟩ := right
    exact kind_apart (by decide) (by decide) (by decide) same.symm
  · obtain ⟨b, _, same⟩ := right
    rcases left with ⟨a, _, rfl⟩ | ⟨a, _, rfl⟩ <;>
      exact kind_apart (by decide) (by decide) (by decide) same.symm
  · obtain ⟨b, _, same⟩ := right
    rcases left with (⟨a, _, rfl⟩ | ⟨a, _, rfl⟩) | ⟨a, _, rfl⟩ <;>
      exact kind_apart (by decide) (by decide) (by decide) same.symm

/-- Whether an event goes to the inbox of a user. -/
def inInbox (event : EventEnvelope) (userId : String) : Bool :=
  if isNotification event.type then notifies event userId
  else broadcastInboxEvent event.type ||
    event.type == "message.mention" && (mentionRecipients event).contains userId

theorem broadcast_mention {type : String} (mention : type = "message.mention") :
    broadcastInboxEvent type = false := by
  subst mention
  decide

theorem mem_topicsForEvent {event : EventEnvelope} {userId topic : String} :
    topic ∈ topicsForEvent event userId ↔
      (isNotification event.type = false ∧ topic ∈ entityTopics event) ∨
        (topic = inboxTopic userId ∧ inInbox event userId = true) := by
  unfold topicsForEvent inInbox
  cases isNotification event.type with
  | true => by_cases own : notifies event userId <;> simp [own]
  | false =>
    by_cases broadcast : broadcastInboxEvent event.type <;>
      by_cases mentioned : (event.type == "message.mention" &&
        (mentionRecipients event).contains userId) = true <;>
      simp only [broadcast, mentioned] <;> simp

theorem nodup_topicsForEvent {event : EventEnvelope} {userId : String} :
    (topicsForEvent event userId).Nodup := by
  have inbox : ∀ b : Bool, (if b then [inboxTopic userId] else []).Nodup := by
    intro b
    cases b <;> simp
  have apart : ∀ b : Bool,
      (entityTopics event).Disjoint (if b then [inboxTopic userId] else []) := by
    intro b topic entity own
    cases b with
    | false => cases own
    | true =>
      rw [if_pos rfl, List.mem_singleton] at own
      have shared := isInbox_entity entity
      rw [own, isInbox_inboxTopic] at shared
      cases shared
  unfold topicsForEvent
  cases isNotification event.type with
  | true => exact inbox _
  | false =>
    by_cases mention : event.type = "message.mention"
    · rw [broadcast_mention mention, if_neg Bool.false_ne_true, if_neg Bool.false_ne_true,
        List.append_nil]
      exact nodup_entityTopics.append (inbox _) (apart _)
    · have other : (event.type == "message.mention") = false := by simpa using mention
      rw [other, Bool.false_and, if_neg Bool.false_ne_true, if_neg Bool.false_ne_true,
        List.append_nil]
      exact nodup_entityTopics.append (inbox _) (apart _)

/-! ## The topics of a drain -/

/-- The users whose inbox a drain gives an event to. -/
def pushedTo (members : List String) (event : EventEnvelope) (userId : String) : Prop :=
  if isNotification event.type then notifies event userId = true
  else (broadcastInboxEvent event.type = true ∧ userId ∈ members) ∨
    (event.type = "message.mention" ∧ userId ∈ mentionRecipients event)

theorem not_notification_mention {type : String} (mention : type = "message.mention") :
    isNotification type = false := by
  subst mention
  decide

theorem mem_liveTopics {ctx : RealtimeContext} {members : List String} {event : EventEnvelope}
    {topic : String} :
    topic ∈ liveTopics ctx members event ↔
      (isNotification event.type = false ∧ topic ∈ entityTopics event) ∨
        ∃ userId, topic = inboxTopic userId ∧ pushedTo members event userId := by
  unfold liveTopics
  simp only [mem_toSet, List.mem_append, List.mem_filter, List.mem_flatMap, mem_topicsForEvent]
  constructor
  · rintro (((⟨entity | ⟨rfl, _⟩, shared⟩ | mentioned) | notified) | ⟨m, member, entity | ⟨rfl, here⟩⟩)
    · exact Or.inl entity
    · rw [isInbox_inboxTopic] at shared
      cases shared
    · split at mentioned
      · rename_i mention
        obtain ⟨userId, is, rfl⟩ := List.mem_map.mp mentioned
        have mention : event.type = "message.mention" := by simpa using mention
        refine Or.inr ⟨userId, rfl, ?_⟩
        unfold pushedTo
        rw [not_notification_mention mention]
        exact Or.inr ⟨mention, is⟩
      · cases mentioned
    · split at notified
      · rename_i userId notification is
        rw [List.mem_singleton] at notified
        refine Or.inr ⟨userId, notified, ?_⟩
        unfold pushedTo
        rw [notification]
        simp [notifies, is]
      · cases notified
    · exact Or.inl entity
    · refine Or.inr ⟨m, rfl, ?_⟩
      unfold inInbox at here
      unfold pushedTo
      cases notification : isNotification event.type with
      | true => simpa [notification] using here
      | false =>
        simp only [notification, Bool.false_eq_true, if_false, Bool.or_eq_true, Bool.and_eq_true,
          beq_iff_eq, List.contains_iff_mem] at here ⊢
        exact here.imp (fun broadcast => ⟨broadcast, member⟩) id
  · rintro (⟨plain, entity⟩ | ⟨userId, rfl, pushed⟩)
    · refine Or.inl (Or.inl (Or.inl ⟨Or.inl ⟨plain, entity⟩, ?_⟩))
      rw [isInbox_entity entity]
      rfl
    · unfold pushedTo at pushed
      cases notification : isNotification event.type with
      | true =>
        simp only [notification, if_true] at pushed
        have is : event.payload.lookup "user_id" = some (.str userId) := by
          simpa [notifies] using pushed
        refine Or.inl (Or.inr ?_)
        rw [is]
        exact List.mem_singleton.mpr rfl
      | false =>
        simp only [notification, Bool.false_eq_true, if_false] at pushed
        rcases pushed with ⟨broadcast, member⟩ | ⟨mention, named⟩
        · refine Or.inr ⟨userId, member, Or.inr ⟨rfl, ?_⟩⟩
          simp [inInbox, notification, broadcast]
        · refine Or.inl (Or.inl (Or.inr ?_))
          rw [mention, beq_self_eq_true, if_pos rfl]
          exact List.mem_map.mpr ⟨userId, named, rfl⟩

/-- For a member, the live topics of its own subscription are those of a catch-up. -/
theorem live_iff_catchUp {ctx : RealtimeContext} {members : List String} {event : EventEnvelope}
    {userId topic : String} (loaded : broadcastInboxEvent event.type → userId ∈ members)
    (own : isInbox topic = true → topic = inboxTopic userId) :
    topic ∈ liveTopics ctx members event ↔ topic ∈ topicsForEvent event userId := by
  rw [mem_liveTopics, mem_topicsForEvent]
  apply or_congr_right
  constructor
  · rintro ⟨other, rfl, pushed⟩
    have same : other = userId := inboxTopic_injective (own isInbox_inboxTopic)
    subst same
    refine ⟨rfl, ?_⟩
    unfold pushedTo at pushed
    unfold inInbox
    split at pushed
    · rename_i notification
      simpa [notification] using pushed
    · rename_i plain
      rcases pushed with ⟨broadcast, _⟩ | ⟨mention, named⟩
      · simp [plain, broadcast]
      · rw [if_neg plain]
        simp [mention, named]
  · rintro ⟨rfl, here⟩
    refine ⟨userId, rfl, ?_⟩
    unfold inInbox at here
    unfold pushedTo
    split at here
    · rename_i notification
      simpa [notification] using here
    · rename_i plain
      rw [if_neg plain]
      simp only [Bool.or_eq_true, Bool.and_eq_true, beq_iff_eq, List.contains_iff_mem] at here
      exact here.imp (fun broadcast => ⟨broadcast, loaded broadcast⟩) id

/-! ## Frames -/

/-- Of a drain, a member receives on its subscription what a catch-up gives. -/
theorem drain_perm {ctx : RealtimeContext} {users wanted : List String} {userId : String}
    {rows : List EventRow} (member : userId ∈ users)
    (own : ∀ topic ∈ wanted, isInbox topic = true → topic = inboxTopic userId) :
    ((drainFrames ctx users rows).filter fun f => wanted.contains f.topic).Perm
      (catchUpFrames userId wanted rows) := by
  unfold drainFrames catchUpFrames
  rw [List.filter_flatMap]
  apply List.Perm.flatMap_left
  intro row there
  rw [List.filter_map]
  apply List.Perm.map
  have loaded : broadcastInboxEvent row.type → userId ∈ loadMembers users rows := by
    intro broadcast
    unfold loadMembers
    rw [if_pos (List.any_eq_true.mpr ⟨row, there, broadcast⟩)]
    exact member
  apply (List.perm_ext_iff_of_nodup (nodup_toSet.filter _) (nodup_topicsForEvent.filter _)).mpr
  intro topic
  rw [List.mem_filter, List.mem_filter]
  apply and_congr_left
  intro subscribed
  exact live_iff_catchUp loaded (own topic (by simpa using subscribed))

/-- The rows of which the user may receive a frame: not the notifications of others. -/
def mayReach (userId : String) (row : EventRow) : Bool :=
  !isNotification row.type || notifies (toEnvelope row) userId

/-- The notifications of others give no frame. -/
theorem catchUpFrames_mayReach {userId : String} {wanted : List String} {rows : List EventRow} :
    catchUpFrames userId wanted rows = catchUpFrames userId wanted (rows.filter (mayReach userId)) := by
  induction rows with
  | nil => rfl
  | cons row rows ih =>
    rw [List.filter_cons]
    split
    · unfold catchUpFrames at ih ⊢
      rw [List.flatMap_cons, List.flatMap_cons, ih]
    · rename_i private_
      have none_ : topicsForEvent (toEnvelope row) userId = [] := by
        have both : isNotification (toEnvelope row).type = true ∧
            notifies (toEnvelope row) userId = false := by
          simpa [mayReach, toEnvelope] using private_
        unfold topicsForEvent
        rw [both.1, both.2]
        rfl
      rw [← ih]
      unfold catchUpFrames
      rw [List.flatMap_cons, none_]
      rfl

/-- A frame of a drain goes to an entity of its event or to an inbox it is meant for. -/
theorem drain_addressed {ctx : RealtimeContext} {users : List String} {rows : List EventRow}
    {f : EventFrame} (h : f ∈ drainFrames ctx users rows) :
    ∃ row ∈ rows, f.event = toEnvelope row ∧
      ((isNotification row.type = false ∧ f.topic ∈ entityTopics f.event) ∨
        ∃ userId, f.topic = inboxTopic userId ∧ pushedTo users f.event userId) := by
  unfold drainFrames at h
  obtain ⟨row, there, member⟩ := List.mem_flatMap.mp h
  obtain ⟨topic, live, rfl⟩ := List.mem_map.mp member
  refine ⟨row, there, rfl, ?_⟩
  rcases mem_liveTopics.mp live with entity | ⟨userId, is, pushed⟩
  · exact Or.inl entity
  · refine Or.inr ⟨userId, is, ?_⟩
    unfold pushedTo at pushed ⊢
    split
    · rename_i notification
      rwa [if_pos notification] at pushed
    · rename_i plain
      rw [if_neg plain] at pushed
      refine pushed.imp (fun both => ⟨both.1, ?_⟩) id
      unfold loadMembers at both
      grind

/-! ## Live publishing and catch-up -/

/-- The drains of some batches, each with the users of its time. -/
def liveFrames (ctx : RealtimeContext) (batches : List (List String × List EventRow)) :
    List EventFrame :=
  batches.flatMap fun batch => drainFrames ctx batch.1 batch.2

/-- What a socket receives on the topics it has subscribed to. -/
def received (wanted : List String) (frames : List EventFrame) : List EventFrame :=
  frames.filter fun f => wanted.contains f.topic

theorem received_live {ctx : RealtimeContext} {wanted : List String} {userId : String}
    {batches : List (List String × List EventRow)} (member : ∀ batch ∈ batches, userId ∈ batch.1)
    (own : ∀ topic ∈ wanted, isInbox topic = true → topic = inboxTopic userId) :
    (received wanted (liveFrames ctx batches)).Perm
      (catchUpFrames userId wanted (batches.flatMap (·.2))) := by
  induction batches with
  | nil => exact .nil
  | cons batch batches ih =>
    unfold received liveFrames at ih ⊢
    rw [List.flatMap_cons, List.flatMap_cons, List.filter_append]
    unfold catchUpFrames at ih ⊢
    rw [List.flatMap_append]
    apply List.Perm.append
    · exact drain_perm (member batch List.mem_cons_self) own
    · exact ih fun b there => member b (List.mem_cons_of_mem _ there)

/-- The events after the cursor fit into one replay. -/
def fits (log : EventLog) (organizationId : String) (since : Int) : Prop :=
  (eventsAfter log organizationId since (eventBatchLimit + 1)).length ≤ eventBatchLimit

/-- The marker of a replay that the events do not fit into. -/
def overflow (ctx : RealtimeContext) (id now : String) (log : EventLog) (since : Int)
    (wanted : List String) : List EventFrame :=
  match wanted, (eventsAfter log ctx.organizationId since (eventBatchLimit + 1))[eventBatchLimit]? with
  | first :: _, some row => [⟨first, syncRequired ctx id now, row.position⟩]
  | _, _ => []

theorem take_eventsAfter {log : EventLog} {organizationId : String} {since : Int} :
    (eventsAfter log organizationId since (eventBatchLimit + 1)).take eventBatchLimit =
      eventsAfter log organizationId since eventBatchLimit := by
  unfold eventsAfter
  rw [List.take_take, Nat.min_eq_left (Nat.le_succ _)]

theorem collectCatchUp_eq {ctx : RealtimeContext} {id now : String} {log : EventLog} {since : Int}
    {wanted : List String} :
    collectCatchUp ctx id now log since wanted =
      catchUpFrames ctx.actorUserId wanted (eventsAfter log ctx.organizationId since eventBatchLimit) ++
        overflow ctx id now log since wanted := by
  cases wanted with
  | nil =>
    have none_ : ∀ rows, catchUpFrames ctx.actorUserId [] rows = [] := by
      intro rows
      unfold catchUpFrames
      simp
    rw [none_]
    rfl
  | cons first more =>
    unfold collectCatchUp overflow
    dsimp only
    rw [take_eventsAfter]
    split
    · rename_i fit
      rw [fit, List.append_nil]
    · rename_i row beyond
      rw [beyond]

theorem overflow_fits {ctx : RealtimeContext} {id now : String} {log : EventLog} {since : Int}
    {wanted : List String} (h : fits log ctx.organizationId since) :
    overflow ctx id now log since wanted = [] := by
  unfold overflow
  rw [List.getElem?_eq_none h]
  cases wanted <;> rfl

theorem eventsAfter_fits {log : EventLog} {organizationId : String} {since : Int}
    (h : fits log organizationId since) :
    eventsAfter log organizationId since eventBatchLimit = log.rows.filter fun row =>
      row.organizationId == organizationId && decide (since < row.position) := by
  unfold fits eventsAfter at h
  unfold eventsAfter
  rw [List.length_take] at h
  apply List.take_of_length_le
  omega

/-- A log that differs in the notifications of others gives the same rows otherwise. -/
theorem mayReach_eventsAfter {log other : EventLog} {organizationId userId : String} {since : Int}
    (same : other.rows.filter (mayReach userId) = log.rows.filter (mayReach userId))
    (fitLog : fits log organizationId since) (fitOther : fits other organizationId since) :
    (eventsAfter other organizationId since eventBatchLimit).filter (mayReach userId) =
      (eventsAfter log organizationId since eventBatchLimit).filter (mayReach userId) := by
  rw [eventsAfter_fits fitLog, eventsAfter_fits fitOther, List.filter_comm, same, List.filter_comm]

/-- The users that an event is addressed to by name. -/
def names (event : EventEnvelope) (userId : String) : Prop :=
  (event.type = "message.mention" ∧ userId ∈ mentionRecipients event) ∨
    (isNotification event.type = true ∧ notifies event userId = true)

theorem own_allowed {ctx : RealtimeContext} {topics : List String} :
    ∀ topic ∈ allowedTopics ctx topics, isInbox topic = true → topic = inboxTopic ctx.actorUserId := by
  intro topic allowed inbox
  have passes := (List.mem_filter.mp allowed).2
  rw [inbox] at passes
  simpa using passes

/-! One member and the notifications of a colleague. -/
namespace Sample

def member : RealtimeContext := ⟨"org_default", "user_owner"⟩

def eventOf (type id : String) (position : Nat) (payload : Payload) : EventRow :=
  { id, type, schemaVersion := "2026-06-11", organizationId := "org_default", actorType := "user",
    actorId := "user_owner", occurredAt := "2026-01-05T10:00:00.000Z", correlationId := id, payload,
    position }

/-- A colleague has read a notification. -/
def readBy (userId : String) (position : Nat) : EventRow :=
  eventOf "notification.read" "n" position [("user_id", .str userId)]

def reviewed : EventRow := eventOf "review.completed" "r" 3 []

end Sample

open Sample

end Artoo.Realtime
