import Artoo.Lib.Automaton
import Artoo.Realtime.Event
import Mathlib.Data.List.Nodup
import Mathlib.Logic.Function.Basic

/-! The hub of the client sockets: who is subscribed to which topic, kept in two maps that mirror
each other, and what a frame that is published reaches. -/
namespace Artoo.Realtime
open Artoo.Lib

/-- The maps of `createWsHub`, their sets in the order of insertion. -/
structure Hub (S : Type) where
  byTopic : String → Option (List S) := fun _ => none
  bySocket : S → Option (List String) := fun _ => none

namespace Hub

variable {S : Type} [DecidableEq S]

/-- `Set.add` -/
def insertInto {α : Type} [DecidableEq α] (set : List α) (item : α) : List α :=
  if item ∈ set then set else set ++ [item]

/-- `byTopic.get(topic)?.delete(socket)` -/
def dropSocket (socket : S) (hub : Hub S) (topic : String) : Hub S :=
  { hub with
    byTopic := Function.update hub.byTopic topic ((hub.byTopic topic).map (·.filter (· ≠ socket))) }

/-- `owned?.delete(topic)` -/
def dropTopic (socket : S) (hub : Hub S) (topic : String) : Hub S :=
  { hub with
    bySocket :=
      Function.update hub.bySocket socket ((hub.bySocket socket).map (·.filter (· ≠ topic))) }

def add (hub : Hub S) (socket : S) : Hub S :=
  match hub.bySocket socket with
  | some _ => hub
  | none => { hub with bySocket := Function.update hub.bySocket socket (some []) }

def remove (hub : Hub S) (socket : S) : Hub S :=
  let dropped := ((hub.bySocket socket).getD []).foldl (dropSocket socket) hub
  { dropped with bySocket := Function.update dropped.bySocket socket none }

def subscribeTopic (socket : S) (hub : Hub S) (topic : String) : Hub S where
  byTopic := Function.update hub.byTopic topic
    (some (insertInto ((hub.byTopic topic).getD []) socket))
  bySocket := Function.update hub.bySocket socket
    (some (insertInto ((hub.bySocket socket).getD []) topic))

def subscribe (hub : Hub S) (socket : S) (topics : List String) : Hub S :=
  topics.foldl (subscribeTopic socket) { hub with
    bySocket := Function.update hub.bySocket socket (some ((hub.bySocket socket).getD [])) }

def unsubscribe (hub : Hub S) (socket : S) (topics : List String) : Hub S :=
  topics.foldl (fun hub topic => dropSocket socket (dropTopic socket hub topic) topic) hub

/-- The sockets a frame is sent to. One that throws is passed over. -/
def publish (hub : Hub S) (topic : String) : List S := (hub.byTopic topic).getD []

inductive Call (S : Type) where
  | add (socket : S)
  | remove (socket : S)
  | subscribe (socket : S) (topics : List String)
  | unsubscribe (socket : S) (topics : List String)
  | publish (topic : String)

/-- A call, with the sockets that are sent a frame by it. -/
def apply (hub : Hub S) : Call S → Hub S × List S
  | .add socket => (hub.add socket, [])
  | .remove socket => (hub.remove socket, [])
  | .subscribe socket topics => (hub.subscribe socket topics, [])
  | .unsubscribe socket topics => (hub.unsubscribe socket topics, [])
  | .publish topic => (hub, hub.publish topic)

def automaton : Automaton (Hub S) (Call S) (List S) where
  step := apply

/-! ## Subscriptions -/

/-- What a call makes of the subscription of a socket to a topic. -/
def Call.mark (socket : S) (topic : String) (subscribed : Bool) : Call S → Bool
  | .add _ => subscribed
  | .remove other => subscribed && socket ≠ other
  | .subscribe other topics => subscribed || (socket = other && topic ∈ topics)
  | .unsubscribe other topics => subscribed && !(socket = other && topic ∈ topics)
  | .publish _ => subscribed

/-- What is left of the calls: the last that concerns a socket and a topic decides. -/
def subscribed (calls : List (Call S)) (socket : S) (topic : String) : Bool :=
  calls.foldl (Call.mark socket topic) false

def Has (hub : Hub S) (socket : S) (topic : String) : Prop := socket ∈ hub.publish topic

def Owns (hub : Hub S) (socket : S) (topic : String) : Prop :=
  topic ∈ (hub.bySocket socket).getD []

/-- The two maps say the same, and no socket is in a topic twice. -/
structure Mirrored (hub : Hub S) : Prop where
  owns : ∀ socket topic, hub.Owns socket topic ↔ hub.Has socket topic
  nodup : ∀ topic, (hub.publish topic).Nodup

variable {hub : Hub S} {socket other : S} {topic topic' : String} {topics : List String}

theorem mem_insertInto {α : Type} [DecidableEq α] {set : List α} {item x : α} :
    x ∈ insertInto set item ↔ x ∈ set ∨ x = item := by
  unfold insertInto
  split
  · constructor
    · exact .inl
    · rintro (member | rfl)
      · exact member
      · assumption
  · simp

theorem nodup_insertInto {α : Type} [DecidableEq α] {set : List α} (item : α) (nodup : set.Nodup) :
    (insertInto set item).Nodup := by
  unfold insertInto
  split
  · exact nodup
  · rename_i fresh
    exact List.nodup_append.mpr ⟨nodup, by simp, by simp; grind⟩

theorem publish_dropSocket : (dropSocket socket hub topic).publish topic' =
    if topic' = topic then (hub.publish topic').filter (· ≠ socket) else hub.publish topic' := by
  unfold publish dropSocket
  by_cases same : topic' = topic
  · subst same
    simp only [Function.update_self, if_true]
    cases hub.byTopic topic' <;> rfl
  · simp only [Function.update_of_ne same, if_neg same]

theorem has_dropSocket : (dropSocket socket hub topic).Has other topic' ↔
    hub.Has other topic' ∧ ¬(other = socket ∧ topic' = topic) := by
  unfold Has
  rw [publish_dropSocket]
  split <;> simp [*]

theorem owns_dropSocket :
    (dropSocket socket hub topic).Owns other topic' ↔ hub.Owns other topic' := Iff.rfl

theorem owns_dropTopic : (dropTopic socket hub topic).Owns other topic' ↔
    hub.Owns other topic' ∧ ¬(other = socket ∧ topic' = topic) := by
  unfold Owns dropTopic
  by_cases same : other = socket
  · subst same
    cases hub.bySocket other <;> simp
  · simp [same]

theorem publish_dropTopic : (dropTopic socket hub topic).publish topic' = hub.publish topic' := rfl

theorem publish_subscribeTopic : (subscribeTopic socket hub topic).publish topic' =
    if topic' = topic then insertInto (hub.publish topic') socket else hub.publish topic' := by
  unfold publish subscribeTopic
  by_cases same : topic' = topic
  · subst same
    simp
  · simp [same]

theorem has_subscribeTopic : (subscribeTopic socket hub topic).Has other topic' ↔
    hub.Has other topic' ∨ other = socket ∧ topic' = topic := by
  unfold Has
  rw [publish_subscribeTopic]
  split <;> simp [mem_insertInto, *]

theorem owns_subscribeTopic : (subscribeTopic socket hub topic).Owns other topic' ↔
    hub.Owns other topic' ∨ other = socket ∧ topic' = topic := by
  unfold Owns subscribeTopic
  by_cases same : other = socket
  · subst same
    simp [mem_insertInto]
  · simp [same]

/-! ## Each call keeps the maps mirrored -/

omit [DecidableEq S] in
theorem Mirrored.empty : Mirrored ({} : Hub S) where
  owns _ _ := by simp [Owns, Has, publish]
  nodup _ := by simp [publish]

theorem has_add : (hub.add socket).Has other topic ↔ hub.Has other topic := by
  unfold add
  split <;> rfl

/-- A set that is made for a socket is empty. -/
theorem Mirrored.opened (mirrored : Mirrored hub) (socket : S) : Mirrored { hub with
    bySocket := Function.update hub.bySocket socket (some ((hub.bySocket socket).getD [])) } := by
  refine ⟨fun other topic => Iff.trans ?_ (mirrored.owns other topic), mirrored.nodup⟩
  unfold Owns
  by_cases same : other = socket
  · subst same
    simp
  · simp [Function.update_of_ne same]

theorem Mirrored.add (mirrored : Mirrored hub) (socket : S) : Mirrored (hub.add socket) := by
  have opened := mirrored.opened socket
  unfold Hub.add
  split
  · exact mirrored
  · rename_i fresh
    rwa [fresh] at opened

theorem has_subscribeAll : (topics.foldl (subscribeTopic socket) hub).Has other topic ↔
    hub.Has other topic ∨ other = socket ∧ topic ∈ topics := by
  induction topics generalizing hub with
  | nil => simp
  | cons first rest ih =>
    rw [List.foldl_cons, ih, has_subscribeTopic, List.mem_cons]
    tauto

theorem has_subscribe : (hub.subscribe socket topics).Has other topic ↔
    hub.Has other topic ∨ other = socket ∧ topic ∈ topics := has_subscribeAll

theorem Mirrored.subscribeTopic (mirrored : Mirrored hub) (socket : S) (topic : String) :
    Mirrored (Hub.subscribeTopic socket hub topic) where
  owns other topic' := by rw [owns_subscribeTopic, has_subscribeTopic, mirrored.owns]
  nodup topic' := by
    rw [publish_subscribeTopic]
    split
    · exact nodup_insertInto _ (mirrored.nodup topic')
    · exact mirrored.nodup topic'

theorem Mirrored.subscribe (mirrored : Mirrored hub) (socket : S) (topics : List String) :
    Mirrored (hub.subscribe socket topics) := by
  unfold Hub.subscribe
  have opened := mirrored.opened socket
  generalize ({ hub with bySocket := _ } : Hub S) = start at opened
  induction topics generalizing start with
  | nil => exact opened
  | cons first rest ih => exact ih _ (opened.subscribeTopic socket first)

theorem has_unsubscribe : (hub.unsubscribe socket topics).Has other topic ↔
    hub.Has other topic ∧ ¬(other = socket ∧ topic ∈ topics) := by
  unfold unsubscribe
  induction topics generalizing hub with
  | nil => simp
  | cons first rest ih =>
    rw [List.foldl_cons, ih, has_dropSocket, List.mem_cons]
    simp only [Has, publish_dropTopic]
    tauto

theorem Mirrored.dropBoth (mirrored : Mirrored hub) (socket : S) (topic : String) :
    Mirrored (dropSocket socket (dropTopic socket hub topic) topic) where
  owns other topic' := by
    rw [owns_dropSocket, owns_dropTopic, has_dropSocket, mirrored.owns]
    exact Iff.rfl
  nodup topic' := by
    rw [publish_dropSocket, publish_dropTopic]
    split
    · exact (mirrored.nodup topic').filter _
    · exact mirrored.nodup topic'

theorem Mirrored.unsubscribe (mirrored : Mirrored hub) (socket : S) (topics : List String) :
    Mirrored (hub.unsubscribe socket topics) := by
  unfold Hub.unsubscribe
  induction topics generalizing hub with
  | nil => exact mirrored
  | cons first rest ih => exact ih (mirrored.dropBoth socket first)

theorem publish_dropAll : ((topics.foldl (dropSocket socket) hub).publish topic) =
    if topic ∈ topics then (hub.publish topic).filter (· ≠ socket) else hub.publish topic := by
  induction topics generalizing hub with
  | nil => simp
  | cons first rest ih =>
    rw [List.foldl_cons, ih, publish_dropSocket]
    by_cases head : topic = first
    · subst head
      by_cases tail : topic ∈ rest <;> simp [tail]
    · by_cases tail : topic ∈ rest <;> simp [head, tail]

theorem bySocket_dropAll : (topics.foldl (dropSocket socket) hub).bySocket = hub.bySocket := by
  induction topics generalizing hub with
  | nil => rfl
  | cons first rest ih =>
    rw [List.foldl_cons, ih]
    rfl

/-- The map by socket knows all the topics a socket has to be taken out of. -/
theorem Mirrored.publish_remove (mirrored : Mirrored hub) :
    (hub.remove socket).publish topic = (hub.publish topic).filter (· ≠ socket) := by
  change ((_ : List String).foldl (dropSocket socket) hub).publish topic = _
  rw [publish_dropAll]
  split
  · rfl
  · rename_i unknown
    refine (List.filter_eq_self.mpr fun member known => ?_).symm
    rw [decide_eq_true_eq]
    rintro rfl
    exact unknown ((mirrored.owns member topic).mpr known)

theorem Mirrored.has_remove (mirrored : Mirrored hub) :
    (hub.remove socket).Has other topic ↔ hub.Has other topic ∧ other ≠ socket := by
  unfold Has
  rw [mirrored.publish_remove]
  simp

theorem Mirrored.remove (mirrored : Mirrored hub) (socket : S) : Mirrored (hub.remove socket) where
  owns other topic := by
    rw [mirrored.has_remove, ← mirrored.owns]
    unfold Owns Hub.remove
    by_cases same : other = socket
    · subst same
      simp
    · simp [bySocket_dropAll, same]
  nodup topic := by
    rw [mirrored.publish_remove]
    exact (mirrored.nodup topic).filter _

theorem apply_mirrored (mirrored : Mirrored hub) (call : Call S) : Mirrored (hub.apply call).1 := by
  cases call with
  | add socket => exact mirrored.add socket
  | remove socket => exact mirrored.remove socket
  | subscribe socket topics => exact mirrored.subscribe socket topics
  | unsubscribe socket topics => exact mirrored.unsubscribe socket topics
  | publish topic => exact mirrored

theorem apply_has (mirrored : Mirrored hub) (call : Call S) {was : Bool}
    (is : hub.Has socket topic ↔ was = true) :
    (hub.apply call).1.Has socket topic ↔ call.mark socket topic was = true := by
  cases call with
  | add other => exact has_add.trans is
  | remove other => simp [apply, mirrored.has_remove, is, Call.mark]
  | subscribe other topics => simp [apply, has_subscribe, is, Call.mark]
  | unsubscribe other topics =>
    simp only [apply, has_unsubscribe, is, Call.mark, Bool.and_eq_true, Bool.not_eq_true',
      Bool.and_eq_false_iff, decide_eq_false_iff_not]
    tauto
  | publish other => exact is

theorem run_has (calls : List (Call S)) (mirrored : Mirrored hub) (before : S → String → Bool)
    (is : ∀ socket topic, hub.Has socket topic ↔ before socket topic = true) :
    Mirrored (automaton.final hub calls) ∧ ∀ socket topic,
      (automaton.final hub calls).Has socket topic ↔
        calls.foldl (Call.mark socket topic) (before socket topic) = true := by
  induction calls generalizing hub before with
  | nil => exact ⟨mirrored, is⟩
  | cons call calls ih =>
    exact ih (apply_mirrored mirrored call) (fun socket topic => call.mark socket topic _)
      fun socket topic => apply_has mirrored call (is socket topic)

theorem final_mirrored (calls : List (Call S)) : Mirrored (automaton.final ({} : Hub S) calls) :=
  (run_has calls .empty (fun _ _ => false) (by simp [Has, publish])).1

theorem final_has (calls : List (Call S)) :
    (automaton.final ({} : Hub S) calls).Has socket topic ↔ subscribed calls socket topic = true :=
  (run_has calls .empty (fun _ _ => false) (by simp [Has, publish])).2 socket topic

end Hub
end Artoo.Realtime
