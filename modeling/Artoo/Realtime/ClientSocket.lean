import Artoo.Realtime.Hub

/-! The client sockets: each is authenticated while its first frames wait, then takes part in the hub
until it is closed. Messages, answers of the authentication, timers, closes and revocations come in
any order. -/
namespace Artoo.Realtime.ClientSocket
open Artoo.Lib

inductive Identity where
  | user (userId : String)
  | device (deviceId : String)
  | dev
  deriving DecidableEq

inductive FrameType where
  | subscribe | unsubscribe
  deriving DecidableEq

structure ClientFrame where
  type : FrameType
  topics : List String
  sinceCursor : Option ℚ := none

/-- What `authenticateClient` comes to. -/
inductive Authentication where
  | accepted (identity : Identity) (actorUserId : String)
  | rejected
  | failed

/-- The variables of one connection. -/
structure Connection where
  identity : Option Identity := none
  actorUserId : String
  terminated : Bool := false
  earlyFrames : List ClientFrame := []
  /-- `dispatch` is `applyFrame` -/
  applying : Bool := false
  /-- the first authentication is not answered yet -/
  authenticating : Bool := true
  revalidationTimer : Bool := false
  checkingCredential : Bool := false
  /-- what `releaseDeviceConn` will release -/
  indexed : Option String := none

structure World (S : Type) where
  hub : Hub S := {}
  connections : S → Option Connection := fun _ => none
  /-- the sockets in the order they were opened -/
  opened : List S := []
  /-- the catch-ups that were begun -/
  replays : List (S × ℚ × List String) := []

variable {S : Type} [DecidableEq S]

def World.set (w : World S) (socket : S) (c : Connection) : World S :=
  { w with connections := Function.update w.connections socket (some c) }

def maxPreauthFrames : ℕ := 16

/-- A topic that is not another's inbox. -/
def allowed (actorUserId topic : String) : Bool :=
  !"inbox:".isPrefixOf topic || topic == "inbox:" ++ actorUserId

def close (w : World S) (socket : S) : World S :=
  match w.connections socket with
  | none => w
  | some c =>
    if c.terminated then w
    else { w.set socket { c with terminated := true, revalidationTimer := false } with
      hub := w.hub.remove socket }

def applyFrame (w : World S) (socket : S) (frame : ClientFrame) : World S :=
  match w.connections socket with
  | none => w
  | some c =>
    if c.terminated || c.identity.isNone then w
    else match frame.type with
      | .subscribe =>
        let allowedTopics := frame.topics.filter (allowed c.actorUserId)
        { w with
          hub := w.hub.subscribe socket allowedTopics
          replays := w.replays ++ (frame.sinceCursor.map fun cursor =>
            (socket, cursor, allowedTopics)).toList }
      | .unsubscribe => { w with hub := w.hub.unsubscribe socket frame.topics }

/-- `dispatch`, before and after it is exchanged. -/
def dispatch (w : World S) (socket : S) (frame : ClientFrame) : World S :=
  match w.connections socket with
  | none => w
  | some c =>
    if c.applying then applyFrame w socket frame
    else if c.terminated then w
    else
      let earlyFrames := c.earlyFrames ++ [frame]
      if earlyFrames.length > maxPreauthFrames then
        close (w.set socket { c with earlyFrames := [] }) socket
      else w.set socket { c with earlyFrames }

/-- The variables of a connection once its credential is accepted. -/
def Connection.ready (c : Connection) (identity : Identity) (actorUserId : String) : Connection :=
  { c with
    identity := some identity
    actorUserId
    authenticating := false
    indexed := match identity with
      | .device deviceId => some deviceId
      | _ => none
    revalidationTimer := decide (identity ≠ .dev)
    applying := true
    earlyFrames := [] }

/-- What follows the `await` of the authentication. -/
def authenticated (w : World S) (socket : S) (result : Authentication) : World S :=
  match w.connections socket with
  | none => w
  | some c =>
    match result with
    | .failed | .rejected =>
      close (w.set socket { c with earlyFrames := [], authenticating := false }) socket
    | .accepted identity actorUserId =>
      if c.terminated then w.set socket { c with earlyFrames := [], authenticating := false }
      else
        c.earlyFrames.foldl (applyFrame · socket)
          { w.set socket (c.ready identity actorUserId) with hub := w.hub.add socket }

/-- The `close` event of the socket. -/
def closed (w : World S) (socket : S) : World S :=
  match w.connections socket with
  | none => w
  | some c =>
    { w.set socket { c with terminated := true, revalidationTimer := false, indexed := none } with
      hub := w.hub.remove socket }

def tick (w : World S) (socket : S) : World S :=
  match w.connections socket with
  | none => w
  | some c =>
    if c.checkingCredential || c.terminated then w
    else w.set socket { c with checkingCredential := true }

/-- What follows the authentication that a timer began. -/
def rechecked (w : World S) (socket : S) (result : Authentication) : World S :=
  match w.connections socket with
  | none => w
  | some c =>
    let w := w.set socket { c with checkingCredential := false }
    match result with
    | .accepted _ _ => w
    | .rejected | .failed => close w socket

/-- The registry forgets a connection of the device and closes it. -/
def revokeOne (deviceId : String) (w : World S) (socket : S) : World S :=
  match w.connections socket with
  | none => w
  | some c =>
    if c.indexed = some deviceId then close (w.set socket { c with indexed := none }) socket else w

inductive Event (S : Type) where
  | upgrade (socket : S) (actorUserId : String)
  /-- a message that `parseClientFrame` reads -/
  | message (socket : S) (frame : ClientFrame)
  | authenticated (socket : S) (result : Authentication)
  | closed (socket : S)
  | tick (socket : S)
  | rechecked (socket : S) (result : Authentication)
  | closeForDevice (deviceId : String)
  | publish (topic : String)

def step (w : World S) : Event S → World S × List S
  | .upgrade socket actorUserId =>
    ({ w.set socket { actorUserId } with opened := w.opened ++ [socket] }, [])
  | .message socket frame => (dispatch w socket frame, [])
  | .authenticated socket result => (authenticated w socket result, [])
  | .closed socket => (closed w socket, [])
  | .tick socket => (tick w socket, [])
  | .rechecked socket result => (rechecked w socket result, [])
  | .closeForDevice deviceId => (w.opened.foldl (revokeOne deviceId) w, [])
  | .publish topic => (w, w.hub.publish topic)

def automaton : Automaton (World S) (Event S) (List S) where
  step := step

/-- A socket is opened once, an authentication is answered once, and timers fire while they are set. -/
def Possible (w : World S) : Event S → Prop
  | .upgrade socket _ => w.connections socket = none
  | .message socket _ | .closed socket => (w.connections socket).isSome
  | .authenticated socket _ => ∃ c, w.connections socket = some c ∧ c.authenticating = true
  | .tick socket => ∃ c, w.connections socket = some c ∧ c.revalidationTimer = true
  | .rechecked socket _ => ∃ c, w.connections socket = some c ∧ c.checkingCredential = true
  | .closeForDevice _ | .publish _ => True

/-! ## Who takes part in the hub -/

/-- A connection that may be subscribed to a topic. -/
def Connection.Takes (c : Connection) (topic : String) : Prop :=
  c.identity.isSome = true ∧ c.terminated = false ∧ allowed c.actorUserId topic = true

structure Connection.Consistent (c : Connection) : Prop where
  bounded : c.earlyFrames.length ≤ maxPreauthFrames
  applying : c.applying = c.identity.isSome
  waits : c.applying = true → c.authenticating = false ∧ c.earlyFrames = []
  indexed : ∀ deviceId, c.identity = some (.device deviceId) → c.terminated = false →
    c.indexed = some deviceId

structure Sound (w : World S) : Prop where
  mirrored : w.hub.Mirrored
  takes : ∀ socket topic, w.hub.Has socket topic →
    ∃ c, w.connections socket = some c ∧ c.Takes topic
  consistent : ∀ socket c, w.connections socket = some c → c.Consistent
  opened : ∀ socket c, w.connections socket = some c → socket ∈ w.opened

variable {w : World S} {socket other : S} {c d : Connection} {topic : String}
  {frame : ClientFrame} {frames : List ClientFrame}

@[simp] theorem set_same : (w.set socket c).connections socket = some c := Function.update_self ..

theorem set_other (ne : other ≠ socket) :
    (w.set socket c).connections other = w.connections other := Function.update_of_ne ne _ _

/-- A connection changes in no way that its subscriptions rest on. -/
theorem Sound.set (sound : Sound w) (held : w.connections socket = some c)
    (consistent : d.Consistent) (takes : ∀ topic, c.Takes topic → d.Takes topic) :
    Sound (w.set socket d) where
  mirrored := sound.mirrored
  takes other topic has := by
    obtain ⟨e, is, may⟩ := sound.takes other topic has
    by_cases same : other = socket
    · subst same
      rw [held] at is
      cases is
      exact ⟨d, set_same, takes topic may⟩
    · exact ⟨e, (set_other same).trans is, may⟩
  consistent other e is := by
    by_cases same : other = socket
    · subst same
      rw [set_same] at is
      cases is
      exact consistent
    · exact sound.consistent other e ((set_other same).symm.trans is)
  opened other e is := by
    by_cases same : other = socket
    · subst same
      exact sound.opened other c held
    · exact sound.opened other e ((set_other same).symm.trans is)

/-- A connection that leaves the hub may change in any way. -/
theorem Sound.leave (sound : Sound w) (held : w.connections socket = some c)
    (consistent : d.Consistent) : Sound { w.set socket d with hub := w.hub.remove socket } where
  mirrored := sound.mirrored.remove socket
  takes other topic has := by
    obtain ⟨stays, ne⟩ := sound.mirrored.has_remove.mp has
    obtain ⟨e, is, may⟩ := sound.takes other topic stays
    exact ⟨e, (set_other ne).trans is, may⟩
  consistent other e is := by
    by_cases same : other = socket
    · subst same
      have := set_same.symm.trans is
      cases this
      exact consistent
    · exact sound.consistent other e ((set_other same).symm.trans is)
  opened other e is := by
    by_cases same : other = socket
    · subst same
      exact sound.opened other c held
    · exact sound.opened other e ((set_other same).symm.trans is)

theorem Sound.close (sound : Sound w) (socket : S) : Sound (ClientSocket.close w socket) := by
  unfold ClientSocket.close
  cases held : w.connections socket with
  | none => exact sound
  | some c =>
    simp only
    split
    · exact sound
    · have old := sound.consistent socket c held
      exact sound.leave held ⟨old.bounded, old.applying, old.waits, nofun⟩

theorem Sound.applyFrame (sound : Sound w) (socket : S) (frame : ClientFrame) :
    Sound (ClientSocket.applyFrame w socket frame) := by
  unfold ClientSocket.applyFrame
  cases held : w.connections socket with
  | none => exact sound
  | some c =>
    simp only
    split
    · exact sound
    · rename_i open_
      simp only [Bool.or_eq_true, Option.isNone_iff_eq_none, not_or, Bool.not_eq_true] at open_
      have known : c.identity.isSome = true := by
        cases is : c.identity with
        | none => exact absurd is open_.2
        | some _ => rfl
      split
      · refine ⟨sound.mirrored.subscribe _ _, fun other topic has => ?_, sound.consistent,
          sound.opened⟩
        rcases Hub.has_subscribe.mp has with before | ⟨rfl, member⟩
        · exact sound.takes other topic before
        · exact ⟨c, held, known, open_.1, (List.mem_filter.mp member).2⟩
      · refine ⟨sound.mirrored.unsubscribe _ _, fun other topic has => ?_, sound.consistent,
          sound.opened⟩
        exact sound.takes other topic (Hub.has_unsubscribe.mp has).1

theorem Sound.applyFrames (sound : Sound w) (socket : S) (frames : List ClientFrame) :
    Sound (frames.foldl (ClientSocket.applyFrame · socket) w) := by
  induction frames generalizing w with
  | nil => exact sound
  | cons frame frames ih => exact ih (sound.applyFrame socket frame)

theorem Sound.dispatch (sound : Sound w) (socket : S) (frame : ClientFrame) :
    Sound (ClientSocket.dispatch w socket frame) := by
  unfold ClientSocket.dispatch
  cases held : w.connections socket with
  | none => exact sound
  | some c =>
    have old := sound.consistent socket c held
    simp only
    split
    · exact sound.applyFrame socket frame
    · rename_i waiting
      split
      · exact sound
      · split
        · exact (sound.set (d := { c with earlyFrames := [] }) held ⟨Nat.zero_le _, old.applying,
            fun is => absurd is waiting, old.indexed⟩ fun _ may => may).close socket
        · rename_i room
          exact sound.set held ⟨not_lt.mp room, old.applying, fun is => absurd is waiting,
            old.indexed⟩ fun _ may => may

/-- A connection that joins the hub has no subscriptions yet. -/
theorem Sound.join (sound : Sound w) (held : w.connections socket = some c)
    (unknown : c.identity = none) (consistent : d.Consistent) :
    Sound { w.set socket d with hub := w.hub.add socket } where
  mirrored := sound.mirrored.add socket
  takes other topic has := by
    obtain ⟨e, is, may⟩ := sound.takes other topic (Hub.has_add.mp has)
    by_cases same : other = socket
    · subst same
      rw [held] at is
      cases is
      have known := may.1
      rw [unknown] at known
      cases known
    · exact ⟨e, (set_other same).trans is, may⟩
  consistent other e is := by
    by_cases same : other = socket
    · subst same
      have := set_same.symm.trans is
      cases this
      exact consistent
    · exact sound.consistent other e ((set_other same).symm.trans is)
  opened other e is := by
    by_cases same : other = socket
    · subst same
      exact sound.opened other c held
    · exact sound.opened other e ((set_other same).symm.trans is)

theorem Connection.Consistent.unknown (consistent : c.Consistent) (waits : c.authenticating = true) :
    c.applying = false ∧ c.identity = none := by
  cases is : c.applying with
  | true =>
    have answered := (consistent.waits is).1
    rw [waits] at answered
    cases answered
  | false =>
    have same := consistent.applying
    rw [is] at same
    exact ⟨rfl, Option.not_isSome_iff_eq_none.mp (by simp [← same])⟩

theorem ready_consistent (c : Connection) (identity : Identity) (actorUserId : String) :
    (c.ready identity actorUserId).Consistent where
  bounded := Nat.zero_le _
  applying := rfl
  waits _ := ⟨rfl, rfl⟩
  indexed deviceId is _ := by
    cases Option.some.inj is
    rfl

theorem Sound.authenticated (sound : Sound w) (held : w.connections socket = some c)
    (waits : c.authenticating = true) (result : Authentication) :
    Sound (ClientSocket.authenticated w socket result) := by
  have old := sound.consistent socket c held
  have answered : Connection.Consistent { c with earlyFrames := [], authenticating := false } :=
    ⟨Nat.zero_le _, old.applying, fun _ => ⟨rfl, rfl⟩, old.indexed⟩
  unfold ClientSocket.authenticated
  rw [held]
  cases result with
  | rejected => exact (sound.set held answered fun _ may => may).close socket
  | failed => exact (sound.set held answered fun _ may => may).close socket
  | accepted identity actorUserId =>
    simp only
    split
    · exact sound.set held answered fun _ may => may
    · exact (sound.join held (old.unknown waits).2
        (ready_consistent c identity actorUserId)).applyFrames socket _

theorem Sound.closed (sound : Sound w) (socket : S) : Sound (ClientSocket.closed w socket) := by
  unfold ClientSocket.closed
  cases held : w.connections socket with
  | none => exact sound
  | some c =>
    have old := sound.consistent socket c held
    exact sound.leave held ⟨old.bounded, old.applying, old.waits, nofun⟩

theorem Sound.tick (sound : Sound w) (socket : S) : Sound (ClientSocket.tick w socket) := by
  unfold ClientSocket.tick
  cases held : w.connections socket with
  | none => exact sound
  | some c =>
    have old := sound.consistent socket c held
    simp only
    split
    · exact sound
    · exact sound.set held ⟨old.bounded, old.applying, old.waits, old.indexed⟩ fun _ may => may

theorem Sound.rechecked (sound : Sound w) (socket : S) (result : Authentication) :
    Sound (ClientSocket.rechecked w socket result) := by
  unfold ClientSocket.rechecked
  cases held : w.connections socket with
  | none => exact sound
  | some c =>
    have old := sound.consistent socket c held
    have kept := sound.set (d := { c with checkingCredential := false }) held
      ⟨old.bounded, old.applying, old.waits, old.indexed⟩ fun _ may => may
    cases result with
    | accepted identity actorUserId => exact kept
    | rejected => exact kept.close socket
    | failed => exact kept.close socket

/-- Taking a connection out of the index and closing it are one. -/
theorem revokeOne_eq (deviceId : String) (held : w.connections socket = some c)
    (is : c.indexed = some deviceId) : revokeOne deviceId w socket =
      if c.terminated then w.set socket { c with indexed := none }
      else { w.set socket { c with
          indexed := none
          terminated := true
          revalidationTimer := false } with hub := w.hub.remove socket } := by
  unfold revokeOne ClientSocket.close
  simp only [held, is, if_true, set_same]
  split
  · rfl
  · simp [World.set]

theorem Sound.revokeOne (sound : Sound w) (deviceId : String) (socket : S) :
    Sound (ClientSocket.revokeOne deviceId w socket) := by
  cases held : w.connections socket with
  | none =>
    unfold ClientSocket.revokeOne
    rwa [held]
  | some c =>
    have old := sound.consistent socket c held
    by_cases is : c.indexed = some deviceId
    · rw [revokeOne_eq deviceId held is]
      split
      · rename_i gone
        refine sound.set held ⟨old.bounded, old.applying, old.waits, fun _ _ open_ => ?_⟩
          fun _ may => may
        exact absurd gone (Bool.not_eq_true _ ▸ open_)
      · exact sound.leave held ⟨old.bounded, old.applying, old.waits, nofun⟩
    · unfold ClientSocket.revokeOne
      rw [held]
      simpa [is] using sound

theorem Sound.closeForDevice (sound : Sound w) (deviceId : String) (sockets : List S) :
    Sound (sockets.foldl (ClientSocket.revokeOne deviceId) w) := by
  induction sockets generalizing w with
  | nil => exact sound
  | cons first rest ih => exact ih (sound.revokeOne deviceId first)

theorem Sound.upgrade (sound : Sound w) (fresh : w.connections socket = none) (actorUserId : String) :
    Sound { w.set socket { actorUserId } with opened := w.opened ++ [socket] } where
  mirrored := sound.mirrored
  takes other topic has := by
    obtain ⟨e, is, may⟩ := sound.takes other topic has
    by_cases same : other = socket
    · subst same
      rw [fresh] at is
      cases is
    · exact ⟨e, (set_other same).trans is, may⟩
  consistent other e is := by
    by_cases same : other = socket
    · subst same
      have := set_same.symm.trans is
      cases this
      exact ⟨Nat.zero_le _, rfl, nofun, nofun⟩
    · exact sound.consistent other e ((set_other same).symm.trans is)
  opened other e is := by
    by_cases same : other = socket
    · simp [same]
    · exact List.mem_append_left _ (sound.opened other e ((set_other same).symm.trans is))

theorem Sound.step (sound : Sound w) {event : Event S} (possible : Possible w event) :
    Sound (ClientSocket.step w event).1 := by
  cases event with
  | upgrade socket actorUserId => exact sound.upgrade possible actorUserId
  | message socket frame => exact sound.dispatch socket frame
  | authenticated socket result =>
    obtain ⟨c, held, waits⟩ := possible
    exact sound.authenticated held waits result
  | closed socket => exact sound.closed socket
  | tick socket => exact sound.tick socket
  | rechecked socket result => exact sound.rechecked socket result
  | closeForDevice deviceId => exact sound.closeForDevice deviceId w.opened
  | publish topic => exact sound

theorem Sound.start : Sound ({} : World S) where
  mirrored := .empty
  takes _ _ has := by simp [Hub.Has, Hub.publish] at has
  consistent _ _ is := nomatch is
  opened _ _ is := nomatch is

theorem final_sound {events : List (Event S)} (legal : automaton.Legal Possible {} events) :
    Sound (automaton.final ({} : World S) events) :=
  Automaton.invariant (fun _ _ sound possible => sound.step possible) legal .start

/-- In any order of events, a frame is only sent to connections whose credential was accepted and
which are not closed, and a frame of an inbox only to the user whose inbox it is. -/
theorem publish_reaches_accepted {events : List (Event S)}
    (legal : automaton.Legal Possible {} events) (topic : String) :
    ∀ socket ∈ ((automaton.final ({} : World S) events).hub.publish topic),
      ∃ c, (automaton.final ({} : World S) events).connections socket = some c ∧
        c.identity.isSome = true ∧ c.terminated = false ∧
        ("inbox:".isPrefixOf topic = true → topic = "inbox:" ++ c.actorUserId) := by
  intro socket reached
  obtain ⟨c, held, known, live, may⟩ := (final_sound legal).takes socket topic reached
  refine ⟨c, held, known, live, fun inbox => ?_⟩
  simpa [allowed, inbox] using may

/-- A user's frame that waited, and asked for an inbox of another beside the user's own. -/
def early : List (Event ℕ) :=
  [.upgrade 1 "server", .message 1 ⟨.subscribe, ["inbox:ann", "inbox:bob"], none⟩,
    .authenticated 1 (.accepted (.user "ann") "ann")]

theorem early_legal : automaton.Legal Possible {} early := ⟨rfl, rfl, ⟨_, rfl, rfl⟩, trivial⟩

theorem publish_reaches_accepted_early :
    ∃ c, (automaton.final {} early).connections 1 = some c ∧ c.identity.isSome = true ∧
      c.terminated = false ∧
      ("inbox:".isPrefixOf "inbox:ann" = true → "inbox:ann" = "inbox:" ++ c.actorUserId) :=
  publish_reaches_accepted early_legal "inbox:ann" 1 (by decide +kernel)

/-! ## Revocation -/

/-- A device is out once none of these sockets takes part in the hub on its behalf. -/
def Out (deviceId : String) (sockets : List S) (w : World S) : Prop :=
  ∀ socket ∈ sockets, ∀ c, w.connections socket = some c →
    c.identity = some (.device deviceId) → c.terminated = true

theorem revokeOne_other (deviceId : String) (ne : other ≠ socket) :
    (revokeOne deviceId w socket).connections other = w.connections other := by
  cases held : w.connections socket with
  | none =>
    unfold revokeOne
    rw [held]
  | some c =>
    by_cases is : c.indexed = some deviceId
    · rw [revokeOne_eq deviceId held is]
      split
      · exact set_other ne
      · exact set_other ne
    · simp [revokeOne, held, is]

theorem revokeOne_out (sound : Sound w) (deviceId : String) (socket : S) :
    Out deviceId [socket] (revokeOne deviceId w socket) := by
  intro other member d is identity
  obtain rfl := List.mem_singleton.mp member
  cases held : w.connections other with
  | none =>
    unfold revokeOne at is
    rw [held] at is
    exact nomatch held.symm.trans is
  | some c =>
    by_cases indexed : c.indexed = some deviceId
    · rw [revokeOne_eq deviceId held indexed] at is
      split at is
      · rename_i gone
        cases set_same.symm.trans is
        exact gone
      · cases set_same.symm.trans is
        rfl
    · have same : w.connections other = some d := by simpa [revokeOne, held, indexed] using is
      rw [held] at same
      cases same
      by_contra live
      exact indexed ((sound.consistent other _ held).indexed deviceId identity
        (Bool.not_eq_true _ ▸ live))

theorem closeForDevice_out (sound : Sound w) (deviceId : String) (sockets done : List S)
    (out : Out deviceId done w) :
    Out deviceId (done ++ sockets) (sockets.foldl (revokeOne deviceId) w) := by
  induction sockets generalizing w done with
  | nil => simpa using out
  | cons first rest ih =>
    rw [List.append_cons]
    refine ih (sound.revokeOne deviceId first) (done ++ [first]) fun socket member c is identity => ?_
    by_cases same : socket = first
    · subst same
      exact revokeOne_out sound deviceId socket socket (List.mem_singleton.mpr rfl) c is identity
    · rw [revokeOne_other deviceId same] at is
      refine out socket ?_ c is identity
      rcases List.mem_append.mp member with before | here
      · exact before
      · exact absurd (List.mem_singleton.mp here) same

theorem opened_revokeOne (deviceId : String) (socket : S) :
    (revokeOne deviceId w socket).opened = w.opened := by
  cases held : w.connections socket with
  | none =>
    unfold revokeOne
    rw [held]
  | some c =>
    by_cases is : c.indexed = some deviceId
    · rw [revokeOne_eq deviceId held is]
      split <;> rfl
    · simp [revokeOne, held, is]

theorem opened_closeForDevice (deviceId : String) (sockets : List S) :
    (sockets.foldl (revokeOne deviceId) w).opened = w.opened := by
  induction sockets generalizing w with
  | nil => rfl
  | cons first rest ih => exact ih.trans (opened_revokeOne deviceId first)

end Artoo.Realtime.ClientSocket
