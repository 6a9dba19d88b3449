import Mathlib.Data.List.Basic
import Mathlib.Data.List.Nodup

/-! The realtime client of the web application: its socket, its counted topics, and the frames that it
sends. A status listener may call the client before the rest of a handler runs, so what a handler does
after a notification is an event of its own. -/
namespace Artoo.Client.Realtime

/-- `readyState`, from 0 to 3. -/
inductive ReadyState where
  | connecting | opened | closing | closed
  deriving DecidableEq, Repr

inductive Frame where
  | subscribe (topics : List String)
  | unsubscribe (topics : List String)
  deriving DecidableEq, Repr

inductive Status where
  | connecting | connected | disconnected | unauthenticated
  deriving DecidableEq, Repr

def wsUnauthenticatedCode : ℕ := 1008

structure Socket where
  generation : ℕ
  readyState : ReadyState := .connecting
  /-- the frames sent on it -/
  frames : List Frame := []

/-! ## The map of topics -/

/-- A map in the order of insertion, from a topic to its subscribers. -/
abbrev Topics := List (String × ℕ)

def keys (topics : Topics) : List String := topics.map Prod.fst

def count (topics : Topics) (topic : String) : Option ℕ :=
  (topics.find? fun e => e.1 = topic).map Prod.snd

def setCount (topics : Topics) (topic : String) (n : ℕ) : Topics :=
  if topic ∈ keys topics then topics.map fun e => if e.1 = topic then (topic, n) else e
  else topics ++ [(topic, n)]

def deleteTopic (topics : Topics) (topic : String) : Topics := topics.filter fun e => e.1 ≠ topic

/-! ## The client -/

structure Options where
  reconnectDelayMs : ℕ := 1000
  hasTokenProvider : Bool := false

structure Client where
  status : Status := .disconnected
  generation : ℕ := 0
  socket : Option ℕ := none
  topics : Topics := []
  closedByUser : Bool := false
  unauthenticated : Bool := false

/-- The client, the sockets it made, by number, and what is still to happen: connections that are
begun, tokens that are asked for, closes that are notified and timers that are set, each with the
generation it belongs to. -/
structure World where
  client : Client := {}
  sockets : List Socket := []
  begun : List ℕ := []
  tokens : List ℕ := []
  notified : List ℕ := []
  timers : List ℕ := []
  /-- the messages handled, with their sockets -/
  handled : List (ℕ × String) := []

section Client

def World.setStatus (status : Status) (w : World) : World :=
  { w with client := { w.client with status } }

def World.readyState (w : World) (id : ℕ) : Option ReadyState := (w.sockets[id]?).map Socket.readyState

def isCurrent (w : World) (id : ℕ) : Bool :=
  (w.sockets[id]?).any (fun s => s.generation == w.client.generation) &&
    w.client.socket == some id && !w.client.closedByUser

def sendFrame (frame : Frame) (w : World) : World :=
  match w.client.socket with
  | none => w
  | some id =>
    if !w.client.closedByUser && !w.client.unauthenticated && w.readyState id == some .opened then
      { w with sockets := w.sockets.modify id fun s => { s with frames := s.frames ++ [frame] } }
    else w

/-- Up to the notification of the listeners. -/
def connect (w : World) : World :=
  if w.client.socket.isSome || w.client.unauthenticated then w
  else
    let generation := w.client.generation + 1
    { w with
      client := { w.client with closedByUser := false, generation, status := .connecting }
      begun := generation :: w.begun }

/-- The factory may throw, and then there is no socket. -/
def openSocket (generation : ℕ) (throws : Bool) (w : World) : World :=
  if throws then w
  else
    { w with
      client := { w.client with socket := some w.sockets.length }
      sockets := w.sockets ++ [{ generation }] }

/-- The rest of `connect`. -/
def proceed (options : Options) (generation : ℕ) (throws : Bool) (w : World) : World :=
  if generation ≠ w.client.generation ∨ w.client.closedByUser then w
  else if options.hasTokenProvider then
    if throws then w else { w with tokens := generation :: w.tokens }
  else openSocket generation throws w

def refuseToken (generation : ℕ) (w : World) : World :=
  if generation = w.client.generation then w.setStatus .unauthenticated else w

/-- The token is there; an error of the factory is caught. -/
def onToken (generation : ℕ) (throws : Bool) (w : World) : World :=
  if generation ≠ w.client.generation ∨ w.client.closedByUser then w
  else if throws then refuseToken generation w
  else openSocket generation false w

def onopen (id : ℕ) (w : World) : World :=
  if !isCurrent w id || w.readyState id != some .opened then w
  else
    let w := if w.client.topics.isEmpty then w else sendFrame (.subscribe (keys w.client.topics)) w
    w.setStatus .connected

/-- Up to the notification of the listeners. -/
def onclose (id code : ℕ) (w : World) : World :=
  if !isCurrent w id then w
  else
    let w := { w with client := { w.client with socket := none } }
    if code = wsUnauthenticatedCode then
      { w with client :=
        { w.client with unauthenticated := true, topics := [], status := .unauthenticated } }
    else { w.setStatus .disconnected with notified := w.client.generation :: w.notified }

/-- The rest of `onclose`. -/
def reconnectLater (options : Options) (generation : ℕ) (w : World) : World :=
  if generation = w.client.generation && !w.client.closedByUser && !w.client.unauthenticated &&
      0 < options.reconnectDelayMs then
    { w with timers := generation :: w.timers }
  else w

def onTimer (generation : ℕ) (w : World) : World :=
  if generation = w.client.generation && !w.client.closedByUser && !w.client.unauthenticated then
    connect w
  else w

def onmessage (id : ℕ) (data : String) (w : World) : World :=
  if isCurrent w id then { w with handled := w.handled ++ [(id, data)] } else w

def increment (topics : Topics) (topic : String) : Topics :=
  setCount topics topic ((count topics topic).getD 0 + 1)

def subscribe (topics : List String) (w : World) : World :=
  let added := topics.filter fun topic => topic ∉ keys w.client.topics
  let w := { w with client :=
    { w.client with topics := topics.eraseDups.foldl increment w.client.topics } }
  if added.isEmpty then w else sendFrame (.subscribe added) w

/-- The map, and the topics removed from it. -/
def decrement (acc : Topics × List String) (topic : String) : Topics × List String :=
  match count acc.1 topic with
  | some 1 => (deleteTopic acc.1 topic, acc.2 ++ [topic])
  | some (n + 2) => (setCount acc.1 topic (n + 1), acc.2)
  | _ => acc

def unsubscribe (topics : List String) (w : World) : World :=
  let (rest, removed) := topics.eraseDups.foldl decrement (w.client.topics, [])
  let w := { w with client := { w.client with topics := rest } }
  if removed.isEmpty then w else sendFrame (.unsubscribe removed) w

def World.setReadyState (id : ℕ) (readyState : ReadyState) (w : World) : World :=
  { w with sockets := w.sockets.modify id fun s => { s with readyState } }

/-- `WebSocket.close()` -/
def closeSocket (id : ℕ) (w : World) : World :=
  if w.readyState id = some .closed then w else w.setReadyState id .closing

def close (w : World) : World :=
  let socket := w.client.socket
  let w := { w with client :=
    { w.client with generation := w.client.generation + 1, closedByUser := true, socket := none } }
  (socket.elim w fun id => closeSocket id w).setStatus .disconnected

/-! ## Events -/

inductive Event where
  | connect
  | subscribe (topics : List String)
  | unsubscribe (topics : List String)
  | close
  /-- the rest of a `connect` after its notification -/
  | proceed (generation : ℕ) (throws : Bool)
  | token (generation : ℕ) (throws : Bool)
  | noToken (generation : ℕ)
  /-- the rest of an `onclose` after its notification -/
  | reconnectLater (generation : ℕ)
  | timer (generation : ℕ)
  /-- the connection of a socket is established: its state changes and `onopen` is called -/
  | opens (id : ℕ)
  | closing (id : ℕ)
  | closes (id code : ℕ)
  | error (id : ℕ)
  | message (id : ℕ) (data : String)
  deriving DecidableEq, Repr

def step (options : Options) (w : World) : Event → World
  | .connect => connect w
  | .subscribe topics => subscribe topics w
  | .unsubscribe topics => unsubscribe topics w
  | .close => close w
  | .proceed generation throws =>
    if generation ∈ w.begun then
      proceed options generation throws { w with begun := w.begun.erase generation }
    else w
  | .token generation throws =>
    if generation ∈ w.tokens then
      onToken generation throws { w with tokens := w.tokens.erase generation }
    else w
  | .noToken generation =>
    if generation ∈ w.tokens then
      refuseToken generation { w with tokens := w.tokens.erase generation }
    else w
  | .reconnectLater generation =>
    if generation ∈ w.notified then
      reconnectLater options generation { w with notified := w.notified.erase generation }
    else w
  | .timer generation =>
    if generation ∈ w.timers then
      onTimer generation { w with timers := w.timers.erase generation }
    else w
  | .opens id =>
    if w.readyState id = some .connecting then onopen id (w.setReadyState id .opened) else w
  | .closing id => if w.readyState id = some .closed then w else w.setReadyState id .closing
  | .closes id code =>
    if w.readyState id = some .closed then w else onclose id code (w.setReadyState id .closed)
  | .error _ => w
  | .message id data => onmessage id data w

def run (options : Options) (w : World) (events : List Event) : World := events.foldl (step options) w

/-! ## What the frames imply -/

def receive (topics : List String) : Frame → List String
  | .subscribe added => topics ++ added
  | .unsubscribe removed => topics.filter fun topic => topic ∉ removed

def subscribed (frames : List Frame) : List String := frames.foldl receive []

variable {topics : Topics} {topic t : String} {n : ℕ} {names removed : List String}

theorem mem_keys_setCount : t ∈ keys (setCount topics topic n) ↔ t ∈ keys topics ∨ t = topic := by
  unfold setCount
  split_ifs with there
  · have same : keys (topics.map fun e => if e.1 = topic then (topic, n) else e) = keys topics := by
      unfold keys
      rw [List.map_map]
      apply List.map_congr_left
      intro e _
      by_cases is : e.1 = topic
      · simp [is]
      · simp [is]
    rw [same]
    constructor
    · exact Or.inl
    · rintro (old | rfl)
      · exact old
      · exact there
  · simp [keys]

theorem mem_keys_deleteTopic : t ∈ keys (deleteTopic topics topic) ↔ t ∈ keys topics ∧ t ≠ topic := by
  unfold keys deleteTopic
  simp only [List.mem_map, List.mem_filter, decide_eq_true_eq]
  constructor
  · rintro ⟨e, ⟨there, other⟩, rfl⟩
    exact ⟨⟨e, there, rfl⟩, other⟩
  · rintro ⟨⟨e, there, rfl⟩, other⟩
    exact ⟨e, ⟨there, other⟩, rfl⟩

theorem mem_keys_of_count (is : count topics topic = some n) : topic ∈ keys topics := by
  unfold count at is
  obtain ⟨e, found, -⟩ := Option.map_eq_some_iff.mp is
  have key := List.find?_some found
  exact List.mem_map.mpr ⟨e, List.mem_of_find?_eq_some found, of_decide_eq_true key⟩

theorem mem_keys_increments :
    t ∈ keys (names.foldl increment topics) ↔ t ∈ keys topics ∨ t ∈ names := by
  induction names generalizing topics with
  | nil => simp
  | cons name names ih =>
    rw [List.foldl_cons, ih, increment, mem_keys_setCount, List.mem_cons, or_assoc]

/-- What is removed from the map is what the second component collects. -/
theorem decrements (topics : Topics) (names removed : List String) :
    ∃ gone, (names.foldl decrement (topics, removed)).2 = removed ++ gone ∧
      ∀ t, t ∈ keys (names.foldl decrement (topics, removed)).1 ↔ t ∈ keys topics ∧ t ∉ gone := by
  induction names generalizing topics removed with
  | nil => exact ⟨[], (List.append_nil _).symm, by simp⟩
  | cons name names ih =>
    rw [List.foldl_cons]
    cases is : count topics name with
    | none =>
      have same : decrement (topics, removed) name = (topics, removed) := by simp [decrement, is]
      rw [same]
      exact ih topics removed
    | some n =>
      match n, is with
      | 0, is =>
        have same : decrement (topics, removed) name = (topics, removed) := by simp [decrement, is]
        rw [same]
        exact ih topics removed
      | 1, is =>
        have same : decrement (topics, removed) name =
            (deleteTopic topics name, removed ++ [name]) := by simp [decrement, is]
        rw [same]
        obtain ⟨gone, all, rest⟩ := ih (deleteTopic topics name) (removed ++ [name])
        refine ⟨name :: gone, by rw [all, List.append_assoc, List.singleton_append], fun t => ?_⟩
        rw [rest, mem_keys_deleteTopic, List.mem_cons, not_or, and_assoc]
      | n + 2, is =>
        have same : decrement (topics, removed) name = (setCount topics name (n + 1), removed) := by
          simp [decrement, is]
        rw [same]
        obtain ⟨gone, all, rest⟩ := ih (setCount topics name (n + 1)) removed
        refine ⟨gone, all, fun t => ?_⟩
        rw [rest, mem_keys_setCount]
        constructor
        · rintro ⟨old | rfl, apart⟩
          · exact ⟨old, apart⟩
          · exact ⟨mem_keys_of_count is, apart⟩
        · rintro ⟨old, apart⟩
          exact ⟨Or.inl old, apart⟩

theorem subscribed_snoc (frames : List Frame) (frame : Frame) :
    subscribed (frames ++ [frame]) = receive (subscribed frames) frame := by
  unfold subscribed
  rw [List.foldl_append]
  rfl

/-! ## The invariant -/

/-- The frames agree with the map. -/
def Agree (s : Socket) (topics : Topics) : Prop :=
  (s.readyState = .connecting → s.frames = []) ∧
  (s.readyState = .opened → ∀ t, t ∈ subscribed s.frames ↔ t ∈ keys topics)

/-- The current socket is of the current generation, and none of that generation is still to be made. -/
structure Inv (w : World) : Prop where
  current : ∀ id, w.client.socket = some id → w.client.closedByUser = false ∧
    w.client.unauthenticated = false ∧ ∃ s, w.sockets[id]? = some s ∧
      s.generation = w.client.generation ∧ Agree s w.client.topics
  taken : w.client.socket ≠ none ∨ w.client.unauthenticated = true →
    w.client.generation ∉ w.begun ++ w.tokens
  distinct : (w.begun ++ w.tokens).Nodup
  past : ∀ g ∈ w.begun ++ w.tokens, g ≤ w.client.generation

variable {w : World} {id : ℕ}

def withTopics (topics : Topics) (w : World) : World :=
  { w with client := { w.client with topics } }

/-- The map changes, and a frame tells of the change if the socket is open. -/
theorem Inv.send (h : Inv w) (topics : Topics) (frame : Option Frame)
    (tells : ∀ set : List String, (∀ t, t ∈ set ↔ t ∈ keys w.client.topics) →
      ∀ t, t ∈ frame.elim set (receive set) ↔ t ∈ keys topics) :
    Inv (frame.elim (withTopics topics w) fun f => sendFrame f (withTopics topics w)) := by
  have quiet : (∀ id, w.client.socket = some id → ∀ s, w.sockets[id]? = some s →
      s.readyState = .opened → frame = none) → Inv (withTopics topics w) := by
    intro none_
    refine ⟨fun id is => ?_, h.taken, h.distinct, h.past⟩
    obtain ⟨user, auth, s, there, generation, fresh, agree⟩ := h.current id is
    refine ⟨user, auth, s, there, generation, fresh, fun opened => ?_⟩
    have silent := none_ id is s there opened
    rw [silent] at tells
    exact tells _ (agree opened)
  cases frame with
  | none => exact quiet fun _ _ _ _ _ => rfl
  | some frame =>
    change Inv (sendFrame frame (withTopics topics w))
    unfold sendFrame
    cases socket : w.client.socket with
    | none =>
      have same : (withTopics topics w).client.socket = none := socket
      rw [same]
      exact quiet fun id is => absurd (socket.symm.trans is) nofun
    | some id =>
      obtain ⟨user, auth, s, there, generation, fresh, agree⟩ := h.current id socket
      have same : (withTopics topics w).client.socket = some id := socket
      have flags : (!(withTopics topics w).client.closedByUser &&
          !(withTopics topics w).client.unauthenticated) = true := by
        change (!w.client.closedByUser && !w.client.unauthenticated) = true
        rw [user, auth]
        rfl
      have state : (withTopics topics w).readyState id = some s.readyState := by
        change (w.sockets[id]?).map _ = _
        rw [there]
        rfl
      rw [same]
      dsimp only
      rw [flags, state, Bool.true_and]
      split_ifs with ready
      · have opened : s.readyState = .opened := by simpa using ready
        refine ⟨fun other is => ?_, h.taken, h.distinct, h.past⟩
        have one : other = id := Option.some.inj (is.symm.trans same)
        subst one
        refine ⟨user, auth, { s with frames := s.frames ++ [frame] }, ?_, generation, ?_, fun _ => ?_⟩
        · change (w.sockets.modify other _)[other]? = _
          rw [List.getElem?_modify_eq, there]
          rfl
        · intro connecting
          exact absurd (opened.symm.trans connecting) nofun
        · rw [subscribed_snoc]
          exact tells _ (agree opened)
      · apply quiet
        intro other is s' found opened
        have one : other = id := Option.some.inj (is.symm.trans socket)
        subst one
        rw [Option.some.inj (there.symm.trans found)] at ready
        simp [opened] at ready

theorem Inv.subscribe (h : Inv w) (names : List String) : Inv (subscribe names w) := by
  have send := h.send (names.eraseDups.foldl increment w.client.topics)
    (if (names.filter fun topic => topic ∉ keys w.client.topics).isEmpty then none
      else some (.subscribe (names.filter fun topic => topic ∉ keys w.client.topics))) (by
        intro set same t
        rw [mem_keys_increments, List.mem_eraseDups]
        split_ifs with none_
        · rw [List.isEmpty_iff, List.filter_eq_nil_iff] at none_
          rw [Option.elim_none, same]
          constructor
          · exact Or.inl
          · rintro (old | new)
            · exact old
            · simpa using none_ t new
        · rw [Option.elim_some, receive, List.mem_append, same, List.mem_filter]
          constructor
          · rintro (old | new)
            · exact Or.inl old
            · exact Or.inr new.1
          · rintro (old | new)
            · exact Or.inl old
            · by_cases old : t ∈ keys w.client.topics
              · exact Or.inl old
              · exact Or.inr ⟨new, by simpa using old⟩)
  unfold Realtime.subscribe
  dsimp only
  split_ifs at send ⊢ with none_
  · exact send
  · exact send

theorem Inv.unsubscribe (h : Inv w) (names : List String) : Inv (unsubscribe names w) := by
  obtain ⟨gone, all, rest⟩ := decrements w.client.topics names.eraseDups []
  rw [List.nil_append] at all
  unfold Realtime.unsubscribe
  cases is : names.eraseDups.foldl decrement (w.client.topics, []) with
  | mk topics removed =>
    rw [is] at all rest
    dsimp only at all rest ⊢
    subst all
    have send := h.send topics (if removed.isEmpty then none else some (.unsubscribe removed)) (by
      intro set same t
      split_ifs with none_
      · rw [List.isEmpty_iff] at none_
        rw [Option.elim_none, same, rest, none_]
        simp
      · rw [Option.elim_some, receive, List.mem_filter, same, rest, decide_eq_true_eq])
    split_ifs at send ⊢ with none_
    · exact send
    · exact send

theorem isCurrent_iff (h : Inv w) : isCurrent w id = true ↔ w.client.socket = some id := by
  unfold isCurrent
  constructor
  · intro is
    simp only [Bool.and_eq_true, beq_iff_eq] at is
    exact is.1.2
  · intro is
    obtain ⟨user, -, s, there, generation, -⟩ := h.current id is
    simp [there, generation, is, user]

theorem onclose_other {w : World} {code : ℕ} (other : isCurrent w id = false) : onclose id code w = w := by
  unfold onclose
  rw [other]
  rfl

theorem onopen_other {w : World} (other : isCurrent w id = false) : onopen id w = w := by
  unfold onopen
  rw [other]
  rfl

theorem not_isCurrent {w : World} (other : w.client.socket ≠ some id) : isCurrent w id = false := by
  unfold isCurrent
  simp [other]

theorem Inv.connect (h : Inv w) : Inv (connect w) := by
  unfold Realtime.connect
  split_ifs with out
  · exact h
  · simp only [Bool.or_eq_true, not_or, Bool.not_eq_true, Option.isSome_eq_false_iff,
      Option.isNone_iff_eq_none] at out
    refine ⟨fun id is => ?_, fun made => ?_, ?_, ?_⟩
    · exact absurd (out.1.symm.trans is) nofun
    · rcases made with socket | auth
      · exact absurd out.1 socket
      · exact absurd (out.2.symm.trans auth) nofun
    · refine List.nodup_cons.mpr ⟨fun there => ?_, h.distinct⟩
      have le := h.past _ there
      omega
    · intro g there
      rcases List.mem_cons.mp there with rfl | old
      · exact Nat.le_refl _
      · exact Nat.le_succ_of_le (h.past g old)

theorem Inv.pending (h : Inv w) {begun tokens : List ℕ} (distinct : (begun ++ tokens).Nodup)
    (sub : ∀ g ∈ begun ++ tokens, g ∈ w.begun ++ w.tokens) : Inv { w with begun, tokens } :=
  ⟨h.current, fun made there => h.taken made (sub _ there), distinct, fun g there => h.past g (sub g there)⟩

/-- A generation that is taken from the pending ones is not pending any more. -/
theorem taken_once {begun tokens : List ℕ} {g : ℕ} (distinct : (begun ++ tokens).Nodup) :
    (g ∈ begun → g ∉ begun.erase g ++ tokens) ∧ (g ∈ tokens → g ∉ begun ++ tokens.erase g) := by
  obtain ⟨left, right, apart⟩ := List.nodup_append.mp distinct
  simp only [List.mem_append, not_or]
  constructor
  · intro there
    exact ⟨fun again => ((List.Nodup.mem_erase_iff left).mp again).1 rfl,
      fun token => apart g there g token rfl⟩
  · intro there
    exact ⟨fun token => apart g token g there rfl,
      fun again => ((List.Nodup.mem_erase_iff right).mp again).1 rfl⟩

theorem Inv.openSocket (h : Inv w) {generation : ℕ}
    (fits : ¬ (generation ≠ w.client.generation ∨ w.client.closedByUser = true))
    (auth : w.client.unauthenticated = false) (gone : generation ∉ w.begun ++ w.tokens) :
    Inv (openSocket generation false w) := by
  rw [not_or, not_not, Bool.not_eq_true] at fits
  unfold Realtime.openSocket
  refine ⟨fun id is => ?_, fun _ => ?_, h.distinct, h.past⟩
  · have last : id = w.sockets.length := (Option.some.inj is).symm
    subst last
    refine ⟨fits.2, auth, { generation }, ?_, fits.1, fun _ => rfl, nofun⟩
    simp
  · change w.client.generation ∉ _
    rw [← fits.1]
    exact gone

theorem Inv.free (h : Inv w) {generation : ℕ} (there : generation ∈ w.begun ++ w.tokens)
    (is : generation = w.client.generation) :
    w.client.socket = none ∧ w.client.unauthenticated = false := by
  constructor
  · by_contra made
    exact h.taken (Or.inl made) (is ▸ there)
  · by_contra auth
    exact h.taken (Or.inr (by simpa using auth)) (is ▸ there)

theorem Inv.proceed (h : Inv w) {options : Options} {generation : ℕ} {throws : Bool}
    (there : generation ∈ w.begun) :
    Inv (proceed options generation throws { w with begun := w.begun.erase generation }) := by
  have gone := (taken_once h.distinct).1 there
  have distinct : (w.begun.erase generation ++ w.tokens).Nodup :=
    h.distinct.sublist (List.erase_sublist.append_right _)
  have inv := h.pending distinct fun g inside =>
    (List.erase_sublist.append_right _).subset inside
  unfold Realtime.proceed
  split_ifs with stale provider throws_
  · exact inv
  · exact inv
  · have distinct' : (w.begun.erase generation ++ generation :: w.tokens).Nodup :=
      List.nodup_middle.mpr (List.nodup_cons.mpr ⟨gone, distinct⟩)
    refine h.pending distinct' fun g inside => ?_
    rcases List.mem_append.mp inside with old | new
    · exact List.mem_append_left _ (List.mem_of_mem_erase old)
    · rcases List.mem_cons.mp new with rfl | old
      · exact List.mem_append_left _ there
      · exact List.mem_append_right _ old
  · cases throws with
    | true => exact inv
    | false =>
      have is : generation = w.client.generation := not_not.mp (not_or.mp stale).1
      exact inv.openSocket stale (h.free (List.mem_append_left _ there) is).2 gone

theorem Inv.onToken (h : Inv w) {generation : ℕ} {throws : Bool} (there : generation ∈ w.tokens) :
    Inv (refuseToken generation { w with tokens := w.tokens.erase generation }) ∧
      Inv (onToken generation throws { w with tokens := w.tokens.erase generation }) := by
  have gone := (taken_once h.distinct).2 there
  have less : (w.begun ++ w.tokens.erase generation).Sublist (w.begun ++ w.tokens) :=
    List.erase_sublist.append_left _
  have inv := h.pending (h.distinct.sublist less) fun g inside => less.subset inside
  have refused : Inv (refuseToken generation { w with tokens := w.tokens.erase generation }) := by
    unfold refuseToken
    split_ifs with is
    · exact ⟨inv.current, inv.taken, inv.distinct, inv.past⟩
    · exact inv
  refine ⟨refused, ?_⟩
  unfold Realtime.onToken
  split_ifs with stale throws_
  · exact inv
  · exact refused
  · have is : generation = w.client.generation := not_not.mp (not_or.mp stale).1
    exact inv.openSocket stale (h.free (List.mem_append_right _ there) is).2 gone

theorem Inv.setReadyState (h : Inv w) {state : ReadyState}
    (ends : w.client.socket ≠ some id ∨ state = .closing ∨ state = .closed) :
    Inv (w.setReadyState id state) := by
  refine ⟨fun other is => ?_, h.taken, h.distinct, h.past⟩
  obtain ⟨user, auth, s, there, generation, agree⟩ := h.current other is
  by_cases same : id = other
  · subst same
    refine ⟨user, auth, { s with readyState := state }, ?_, generation, ?_⟩
    · change (w.sockets.modify id _)[id]? = _
      rw [List.getElem?_modify_eq, there]
      rfl
    · rcases ends with apart | rfl | rfl
      · exact absurd is apart
      · exact ⟨nofun, nofun⟩
      · exact ⟨nofun, nofun⟩
  · refine ⟨user, auth, s, ?_, generation, agree⟩
    change (w.sockets.modify id _)[other]? = _
    rw [List.getElem?_modify_ne _ _ same]
    exact there

/-- The topics are subscribed to when the connection is there. -/
theorem Inv.opens (h : Inv w) (connecting : w.readyState id = some .connecting) :
    Inv (onopen id (w.setReadyState id .opened)) := by
  by_cases is : w.client.socket = some id
  · obtain ⟨user, auth, s, there, generation, fresh, -⟩ := h.current id is
    have blank : s.frames = [] := by
      apply fresh
      unfold World.readyState at connecting
      rw [there] at connecting
      exact Option.some.inj connecting
    have found : (w.setReadyState id .opened).sockets[id]? = some { s with readyState := .opened } := by
      change (w.sockets.modify id _)[id]? = _
      rw [List.getElem?_modify_eq, there]
      rfl
    -- nothing was sent on the socket, as if there were no topics
    have empty : Inv (withTopics [] (w.setReadyState id .opened)) := by
      refine ⟨fun other same => ?_, h.taken, h.distinct, h.past⟩
      have one : other = id := Option.some.inj (same.symm.trans is)
      subst one
      refine ⟨user, auth, { s with readyState := .opened }, found, generation, nofun, fun _ t => ?_⟩
      rw [blank]
      exact Iff.rfl
    have send := empty.send w.client.topics
      (if w.client.topics.isEmpty then none else some (.subscribe (keys w.client.topics))) (by
        intro set none_ t
        have nothing : t ∉ set := fun inside => absurd ((none_ t).mp inside) List.not_mem_nil
        split_ifs with bare
        · rw [List.isEmpty_iff.mp bare]
          exact none_ t
        · rw [Option.elim_some, receive, List.mem_append]
          exact ⟨fun inside => inside.resolve_left nothing, Or.inr⟩)
    have current : isCurrent (w.setReadyState id .opened) id = true := by
      unfold isCurrent
      rw [found]
      simp only [Option.any_some, Bool.and_eq_true, beq_iff_eq, Bool.not_eq_true']
      exact ⟨⟨generation, is⟩, user⟩
    have state : (w.setReadyState id .opened).readyState id = some .opened := by
      unfold World.readyState
      rw [found]
      rfl
    unfold onopen
    rw [current, state]
    change Inv (World.setStatus .connected
      (if w.client.topics.isEmpty then w.setReadyState id .opened
        else sendFrame (.subscribe (keys w.client.topics)) (w.setReadyState id .opened)))
    split_ifs at send ⊢ with bare
    · exact ⟨send.current, send.taken, send.distinct, send.past⟩
    · exact ⟨send.current, send.taken, send.distinct, send.past⟩
  · have inv : Inv (w.setReadyState id .opened) := h.setReadyState (Or.inl is)
    unfold onopen
    rw [not_isCurrent (w := w.setReadyState id .opened) is]
    exact inv

theorem Inv.onclose (h : Inv w) (code : ℕ) : Inv (onclose id code w) := by
  unfold Realtime.onclose
  split_ifs with other policy
  · exact h
  · have is : w.client.socket = some id := (isCurrent_iff h).mp (by simpa using other)
    have taken := h.taken (Or.inl (by rw [is]; nofun))
    exact ⟨nofun, fun _ => taken, h.distinct, h.past⟩
  · have is : w.client.socket = some id := (isCurrent_iff h).mp (by simpa using other)
    have taken := h.taken (Or.inl (by rw [is]; nofun))
    exact ⟨nofun, fun _ => taken, h.distinct, h.past⟩

theorem Inv.close (h : Inv w) : Inv (close w) := by
  have bumped : ∀ sockets : List Socket, Inv
      { w with
        client :=
          { w.client with
            generation := w.client.generation + 1
            closedByUser := true
            socket := none
            status := .disconnected }
        sockets } := by
    intro sockets
    refine ⟨nofun, fun _ there => ?_, h.distinct, fun g there => Nat.le_succ_of_le (h.past g there)⟩
    have le := h.past _ there
    change w.client.generation + 1 ≤ _ at le
    omega
  unfold Realtime.close closeSocket
  cases w.client.socket with
  | none => exact bumped w.sockets
  | some id =>
    dsimp only [Option.elim_some]
    split_ifs with closed
    · exact bumped w.sockets
    · exact bumped _

/-! ## Runs -/

variable {options : Options}

theorem step_inv (h : Inv w) (event : Event) : Inv (step options w event) := by
  cases event with
  | connect => exact h.connect
  | subscribe topics => exact h.subscribe topics
  | unsubscribe topics => exact h.unsubscribe topics
  | close => exact h.close
  | proceed generation throws =>
    unfold step
    dsimp only
    split_ifs with there
    · exact h.proceed there
    · exact h
  | token generation throws =>
    unfold step
    dsimp only
    split_ifs with there
    · exact (h.onToken there).2
    · exact h
  | noToken generation =>
    unfold step
    dsimp only
    split_ifs with there
    · have left : Inv (refuseToken generation { w with tokens := w.tokens.erase generation }) ∧
          Inv (onToken generation false { w with tokens := w.tokens.erase generation }) :=
        h.onToken there
      exact left.1
    · exact h
  | reconnectLater generation =>
    unfold step reconnectLater
    dsimp only
    split_ifs with there
    · exact ⟨h.current, h.taken, h.distinct, h.past⟩
    · exact ⟨h.current, h.taken, h.distinct, h.past⟩
    · exact h
  | timer generation =>
    have rest : Inv { w with timers := w.timers.erase generation } :=
      ⟨h.current, h.taken, h.distinct, h.past⟩
    unfold step onTimer
    dsimp only
    split_ifs with there
    · exact rest.connect
    · exact rest
    · exact h
  | opens id =>
    unfold step
    dsimp only
    split_ifs with connecting
    · exact h.opens connecting
    · exact h
  | closing id =>
    unfold step
    dsimp only
    split_ifs with closed
    · exact h
    · exact h.setReadyState (Or.inr (Or.inl rfl))
  | closes id code =>
    unfold step
    dsimp only
    split_ifs with closed
    · exact h
    · exact (h.setReadyState (Or.inr (Or.inr rfl))).onclose code
  | error id => exact h
  | message id data =>
    unfold step onmessage
    dsimp only
    split_ifs with current
    · exact ⟨h.current, h.taken, h.distinct, h.past⟩
    · exact h

theorem run_inv (h : Inv w) (events : List Event) : Inv (run options w events) := by
  unfold run
  induction events generalizing w with
  | nil => exact h
  | cons event events ih => exact ih (step_inv h event)

theorem inv_initial : Inv {} := ⟨nofun, nofun, List.nodup_nil, nofun⟩

theorem sendFrame_keeps (frame : Frame) (w : World) :
    (sendFrame frame w).client = w.client ∧ (sendFrame frame w).sockets.length = w.sockets.length := by
  unfold sendFrame
  cases w.client.socket with
  | none => exact ⟨rfl, rfl⟩
  | some id =>
    dsimp only
    split_ifs
    · exact ⟨rfl, List.length_modify _ _ _⟩
    · exact ⟨rfl, rfl⟩

/-- After a policy close no event makes a socket. -/
def Refused (n : ℕ) (w : World) : Prop := w.client.unauthenticated = true ∧ w.sockets.length = n

theorem Refused.send {n : ℕ} (h : Refused n w) (frame : Frame) : Refused n (sendFrame frame w) := by
  obtain ⟨client, length⟩ := sendFrame_keeps frame w
  unfold Refused
  rw [client, length]
  exact h

theorem Refused.setReadyState {n : ℕ} (h : Refused n w) (state : ReadyState) :
    Refused n (w.setReadyState id state) :=
  ⟨h.1, (List.length_modify _ _ _).trans h.2⟩

theorem Refused.connect {n : ℕ} (h : Refused n w) : Refused n (connect w) := by
  unfold Realtime.connect
  rw [h.1, Bool.or_true]
  exact h

theorem Refused.onopen {n : ℕ} (h : Refused n w) : Refused n (onopen id w) := by
  unfold Realtime.onopen
  split_ifs
  · exact h
  · exact h
  · exact h.send _

theorem Refused.step {n : ℕ} (inv : Inv w) (h : Refused n w) (event : Event) :
    Refused n (step options w event) := by
  have stale : ∀ generation ∈ w.begun ++ w.tokens, generation ≠ w.client.generation :=
    fun generation there is => inv.taken (Or.inr h.1) (is ▸ there)
  cases event with
  | connect => exact h.connect
  | subscribe topics =>
    unfold Realtime.step Realtime.subscribe
    dsimp only
    have changed : Refused n (withTopics (topics.eraseDups.foldl increment w.client.topics) w) := h
    split_ifs
    · exact h
    · exact changed.send _
  | unsubscribe topics =>
    unfold Realtime.step Realtime.unsubscribe
    dsimp only
    have changed : Refused n
      (withTopics (topics.eraseDups.foldl decrement (w.client.topics, [])).1 w) := h
    split_ifs
    · exact h
    · exact changed.send _
  | close =>
    unfold Realtime.step Realtime.close closeSocket
    cases w.client.socket with
    | none => exact h
    | some id =>
      dsimp only [Option.elim_some]
      split_ifs
      · exact h
      · exact ⟨h.1, (List.length_modify _ _ _).trans h.2⟩
  | proceed generation throws =>
    unfold Realtime.step
    dsimp only
    split_ifs with there
    · have other := stale generation (List.mem_append_left _ there)
      unfold proceed
      rw [if_pos (Or.inl other)]
      exact h
    · exact h
  | token generation throws =>
    unfold Realtime.step
    dsimp only
    split_ifs with there
    · have other := stale generation (List.mem_append_right _ there)
      unfold onToken
      rw [if_pos (Or.inl other)]
      exact h
    · exact h
  | noToken generation =>
    unfold Realtime.step refuseToken
    dsimp only
    split_ifs
    · exact h
    · exact h
    · exact h
  | reconnectLater generation =>
    unfold Realtime.step reconnectLater
    dsimp only
    split_ifs
    · exact h
    · exact h
    · exact h
  | timer generation =>
    unfold Realtime.step onTimer
    dsimp only
    split_ifs
    · exact Refused.connect (n := n) h
    · exact h
    · exact h
  | opens id =>
    unfold Realtime.step
    dsimp only
    split_ifs
    · exact (h.setReadyState _).onopen
    · exact h
  | closing id =>
    unfold Realtime.step
    dsimp only
    split_ifs
    · exact h
    · exact h.setReadyState _
  | closes id code =>
    have none_ : w.client.socket = none := by
      cases socket : w.client.socket with
      | none => rfl
      | some id => exact absurd ((inv.current id socket).2.1.symm.trans h.1) nofun
    have other : isCurrent (w.setReadyState id .closed) id = false :=
      not_isCurrent (w := w.setReadyState id .closed)
        (by change w.client.socket ≠ _; rw [none_]; nofun)
    unfold Realtime.step
    dsimp only
    split_ifs
    · exact h
    · rw [onclose_other other]
      exact h.setReadyState _
  | error id => exact h
  | message id data =>
    unfold Realtime.step onmessage
    dsimp only
    split_ifs
    · exact h
    · exact h

theorem Refused.run {n : ℕ} (inv : Inv w) (h : Refused n w) (events : List Event) :
    Refused n (run options w events) := by
  unfold Realtime.run
  induction events generalizing w with
  | nil => exact h
  | cons event events ih => exact ih (step_inv inv event) (h.step inv event)

/-- The frames sent on an open socket agree with the map of topics; the events of other sockets change
nothing; and after a policy close there is never a socket again. -/
theorem realtimeClient (options : Options) (events : List Event) :
    let w := run options {} events
    (∀ id s, w.client.socket = some id → w.sockets[id]? = some s → s.readyState = .opened →
      ∀ t, t ∈ subscribed s.frames ↔ t ∈ keys w.client.topics) ∧
    (∀ id id', isCurrent w id = true → isCurrent w id' = true → id = id') ∧
    (∀ id, w.client.socket ≠ some id →
      (∀ data, step options w (.message id data) = w) ∧
      (∀ code, (step options w (.closes id code)).client = w.client) ∧
      (step options w (.opens id)).client = w.client) ∧
    ∀ id after, w.client.socket = some id → w.readyState id ≠ some .closed →
      (run options w (.closes id wsUnauthenticatedCode :: after)).client.socket = none ∧
      (run options w (.closes id wsUnauthenticatedCode :: after)).sockets.length =
        w.sockets.length := by
  intro w
  have inv : Inv w := run_inv inv_initial events
  refine ⟨?_, ?_, ?_, ?_⟩
  · intro id s is there opened
    obtain ⟨-, -, s', found, -, -, agree⟩ := inv.current id is
    rw [Option.some.inj (there.symm.trans found)] at opened ⊢
    exact agree opened
  · intro id id' left right
    exact Option.some.inj (((isCurrent_iff inv).mp left).symm.trans ((isCurrent_iff inv).mp right))
  · intro id other
    refine ⟨fun data => ?_, fun code => ?_, ?_⟩
    · unfold step onmessage
      dsimp only
      rw [not_isCurrent other]
      rfl
    · unfold step
      dsimp only
      rw [onclose_other (not_isCurrent (w := w.setReadyState id .closed) other)]
      split_ifs
      · rfl
      · rfl
    · unfold step
      dsimp only
      rw [onopen_other (not_isCurrent (w := w.setReadyState id .opened) other)]
      split_ifs
      · rfl
      · rfl
  · intro id after is alive
    have closed : Inv (w.setReadyState id .closed) := inv.setReadyState (Or.inr (Or.inr rfl))
    have current : isCurrent (w.setReadyState id .closed) id = true := (isCurrent_iff closed).mpr is
    have refused : Refused w.sockets.length
        (step options w (.closes id wsUnauthenticatedCode)) := by
      unfold step
      dsimp only
      rw [if_neg alive]
      unfold onclose
      rw [current]
      exact ⟨rfl, List.length_modify _ _ _⟩
    have next : Inv (step options w (.closes id wsUnauthenticatedCode)) := step_inv inv _
    have last : Refused w.sockets.length
        (run options (step options w (.closes id wsUnauthenticatedCode)) after) := refused.run next after
    have lastInv : Inv (run options (step options w (.closes id wsUnauthenticatedCode)) after) :=
      run_inv next after
    refine ⟨?_, last.2⟩
    change (run options (step options w _) after).client.socket = none
    cases socket : (run options (step options w (.closes id wsUnauthenticatedCode)) after).client.socket with
    | none => rfl
    | some id => exact absurd ((lastInv.current id socket).2.1.symm.trans last.1) nofun

end Client

end Artoo.Client.Realtime
