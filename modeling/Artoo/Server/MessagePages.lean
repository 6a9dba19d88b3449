import Artoo.Client.RoomMessages
import Artoo.Lib.Ensures
import Artoo.Lib.Selection
import Artoo.Lib.TextCodecs
import Artoo.Server.BodyIdentity
import Artoo.Server.Types

/-! The pages of a room's messages: cut at a position, which the client holds as a cursor. -/
namespace Artoo.Server.MessagePages
open Artoo.Lib Artoo.Client.RoomMessages JsValue

/-! ## Rows -/

structure RoomRow where
  id : String
  organizationId : String

/-- `moderated`: when and by whom is known; `ρ` holds the fields that are shown as they are. -/
structure MessageRow (ρ : Type) where
  id : String
  position : ℕ
  organizationId : String
  roomId : String
  threadRootId : Option String
  moderated : Bool
  createdAt : String
  body : String
  payload : List (String × PayloadValue)
  rest : ρ

/-- The tables, of which the ids and the positions of messages are unique. -/
structure Store (ρ : Type) where
  rooms : List RoomRow
  messages : List (MessageRow ρ)
  ids : (messages.map (·.id)).Nodup
  positions : (messages.map (·.position)).Nodup

section Definitions

variable {ρ : Type}

def mapMessage (row : MessageRow ρ) : Message ρ :=
  let payload := row.payload.filter (·.1 != "moderation")
  { id := row.id
    sequence := some row.position
    createdAt := row.createdAt
    body := if row.moderated then removedText else row.body
    payload :=
      if row.moderated then
        ("moderation", .string "removed") ::
          match payload.lookup "discussion_id" with
          | some (.string id) => [("discussion_id", .string id)]
          | _ => []
      else payload
    rest := row.rest }

structure MessagePage (ρ : Type) where
  messages : List (Message ρ)
  nextBefore : Option Units
  nextAfter : Option Units
  hasMore : Bool

/-- What the query of a request holds. -/
structure Query where
  limit : JsValue := .undefined
  before : JsValue := .undefined
  after : JsValue := .undefined
  threadRootId : JsValue := .undefined

def requireRoom (db : Store ρ) (organizationId roomId : String) : Except AppError RoomRow :=
  match db.rooms.find? fun room => room.id == roomId && room.organizationId == organizationId with
  | none => .error (.notFound s!"room not found: {roomId}" [("room_id", .str roomId)])
  | some room => .ok room

def getMessage (db : Store ρ) (organizationId roomId : String) (messageId : Units) :
    Except AppError (MessageRow ρ) := do
  let _ ← requireRoom db organizationId roomId
  match db.messages.find? fun row => units row.id == messageId && row.roomId == roomId &&
      row.organizationId == organizationId with
  | none => .error (.notFound "message not found")
  | some row => .ok row

/-! ## Cursors -/

/-- An empty id is no thread. -/
def inThread (threadRootId : Option Units) : Bool := threadRootId.any fun id => !id.isEmpty

def cursorItems (roomId : String) (position : ℕ) (threadRootId : Option Units) : List JsValue :=
  [.string (units roomId), .number (.round false position)] ++
    (threadRootId.filter fun id => !id.isEmpty).toList.map .string

def messageCursor (roomId : String) (position : ℕ) (threadRootId : Option Units) : Units :=
  base64url (utf8Bytes ((stringify (.array (cursorItems roomId position threadRootId))).getD []))

/-- `Number.isSafeInteger(value) && value >= 1`. -/
def positiveSafeInteger : JsValue → Option ℕ
  | .number x =>
    match x.value with
    | some q =>
      if q.den = 1 ∧ 1 ≤ q.num ∧ q.num ≤ Frames.maxSafeInteger then some q.num.toNat else none
    | none => none
  | _ => none

def isString (text : Units) : JsValue → Bool
  | .string s => s == text
  | _ => false

/-- What an array holds behind its end is undefined. -/
def isThread (threadRootId : Option Units) (item : Option JsValue) : Bool :=
  match threadRootId, item with
  | none, none => true
  | some id, some value => isString id value
  | _, _ => false

def cursorLetter (u : UInt16) : Bool := (sextetOf u).isSome

def itemsPosition (items : List JsValue) (roomId : String) (threadRootId : Option Units) :
    Option ℕ :=
  if items.length = (if inThread threadRootId then 3 else 2) ∧
      items[0]?.any (isString (units roomId)) ∧ isThread threadRootId items[2]? then
    items[1]?.bind positiveSafeInteger
  else none

def cursorPosition (text : Units) (roomId : String) (threadRootId : Option Units) : Option ℕ :=
  if text.length ≤ 512 ∧ text ≠ [] ∧ text.all cursorLetter then do
    match ← jsonParse (utf8Text (← base64urlBytes text)) with
    | .array items => itemsPosition items roomId threadRootId
    | _ => none
  else none

def invalidCursor : AppError := .validation "Invalid message cursor for this room"

def readMessageCursor (value : JsValue) (roomId : String) (threadRootId : Option Units) :
    Except AppError (Option ℕ) :=
  match value with
  | .undefined => .ok none
  | .string text =>
    match cursorPosition text roomId threadRootId with
    | some position => .ok (some position)
    | none => .error invalidCursor
  | _ => .error invalidCursor

/-! ## Pages -/

/-- `/^\d+$/` and `Number`; no number past the doubles is within the limits. -/
def digitsValue (text : Units) : Option ℕ :=
  if text ≠ [] ∧ text.all (fun u => decide (48 ≤ u.toNat ∧ u.toNat ≤ 57)) then
    some (text.foldl (fun n u => n * 10 + (u.toNat - 48)) 0)
  else none

def limitValue : JsValue → Option ℕ
  | .undefined | .null => some 50
  | .string text => digitsValue text
  | value => positiveSafeInteger value

def pageLimit (raw : JsValue) : Except AppError ℕ :=
  match limitValue raw with
  | some limit =>
    if 1 ≤ limit ∧ limit ≤ 100 then .ok limit
    else .error (.validation "Message limit must be an integer from 1 to 100")
  | none => .error (.validation "Message limit must be an integer from 1 to 100")

def threadOf : JsValue → Except AppError (Option Units)
  | .undefined => .ok none
  | .string id =>
    if id.isEmpty then .error (.validation "thread_root_id must identify a root message")
    else .ok (some id)
  | _ => .error (.validation "thread_root_id must identify a root message")

/-- A thread starts from a message that is in none. -/
def checkRoot (db : Store ρ) (organizationId roomId : String) :
    Option Units → Except AppError PUnit
  | none => .ok ⟨⟩
  | some id => do
    let root ← getMessage db organizationId roomId id
    if root.threadRootId.any (!·.isEmpty) then
      .error (.validation "A thread must start from a root message")
    else .ok ⟨⟩

def inScope (organizationId roomId : String) (threadRootId : Option Units) (row : MessageRow ρ) :
    Bool :=
  row.organizationId == organizationId && row.roomId == roomId &&
    row.threadRootId.map units == threadRootId

/-- The rows of one page, and one more where there is one. -/
def pageRows (db : Store ρ) (organizationId roomId : String) (threadRootId : Option Units)
    (before after : Option ℕ) (limit : ℕ) : List (MessageRow ρ) :=
  let rows := db.messages.filter fun row => inScope organizationId roomId threadRootId row &&
    before.all (fun p => decide (row.position < p)) && after.all fun p => decide (p < row.position)
  let ordered :=
    if after.isSome then byRank (fun row : MessageRow ρ => row.position) rows
    else byRank (fun row : MessageRow ρ => OrderDual.toDual row.position) rows
  ordered.take (limit + 1)

def pageOf (roomId : String) (threadRootId : Option Units) (forward : Bool) (limit : ℕ)
    (rows : List (MessageRow ρ)) : MessagePage ρ :=
  let taken := rows.take limit
  let page := if forward then taken else taken.reverse
  { messages := page.map mapMessage
    nextBefore := page.head?.map fun row => messageCursor roomId row.position threadRootId
    nextAfter := page.getLast?.map fun row => messageCursor roomId row.position threadRootId
    hasMore := decide (limit < rows.length) }

def listMessagePage (db : Store ρ) (organizationId roomId : String) (query : Query) :
    Except AppError (MessagePage ρ) := do
  let _ ← requireRoom db organizationId roomId
  let threadRootId ← threadOf query.threadRootId
  checkRoot db organizationId roomId threadRootId
  let limit ← pageLimit query.limit
  if !query.before.isUndefined && !query.after.isUndefined then
    .error (.validation "Use before or after, not both")
  else
    let before ← readMessageCursor query.before roomId threadRootId
    let after ← readMessageCursor query.after roomId threadRootId
    .ok (pageOf roomId threadRootId after.isSome limit
      (pageRows db organizationId roomId threadRootId before after limit))

end Definitions

/-! ## A cursor is read where it was given -/

section Cursors

variable {roomId roomId' : String} {position : ℕ} {threadRootId threadRootId' : Option Units}

theorem round_position (small : position ≤ Frames.maxSafeInteger) :
    ∃ m : Magnitude, JsNumber.round false position = .finite false m ∧ m.value = position := by
  have within : position < 2 ^ 53 := by
    unfold Frames.maxSafeInteger at small
    omega
  let m : Magnitude := ⟨position, Nat.cast_nonneg position, toDouble_natCast within⟩
  exact ⟨m, JsNumber.round_eq (m := m) (Nat.cast_nonneg position) (toDouble_natCast within), rfl⟩

theorem position_round (least : 1 ≤ position) (small : position ≤ Frames.maxSafeInteger) :
    positiveSafeInteger (.number (.round false position)) = some position := by
  obtain ⟨m, is, value⟩ := round_position small
  have whole : (position : ℚ).num = position := Rat.num_natCast position
  unfold positiveSafeInteger
  rw [is]
  simp only [JsNumber.value, Bool.false_eq_true, if_false, value, Rat.den_natCast, whole]
  rw [if_pos ⟨trivial, by omega, by omega⟩, Int.toNat_natCast]

theorem plain_items (small : position ≤ Frames.maxSafeInteger) :
    (JsValue.array (cursorItems roomId position threadRootId)).Plain := by
  obtain ⟨m, is, -⟩ := round_position small
  refine .array fun x among => ?_
  unfold cursorItems at among
  rw [is] at among
  simp only [List.mem_append, List.mem_cons, List.not_mem_nil, or_false, List.mem_map] at among
  rcases among with (rfl | rfl) | ⟨id, -, rfl⟩
  · exact .string _
  · exact .number (by simp)
  · exact .string _

theorem stringify_items (small : position ≤ Frames.maxSafeInteger) :
    stringify (.array (cursorItems roomId position threadRootId)) =
      some (JsValue.array (cursorItems roomId position threadRootId)).text := by
  obtain ⟨m, is, -⟩ := round_position small
  have number : (JsValue.number (.finite false m)).serialized = .number (.finite false m) := rfl
  have strings : ∀ ids : List Units, (ids.map JsValue.string).map serialized =
      ids.map JsValue.string := by
    intro ids
    rw [List.map_map]
    rfl
  have same : (JsValue.array (cursorItems roomId position threadRootId)).serialized =
      .array (cursorItems roomId position threadRootId) := by
    unfold cursorItems
    rw [serialized, serializedItems_eq, List.map_append, strings, is, List.map_cons, List.map_cons,
      number]
    rfl
  unfold stringify
  rw [same]
  rfl

theorem letters_of_bytes {text : Units} {bytes : List ℕ} (is : base64urlBytes text = some bytes) :
    text.all cursorLetter = true := by
  obtain ⟨digits, are, -⟩ := Option.map_eq_some_iff.mp is
  clear is
  induction text generalizing digits with
  | nil => rfl
  | cons u text ih =>
    rw [List.mapM_cons] at are
    obtain ⟨d, first, others⟩ := Option.bind_eq_some_iff.mp are
    obtain ⟨ds, later, -⟩ := Option.bind_eq_some_iff.mp others
    rw [List.all_cons, ih ds later, Bool.and_true, cursorLetter, first]
    rfl

/-- What the server decodes of a cursor. -/
theorem bytes_of_cursor (roomId : String) (threadRootId : Option Units)
    (small : position ≤ Frames.maxSafeInteger) :
    ∃ bytes, base64urlBytes (messageCursor roomId position threadRootId) = some bytes ∧
      jsonParse (utf8Text bytes) = some (.array (cursorItems roomId position threadRootId)) := by
  refine ⟨_, base64urlBytes_base64url _ fun b => utf8Bytes_lt, ?_⟩
  rw [stringify_items small, Option.getD_some, utf8Text_bytes Frames.paired_text]
  exact jsonParse_text (plain_items small)

theorem cursor_ne_nil (small : position ≤ Frames.maxSafeInteger) :
    messageCursor roomId position threadRootId ≠ [] := by
  obtain ⟨bytes, are, is⟩ := bytes_of_cursor roomId threadRootId small
  intro empty
  rw [empty] at are
  cases are
  cases is

theorem isString_iff {text : Units} {value : JsValue} :
    isString text value = true ↔ value = .string text := by
  cases value with
  | string s =>
    simp only [isString, beq_iff_eq, JsValue.string.injEq]
  | _ => simp [isString]

theorem itemsPosition_items (least : 1 ≤ position) (small : position ≤ Frames.maxSafeInteger)
    (nonempty : threadRootId ≠ some []) :
    itemsPosition (cursorItems roomId position threadRootId) roomId' threadRootId' =
      if roomId' = roomId ∧ threadRootId' = threadRootId then some position else none := by
  have number := position_round least small
  have room : isString (units roomId') (.string (units roomId)) = true ↔ roomId' = roomId := by
    rw [isString_iff, JsValue.string.injEq, eq_comm, units_injective.eq_iff]
  unfold itemsPosition cursorItems
  cases threadRootId with
  | none =>
    cases threadRootId' with
    | none => simp [inThread, isThread, room, number]
    | some id' => simp [isThread]
  | some id =>
    have is : id ≠ [] := fun empty => nonempty (congrArg some empty)
    have kept : (some id).filter (fun id : Units => !id.isEmpty) = some id := by
      simp [Option.filter, is]
    rw [kept]
    cases threadRootId' with
    | none => simp [isThread]
    | some id' =>
      have thread : isString id' (.string id) = true ↔ id' = id := by
        rw [isString_iff, JsValue.string.injEq, eq_comm]
      by_cases same : id' = id
      · subst same
        simp [inThread, isThread, room, number, is, thread]
      · simp [isThread, thread, same]

theorem cursorPosition_cursor (least : 1 ≤ position) (small : position ≤ Frames.maxSafeInteger)
    (short : (messageCursor roomId position threadRootId).length ≤ 512)
    (nonempty : threadRootId ≠ some []) :
    cursorPosition (messageCursor roomId position threadRootId) roomId' threadRootId' =
      if roomId' = roomId ∧ threadRootId' = threadRootId then some position else none := by
  obtain ⟨bytes, are, is⟩ := bytes_of_cursor roomId threadRootId small
  unfold cursorPosition
  rw [if_pos ⟨short, cursor_ne_nil small, letters_of_bytes are⟩, are]
  simp only [Option.bind_eq_bind, Option.bind_some, is]
  exact itemsPosition_items least small nonempty

/-- A cursor is read as the position it was given for, in the room and the thread it was given for,
and refused in every other. -/
theorem readMessageCursor_messageCursor (least : 1 ≤ position)
    (small : position ≤ Frames.maxSafeInteger)
    (short : (messageCursor roomId position threadRootId).length ≤ 512)
    (nonempty : threadRootId ≠ some []) :
    readMessageCursor (.string (messageCursor roomId position threadRootId)) roomId'
      threadRootId' =
      if roomId' = roomId ∧ threadRootId' = threadRootId then .ok (some position)
      else .error invalidCursor := by
  unfold readMessageCursor
  dsimp only
  rw [cursorPosition_cursor least small short nonempty]
  split_ifs <;> rfl

theorem readMessageCursor_messageCursor_thread :
    readMessageCursor (.string (messageCursor "room_1" 7 (some (units "msg_1")))) "room_1" none =
      .error invalidCursor :=
  (readMessageCursor_messageCursor (by decide) (by decide) (by decide +kernel) (by decide)).trans
    (if_neg (by decide))

end Cursors

/-! ## A page is a stretch of the history -/

/-- Older messages are read back, newer ones on. -/
inductive Direction where
  | back | on
  deriving DecidableEq

/-- In the order of reading, ranks grow. -/
def Direction.rank : Direction → ℕ → ℤ
  | .back, n => -n
  | .on, n => n

def Direction.order {α : Type} : Direction → List α → List α
  | .back, l => l.reverse
  | .on, l => l

/-- What is read behind a position, or from the start. -/
def Direction.beyond (direction : Direction) (start : Option ℕ) (position : ℕ) : Bool :=
  start.all fun p => decide (direction.rank p < direction.rank position)

section Pages

variable {ρ : Type} (db : Store ρ) (organizationId roomId : String) (threadRootId : Option Units)

/-- The messages of a room or a thread, the oldest first. -/
def history : List (MessageRow ρ) :=
  byRank (fun row => row.position) (db.messages.filter (inScope organizationId roomId threadRootId))

def rowKey (row : MessageRow ρ) : String × ℕ := (row.id, row.position)

def keys : List (String × ℕ) := (history db organizationId roomId threadRootId).map rowKey

/-- What is left to read behind a position, in the order of reading. -/
def ahead (direction : Direction) (start : Option ℕ) : List (String × ℕ) :=
  direction.order ((keys db organizationId roomId threadRootId).filter
    fun k => direction.beyond start k.2)

def nextCursor (page : MessagePage ρ) : Direction → Option Units
  | .back => page.nextBefore
  | .on => page.nextAfter

/-- What a page shows of what is left to read. -/
structure Shows (direction : Direction) (page : MessagePage ρ) (limit : ℕ)
    (ks : List (String × ℕ)) : Prop where
  messages : page.messages.map (fun m => (m.id, m.sequence)) =
    (direction.order (ks.take limit)).map fun k => (k.1, some k.2)
  next : nextCursor page direction =
    (ks.take limit).getLast?.map fun k => messageCursor roomId k.2 threadRootId
  more : page.hasMore = decide (limit < ks.length)

variable {db organizationId roomId threadRootId}

theorem scope_single (p : MessageRow ρ → Bool) :
    ((db.messages.filter p).map (·.position)).Nodup :=
  db.positions.sublist (List.filter_sublist.map _)

theorem ahead_ordered (direction : Direction) (start : Option ℕ) :
    (ahead db organizationId roomId threadRootId direction start).Pairwise
      fun a b => direction.rank a.2 < direction.rank b.2 := by
  have sorted : (keys db organizationId roomId threadRootId).Pairwise fun a b => a.2 < b.2 := by
    unfold keys
    rw [List.pairwise_map]
    exact byRank_strict (scope_single _)
  cases direction with
  | back =>
    refine List.pairwise_reverse.mpr ((sorted.filter _).imp fun {a b} lt => ?_)
    exact neg_lt_neg (Int.ofNat_lt.mpr lt)
  | on => exact (sorted.filter _).imp fun {a b} lt => Int.ofNat_lt.mpr lt

theorem mem_order {α : Type} {direction : Direction} {l : List α} {a : α} :
    a ∈ direction.order l ↔ a ∈ l := by
  cases direction with
  | back => exact List.mem_reverse
  | on => exact Iff.rfl

theorem mem_ahead {direction : Direction} {start : Option ℕ} {k : String × ℕ} :
    k ∈ ahead db organizationId roomId threadRootId direction start ↔
      k ∈ keys db organizationId roomId threadRootId ∧ direction.beyond start k.2 = true :=
  mem_order.trans List.mem_filter

theorem map_order {α β : Type} (f : α → β) (direction : Direction) (l : List α) :
    (direction.order l).map f = direction.order (l.map f) := by
  cases direction with
  | back => exact List.map_reverse
  | on => rfl

/-- What is left to read, as rows. -/
theorem ahead_rows (direction : Direction) (start : Option ℕ) :
    ahead db organizationId roomId threadRootId direction start =
      (direction.order ((history db organizationId roomId threadRootId).filter
        fun row => direction.beyond start row.position)).map rowKey := by
  rw [map_order]
  exact congrArg direction.order List.filter_map

theorem pageRows_back (before : Option ℕ) (limit : ℕ) :
    pageRows db organizationId roomId threadRootId before none limit =
      (Direction.order .back ((history db organizationId roomId threadRootId).filter
        fun row => Direction.beyond .back before row.position)).take (limit + 1) := by
  have same : (fun row : MessageRow ρ => Direction.beyond .back before row.position) =
      fun row => before.all fun p => decide (row.position < p) := by
    funext row
    unfold Direction.beyond Direction.rank
    simp only [neg_lt_neg_iff, Nat.cast_lt]
  unfold pageRows history
  simp only [Option.all_none, Bool.and_true, Option.isSome_none, Bool.false_eq_true, if_false]
  rw [byRank_toDual (scope_single _), same, ← byRank_filter (scope_single _), List.filter_filter]
  simp only [Bool.and_comm, Direction.order]

theorem pageRows_on (after limit : ℕ) :
    pageRows db organizationId roomId threadRootId none (some after) limit =
      (Direction.order .on ((history db organizationId roomId threadRootId).filter
        fun row => Direction.beyond .on (some after) row.position)).take (limit + 1) := by
  unfold pageRows history
  simp only [Option.all_none, Bool.and_true, Option.isSome_some, if_true, Option.all_some]
  rw [← byRank_filter (scope_single _), List.filter_filter]
  simp only [Bool.and_comm, Direction.order, Direction.beyond, Direction.rank, Option.all_some,
    Nat.cast_lt]

theorem shows_pageOf (direction : Direction) (limit : ℕ) (l : List (MessageRow ρ)) :
    Shows roomId threadRootId direction
      (pageOf roomId threadRootId (decide (direction = .on)) limit (l.take (limit + 1))) limit
      (l.map rowKey) := by
  have taken : (l.take (limit + 1)).take limit = l.take limit := by
    rw [List.take_take, min_eq_left (Nat.le_succ limit)]
  have more : limit < (l.take (limit + 1)).length ↔ limit < l.length := by
    rw [List.length_take]
    omega
  unfold pageOf
  rw [taken]
  constructor
  · rw [← List.map_take]
    cases direction with
    | back => simp [Direction.order, mapMessage, rowKey, Function.comp_def]
    | on => simp [Direction.order, mapMessage, rowKey, Function.comp_def]
  · rw [← List.map_take, List.getLast?_map, Option.map_map]
    cases direction with
    | back => simp [nextCursor, Function.comp_def, rowKey]
    | on => simp [nextCursor, Function.comp_def, rowKey]
  · simp only [more, List.length_map]

end Pages

/-! ## Reading page by page -/

section Walk

variable {ρ : Type}

def pageQuery (limit threadRootId cursor : JsValue) : Direction → Query
  | .back => { limit := limit, before := cursor, threadRootId := threadRootId }
  | .on => { limit := limit, after := cursor, threadRootId := threadRootId }

def joined {α : Type} (direction : Direction) (page rest : List α) : List α :=
  match direction with
  | .back => rest ++ page
  | .on => page ++ rest

/-- Page after page, each of the tables as they are by then; whether there is more. -/
def walk (organizationId roomId : String) (limit threadRootId : JsValue) (direction : Direction) :
    List (Store ρ) → JsValue → Except AppError (List (Message ρ) × Bool)
  | [], _ => .ok ([], true)
  | db :: later, cursor => do
    let page ← listMessagePage db organizationId roomId
      (pageQuery limit threadRootId cursor direction)
    match page.hasMore, nextCursor page direction with
    | true, some next =>
      let (rest, more) ← walk organizationId roomId limit threadRootId direction later (.string next)
      .ok (joined direction page.messages rest, more)
    | more, _ => .ok (page.messages, more)

structure Serves (db : Store ρ) (organizationId roomId : String) (threadRootId : Option Units) :
    Prop where
  room : ∃ room, requireRoom db organizationId roomId = .ok room
  root : checkRoot db organizationId roomId threadRootId = .ok ⟨⟩

/-- A cursor of the position is within what is read. -/
def Citable (roomId : String) (threadRootId : Option Units) (position : ℕ) : Prop :=
  1 ≤ position ∧ position ≤ Frames.maxSafeInteger ∧
    (messageCursor roomId position threadRootId).length ≤ 512

/-- A cursor that reading can begin at; newer messages are read behind a position only. -/
def Starts (roomId : String) (threadRootId : Option Units) (direction : Direction)
    (cursor : JsValue) (start : Option ℕ) : Prop :=
  readMessageCursor cursor roomId threadRootId = .ok start ∧ (direction = .on → start ≠ none)

variable {organizationId roomId : String} {limit thread cursor : JsValue} {n : ℕ}
  {threadRootId : Option Units} {db : Store ρ} {later : List (Store ρ)} {direction : Direction}
  {start : Option ℕ} {page : MessagePage ρ} {ks : List (String × ℕ)}

theorem thread_ne_nil (threadIs : threadOf thread = .ok threadRootId) : threadRootId ≠ some [] := by
  rintro rfl
  unfold threadOf at threadIs
  split at threadIs
  · cases threadIs
  · split_ifs at threadIs with empty
    cases threadIs
    exact empty rfl
  · cases threadIs

theorem one_le_limit (limitIs : pageLimit limit = .ok n) : 1 ≤ n := by
  unfold pageLimit at limitIs
  split at limitIs
  · split_ifs at limitIs with within
    cases limitIs
    exact within.1
  · cases limitIs

/-- A request is answered if all that it holds is right. -/
theorem listMessagePage_shows (limitIs : pageLimit limit = .ok n)
    (threadIs : threadOf thread = .ok threadRootId)
    (serves : Serves db organizationId roomId threadRootId)
    (starts : Starts roomId threadRootId direction cursor start) :
    ∃ page, listMessagePage db organizationId roomId (pageQuery limit thread cursor direction) =
        .ok page ∧
      Shows roomId threadRootId direction page n
        (ahead db organizationId roomId threadRootId direction start) := by
  obtain ⟨room, roomIs⟩ := serves.room
  obtain ⟨read, needs⟩ := starts
  have nothing : readMessageCursor .undefined roomId threadRootId = .ok none := rfl
  have undefined : JsValue.isUndefined .undefined = true := rfl
  rw [ahead_rows]
  unfold listMessagePage pageQuery
  cases direction with
  | back =>
    refine ⟨_, ?_, shows_pageOf .back n _⟩
    simp only [roomIs, ok_bind, threadIs, serves.root, limitIs, undefined, Bool.not_true,
      Bool.and_false, Bool.false_eq_true, if_false, read, nothing]
    rw [pageRows_back]
    rfl
  | on =>
    obtain ⟨after, is⟩ := Option.ne_none_iff_exists'.mp (needs rfl)
    rw [is] at read
    refine ⟨_, ?_, shows_pageOf .on n _⟩
    simp only [roomIs, ok_bind, threadIs, serves.root, limitIs, undefined, Bool.not_true,
      Bool.false_and, Bool.false_eq_true, if_false, read, nothing]
    rw [is, pageRows_on]
    rfl

theorem walk_more {next : Units} {rest : List (Message ρ)} {more : Bool}
    (is : listMessagePage db organizationId roomId (pageQuery limit thread cursor direction) =
      .ok page)
    (longer : page.hasMore = true) (cursorIs : nextCursor page direction = some next)
    (read : walk organizationId roomId limit thread direction later (.string next) =
      .ok (rest, more)) :
    walk organizationId roomId limit thread direction (db :: later) cursor =
      .ok (joined direction page.messages rest, more) := by
  unfold walk
  rw [is, ok_bind, longer, cursorIs]
  dsimp only
  rw [read]
  rfl

theorem walk_last (is : listMessagePage db organizationId roomId
      (pageQuery limit thread cursor direction) = .ok page) (last : page.hasMore = false) :
    walk organizationId roomId limit thread direction (db :: later) cursor =
      .ok (page.messages, false) := by
  unfold walk
  rw [is, ok_bind, last]

theorem starts_cursor (nonempty : threadRootId ≠ some []) {q : ℕ}
    (citable : Citable roomId threadRootId q) :
    Starts roomId threadRootId direction (.string (messageCursor roomId q threadRootId)) (some q) := by
  refine ⟨?_, fun _ => Option.some_ne_none q⟩
  rw [readMessageCursor_messageCursor citable.1 citable.2.1 citable.2.2 nonempty,
    if_pos ⟨rfl, rfl⟩]

theorem beyond_trans {p q : ℕ} (first : direction.beyond start p = true)
    (second : direction.beyond (some p) q = true) : direction.beyond start q = true := by
  cases start with
  | none => rfl
  | some r => exact decide_eq_true ((of_decide_eq_true first).trans (of_decide_eq_true second))

/-- Messages of one walk, in the order of reading. -/
structure Reads (direction : Direction) (start : Option ℕ) (db : Store ρ)
    (organizationId roomId : String) (threadRootId : Option Units) (all ks : List (String × ℕ)) :
    Prop where
  ordered : ks.Pairwise fun a b => direction.rank a.2 < direction.rank b.2
  real : ∀ k ∈ ks, k ∈ all ∧ direction.beyond start k.2 = true
  complete : ∀ k ∈ keys db organizationId roomId threadRootId,
    direction.beyond start k.2 = true → k ∈ ks

variable {all : List (String × ℕ)}

theorem map_joined {α β : Type} (f : α → β) (page rest : List α) :
    (joined direction page rest).map f = joined direction (page.map f) (rest.map f) := by
  cases direction <;> exact List.map_append

theorem order_append {α : Type} (page rest : List α) :
    direction.order (page ++ rest) =
      joined direction (direction.order page) (direction.order rest) := by
  cases direction with
  | back => exact List.reverse_append
  | on => rfl

theorem walk_over (is : listMessagePage db organizationId roomId
      (pageQuery limit thread cursor direction) = .ok page)
    (shows : Shows roomId threadRootId direction page n
      (ahead db organizationId roomId threadRootId direction start))
    (within : keys db organizationId roomId threadRootId ⊆ all)
    (short : (ahead db organizationId roomId threadRootId direction start).length ≤ n) :
    ∃ messages ks,
      walk organizationId roomId limit thread direction (db :: later) cursor = .ok (messages, false) ∧
      messages.map (fun m => (m.id, m.sequence)) =
        (direction.order ks).map (fun k => (k.1, some k.2)) ∧
      Reads direction start db organizationId roomId threadRootId all ks := by
  have places := shows.messages
  rw [List.take_of_length_le short] at places
  refine ⟨_, _, walk_last is (shows.more.trans (decide_eq_false (not_lt.mpr short))), places,
    ahead_ordered direction start, fun k there => ?_, fun k there behind => ?_⟩
  · exact ⟨within (mem_ahead.mp there).1, (mem_ahead.mp there).2⟩
  · exact mem_ahead.mpr ⟨there, behind⟩

theorem taken_ordered :
    ((ahead db organizationId roomId threadRootId direction start).take n).Pairwise
      fun a b => direction.rank a.2 < direction.rank b.2 :=
  (ahead_ordered direction start).sublist (List.take_sublist n _)

theorem ahead_nodup : (ahead db organizationId roomId threadRootId direction start).Nodup := by
  refine (ahead_ordered direction start).imp ?_
  rintro a b lt rfl
  exact absurd lt (lt_irrefl _)

theorem ahead_le (within : keys db organizationId roomId threadRootId ⊆ all) :
    (ahead db organizationId roomId threadRootId direction start).length ≤
      (all.filter fun k => direction.beyond start k.2).length := by
  refine (ahead_nodup.subperm fun k there => ?_).length_le
  obtain ⟨among, behind⟩ := mem_ahead.mp there
  exact List.mem_filter.mpr ⟨within among, behind⟩

/-- What is left behind a page is shorter by the page. -/
theorem ahead_shorter (within : keys db organizationId roomId threadRootId ⊆ all) (single : all.Nodup)
    (longer : n < (ahead db organizationId roomId threadRootId direction start).length)
    {k : String × ℕ}
    (last : ((ahead db organizationId roomId threadRootId direction start).take n).getLast? = some k) :
    (all.filter fun a => direction.beyond (some k.2) a.2).length + n ≤
      (all.filter fun a => direction.beyond start a.2).length := by
  have among := (mem_ahead.mp (List.mem_of_mem_take (List.mem_of_getLast? last))).2
  have apart : ((ahead db organizationId roomId threadRootId direction start).take n ++
      all.filter fun a => direction.beyond (some k.2) a.2).Nodup := by
    refine List.nodup_append.mpr ⟨ahead_nodup.sublist (List.take_sublist n _),
      single.filter _, ?_⟩
    rintro a taken b left rfl
    have le := rank_le_of_last taken_ordered last taken
    exact absurd (of_decide_eq_true (List.mem_filter.mp left).2) (not_lt.mpr le)
  have sub : ((ahead db organizationId roomId threadRootId direction start).take n ++
      all.filter fun a => direction.beyond (some k.2) a.2) ⊆
        all.filter fun a => direction.beyond start a.2 := by
    intro a there
    rcases List.mem_append.mp there with taken | left
    · obtain ⟨held, behind⟩ := mem_ahead.mp (List.mem_of_mem_take taken)
      exact List.mem_filter.mpr ⟨within held, behind⟩
    · obtain ⟨held, behind⟩ := List.mem_filter.mp left
      exact List.mem_filter.mpr ⟨held, beyond_trans among behind⟩
  have le := (apart.subperm sub).length_le
  rw [List.length_append, List.length_take, min_eq_left (le_of_lt longer)] at le
  omega

/-- A page, and what is read behind it. -/
theorem Reads.more {next : Store ρ} {k : String × ℕ}
    (reads : Reads direction (some k.2) next organizationId roomId threadRootId all ks)
    (within : keys db organizationId roomId threadRootId ⊆ all)
    (kept : keys db organizationId roomId threadRootId ⊆ keys next organizationId roomId threadRootId)
    (last : ((ahead db organizationId roomId threadRootId direction start).take n).getLast? = some k) :
    Reads direction start db organizationId roomId threadRootId all
      ((ahead db organizationId roomId threadRootId direction start).take n ++ ks) where
  ordered := by
    refine List.pairwise_append.mpr ⟨taken_ordered, reads.ordered, fun a taken b later => ?_⟩
    have le := rank_le_of_last taken_ordered last taken
    exact lt_of_le_of_lt le (of_decide_eq_true (reads.real b later).2)
  real a there := by
    have among := (mem_ahead.mp (List.mem_of_mem_take (List.mem_of_getLast? last))).2
    rcases List.mem_append.mp there with taken | later
    · obtain ⟨held, behind⟩ := mem_ahead.mp (List.mem_of_mem_take taken)
      exact ⟨within held, behind⟩
    · obtain ⟨held, behind⟩ := reads.real a later
      exact ⟨held, beyond_trans among behind⟩
  complete a held behind := by
    rcases le_or_gt (direction.rank a.2) (direction.rank k.2) with le | gt
    · exact List.mem_append_left _ (mem_take_of_le (ahead_ordered direction start) last
        (mem_ahead.mpr ⟨held, behind⟩) le)
    · exact List.mem_append_right _ (reads.complete a (kept held) (decide_eq_true gt))

theorem walk_from (limitIs : pageLimit limit = .ok n)
    (threadIs : threadOf thread = .ok threadRootId)
    (serves : ∀ db' ∈ db :: later, Serves db' organizationId roomId threadRootId)
    (kept : (db :: later).Pairwise fun a b =>
      keys a organizationId roomId threadRootId ⊆ keys b organizationId roomId threadRootId)
    (within : ∀ db' ∈ db :: later, keys db' organizationId roomId threadRootId ⊆ all)
    (single : all.Nodup) (citable : ∀ k ∈ all, Citable roomId threadRootId k.2)
    (starts : Starts roomId threadRootId direction cursor start)
    (enough : (all.filter fun k => direction.beyond start k.2).length ≤ n * (later.length + 1)) :
    ∃ messages ks,
      walk organizationId roomId limit thread direction (db :: later) cursor = .ok (messages, false) ∧
      messages.map (fun m => (m.id, m.sequence)) =
        (direction.order ks).map (fun k => (k.1, some k.2)) ∧
      Reads direction start db organizationId roomId threadRootId all ks := by
  induction later generalizing db cursor start with
  | nil =>
    obtain ⟨page, is, shows⟩ := listMessagePage_shows limitIs threadIs (serves db List.mem_cons_self)
      starts
    rw [List.length_nil, Nat.zero_add, Nat.mul_one] at enough
    have here := within db List.mem_cons_self
    exact walk_over is shows here ((ahead_le here).trans enough)
  | cons next later ih =>
    obtain ⟨page, is, shows⟩ := listMessagePage_shows limitIs threadIs (serves db List.mem_cons_self)
      starts
    by_cases longer :
        n < (ahead db organizationId roomId threadRootId direction start).length
    · have least := one_le_limit limitIs
      have size :
          0 < ((ahead db organizationId roomId threadRootId direction start).take n).length := by
        rw [List.length_take]
        omega
      have last := List.getLast?_eq_some_getLast (List.ne_nil_of_length_pos size)
      generalize List.getLast _ _ = k at last
      have cursorIs := shows.next
      rw [last] at cursorIs
      have here := within db List.mem_cons_self
      have held := mem_ahead.mp (List.mem_of_mem_take (List.mem_of_getLast? last))
      have shorter := ahead_shorter here single longer last
      rw [List.length_cons, Nat.mul_succ] at enough
      obtain ⟨sub, kept'⟩ := List.pairwise_cons.mp kept
      obtain ⟨rest, ks, read, places, reads⟩ := ih
        (fun db' there => serves db' (List.mem_cons_of_mem _ there)) kept'
        (fun db' there => within db' (List.mem_cons_of_mem _ there))
        (starts_cursor (thread_ne_nil threadIs) (citable k (here held.1))) (by omega)
      refine ⟨_, _, walk_more is (shows.more.trans (decide_eq_true longer)) cursorIs read, ?_,
        reads.more here (sub next List.mem_cons_self) last⟩
      rw [map_joined, places, shows.messages, ← map_joined, ← order_append]
    · exact walk_over is shows (within db List.mem_cons_self) (not_lt.mp longer)

/-- A walk with the cursors that the server gives, from the newest messages back or from a cursor in
either direction, is answered to its end. It reads the messages that were there when it began, each
once and in order, and none from anywhere else, whatever arrives meanwhile. -/
theorem walk_reads (limitIs : pageLimit limit = .ok n)
    (threadIs : threadOf thread = .ok threadRootId)
    (serves : ∀ db' ∈ db :: later, Serves db' organizationId roomId threadRootId)
    (kept : (db :: later).Pairwise fun a b =>
      keys a organizationId roomId threadRootId ⊆ keys b organizationId roomId threadRootId)
    (within : ∀ db' ∈ db :: later, keys db' organizationId roomId threadRootId ⊆ all)
    (single : all.Nodup) (citable : ∀ k ∈ all, Citable roomId threadRootId k.2)
    (starts : Starts roomId threadRootId direction cursor start)
    (enough : all.length ≤ n * (later.length + 1)) :
    ∃ (messages : List (Message ρ)) (ks : List (String × ℕ)),
      walk organizationId roomId limit thread direction (db :: later) cursor = .ok (messages, false) ∧
      messages.map (fun m => (m.id, m.sequence)) = ks.map (fun k => (k.1, some k.2)) ∧
      (ks.Pairwise fun a b => a.2 < b.2) ∧
      (∀ k ∈ ks, k ∈ all ∧ direction.beyond start k.2 = true) ∧
      ∀ k ∈ keys db organizationId roomId threadRootId,
        direction.beyond start k.2 = true → k ∈ ks := by
  obtain ⟨messages, ks, read, places, reads⟩ := walk_from limitIs threadIs serves kept within single
    citable starts ((List.length_filter_le _ _).trans enough)
  refine ⟨messages, direction.order ks, read, places, ?_, ?_, ?_⟩
  · have ordered := reads.ordered
    cases direction with
    | back =>
      exact List.pairwise_reverse.mpr
        (ordered.imp fun lt => Int.ofNat_lt.mp (neg_lt_neg_iff.mp lt))
    | on => exact ordered.imp fun lt => Int.ofNat_lt.mp lt
  · exact fun k there => reads.real k (mem_order.mp there)
  · exact fun k held behind => mem_order.mpr (reads.complete k held behind)

end Walk

def line (id : String) (position : ℕ) : MessageRow Unit :=
  ⟨id, position, "org", "room_1", none, false, "2026-01-01", "", [], ()⟩

def twoLines : Store Unit where
  rooms := [⟨"room_1", "org"⟩]
  messages := [line "m2" 5, line "m1" 3]
  ids := by decide
  positions := by decide

def threeLines : Store Unit where
  rooms := [⟨"room_1", "org"⟩]
  messages := [line "m3" 8, line "m2" 5, line "m1" 3]
  ids := by decide
  positions := by decide

theorem keys_twoLines : keys twoLines "org" "room_1" none = [("m1", 3), ("m2", 5)] := by decide

theorem keys_threeLines : keys threeLines "org" "room_1" none = [("m1", 3), ("m2", 5), ("m3", 8)] := by
  decide

theorem walk_reads_arriving : ∃ (messages : List (Message Unit)) (ks : List (String × ℕ)),
    walk "org" "room_1" (.string (units "1")) .undefined .back [twoLines, threeLines, threeLines]
      .undefined = .ok (messages, false) ∧
    messages.map (fun m => (m.id, m.sequence)) = ks.map (fun k => (k.1, some k.2)) ∧
    ("m1", 3) ∈ ks ∧ ("m2", 5) ∈ ks := by
  have reads := @walk_reads Unit "org" "room_1" (.string (units "1")) .undefined .undefined 1 none
    twoLines [threeLines, threeLines] .back none [("m1", 3), ("m2", 5), ("m3", 8)] rfl rfl
  rw [List.pairwise_cons, List.pairwise_pair] at reads
  simp only [List.mem_cons, List.not_mem_nil, or_false, forall_eq_or_imp, forall_eq, or_self,
    keys_twoLines, keys_threeLines] at reads
  obtain ⟨messages, ks, read, places, -, -, first, second⟩ := reads
    ⟨⟨⟨_, rfl⟩, rfl⟩, ⟨⟨_, rfl⟩, rfl⟩⟩ (by decide) (by decide) (by decide)
    ⟨⟨by decide, by decide, by decide +kernel⟩, ⟨by decide, by decide, by decide +kernel⟩,
      ⟨by decide, by decide, by decide +kernel⟩⟩ ⟨rfl, nofun⟩ (by decide)
  exact ⟨messages, ks, read, places, first rfl, second rfl⟩

end Artoo.Server.MessagePages
