import Artoo.Lib.Path
import Artoo.Lib.Table
import Artoo.Protocol.RunEvent

/-! The request-level idempotency of the write endpoints: its two hooks, statement by statement,
among the requests that are served meanwhile. -/
namespace Artoo.Http
open Artoo.Lib Artoo.Protocol

inductive Method where
  | get | head | options | post | put | patch | delete
  deriving DecidableEq

def Method.name : Method → String
  | .get => "GET"
  | .head => "HEAD"
  | .options => "OPTIONS"
  | .post => "POST"
  | .put => "PUT"
  | .patch => "PATCH"
  | .delete => "DELETE"

/-- A header that is sent once, or more than once. -/
inductive HeaderValue where
  | one (value : String)
  | many (values : List String)
  deriving DecidableEq

def headerValue (value : Option HeaderValue) : Option String :=
  let v := match value with
    | none => none
    | some (.one v) => some v
    | some (.many values) => values.head?
  v.filter (· ≠ "")

/-- What a client sends, with the actor of its session. -/
structure Call where
  actor : String
  method : Method
  url : String
  idempotencyKey : Option HeaderValue := none
  body : Option Json := none
  deriving DecidableEq

/-- The organization, the router of the framework and the digest of a JSON text. -/
structure Deployment where
  organizationId : String
  route : Method → String → Option String
  sha256 : Json → String

/-! ## The schema of a message -/

def field (fields : List (String × Json)) (name : String) : Option Json := fields.lookup name

def isString : Json → Bool
  | .str _ => true
  | _ => false

def isObject : Json → Bool
  | .obj _ => true
  | _ => false

def isActorType : Json → Bool
  | .str s => ["user", "agent", "system", "bridge"].contains s
  | _ => false

def isMention : Json → Bool
  | .obj fields =>
    (field fields "actor_type").any isActorType && (field fields "actor_id").any isString
  | _ => false

def isAssignment : Json → Bool
  | .obj fields =>
    (field fields "assignee_type").any isActorType && (field fields "assignee_id").any isString &&
      (field fields "action").all isString
  | _ => false

def isArrayOf (item : Json → Bool) : Json → Bool
  | .arr xs => xs.all item
  | _ => false

/-- `/^[A-Za-z0-9_-]+$/`, of 8 to 128 characters. -/
def isClientRequestId : Json → Bool
  | .str s =>
    8 ≤ s.length && s.length ≤ 128 &&
      s.toList.all fun c => c.isAlphanum || c == '_' || c == '-'
  | _ => false

/-- `SendMessageRequestSchema` accepts the body, and it has a `client_request_id`. -/
def hasClientRequestId : Option Json → Bool
  | some (.obj fields) =>
    (field fields "kind").all isString && (field fields "body").all isString &&
      (field fields "payload").all isObject &&
      (field fields "thread_root_id").all (fun id => isString id && id != .str "") &&
      (field fields "client_request_id").any isClientRequestId &&
      (field fields "mentions").all (isArrayOf isMention) &&
      (field fields "assignments").all (isArrayOf isAssignment)
  | _ => false

/-! ## The hooks -/

structure PendingIdempotency where
  scope : String
  key : String
  requestHash : String
  deriving DecidableEq

structure StoredResponse where
  status : Nat
  body : Json
  deriving DecidableEq

structure IdempotencyKey where
  scope : String
  key : String
  requestHash : String
  responseJson : Option StoredResponse := none
  deriving DecidableEq

def IdempotencyKey.primary (row : IdempotencyKey) : String × String := (row.scope, row.key)

def PendingIdempotency.primary (pending : PendingIdempotency) : String × String :=
  (pending.scope, pending.key)

def PendingIdempotency.row (pending : PendingIdempotency) : IdempotencyKey :=
  { scope := pending.scope, key := pending.key, requestHash := pending.requestHash }

/-- A reply's payload: a string that `JSON.parse` reads, another string, or no string. -/
inductive Payload where
  | json (value : Json)
  | text
  | other
  deriving DecidableEq

inductive Answer where
  | handled (status : Nat) (payload : Payload)
  | replayed (stored : StoredResponse)
  | conflict (message scope key : String)
  deriving DecidableEq

/-- Where a request is: before the insert of its reservation; between a failed insert and the
select; in its handler; with a reply for `onSend`; answered. -/
inductive Phase where
  | arrived
  | taken (pending : PendingIdempotency)
  | running (state : Option PendingIdempotency)
  | replied (answer : Answer) (state : Option PendingIdempotency)
  | sent (answer : Answer)
  deriving DecidableEq

structure Request where
  id : Nat
  call : Call
  phase : Phase := .arrived
  deriving DecidableEq

def exemptPaths : List String := ["/api/v1/devices/pairings", "/api/v1/devices/claim"]

/-- `req.url.split("?")[0]`. -/
def Call.path (c : Call) : String := String.ofList (c.url.toList.takeWhile (· ≠ '?'))

/-- What the hook reserves for a call: nothing without a key, and nothing on the exempt routes. -/
def Deployment.reservation (d : Deployment) (c : Call) : Option PendingIdempotency :=
  if c.method ∉ [.post, .patch, .delete] then none
  else match headerValue c.idempotencyKey with
    | none => none
    | some key =>
      if c.path ∈ exemptPaths then none
      else if c.method = .post ∧
          d.route c.method c.url = some "/api/v1/rooms/:id/assistant-turns" then none
      else if c.method = .post ∧ d.route c.method c.url = some "/api/v1/rooms/:id/messages" ∧
          hasClientRequestId c.body then none
      else some {
        scope := s!"{d.organizationId}:{c.actor}:{c.method.name}:{c.url}"
        key
        requestHash := d.sha256 (c.body.getD .null) }

/-- The requests being served, the table of the reservations, and the requests whose handler has
run. -/
structure Serving where
  requests : Table Request.id := .empty
  nextId : Nat := 0
  keys : Table IdempotencyKey.primary := .empty
  ran : List Nat := []

inductive Event where
  | arrive (call : Call)
  /-- the insert of `preHandler`, which may also fail for another reason than its key -/
  | reserve (id : Nat) (fails : Bool)
  /-- the select after a failed insert -/
  | lookup (id : Nat)
  /-- the handler returns a reply, or throws and the error handler replies -/
  | handle (id : Nat) (status : Nat) (payload : Payload)
  | onSend (id : Nat)
  /-- the process ends: its requests are lost -/
  | crash

/-- The answer of `preHandler` after a failed insert. -/
def existing (row : Option IdempotencyKey) (pending : PendingIdempotency) : Answer :=
  match row with
  | none => .conflict "Idempotency-Key reservation conflicted" pending.scope pending.key
  | some row =>
    if row.requestHash ≠ pending.requestHash then
      .conflict "Idempotency-Key reused with a different request body" pending.scope pending.key
    else match row.responseJson with
      | none => .conflict "Idempotency-Key request is still in progress" pending.scope pending.key
      | some stored => .replayed stored

/-- What `onSend` stores of a reply. -/
def Answer.stored : Answer → Option StoredResponse
  | .handled status (.json body) => if status ≥ 400 then none else some { status, body }
  | _ => none

namespace Serving

def put (w : Serving) (q : Request) (phase : Phase) : Serving :=
  { w with requests := w.requests.put { q with phase } }

def reserve (d : Deployment) (w : Serving) (q : Request) (fails : Bool) : Serving :=
  match d.reservation q.call with
  | none => w.put q (.running none)
  | some pending =>
    if fails ∨ (w.keys.get? pending.primary).isSome then w.put q (.taken pending)
    else { w.put q (.running (some pending)) with keys := w.keys.put pending.row }

/-- The reservation takes the response, or is dropped. -/
def onSend (w : Serving) (q : Request) (answer : Answer) : Option PendingIdempotency → Serving
  | none => w.put q (.sent answer)
  | some pending =>
    let keys := match answer.stored with
      | none => w.keys.remove pending.primary
      | some stored =>
        w.keys.adjust pending.primary fun row => { row with responseJson := some stored }
    { w.put q (.sent answer) with keys }

/-- One event; none where it is not possible. -/
def step (d : Deployment) (w : Serving) : Event → Option Serving
  | .arrive call =>
    some { w with requests := w.requests.put { id := w.nextId, call }, nextId := w.nextId + 1 }
  | .reserve id fails =>
    match w.requests.get? id with
    | some ⟨_, call, .arrived⟩ => some (reserve d w ⟨id, call, .arrived⟩ fails)
    | _ => none
  | .lookup id =>
    match w.requests.get? id with
    | some ⟨_, call, .taken pending⟩ =>
      some (w.put ⟨id, call, .taken pending⟩
        (.replied (existing (w.keys.get? pending.primary) pending) none))
    | _ => none
  | .handle id status payload =>
    match w.requests.get? id with
    | some ⟨_, call, .running state⟩ =>
      some { w.put ⟨id, call, .running state⟩ (.replied (.handled status payload) state) with
        ran := w.ran ++ [id] }
    | _ => none
  | .onSend id =>
    match w.requests.get? id with
    | some ⟨_, call, .replied answer state⟩ =>
      some (w.onSend ⟨id, call, .replied answer state⟩ answer state)
    | _ => none
  | .crash => some { w with requests := .empty }

end Serving

/-! ## What an event keeps -/

/-- What an event does, with the request that it moves. -/
inductive Moves (d : Deployment) (w : Serving) : Serving → Prop where
  | arrive (call : Call) : Moves d w
      { w with requests := w.requests.put { id := w.nextId, call }, nextId := w.nextId + 1 }
  | crash : Moves d w { w with requests := .empty }
  | exempt (q : Request) : q ∈ w.requests → q.phase = .arrived → d.reservation q.call = none →
      Moves d w (w.put q (.running none))
  | taken (q : Request) (pending : PendingIdempotency) : q ∈ w.requests → q.phase = .arrived →
      d.reservation q.call = some pending → Moves d w (w.put q (.taken pending))
  | reserve (q : Request) (pending : PendingIdempotency) : q ∈ w.requests → q.phase = .arrived →
      d.reservation q.call = some pending → w.keys.get? pending.primary = none →
      Moves d w { w.put q (.running (some pending)) with keys := w.keys.put pending.row }
  | lookup (q : Request) (pending : PendingIdempotency) : q ∈ w.requests →
      q.phase = .taken pending →
      Moves d w (w.put q (.replied (existing (w.keys.get? pending.primary) pending) none))
  | handle (q : Request) (status : Nat) (payload : Payload) (state : Option PendingIdempotency) :
      q ∈ w.requests → q.phase = .running state →
      Moves d w { w.put q (.replied (.handled status payload) state) with ran := w.ran ++ [q.id] }
  | onSend (q : Request) (answer : Answer) (state : Option PendingIdempotency) :
      q ∈ w.requests → q.phase = .replied answer state → Moves d w (w.onSend q answer state)

variable {d : Deployment} {w w' : Serving} {q q' : Request}

theorem Serving.step_moves {e : Event} (step : w.step d e = some w') : Moves d w w' := by
  cases e with
  | arrive call =>
    cases step
    exact .arrive call
  | crash =>
    cases step
    exact .crash
  | reserve id fails =>
    simp only [Serving.step] at step
    split at step
    · rename_i found
      have there := Table.mem_of_get? found
      cases Table.key_of_get? found
      cases step
      unfold Serving.reserve
      split
      · rename_i free
        exact .exempt _ there rfl free
      · rename_i pending reserved
        split
        · exact .taken _ pending there rfl reserved
        · rename_i first
          have absent := Option.not_isSome_iff_eq_none.mp fun present => first (Or.inr present)
          exact .reserve _ pending there rfl reserved absent
    · cases step
  | lookup id =>
    simp only [Serving.step] at step
    split at step
    · rename_i found
      have there := Table.mem_of_get? found
      cases Table.key_of_get? found
      cases step
      exact .lookup _ _ there rfl
    · cases step
  | handle id status payload =>
    simp only [Serving.step] at step
    split at step
    · rename_i found
      have there := Table.mem_of_get? found
      cases Table.key_of_get? found
      cases step
      exact .handle _ status payload _ there rfl
    · cases step
  | onSend id =>
    simp only [Serving.step] at step
    split at step
    · rename_i found
      have there := Table.mem_of_get? found
      cases Table.key_of_get? found
      cases step
      exact .onSend _ _ _ there rfl
    · cases step

/-- The reservation that a request holds. -/
def Phase.state : Phase → Option PendingIdempotency
  | .running state => state
  | .replied _ state => state
  | _ => none

/-- A handler runs with the reservation of its call, and no other reply holds one. -/
def Phase.Fits (reservation : Option PendingIdempotency) : Phase → Prop
  | .taken pending => reservation = some pending
  | .running state => reservation = state
  | .replied (.handled _ _) state => reservation = state
  | .replied _ state => state = none
  | _ => True

/-- The reservation of a call whose reply has been stored. -/
def Stored (d : Deployment) (q : Request) (pending : PendingIdempotency) (stored : StoredResponse) :
    Prop :=
  d.reservation q.call = some pending ∧ ∃ answer, q.phase = .sent answer ∧
    answer.stored = some stored

structure Inv (d : Deployment) (w : Serving) : Prop where
  ids : ∀ q ∈ w.requests, q.id < w.nextId
  fits : ∀ q ∈ w.requests, q.phase.Fits (d.reservation q.call)
  held : ∀ q ∈ w.requests, ∀ pending, q.phase.state = some pending →
    w.keys.get? pending.primary = some pending.row
  holder : ∀ q ∈ w.requests, ∀ r ∈ w.requests, ∀ pending pending', q.phase.state = some pending →
    r.phase.state = some pending' → pending.primary = pending'.primary → q = r
  stored : ∀ q ∈ w.requests, ∀ pending stored, Stored d q pending stored →
    w.keys.get? pending.primary = some { pending.row with responseJson := some stored }

/-- Every row stays, but for the reservation that the moved request gives up. -/
def Kept (q q' : Request) (w w' : Serving) : Prop :=
  ∀ k row, w.keys.get? k = some row →
    (∀ pending, q.phase.state = some pending → q'.phase.state = none → pending.primary ≠ k) →
    w'.keys.get? k = some row

theorem Kept.of_eq (keys : w'.keys = w.keys) : Kept q q' w w' := by
  intro k row found _
  rw [keys]
  exact found

/-- A row with a response is no one's reservation. -/
theorem Kept.stays (kept : Kept q q' w w') (h : Inv d w) (member : q ∈ w.requests)
    {k : String × String} {row : IdempotencyKey} (found : w.keys.get? k = some row)
    (answered : row.responseJson ≠ none) : w'.keys.get? k = some row := by
  apply kept k row found
  intro pending holds _ same
  have held := h.held q member pending holds
  rw [same, found] at held
  cases held
  exact answered rfl

theorem Inv.move (h : Inv d w) (member : q ∈ w.requests) (phase : Phase)
    (requests : w'.requests = w.requests.put { q with phase }) (nextId : w'.nextId = w.nextId)
    (kept : Kept q { q with phase } w w') (fits : phase.Fits (d.reservation q.call))
    (held : ∀ pending, phase.state = some pending →
      w'.keys.get? pending.primary = some pending.row)
    (alone : ∀ pending, phase.state = some pending →
      q.phase.state = some pending ∨ w.keys.get? pending.primary = none)
    (stored : ∀ pending stored, Stored d { q with phase } pending stored →
      w'.keys.get? pending.primary = some { pending.row with responseJson := some stored }) :
    Inv d w' := by
  have cases_ : ∀ r ∈ w'.requests, r = { q with phase } ∨ (r ∈ w.requests ∧ r ≠ q) := by
    intro r there
    rw [requests] at there
    rcases Table.mem_put.mp there with is | ⟨old, other⟩
    · exact Or.inl is
    · exact Or.inr ⟨old, fun is => other (is ▸ rfl)⟩
  -- no other request holds the key of a reservation that the moved request holds now
  have apart : ∀ r ∈ w.requests, r ≠ q → ∀ pending pending', phase.state = some pending →
      r.phase.state = some pending' → pending.primary ≠ pending'.primary := by
    intro r there other pending pending' mine theirs same
    rcases alone pending mine with before | free
    · exact other (h.holder q member r there pending pending' before theirs same).symm
    · have taken := h.held r there pending' theirs
      rw [← same, free] at taken
      cases taken
  constructor
  case ids =>
    intro r there
    rw [nextId]
    rcases cases_ r there with rfl | ⟨old, _⟩
    · exact h.ids q member
    · exact h.ids r old
  case fits =>
    intro r there
    rcases cases_ r there with rfl | ⟨old, _⟩
    · exact fits
    · exact h.fits r old
  case held =>
    intro r there pending holds
    rcases cases_ r there with rfl | ⟨old, other⟩
    · exact held pending holds
    · apply kept _ _ (h.held r old pending holds)
      intro mine before _ same
      exact other (h.holder q member r old mine pending before holds same).symm
  case holder =>
    intro r there r' there' pending pending' holds holds' same
    rcases cases_ r there with rfl | ⟨old, other⟩
    · rcases cases_ r' there' with rfl | ⟨old', other'⟩
      · rfl
      · exact absurd same (apart r' old' other' pending pending' holds holds')
    · rcases cases_ r' there' with rfl | ⟨old', _⟩
      · exact absurd same.symm (apart r old other pending' pending holds' holds)
      · exact h.holder r old r' old' pending pending' holds holds' same
  case stored =>
    intro r there pending response of
    rcases cases_ r there with rfl | ⟨old, _⟩
    · exact stored pending response of
    · exact kept.stays h member (h.stored r old pending response of) (Option.some_ne_none _)

theorem inv_empty : Inv d {} := by
  constructor
  all_goals exact fun _ member => nomatch member

theorem Inv.arrive (h : Inv d w) (call : Call) : Inv d
    { w with requests := w.requests.put { id := w.nextId, call }, nextId := w.nextId + 1 } := by
  have cases_ : ∀ r ∈ w.requests.put { id := w.nextId, call },
      r = { id := w.nextId, call } ∨ r ∈ w.requests := by
    intro r there
    rcases Table.mem_put.mp there with is | ⟨old, _⟩
    · exact Or.inl is
    · exact Or.inr old
  constructor
  case ids =>
    intro r there
    rcases cases_ r there with rfl | old
    · exact Nat.lt_succ_self _
    · exact Nat.lt_succ_of_lt (h.ids r old)
  case fits =>
    intro r there
    rcases cases_ r there with rfl | old
    · trivial
    · exact h.fits r old
  case held =>
    intro r there pending holds
    rcases cases_ r there with rfl | old
    · cases holds
    · exact h.held r old pending holds
  case holder =>
    intro r there r' there' pending pending' holds holds' same
    rcases cases_ r there with rfl | old
    · cases holds
    · rcases cases_ r' there' with rfl | old'
      · cases holds'
      · exact h.holder r old r' old' pending pending' holds holds' same
  case stored =>
    intro r there pending stored of
    rcases cases_ r there with rfl | old
    · obtain ⟨_, _, is, _⟩ := of
      cases is
    · exact h.stored r old pending stored of

theorem existing_fits (row : Option IdempotencyKey) (pending : PendingIdempotency)
    {reservation : Option PendingIdempotency} :
    (Phase.replied (existing row pending) none).Fits reservation := by
  unfold existing
  split
  · rfl
  · split
    · rfl
    · split
      · rfl
      · rfl

/-- Only what a handler replied is stored. -/
theorem Phase.Fits.replied {answer : Answer} {state reservation : Option PendingIdempotency}
    {stored : StoredResponse} (h : (Phase.replied answer state).Fits reservation)
    (is : answer.stored = some stored) : reservation = state := by
  cases answer with
  | handled => exact h
  | _ => cases is

theorem keys_onSend (q : Request) (answer : Answer) (pending : PendingIdempotency)
    {k : String × String} (other : pending.primary ≠ k) :
    (w.onSend q answer (some pending)).keys.get? k = w.keys.get? k := by
  unfold Serving.onSend
  cases answer.stored with
  | none => exact Table.get?_remove_other other
  | some stored =>
    have adjusted := Table.get?_adjust (t := w.keys) (k := pending.primary) (j := k)
      (f := fun row => { row with responseJson := some stored }) fun _ => rfl
    rw [if_neg other] at adjusted
    exact adjusted

theorem Inv.onSend (h : Inv d w) (member : q ∈ w.requests) {answer : Answer}
    {state : Option PendingIdempotency} (phase : q.phase = .replied answer state) :
    Inv d (w.onSend q answer state) := by
  have fits := h.fits q member
  rw [phase] at fits
  cases state with
  | none =>
    apply h.move member (.sent answer)
    case requests => rfl
    case nextId => rfl
    case kept => exact Kept.of_eq rfl
    case fits => trivial
    case held => exact fun _ is => nomatch is
    case alone => exact fun _ is => nomatch is
    case stored =>
      rintro pending stored ⟨reserved, _, ⟨⟩, is⟩
      cases reserved.symm.trans (fits.replied is)
  | some own =>
    have holds : q.phase.state = some own := by rw [phase]; rfl
    apply h.move member (.sent answer)
    case requests => rfl
    case nextId => rfl
    case kept =>
      intro k row found gives
      rw [keys_onSend q answer own (gives own holds rfl)]
      exact found
    case fits => trivial
    case held => exact fun _ is => nomatch is
    case alone => exact fun _ is => nomatch is
    case stored =>
      rintro pending stored ⟨reserved, _, ⟨⟩, is⟩
      cases reserved.symm.trans (fits.replied is)
      unfold Serving.onSend
      rw [is]
      exact Table.get?_adjust_self (h.held q member own holds) rfl

/-- A request without a reservation moves on before it is answered. -/
theorem Inv.put (h : Inv d w) (member : q ∈ w.requests) {phase : Phase}
    (fits : phase.Fits (d.reservation q.call)) (free : phase.state = none)
    (answering : ∀ answer, phase ≠ .sent answer) : Inv d (w.put q phase) := by
  apply h.move member phase
  case requests => rfl
  case nextId => rfl
  case kept => exact Kept.of_eq rfl
  case fits => exact fits
  case held =>
    intro _ holds
    cases free.symm.trans holds
  case alone =>
    intro _ holds
    cases free.symm.trans holds
  case stored =>
    rintro _ _ ⟨_, answer, is, _⟩
    exact absurd is (answering answer)

theorem Moves.inv (moves : Moves d w w') (h : Inv d w) : Inv d w' := by
  cases moves with
  | arrive call => exact h.arrive call
  | crash =>
    constructor
    all_goals exact fun _ member => absurd member Table.not_mem_empty
  | exempt q member phase free => exact h.put member free rfl fun _ is => nomatch is
  | taken q pending member phase reserved => exact h.put member reserved rfl fun _ is => nomatch is
  | lookup q pending member phase =>
    exact h.put member (existing_fits _ _) rfl fun _ is => nomatch is
  | reserve q pending member phase reserved free =>
    apply h.move member (.running (some pending))
    case requests => rfl
    case nextId => rfl
    case kept =>
      intro k row found _
      have other : pending.row.primary ≠ k := by
        rintro rfl
        cases free.symm.trans found
      exact (Table.get?_put_other other).trans found
    case fits => exact reserved
    case held =>
      rintro _ ⟨⟩
      exact Table.get?_put_self
    case alone =>
      rintro _ ⟨⟩
      exact Or.inr free
    case stored => rintro _ _ ⟨_, _, ⟨⟩, _⟩
  | handle q status payload state member phase =>
    have fits := h.fits q member
    have held := h.held q member
    rw [phase] at fits held
    apply h.move member (.replied (.handled status payload) state)
    case requests => rfl
    case nextId => rfl
    case kept => exact Kept.of_eq rfl
    case fits => exact fits
    case held => exact held
    case alone =>
      intro _ holds
      rw [phase]
      exact Or.inl holds
    case stored => rintro _ _ ⟨_, _, ⟨⟩, _⟩
  | onSend q answer state member phase => exact h.onSend member phase

/-- A stored response stays. -/
theorem Moves.stays (moves : Moves d w w') (h : Inv d w) {k : String × String}
    {row : IdempotencyKey} (found : w.keys.get? k = some row) (answered : row.responseJson ≠ none) :
    w'.keys.get? k = some row := by
  cases moves with
  | arrive | crash | exempt | taken | lookup | handle => exact found
  | reserve q pending member phase reserved free =>
    have other : pending.row.primary ≠ k := by
      rintro rfl
      cases free.symm.trans found
    exact (Table.get?_put_other other).trans found
  | onSend q answer state member phase =>
    cases state with
    | none => exact found
    | some pending =>
      have held := h.held q member pending (by rw [phase]; rfl)
      rw [keys_onSend q answer pending]
      · exact found
      · rintro rfl
        rw [found] at held
        cases held
        exact answered rfl

/-! ## Later requests -/

/-- The same request once more. -/
def Call.Identical (a b : Call) : Prop :=
  a.actor = b.actor ∧ a.method = b.method ∧ a.url = b.url ∧ a.body = b.body ∧
    headerValue a.idempotencyKey = headerValue b.idempotencyKey

instance (a b : Call) : Decidable (a.Identical b) :=
  inferInstanceAs (Decidable (_ ∧ _))

theorem Call.Identical.reservation {a b : Call} (same : a.Identical b) :
    d.reservation a = d.reservation b := by
  obtain ⟨actor, method, url, body, key⟩ := same
  unfold Deployment.reservation Call.path
  rw [actor, method, url, body, key]

/-- Not answered yet, or answered with the stored response, and in no handler. -/
def Phase.Replays (stored : StoredResponse) : Phase → Prop
  | .arrived | .taken _ => True
  | .running _ => False
  | .replied answer state => answer = .replayed stored ∧ state = none
  | .sent answer => answer = .replayed stored

/-- The response of a call is stored, and replayed to the requests from a number on. -/
structure Replaying (d : Deployment) (call : Call) (n : Nat) (pending : PendingIdempotency)
    (stored : StoredResponse) (w : Serving) : Prop where
  reserved : d.reservation call = some pending
  row : w.keys.get? pending.primary = some { pending.row with responseJson := some stored }
  later : ∀ q ∈ w.requests, n ≤ q.id → q.call.Identical call → q.phase.Replays stored

theorem existing_replays (pending : PendingIdempotency) (stored : StoredResponse) :
    existing (some { pending.row with responseJson := some stored }) pending =
      .replayed stored := by
  unfold existing
  simp [PendingIdempotency.row]

theorem Replaying.moves {call : Call} {n : Nat} {pending : PendingIdempotency}
    {stored : StoredResponse} (h : Replaying d call n pending stored w) (inv : Inv d w)
    (moves : Moves d w w') : Replaying d call n pending stored w' := by
  refine ⟨h.reserved, moves.stays inv h.row (Option.some_ne_none _), ?_⟩
  -- what an event makes of the request that it moves
  have moved : ∀ {q : Request} {phase : Phase}, (n ≤ q.id → q.call.Identical call →
      phase.Replays stored) → ∀ r ∈ w.requests.put { q with phase }, n ≤ r.id →
        r.call.Identical call → r.phase.Replays stored := by
    intro q phase replays r there late same
    rcases Table.mem_put.mp there with rfl | ⟨old, _⟩
    · exact replays late same
    · exact h.later r old late same
  cases moves with
  | arrive call' =>
    intro r there late same
    rcases Table.mem_put.mp there with rfl | ⟨old, _⟩
    · trivial
    · exact h.later r old late same
  | crash => exact fun _ member => absurd member Table.not_mem_empty
  | exempt q member phase free =>
    apply moved
    intro _ same
    rw [same.reservation, h.reserved] at free
    cases free
  | taken q other member phase reserved => exact moved fun _ _ => trivial
  | reserve q other member phase reserved free =>
    apply moved
    intro _ same
    rw [same.reservation, h.reserved] at reserved
    cases reserved
    cases free.symm.trans h.row
  | lookup q other member phase =>
    apply moved
    intro _ same
    have fits := inv.fits q member
    rw [phase, same.reservation, h.reserved] at fits
    cases Option.some_inj.mp fits
    rw [h.row]
    exact ⟨existing_replays pending stored, rfl⟩
  | handle q status payload state member phase =>
    apply moved
    intro late same
    have replays := h.later q member late same
    rw [phase] at replays
    exact replays.elim
  | onSend q answer state member phase =>
    have replays : n ≤ q.id → q.call.Identical call → (Phase.sent answer).Replays stored := by
      intro late same
      have before := h.later q member late same
      rw [phase] at before
      exact before.1
    cases state with
    | none => exact moved replays
    | some own => exact moved replays

abbrev Steps (d : Deployment) : Event → Serving → Serving → Prop :=
  fun e w w' => w.step d e = some w'

/-! One organization, where a task is made ready and a device is paired. -/
namespace Sample

/-- The digest is that of the text `null`. -/
def artoo : Deployment where
  organizationId := "org_1"
  route
    | .post, "/api/v1/tasks/t1/ready" => some "/api/v1/tasks/:id/ready"
    | .delete, "/api/v1/tasks/t1/dependencies/d1" =>
      some "/api/v1/tasks/:id/dependencies/:dependencyId"
    | .post, "/api/v1/devices/pairings" => some "/api/v1/devices/pairings"
    | _, _ => none
  sha256 _ := "74234e98afe7498fb5daf1f36ac2d78acc339464f950703b8c019892f982b90b"

def call (method : Method) (url : String) : Call :=
  { actor := "user_1", method, url, idempotencyKey := some (.one "k-1") }

def ready : Call := call .post "/api/v1/tasks/t1/ready"

def answered (call : Call) (status : Nat) (payload : Payload) : List Event :=
  [.arrive call, .reserve 0 false, .handle 0 status payload, .onSend 0]

def exec (events : List Event) (w : Serving) : Option Serving :=
  Path.exec (fun w e => w.step artoo e) (fun _ _ => True) events w

/-- A later request is answered from the table. -/
def repeated (call : Call) : List Event :=
  [.arrive call, .reserve 1 false, .lookup 1, .onSend 1]

/-- The call is answered, sent again, and its handler runs again. -/
def Reruns (call : Call) (status : Nat) (payload : Payload) : Prop :=
  ((exec (answered call status payload ++
    [.arrive call, .reserve 1 false, .handle 1 status payload]) {}).map (·.ran)) = some [0, 1]

theorem exec_steps {events : List Event} (h : exec events w = some w') :
    Path (Steps artoo) events w w' :=
  (Path.of_exec h).mono fun _ _ _ step => step.1

end Sample

open Sample

end Artoo.Http
