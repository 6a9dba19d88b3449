import Artoo.Server.Ending

/-! The node binding: what a run event frame of a node does to the server, and its receipt. -/
namespace Artoo.Server
open Artoo.Lib Artoo.Protocol Artoo.Domain Tx

inductive AckStatus where
  | accepted | rejected
  deriving DecidableEq, Repr

/-- The `run.event.ack` command. -/
structure RunEventAck where
  runId : String
  sequence : Int
  status : AckStatus
  deriving DecidableEq, Repr

/-- A frame on the binding of a computer, with what its ingest reads and draws. -/
structure Delivery where
  computerId : String
  closed : Bool
  frame : RunEventMessage
  services : Services := {}
  actorUserId : String
  input : Nat → String
  hookInput : Nat → String

def RunEventMessage.key (m : RunEventMessage) : String × String × Int := (m.nodeId, m.runId, m.sequence)

def ownsRun (db : Database) (runId computerId : String) : Bool :=
  (db.runs.get? runId).any (·.computerId == computerId)

/-- The budget hook after the commit; its errors are swallowed. -/
def afterIngest (d : Delivery) (result : IngestResult) (db : Database) : Database :=
  match result.budgetGoalId with
  | some goalId => ((enforceGoalBudget d.services goalId).execute d.hookInput db).2
  | none => db

def Delivery.ack (d : Delivery) (status : AckStatus) : RunEventAck :=
  ⟨d.frame.runId, d.frame.sequence, status⟩

def Delivery.ingest (platform : Platform) (d : Delivery) (db : Database) :
    Except Failure (Option WireIngestResult) × Database :=
  (ingestWireRunEvent ⟨d.actorUserId, platform⟩ d.services d.frame).execute d.input db

/-- The binding takes up the frames of its own node, of runs of this node. -/
def Delivery.received (d : Delivery) (db : Database) : Bool :=
  !d.closed && d.frame.nodeId == d.computerId && ownsRun db d.frame.runId d.computerId

/-- The run event branch of `receive`: the acknowledgements it sends, and the database after it. -/
def receive (platform : Platform) (d : Delivery) (db : Database) : List RunEventAck × Database :=
  if d.received db then
    match d.ingest platform db with
    | (.ok none, db') => ([], db')
    | (.ok (some r), db') =>
      ([d.ack (if r.receiptBodyIdentity != "" then .accepted else .rejected)],
        afterIngest d r.result db')
    | (.error _, db') => ([d.ack .rejected], db')
  else ([], db)

def receiveAll (platform : Platform) (ds : List Delivery) (db : Database) : Database :=
  ds.foldl (fun db d => (receive platform d db).2) db

/-- The delivery applies its frame, rather than to find it applied. -/
def applies (platform : Platform) (d : Delivery) (db : Database) : Bool :=
  d.received db &&
    match (d.ingest platform db).1 with
    | .ok (some r) => !r.result.deduped
    | _ => false

theorem bodyIdentity_ne {platform : Platform} {event : NodeRunEvent} :
    bodyIdentity platform event ≠ "" := by
  intro empty
  have length : (bodyIdentity platform event).length = "".length := by rw [empty]
  unfold bodyIdentity at length
  rw [String.length_append] at length
  have positive : 0 < "run-event-body-v1:sha256:".length := by decide
  simp only [String.length_empty] at length
  omega

theorem ingest_spec {platform : Platform} {d : Delivery} {db : Database} :
    (∃ r, (d.ingest platform db).1 = .ok r ∧
      WireIngested platform d.frame db r (d.ingest platform db).2) ∨
    ((∃ e, (d.ingest platform db).1 = .error e) ∧ (d.ingest platform db).2 = db) := by
  unfold Delivery.ingest
  exact wp_execute (@wp_ingestWireRunEvent ⟨d.actorUserId, platform⟩ d.services d.frame db)

/-- What a delivery does: its acknowledgements, whether it applies its frame, the database. -/
inductive Received (platform : Platform) (d : Delivery) (db : Database) :
    List RunEventAck → Bool → Database → Prop where
  | dropped : d.received db = false → Received platform d db [] false db
  | unmapped : d.received db → runEventMessageValid d.frame → mapRunEvent d.frame = none →
      Received platform d db [] false db
  | rejected : d.received db → (∃ e, (d.ingest platform db).1 = .error e) →
      Received platform d db [d.ack .rejected] false db
  | accepted {env : IngestEnvelope} {result : IngestResult} {db' : Database} :
      d.received db → runEventMessageValid d.frame → mapRunEvent d.frame = some env →
      Ingested env (some (bodyIdentity platform d.frame.event)) db result db' →
      Received platform d db [d.ack .accepted] (!result.deduped) (afterIngest d result db')

theorem receive_spec {platform : Platform} {d : Delivery} {db : Database} :
    Received platform d db (receive platform d db).1 (applies platform d db)
      (receive platform d db).2 := by
  unfold receive applies
  cases received : d.received db with
  | false => exact .dropped received
  | true =>
    rw [if_pos rfl, Bool.true_and]
    rcases ingest_spec with ⟨r, ok, ingested⟩ | ⟨⟨e, error⟩, same⟩
    · generalize outcome : d.ingest platform db = result at ok ingested
      obtain ⟨_, db'⟩ := result
      cases ok
      cases ingested with
      | unmapped valid unmapped => exact .unmapped received valid unmapped
      | mapped valid mapped ingested =>
        dsimp only
        rw [if_pos (by simp [bodyIdentity_ne])]
        exact .accepted received valid mapped ingested
    · have failed := error
      generalize outcome : d.ingest platform db = result at error same
      obtain ⟨_, db'⟩ := result
      cases error
      cases same
      exact .rejected received ⟨e, failed⟩

end Artoo.Server
