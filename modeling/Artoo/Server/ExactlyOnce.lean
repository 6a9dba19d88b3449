import Artoo.Server.Answers
import Artoo.Server.Attested
import Artoo.Server.Body

/-! Repeated deliveries: a frame takes effect once, and is answered by what was stored first. -/
namespace Artoo.Server
open Artoo.Lib Artoo.Protocol Artoo.Domain Tx

section Repeated

variable {platform : Platform} {d : Delivery} {f : RunEventMessage} {env : IngestEnvelope}
  {existing : IngestRow} {db : Database}

theorem mapRunEvent_eq_some {m : RunEventMessage} (mapped : mapRunEvent m = some env) :
    env.runId = m.runId ∧ env.nodeId = m.nodeId ∧ env.sequence = m.sequence := by
  unfold mapRunEvent at mapped
  obtain ⟨event, _, rfl⟩ := Option.map_eq_some_iff.mp mapped
  exact ⟨rfl, rfl, rfl⟩

theorem mapRunEvent_key {m : RunEventMessage} (mapped : mapRunEvent m = some env) :
    env.key = m.key := by
  obtain ⟨run, node, sequence⟩ := mapRunEvent_eq_some mapped
  unfold IngestEnvelope.key RunEventMessage.key
  rw [run, node, sequence]

/-- The run of an ingest with its reads, up to the receipt. -/
theorem run_ingest {ctx : Context} {services : Services} {identity : Option String}
    {input : Nat → String} {n : Nat} {run : RunRow} {task : TaskRow}
    (reads : Reads env identity db run task) (stored : db.ingests.get? env.key = some existing) :
    ∃ now retained, Tx.run input (ingestRunEventInternal ctx services env identity) n db =
      Tx.run input (checkReceipt ctx ⟨env, run, task, now⟩ identity retained existing >>= fun _ =>
        .done ⟨true, run.status, task.status, none⟩) (n + 1) db := by
  have range : (!(decide (0 ≤ env.sequence) && decide (env.sequence ≤ maxSequence))) = false := by
    simp [reads.range]
  have owner : (identity.isSome && env.nodeId != run.computerId) = false := by
    cases identity with
    | none => rfl
    | some identity => simp [reads.owner rfl]
  have locked : (db.runs.get? env.runId).toList.head? = some run := by rw [reads.foundRun]; rfl
  obtain ⟨retained, reported⟩ := reads.retention
  refine ⟨input n, retained, ?_⟩
  unfold ingestRunEventInternal
  rw [run_seq (run_throwIf range), run_bind]
  change Tx.run input (_ >>= _) (n + 1) db = _
  rw [run_bind]
  change Tx.run input (_ >>= _) (n + 1) db = _
  rw [run_seq (run_orThrow locked), run_seq (run_throwIf owner), run_select,
    run_seq (run_orThrow reads.foundTask), reported, done_bind, run_select]
  unfold IngestEnvelope.key at stored
  rw [stored]
  rfl

/-- The receipt check of a wire frame goes by the identity of its body. -/
theorem run_checkReceipt {ctx : Context} {s : IngestScope} {identity : String}
    {retained : Option StoredWorkspaceRetained} {input : Nat → String} {n : Nat} :
    (existing.bodyIdentity = some identity ∧
      Tx.run input (checkReceipt ctx s (some identity) retained existing) n db = .ok ((), db, n)) ∨
    (existing.bodyIdentity ≠ some identity ∧ ∃ message,
      Tx.run input (checkReceipt ctx s (some identity) retained existing) n db =
        .error (.app (.conflict message))) := by
  unfold checkReceipt
  cases named : existing.bodyIdentity with
  | none => exact Or.inr ⟨by simp, _, rfl⟩
  | some stored =>
    dsimp only
    cases differs : stored != identity with
    | false => exact Or.inl ⟨by simpa using differs, run_throwIf rfl⟩
    | true => exact Or.inr ⟨by simpa using differs, _, rfl⟩

/-- The ingest of a mapped frame whose key is stored: agreement, or a conflict. -/
theorem ingest_repeated {run : RunRow} {task : TaskRow} (valid : runEventMessageValid d.frame)
    (mapped : mapRunEvent d.frame = some env)
    (reads : Reads env (some (bodyIdentity platform d.frame.event)) db run task)
    (stored : db.ingests.get? d.frame.key = some existing) :
    (existing.bodyIdentity = some (bodyIdentity platform d.frame.event) ∧ ∃ r, d.ingest platform db =
        (.ok (some ⟨r, bodyIdentity platform d.frame.event⟩), db)) ∨
    (existing.bodyIdentity ≠ some (bodyIdentity platform d.frame.event) ∧ ∃ message,
      d.ingest platform db = (.error (.app (.conflict message)), db)) := by
  have qualified : qualifyRunEventMessage platform d.frame =
      some (d.frame, bodyIdentity platform d.frame.event) := if_pos valid
  rw [← mapRunEvent_key mapped] at stored
  obtain ⟨now, retained, checked⟩ :=
    @run_ingest _ _ _ ⟨d.actorUserId, platform⟩ d.services _ d.input 0 _ _ reads stored
  unfold Delivery.ingest ingestWireRunEvent execute
  rw [run_seq (run_orThrow qualified)]
  dsimp only
  rw [mapped]
  dsimp only
  rw [run_bind, checked]
  rcases @run_checkReceipt existing db ⟨d.actorUserId, platform⟩ ⟨env, run, task, now⟩
    (bodyIdentity platform d.frame.event) retained d.input 1 with ⟨same, ok⟩ | ⟨other, m, error⟩
  · rw [run_seq ok]
    exact Or.inl ⟨same, _, rfl⟩
  · rw [run_bind, error]
    exact Or.inr ⟨other, m, rfl⟩

theorem frame_range {m : RunEventMessage} (valid : runEventMessageValid m) :
    0 ≤ m.sequence ∧ m.sequence ≤ maxSequence := by
  unfold runEventMessageValid at valid
  simp only [Bool.and_eq_true, decide_eq_true_eq] at valid
  exact ⟨valid.1.1.2, valid.1.2⟩

/-- A frame with the key and the body of an attested one passes the checks of its ingest. -/
theorem Attests.reads {m : RunEventMessage} {identity : Option String}
    (h : Attests platform f env db existing) (key : existing.key = m.key)
    (body : SameBody f.event m.event) :
    runEventMessageValid m ∧ ∃ env', mapRunEvent m = some env' ∧
      ∃ run task, Reads env' identity db run task := by
  obtain ⟨run, foundRun, owner, ⟨task, foundTask⟩, retention⟩ := h.owned
  have keys : f.key = m.key := by rw [← mapRunEvent_key h.mapped, h.key, key]
  unfold RunEventMessage.key at keys
  obtain ⟨node, run', sequence⟩ : f.nodeId = m.nodeId ∧ f.runId = m.runId ∧ f.sequence = m.sequence := by
    simpa using keys
  have range := frame_range h.valid
  have ofFrame := mapRunEvent_eq_some h.mapped
  rcases body.same with same | ⟨first, second⟩
  · have frames : f = m := by
      cases f
      cases m
      cases node
      cases run'
      cases sequence
      cases same
      rfl
    cases frames
    exact ⟨h.valid, env, h.mapped, run, task, foundRun, foundTask, fun _ => owner,
      by rw [ofFrame.2.2]; exact range, retention⟩
  · obtain ⟨nodeId, runId, sequence', event⟩ := m
    cases event with
    | artifact payload =>
      cases node
      cases run'
      cases sequence
      have valid : runEventMessageValid ⟨f.nodeId, f.runId, f.sequence, .artifact payload⟩ := by
        have valid := h.valid
        unfold runEventMessageValid at valid ⊢
        rw [Bool.and_eq_true] at valid ⊢
        exact ⟨valid.1, rfl⟩
      refine ⟨valid, _, rfl, run, task, ofFrame.1 ▸ foundRun, foundTask, fun _ => ?_, range, none, rfl⟩
      rw [← owner, ofFrame.2.1]
    | _ => cases second

end Repeated

section Deliveries

variable {platform : Platform} {d : Delivery} {db : Database} {key : String × String × Int}

/-- What one delivery does: nothing, or the effects of its frame and the receipt of its key. -/
inductive Outcome (platform : Platform) (d : Delivery) (db : Database) :
    List RunEventAck → Bool → Database → Prop where
  | unchanged {acks : List RunEventAck} :
      (d.ack .accepted ∈ acks → ∃ receipt, db.ingests.get? d.frame.key = some receipt ∧
        receipt.bodyIdentity = some (bodyIdentity platform d.frame.event)) →
      Outcome platform d db acks false db
  | applied {receipt : IngestRow} {db' : Database} : db.ingests.get? d.frame.key = none →
      db'.ingests = db.ingests.put receipt → receipt.key = d.frame.key →
      receipt.bodyIdentity = some (bodyIdentity platform d.frame.event) →
      Outcome platform d db [d.ack .accepted] true db'

theorem afterIngest_ingests {result : IngestResult} :
    (afterIngest d result db).ingests = db.ingests := by
  unfold afterIngest
  cases result.budgetGoalId with
  | none => rfl
  | some goalId =>
    have kept : Keeps (Quiet silent) (enforceGoalBudget d.services goalId) := keeps_enforceGoalBudget
    exact (keeps_execute kept).ingests

theorem receive_outcome : Outcome platform d db (receive platform d db).1 (applies platform d db)
    (receive platform d db).2 := by
  have spec := @receive_spec platform d db
  generalize (receive platform d db).1 = acks at spec
  generalize applies platform d db = fresh at spec
  generalize (receive platform d db).2 = db' at spec
  cases spec with
  | dropped | unmapped => exact .unchanged fun accepted => nomatch accepted
  | rejected => exact .unchanged fun accepted => by simp [Delivery.ack] at accepted
  | @accepted env result mid received valid mapped ingested =>
    cases ingested with
    | repeated reads stored same deduped unbudgeted =>
      have unchanged : afterIngest d result db = db := by
        unfold afterIngest
        rw [unbudgeted]
      rw [unchanged, deduped]
      rw [mapRunEvent_key mapped] at stored
      exact .unchanged fun _ => ⟨_, stored, same _ rfl⟩
    | @first run task receipt _ applied reads fresh applies keyed bodied deduped =>
      rw [deduped]
      rw [mapRunEvent_key mapped] at fresh keyed
      refine .applied fresh ?_ keyed bodied
      rw [afterIngest_ingests, ← applies.ingests]

def stored (key : String × String × Int) (db : Database) : Nat :=
  if (db.ingests.get? key).isSome then 1 else 0

/-- How often the frames of a key are applied. -/
def timesApplied (platform : Platform) (key : String × String × Int) : List Delivery → Database → Nat
  | [], _ => 0
  | d :: ds, db =>
    (if applies platform d db && d.frame.key == key then 1 else 0) +
      timesApplied platform key ds (receive platform d db).2

theorem stored_receive : stored key (receive platform d db).2 =
    stored key db + if applies platform d db && d.frame.key == key then 1 else 0 := by
  have outcome := @receive_outcome platform d db
  generalize (receive platform d db).1 = acks at outcome
  generalize applies platform d db = applied at outcome
  generalize (receive platform d db).2 = db' at outcome
  cases outcome with
  | unchanged => simp
  | @applied receipt db' fresh ingests keyed =>
    unfold stored
    rw [ingests, Table.get?_put, keyed]
    by_cases hit : d.frame.key = key
    · rw [← hit, fresh]
      simp
    · simp [hit]

/-- A key is applied as often as its receipt appears. -/
theorem stored_receiveAll {ds : List Delivery} : stored key (receiveAll platform ds db) =
    stored key db + timesApplied platform key ds db := by
  induction ds generalizing db with
  | nil => rfl
  | cons d ds ih =>
    change stored key (receiveAll platform ds (receive platform d db).2) = _
    rw [ih, stored_receive, timesApplied]
    omega

/-- A repeated key changes nothing, whatever its frame says. -/
theorem receive_repeated (there : stored d.frame.key db = 1) : (receive platform d db).2 = db := by
  have outcome := @receive_outcome platform d db
  generalize (receive platform d db).1 = acks at outcome
  generalize applies platform d db = applied at outcome
  generalize (receive platform d db).2 = db' at outcome
  cases outcome with
  | unchanged => rfl
  | applied fresh =>
    unfold stored at there
    rw [fresh] at there
    cases there

/-- The deliveries without those whose key was acknowledged as accepted before. -/
def withoutRepeats (platform : Platform) (seen : List (String × String × Int)) :
    List Delivery → Database → List Delivery
  | [], _ => []
  | d :: ds, db =>
    let rest := withoutRepeats platform
      (if d.ack .accepted ∈ (receive platform d db).1 then d.frame.key :: seen else seen) ds
      (receive platform d db).2
    if d.frame.key ∈ seen then rest else d :: rest

theorem stored_accepted (accepted : d.ack .accepted ∈ (receive platform d db).1) :
    ∃ receipt, (receive platform d db).2.ingests.get? d.frame.key = some receipt ∧
      receipt.bodyIdentity = some (bodyIdentity platform d.frame.event) := by
  have outcome := @receive_outcome platform d db
  generalize (receive platform d db).1 = acks at outcome accepted
  generalize applies platform d db = applied at outcome
  generalize (receive platform d db).2 = db' at outcome
  cases outcome with
  | unchanged agreed => exact agreed accepted
  | @applied receipt _ fresh ingests keyed bodied =>
    refine ⟨receipt, ?_, bodied⟩
    rw [ingests, ← keyed, Table.get?_put_self]

theorem receiveAll_withoutRepeats {ds : List Delivery} {seen : List (String × String × Int)}
    (known : ∀ key ∈ seen, stored key db = 1) :
    receiveAll platform (withoutRepeats platform seen ds db) db = receiveAll platform ds db := by
  induction ds generalizing db seen with
  | nil => rfl
  | cons d ds ih =>
    have kept : ∀ key ∈ seen, stored key (receive platform d db).2 = 1 := by
      intro key member
      have grown := @stored_receive platform d db key
      have most : stored key (receive platform d db).2 ≤ 1 := by
        unfold stored
        split <;> omega
      rw [known key member] at grown
      omega
    have next : ∀ key ∈ (if d.ack .accepted ∈ (receive platform d db).1 then d.frame.key :: seen
        else seen), stored key (receive platform d db).2 = 1 := by
      intro key member
      split at member
      · rename_i accepted
        rcases List.mem_cons.mp member with rfl | old
        · obtain ⟨receipt, found, _⟩ := stored_accepted accepted
          simp [stored, found]
        · exact kept key old
      · exact kept key member
    unfold withoutRepeats
    dsimp only
    split
    · rename_i repeated
      have unchanged := @receive_repeated platform d db (known _ repeated)
      rw [unchanged] at next ⊢
      rw [ih next]
      change _ = receiveAll platform ds (receive platform d db).2
      rw [unchanged]
    · exact ih next

/-! ## A delivery is a path of the server -/

theorem execute_discard {α : Type} {p : Txn α} {input : Nat → String} :
    ((do let _ ← p : Txn Unit).execute input db).2 = (p.execute input db).2 := by
  unfold execute
  rw [run_bind]
  cases Tx.run input p 0 db <;> rfl

theorem path_ingest : Path (Step platform)
    [⟨.ingestWireRunEvent d.services d.frame, d.actorUserId, d.input⟩] db (d.ingest platform db).2 := by
  apply Path.single
  unfold Step Request.run Op.program Delivery.ingest
  exact execute_discard

theorem path_afterIngest {result : IngestResult} :
    ∃ requests, Path (Step platform) requests db (afterIngest d result db) ∧ frames requests = [] := by
  unfold afterIngest
  cases result.budgetGoalId with
  | none => exact ⟨[], .nil db, rfl⟩
  | some goalId =>
    exact ⟨[⟨.enforceGoalBudget d.services goalId, d.actorUserId, d.hookInput⟩], .single rfl, rfl⟩

theorem path_receive : ∃ requests, Path (Step platform) requests db (receive platform d db).2 ∧
    frames requests ⊆ [d.frame] := by
  unfold receive
  split
  · have ingest := @path_ingest platform d db
    have named : frames [⟨.ingestWireRunEvent d.services d.frame, d.actorUserId, d.input⟩] ⊆
        [d.frame] := List.Subset.refl _
    generalize d.ingest platform db = outcome at ingest
    obtain ⟨result, mid⟩ := outcome
    cases result with
    | error e => exact ⟨_, ingest, named⟩
    | ok result =>
      cases result with
      | none => exact ⟨_, ingest, named⟩
      | some r =>
        obtain ⟨after, path, quiet⟩ := @path_afterIngest platform d mid r.result
        refine ⟨_, ingest.append path, ?_⟩
        unfold frames at quiet named ⊢
        rw [List.filterMap_append, quiet, List.append_nil]
        exact named
  · exact ⟨[], .nil db, List.nil_subset _⟩

theorem path_receiveAll {ds : List Delivery} : ∃ requests,
    Path (Step platform) requests db (receiveAll platform ds db) ∧
      frames requests ⊆ ds.map Delivery.frame := by
  induction ds generalizing db with
  | nil => exact ⟨[], .nil db, List.nil_subset _⟩
  | cons d ds ih =>
    obtain ⟨first, path, named⟩ := @path_receive platform d db
    obtain ⟨rest, later, others⟩ := @ih (receive platform d db).2
    refine ⟨first ++ rest, path.append later, ?_⟩
    unfold frames at named others ⊢
    rw [List.filterMap_append, List.map_cons]
    intro f member
    rcases List.mem_append.mp member with old | new
    · exact List.mem_cons.mpr (Or.inl (List.mem_singleton.mp (named old)))
    · exact List.mem_cons_of_mem _ (others new)

theorem attested_receiveAll {requests : List Request} {ds : List Delivery}
    (reached : Path (Step platform) requests .empty db) :
    Attested platform (frames requests ++ ds.map Delivery.frame) (receiveAll platform ds db) := by
  obtain ⟨more, path, named⟩ := @path_receiveAll platform db ds
  have initial : Attested platform [] Database.empty := by
    intro receipt member
    exact absurd member Table.not_mem_empty
  have all := attested_path (reached.append path) initial
  intro receipt member wire
  obtain ⟨f, there, attests⟩ := all receipt member wire
  refine ⟨f, ?_, attests⟩
  unfold frames at there named ⊢
  rw [List.nil_append, List.filterMap_append] at there
  rcases List.mem_append.mp there with old | new
  · exact List.mem_append_left _ old
  · exact List.mem_append_right _ (named new)

theorem receiveAll_stored {ds : List Delivery} (there : stored key db = 1) :
    stored key (receiveAll platform ds db) = 1 := by
  have grown := @stored_receiveAll platform db key ds
  have most : stored key (receiveAll platform ds db) ≤ 1 := by
    unfold stored
    split <;> omega
  omega

/-- No two bodies of the frames share a digest. -/
def CollisionFree (platform : Platform) (fs : List RunEventMessage) : Prop :=
  ∀ f ∈ fs, ∀ g ∈ fs, platform.sha256 (canonicalJson (eventJson f.event)) =
    platform.sha256 (canonicalJson (eventJson g.event)) → SameBody f.event g.event

theorem CollisionFree.sameBody {fs : List RunEventMessage} {f g : RunEventMessage}
    (h : CollisionFree platform fs) (hf : f ∈ fs) (hg : g ∈ fs)
    (same : bodyIdentity platform f.event = bodyIdentity platform g.event) :
    SameBody f.event g.event := by
  unfold bodyIdentity at same
  exact h f hf g hg (by simpa using same)

/-- The effects of a frame were applied once, in the list or before it, and with its body. -/
structure AppliedOnce (platform : Platform) (d : Delivery) (ds : List Delivery)
    (db next : Database) : Prop where
  body : ∃ receipt, next.ingests.get? d.frame.key = some receipt ∧
    receipt.bodyIdentity = some (bodyIdentity platform d.frame.event)
  once : stored d.frame.key db + timesApplied platform d.frame.key ds db = 1

/-- The key of the frame is stored, with a body of none of the frames but other ones. -/
def Contradicts (platform : Platform) (fs : List RunEventMessage) (d : Delivery)
    (db : Database) : Prop :=
  ∃ receipt, db.ingests.get? d.frame.key = some receipt ∧
    ∀ f ∈ fs, receipt.bodyIdentity = some (bodyIdentity platform f.event) →
      ¬ SameBody f.event d.frame.event

/-- The answer to a frame that is refused: none for one outside the core loop. -/
def refusal (d : Delivery) (db : Database) : List RunEventAck :=
  if d.received db && !(runEventMessageValid d.frame && outsideCore d.frame.event) then
    [d.ack .rejected]
  else []

theorem Contradicts.identity {fs gs : List RunEventMessage} (h : Contradicts platform fs d db)
    (attested : Attested platform fs db) (collisionFree : CollisionFree platform gs)
    (known : fs ⊆ gs) (here : d.frame ∈ gs) : ∃ receipt,
    db.ingests.get? d.frame.key = some receipt ∧
      receipt.bodyIdentity ≠ some (bodyIdentity platform d.frame.event) := by
  obtain ⟨receipt, there, other⟩ := h
  refine ⟨receipt, there, fun same => ?_⟩
  obtain ⟨f, member, env, attests⟩ := attested receipt (Table.mem_of_get? there) (by simp [same])
  apply other f member attests.identity
  apply collisionFree.sameBody (known member) here
  rw [attests.identity] at same
  exact Option.some.inj same

/-- A frame with another identity than the stored one is refused. -/
theorem receive_refused {receipt : IngestRow} (there : db.ingests.get? d.frame.key = some receipt)
    (other : receipt.bodyIdentity ≠ some (bodyIdentity platform d.frame.event)) :
    receive platform d db = (refusal d db, db) := by
  have unchanged : (receive platform d db).2 = db := receive_repeated (by simp [stored, there])
  have acks : (receive platform d db).1 = refusal d db := by
    have agreed : d.ack .accepted ∉ (receive platform d db).1 := by
      intro accepted
      obtain ⟨found, is, same⟩ := stored_accepted accepted
      rw [unchanged, there] at is
      cases is
      exact other same
    cases received : d.received db with
    | false => simp [receive, refusal, received]
    | true =>
      cases core : runEventMessageValid d.frame && outsideCore d.frame.event with
      | true =>
        rw [Bool.and_eq_true] at core
        rw [unanswered core.1 (mapRunEvent_eq_none.mpr core.2)]
        simp [refusal, core]
      | false =>
        have reached : runEventMessageValid d.frame = false ∨ mapRunEvent d.frame ≠ none := by
          rw [ne_eq, mapRunEvent_eq_none, Bool.not_eq_true]
          exact Bool.and_eq_false_iff.mp core
        obtain ⟨status, answer⟩ := @answered platform d db received reached
        cases status with
        | accepted => exact absurd (by rw [answer]; exact List.mem_singleton.mpr rfl) agreed
        | rejected => simp [answer, refusal, received, core]
  exact Prod.ext acks unchanged

/-- A frame with the key and the body of a stored one is accepted. -/
theorem receive_agreed {fs : List RunEventMessage} {receipt : IngestRow}
    (received : d.received db) (attested : Attested platform fs db)
    (collisionFree : CollisionFree platform (fs ++ [d.frame]))
    (there : db.ingests.get? d.frame.key = some receipt)
    (same : receipt.bodyIdentity = some (bodyIdentity platform d.frame.event)) :
    (receive platform d db).1 = [d.ack .accepted] := by
  obtain ⟨f, member, env, attests⟩ := attested receipt (Table.mem_of_get? there) (by simp [same])
  have identities := attests.identity
  rw [same] at identities
  have body : SameBody f.event d.frame.event :=
    collisionFree.sameBody (List.mem_append_left _ member)
      (List.mem_append_right _ (List.mem_singleton.mpr rfl)) (Option.some.inj identities).symm
  obtain ⟨valid, env', mapped, run, task, reads⟩ := attests.reads (Table.key_of_get? there) body
  rcases ingest_repeated valid mapped reads there with ⟨_, r, ingested⟩ | ⟨other, _⟩
  · unfold receive
    rw [if_pos received, ingested]
    simp [bodyIdentity_ne]
  · exact absurd same other

/-- How the server treats one delivery of a list. -/
structure Treated (platform : Platform) (fs : List RunEventMessage) (d : Delivery)
    (ds : List Delivery) (db mid : Database) : Prop where
  accepted : d.ack .accepted ∈ (receive platform d mid).1 ↔
    d.received mid = true ∧ AppliedOnce platform d ds db (receive platform d mid).2
  contradicted : Contradicts platform fs d mid → receive platform d mid = (refusal d mid, mid)
  /-- Past the other checks of the ingest, the refusal is for the conflict. -/
  conflict : Contradicts platform fs d mid → ∀ env run task, runEventMessageValid d.frame →
    mapRunEvent d.frame = some env →
    Reads env (some (bodyIdentity platform d.frame.event)) mid run task →
    ∃ message, (d.ingest platform mid).1 = .error (.app (.conflict message))
  thrown : (∃ e, (d.ingest platform mid).1 = .error e) → (receive platform d mid).2 = mid

theorem received_of_ack {status : AckStatus} (answer : d.ack status ∈ (receive platform d db).1) :
    d.received db = true := by
  cases received : d.received db with
  | true => rfl
  | false =>
    unfold receive at answer
    rw [if_neg (by simp [received])] at answer
    cases answer

theorem receive_thrown (thrown : ∃ e, (d.ingest platform db).1 = .error e) :
    (receive platform d db).2 = db := by
  obtain ⟨e, error⟩ := thrown
  rcases ingest_spec with ⟨r, ok, _⟩ | ⟨_, same⟩
  · rw [ok] at error
    cases error
  · unfold receive
    generalize d.ingest platform db = outcome at error same
    obtain ⟨result, db'⟩ := outcome
    cases error
    cases same
    split <;> rfl

theorem exactly_once {requests : List Request} {ds : List Delivery}
    (reached : Path (Step platform) requests .empty db)
    (collisionFree : CollisionFree platform (frames requests ++ ds.map Delivery.frame)) :
    receiveAll platform (withoutRepeats platform (db.ingests.rows.map IngestRow.key) ds db) db =
        receiveAll platform ds db ∧
      ∀ before d after, ds = before ++ d :: after →
        Treated platform (frames requests ++ before.map Delivery.frame) d ds db
          (receiveAll platform before db) := by
  constructor
  · apply receiveAll_withoutRepeats
    intro key member
    obtain ⟨receipt, there, rfl⟩ := List.mem_map.mp member
    have found : db.ingests.get? receipt.key = some receipt := Table.get?_of_mem there
    simp [stored, found]
  · rintro before d after rfl
    have attested := @attested_receiveAll platform db requests before reached
    generalize middle : receiveAll platform before db = mid at attested
    have all : receiveAll platform (before ++ d :: after) db =
        receiveAll platform after (receive platform d mid).2 := by
      rw [← middle]
      exact List.foldl_append
    have known : frames requests ++ before.map Delivery.frame ⊆
        frames requests ++ (before ++ d :: after).map Delivery.frame := by
      rw [List.map_append, ← List.append_assoc]
      exact List.subset_append_left _ _
    have here : d.frame ∈ frames requests ++ (before ++ d :: after).map Delivery.frame := by simp
    refine ⟨⟨?_, ?_⟩, ?_, ?_, receive_thrown⟩
    · intro accepted
      obtain ⟨receipt, there, same⟩ := stored_accepted accepted
      refine ⟨received_of_ack accepted, ⟨receipt, there, same⟩, ?_⟩
      rw [← stored_receiveAll, all]
      exact receiveAll_stored (by simp [stored, there])
    · rintro ⟨received, applied⟩
      obtain ⟨receipt, there, same⟩ := applied.body
      cases found : mid.ingests.get? d.frame.key with
      | none =>
        have outcome := @receive_outcome platform d mid
        generalize (receive platform d mid).1 = acks at outcome
        generalize applies platform d mid = fresh at outcome
        generalize (receive platform d mid).2 = next at outcome there
        cases outcome with
        | unchanged =>
          rw [found] at there
          cases there
        | applied => exact List.mem_singleton.mpr rfl
      | some old =>
        rw [@receive_repeated platform d mid (by simp [stored, found])] at there
        rw [receive_agreed received attested _ there same]
        · exact List.mem_singleton.mpr rfl
        · have within : frames requests ++ before.map Delivery.frame ++ [d.frame] ⊆
              frames requests ++ (before ++ d :: after).map Delivery.frame :=
            List.append_subset.mpr ⟨known, List.cons_subset.mpr ⟨here, List.nil_subset _⟩⟩
          intro f hf g hg
          exact collisionFree f (within hf) g (within hg)
    · intro contradicts
      obtain ⟨receipt, there, other⟩ := contradicts.identity attested collisionFree known here
      exact receive_refused there other
    · intro contradicts env run task valid mapped reads
      obtain ⟨receipt, there, other⟩ := contradicts.identity attested collisionFree known here
      rcases ingest_repeated valid mapped reads there with ⟨same, _⟩ | ⟨_, message, refused⟩
      · exact absurd same other
      · exact ⟨message, by rw [refused]⟩

end Deliveries

/-! ## Frames of a running run -/

theorem mergeSort_pair {α : Type} {le : α → α → Bool} {a b : α} :
    [a, b].mergeSort le = if le a b then [a, b] else [b, a] := by
  simp [List.mergeSort, List.MergeSort.Internal.splitInTwo, List.cons_merge_cons]

theorem canonicalJson_pair {k l : String} {v w : Json} : canonicalJson (.obj [(k, v), (l, w)]) =
    .obj (if unitsLe (utf16Units k) (utf16Units l) then
      [(k, canonicalJson v), (l, canonicalJson w)]
    else [(l, canonicalJson w), (k, canonicalJson v)]) := by
  simp only [canonicalJson, canonicalFields, mergeSort_pair]

namespace Sample

def stdoutBody (text : String) : Json :=
  .obj [("payload", .obj [("stream", .str "stdout"), ("text", .str text)]),
    ("type", .str "run.output")]

def pausedBody : Json :=
  .obj [("payload", .obj [("phase", .str "paused")]), ("type", .str "run.lifecycle")]

/-- The sample runtime with the digests of three bodies. -/
def hashing : Platform :=
  { platform with
    sha256 := fun body =>
      if body = stdoutBody "a" then
        "9b6a98bbdb7aa26e351fa4701b9217a7050107cbe1d28ee87a205d306a1c84c7"
      else if body = stdoutBody "b" then
        "8133220cab62b7ad66785c4c088e2a2027fbd38e3f1232af7f30eb06dc42dc70"
      else if body = pausedBody then
        "ffa8b56189b1001ab3997d1190febeb47ae99d97817d679fb04c35997f156c56"
      else platform.sha256 body }

def wire (sequence : Int) (event : NodeRunEvent) (eventId : String) : Delivery :=
  { computerId := "node1", closed := false, frame := ⟨"node1", "run", sequence, event⟩,
    actorUserId := "u1", input := fun n => [clock, eventId].getD n clock,
    hookInput := fun _ => clock }

def started : List Request := [create, ready, assign "run" "e4", report "run" 100 .started "e5"]

def paused : NodeRunEvent := .lifecycle ⟨.paused, .absent⟩

theorem canonicalJson_stdout {text : String} :
    canonicalJson (eventJson (.output .stdout text)) = stdoutBody text := by
  unfold eventJson
  rw [canonicalJson_pair, if_neg (by decide)]
  unfold eventPayload
  rw [canonicalJson_pair, if_pos (by decide)]
  rfl

theorem canonicalJson_paused : canonicalJson (eventJson paused) = pausedBody := by
  unfold eventJson
  rw [canonicalJson_pair, if_neg (by decide)]
  simp [paused, eventPayload, nullishField, canonicalJson, canonicalFields, lifecyclePhaseName,
    pausedBody]

/-- The frames of an output, its repetition, another body on its sequence, and the next one. -/
def outputs : List Delivery :=
  [wire 1 (.output .stdout "a") "o1", wire 1 (.output .stdout "a") "o2",
    wire 1 (.output .stdout "b") "o3", wire 2 (.output .stdout "b") "o4"]

theorem collisionFree_pair {platform : Platform} {a b : NodeRunEvent} {fs : List RunEventMessage}
    (bodies : ∀ f ∈ fs, f.event = a ∨ f.event = b)
    (digests : platform.sha256 (canonicalJson (eventJson a)) ≠
      platform.sha256 (canonicalJson (eventJson b))) : CollisionFree platform fs := by
  intro f hf g hg same
  rcases bodies f hf with first | first <;> rcases bodies g hg with second | second <;>
    rw [first, second] at same ⊢
  · rfl
  · exact absurd same digests
  · exact absurd same.symm digests
  · rfl

theorem collisionFree_outputs :
    CollisionFree hashing (frames started ++ outputs.map Delivery.frame) := by
  apply @collisionFree_pair _ (.output .stdout "a") (.output .stdout "b") _ (by decide)
  rw [canonicalJson_stdout, canonicalJson_stdout]
  decide

end Sample

open Sample

theorem exactly_once_outputs :
    receiveAll hashing (withoutRepeats hashing
        ((serve hashing started .empty).ingests.rows.map IngestRow.key) outputs
        (serve hashing started .empty)) (serve hashing started .empty) =
      receiveAll hashing outputs (serve hashing started .empty) ∧
    Treated hashing (frames started ++ (outputs.take 1).map Delivery.frame)
      (wire 1 (.output .stdout "a") "o2") outputs (serve hashing started .empty)
      (receiveAll hashing (outputs.take 1) (serve hashing started .empty)) := by
  obtain ⟨same, treated⟩ := exactly_once path_serve collisionFree_outputs
  exact ⟨same, treated _ _ (outputs.drop 2) rfl⟩

/-- A paused event on the key of an output changes nothing, and is not refused either. -/
theorem paused_repeat_unanswered :
    ¬ ∀ requests db before d, Path (Step hashing) requests .empty db →
      CollisionFree hashing (frames requests ++ (before ++ [d]).map Delivery.frame) →
      Contradicts hashing (frames requests ++ before.map Delivery.frame) d
        (receiveAll hashing before db) →
      d.received (receiveAll hashing before db) →
      receive hashing d (receiveAll hashing before db) =
        ([d.ack .rejected], receiveAll hashing before db) := by
  intro claimed
  let first := wire 1 (.output .stdout "a") "o1"
  let repeated := wire 1 paused "o2"
  let running := serve hashing started .empty
  have collisionFree :
      CollisionFree hashing (frames started ++ ([first] ++ [repeated]).map Delivery.frame) := by
    apply @collisionFree_pair _ (.output .stdout "a") paused _ (by decide)
    rw [canonicalJson_stdout, canonicalJson_paused]
    decide
  have facts : ((receiveAll hashing [first] running).ingests.get? repeated.frame.key).isSome ∧
      repeated.received (receiveAll hashing [first] running) = true := by decide +kernel
  obtain ⟨there, received⟩ := facts
  obtain ⟨receipt, found⟩ := Option.isSome_iff_exists.mp there
  have contradicts : Contradicts hashing (frames started ++ [first].map Delivery.frame) repeated
      (receiveAll hashing [first] running) := by
    refine ⟨receipt, found, fun f member _ same => ?_⟩
    have outputs : ∀ f ∈ frames started ++ [first].map Delivery.frame,
        f.event = .output .stdout "a" := by decide
    have types := same.type
    rw [outputs f member] at types
    exact absurd types (by decide)
  have refused := claimed started running [first] repeated path_serve collisionFree contradicts received
  have silent_ : (receive hashing repeated (receiveAll hashing [first] running)).1 = [] :=
    unanswered (by decide) (by decide)
  rw [refused] at silent_
  cases silent_

end Artoo.Server
