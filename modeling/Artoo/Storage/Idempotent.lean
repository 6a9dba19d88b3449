import Artoo.Lib.Sessions
import Artoo.Lib.Statement
import Artoo.Protocol.RunEvent

/-! Writes with an idempotency key: the effect, its events and its response in one transaction. -/
namespace Artoo.Storage
open Artoo.Lib Artoo.Protocol Tx

structure EventInput where
  id : String
  organizationId : String
  projectId : Option String := none
  type : String
  schemaVersion : String
  actorType : String
  actorId : String
  taskId : Option String := none
  roomId : Option String := none
  runId : Option String := none
  goalId : Option String := none
  correlationId : String
  idempotencyKey : Option String := none
  sequence : Option Nat := none
  payload : List (String × Json) := []
  occurredAt : String
  deriving DecidableEq

structure IdempotencyKey where
  scope : String
  key : String
  requestHash : String
  responseJson : Json
  eventIds : List String
  createdAt : String
  deriving DecidableEq

def IdempotencyKey.primary (row : IdempotencyKey) : String × String := (row.scope, row.key)

/-- Beside the tables of the effects, the event log and the keys. -/
structure Store (σ : Type) where
  data : σ
  events : Table EventInput.id
  keys : Table IdempotencyKey.primary

inductive Write (ω : Type) where
  | data (w : ω)
  | event (row : EventInput)
  | key (row : IdempotencyKey)

inductive Lock (κ : Type) where
  | data (k : κ)
  | event (id : String)
  | key (primary : String × String)
  deriving DecidableEq

variable {σ ω κ ι ε : Type}

def Write.apply [Tables σ ω κ] : Write ω → Store σ → Store σ
  | .data w, st => { st with data := Tables.write w st.data }
  | .event row, st => { st with events := st.events.put row }
  | .key row, st => { st with keys := st.keys.put row }

def Write.locks (σ : Type) [Tables σ ω κ] : Write ω → List (Lock κ)
  | .data w => (Tables.guards σ w).map .data
  | .event row => [.event row.id]
  | .key row => [.key row.primary]

instance [Tables σ ω κ] : Tables (Store σ) (Write ω) (Lock κ) := ⟨Write.apply, Write.locks σ⟩

inductive Failure (ε : Type) where
  | effect (e : ε)
  | idempotencyConflict (scope key : String)
  | constraint
  deriving DecidableEq

abbrev Txn (σ ω κ ι ε : Type) := Tx (Store σ) (Write ω) (Lock κ) ι (Failure ε)

structure IdempotentParams where
  scope : String
  key : String
  requestHash : String
  now : String

structure IdempotentResult where
  replayed : Bool
  response : Json
  eventIds : List String
  deriving DecidableEq

def appendEvent (row : EventInput) : Txn σ ω κ ι ε String := do
  Tx.add (fun st => (st.events.get? row.id).isSome) (.event row) .constraint
  return row.id

def IdempotentParams.row (params : IdempotentParams) (response : Json) (eventIds : List String) :
    IdempotencyKey :=
  { scope := params.scope, key := params.key, requestHash := params.requestHash,
    responseJson := response, eventIds, createdAt := params.now }

/-- The first call of a key: the effect, its events, the stored response. -/
def runFirst (params : IdempotentParams) (fn : Txn σ ω κ ι ε (Json × List EventInput)) :
    Txn σ ω κ ι ε IdempotentResult := do
  let (response, events) ← fn
  let eventIds ← events.mapM appendEvent
  let row := params.row response eventIds
  Tx.add (fun st => (st.keys.get? row.primary).isSome) (.key row) .constraint
  return { replayed := false, response, eventIds }

def runIdempotent (params : IdempotentParams) (fn : Txn σ ω κ ι ε (Json × List EventInput)) :
    Txn σ ω κ ι ε IdempotentResult := do
  let existing ← Tx.query (·.keys.get? (params.scope, params.key))
  match existing with
  | some prior =>
    Tx.check (prior.requestHash != params.requestHash)
      (.idempotencyConflict params.scope params.key)
    return { replayed := true, response := prior.responseJson, eventIds := prior.eventIds }
  | none => runFirst params fn

/-! ## Under concurrent commits -/

def keyOf : Write ω → Option IdempotencyKey
  | .key row => some row
  | _ => none

/-- A write to another table than that of the keys. -/
def Keyless (_ : Store σ) (w : Write ω) : Prop := keyOf w = none

/-- A call; its effect leaves the keys to `runIdempotent`. -/
structure Call (σ ω κ ι ε : Type) where
  params : IdempotentParams
  fn : Txn σ ω κ ι ε (Json × List EventInput)
  keyless : Writes Keyless fn

def Call.primary (c : Call σ ω κ ι ε) : String × String := (c.params.scope, c.params.key)

def Call.program (c : Call σ ω κ ι ε) : Txn σ ω κ ι ε IdempotentResult := runIdempotent c.params c.fn

abbrev Standing (σ ω κ : Type) := Progress (Store σ) (Write ω) (Lock κ)

/-- Keys are not changed once they are stored, and not taken while their entry is held. -/
structure KeysLater (locks : List (Lock κ)) (st st' : Store σ) : Prop where
  stay : ∀ row ∈ st.keys, row ∈ st'.keys
  same : ∀ k, .key k ∈ locks → st'.keys.get? k = st.keys.get? k

def keysRely : Rely (Store σ) (Lock κ) where
  rel := KeysLater
  refl _ _ := ⟨fun _ member => member, fun _ _ => rfl⟩
  trans _ _ _ _ first last :=
    ⟨fun row member => last.stay row (first.stay row member),
      fun k held => (last.same k held).trans (first.same k held)⟩
  weaken _ _ _ _ sub h := ⟨h.stay, fun k held => h.same k (sub held)⟩

/-- What a call that returns has done. -/
inductive Answered (params : IdempotentParams) (result : IdempotentResult) (s : Standing σ ω κ) :
    Prop where
  | replay {row : IdempotencyKey} : result.replayed = true → s.log = [] → row ∈ s.db.keys →
      row.primary = (params.scope, params.key) → row.requestHash = params.requestHash →
      result.response = row.responseJson → result.eventIds = row.eventIds →
      Answered params result s
  | first {row : IdempotencyKey} : result.replayed = false → s.log.filterMap keyOf = [row] →
      s.db.keys.get? row.primary = none →
      row.primary = (params.scope, params.key) → row.requestHash = params.requestHash →
      result.response = row.responseJson → result.eventIds = row.eventIds →
      Answered params result s

variable [Tables σ ω κ]

theorem keys_writeAll {log : List (Write ω)} {st : Store σ} :
    (writeAll log st).keys = (log.filterMap keyOf).foldl Table.put st.keys := by
  induction log generalizing st with
  | nil => rfl
  | cons w log ih =>
    rw [writeAll_cons, ih]
    cases w <;> rfl

theorem keyless_appendEvent {row : EventInput} :
    Writes Keyless (appendEvent row : Txn σ ω κ ι ε String) :=
  writes_bind (writes_add fun _ _ => rfl) fun _ => writes_done

theorem under_keyless {α : Type} {p : Txn σ ω κ ι ε α} (keyless : Writes Keyless p)
    {s : Standing σ ω κ} (none_ : s.log.filterMap keyOf = []) :
    under keysRely p (fun _ s' => s'.log.filterMap keyOf = []) s := by
  apply Writes.under (I := fun s' => s'.log.filterMap keyOf = []) keyless
  · exact fun _ _ here _ => here
  · intro s' locks writes here new
    rw [Progress.after_log, List.filterMap_append, here, List.nil_append]
    exact List.filterMap_eq_nil_iff.mpr new
  · exact none_

theorem under_runIdempotent {c : Call σ ω κ ι ε} {st : Store σ} :
    under keysRely c.program (fun a s' => Answered c.params a s') ⟨st, [], []⟩ := by
  unfold Call.program runIdempotent
  rw [under_query]
  intro st₁ _
  change under _ (match st₁.keys.get? _ with | some _ => _ | none => _) _ _
  cases found : st₁.keys.get? (c.params.scope, c.params.key) with
  | some prior =>
    dsimp only
    rw [under_check]
    intro sameHash st₂ later
    refine .replay rfl rfl (later.stay _ (Table.mem_of_get? found)) (Table.key_of_get? found) ?_ rfl
      rfl
    simpa using sameHash
  | none =>
    unfold runFirst
    apply under_seq (under_keyless c.keyless rfl)
    rintro ⟨response, events⟩ s₁ none₁
    apply under_seq (under_keyless (writes_mapM fun _ _ => keyless_appendEvent) none₁)
    intro eventIds s₂ none₂
    rw [under_add]
    intro st₃ _ free st₄ later
    have keys : (s₂.at_ st₃).view.keys = st₃.keys := by
      unfold Progress.view
      rw [keys_writeAll, Progress.at_log, none₂]
      rfl
    rw [keys, Option.isSome_eq_false_iff, Option.isNone_iff_eq_none] at free
    refine @Answered.first _ _ _ _ _ _ (c.params.row response eventIds) rfl ?_ ?_ rfl rfl rfl rfl
    · simp [none₂, keyOf]
    · exact (later.same _ (List.mem_append_right _ List.mem_cons_self)).trans free

/-! ## Runs -/

abbrev CallWorld (σ ω κ ι ε : Type) :=
  World (Call σ ω κ ι ε) (Store σ) (Write ω) (Lock κ) ι (Failure ε) IdempotentResult

theorem mem_keys_view {params : IdempotentParams} {a : IdempotentResult} {s : Standing σ ω κ}
    (h : Answered params a s) (row : IdempotencyKey) (member : row ∈ s.db.keys) : row ∈ s.view.keys := by
  unfold Progress.view
  rw [keys_writeAll]
  cases h with
  | replay _ log =>
    rw [log]
    exact member
  | first _ written free =>
    rw [written]
    exact Table.mem_put.mpr (Or.inr ⟨member, Table.get?_eq_none.mp free row member⟩)

theorem call_rules : World.Rules Call.program (fun (_ : CallWorld σ ω κ ι ε) _ _ => True) keysRely
    (fun c _ a s => Answered c.params a s) fun _ => True := by
  constructor
  · exact fun c st _ => under_runIdempotent
  · intro w s a _ _ _ _ guarded answered
    refine ⟨trivial, fun others free => ⟨mem_keys_view answered, ?_⟩⟩
    intro k held
    unfold Progress.view
    rw [keys_writeAll]
    cases answered with
    | replay _ log =>
      rw [log]
      rfl
    | @first row _ written =>
      rw [written]
      apply Table.get?_put_other
      rintro rfl
      have entry : Write.key row ∈ s.log := by
        obtain ⟨w', member, is⟩ := List.mem_filterMap.mp (written ▸ List.mem_cons_self)
        cases w' <;> cases is
        exact member
      exact free _ held (guarded _ entry _ List.mem_cons_self)

/-- The row that a call leaves, with what it answered. -/
theorem Answered.stored {params : IdempotentParams} {a : IdempotentResult} {s : Standing σ ω κ}
    (h : Answered params a s) : ∃ row ∈ s.view.keys, row.primary = (params.scope, params.key) ∧
      row.requestHash = params.requestHash ∧ a.response = row.responseJson ∧
      a.eventIds = row.eventIds := by
  have kept := mem_keys_view h
  cases h with
  | replay _ _ member primary hash response eventIds =>
    exact ⟨_, kept _ member, primary, hash, response, eventIds⟩
  | @first row _ written _ primary hash response eventIds =>
    refine ⟨row, ?_, primary, hash, response, eventIds⟩
    unfold Progress.view
    rw [keys_writeAll, written]
    exact Table.mem_put.mpr (Or.inl rfl)

/-- A call whose key is stored replays the stored row. -/
theorem Answered.replays {params : IdempotentParams} {a : IdempotentResult} {s : Standing σ ω κ}
    (h : Answered params a s) {row : IdempotencyKey} (member : row ∈ s.db.keys)
    (primary : row.primary = (params.scope, params.key)) :
    a.replayed = true ∧ row.requestHash = params.requestHash ∧ a.response = row.responseJson ∧
      a.eventIds = row.eventIds ∧ s.view = s.db := by
  cases h with
  | @replay other replayed log member' primary' hash response eventIds =>
    cases Table.key_inj member member' (primary.trans primary'.symm)
    refine ⟨replayed, hash, response, eventIds, ?_⟩
    unfold Progress.view
    rw [log]
    rfl
  | @first other _ _ free primary' =>
    have absent := Table.get?_eq_none.mp free row member
    exact absurd (primary.trans primary'.symm) absent

variable [DecidableEq κ]

/-- Every interleaving. -/
abbrev CallStep : Nat × Act (Call σ ω κ ι ε) ι → CallWorld σ ω κ ι ε → CallWorld σ ω κ ι ε → Prop :=
  World.Steps Call.program fun _ _ _ => True

abbrev CallHolds (w : CallWorld σ ω κ ι ε) : Prop :=
  w.Holds keysRely (fun c _ a s => Answered c.params a s) fun _ => True

/-- The commit with which a call returns. -/
def Returns (c : Call σ ω κ ι ε) (a : IdempotentResult) (w w' : CallWorld σ ω κ ι ε) : Prop :=
  ∃ id, w.step Call.program id .commit = some w' ∧
    ∃ s ∈ w.sessions, s.id = id ∧ s.label = c ∧ s.rest = .done a

theorem Returns.answered {c : Call σ ω κ ι ε} {a : IdempotentResult} {w w' : CallWorld σ ω κ ι ε}
    (h : Returns c a w w') (holds : CallHolds w) :
    ∃ s : Standing σ ω κ, s.db = w.db ∧ s.view = w'.db ∧ Answered c.params a s := by
  obtain ⟨id, step, s, there, key, label, rest⟩ := h
  cases World.step_advance step with
  | @commit t b found _ =>
    have same : t = s := Table.key_inj (Table.mem_of_get? found) there
      ((Table.key_of_get? found).trans key.symm)
    subst same
    have under := holds.under t there
    rw [rest, label] at under
    exact ⟨t.at_ w.db, rfl, rfl, under w.db (keysRely.refl _ _)⟩

/-- Nothing is changed but by a call that returns, a replay changes nothing, and after a call of a key
has returned, every call of the key that returns has the same request and is a replay of it. -/
theorem effect_once {ls : List (Nat × Act (Call σ ω κ ι ε) ι)} {st : Store σ}
    {w : CallWorld σ ω κ ι ε} (path : Path CallStep ls (World.quiet st) w) :
    (∀ id act w', CallStep (id, act) w w' → w'.db ≠ w.db → ∃ c a, Returns c a w w') ∧
      ∀ c a w₁, Returns c a w w₁ →
        (a.replayed = true → w₁.db = w.db) ∧
        ∀ more w₂, Path CallStep more w₁ w₂ → ∀ c' a' w₃, Returns c' a' w₂ w₃ →
          c'.primary = c.primary →
            c'.params.requestHash = c.params.requestHash ∧ a'.response = a.response ∧
              a'.eventIds = a.eventIds ∧ a'.replayed = true ∧ w₃.db = w₂.db := by
  have holds : CallHolds w := (World.holds_path call_rules path (World.holds_quiet trivial)).1
  constructor
  · rintro id act w' ⟨step, _⟩ changes
    cases World.step_advance step with
    | @commit s a found rest =>
      exact ⟨s.label, a, id, step, s, Table.mem_of_get? found, Table.key_of_get? found, rfl, rest⟩
    | _ => exact absurd rfl changes
  · intro c a w₁ returned
    obtain ⟨s, db, view, answered⟩ := returned.answered holds
    obtain ⟨row, stored, primary, hash, response, eventIds⟩ := answered.stored
    constructor
    · intro replayed
      rw [← view, ← db]
      cases answered with
      | replay _ log =>
        unfold Progress.view
        rw [log]
        rfl
      | first fresh => exact absurd (fresh.symm.trans replayed) Bool.false_ne_true
    · intro more w₂ later c' a' w₃ returned' same
      obtain ⟨id, step, _⟩ := returned
      obtain ⟨holds₁, _⟩ := World.holds_step call_rules holds ⟨step, trivial⟩
      obtain ⟨holds₂, onward⟩ := World.holds_path call_rules later holds₁
      obtain ⟨t, db', view', answered'⟩ := returned'.answered holds₂
      rw [view] at stored
      have there : row ∈ t.db.keys := db' ▸ onward.stay row stored
      obtain ⟨replayed, hash', response', eventIds', unchanged⟩ :=
        answered'.replays there (primary.trans same.symm)
      exact ⟨hash'.symm.trans hash, response'.trans response.symm, eventIds'.trans eventIds.symm,
        replayed, by rw [← view', ← db', unchanged]⟩

/-! One table of notes; a call that adds a note is sent twice. -/
namespace Sample

instance : Tables (List String) String Unit := ⟨fun note notes => notes ++ [note], fun _ => [()]⟩

def charge : Call (List String) String Unit String Unit where
  params := { scope := "payment", key := "k1", requestHash := "h", now := "2026-01-05T10:00:00.000Z" }
  fn := do
    let _ ← Tx.change (fun _ => [()]) fun _ => .data "charged"
    return (.str "ok", [])
  keyless := writes_bind (writes_change fun _ _ _ => rfl) fun _ => writes_done

def noCalls : Store (List String) := ⟨[], .empty, .empty⟩

def chargedTwice : List (Nat × Act (Call (List String) String Unit String Unit) String) :=
  [(1, .begin charge), (1, .statement), (1, .statement), (1, .statement), (1, .commit),
   (2, .begin charge), (2, .statement), (2, .commit)]

end Sample

open Sample

theorem effect_once_charged :
    ∃ w, World.exec Call.program (fun _ _ _ => True) chargedTwice (World.quiet noCalls) = some w ∧
      w.db.data = ["charged"] ∧
      ∀ id act w', CallStep (id, act) w w' → w'.db ≠ w.db → ∃ c a, Returns c a w w' := by
  have runs : (World.exec Call.program (fun _ _ _ => True) chargedTwice
      (World.quiet noCalls)).map (·.db.data) = some ["charged"] := by decide +kernel
  obtain ⟨w, found, data⟩ := Option.map_eq_some_iff.mp runs
  exact ⟨w, found, data, (effect_once (World.exec_path found)).1⟩

end Artoo.Storage
