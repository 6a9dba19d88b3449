import Artoo.Lib.Lineage
import Artoo.Lib.LockModes
import Artoo.Memories.Services

/-! The chains of superseded memories, under concurrent calls. -/
namespace Artoo.Memories
open Artoo.Lib Relation Tx

/-! ## The chains -/

/-- `superseded_by`. -/
def SupersededBy (st : Store) (a b : String) : Prop :=
  ∃ row, st.memories.get? a = some row ∧ row.supersededById = some b

/-- `supersedes`. -/
def Supersedes (st : Store) (b a : String) : Prop :=
  ∃ row, st.memories.get? b = some row ∧ row.supersedesId = some a

def Accepted (st : Store) (a : String) : Prop :=
  ∃ row, st.memories.get? a = some row ∧ row.status = .accepted

/-- The two pointers are inverse partial maps whose chains are acyclic and linear, with no accepted
memory but the newest. -/
structure Chains (st : Store) : Prop where
  inverse : ∀ a b, SupersededBy st a b ↔ Supersedes st b a
  acyclic : Acyclic (SupersededBy st)
  linear : ∀ a b, Together (SupersededBy st) a b →
    ReflTransGen (SupersededBy st) a b ∨ ReflTransGen (SupersededBy st) b a
  newest : ∀ a b, Accepted st a → Together (SupersededBy st) a b →
    ReflTransGen (SupersededBy st) b a
  single : ∀ a b, Accepted st a → Accepted st b → Together (SupersededBy st) a b → a = b

/-- What carries over from call to call. -/
structure Linked (st : Store) : Prop where
  inverse : ∀ a b, SupersededBy st a b ↔ Supersedes st b a
  acyclic : Acyclic (SupersededBy st)
  accepted : ∀ a b, Accepted st a → ¬ SupersededBy st a b

section Chains

variable {st : Store} {a b c : String}

theorem supersededBy_unique (left : SupersededBy st a b) (right : SupersededBy st a c) : b = c := by
  obtain ⟨row, found, is⟩ := left
  obtain ⟨row', found', is'⟩ := right
  cases found.symm.trans found'
  exact Option.some_inj.mp (is.symm.trans is')

theorem supersedes_unique (left : Supersedes st a b) (right : Supersedes st a c) : b = c := by
  obtain ⟨row, found, is⟩ := left
  obtain ⟨row', found', is'⟩ := right
  cases found.symm.trans found'
  exact Option.some_inj.mp (is.symm.trans is')

theorem Linked.lineage (h : Linked st) : Lineage (SupersededBy st) where
  next _ _ _ left right := supersededBy_unique left right
  previous _ _ _ left right :=
    supersedes_unique ((h.inverse _ _).mp left) ((h.inverse _ _).mp right)
  acyclic := h.acyclic

theorem Linked.chains (h : Linked st) : Chains st where
  inverse := h.inverse
  acyclic := h.acyclic
  linear _ _ together := h.lineage.comparable together
  newest a _ accepted together := h.lineage.newest (fun c => h.accepted a c accepted) together
  single a b left right together :=
    h.lineage.end_unique (fun c => h.accepted a c left) (fun c => h.accepted b c right) together

theorem Chains.linked (h : Chains st) : Linked st where
  inverse := h.inverse
  acyclic := h.acyclic
  accepted a b accepted step := by
    have back := h.newest a b accepted (.rel _ _ step)
    exact h.acyclic a (TransGen.head' step back)

end Chains

/-! ## The calls -/

def rowOf : Write → Option MemoryRow
  | .memory row => some row
  | .event _ => none

def rowsOf (log : List Write) : List MemoryRow := log.filterMap rowOf

theorem memories_writeAll {log : List Write} {st : Store} :
    (writeAll log st).memories = (rowsOf log).foldl Table.put st.memories := by
  apply table_writeAll (fun st : Store => st.memories)
  intro w st
  cases w <;> rfl

/-- The row a call decides or supersedes by, as it writes it. -/
def decided (row : MemoryRow) (target : MemoryStatus) (now : String) : MemoryRow :=
  { row with status := target, updatedAt := now }

def superseded (row : MemoryRow) (newId now : String) : MemoryRow :=
  { row with status := .superseded, supersededById := some newId, updatedAt := now }

/-- The memories a call writes, by the rows it has locked. -/
inductive Effect (st : Store) : Call → List MemoryRow → Prop
  | propose {actor : String} {req : ProposeMemoryRequest} {row : MemoryRow} :
      st.memories.get? row.id = none → row.status = .proposed → row.supersedesId = none →
      row.supersededById = none → Effect st (.propose actor req) [row]
  | transition {actor id now : String} {trigger : MemoryTrigger} {comment : Option String}
      {row : MemoryRow} {target : MemoryStatus} : st.memories.get? id = some row →
      (target = .accepted → trigger = .accept) →
      Effect st (.transition actor id trigger comment) [decided row target now]
  | supersede {actor oldId now : String} {req : ProposeMemoryRequest} {row new : MemoryRow} :
      st.memories.get? oldId = some row → st.memories.get? new.id = none →
      new.supersedesId = some oldId → new.supersededById = none →
      Effect st (.supersede actor oldId req) [new, superseded row new.id now]

abbrev Standing := Progress Store Write Lock

/-- Others keep the locked memories, and remove none. -/
def memoryRely : Rely Store Lock where
  rel locks st st' := (∀ id, (st.memories.get? id).isSome → (st'.memories.get? id).isSome) ∧
    ∀ id, .memory id ∈ locks → st'.memories.get? id = st.memories.get? id
  refl _ _ := ⟨fun _ there => there, fun _ _ => rfl⟩
  trans _ _ _ _ first last :=
    ⟨fun id there => last.1 id (first.1 id there),
      fun id held => (last.2 id held).trans (first.2 id held)⟩
  weaken _ _ _ _ fewer step := ⟨step.1, fun id held => step.2 id (fewer held)⟩

/-- A call that has written its memories. -/
structure Written (call : Call) (s : Standing) : Prop where
  effect : Effect s.db call (rowsOf s.log)
  locked : ∀ row ∈ rowsOf s.log, .memory row.id ∈ s.locks

section Calls

variable {s : Standing} {st db : Store} {call : Call} {rows : List MemoryRow}

theorem Effect.later (h : Effect st call rows) (step : ∀ row ∈ rows,
    db.memories.get? row.id = st.memories.get? row.id) : Effect db call rows := by
  cases h with
  | propose fresh status noNext noPrevious =>
    exact .propose ((step _ List.mem_cons_self).trans fresh) status noNext noPrevious
  | @transition _ _ _ _ _ row _ found accepts =>
    have key : row.id = _ := Table.key_of_get? found
    have same := step _ List.mem_cons_self
    change db.memories.get? row.id = st.memories.get? row.id at same
    rw [key] at same
    exact .transition (same.trans found) accepts
  | @supersede _ _ _ _ row new found fresh next previous =>
    have key : row.id = _ := Table.key_of_get? found
    have same := step _ (List.mem_cons_of_mem _ List.mem_cons_self)
    change db.memories.get? row.id = st.memories.get? row.id at same
    rw [key] at same
    exact .supersede (same.trans found) ((step new List.mem_cons_self).trans fresh) next previous

theorem Written.later (h : Written call s) (step : memoryRely.rel s.locks s.db db) :
    Written call (s.at_ db) :=
  ⟨h.effect.later fun row member => step.2 row.id (h.locked row member), h.locked⟩

theorem Written.after (h : Written call s) {locks : Store → List Lock} {writes : Store → List Write}
    (events : ∀ w ∈ writes s.view, rowOf w = none) : Written call (s.after locks writes) := by
  have same : rowsOf (s.after locks writes).log = rowsOf s.log := by
    rw [Progress.after_log]
    unfold rowsOf
    rw [List.filterMap_append, List.filterMap_eq_nil_iff.mpr events, List.append_nil]
  constructor
  · rw [same]
    exact h.effect
  · rw [same]
    exact fun row member => Progress.locks_after (h.locked row member)

/-- What follows the writes of memories: events, and reads. -/
theorem Written.under {α : Type} {p : Txn α} (events : Writes (fun _ w => rowOf w = none) p)
    (h : Written call s) : under memoryRely p (fun _ s' => Written call s') s :=
  Writes.under events (fun _ _ written step => written.later step)
    (fun _ _ _ written there => written.after there) h

theorem events_appendEvent {type actorId correlationId : String} {content : ProposeMemoryRequest}
    {payload : List (String × Protocol.Json)} :
    Writes (fun _ w => rowOf w = none) (appendEvent type actorId correlationId content payload) :=
  fun _ _ => writes_add fun _ _ => rfl

theorem events_loadMemory {id : String} : Writes (fun _ w => rowOf w = none) (loadMemory id) :=
  writes_bind writes_query fun _ => writes_require

/-- An update of a memory that is there. -/
theorem under_updateMemory {α : Type} {id : String} {set : MemoryRow → MemoryRow}
    {k : List MemoryRow → Txn α} {post : α → Standing → Prop}
    (h : ∀ db, memoryRely.rel s.locks s.db db → ∃ row,
      (s.at_ db).view.memories.get? id = some row ∧ under memoryRely (k [row]) post
        ⟨db, s.locks ++ [.memory (set row).id], s.log ++ [.memory (set row)]⟩) :
    under memoryRely (updateMemory id set >>= k) post s := by
  unfold updateMemory
  rw [under_change]
  intro db step
  obtain ⟨row, found, rest⟩ := h db step
  rw [found]
  exact rest

/-- Who accepts a memory decides it by `accept`. -/
theorem accept_of_accepted {source : MemoryStatus} {trigger : MemoryTrigger}
    (moves : applyMemoryTransition source trigger = some .accepted) : trigger = .accept := by
  revert moves
  cases source <;> cases trigger <;> decide

theorem under_propose {actor : String} {req : ProposeMemoryRequest} :
    under memoryRely (Call.propose actor req).program
      (fun _ s' => Written (.propose actor req) s') ⟨st, [], []⟩ := by
  unfold Call.program proposeMemory insertMemory
  simp only [bind_assoc]
  rw [under_drawn]
  intro now
  rw [under_drawn]
  intro id
  rw [under_add]
  intro db _ fresh
  apply Written.under
  · exact writes_bind events_appendEvent fun _ => writes_bind events_loadMemory fun _ => writes_done
  · constructor
    · exact .propose (Option.isSome_eq_false_iff.mp fresh |> Option.isNone_iff_eq_none.mp) rfl rfl rfl
    · simp [rowsOf, rowOf, Tables.guards, Write.locks]

theorem under_transition {actor id : String} {trigger : MemoryTrigger} {comment : Option String} :
    under memoryRely (Call.transition actor id trigger comment).program
      (fun _ s' => Written (.transition actor id trigger comment) s') ⟨st, [], []⟩ := by
  unfold Call.program transitionMemory findMemory
  simp only [bind_assoc]
  rw [under_drawn]
  intro now
  rw [under_query]
  intro first _
  rw [under_require]
  intro row found
  rw [under_require]
  intro target moves
  apply under_updateMemory
  intro db step
  obtain ⟨row', found'⟩ := Option.isSome_iff_exists.mp (step.1 id (Option.isSome_of_eq_some found))
  refine ⟨row', found', ?_⟩
  apply Written.under
  · exact writes_bind events_appendEvent fun _ => writes_bind events_loadMemory fun _ => writes_done
  · constructor
    · exact .transition found' fun is => accept_of_accepted (is ▸ moves)
    · simp [rowsOf, rowOf]

theorem under_supersede {actor oldId : String} {req : ProposeMemoryRequest} :
    under memoryRely (Call.supersede actor oldId req).program
      (fun _ s' => Written (.supersede actor oldId req) s') ⟨st, [], []⟩ := by
  unfold Call.program supersedeMemory findMemory insertMemory
  simp only [bind_assoc]
  rw [under_drawn]
  intro now
  rw [under_query]
  intro first _
  rw [under_require]
  intro oldRow found
  rw [under_check]
  intro _
  rw [under_drawn]
  intro newId
  rw [under_add]
  intro mid step fresh
  rw [under_require]
  intro target moves
  cases moves
  apply under_updateMemory
  intro db later
  obtain ⟨row', found'⟩ := Option.isSome_iff_exists.mp
    (step.1 oldId (Option.isSome_of_eq_some found))
  have free : mid.memories.get? newId = none :=
    Option.isNone_iff_eq_none.mp (Option.isSome_eq_false_iff.mp fresh)
  have apart : newId ≠ oldId := by
    rintro rfl
    rw [free] at found'
    cases found'
  obtain ⟨row, there⟩ := Option.isSome_iff_exists.mp
    (later.1 oldId (Option.isSome_of_eq_some found'))
  have still : db.memories.get? newId = none :=
    (later.2 newId (List.mem_append_right _ List.mem_cons_self)).trans free
  refine ⟨row, ?_, ?_⟩
  · exact (Table.get?_put_other apart).trans there
  · apply Written.under
    · exact writes_bind events_appendEvent fun _ => writes_bind events_appendEvent fun _ =>
        writes_bind events_loadMemory fun _ => writes_bind events_loadMemory fun _ => writes_done
    · constructor
      · exact .supersede there still rfl rfl
      · simp [rowsOf, rowOf, Tables.guards, Write.locks]

end Calls

/-! ## The commits -/

/-- The memory that a call supersedes or accepts is not superseded yet. -/
def Call.unsuperseded (st : Store) : Call → Bool
  | .supersede _ oldId _ => (st.memories.get? oldId).all (·.supersededById.isNone)
  | .transition _ id .accept _ => (st.memories.get? id).all (·.supersededById.isNone)
  | _ => true

section Commits

variable {st st' : Store} {row : MemoryRow} {call : Call} {rows : List MemoryRow} {a b : String}

/-- What is true of the memory of an id, after a write. -/
theorem found_put {P : MemoryRow → Prop} (is : st'.memories = st.memories.put row) :
    (∃ r, st'.memories.get? a = some r ∧ P r) ↔
      (row.id = a ∧ P row) ∨ (row.id ≠ a ∧ ∃ r, st.memories.get? a = some r ∧ P r) := by
  rw [is]
  constructor
  · rintro ⟨r, found, holds⟩
    rw [Table.get?_put] at found
    split at found
    · rename_i hit
      cases found
      exact Or.inl ⟨hit, holds⟩
    · rename_i off
      exact Or.inr ⟨off, r, found, holds⟩
  · rintro (⟨hit, holds⟩ | ⟨off, r, found, holds⟩)
    · exact ⟨row, hit ▸ Table.get?_put_self, holds⟩
    · exact ⟨r, (Table.get?_put_other off).trans found, holds⟩

theorem not_found {P : MemoryRow → Prop} (fresh : st.memories.get? a = none) :
    ¬ ∃ r, st.memories.get? a = some r ∧ P r := by
  rintro ⟨r, found, _⟩
  exact nomatch found.symm.trans fresh

/-- A write that leaves the pointers as they are. -/
theorem Linked.same (h : Linked st) (next : ∀ a b, SupersededBy st' a b ↔ SupersededBy st a b)
    (previous : ∀ a b, Supersedes st' a b ↔ Supersedes st a b)
    (accepted : ∀ a b, Accepted st' a → ¬ SupersededBy st a b) : Linked st' := by
  have is : SupersededBy st' = SupersededBy st := by
    funext a b
    exact propext (next a b)
  constructor
  · intro a b
    rw [next, previous]
    exact h.inverse a b
  · rw [is]
    exact h.acyclic
  · rw [is]
    exact accepted

theorem Linked.propose (h : Linked st) (is : st'.memories = st.memories.put row)
    (fresh : st.memories.get? row.id = none) (status : row.status = .proposed)
    (noPrevious : row.supersedesId = none) (noNext : row.supersededById = none) : Linked st' := by
  apply h.same
  · intro a b
    refine (found_put is).trans ⟨?_, fun old => Or.inr ⟨?_, old⟩⟩
    · rintro (⟨_, next⟩ | ⟨_, old⟩)
      · exact nomatch noNext.symm.trans next
      · exact old
    · rintro rfl
      exact not_found fresh old
  · intro a b
    refine (found_put is).trans ⟨?_, fun old => Or.inr ⟨?_, old⟩⟩
    · rintro (⟨_, previous⟩ | ⟨_, old⟩)
      · exact nomatch noPrevious.symm.trans previous
      · exact old
    · rintro rfl
      exact not_found fresh old
  · intro a b accepted
    rcases (found_put is).mp accepted with ⟨_, is⟩ | ⟨_, old⟩
    · exact nomatch status.symm.trans is
    · exact h.accepted a b old

theorem Linked.decide {target : MemoryStatus} {now : String} (h : Linked st)
    (is : st'.memories = st.memories.put (decided row target now))
    (found : st.memories.get? a = some row)
    (clear : target = .accepted → row.supersededById = none) : Linked st' := by
  have key : row.id = a := Table.key_of_get? found
  subst key
  have pointer : ∀ {P : MemoryRow → Prop} (c : String), (P (decided row target now) ↔ P row) →
      ((∃ r, st'.memories.get? c = some r ∧ P r) ↔ ∃ r, st.memories.get? c = some r ∧ P r) := by
    intro P c same
    refine (found_put is).trans ⟨?_, ?_⟩
    · rintro (⟨rfl, holds⟩ | ⟨_, old⟩)
      · exact ⟨row, found, same.mp holds⟩
      · exact old
    · rintro ⟨r, there, holds⟩
      by_cases hit : row.id = c
      · subst hit
        cases found.symm.trans there
        exact Or.inl ⟨rfl, same.mpr holds⟩
      · exact Or.inr ⟨hit, r, there, holds⟩
  apply h.same
  · exact fun c d => pointer c Iff.rfl
  · exact fun c d => pointer c Iff.rfl
  · rintro c d accepted ⟨r, there, next⟩
    rcases (found_put is).mp accepted with ⟨rfl, is⟩ | ⟨_, old⟩
    · cases found.symm.trans there
      exact nomatch (clear is).symm.trans next
    · exact h.accepted c d old ⟨r, there, next⟩

theorem Linked.supersede {new : MemoryRow} {now : String} (h : Linked st)
    (is : st'.memories = (st.memories.put new).put (superseded row new.id now))
    (found : st.memories.get? a = some row) (fresh : st.memories.get? new.id = none)
    (next : new.supersedesId = some a) (previous : new.supersededById = none)
    (clear : row.supersededById = none) : Linked st' := by
  have key : row.id = a := Table.key_of_get? found
  subst key
  have apart : row.id ≠ new.id := fun same => nomatch (same ▸ found).symm.trans fresh
  -- the rows of the new store: the new one, the superseded one, and the others
  have cases_ : ∀ {P : MemoryRow → Prop} (c : String), (∃ r, st'.memories.get? c = some r ∧ P r) ↔
      (row.id = c ∧ P (superseded row new.id now)) ∨ (new.id = c ∧ P new) ∨
        (row.id ≠ c ∧ ∃ r, st.memories.get? c = some r ∧ P r) := by
    intro P c
    refine (@found_put { st with memories := st.memories.put new } _ _ _ _ is).trans ?_
    rw [@found_put _ { st with memories := st.memories.put new } _ _ _ rfl]
    constructor
    · rintro (old | ⟨off, ⟨hit, holds⟩ | ⟨_, other⟩⟩)
      · exact Or.inl old
      · exact Or.inr (Or.inl ⟨hit, holds⟩)
      · exact Or.inr (Or.inr ⟨off, other⟩)
    · rintro (old | ⟨rfl, holds⟩ | ⟨off, other⟩)
      · exact Or.inl old
      · exact Or.inr ⟨apart, Or.inl ⟨rfl, holds⟩⟩
      · refine Or.inr ⟨off, Or.inr ⟨?_, other⟩⟩
        rintro rfl
        exact not_found fresh other
  have nexts : ∀ c d, SupersededBy st' c d ↔ SupersededBy st c d ∨ (c = row.id ∧ d = new.id) := by
    intro c d
    refine (cases_ c).trans ⟨?_, ?_⟩
    · rintro (⟨hit, is⟩ | ⟨_, is⟩ | ⟨_, old⟩)
      · exact Or.inr ⟨hit.symm, (Option.some_inj.mp is).symm⟩
      · exact nomatch previous.symm.trans is
      · exact Or.inl old
    · rintro (⟨r, there, step⟩ | ⟨rfl, rfl⟩)
      · refine Or.inr (Or.inr ⟨?_, r, there, step⟩)
        rintro rfl
        cases found.symm.trans there
        exact nomatch clear.symm.trans step
      · exact Or.inl ⟨rfl, rfl⟩
  have previouses : ∀ d c, Supersedes st' d c ↔ Supersedes st d c ∨ (c = row.id ∧ d = new.id) := by
    intro d c
    refine (cases_ d).trans ⟨?_, ?_⟩
    · rintro (⟨rfl, is⟩ | ⟨hit, is⟩ | ⟨_, old⟩)
      · exact Or.inl ⟨row, found, is⟩
      · exact Or.inr ⟨Option.some_inj.mp (is.symm.trans next), hit.symm⟩
      · exact Or.inl old
    · rintro (⟨r, there, step⟩ | ⟨rfl, rfl⟩)
      · by_cases hit : row.id = d
        · subst hit
          cases found.symm.trans there
          exact Or.inl ⟨rfl, step⟩
        · exact Or.inr (Or.inr ⟨hit, r, there, step⟩)
      · exact Or.inr (Or.inl ⟨rfl, next⟩)
  have lineage : Lineage (SupersededBy st') := by
    have is : SupersededBy st' = fun c d => SupersededBy st c d ∨ (c = row.id ∧ d = new.id) := by
      funext c d
      exact propext (nexts c d)
    rw [is]
    apply h.lineage.add
    · rintro c ⟨r, there, step⟩
      cases found.symm.trans there
      exact nomatch clear.symm.trans step
    · exact apart
    · exact fun c => not_found fresh
    · exact fun c step => not_found fresh ((h.inverse c new.id).mp step)
  constructor
  · intro c d
    rw [nexts, previouses]
    exact or_congr_left (h.inverse c d)
  · exact lineage.acyclic
  · intro c d accepted step
    rcases (cases_ c).mp accepted with ⟨_, is⟩ | ⟨rfl, _⟩ | ⟨off, old⟩
    · cases is
    · rcases (nexts _ _).mp step with before | ⟨same, _⟩
      · exact not_found fresh before
      · exact apart same.symm
    · rcases (nexts _ _).mp step with before | ⟨same, _⟩
      · exact h.accepted c d old before
      · exact off same.symm

theorem Linked.effect (h : Linked st) (effect : Effect st call rows)
    (clear : call.unsuperseded st) (is : st'.memories = rows.foldl Table.put st.memories) :
    Linked st' := by
  cases effect with
  | propose fresh status noPrevious noNext => exact h.propose is fresh status noPrevious noNext
  | transition found accepts =>
    refine h.decide is found fun accepted => ?_
    cases accepts accepted
    exact Option.isNone_iff_eq_none.mp ((Option.all_eq_true _ _).mp clear _ found)
  | supersede found fresh next previous =>
    exact h.supersede is found fresh next previous
      (Option.isNone_iff_eq_none.mp ((Option.all_eq_true _ _).mp clear _ found))

end Commits

/-! ## The runs -/

abbrev Sessions := World Call Store Write Lock String AppError Unit

/-- When a call commits, the memory that it supersedes or accepts is not superseded. -/
def StillCurrent (w : Sessions) (id : Nat) : Act Call String → Prop
  | .commit => (w.sessions.get? id).all (·.label.unsuperseded w.db)
  | _ => True

instance (w : Sessions) (id : Nat) (act : Act Call String) : Decidable (StillCurrent w id act) := by
  cases act <;> (unfold StillCurrent; infer_instance)

theorem memory_rules : Modes.Rules Call.program StillCurrent memoryRely
    (fun call _ _ s => Written call s) Linked where
  start call db _ := by
    cases call with
    | propose => exact under_propose
    | transition => exact under_transition
    | supersede => exact under_supersede
  commit w s _ member current linked written := by
    have view : (s.at_ w.db).view.memories = (rowsOf s.log).foldl Table.put w.db.memories :=
      memories_writeAll
    refine ⟨linked.effect written.effect ((Option.all_eq_true _ _).mp current s (Table.get?_of_mem member)) view, ?_⟩
    intro others apart
    constructor
    · intro id there
      rw [view]
      exact Table.isSome_foldl_put (Or.inr there)
    · intro id held
      rw [view]
      apply Table.get?_foldl_put
      rintro row wrote rfl
      have clash := (apart _ held _ (written.locked row wrote)).1
      simp [Conflicts.conflicts] at clash

theorem linked_empty : Linked {} := by
  have none_ : ∀ id, ({} : Store).memories.get? id = none := fun _ => rfl
  constructor
  · exact fun a b => iff_of_false (not_found (none_ a)) (not_found (none_ b))
  · exact acyclic_empty fun a _ => not_found (none_ a)
  · exact fun a _ accepted => absurd accepted (not_found (none_ a))

namespace Sample

def content : ProposeMemoryRequest := { scope := .organization, text := some "Deploys are on Tuesdays" }

/-- The event of a call, with its draws. -/
def event (id : Nat) (name : String) : List (Nat × Act Call String) :=
  [(id, .draw name), (id, .draw "noon"), (id, .statement)]

def proposes (id : Nat) (memory : String) : List (Nat × Act Call String) :=
  [(id, .begin (.propose "user_1" content)), (id, .draw "noon"), (id, .draw memory),
    (id, .statement)] ++ event id ("proposed " ++ memory) ++ [(id, .statement), (id, .commit)]

def accepts (id : Nat) (memory : String) : List (Nat × Act Call String) :=
  [(id, .begin (.transition "user_1" memory .accept none)), (id, .draw "noon"), (id, .statement),
    (id, .statement)] ++ event id ("accepted " ++ memory) ++ [(id, .statement), (id, .commit)]

/-- A call has read the memory that it supersedes. -/
def reads (id : Nat) (memory : String) : List (Nat × Act Call String) :=
  [(id, .begin (.supersede "user_1" memory content)), (id, .draw "noon"), (id, .statement)]

def replaces (id : Nat) (memory : String) : List (Nat × Act Call String) :=
  [(id, .draw memory), (id, .statement), (id, .statement)] ++ event id ("replaced by " ++ memory) ++
    event id ("replaces by " ++ memory) ++ [(id, .statement), (id, .statement), (id, .commit)]

def pointers (w : Sessions) (id : String) : Option (Option String × Option String) :=
  (w.db.memories.get? id).map fun row => (row.supersedesId, row.supersededById)

end Sample

open Sample

end Artoo.Memories
