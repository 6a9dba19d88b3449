import Mathlib.Data.List.Basic
import Mathlib.Data.List.Nodup

/-! Decisions, handoffs and blockers: their rows, and the events of their history. Each statement and
each transaction of a call is one step, and calls overlap. -/
namespace Artoo.Server.Collaboration

inductive Kind where
  | decision | handoff | blocker
  deriving DecidableEq

/-- Of all kinds. -/
inductive Status where
  | proposed | accepted | rejected | superseded
  | opened | completed | cancelled | expired
  | mitigated | acceptedRisk | resolved
  deriving DecidableEq

def Kind.initial : Kind → Status
  | .decision => .proposed
  | .handoff | .blocker => .opened

def Kind.name : Kind → String
  | .decision => "decision"
  | .handoff => "handoff"
  | .blocker => "blocker"

def Status.name : Status → String
  | .proposed => "proposed" | .accepted => "accepted" | .rejected => "rejected"
  | .superseded => "superseded" | .opened => "open" | .completed => "completed"
  | .cancelled => "cancelled" | .expired => "expired" | .mitigated => "mitigated"
  | .acceptedRisk => "accepted_risk" | .resolved => "resolved"

/-- The event of a status: an open record is `opened`. -/
def eventType (kind : Kind) (status : Status) : String :=
  kind.name ++ "." ++ match kind, status with
    | .blocker, .mitigated | .blocker, .resolved | .blocker, .acceptedRisk => status.name
    | .blocker, _ | _, .opened => "opened"
    | _, _ => status.name

/-- `source_kind` and `source_id`. -/
structure Source where
  kind : String
  id : String
  deriving DecidableEq

structure Row where
  kind : Kind
  status : Status
  source : Option Source
  sourceMessage : Option String

/-- The first event of a record has no `from`. -/
structure Event where
  record : ℕ
  type : String
  before : Option Status
  after : Status
  deriving DecidableEq

inductive Stage where
  /-- `createDecision` and its like, before the look for a decision of the message -/
  | create (kind : Kind) (source : Option Source) (sourceMessage : Option String)
  | insert (kind : Kind) (source : Option Source) (sourceMessage : Option String)
  /-- `setDecisionStatus` and its like; `swept` is what a sweep has read of the blocker -/
  | read (id : ℕ) (status : Status) (swept : Option Status)
  | update (id : ℕ) (status existing : Status) (swept : Option Status)
  | emit (event : Event)
  /-- `resolveBlockersForSource` -/
  | sweep (source : Source)

/-- With the rows that a sweep has still to look at. -/
structure Call where
  stage : Stage
  rest : List (ℕ × Status) := []

structure System where
  rows : List Row := []
  /-- in position order -/
  events : List Event := []
  calls : ℕ → Option Call := fun _ => none
  /-- the changes whose event is not written, in their order, with their call -/
  unwritten : List (ℕ × Event) := []
  /-- what automatic resolutions have overwritten -/
  overwritten : List Status := []

def isActive (status : Status) : Bool := status == .opened || status == .mitigated

/-- The next blocker of a sweep, if any. -/
def nextSwept : List (ℕ × Status) → Option Call
  | [] => none
  | (id, status) :: rest =>
    if isActive status then some ⟨.read id .resolved (some status), rest⟩ else nextSwept rest

section Steps

variable (s : System) (n : ℕ)

def setCall (call : Option Call) : System :=
  { s with calls := fun m => if m = n then call else s.calls m }

def setStatus (id : ℕ) (status : Status) : System :=
  { s with rows := s.rows.modify id fun row => { row with status } }

/-- A change whose event is still to come. -/
def owe (event : Event) (rest : List (ℕ × Status)) : System :=
  { setCall s n (some ⟨.emit event, rest⟩) with unwritten := s.unwritten ++ [(n, event)] }

def write (event : Event) : System := { s with events := s.events ++ [event] }

def pay : System := { s with unwritten := s.unwritten.eraseP (·.1 == n) }

def overwrite (status : Status) : System := { s with overwritten := s.overwritten ++ [status] }

/-- The row of a decision of the message. -/
def promoted (sourceMessage : Option String) : Bool :=
  sourceMessage.isSome && s.rows.any fun row => row.sourceMessage == sourceMessage

def linked (source : Source) : List (ℕ × Status) :=
  (s.rows.zipIdx.filter fun entry => entry.1.kind == .blocker && entry.1.source == some source).map
    fun entry => (entry.2, entry.1.status)

/-- One statement, or the transaction of an event. -/
def advance : System :=
  match s.calls n with
  | none => s
  | some ⟨.create kind source sourceMessage, rest⟩ =>
    if promoted s sourceMessage then setCall s n none
    else setCall s n (some ⟨.insert kind source sourceMessage, rest⟩)
  | some ⟨.insert kind source sourceMessage, rest⟩ =>
    -- `decision_records_source_message` is unique
    if promoted s sourceMessage then setCall s n none
    else owe { s with rows := s.rows ++ [⟨kind, kind.initial, source, sourceMessage⟩] } n
      ⟨s.rows.length, eventType kind kind.initial, none, kind.initial⟩ rest
  | some ⟨.read id status swept, rest⟩ =>
    match s.rows[id]? with
    | none => setCall s n (nextSwept rest)
    | some row => setCall s n (some ⟨.update id status row.status swept, rest⟩)
  | some ⟨.update id status existing swept, rest⟩ =>
    match s.rows[id]? with
    | none => setCall s n (nextSwept rest)
    | some row =>
      let changed := owe (setStatus s id status) n
        ⟨id, eventType row.kind status, some existing, status⟩ rest
      if swept.isSome then overwrite changed row.status else changed
  | some ⟨.emit event, rest⟩ => setCall (pay (write s event) n) n (nextSwept rest)
  | some ⟨.sweep source, _⟩ => setCall s n (nextSwept (linked s source))

/-- A blocker in the transaction of `resolveApproval`, whose row is locked. -/
def resolveLinked (id : ℕ) : System :=
  match s.rows[id]? with
  | none => s
  | some row => overwrite (write (setStatus s id .resolved)
      ⟨id, eventType .blocker .resolved, some row.status, .resolved⟩) row.status

/-- The blockers of an execution gate, in the transaction of its resolution. -/
def resolveApproval (approval : String) : System :=
  (((linked s ⟨"approval", approval⟩).filter fun entry => isActive entry.2).map (·.1)).foldl
    resolveLinked s

/-- `requestExecutionApproval` moves what is not resolved to the new request. -/
def relinked (prior : List String) (approval : String) (row : Row) : Row :=
  match row.source with
  | some source =>
    if row.kind = .blocker ∧ source.kind = "approval" ∧ source.id ∈ prior ∧
        (isActive row.status || row.status == .acceptedRisk) then
      { row with source := some ⟨"approval", approval⟩ }
    else row
  | none => row

def requestExecutionApproval (prior : List String) (approval : String) : System :=
  { s with rows := s.rows.map (relinked prior approval) }

end Steps

/-- How a call begins. -/
inductive Start where
  | create (kind : Kind) (source : Option Source) (sourceMessage : Option String)
  | setStatus (id : ℕ) (status : Status)
  | sweep (source : Source)

def Start.stage : Start → Stage
  | .create kind source sourceMessage => .create kind source sourceMessage
  | .setStatus id status => .read id status none
  | .sweep source => .sweep source

inductive Step where
  | begin (n : ℕ) (start : Start)
  | advance (n : ℕ)
  /-- an error, or the end of the process -/
  | fail (n : ℕ)
  | resolveApproval (approval : String)
  | requestExecutionApproval (prior : List String) (approval : String)

def step (s : System) : Step → System
  | .begin n start => if (s.calls n).isNone then setCall s n (some ⟨start.stage, []⟩) else s
  | .advance n => advance s n
  | .fail n => setCall s n none
  | .resolveApproval approval => resolveApproval s approval
  | .requestExecutionApproval prior approval => requestExecutionApproval s prior approval

def run (steps : List Step) : System := steps.foldl step {}

/-! ## Histories -/

/-- Each `from` is the `to` before it. -/
def Leads : Status → List Event → Status → Prop
  | a, [], b => a = b
  | a, e :: es, b => e.before = some a ∧ Leads e.after es b

/-- The events of a record from its creation to a status. -/
def History (kind : Kind) (status : Status) : List Event → Prop
  | [] => False
  | e :: es => e.before = none ∧ e.after = kind.initial ∧ Leads kind.initial es status

/-- The events of a record, those that are still to be written among them. -/
def eventsOf (s : System) (id : ℕ) : List Event :=
  (s.events ++ s.unwritten.map (·.2)).filter (·.record == id)

def HistoryAt (rows : List Row) (id : ℕ) (events : List Event) : Prop :=
  match rows[id]? with
  | none => events = []
  | some row => History row.kind row.status events

/-- What a sweep has read is active. -/
def SweptActive : Stage → Prop
  | .read _ _ (some swept) => isActive swept = true
  | .update _ _ _ (some swept) => isActive swept = true
  | _ => True

/-- A step does not cross the changes of other calls: a record is changed when it is as it was read, the
events are written in the order of the changes, and none is lost. -/
def Undisturbed (s : System) : Step → Prop
  | .advance n => match s.calls n with
    | some ⟨.update id _ existing swept, _⟩ => ∀ row, s.rows[id]? = some row →
        row.status = existing ∧ ∀ read, swept = some read → row.status = read
    | some ⟨.emit event, _⟩ =>
        s.unwritten.find? (·.2.record == event.record) = some (n, event)
    | _ => True
  | .fail n => ∀ event rest, s.calls n ≠ some ⟨.emit event, rest⟩
  | .resolveApproval approval => ∀ entry ∈ linked s ⟨"approval", approval⟩,
      isActive entry.2 = true → ∀ owed ∈ s.unwritten, owed.2.record ≠ entry.1
  | _ => True

def UndisturbedRun : System → List Step → Prop
  | _, [] => True
  | s, a :: as => Undisturbed s a ∧ UndisturbedRun (step s a) as

/-- When no call is under way the events of a record are its history; an automatic resolution has only
overwritten what was active, and a message has at most one decision. -/
structure Lawful (s : System) : Prop where
  history : (∀ n, s.calls n = none) → ∀ id row, s.rows[id]? = some row →
    History row.kind row.status (s.events.filter (·.record == id))
  overwritten : ∀ status ∈ s.overwritten, isActive status = true
  promoted : ∀ message, (s.rows.filter (·.sourceMessage == some message)).length ≤ 1

structure Kept (s : System) : Prop where
  owed : ∀ n event, (n, event) ∈ s.unwritten ↔ ∃ rest, s.calls n = some ⟨.emit event, rest⟩
  numbers : (s.unwritten.map (·.1)).Nodup
  history : ∀ id, HistoryAt s.rows id (eventsOf s id)
  swept : ∀ n call, s.calls n = some call → SweptActive call.stage
  overwritten : ∀ status ∈ s.overwritten, isActive status = true
  promoted : (s.rows.filterMap (·.sourceMessage)).Nodup

section Moves

variable {s : System} {n : ℕ} {call : Option Call} {event : Event} {rest : List (ℕ × Status)}

theorem Leads.append {a b c : Status} {es : List Event} (leads : Leads a es b)
    (before : event.before = some b) (after : event.after = c) : Leads a (es ++ [event]) c := by
  induction es generalizing a with
  | nil =>
    cases leads
    exact ⟨before, after⟩
  | cons e es ih => exact ⟨leads.1, ih leads.2⟩

theorem History.append {kind : Kind} {b c : Status} {es : List Event} (history : History kind b es)
    (before : event.before = some b) (after : event.after = c) :
    History kind c (es ++ [event]) := by
  cases es with
  | nil => exact history.elim
  | cons e es => exact ⟨history.1, history.2.1, history.2.2.append before after⟩

/-- A call that owes no event does something else. -/
theorem Kept.setCall (kept : Kept s) (old : ∀ event rest, s.calls n ≠ some ⟨.emit event, rest⟩)
    (new : ∀ event rest, call ≠ some ⟨.emit event, rest⟩)
    (swept : ∀ c, call = some c → SweptActive c.stage) : Kept (setCall s n call) := by
  refine ⟨?_, kept.numbers, kept.history, ?_, kept.overwritten, kept.promoted⟩
  · intro m e
    rw [show (Collaboration.setCall s n call).unwritten = s.unwritten from rfl, kept.owed]
    change _ ↔ ∃ rest, (if m = n then call else s.calls m) = _
    split_ifs with is
    · subst is
      constructor
      · rintro ⟨rest, off⟩
        exact absurd off (old e rest)
      · rintro ⟨rest, off⟩
        exact absurd off (new e rest)
    · exact Iff.rfl
  · intro m c
    change (if m = n then call else s.calls m) = some c → _
    split_ifs
    · exact swept c
    · exact kept.swept m c

theorem nextSwept_plain (rest : List (ℕ × Status)) :
    (∀ event rest', nextSwept rest ≠ some ⟨.emit event, rest'⟩) ∧
      ∀ c, nextSwept rest = some c → SweptActive c.stage := by
  induction rest with
  | nil =>
    constructor
    · intro event rest' off
      cases off
    · intro c off
      cases off
  | cons entry rest ih =>
    unfold nextSwept
    split_ifs with active
    · constructor
      · intro event rest' off
        cases off
      · intro c is
        cases is
        exact active
    · exact ih

theorem Kept.next (kept : Kept s) (old : ∀ event rest, s.calls n ≠ some ⟨.emit event, rest⟩)
    (rest : List (ℕ × Status)) : Kept (Collaboration.setCall s n (nextSwept rest)) :=
  kept.setCall old (nextSwept_plain rest).1 (nextSwept_plain rest).2

theorem eventsOf_owe (s : System) (n : ℕ) (event : Event) (rest : List (ℕ × Status)) (id : ℕ) :
    eventsOf (owe s n event rest) id =
      eventsOf s id ++ if event.record = id then [event] else [] := by
  unfold eventsOf owe
  simp only [Collaboration.setCall, List.map_append, List.map_cons, List.map_nil, List.filter_append]
  rw [← List.append_assoc, List.filter_cons, List.filter_nil]
  by_cases is : event.record = id
  · simp [is]
  · simp [is]

/-- A row is changed and its event is still to come. -/
theorem Kept.owe (kept : Kept s) (old : ∀ event rest, s.calls n ≠ some ⟨.emit event, rest⟩)
    {rows : List Row} (promoted : (rows.filterMap (·.sourceMessage)).Nodup)
    (history : ∀ id, HistoryAt rows id
      (eventsOf s id ++ if event.record = id then [event] else [])) :
    Kept (owe { s with rows } n event rest) := by
  have fresh : n ∉ s.unwritten.map (·.1) := by
    intro among
    obtain ⟨⟨m, e⟩, there, rfl⟩ := List.mem_map.mp among
    obtain ⟨rest', is⟩ := (kept.owed m e).mp there
    exact old e rest' is
  refine ⟨?_, ?_, ?_, ?_, kept.overwritten, promoted⟩
  · intro m e
    change (m, e) ∈ s.unwritten ++ [(n, event)] ↔
      ∃ rest', (if m = n then some ⟨.emit event, rest⟩ else s.calls m) = _
    rw [List.mem_append, kept.owed, List.mem_singleton]
    split_ifs with is
    · subst is
      constructor
      · rintro (⟨rest', off⟩ | same)
        · exact absurd off (old e rest')
        · cases same
          exact ⟨rest, rfl⟩
      · rintro ⟨rest', same⟩
        cases same
        exact .inr rfl
    · constructor
      · rintro (there | same)
        · exact there
        · exact absurd (Prod.mk.inj same).1 is
      · exact .inl
  · change ((s.unwritten ++ [(n, event)]).map (·.1)).Nodup
    rw [List.map_append]
    refine List.Nodup.append kept.numbers (List.nodup_singleton _) ?_
    intro m among same
    rw [List.mem_singleton.mp same] at among
    exact fresh among
  · intro id
    rw [eventsOf_owe]
    exact history id
  · intro m c
    change (if m = n then some ⟨.emit event, rest⟩ else s.calls m) = some c → _
    split_ifs
    · rintro ⟨⟩
      trivial
    · exact kept.swept m c

theorem Kept.overwrite (kept : Kept s) {status : Status} (active : isActive status = true) :
    Kept (Collaboration.overwrite s status) := by
  refine ⟨kept.owed, kept.numbers, kept.history, kept.swept, ?_, kept.promoted⟩
  intro old among
  rcases List.mem_append.mp among with before | is
  · exact kept.overwritten old before
  · rw [List.mem_singleton.mp is]
    exact active

/-- The first event that a record still waits for is written. -/
theorem Kept.pay (kept : Kept s)
    (first : s.unwritten.find? (·.2.record == event.record) = some (n, event))
    (is : s.calls n = some ⟨.emit event, rest⟩) :
    Kept (Collaboration.setCall (Collaboration.pay (write s event) n) n (nextSwept rest)) := by
  obtain ⟨-, as, bs, split, others⟩ := List.find?_eq_some_iff_append.mp first
  have numbers := kept.numbers
  rw [split, List.map_append, List.map_cons] at numbers
  have notBefore : n ∉ as.map (·.1) := fun among =>
    List.disjoint_of_nodup_append numbers among (List.mem_cons_self ..)
  have notAfter : n ∉ bs.map (·.1) :=
    (List.nodup_cons.mp (List.nodup_append.mp numbers).2.1).1
  have paid : s.unwritten.eraseP (·.1 == n) = as ++ bs := by
    rw [split, List.eraseP_append_right,
      List.eraseP_cons_of_pos (p := fun x : ℕ × Event => x.1 == n) (beq_self_eq_true n)]
    intro entry among
    have other : entry.1 ≠ n := fun same => notBefore (List.mem_map.mpr ⟨entry, among, same⟩)
    simpa using other
  refine ⟨?_, ?_, ?_, ?_, kept.overwritten, kept.promoted⟩
  · intro m e
    change (m, e) ∈ s.unwritten.eraseP (·.1 == n) ↔
      ∃ rest', (if m = n then nextSwept rest else s.calls m) = some ⟨.emit e, rest'⟩
    rw [paid]
    split_ifs with same
    · subst same
      constructor
      · intro among
        rcases List.mem_append.mp among with before | after
        · exact absurd (List.mem_map.mpr ⟨_, before, rfl⟩) notBefore
        · exact absurd (List.mem_map.mpr ⟨_, after, rfl⟩) notAfter
      · rintro ⟨rest', off⟩
        exact absurd off ((nextSwept_plain rest).1 e rest')
    · rw [← kept.owed, split, List.mem_append, List.mem_append, List.mem_cons]
      have other : (m, e) ≠ (n, event) := fun off => same (Prod.mk.inj off).1
      tauto
  · change ((s.unwritten.eraseP (·.1 == n)).map (·.1)).Nodup
    rw [paid, List.map_append]
    exact numbers.sublist ((List.sublist_cons_self ..).append_left _)
  · intro id
    have same : eventsOf (Collaboration.setCall (Collaboration.pay (write s event) n) n
        (nextSwept rest)) id = eventsOf s id := by
      change ((s.events ++ [event]) ++ (s.unwritten.eraseP (·.1 == n)).map (·.2)).filter _ =
        (s.events ++ s.unwritten.map (·.2)).filter _
      rw [paid, split]
      by_cases of : event.record = id
      · have none : (as.map (·.2)).filter (·.record == id) = [] := by
          rw [List.filter_eq_nil_iff]
          intro e among
          obtain ⟨entry, there, rfl⟩ := List.mem_map.mp among
          have other := others entry there
          rw [of] at other
          simpa using other
        simp [none, of]
      · simp [of]
    rw [same]
    exact kept.history id
  · intro m c
    change (if m = n then nextSwept rest else s.calls m) = some c → _
    split_ifs
    · exact (nextSwept_plain rest).2 c
    · exact kept.swept m c

/-! ## Steps -/

theorem getElem?_setStatus (s : System) (id other : ℕ) (status : Status) :
    (setStatus s id status).rows[other]? =
      (s.rows[other]?).map fun row => if id = other then { row with status } else row := by
  unfold setStatus
  rw [List.getElem?_modify]
  split_ifs <;> rfl

theorem setStatus_sourceMessages (s : System) (id : ℕ) (status : Status) :
    (setStatus s id status).rows.filterMap (·.sourceMessage) =
      s.rows.filterMap (·.sourceMessage) := by
  unfold setStatus
  generalize s.rows = rows
  induction rows generalizing id with
  | nil => cases id <;> rfl
  | cons row rows ih =>
    cases id with
    | zero => rfl
    | succ id => simp only [List.modify_succ_cons, List.filterMap_cons, ih]

/-- A change of status and its event. -/
theorem HistoryAt.setStatus {id : ℕ} {row : Row} (here : s.rows[id]? = some row)
    {events : ℕ → List Event} (history : ∀ id, HistoryAt s.rows id (events id)) (type : String)
    (status : Status) (other : ℕ) :
    HistoryAt (setStatus s id status).rows other
      (events other ++ if id = other then [⟨id, type, some row.status, status⟩] else []) := by
  have old := history other
  unfold HistoryAt at old ⊢
  rw [getElem?_setStatus]
  by_cases is : id = other
  · subst is
    rw [here] at old ⊢
    simp only [Option.map_some, if_true]
    exact old.append rfl rfl
  · simp only [is, if_false, List.append_nil]
    rw [Option.map_id']
    exact old

theorem Kept.insert (kept : Kept s) (old : ∀ event rest, s.calls n ≠ some ⟨.emit event, rest⟩)
    {kind : Kind} {source : Option Source} {sourceMessage : Option String}
    (fresh : Collaboration.promoted s sourceMessage = false) (rest : List (ℕ × Status)) :
    Kept (Collaboration.owe
      { s with rows := s.rows ++ [⟨kind, kind.initial, source, sourceMessage⟩] } n
      ⟨s.rows.length, eventType kind kind.initial, none, kind.initial⟩ rest) := by
  apply kept.owe old
  · rw [List.filterMap_append]
    cases sourceMessage with
    | none => simpa using kept.promoted
    | some message =>
      refine List.Nodup.append kept.promoted (List.nodup_singleton _) ?_
      intro m among is
      rw [List.mem_singleton.mp is] at among
      obtain ⟨row, there, same⟩ := List.mem_filterMap.mp among
      unfold Collaboration.promoted at fresh
      rw [Option.isSome_some, Bool.true_and, List.any_eq_false] at fresh
      exact fresh row there (by simpa using same)
  · intro id
    have before := kept.history id
    unfold HistoryAt at before ⊢
    rcases Nat.lt_trichotomy id s.rows.length with less | is | more
    · rw [List.getElem?_append_left less, if_neg (Nat.ne_of_gt less), List.append_nil]
      exact before
    · subst is
      rw [List.getElem?_eq_none (Nat.le_refl _)] at before
      rw [List.getElem?_concat_length, if_pos rfl]
      dsimp only at before ⊢
      rw [before]
      exact ⟨rfl, rfl, rfl⟩
    · rw [List.getElem?_eq_none (Nat.le_of_lt more)] at before
      rw [List.getElem?_eq_none (by rw [List.length_append]; exact more), if_neg (Nat.ne_of_lt more),
        List.append_nil]
      exact before

theorem Kept.update (kept : Kept s) (old : ∀ event rest, s.calls n ≠ some ⟨.emit event, rest⟩)
    {id : ℕ} {row : Row} (here : s.rows[id]? = some row) (status : Status)
    (rest : List (ℕ × Status)) :
    Kept (Collaboration.owe (setStatus s id status) n
      ⟨id, eventType row.kind status, some row.status, status⟩ rest) := by
  have changed := HistoryAt.setStatus here kept.history (eventType row.kind status) status
  have messages := setStatus_sourceMessages s id status
  have promoted : ((setStatus s id status).rows.filterMap (·.sourceMessage)).Nodup :=
    messages ▸ kept.promoted
  exact kept.owe old promoted changed

theorem Kept.advance (kept : Kept s) (undisturbed : Undisturbed s (.advance n)) :
    Kept (Collaboration.advance s n) := by
  rw [Undisturbed] at undisturbed
  unfold Collaboration.advance
  cases is : s.calls n with
  | none => exact kept
  | some call =>
    obtain ⟨stage, rest⟩ := call
    rw [is] at undisturbed
    have plain : ∀ {c : Option Call}, (∀ event rest, c ≠ some ⟨.emit event, rest⟩) →
        c = s.calls n → ∀ event rest, s.calls n ≠ some ⟨.emit event, rest⟩ := by
      rintro c no rfl
      exact no
    have sweptActive := kept.swept n _ is
    cases stage with
    | create kind source sourceMessage =>
      have old := plain (by intro _ _ off; cases off) is.symm
      dsimp only
      split_ifs
      · exact kept.setCall old (by intro _ _ off; cases off) (by intro _ off; cases off)
      · exact kept.setCall old (by intro _ _ off; cases off) (by intro _ off; cases off; trivial)
    | insert kind source sourceMessage =>
      have old := plain (by intro _ _ off; cases off) is.symm
      dsimp only
      split_ifs with taken
      · exact kept.setCall old (by intro _ _ off; cases off) (by intro _ off; cases off)
      · exact kept.insert old (by simpa using taken) rest
    | read id status swept =>
      have old := plain (by intro _ _ off; cases off) is.symm
      dsimp only
      cases s.rows[id]? with
      | none => exact kept.next old rest
      | some row =>
        refine kept.setCall old (by intro _ _ off; cases off) ?_
        intro c same
        cases same
        cases swept with
        | none => trivial
        | some _ => exact sweptActive
    | update id status existing swept =>
      have old := plain (by intro _ _ off; cases off) is.symm
      dsimp only at undisturbed ⊢
      cases here : s.rows[id]? with
      | none => exact kept.next old rest
      | some row =>
        obtain ⟨asRead, asSwept⟩ := undisturbed row here
        have changed := kept.update old here status rest
        rw [asRead] at changed
        dsimp only
        split_ifs with by_
        · obtain ⟨read, rfl⟩ := Option.isSome_iff_exists.mp by_
          refine changed.overwrite ?_
          rw [asSwept read rfl]
          exact sweptActive
        · exact changed
    | emit event =>
      dsimp only at undisturbed ⊢
      exact kept.pay undisturbed is
    | sweep source =>
      have old := plain (by intro _ _ off; cases off) is.symm
      exact kept.next old _

theorem rows_resolveLinked (s : System) (id other : ℕ) (apart : other ≠ id) :
    (resolveLinked s id).rows[other]? = s.rows[other]? := by
  unfold resolveLinked
  cases s.rows[id]? with
  | none => rfl
  | some row =>
    change (setStatus s id .resolved).rows[other]? = _
    rw [getElem?_setStatus]
    simp [apart.symm]

theorem unwritten_resolveLinked (s : System) (id : ℕ) :
    (resolveLinked s id).unwritten = s.unwritten := by
  unfold resolveLinked
  cases s.rows[id]? <;> rfl

theorem Kept.resolveLinked (kept : Kept s) {id : ℕ}
    (active : ∀ row, s.rows[id]? = some row → isActive row.status = true)
    (settled : ∀ owed ∈ s.unwritten, owed.2.record ≠ id) :
    Kept (Collaboration.resolveLinked s id) := by
  unfold Collaboration.resolveLinked
  cases here : s.rows[id]? with
  | none => exact kept
  | some row =>
    apply Kept.overwrite _ (active row here)
    refine ⟨kept.owed, kept.numbers, ?_, kept.swept, kept.overwritten, ?_⟩
    · intro other
      have changed := HistoryAt.setStatus here kept.history
        (eventType .blocker .resolved) .resolved other
      have same : eventsOf (write (setStatus s id .resolved)
          ⟨id, eventType .blocker .resolved, some row.status, .resolved⟩) other =
          eventsOf s other ++ if id = other then
            [⟨id, eventType .blocker .resolved, some row.status, .resolved⟩] else [] := by
        change ((s.events ++ [_]) ++ s.unwritten.map Prod.snd).filter _ =
          (s.events ++ s.unwritten.map Prod.snd).filter _ ++ _
        by_cases is : id = other
        · have none : (s.unwritten.map (·.2)).filter (·.record == other) = [] := by
            rw [List.filter_eq_nil_iff]
            intro e among
            obtain ⟨entry, there, rfl⟩ := List.mem_map.mp among
            have apart := settled entry there
            rw [is] at apart
            simpa using apart
          simp [none, is]
        · simp [is]
      rw [same]
      exact changed
    · have messages := setStatus_sourceMessages s id .resolved
      exact messages ▸ kept.promoted

theorem Kept.resolveAll (ids : List ℕ) (apart : ids.Nodup) (kept : Kept s)
    (active : ∀ id ∈ ids, ∀ row, s.rows[id]? = some row → isActive row.status = true)
    (settled : ∀ id ∈ ids, ∀ owed ∈ s.unwritten, owed.2.record ≠ id) :
    Kept (ids.foldl Collaboration.resolveLinked s) := by
  induction ids generalizing s with
  | nil => exact kept
  | cons id ids ih =>
    obtain ⟨new, apart⟩ := List.nodup_cons.mp apart
    rw [List.forall_mem_cons] at active settled
    apply ih apart (kept.resolveLinked active.1 settled.1)
    · intro other among row
      have different : other ≠ id := by
        rintro rfl
        exact new among
      rw [rows_resolveLinked s id other different]
      exact active.2 other among row
    · intro other among
      rw [unwritten_resolveLinked]
      exact settled.2 other among

theorem mem_linked {source : Source} {entry : ℕ × Status} (among : entry ∈ linked s source) :
    ∃ row, s.rows[entry.1]? = some row ∧ row.status = entry.2 := by
  unfold linked at among
  obtain ⟨⟨row, id⟩, there, rfl⟩ := List.mem_map.mp among
  exact ⟨row, List.mem_zipIdx_iff_getElem?.mp (List.mem_filter.mp there).1, rfl⟩

theorem linked_nodup (s : System) (source : Source) : ((linked s source).map (·.1)).Nodup := by
  unfold linked
  rw [List.map_map]
  have all : (s.rows.zipIdx.map Prod.snd).Nodup := by
    rw [List.zipIdx_map_snd]
    exact List.nodup_range' ..
  exact all.sublist (List.filter_sublist.map _)

theorem Kept.resolveApproval (kept : Kept s) {approval : String}
    (settled : Undisturbed s (.resolveApproval approval)) :
    Kept (Collaboration.resolveApproval s approval) := by
  rw [Undisturbed] at settled
  unfold Collaboration.resolveApproval
  apply Kept.resolveAll _ _ kept
  · intro id among row here
    obtain ⟨entry, there, rfl⟩ := List.mem_map.mp among
    obtain ⟨linked, active⟩ := List.mem_filter.mp there
    obtain ⟨row', same, status⟩ := mem_linked linked
    rw [here] at same
    cases same
    rw [status]
    exact active
  · intro id among
    obtain ⟨entry, there, rfl⟩ := List.mem_map.mp among
    obtain ⟨linked, active⟩ := List.mem_filter.mp there
    exact settled entry linked active
  · exact (linked_nodup s _).sublist (List.filter_sublist.map _)

theorem relinked_same (prior : List String) (approval : String) (row : Row) :
    (relinked prior approval row).kind = row.kind ∧
      (relinked prior approval row).status = row.status ∧
      (relinked prior approval row).sourceMessage = row.sourceMessage := by
  unfold relinked
  cases row.source with
  | none => exact ⟨rfl, rfl, rfl⟩
  | some source =>
    dsimp only
    split_ifs
    · exact ⟨rfl, rfl, rfl⟩
    · exact ⟨rfl, rfl, rfl⟩

theorem Kept.requestExecutionApproval (kept : Kept s) (prior : List String) (approval : String) :
    Kept (Collaboration.requestExecutionApproval s prior approval) := by
  refine ⟨kept.owed, kept.numbers, ?_, kept.swept, kept.overwritten, ?_⟩
  · intro id
    have before := kept.history id
    unfold HistoryAt at before ⊢
    change match (s.rows.map (relinked prior approval))[id]? with
      | none => eventsOf s id = []
      | some row => History row.kind row.status (eventsOf s id)
    rw [List.getElem?_map]
    cases here : s.rows[id]? with
    | none =>
      rw [here] at before
      exact before
    | some row =>
      rw [here] at before
      obtain ⟨kind, status, -⟩ := relinked_same prior approval row
      dsimp only [Option.map_some]
      rw [kind, status]
      exact before
  · change ((s.rows.map (relinked prior approval)).filterMap (·.sourceMessage)).Nodup
    rw [List.filterMap_map]
    have same : ((·.sourceMessage) ∘ relinked prior approval) = (·.sourceMessage) := by
      funext row
      exact (relinked_same prior approval row).2.2
    rw [same]
    exact kept.promoted

theorem Kept.step (kept : Kept s) {a : Step} (undisturbed : Undisturbed s a) :
    Kept (Collaboration.step s a) := by
  unfold Collaboration.step
  cases a with
  | begin n start =>
    dsimp only
    split_ifs with idle
    · have none := Option.isNone_iff_eq_none.mp idle
      apply kept.setCall
      · intro _ _ off
        rw [none] at off
        cases off
      · intro _ _ off
        cases start <;> cases off
      · intro c is
        cases is
        cases start <;> trivial
    · exact kept
  | advance n => exact kept.advance undisturbed
  | fail n =>
    apply kept.setCall undisturbed
    · intro _ _ off
      cases off
    · intro _ off
      cases off
  | resolveApproval approval => exact kept.resolveApproval undisturbed
  | requestExecutionApproval prior approval => exact kept.requestExecutionApproval prior approval

theorem calls_advance {m : ℕ} (apart : m ≠ n) :
    (Collaboration.advance s n).calls m = s.calls m := by
  have set : ∀ (t : System) (c : Option Call),
      (Collaboration.setCall t n c).calls m = t.calls m := fun _ _ => if_neg apart
  unfold Collaboration.advance
  split
  · rfl
  · split_ifs
    · exact set _ _
    · exact set _ _
  · split_ifs
    · exact set _ _
    · exact set _ _
  · split
    · exact set _ _
    · exact set _ _
  · split
    · exact set _ _
    · dsimp only
      split_ifs
      · exact set _ _
      · exact set _ _
  · exact set _ _
  · exact set _ _

/-- A call that takes no step stays as it is. -/
theorem calls_run {m : ℕ} {steps : List Step}
    (apart : ∀ a ∈ steps, (∃ n start, a = .begin n start ∧ m ≠ n) ∨ ∃ n, a = .advance n ∧ m ≠ n) :
    (steps.foldl Collaboration.step s).calls m = s.calls m := by
  induction steps generalizing s with
  | nil => rfl
  | cons a as ih =>
    rw [List.forall_mem_cons] at apart
    rw [List.foldl_cons, ih apart.2]
    rcases apart.1 with ⟨n, start, rfl, other⟩ | ⟨n, rfl, other⟩
    · unfold Collaboration.step
      dsimp only
      split_ifs
      · exact if_neg other
      · rfl
    · exact calls_advance other

theorem Kept.start : Kept {} := by
  refine ⟨?_, List.nodup_nil, fun _ => rfl, ?_, List.forall_mem_nil _, List.nodup_nil⟩
  · intro n event
    constructor
    · intro among
      cases among
    · rintro ⟨_, off⟩
      cases off
  · intro n call off
    cases off

theorem Kept.run {steps : List Step} (kept : Kept s) (undisturbed : UndisturbedRun s steps) :
    Kept (steps.foldl Collaboration.step s) := by
  induction steps generalizing s with
  | nil => exact kept
  | cons a as ih => exact ih (kept.step undisturbed.1) undisturbed.2

theorem Kept.lawful (kept : Kept s) : Lawful s := by
  refine ⟨?_, kept.overwritten, ?_⟩
  · intro quiet id row here
    have none : s.unwritten = [] := by
      rw [List.eq_nil_iff_forall_not_mem]
      rintro ⟨n, event⟩ among
      obtain ⟨rest, is⟩ := (kept.owed n event).mp among
      rw [quiet n] at is
      cases is
    have history := kept.history id
    unfold HistoryAt eventsOf at history
    rw [here, none, List.map_nil, List.append_nil] at history
    exact history
  · intro message
    have counted := List.nodup_iff_count_le_one.mp kept.promoted message
    rw [List.count_filterMap, List.countP_eq_length_filter] at counted
    exact counted

end Moves

/-- Without a crossing every history is kept. -/
theorem run_lawful (steps : List Step) (undisturbed : UndisturbedRun {} steps) :
    Lawful (run steps) :=
  (Kept.start.run undisturbed).lawful

/-- A message is promoted and its decision accepted. -/
def accepting : List Step :=
  [.begin 0 (.create .decision none (some "msg_1")), .advance 0, .advance 0, .advance 0,
    .begin 0 (.setStatus 0 .accepted), .advance 0, .advance 0, .advance 0]

theorem run_lawful_accepting : Lawful (run accepting) :=
  run_lawful accepting (by
    refine ⟨trivial, trivial, trivial, rfl, trivial, trivial, ?_, rfl, trivial⟩
    intro row is
    cases is
    exact ⟨rfl, fun _ off => by cases off⟩)

/-- Two calls read the decision while it is proposed. -/
def crossing : List Step :=
  [.begin 0 (.create .decision none none), .advance 0, .advance 0, .advance 0,
    .begin 0 (.setStatus 0 .accepted), .begin 1 (.setStatus 0 .rejected), .advance 0, .advance 1,
    .advance 0, .advance 1, .advance 0, .advance 1]

/-- Both events say that the decision was proposed before. -/
theorem not_run_lawful : ¬∀ steps, Lawful (run steps) := by
  intro always
  have quiet : ∀ n, (run crossing).calls n = none := by
    intro n
    by_cases zero : n = 0
    · subst zero
      rfl
    · by_cases one : n = 1
      · subst one
        rfl
      · apply calls_run
        simp [crossing, zero, one]
  have history := (always crossing).history quiet 0 _ rfl
  cases history.2.2.2.1
end Artoo.Server.Collaboration
