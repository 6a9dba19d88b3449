import Artoo.Server.Concurrent
import Artoo.Server.Reads
import Artoo.Server.System

/-! Which leases may be held at once, whatever transactions run concurrently. -/
namespace Artoo.Server
open Artoo.Lib Artoo.Protocol Artoo.Domain Tx

def Held (l : LeaseRow) (db : Database) : Prop := db.leases.get? l.id = some l ∧ l.status = .held

/-- Leases of one project on overlapping paths, one of them for writing. -/
def Clash (l m : LeaseRow) : Prop :=
  l.projectId = m.projectId ∧ leasesConflict l.scope m.scope = true

def SameHolder (l m : LeaseRow) : Prop := l.holderType = m.holderType ∧ l.holderId = m.holderId

theorem Clash.symm {l m : LeaseRow} (h : Clash l m) : Clash m l :=
  ⟨h.1.symm, leasesConflict_comm _ _ ▸ h.2⟩

theorem SameHolder.symm {l m : LeaseRow} (h : SameHolder l m) : SameHolder m l :=
  ⟨h.1.symm, h.2.symm⟩

/-- Leases stay, a held one as it is; what is not held is never held again. -/
def LeasesLater (db db' : Database) : Prop :=
  ∀ id l, db.leases.get? id = some l →
    ∃ m, db'.leases.get? id = some m ∧ (m.status = .held → m = l)

theorem LeasesLater.refl {db : Database} : LeasesLater db db := fun _ l found => ⟨l, found, fun _ => rfl⟩

theorem LeasesLater.trans {a b c : Database} (first : LeasesLater a b) (last : LeasesLater b c) :
    LeasesLater a c := by
  intro id l found
  obtain ⟨m, there, same⟩ := first id l found
  obtain ⟨n, still, kept⟩ := last id m there
  refine ⟨n, still, fun held => ?_⟩
  have is := kept held
  rw [is] at held ⊢
  exact same held

/-- A lease held before and after was held in between. -/
theorem LeasesLater.held {a b c : Database} {m : LeaseRow} (first : LeasesLater a b)
    (last : LeasesLater b c) (before : Held m a) (after : Held m c) : Held m b := by
  obtain ⟨n, there, _⟩ := first m.id m before.1
  obtain ⟨o, still, kept⟩ := last m.id n there
  rw [after.1] at still
  cases still
  have same := kept after.2
  rw [← same] at there
  exact ⟨there, after.2⟩

/-- Other transactions retire leases and insert some, but not the rows that are locked. -/
def leaseRely : Rely Database Lock where
  rel locks db db' := LeasesLater db db' ∧ ∀ k ∈ locks, k.Same db db'
  refl _ _ := ⟨.refl, fun _ _ => .refl⟩
  trans _ _ _ _ first last :=
    ⟨first.1.trans last.1, fun k held => (first.2 k held).trans (last.2 k held)⟩
  weaken _ _ _ _ fewer step := ⟨step.1, fun k held => step.2 k (fewer held)⟩

def leaseOf : Write → Option LeaseRow
  | .lease row => some row
  | _ => none

/-- The last row of a lease that a transaction wrote. -/
def loggedLease (log : List Write) (id : String) : Option LeaseRow := logged LeaseRow.id leaseOf log id

theorem lease_view {s : Standing} {id : String} :
    s.view.leases.get? id = (loggedLease s.log id).or (s.db.leases.get? id) := by
  apply get?_writeAll (fun db : Database => db.leases)
  intro w db
  cases w <;> rfl

/-- A lease that the transaction inserted, cleared of those it could see. -/
structure Fresh (began : Database) (holder : LeaseHolderType × String) (s : Standing)
    (row : LeaseRow) : Prop where
  held : row.status = .held
  absent : s.db.leases.get? row.id = none
  holder : (row.holderType, row.holderId) = holder
  cleared : ∀ m, Held m began → Held m s.db → loggedLease s.log m.id = none → Clash row m →
    SameHolder row m

/-- A transaction that retires leases and inserts fresh ones for one holder. -/
structure Leasing (began : Database) (holder : LeaseHolderType × String) (s : Standing) : Prop where
  since : LeasesLater began s.db
  rows : ∀ id row, loggedLease s.log id = some row →
    .lease id ∈ s.locks ∧ (row.status ≠ .held ∨ Fresh began holder s row)

section Leasing

variable {began db : Database} {holder : LeaseHolderType × String} {s : Standing}

theorem Leasing.start : Leasing db holder ⟨db, [], []⟩ :=
  ⟨.refl, fun _ _ found => by cases found⟩

theorem Leasing.later (h : Leasing began holder s) (step : leaseRely.rel s.locks s.db db) :
    Leasing began holder (s.at_ db) := by
  refine ⟨h.since.trans step.1, fun id row found => ?_⟩
  obtain ⟨locked, retired | fresh⟩ := h.rows id row found
  · exact ⟨locked, Or.inl retired⟩
  · have key : row.id = id := (logged_eq_some found).1
    have same : db.leases.get? id = s.db.leases.get? id := step.2 _ locked
    refine ⟨locked, Or.inr ⟨fresh.held, ?_, fresh.holder, fun m before after => ?_⟩⟩
    · rw [key]
      exact same.trans (key ▸ fresh.absent)
    · exact fresh.cleared m before (h.since.held step.1 before after)

/-- No lease that is written is held. -/
def Retires (_ : Database) (w : Write) : Prop := ∀ row, w = .lease row → row.status ≠ .held

theorem loggedLease_append {log more : List Write} {id : String} :
    loggedLease (log ++ more) id = (loggedLease more id).or (loggedLease log id) := logged_append

theorem Fresh.grow {row : LeaseRow} {locks more : List Lock} {writes : List Write} {s : Standing}
    (h : Fresh began holder s row) :
    Fresh began holder ⟨s.db, locks ++ more, s.log ++ writes⟩ row := by
  refine ⟨h.held, h.absent, h.holder, fun m before after unwritten => ?_⟩
  rw [loggedLease_append, Option.or_eq_none_iff] at unwritten
  exact h.cleared m before after unwritten.2

theorem Leasing.retire (h : Leasing began holder s) {locks : Database → List Lock}
    {writes : Database → List Write} (retires : ∀ w ∈ writes s.view, Retires s.view w) :
    Leasing began holder (s.after locks writes) := by
  refine ⟨h.since, fun id row found => ?_⟩
  have found : loggedLease (s.log ++ writes s.view) id = some row := found
  rw [loggedLease_append, Option.or_eq_some_iff] at found
  rcases found with new | ⟨_, old⟩
  · obtain ⟨key, w, written, is⟩ := logged_eq_some new
    cases w <;> cases is
    refine ⟨?_, Or.inl (retires _ written row rfl)⟩
    apply List.mem_append_right
    apply List.mem_append_right
    exact List.mem_flatMap.mpr ⟨_, written, List.mem_singleton.mpr (by rw [← key]; rfl)⟩
  · obtain ⟨locked, retired | fresh⟩ := h.rows id row old
    · exact ⟨List.mem_append_left _ locked, Or.inl retired⟩
    · exact ⟨List.mem_append_left _ locked, Or.inr fresh.grow⟩

/-- The insert of a lease of the holder, cleared of those the transaction could see. -/
theorem Leasing.insert (h : Leasing began holder s) {row : LeaseRow} (held : row.status = .held)
    (absent : s.view.leases.get? row.id = none) (of : (row.holderType, row.holderId) = holder)
    (cleared : ∀ m, Held m began → Held m s.db → loggedLease s.log m.id = none → Clash row m →
      SameHolder row m) :
    Leasing began holder ⟨s.db, s.locks ++ [.lease row.id], s.log ++ [.lease row]⟩ := by
  rw [lease_view, Option.or_eq_none_iff] at absent
  refine ⟨h.since, fun id other found => ?_⟩
  have found : loggedLease (s.log ++ [.lease row]) id = some other := found
  rw [loggedLease_append, Option.or_eq_some_iff] at found
  rcases found with new | ⟨_, old⟩
  · obtain ⟨key, w, written, is⟩ := logged_eq_some new
    rw [List.mem_singleton] at written
    cases written
    cases is
    refine ⟨List.mem_append_right _ (by rw [← key]; exact List.mem_singleton.mpr rfl), Or.inr ?_⟩
    exact Fresh.grow ⟨held, absent.2, of, cleared⟩
  · obtain ⟨locked, retired | fresh⟩ := h.rows id other old
    · exact ⟨List.mem_append_left _ locked, Or.inl retired⟩
    · exact ⟨List.mem_append_left _ locked, Or.inr fresh.grow⟩

/-- What the transaction leaves to the others. -/
theorem Leasing.leaves (h : Leasing began holder s) : LeasesLater s.db s.view := by
  intro id l found
  rw [lease_view]
  cases written : loggedLease s.log id with
  | none => exact ⟨l, found, fun _ => rfl⟩
  | some row =>
    refine ⟨row, rfl, fun held => ?_⟩
    obtain ⟨_, retired | fresh⟩ := h.rows id row written
    · exact absurd held retired
    · have absent := fresh.absent
      rw [(logged_eq_some written).1, found] at absent
      cases absent

/-- A held lease of the view was there, or is fresh. -/
theorem Leasing.held (h : Leasing began holder s) {l : LeaseRow} (held : Held l s.view) :
    (Held l s.db ∧ loggedLease s.log l.id = none) ∨
      (loggedLease s.log l.id = some l ∧ Fresh began holder s l) := by
  obtain ⟨found, is⟩ := held
  rw [lease_view, Option.or_eq_some_iff] at found
  rcases found with written | ⟨unwritten, there⟩
  · obtain ⟨_, retired | fresh⟩ := h.rows _ _ written
    · exact absurd is retired
    · exact Or.inr ⟨written, fresh⟩
  · exact Or.inl ⟨⟨there, is⟩, unwritten⟩

end Leasing

section Programs

variable {began : Database} {holder : LeaseHolderType × String} {s : Standing}

/-- A program that inserts no lease. -/
theorem under_retires {α : Type} {p : Txn α} (h : Leasing began holder s) (retires : Writes Retires p) :
    under leaseRely p (fun _ s' => Leasing began holder s') s :=
  retires.under (fun _ _ leasing step => leasing.later step)
    (fun _ _ _ leasing writes => leasing.retire writes) h

theorem retires_event : ∀ (view : Database) (e : EventRow), Retires view (.event e) :=
  fun _ _ _ is => nomatch is

theorem writes_updateLease {id : String} {set : LeaseRow → LeaseRow}
    (lapses : ∀ row, (set row).status ≠ .held) : Writes Retires (updateLease id set) := by
  apply writes_update
  intro _ row _ _ is
  cases is
  exact lapses row

theorem writes_expireStaleLeases {leases : List LeaseRow} {now : String} :
    Writes Retires (expireStaleLeases leases now) := by
  apply writes_forM
  intro l _
  split
  · apply writes_bind (writes_updateLease fun _ => by simp)
    intro _
    exact writes_bind (writes_logEvent retires_event) fun _ => writes_done
  · exact writes_done

theorem writes_releaseRow {lease : LeaseRow} {now : String} : Writes Retires (releaseRow lease now) := by
  unfold releaseRow
  apply writes_bind (writes_updateLease fun _ => by simp)
  intro _
  exact writes_bind (writes_logEvent retires_event) fun _ => writes_done

theorem writes_releaseRunLeases {runId : String} : Writes Retires (releaseRunLeases runId) := by
  unfold releaseRunLeases
  apply writes_bind writes_nowIso
  intro now
  apply writes_bind writes_select
  intro held
  exact writes_forM fun _ _ => writes_releaseRow

theorem writes_releaseLease {leaseId : String} : Writes Retires (releaseLease leaseId) := by
  unfold releaseLease
  apply writes_bind writes_nowIso
  intro now
  apply writes_bind writes_select
  intro found
  apply writes_bind writes_orThrow
  intro lease
  dsimp only
  split
  · apply writes_bind writes_releaseRow
    intro _
    exact writes_bind writes_select fun _ => writes_orThrow
  · exact writes_bind writes_select fun _ => writes_orThrow

theorem writes_listLeases {projectId : String} {status : Option LeaseStatus} :
    Writes Retires (listLeases projectId status) := by
  unfold listLeases
  apply writes_bind writes_select
  intro leases
  apply writes_bind writes_nowIso
  intro now
  exact writes_bind writes_expireStaleLeases fun _ => writes_select

theorem logged_later {log more : List Write} {id : String} (grown : log <+: more)
    (written : (loggedLease log id).isSome) : (loggedLease more id).isSome := by
  obtain ⟨rest, rfl⟩ := grown
  rw [loggedLease_append, Option.isSome_or, written, Bool.or_true]

/-- A lease a transaction sees, it sees to its end. -/
theorem present_since {s' : Standing} {id : String} (there : (s.view.leases.get? id).isSome)
    (since : Progress.Since leaseRely s s') : (s'.view.leases.get? id).isSome := by
  rw [lease_view, Option.isSome_or, Bool.or_eq_true] at there ⊢
  rcases there with written | present
  · exact Or.inl (logged_later since.log written)
  · obtain ⟨row, found⟩ := Option.isSome_iff_exists.mp present
    obtain ⟨kept, still, _⟩ := since.db.1 _ _ found
    exact Or.inr (by rw [still]; rfl)

theorem since_at {db : Database} (step : leaseRely.rel s.locks s.db db) :
    Progress.Since leaseRely s (s.at_ db) :=
  ⟨step, List.Subset.refl _, List.prefix_refl _⟩

/-- The expiry of one lease, when it is past, is written. -/
theorem under_expireLease {l : LeaseRow} (h : Leasing began holder s)
    (there : (s.view.leases.get? l.id).isSome) :
    under leaseRely (do
        let _ ← updateLease l.id fun row => { row with status := .expired }
        let _ ← logEvent (leaseEvent .leaseExpired l) : Txn Unit)
      (fun _ s' => Leasing began holder s' ∧ (loggedLease s'.log l.id).isSome) s := by
  apply under_and
  · apply under_retires h
    apply writes_bind (writes_updateLease fun _ => by simp)
    intro _
    exact writes_bind (writes_logEvent retires_event) fun _ => writes_done
  · unfold updateLease
    rw [under_update]
    intro db step
    obtain ⟨row, seen⟩ := Option.isSome_iff_exists.mp (present_since there (since_at step))
    have key : row.id = l.id := Table.key_of_get? seen
    rw [seen]
    apply under_mono under_since
    intro _ s' since
    apply logged_later since.log
    rw [loggedLease_append, Option.isSome_or]
    simp [loggedLease, logged, leaseOf, key]

/-- Every lease past its expiry is written, as expired. -/
theorem under_expireStaleLeases {leases : List LeaseRow} {now : String}
    (h : Leasing began holder s) (there : ∀ l ∈ leases, (s.view.leases.get? l.id).isSome) :
    under leaseRely (expireStaleLeases leases now) (fun _ s' => Leasing began holder s' ∧
      ∀ l ∈ leases, (l.status == .held && leasePast l now) = true →
        (loggedLease s'.log l.id).isSome) s := by
  induction leases generalizing s with
  | nil => exact fun db step => ⟨h.later step, fun _ member => nomatch member⟩
  | cons l leases ih =>
    have round : under leaseRely (if (l.status == .held && leasePast l now) = true then (do
        let _ ← updateLease l.id fun row => { row with status := .expired }
        let _ ← logEvent (leaseEvent .leaseExpired l)) else pure ()) (fun _ s' =>
        Leasing began holder s' ∧ ((l.status == .held && leasePast l now) = true →
          (loggedLease s'.log l.id).isSome)) s := by
      split
      · apply under_mono (under_expireLease h (there l List.mem_cons_self))
        exact fun _ _ both => ⟨both.1, fun _ => both.2⟩
      · rename_i current
        exact fun db step => ⟨h.later step, fun past => absurd past current⟩
    change under leaseRely (_ >>= fun _ => expireStaleLeases leases now) _ _
    apply under_seq_since round
    rintro _ s' ⟨leasing, written⟩ since
    have persists : ∀ m ∈ leases, (s'.view.leases.get? m.id).isSome :=
      fun m member => present_since (there m (List.mem_cons_of_mem _ member)) since
    apply under_mono (under_and (ih leasing persists) under_since)
    rintro _ s'' ⟨⟨leasing', rest⟩, later⟩
    refine ⟨leasing', fun m member past => ?_⟩
    rcases List.mem_cons.mp member with rfl | old
    · exact logged_later later.log (written past)
    · exact rest m old past

theorem writes_storeTimestamp {platform : Platform} {text : Option String} :
    Writes Retires (storeTimestamp platform text) := by
  unfold storeTimestamp
  split
  · exact writes_done
  · exact writes_bind writes_orThrow fun _ => writes_done

/-- The leases a transaction has read and found active: all that were held at its begin, still
are, and are not its own. -/
def Seen (began : Database) (projectId : String) (active : List LeaseRow) (s : Standing) : Prop :=
  ∀ m, Held m began → Held m s.db → loggedLease s.log m.id = none → m.projectId = projectId →
    m ∈ active

theorem Seen.later {projectId : String} {active : List LeaseRow} {s' : Standing}
    (h : Seen began projectId active s) (from_ : LeasesLater began s.db)
    (later : Progress.Since leaseRely s s') : Seen began projectId active s' := by
  intro m before after unwritten ofProject
  apply h m before (from_.held later.db.1 before after) _ ofProject
  obtain ⟨more, is⟩ := later.log
  rw [← is, loggedLease_append, Option.or_eq_none_iff] at unwritten
  exact unwritten.2

/-- The held leases of a project, as a statement reads them. -/
theorem seen_heldLeases {projectId : String} :
    Seen began projectId (heldLeases projectId s.view) s := by
  intro m _ ⟨found, held⟩ unwritten ofProject
  unfold heldLeases
  rw [Table.mem_select]
  have seen : s.view.leases.get? m.id = some m := by rw [lease_view, unwritten, found]; rfl
  exact ⟨Table.mem_of_get? seen, by simp [ofProject, held]⟩

/-- A transaction that reads the held leases of a project and expires the stale ones goes on with
all that matter among the active ones. -/
theorem under_activeLeases {β : Type} {projectId now : String} {k : List LeaseRow → Txn β}
    {post : β → Standing → Prop} (h : Leasing began holder s)
    (rest : ∀ leases s', Leasing began holder s' →
      Seen began projectId (leases.filter (isActive · now)) s' →
      under leaseRely (k leases) post s') :
    under leaseRely (select (heldLeases projectId) >>= fun projectLeases =>
      expireStaleLeases projectLeases now >>= fun _ => k projectLeases) post s := by
  rw [under_select]
  intro db step
  have leasing := h.later step
  have seen := @seen_heldLeases began (s.at_ db) projectId
  have there : ∀ l ∈ heldLeases projectId (s.at_ db).view,
      ((s.at_ db).view.leases.get? l.id).isSome := by
    intro l member
    rw [Table.get?_of_mem (Table.mem_select.mp member).1]
    rfl
  apply under_seq_since (under_expireStaleLeases leasing there)
  rintro _ s' ⟨leasing', expired⟩ since
  apply rest _ s' leasing'
  intro m before after unwritten ofProject
  have member := seen.later leasing.since since m before after unwritten ofProject
  rw [List.mem_filter]
  refine ⟨member, ?_⟩
  cases past : leasePast m now with
  | false => simp [isActive, after.2, past]
  | true =>
    have written := expired m member (by simp [after.2, past])
    rw [unwritten] at written
    cases written

/-- The insert of a lease, and what follows it without another. -/
theorem under_insertLease {β : Type} {row : LeaseRow} {k : Unit → Txn β}
    (h : Leasing began holder s) (held : row.status = .held)
    (of : (row.holderType, row.holderId) = holder)
    (cleared : ∀ m, Held m began → Held m s.db → loggedLease s.log m.id = none → Clash row m →
      SameHolder row m) {post : β → Standing → Prop}
    (rest : ∀ s', Leasing began holder s' → Progress.Since leaseRely s s' →
      loggedLease s'.log row.id = some row → under leaseRely (k ()) post s') :
    under leaseRely (insertLease row >>= k) post s := by
  unfold insertLease
  rw [under_insert]
  intro db step fresh
  have leasing := h.later step
  apply rest
  · apply leasing.insert held (by simpa using fresh) of
    exact fun m before after => cleared m before (h.since.held step.1 before after)
  · exact ⟨step, List.subset_append_left _ _, List.prefix_append _ _⟩
  · rw [loggedLease_append]
    simp [loggedLease, logged, leaseOf]

theorem under_acquireLease {ctx : Context} {req : AcquireLeaseRequest} :
    under leaseRely (acquireLease ctx req) (fun _ s' => ∃ holder, Leasing began holder s')
      ⟨began, [], []⟩ := by
  unfold acquireLease
  rw [under_nowIso]
  intro now
  rw [under_select]
  intro db step
  rw [under_orThrow]
  intro task _
  dsimp only
  split
  · trivial
  · rename_i path _
    apply under_activeLeases ((@Leasing.start began (req.holderType.getD
      (if req.runId.isSome then .run else .task), req.holderId.getD (req.runId.getD req.taskId))).later
        step)
    intro leases s leasing seen
    split
    · exact fun db step => ⟨_, leasing.later step⟩
    · split
      · trivial
      · rename_i clear
        rw [under_generate]
        intro id
        apply under_seq_since (under_retires leasing writes_storeTimestamp)
        intro expiresAt s' leasing' since
        have seen' := seen.later leasing.since since
        apply under_insertLease leasing' rfl rfl
        · intro m before after unwritten clash
          have member := seen' m before after unwritten clash.1.symm
          have apart := List.find?_eq_none.mp clear m member
          exact absurd clash.2 apart
        · intro s'' leasing'' _ _
          apply under_mono (under_retires leasing'' _) fun _ _ done => ⟨_, done⟩
          apply writes_bind (writes_logEvent retires_event)
          intro _
          exact writes_bind writes_select fun _ => writes_orThrow

theorem under_reserveKeys {params : ReserveParams} {now : String} {keys reserved : List String}
    {active : List LeaseRow} (h : Leasing began (.run, params.runId) s)
    (seen : Seen began params.projectId active s) :
    under leaseRely (reserveKeys params now keys active reserved)
      (fun _ s' => Leasing began (.run, params.runId) s') s := by
  induction keys generalizing active reserved s with
  | nil => exact fun db step => h.later step
  | cons path keys ih =>
    unfold reserveKeys
    split
    · exact ih h seen
    · split
      · trivial
      · rename_i clear
        rw [under_generate]
        intro id
        apply under_insertLease h rfl rfl
        · intro m before after unwritten clash
          have member := seen m before after unwritten clash.1.symm
          have apart := List.find?_eq_none.mp clear m member
          simp only [Bool.and_eq_true, not_and, Bool.not_eq_true'] at apart
          cases own : ownedByRun params.runId m with
          | true =>
            unfold ownedByRun at own
            simp only [Bool.and_eq_true, beq_iff_eq] at own
            exact ⟨own.1.symm, own.2.symm⟩
          | false => exact absurd clash.2 (apart own)
        · intro s' leasing since _
          have seen' := seen.later h.since since
          apply under_seq_since (under_retires leasing (writes_logEvent retires_event))
          intro _ s'' leasing' since'
          apply ih leasing'
          intro m before after unwritten ofProject
          exact List.mem_append_left _
            (seen'.later leasing.since since' m before after unwritten ofProject)

theorem writes_leaseKeys {ctx : Context} {paths keys : List String} :
    Writes Retires (leaseKeys ctx paths keys) := by
  induction paths generalizing keys with
  | nil => exact writes_done
  | cons raw rest ih =>
    unfold leaseKeys
    split
    · exact writes_fail
    · exact ih

theorem under_reserveRunLeases {ctx : Context} {params : ReserveParams}
    (h : Leasing began (.run, params.runId) s) :
    under leaseRely (reserveRunLeases ctx params)
      (fun _ s' => Leasing began (.run, params.runId) s') s := by
  unfold reserveRunLeases
  split
  · exact fun db step => h.later step
  · rw [under_nowIso]
    intro now
    apply under_seq (under_retires h writes_leaseKeys)
    intro keys s' leasing
    apply under_activeLeases leasing
    intro leases s'' leasing' seen
    exact under_reserveKeys leasing' seen

theorem retires_task : ∀ (view : Database) (row : TaskRow), Retires view (.task row) :=
  fun _ _ _ is => nomatch is

/-- Before its reservation an assignment writes no lease. -/
theorem under_unleased {α : Type} {p : Txn α} (h : ∀ holder, Leasing began holder s)
    (retires : Writes Retires p) :
    under leaseRely p (fun _ s' => ∀ holder, Leasing began holder s') s :=
  retires.under (fun _ _ leasing step holder => (leasing holder).later step)
    (fun _ _ _ leasing writes holder => (leasing holder).retire writes) h

theorem writes_startTurn {ctx : Context} {task : TaskRow} {turnId runId now : String} :
    Writes Retires (startTurn ctx task turnId runId now) := by
  unfold startTurn
  apply writes_bind (writes_update fun _ _ _ _ is => nomatch is)
  intro _
  exact writes_bind (writes_logEvent retires_event) fun _ => writes_done

theorem writes_insertRun {row : RunRow} : Writes Retires (insertRun row) :=
  writes_insert fun _ _ _ is => nomatch is

theorem under_assignTask {ctx : Context} {services : AssignServices} {taskId : String}
    {req : AssignRequest} {assistantTurnId : Option String} :
    under leaseRely (assignTask ctx services taskId req assistantTurnId)
      (fun _ s' => ∃ holder, Leasing began holder s') ⟨began, [], []⟩ := by
  unfold assignTask
  rw [under_nowIso]
  intro now
  apply under_seq (under_unleased (fun _ => .start) reads_refuse.writes)
  intro _ s leasing
  apply under_seq (under_unleased leasing reads_lockTask.writes)
  intro tasks s leasing
  rw [under_orThrow]
  intro task _
  apply under_seq (under_unleased leasing reads_assertAssignable.writes)
  intro writePaths s leasing
  apply under_seq (under_unleased leasing reads_ofExcept.writes)
  intro selected s leasing
  apply under_seq (under_unleased leasing reads_lockInstance.writes)
  intro _ s leasing
  apply under_seq (under_unleased leasing reads_refuse.writes)
  intro _ s leasing
  rw [under_generate]
  intro decisionId
  rw [under_generate]
  intro runId
  apply under_seq (under_unleased leasing (writes_transitionTask retires_task retires_event))
  intro transition s leasing
  rw [under_throwIf]
  intro _
  apply under_seq (under_unleased leasing reads_ofExcept.writes)
  intro workspaceRoot s leasing
  apply under_seq (under_unleased leasing reads_refuse.writes)
  intro _ s leasing
  apply under_seq (under_unleased leasing writes_insertRun)
  intro _ s leasing
  have bound : Writes Retires (bindExecutionApprovalToRun taskId runId) := by
    apply writes_bind (writes_update _) fun _ => writes_done
    intro _ row _ _ is
    cases is
  apply under_seq (under_unleased leasing bound)
  intro _ s leasing
  have reserved : ∀ s, Leasing began (.run, runId) s → under leaseRely (do
      let _ ← reserveRunLeases ctx { taskId, runId, projectId := task.projectId, paths := writePaths }
      let _ ← update (fun db => (db.tasks.get? taskId).toList) fun row =>
        .task { row with assigneeId := selected.agentId, updatedAt := now }
      let _ ← logEvent (assignedEvent task selected runId decisionId)
      let stored ← select (·.runs.get? runId)
      orThrow stored (.error "assignTask: run missing after insert"))
      (fun _ s' => ∃ holder, Leasing began holder s') s := by
    intro s leasing
    apply under_seq (under_reserveRunLeases leasing)
    intro _ s leasing
    apply under_mono (under_retires leasing _) fun _ _ done => ⟨_, done⟩
    apply writes_bind (writes_update fun view row _ => retires_task view _)
    intro _
    apply writes_bind (writes_logEvent retires_event)
    intro _
    exact writes_bind writes_select fun _ => writes_orThrow
  cases assistantTurnId with
  | none => exact reserved s (leasing _)
  | some turnId =>
    apply under_seq (under_unleased leasing writes_startTurn)
    intro _ s leasing
    exact reserved s (leasing _)

end Programs

/-! ## The lease transactions of a run of the server -/

instance {l : LeaseRow} {db : Database} : Decidable (Held l db) :=
  inferInstanceAs (Decidable (_ ∧ _))

instance {l m : LeaseRow} : Decidable (Clash l m) := inferInstanceAs (Decidable (_ ∧ _))

instance {l m : LeaseRow} : Decidable (SameHolder l m) := inferInstanceAs (Decidable (_ ∧ _))

/-- The transactions that acquire, reserve, release and expire leases, and any that inserts none. -/
inductive LeaseOp where
  | acquireLease (req : AcquireLeaseRequest)
  | assignTask (services : AssignServices) (taskId : String) (req : AssignRequest)
      (assistantTurnId : Option String)
  | releaseRunLeases (runId : String)
  | releaseLease (leaseId : String)
  | listLeases (projectId : String) (status : Option LeaseStatus)
  | other (p : Txn Unit) (retires : Writes Retires p)

structure LeaseCall where
  ctx : Context
  op : LeaseOp

def LeaseCall.program (call : LeaseCall) : Txn Unit :=
  match call.op with
  | .acquireLease req => do
    let _ ← acquireLease call.ctx req
  | .assignTask services taskId req assistantTurnId => do
    let _ ← assignTask call.ctx services taskId req assistantTurnId
  | .releaseRunLeases runId => releaseRunLeases runId
  | .releaseLease leaseId => do
    let _ ← releaseLease leaseId
  | .listLeases projectId status => do
    let _ ← listLeases projectId status
  | .other p _ => p

abbrev LeaseWorld := World LeaseCall Database Write Lock String Failure Unit

/-- No lease that clashes with one the transaction inserts was committed since it began. -/
def unraced (w : LeaseWorld) (id : Nat) : Act LeaseCall String → Prop
  | .commit => ∀ s ∈ w.sessions.rows, s.id = id →
      ∀ l ∈ (s.at_ w.db).view.leases.rows, ¬ Held l w.db → Held l (s.at_ w.db).view →
        ∀ m ∈ w.db.leases.rows, Held m w.db → Held m (s.at_ w.db).view → Clash l m →
          SameHolder l m ∨ Held m s.began
  | _ => True

instance {w : LeaseWorld} {id : Nat} {act : Act LeaseCall String} : Decidable (unraced w id act) := by
  unfold unraced
  split <;> infer_instance

/-- Two held leases of a project that clash have one holder. -/
def Exclusive (db : Database) : Prop :=
  ∀ l m, Held l db → Held m db → Clash l m → SameHolder l m

theorem under_leaseCall {call : LeaseCall} {db : Database} :
    under leaseRely call.program (fun _ s => ∃ holder, Leasing db holder s) ⟨db, [], []⟩ := by
  obtain ⟨ctx, op⟩ := call
  have done_ : ∀ {α : Type} {p : Txn α},
      under leaseRely p (fun _ s => ∃ holder, Leasing db holder s) ⟨db, [], []⟩ →
      under leaseRely (p >>= fun _ => pure ()) (fun _ s => ∃ holder, Leasing db holder s)
        ⟨db, [], []⟩ := by
    intro α p h
    apply under_seq h
    rintro _ s ⟨holder, leasing⟩
    exact fun db' step => ⟨holder, leasing.later step⟩
  have retires : ∀ {α : Type} {p : Txn α}, Writes Retires p →
      under leaseRely p (fun _ s => ∃ holder, Leasing db holder s) ⟨db, [], []⟩ :=
    fun writes => under_mono (under_retires (@Leasing.start db (.system, "")) writes)
      fun _ _ leasing => ⟨_, leasing⟩
  cases op with
  | acquireLease req => exact done_ under_acquireLease
  | assignTask services taskId req assistantTurnId => exact done_ under_assignTask
  | releaseRunLeases runId => exact retires writes_releaseRunLeases
  | releaseLease leaseId => exact done_ (retires writes_releaseLease)
  | listLeases projectId status => exact done_ (retires writes_listLeases)
  | other p writes => exact retires writes

/-- The commit of a transaction that was not raced keeps the leases exclusive. -/
theorem Leasing.exclusive {began : Database} {holder : LeaseHolderType × String} {s : Standing}
    (h : Leasing began holder s) (exclusive : Exclusive s.db)
    (unraced : ∀ l m, Held l s.view → ¬ Held l s.db → Held m s.db → Held m s.view → Clash l m →
      SameHolder l m ∨ Held m began) : Exclusive s.view := by
  -- a fresh lease against one of the others
  have apart : ∀ l m, loggedLease s.log l.id = some l → Fresh began holder s l → Held m s.view →
      Clash l m → SameHolder l m := by
    intro l m written fresh held clash
    rcases h.held held with ⟨there, unwritten⟩ | ⟨_, fresh'⟩
    · have inserted : ¬ Held l s.db := fun ⟨found, _⟩ => by
        rw [fresh.absent] at found
        cases found
      have seen : Held l s.view := ⟨by rw [lease_view, written]; rfl, fresh.held⟩
      rcases unraced l m seen inserted there held clash with same | before
      · exact same
      · exact fresh.cleared m before there unwritten clash
    · have holders := fresh.holder.trans fresh'.holder.symm
      exact ⟨congrArg Prod.fst holders, congrArg Prod.snd holders⟩
  intro l m hl hm clash
  rcases h.held hl with ⟨thereL, _⟩ | ⟨writtenL, freshL⟩
  · rcases h.held hm with ⟨thereM, _⟩ | ⟨writtenM, freshM⟩
    · exact exclusive l m thereL thereM clash
    · exact (apart m l writtenM freshM hl clash.symm).symm
  · exact apart l m writtenL freshL hm clash

theorem lease_rules : World.Rules LeaseCall.program unraced leaseRely
    (fun _ began _ s => ∃ holder, Leasing began holder s) Exclusive := by
  constructor
  · exact fun _ _ _ => under_leaseCall
  · rintro w s _ there - allowed exclusive guarded ⟨holder, leasing⟩
    constructor
    · apply leasing.exclusive exclusive
      intro l m heldL absent heldM kept clash
      exact allowed s there rfl l (Table.mem_of_get? heldL.1) absent heldL m
        (Table.mem_of_get? heldM.1) heldM kept clash
    · intro others free
      refine ⟨leasing.leaves, fun k held => ?_⟩
      apply Lock.same_writeAll
      rintro x written rfl
      exact free _ held (guarded x written _ (List.mem_singleton.mpr rfl))

theorem leases_exclusive {ls : List (Nat × Act LeaseCall String)} {db : Database} {w : LeaseWorld}
    (path : Path (World.Steps LeaseCall.program unraced) ls (World.quiet db) w)
    (start : Exclusive db) : Exclusive w.db :=
  (World.holds_path lease_rules path (World.holds_quiet start)).1.invariant

/-! Two requests at once for leases of one project. -/
namespace Sample

def workTask (id : String) : TaskRow :=
  { id, projectId := "p1", status := .assigned, updatedAt := clock }

def twoTasks : Database :=
  { Database.empty with tasks := (Table.empty.put (workTask "t1")).put (workTask "t2") }

def lease (taskId path : String) : LeaseCall :=
  ⟨⟨"u1", platform⟩, .acquireLease { taskId, path, mode := .write }⟩

/-- Up to the read of the held leases. -/
def looks (id : Nat) (call : LeaseCall) : List (Nat × Act LeaseCall String) :=
  [(id, .begin call), (id, .draw clock), (id, .statement), (id, .statement)]

/-- The insert of the lease and of its event, and the commit. -/
def takes (id : Nat) (leaseId eventId : String) : List (Nat × Act LeaseCall String) :=
  [(id, .draw leaseId), (id, .statement), (id, .draw eventId), (id, .draw clock), (id, .statement),
   (id, .statement), (id, .commit)]

def atOnce (path other : String) : List (Nat × Act LeaseCall String) :=
  looks 1 (lease "t1" path) ++ looks 2 (lease "t2" other) ++ takes 1 "l1" "e1" ++ takes 2 "l2" "e2"

end Sample

open Sample

theorem leases_exclusive_disjoint :
    ∃ w, World.exec LeaseCall.program unraced (atOnce "src" "docs") (World.quiet twoTasks) = some w ∧
      w.db.leases.rows.length = 2 ∧ Exclusive w.db := by
  have runs : ((World.exec LeaseCall.program unraced (atOnce "src" "docs")
      (World.quiet twoTasks)).map fun w => w.db.leases.rows.length) = some 2 := by decide +kernel
  obtain ⟨w, found, two⟩ := Option.map_eq_some_iff.mp runs
  refine ⟨w, found, two, ?_⟩
  apply leases_exclusive (World.exec_path found)
  exact fun _ _ held => absurd (Table.mem_of_get? held.1) Table.not_mem_empty

/-- Neither transaction sees the lease that the other inserts. -/
theorem leases_clash :
    ¬ ∀ (ls : List (Nat × Act LeaseCall String)) (db : Database) (w : LeaseWorld), Exclusive db →
      Path (World.Steps LeaseCall.program fun _ _ _ => True) ls (World.quiet db) w →
      ∀ l m now, l ∈ w.db.leases.rows → m ∈ w.db.leases.rows → isActive l now → isActive m now →
        Clash l m → SameHolder l m := by
  intro claimed
  let raced := World.exec LeaseCall.program (fun _ _ _ => True) (atOnce "src" "src")
    (World.quiet twoTasks)
  have clash : ∃ w, raced = some w ∧ ∃ l ∈ w.db.leases.rows, ∃ m ∈ w.db.leases.rows,
      isActive l clock ∧ isActive m clock ∧ Clash l m ∧ ¬ SameHolder l m := by
    have decided : (raced.map fun w => decide (∃ l ∈ w.db.leases.rows, ∃ m ∈ w.db.leases.rows,
      isActive l clock ∧ isActive m clock ∧ Clash l m ∧ ¬ SameHolder l m)) = some true := by
      decide +kernel
    obtain ⟨w, found, is⟩ := Option.map_eq_some_iff.mp decided
    exact ⟨w, found, of_decide_eq_true is⟩
  obtain ⟨w, found, l, hl, m, hm, activeL, activeM, overlap, differ⟩ := clash
  have start : Exclusive twoTasks :=
    fun _ _ held => absurd (Table.mem_of_get? held.1) Table.not_mem_empty
  exact differ (claimed _ twoTasks w start (World.exec_path found) l m clock hl hm activeL activeM
    overlap)

end Artoo.Server
