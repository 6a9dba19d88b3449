import Artoo.Devices.Writes

/-! What a claim, an enrolment and a resolution return, whatever runs concurrently; the pairing of
devices over whole runs. -/
namespace Artoo.Devices
open Artoo.Lib Tx

abbrev Standing := Progress Database Write Lock

variable {d : Deployment} {s : Standing} {β : Type} {post : β → Standing → Prop}

theorem under_generate {k : String → Txn β} (rest : ∀ text, under deviceRely (k text) post s) :
    under deviceRely (generate >>= k) post s :=
  fun i => rest i.text

theorem under_nowIso {k : Int → Txn β} (rest : ∀ now, under deviceRely (k now) post s) :
    under deviceRely (nowIso >>= k) post s :=
  fun i => rest i.instant

/-! ## Resolution -/

/-- A device that resolves was not revoked when the call began. -/
def Resolves (began : Database) (a : Reply) : Prop :=
  ∀ id computerId kind, a = .resolved (some (id, computerId, kind)) →
    ∀ row, began.devices.get? id = some row → row.trust = .active

theorem under_resolveFound {began : Database} {device : DeviceRow} {kind : DeviceTokenKind}
    (trusted : ∀ row, began.devices.get? device.id = some row → row.trust = .active) :
    under deviceRely (resolveFound device kind) (fun a _ => Resolves began a) s := by
  unfold resolveFound
  apply under_seq (Reads.under (I := fun _ => True) reads_isMemberSuspended (fun _ _ _ _ => trivial)
    (fun _ _ _ => trivial) trivial)
  intro suspended s' _
  split
  · exact fun _ _ _ _ _ is => nomatch is
  · rintro _ _ _ _ _ ⟨⟩
    exact trusted

theorem under_resolveDeviceToken {began : Database} {raw : String} {kind : DeviceTokenKind}
    (log : s.log = []) (later : Later began s.db) :
    under deviceRely (resolveDeviceToken d raw kind) (fun a _ => Resolves began a) s := by
  unfold resolveDeviceToken
  split
  · exact fun _ _ _ _ _ is => nomatch is
  · unfold resolveToken
    rw [under_query]
    intro db step
    apply under_nowIso
    intro now
    split
    · exact fun _ _ _ _ _ is => nomatch is
    · rename_i token _
      rw [under_query]
      intro db' step'
      split
      · exact fun _ _ _ _ _ is => nomatch is
      · rename_i device found
        obtain ⟨there, trusted⟩ := Option.filter_eq_some_iff.mp found
        apply under_resolveFound
        intro row before
        -- a device that was revoked then would be revoked now
        have view : ((s.at_ db).at_ db').view = db' := by
          unfold Progress.view
          rw [Progress.at_log, Progress.at_log, log]
          rfl
        rw [view] at there
        have key := Table.key_of_get? there
        rw [← key] at there
        obtain ⟨row', now_, step''⟩ :=
          (later.trans (step.1.trans step'.1)).devices device.id row before
        cases there.symm.trans now_
        cases trust : row.trust with
        | active => rfl
        | revoked =>
          have revoked := step''.1 trust
          unfold DeviceRow.trusted at trusted
          rw [revoked] at trusted
          cases trusted

/-! ## Claims -/

/-- The row of a code as it was found, or as others have left it since. -/
def Found (existing : PairingCodeRow) (db : Database) : Prop :=
  ∃ row, db.codes.get? existing.id = some row ∧ CodeLater existing row

theorem Found.later {existing : PairingCodeRow} {db db' : Database} (h : Found existing db)
    (step : Later db db') : Found existing db' := by
  obtain ⟨row, there, since⟩ := h
  obtain ⟨row', there', next⟩ := step.codes _ row there
  exact ⟨row', there', since.trans next⟩

/-- The code that a claim has taken, with the device it creates; what it writes of tokens is of that
device. -/
structure Taken (row : PairingCodeRow) (device : DeviceRow) (s : Standing) : Prop where
  locks : .code row.id ∈ s.locks ∧ .device device.id ∈ s.locks
  pending : s.db.codes.get? row.id = some row ∧ row.status = .pending
  fresh : s.db.devices.get? device.id = none
  claimed : logged PairingCodeRow.id Write.code? s.log row.id =
    some (row.claimedBy device.id device.createdAt)
  created : logged DeviceRow.id Write.device? s.log device.id = some device
  tokens : ∀ id t, logged DeviceTokenRow.id Write.token? s.log id = some t → t.deviceId = device.id

theorem Taken.later {row : PairingCodeRow} {device : DeviceRow} (h : Taken row device s)
    {db : Database} (step : deviceRely.rel s.locks s.db db) : Taken row device (s.at_ db) := by
  have code : (Lock.code row.id).Same s.db db := step.2 _ h.locks.1
  have fresh : (Lock.device device.id).Same s.db db := step.2 _ h.locks.2
  exact ⟨h.locks, ⟨Eq.trans code h.pending.1, h.pending.2⟩, Eq.trans fresh h.fresh, h.claimed,
    h.created, h.tokens⟩

theorem Taken.insertToken {row : PairingCodeRow} {device : DeviceRow} (h : Taken row device s)
    {token : DeviceTokenRow} (own : token.deviceId = device.id) :
    under deviceRely (insertToken token) (fun _ s' => Taken row device s') s := by
  intro db step
  have here := h.later step
  unfold Progress.after Progress.wants
  dsimp only
  split
  · trivial
  · intro db' step'
    have next : Taken row device (⟨db, s.locks ++ [.token token.id, .lookup token.tokenLookup],
        s.log ++ [.token token]⟩ : Standing) := by
      refine ⟨⟨List.mem_append_left _ here.locks.1, List.mem_append_left _ here.locks.2⟩,
        here.pending, here.fresh, ?_, ?_, ?_⟩
      · rw [logged_append]
        exact here.claimed
      · rw [logged_append]
        exact here.created
      · intro id t is
        rw [logged_append, Option.or_eq_some_iff] at is
        rcases is with new | ⟨_, old⟩
        · obtain ⟨_, x, member, wrote⟩ := logged_eq_some new
          rw [List.mem_singleton.mp member] at wrote
          cases wrote
          exact own
        · exact here.tokens id t old
    exact next.later step'

/-- What a claim returns with: a code that was pending and had not expired when the claim read its
clock, and is taken for a new device. -/
structure Claims (d : Deployment) (input : ClaimPairingInput) (device : DeviceRow) (s : Standing) :
    Prop where
  active : device.trust = .active ∧ device.computerId = none
  code : ∃ row, row.codeHash = d.hashPairingCode input.code ∧ device.createdAt < row.expiresAt ∧
    Taken row device s

/-- How a claim ends. -/
def ClaimEnds (d : Deployment) (input : ClaimPairingInput) (a : Reply) (s : Standing) : Prop :=
  (∃ device controlToken nodeToken, a = .claimed device controlToken nodeToken ∧
    Claims d input device s) ∨
  ((∀ device controlToken nodeToken, a ≠ .claimed device controlToken nodeToken) ∧
    ∀ id, logged DeviceTokenRow.id Write.token? s.log id = none)

theorem Taken.reads {α : Type} {p : Txn α} {row : PairingCodeRow} {device : DeviceRow}
    (reads : Tx.Reads p) (h : Taken row device s) :
    under deviceRely p (fun _ s' => Taken row device s') s :=
  Reads.under (I := Taken row device) reads (fun _ _ kept step => kept.later step)
    (fun _ _ kept => ⟨⟨List.mem_append_left _ kept.locks.1, List.mem_append_left _ kept.locks.2⟩,
      kept.pending, kept.fresh, kept.claimed, kept.created, kept.tokens⟩) h

theorem Taken.tokenRow {row : PairingCodeRow} {device : DeviceRow} {kind : DeviceTokenKind}
    {token : GeneratedDeviceToken} {now : Int} (h : Taken row device s) :
    under deviceRely (d.buildTokenRow device.id kind token now)
      (fun t s' => t.deviceId = device.id ∧ Taken row device s') s :=
  fun _ _ step => ⟨rfl, h.later step⟩

theorem under_claimInTx {input : ClaimPairingInput} {existing : PairingCodeRow} {now : Int}
    (log : s.log = []) (found : Found existing s.db)
    (hash : existing.codeHash = d.hashPairingCode input.code) (fresh : now < existing.expiresAt) :
    under deviceRely (claimInTx d input existing now) (ClaimEnds d input) s := by
  unfold claimInTx
  apply under_seq (Reads.under (R := deviceRely) (I := fun s => s.log = [] ∧ Found existing s.db)
    reads_isActiveMember (fun _ _ kept step => ⟨kept.1, kept.2.later step.1⟩)
    (fun _ _ kept => kept) ⟨log, found⟩)
  rintro active s₁ ⟨log, found⟩
  rw [under_check]
  intro _
  apply under_generate
  intro id
  rw [under_add]
  intro db step free
  have absent : db.devices.get? id = none := by
    unfold Progress.view at free
    rw [Progress.at_log, log] at free
    exact Option.isNone_iff_eq_none.mp (Option.isSome_eq_false_iff.mp free)
  rw [updatePending, under_change]
  intro db' step'
  obtain ⟨row, there, hash', expires', _⟩ := (found.later step.1).later step'.1
  have key := Table.key_of_get? there
  generalize begun : (⟨db, s₁.locks ++ Tables.guards Database
    (Write.device (input.device id existing now)),
    s₁.log ++ [.device (input.device id existing now)]⟩ : Standing) = s₂ at step' ⊢
  have view : ((s₂.at_ db').view).codes.get? existing.id = some row := by
    rw [Progress.view, codes_writeAll, ← begun, Progress.at_log, log]
    exact there
  rw [view, Option.filter_some]
  cases pending : row.status == .pending with
  | false =>
    rw [if_neg Bool.false_ne_true, under_check]
    intro empty
    cases empty
  | true =>
    rw [if_pos rfl, under_check]
    intro _
    rw [beq_iff_eq] at pending
    have taken : Taken row (input.device id existing now) (⟨db', s₂.locks ++ [.code row.id],
        s₂.log ++ [.code (row.claimedBy id now)]⟩ : Standing) := by
      have device : db'.devices.get? id = none := by
        have held : .device id ∈ s₂.locks := by
          rw [← begun]
          exact List.mem_append_right _ List.mem_cons_self
        have same : db'.devices.get? id = s₂.db.devices.get? id := step'.2 _ held
        rw [same, ← begun]
        exact absent
      rw [← key] at there
      refine ⟨⟨List.mem_append_right _ List.mem_cons_self, ?_⟩, ⟨there, pending⟩, device, ?_, ?_,
        ?_⟩
      · rw [← begun]
        exact List.mem_append_left _ (List.mem_append_right _ List.mem_cons_self)
      · rw [logged_append]
        simp [logged, Write.code?, PairingCodeRow.claimedBy, ClaimPairingInput.device]
      · rw [← begun, log]
        simp [logged, Write.device?, ClaimPairingInput.device]
      · intro id t is
        rw [← begun, log] at is
        simp [logged, Write.token?] at is
    apply under_seq (taken.reads reads_generateDeviceToken)
    intro control s₃ taken
    apply under_seq (taken.reads reads_generateDeviceToken)
    intro node s₄ taken
    apply under_seq taken.tokenRow
    rintro controlRow s₅ ⟨own, taken⟩
    apply under_seq taken.tokenRow
    rintro nodeRow s₆ ⟨own', taken⟩
    apply under_seq (taken.insertToken own)
    intro _ s₇ taken
    apply under_seq (taken.insertToken own')
    intro _ s₈ taken db'' step''
    refine Or.inl ⟨_, _, _, rfl, ⟨rfl, rfl⟩, row, hash'.trans hash, ?_, taken.later step''⟩
    rw [expires']
    exact fresh

/-- A claim that marks an expired code issues nothing. -/
theorem under_claimPairing {input : ClaimPairingInput} (log : s.log = []) :
    under deviceRely (claimPairing d input) (ClaimEnds d input) s := by
  unfold claimPairing
  rw [under_check]
  intro _
  apply under_nowIso
  intro now
  rw [under_query]
  intro db step
  apply under_generate
  intro choice
  rw [under_require]
  intro existing is
  rw [under_check]
  intro _
  have view : (s.at_ db).view = db := by
    unfold Progress.view
    rw [Progress.at_log, log]
    rfl
  rw [view] at is
  have member : existing ∈ db.codes ∧
      (existing.codeHash == d.hashPairingCode input.code) = true := by
    rcases Option.or_eq_some_iff.mp is with found | ⟨_, first⟩
    · exact Table.mem_select.mp (List.mem_of_find?_eq_some found)
    · exact Table.mem_select.mp (List.mem_of_mem_head? first)
  rw [beq_iff_eq] at member
  have found : Found existing db :=
    ⟨existing, Table.get?_of_mem member.1, CodeLater.refl existing⟩
  split
  · rw [updatePending, under_change]
    intro db' step' db'' step''
    refine Or.inr ⟨(fun _ _ _ is => nomatch is), fun id => ?_⟩
    rw [Progress.at_log, Progress.at_log, log, List.nil_append]
    cases none_ : logged DeviceTokenRow.id Write.token? _ id with
    | none => rfl
    | some t =>
      obtain ⟨_, x, written, wrote⟩ := logged_eq_some none_
      obtain ⟨row, _, rfl⟩ := List.mem_map.mp written
      cases wrote
  · rename_i fresh
    rw [under_check]
    intro _
    apply under_claimInTx _ found member.2
    · unfold isExpired at fresh
      rw [decide_eq_true_eq, Int.not_le] at fresh
      exact fresh
    · exact log

/-! ## Enrolment -/

/-- An enrolment leaves its device linked. It adds the one computer it links, or none. -/
structure Enrols (deviceId computerId : String) (created : Bool) (s : Standing) : Prop where
  linked : ∃ row, s.view.devices.get? deviceId = some row ∧ row.computerId = some computerId
  fresh : created = true →
    (∃ row, s.db.devices.get? deviceId = some row ∧ row.computerId = none) ∧
      s.db.computers.get? computerId = none ∧ (s.view.computers.get? computerId).isSome
  others : ∀ id, created = false ∨ id ≠ computerId →
    s.view.computers.get? id = s.db.computers.get? id

def EnrolEnds (a : Reply) (s : Standing) : Prop :=
  Removes s ∧ ∀ deviceId computerId created, a = .enrolled deviceId computerId created →
    Enrols deviceId computerId created s

/-- A candidate is inserted, and its device not yet linked. -/
structure Candidate (row : ComputerRow) (s : Standing) : Prop where
  log : s.log = [.computer row]
  locks : .computer row.id ∈ s.locks
  fresh : s.db.computers.get? row.id = none

theorem Candidate.later {row : ComputerRow} (h : Candidate row s) {db : Database}
    (step : deviceRely.rel s.locks s.db db) : Candidate row (s.at_ db) := by
  have same : (Lock.computer row.id).Same s.db db := step.2 _ h.locks
  exact ⟨h.log, h.locks, Eq.trans same h.fresh⟩

theorem Candidate.devices {row : ComputerRow} (h : Candidate row s) (id : String) :
    s.view.devices.get? id = s.db.devices.get? id := by
  rw [Progress.view, devices_writeAll, h.log]
  rfl

theorem Candidate.computers {row : ComputerRow} (h : Candidate row s) :
    s.view.computers.get? row.id = some row := by
  rw [Progress.view, h.log]
  exact Table.get?_put_self

/-- The candidate that lost the race is removed again. -/
structure Dropped (row : ComputerRow) (s : Standing) : Prop where
  log : s.log = [.computer row, .removeComputer row.id]
  locks : .computer row.id ∈ s.locks
  fresh : s.db.computers.get? row.id = none

theorem Dropped.later {row : ComputerRow} (h : Dropped row s) {db : Database}
    (step : deviceRely.rel s.locks s.db db) : Dropped row (s.at_ db) := by
  have same : (Lock.computer row.id).Same s.db db := step.2 _ h.locks
  exact ⟨h.log, h.locks, Eq.trans same h.fresh⟩

theorem Dropped.devices {row : ComputerRow} (h : Dropped row s) (id : String) :
    s.view.devices.get? id = s.db.devices.get? id := by
  rw [Progress.view, devices_writeAll, h.log]
  rfl

theorem Dropped.computers {row : ComputerRow} (h : Dropped row s) (id : String) :
    s.view.computers.get? id = s.db.computers.get? id := by
  rw [Progress.view, h.log]
  change ((s.db.computers.put row).remove row.id).get? id = _
  by_cases own : row.id = id
  · rw [← own, h.fresh]
    exact Table.get?_eq_none.mpr fun other there => (Table.mem_remove.mp there).2
  · rw [Table.get?_remove_other own, Table.get?_put_other own]

theorem Dropped.removes {row : ComputerRow} (h : Dropped row s) : Removes s := by
  intro id gone
  rw [h.log] at gone
  rcases List.mem_cons.mp gone with is | last
  · cases is
  · cases List.mem_singleton.mp last
    exact h.fresh

/-- The computer that the winner has linked. -/
theorem under_winner {deviceId : String} {row : ComputerRow} (h : Dropped row s) :
    under deviceRely (winner deviceId) EnrolEnds s := by
  unfold winner
  rw [under_query]
  intro db step
  have here := h.later step
  rw [here.devices, under_require]
  intro winnerId is db' step'
  have there := here.later step'
  refine ⟨there.removes, ?_⟩
  rintro _ _ _ ⟨⟩
  obtain ⟨winner, found, linked⟩ := Option.bind_eq_some_iff.mp is
  obtain ⟨row', found', later⟩ := step'.1.devices _ winner found
  constructor
  · refine ⟨row', ?_, later.2 _ linked⟩
    rw [there.devices]
    exact found'
  · exact fun is => nomatch is
  · exact fun id _ => there.computers id

/-- The device that the call links, and the candidate it links. -/
structure Linked (row : ComputerRow) (device : DeviceRow) (s : Standing) : Prop where
  log : s.log = [.computer row, .device { device with computerId := some row.id }]
  locks : .computer row.id ∈ s.locks ∧ .device device.id ∈ s.locks
  fresh : s.db.computers.get? row.id = none
  unlinked : s.db.devices.get? device.id = some device ∧ device.computerId = none

theorem Linked.later {row : ComputerRow} {device : DeviceRow} (h : Linked row device s)
    {db : Database} (step : deviceRely.rel s.locks s.db db) : Linked row device (s.at_ db) := by
  have computer : (Lock.computer row.id).Same s.db db := step.2 _ h.locks.1
  have same : (Lock.device device.id).Same s.db db := step.2 _ h.locks.2
  exact ⟨h.log, h.locks, Eq.trans computer h.fresh, Eq.trans same h.unlinked.1, h.unlinked.2⟩

theorem Linked.ends {row : ComputerRow} {device : DeviceRow} (h : Linked row device s) :
    EnrolEnds (.enrolled device.id row.id true) s := by
  constructor
  · intro id gone
    rw [h.log] at gone
    simp at gone
  · rintro _ _ _ ⟨⟩
    constructor
    · refine ⟨{ device with computerId := some row.id }, ?_, rfl⟩
      rw [Progress.view, h.log]
      change (s.db.devices.put { device with computerId := some row.id }).get? device.id = _
      exact Table.get?_put_self
    · intro _
      refine ⟨⟨device, h.unlinked⟩, h.fresh, ?_⟩
      rw [Progress.view, h.log]
      change ((s.db.computers.put row).get? row.id).isSome
      rw [Table.get?_put_self]
      rfl
    · intro id other
      rcases other with is | other
      · cases is
      · rw [Progress.view, h.log]
        exact Table.get?_put_other fun same => other same.symm

theorem under_linkComputer {deviceId : String} {row : ComputerRow} (h : Candidate row s) :
    under deviceRely (linkComputer deviceId row.id) EnrolEnds s := by
  unfold linkComputer
  rw [under_change]
  intro db step
  have here := h.later step
  rw [here.devices]
  cases found : ((s.at_ db).db.devices.get? deviceId).filter (·.computerId.isNone) with
  | none =>
    rw [if_pos (by rfl), under_change]
    simp only [Option.toList_none, List.map_nil, List.flatMap_nil, List.append_nil]
    intro db' step'
    have candidate : Candidate row ((⟨db, s.locks, s.log⟩ : Standing).at_ db') := here.later step'
    rw [candidate.computers]
    have dropped : Dropped row (⟨db', s.locks ++ [.computer row.id],
        s.log ++ [.removeComputer row.id]⟩ : Standing) := by
      refine ⟨?_, List.mem_append_left _ h.locks, candidate.fresh⟩
      rw [h.log]
      rfl
    exact under_winner dropped
  | some device =>
    obtain ⟨there, unlinked⟩ := Option.filter_eq_some_iff.mp found
    have key := Table.key_of_get? there
    rw [Option.isNone_iff_eq_none] at unlinked
    rw [if_neg (by exact Bool.false_ne_true)]
    intro db' step'
    have linked : Linked row device (⟨db, s.locks ++ [.device device.id],
        s.log ++ [.device { device with computerId := some row.id }]⟩ : Standing) := by
      refine ⟨?_, ⟨List.mem_append_left _ h.locks, List.mem_append_right _ List.mem_cons_self⟩,
        here.fresh, key ▸ there, unlinked⟩
      rw [h.log]
      rfl
    rw [← key]
    exact (linked.later step').ends

theorem under_enrollDeviceComputer {actor : String} {input : EnrollDeviceComputerInput}
    (log : s.log = []) : under deviceRely (enrollDeviceComputer d actor input) EnrolEnds s := by
  unfold enrollDeviceComputer
  apply under_seq (Reads.under (R := deviceRely) (I := fun s => s.log = [])
    reads_requireAdministrator (fun _ _ kept _ => kept) (fun _ _ kept => kept) log)
  intro _ s₁ log
  apply under_nowIso
  intro now
  rw [under_query]
  intro db step
  rw [under_require]
  intro device is
  rw [under_check]
  intro _
  rw [under_check]
  intro _
  have view : (s₁.at_ db).view = db := by
    unfold Progress.view
    rw [Progress.at_log, log]
    rfl
  rw [view] at is
  have key := Table.key_of_get? is
  split
  · rename_i computerId linked
    intro db' step'
    refine ⟨fun id gone => ?_, ?_⟩
    · rw [Progress.at_log, Progress.at_log, log] at gone
      cases gone
    · rintro _ _ _ ⟨⟩
      have view' : ((s₁.at_ db).at_ db').view = db' := by
        unfold Progress.view
        rw [Progress.at_log, Progress.at_log, log]
        rfl
      obtain ⟨row', found', later⟩ := step'.1.devices _ device is
      constructor
      · rw [view', key]
        exact ⟨row', found', later.2 _ linked⟩
      · exact fun is => nomatch is
      · intro id _
        rw [view']
        rfl
  · unfold enrollInTx
    apply under_generate
    intro id
    rw [under_add]
    intro db' step' free
    have absent : db'.computers.get? id = none := by
      unfold Progress.view at free
      rw [Progress.at_log, Progress.at_log, log] at free
      exact Option.isNone_iff_eq_none.mp (Option.isSome_eq_false_iff.mp free)
    refine under_linkComputer (?_ : Candidate (input.computer id device now) _)
    refine ⟨?_, List.mem_append_right _ List.mem_cons_self, absent⟩
    rw [Progress.at_log, log]
    rfl

/-! ## Runs -/

abbrev DeviceWorld := World Call Database Write Lock Draw AppError Reply

/-- What a call has done when it returns. -/
def Call.Ends (d : Deployment) (c : Call) (began : Database) (a : Reply) (s : Standing) : Prop :=
  match c with
  | .claimPairing input => ClaimEnds d input a s
  | .resolveDeviceToken _ _ => Resolves began a
  | .enrollDeviceComputer _ _ => EnrolEnds a s
  | _ => True

def Call.spec (d : Deployment) (c : Call) (began : Database) (a : Reply) (s : Standing) : Prop :=
  Orderly c.kind s ∧ c.Ends d began a s

theorem Call.removes {c : Call} {began : Database} {a : Reply} (h : c.spec d began a s) :
    Removes s := by
  cases c with
  | enrollDeviceComputer actor input => exact h.2.1
  | _ => exact h.1.removes (by simp [Call.kind])

theorem under_call (c : Call) (db : Database) :
    under deviceRely (c.program d) (c.spec d db) ⟨db, [], []⟩ := by
  apply under_and (Orderly.under writes_call Orderly.start)
  cases c with
  | claimPairing input => exact under_claimPairing rfl
  | resolveDeviceToken raw kind => exact under_resolveDeviceToken rfl (Later.refl db)
  | enrollDeviceComputer actor input => exact under_enrollDeviceComputer rfl
  | _ => exact under_mono under_since fun _ _ _ => trivial

/-- Every interleaving. -/
abbrev DeviceStep (d : Deployment) : Nat × Act Call Draw → DeviceWorld → DeviceWorld → Prop :=
  World.Steps (Call.program d) fun _ _ _ => True

theorem device_rules : World.Rules (Call.program d) (fun _ _ _ => True) deviceRely (Call.spec d)
    fun _ => True := by
  constructor
  · exact fun c db _ => under_call c db
  · intro w s a _ _ _ _ guarded spec
    refine ⟨trivial, fun others apart => ⟨spec.1.view (Call.removes spec), fun k held => ?_⟩⟩
    apply Lock.same_writeAll
    exact fun x member guard => apart k held (guarded x member k guard)

/-- The commit with which a call returns; `began` is the database at its begin. -/
def Returns (d : Deployment) (c : Call) (began : Database) (a : Reply) (w w' : DeviceWorld) :
    Prop :=
  ∃ id, w.step (Call.program d) id .commit = some w' ∧
    ∃ s ∈ w.sessions, s.id = id ∧ s.label = c ∧ s.began = began ∧ s.rest = .done a

theorem Returns.ends {c : Call} {began : Database} {a : Reply} {w w' : DeviceWorld}
    (h : Returns d c began a w w') (holds : w.Holds deviceRely (Call.spec d) fun _ => True) :
    ∃ s : Standing, s.db = w.db ∧ s.view = w'.db ∧ c.spec d began a s := by
  obtain ⟨id, step, s, there, key, label, began', rest⟩ := h
  cases World.step_advance step with
  | @commit t b found _ =>
    have same : t = s := Table.key_inj (Table.mem_of_get? found) there
      ((Table.key_of_get? found).trans key.symm)
    subst same
    have under := holds.under t there
    rw [rest, label, began'] at under
    exact ⟨t.at_ w.db, rfl, rfl, under w.db (deviceRely.refl _ _)⟩

/-- A claim takes a code that is pending, and has not expired at the claim's time, for a new
device. -/
structure Takes (d : Deployment) (input : ClaimPairingInput) (device : DeviceRow)
    (row : PairingCodeRow) (w w' : DeviceWorld) : Prop where
  code : row.codeHash = d.hashPairingCode input.code
  fresh : device.createdAt < row.expiresAt
  pending : w.db.codes.get? row.id = some row ∧ row.status = .pending
  claimed : w'.db.codes.get? row.id = some (row.claimedBy device.id device.createdAt)
  device : w.db.devices.get? device.id = none ∧ w'.db.devices.get? device.id = some device

/-- Every claim that returns a device takes a code, and it stays taken. -/
def ClaimedOnce (d : Deployment) (w : DeviceWorld) : Prop :=
  ∀ input began device controlToken nodeToken w₁,
    Returns d (.claimPairing input) began (.claimed device controlToken nodeToken) w w₁ →
    ∃ row, Takes d input device row w w₁ ∧ ∀ more w₂, Path (DeviceStep d) more w₁ w₂ →
      w₂.db.codes.get? row.id = some (row.claimedBy device.id device.createdAt) ∧
      ∀ input' device' row' w₃, Takes d input' device' row' w₂ w₃ → row'.id ≠ row.id

/-- Every enrolment that returns leaves its device linked to one computer for good, which it adds or
which was there. -/
def LinkedOnce (d : Deployment) (w : DeviceWorld) : Prop :=
  ∀ actor input began deviceId computerId created w₁,
    Returns d (.enrollDeviceComputer actor input) began (.enrolled deviceId computerId created)
      w w₁ →
    (∀ more w₂, Path (DeviceStep d) more w₁ w₂ →
      ∃ row, w₂.db.devices.get? deviceId = some row ∧ row.computerId = some computerId) ∧
    (created = true → (∃ row, w.db.devices.get? deviceId = some row ∧ row.computerId = none) ∧
      w.db.computers.get? computerId = none ∧ (w₁.db.computers.get? computerId).isSome) ∧
    ∀ id, created = false ∨ id ≠ computerId → w₁.db.computers.get? id = w.db.computers.get? id

/-- Tokens are issued by claims that take a code. -/
def IssuedByClaim (d : Deployment) (w : DeviceWorld) : Prop :=
  ∀ l w₁, DeviceStep d l w w₁ → ∀ t ∈ w₁.db.tokens, w.db.tokens.get? t.id = none →
    ∃ input device row, Takes d input device row w w₁ ∧ t.deviceId = device.id

/-- A revoked device stays revoked, and no call that begins then resolves a token to it. -/
def RevokedForGood (d : Deployment) (w : DeviceWorld) : Prop :=
  ∀ id row, w.db.devices.get? id = some row → row.trust = .revoked →
    ∀ more w₁, Path (DeviceStep d) more w w₁ →
      (∃ row', w₁.db.devices.get? id = some row' ∧ row'.trust = .revoked) ∧
      ∀ more' w₂ raw kind a w₃, Path (DeviceStep d) more' w₁ w₂ →
        Returns d (.resolveDeviceToken raw kind) w₁.db a w₂ w₃ →
        ∀ computerId kind', a ≠ .resolved (some (id, computerId, kind'))

abbrev DeviceHolds (d : Deployment) (w : DeviceWorld) : Prop :=
  w.Holds deviceRely (Call.spec d) fun _ => True

variable {w w' : DeviceWorld}

theorem DeviceHolds.path (h : DeviceHolds d w) {ls : List (Nat × Act Call Draw)}
    (path : Path (DeviceStep d) ls w w') : DeviceHolds d w' ∧ Later w.db w'.db := by
  obtain ⟨holds, later⟩ := World.holds_path device_rules path h
  exact ⟨holds, later.1⟩

theorem Returns.holds {c : Call} {began : Database} {a : Reply} (h : Returns d c began a w w')
    (holds : DeviceHolds d w) : DeviceHolds d w' := by
  obtain ⟨id, step, _⟩ := h
  exact (World.holds_step device_rules holds ⟨step, trivial⟩).1

theorem Claims.takes {input : ClaimPairingInput} {device : DeviceRow} (h : Claims d input device s)
    (db : s.db = w.db) (view : s.view = w'.db) :
    ∃ row, Takes d input device row w w' ∧ ∀ id t,
      logged DeviceTokenRow.id Write.token? s.log id = some t → t.deviceId = device.id := by
  obtain ⟨row, hash, fresh, taken⟩ := h.code
  refine ⟨row, ⟨hash, fresh, db ▸ taken.pending, ?_, db ▸ taken.fresh, ?_⟩, taken.tokens⟩
  · rw [← view, Progress.view, codes_writeAll, taken.claimed]
    rfl
  · rw [← view, Progress.view, devices_writeAll, taken.created]
    rfl

theorem DeviceHolds.claimedOnce (holds : DeviceHolds d w) : ClaimedOnce d w := by
  intro input began device controlToken nodeToken w₁ returned
  obtain ⟨s, db, view, _, ends⟩ := returned.ends holds
  rcases ends with ⟨_, _, _, ⟨⟩, claims⟩ | ⟨other, _⟩
  · obtain ⟨row, takes, _⟩ := claims.takes db view
    refine ⟨row, takes, fun more w₂ path => ?_⟩
    obtain ⟨row', found, _, _, frozen⟩ :=
      ((returned.holds holds).path path).2.codes row.id _ takes.claimed
    have same := frozen fun is => nomatch is
    rw [same] at found
    refine ⟨found, fun input' device' row' w₃ again same' => ?_⟩
    have pending := again.pending
    rw [same', found] at pending
    obtain ⟨⟨⟩, is⟩ := pending
    cases is
  · exact absurd rfl (other device controlToken nodeToken)

theorem DeviceHolds.linkedOnce (holds : DeviceHolds d w) : LinkedOnce d w := by
  intro actor input began deviceId computerId created w₁ returned
  obtain ⟨s, db, view, _, _, ends⟩ := returned.ends holds
  obtain ⟨⟨row, found, linked⟩, fresh, others⟩ := ends deviceId computerId created rfl
  rw [view] at found fresh others
  rw [db] at fresh others
  refine ⟨fun more w₂ path => ?_, fresh, others⟩
  obtain ⟨row', found', later⟩ := ((returned.holds holds).path path).2.devices _ row found
  exact ⟨row', found', later.2 _ linked⟩

theorem DeviceHolds.issued (holds : DeviceHolds d w) : IssuedByClaim d w := by
  rintro ⟨id, act⟩ w₁ ⟨step, _⟩ t there absent
  cases World.step_advance step with
  | @commit s a found rest =>
    have under := holds.under s (Table.mem_of_get? found)
    rw [rest] at under
    obtain ⟨orderly, ends⟩ := under w.db (deviceRely.refl _ _)
    have written : logged DeviceTokenRow.id Write.token? s.log t.id = some t := by
      have now : (writeAll s.log w.db).tokens.get? t.id = some t := Table.get?_of_mem there
      rw [tokens_writeAll, absent, Option.or_none] at now
      exact now
    have issues : s.label.kind = .claim := by
      by_contra other
      have before : (w.db.tokens.get? t.id).isSome := orderly.tokens other t.id t written
      rw [absent] at before
      cases before
    cases label : s.label with
    | claimPairing input =>
      rw [label] at ends
      rcases ends with ⟨device, _, _, _, claims⟩ | ⟨_, none_⟩
      · obtain ⟨row, takes, own⟩ : ∃ row, Takes d input device row w
            { w.close id with db := (s.at_ w.db).view } ∧ _ := claims.takes rfl rfl
        exact ⟨input, device, row, takes, own t.id t written⟩
      · cases (none_ t.id).symm.trans written
    | _ =>
      rw [label] at issues
      cases issues
  | _ => cases (Table.get?_of_mem there).symm.trans absent

theorem DeviceHolds.revoked (holds : DeviceHolds d w) : RevokedForGood d w := by
  intro id row found revoked more w₁ path
  obtain ⟨holds₁, later⟩ := holds.path path
  obtain ⟨row', found', step⟩ := later.devices id row found
  refine ⟨⟨row', found', step.1 revoked⟩, ?_⟩
  intro more' w₂ raw kind a w₃ path' returned computerId kind' is
  obtain ⟨_, _, _, _, resolves⟩ := returned.ends (holds₁.path path').1
  have active := resolves id computerId kind' is row' found'
  rw [step.1 revoked] at active
  cases active

/-- From any database and in any interleaving. -/
theorem device_pairing {ls : List (Nat × Act Call Draw)} {db : Database}
    (path : Path (DeviceStep d) ls (World.quiet db) w) :
    ClaimedOnce d w ∧ LinkedOnce d w ∧ IssuedByClaim d w ∧ RevokedForGood d w := by
  have holds : DeviceHolds d w :=
    (DeviceHolds.path (World.holds_quiet trivial : DeviceHolds d (World.quiet db)) path).1
  exact ⟨holds.claimedOnce, holds.linkedOnce, holds.issued, holds.revoked⟩

/-! A code is claimed once, in the middle of another claim of it. -/
namespace Sample

/-- The digests of this code and of these secrets. -/
def artoo : Deployment where
  hmacSha256Hex _ := "118ef21c13d018f44ae56b94a4e993f9266df1251244f984087c3c1f34e2bb5a"
  sha256Hex secret :=
    if secret = "secret-1" then "f7e7c36e458e80e6b6a2c67d0a9ec09bd718dadd7bfa8d6bf6e7ad526e46c2f7"
    else "f4b6bb6548129dacf11c1a9c4dffffefd4aa6b21fcf4e9754cc03b731cbe7c25"
  toUpperCase := String.toUpper
  toLowerCase := String.toLower
  pairingTtlMs := 600000
  controlTokenTtlMs := 2592000000

def code : PairingCodeRow :=
  artoo.pairingRow "pair_1" "K7QM-9R3T" "user_1" none 1000

def paired : Database where
  users := Table.empty.put { id := "user_1", email := "ada@example.com", role := "admin" }
  codes := Table.empty.put code

def input : ClaimPairingInput :=
  { code := "k7qm 9r3t", platform := .macos, appVersion := "2.0.0", displayName := "Laptop" }

/-- A claim up to the insert of its device. -/
def reaches (id : Nat) (deviceId : String) : List (Nat × Act Call Draw) :=
  [(id, .begin (.claimPairing input)), (id, .draw { instant := 2000 }), (id, .statement),
   (id, .draw { text := "pair_1" }), (id, .statement), (id, .statement),
   (id, .draw { text := deviceId }), (id, .statement)]

/-- Its update of the code, its tokens and its commit. -/
def finishes (id : Nat) : List (Nat × Act Call Draw) :=
  [(id, .statement), (id, .draw { text := "aa" }), (id, .draw { text := "secret-1" }),
   (id, .draw { text := "bb" }), (id, .draw { text := "secret-2" }),
   (id, .draw { text := "token_1" }), (id, .draw { text := "token_2" }), (id, .statement),
   (id, .statement), (id, .commit)]

/-- The second claim finds no pending code, and rolls back. -/
def twoClaims : List (Nat × Act Call Draw) :=
  reaches 1 "device_1" ++ reaches 2 "device_2" ++ finishes 1 ++ [(2, .statement), (2, .abort)]

end Sample

open Sample

theorem device_pairing_raced :
    ∃ w, World.exec (Call.program artoo) (fun _ _ _ => True) twoClaims (World.quiet paired) =
        some w ∧
      w.db.devices.rows.map (·.id) = ["device_1"] ∧
      ClaimedOnce artoo w ∧ LinkedOnce artoo w ∧ IssuedByClaim artoo w ∧
        RevokedForGood artoo w := by
  have runs : (World.exec (Call.program artoo) (fun _ _ _ => True) twoClaims
      (World.quiet paired)).map (·.db.devices.rows.map (·.id)) = some ["device_1"] := by
    decide +kernel
  obtain ⟨w, found, devices⟩ := Option.map_eq_some_iff.mp runs
  exact ⟨w, found, devices, device_pairing (World.exec_path found)⟩

end Artoo.Devices
