import Artoo.Devices.Services

/-! What the calls write, and what that leaves of the rows others have read. -/
namespace Artoo.Devices
open Artoo.Lib Tx

/-- Only a claim inserts tokens, and only an enrolment removes computers. -/
inductive Kind where
  | claim | enrol | other
  deriving DecidableEq

def Call.kind : Call → Kind
  | .claimPairing _ => .claim
  | .enrollDeviceComputer _ _ => .enrol
  | _ => .other

/-! ## What others may commit -/

/-- A code keeps its digest and its expiry, and is not touched once it is no longer pending. -/
def CodeLater (row row' : PairingCodeRow) : Prop :=
  row'.codeHash = row.codeHash ∧ row'.expiresAt = row.expiresAt ∧
    (row.status ≠ .pending → row' = row)

/-- A revoked device stays revoked, and a linked one keeps its computer. -/
def DeviceLater (row row' : DeviceRow) : Prop :=
  (row.trust = .revoked → row'.trust = .revoked) ∧
    ∀ c, row.computerId = some c → row'.computerId = some c

structure Later (db db' : Database) : Prop where
  codes : ∀ id row, db.codes.get? id = some row →
    ∃ row', db'.codes.get? id = some row' ∧ CodeLater row row'
  devices : ∀ id row, db.devices.get? id = some row →
    ∃ row', db'.devices.get? id = some row' ∧ DeviceLater row row'
  computers : ∀ id, (db.computers.get? id).isSome → (db'.computers.get? id).isSome

variable {db db' db'' : Database} {s : Progress Database Write Lock} {kind : Kind}

theorem CodeLater.refl (row : PairingCodeRow) : CodeLater row row := ⟨rfl, rfl, fun _ => rfl⟩

theorem CodeLater.trans {a b c : PairingCodeRow} (first : CodeLater a b) (last : CodeLater b c) :
    CodeLater a c := by
  obtain ⟨hash, expires, frozen⟩ := first
  obtain ⟨hash', expires', frozen'⟩ := last
  refine ⟨hash'.trans hash, expires'.trans expires, fun settled => ?_⟩
  have same := frozen settled
  rw [same] at frozen'
  exact frozen' settled

theorem DeviceLater.refl (row : DeviceRow) : DeviceLater row row := ⟨id, fun _ is => is⟩

theorem DeviceLater.trans {a b c : DeviceRow} (first : DeviceLater a b) (last : DeviceLater b c) :
    DeviceLater a c :=
  ⟨fun revoked => last.1 (first.1 revoked), fun c is => last.2 c (first.2 c is)⟩

theorem Later.refl (db : Database) : Later db db :=
  ⟨fun _ row found => ⟨row, found, CodeLater.refl row⟩,
    fun _ row found => ⟨row, found, DeviceLater.refl row⟩, fun _ there => there⟩

theorem Later.trans (first : Later db db') (last : Later db' db'') : Later db db'' := by
  constructor
  · intro id row found
    obtain ⟨row', found', step⟩ := first.codes id row found
    obtain ⟨row'', found'', step'⟩ := last.codes id row' found'
    exact ⟨row'', found'', step.trans step'⟩
  · intro id row found
    obtain ⟨row', found', step⟩ := first.devices id row found
    obtain ⟨row'', found'', step'⟩ := last.devices id row' found'
    exact ⟨row'', found'', step.trans step'⟩
  · exact fun id there => last.computers id (first.computers id there)

/-- Who holds the lock sees the row unchanged. -/
def Lock.Same (db db' : Database) : Lock → Prop
  | .user _ | .suspension _ | .lookup _ => True
  | .code id => db'.codes.get? id = db.codes.get? id
  | .device id => db'.devices.get? id = db.devices.get? id
  | .token id => db'.tokens.get? id = db.tokens.get? id
  | .computer id => db'.computers.get? id = db.computers.get? id

theorem Lock.Same.refl (k : Lock) (db : Database) : k.Same db db := by
  cases k with
  | user | suspension | lookup => trivial
  | _ => rfl

theorem Lock.Same.trans {k : Lock} (first : k.Same db db') (last : k.Same db' db'') :
    k.Same db db'' := by
  cases k with
  | user | suspension | lookup => trivial
  | _ => exact Eq.trans last first

def deviceRely : Rely Database Lock where
  rel locks db db' := Later db db' ∧ ∀ k ∈ locks, k.Same db db'
  refl _ db := ⟨Later.refl db, fun k _ => Lock.Same.refl k db⟩
  trans _ _ _ _ first last :=
    ⟨first.1.trans last.1, fun k held => (first.2 k held).trans (last.2 k held)⟩
  weaken _ _ _ _ subset step := ⟨step.1, fun k held => step.2 k (subset held)⟩

/-! ## What a transaction has written -/

def Write.code? : Write → Option PairingCodeRow
  | .code row => some row
  | _ => none

def Write.device? : Write → Option DeviceRow
  | .device row => some row
  | _ => none

def Write.token? : Write → Option DeviceTokenRow
  | .token row => some row
  | _ => none

theorem codes_writeAll {log : List Write} {id : String} : (writeAll log db).codes.get? id =
    (logged PairingCodeRow.id Write.code? log id).or (db.codes.get? id) :=
  get?_writeAll Database.codes fun w _ => by cases w <;> rfl

theorem devices_writeAll {log : List Write} {id : String} : (writeAll log db).devices.get? id =
    (logged DeviceRow.id Write.device? log id).or (db.devices.get? id) :=
  get?_writeAll Database.devices fun w _ => by cases w <;> rfl

theorem tokens_writeAll {log : List Write} {id : String} : (writeAll log db).tokens.get? id =
    (logged DeviceTokenRow.id Write.token? log id).or (db.tokens.get? id) :=
  get?_writeAll Database.tokens fun w _ => by cases w <;> rfl

/-- A row whose lock is not taken is not written. -/
theorem Lock.same_writeAll {k : Lock} {log : List Write} (free : ∀ x ∈ log, k ∉ x.locks) :
    k.Same db (writeAll log db) := by
  induction log generalizing db with
  | nil => exact Lock.Same.refl k db
  | cons x log ih =>
    apply Lock.Same.trans _ (ih fun y member => free y (List.mem_cons_of_mem _ member))
    have other := free x List.mem_cons_self
    cases x with
    | suspension row => cases k <;> trivial
    | code row =>
      cases k with
      | code id => exact Table.get?_put_other fun same => other (by simp [Write.locks, same])
      | user | suspension | lookup => trivial
      | _ => rfl
    | device row =>
      cases k with
      | device id => exact Table.get?_put_other fun same => other (by simp [Write.locks, same])
      | user | suspension | lookup => trivial
      | _ => rfl
    | token row =>
      cases k with
      | token id => exact Table.get?_put_other fun same => other (by simp [Write.locks, same])
      | user | suspension | lookup => trivial
      | _ => rfl
    | computer row =>
      cases k with
      | computer id => exact Table.get?_put_other fun same => other (by simp [Write.locks, same])
      | user | suspension | lookup => trivial
      | _ => rfl
    | removeComputer gone =>
      cases k with
      | computer id => exact Table.get?_remove_other fun same => other (by simp [Write.locks, same])
      | user | suspension | lookup => trivial
      | _ => rfl

theorem computers_writeAll {log : List Write} {id : String} (kept : .removeComputer id ∉ log)
    (there : (db.computers.get? id).isSome) : ((writeAll log db).computers.get? id).isSome := by
  induction log generalizing db with
  | nil => exact there
  | cons x log ih =>
    apply ih fun member => kept (List.mem_cons_of_mem _ member)
    cases x with
    | computer row =>
      change ((db.computers.put row).get? id).isSome
      rw [Table.get?_put]
      split
      · rfl
      · exact there
    | removeComputer gone =>
      change ((db.computers.remove gone).get? id).isSome
      rw [Table.get?_remove_other]
      · exact there
      · rintro rfl
        exact kept List.mem_cons_self
    | _ => exact there

/-- What a write may do to the row that its transaction sees. -/
def Tends (kind : Kind) (view : Database) : Write → Prop
  | .code row' => ∀ row, view.codes.get? row'.id = some row →
    CodeLater row row' ∧ row.status = .pending
  | .device row' => ∀ row, view.devices.get? row'.id = some row → DeviceLater row row'
  | .token row' => kind ≠ .claim → (view.tokens.get? row'.id).isSome
  | .removeComputer _ => kind = .enrol
  | _ => True

/-- The rows that a transaction has written, beside those that were committed. -/
structure Orderly (kind : Kind) (s : Progress Database Write Lock) : Prop where
  guarded : ∀ x ∈ s.log, ∀ k ∈ x.locks, k ∈ s.locks
  codes : ∀ id row', logged PairingCodeRow.id Write.code? s.log id = some row' →
    ∀ row, s.db.codes.get? id = some row → CodeLater row row' ∧ row.status = .pending
  devices : ∀ id row', logged DeviceRow.id Write.device? s.log id = some row' →
    ∀ row, s.db.devices.get? id = some row → DeviceLater row row'
  tokens : kind ≠ .claim → ∀ id row', logged DeviceTokenRow.id Write.token? s.log id = some row' →
    (s.db.tokens.get? id).isSome
  computers : kind ≠ .enrol → ∀ id, .removeComputer id ∉ s.log

/-- A computer that a transaction removes is its own. -/
def Removes (s : Progress Database Write Lock) : Prop :=
  ∀ id, .removeComputer id ∈ s.log → s.db.computers.get? id = none

theorem Orderly.start : Orderly kind ⟨db, [], []⟩ := by
  constructor
  case guarded => exact fun _ member => nomatch member
  case tokens => exact fun _ _ _ is => nomatch is
  case computers => exact fun _ _ member => nomatch member
  all_goals exact fun _ _ is => nomatch is

theorem Orderly.locked (h : Orderly kind s) {x : Write} (member : x ∈ s.log) {k : Lock}
    (guard : k ∈ x.locks) (later : deviceRely.rel s.locks s.db db) : k.Same s.db db :=
  later.2 k (h.guarded x member k guard)

theorem Orderly.later (h : Orderly kind s) (step : deviceRely.rel s.locks s.db db) :
    Orderly kind (s.at_ db) := by
  constructor
  case guarded => exact h.guarded
  case codes =>
    intro id row' is row found
    obtain ⟨rfl, x, member, wrote⟩ := logged_eq_some is
    have same : (Lock.code row'.id).Same s.db db := h.locked member (by
      cases x <;> cases wrote
      exact List.mem_cons_self) step
    exact h.codes _ row' is row (same ▸ found)
  case devices =>
    intro id row' is row found
    obtain ⟨rfl, x, member, wrote⟩ := logged_eq_some is
    have same : (Lock.device row'.id).Same s.db db := h.locked member (by
      cases x <;> cases wrote
      exact List.mem_cons_self) step
    exact h.devices _ row' is row (same ▸ found)
  case tokens =>
    intro none_ id row' is
    obtain ⟨rfl, x, member, wrote⟩ := logged_eq_some is
    have same : (Lock.token row'.id).Same s.db db := h.locked member (by
      cases x <;> cases wrote
      exact List.mem_cons_self) step
    change (db.tokens.get? row'.id).isSome
    rw [same]
    exact h.tokens none_ _ row' is
  case computers => exact h.computers

theorem Orderly.after (h : Orderly kind s) {locks : Database → List Lock}
    {writes : Database → List Write} (tends : ∀ w ∈ writes s.view, Tends kind s.view w) :
    Orderly kind (s.after locks writes) := by
  constructor
  case guarded =>
    intro x member k guard
    rcases List.mem_append.mp member with old | new
    · exact Progress.locks_after (h.guarded x old k guard)
    · apply List.mem_append_right
      exact List.mem_append_right _ (List.mem_flatMap.mpr ⟨x, new, guard⟩)
  case codes =>
    intro id row' is row found
    rw [Progress.after_log, logged_append, Option.or_eq_some_iff] at is
    rcases is with new | ⟨_, old⟩
    · obtain ⟨rfl, x, member, wrote⟩ := logged_eq_some new
      have step := tends x member
      cases x <;> cases wrote
      cases before : logged PairingCodeRow.id Write.code? s.log row'.id with
      | none =>
        apply step row
        rw [Progress.view, codes_writeAll, before]
        exact found
      | some mid =>
        obtain ⟨first, pending⟩ := h.codes _ mid before row found
        have next := step mid (by
          rw [Progress.view, codes_writeAll, before]
          rfl)
        exact ⟨first.trans next.1, pending⟩
    · exact h.codes id row' old row found
  case devices =>
    intro id row' is row found
    rw [Progress.after_log, logged_append, Option.or_eq_some_iff] at is
    rcases is with new | ⟨_, old⟩
    · obtain ⟨rfl, x, member, wrote⟩ := logged_eq_some new
      have step := tends x member
      cases x <;> cases wrote
      cases before : logged DeviceRow.id Write.device? s.log row'.id with
      | none =>
        apply step row
        rw [Progress.view, devices_writeAll, before]
        exact found
      | some mid =>
        apply (h.devices _ mid before row found).trans
        apply step mid
        rw [Progress.view, devices_writeAll, before]
        rfl
    · exact h.devices id row' old row found
  case tokens =>
    intro none_ id row' is
    rw [Progress.after_log, logged_append, Option.or_eq_some_iff] at is
    rcases is with new | ⟨_, old⟩
    · obtain ⟨rfl, x, member, wrote⟩ := logged_eq_some new
      have step := tends x member
      cases x <;> cases wrote
      have seen := step none_
      rw [Progress.view, tokens_writeAll] at seen
      cases before : logged DeviceTokenRow.id Write.token? s.log row'.id with
      | none =>
        rw [before] at seen
        exact seen
      | some mid => exact h.tokens none_ _ mid before
    · exact h.tokens none_ id row' old
  case computers =>
    intro none_ id member
    rcases List.mem_append.mp member with old | new
    · exact h.computers none_ id old
    · exact none_ (tends _ new)

theorem Orderly.removes (h : Orderly kind s) (other : kind ≠ .enrol) : Removes s :=
  fun id gone => absurd gone (h.computers other id)

theorem Orderly.view (h : Orderly kind s) (removes : Removes s) : Later s.db s.view := by
  constructor
  · intro id row found
    rw [Progress.view, codes_writeAll]
    cases is : logged PairingCodeRow.id Write.code? s.log id with
    | none => exact ⟨row, found, CodeLater.refl row⟩
    | some row' => exact ⟨row', rfl, (h.codes id row' is row found).1⟩
  · intro id row found
    rw [Progress.view, devices_writeAll]
    cases is : logged DeviceRow.id Write.device? s.log id with
    | none => exact ⟨row, found, DeviceLater.refl row⟩
    | some row' => exact ⟨row', rfl, h.devices id row' is row found⟩
  · intro id there
    apply computers_writeAll _ there
    intro gone
    rw [removes id gone] at there
    cases there

theorem Orderly.under {α : Type} {p : Txn α} (writes : Writes (Tends kind) p)
    (h : Orderly kind s) : under deviceRely p (fun _ s' => Orderly kind s') s :=
  Writes.under writes (fun _ _ kept step => kept.later step)
    (fun _ _ _ kept tends => kept.after tends) h

/-! ## What the calls write -/

variable {view : Database} {d : Deployment}

theorem tends_code {row row' : PairingCodeRow} (there : row ∈ view.codes)
    (pending : row.status = .pending) (step : CodeLater row row') (same : row'.id = row.id) :
    Tends kind view (.code row') := by
  intro seen found
  rw [same, Table.get?_of_mem there] at found
  cases found
  exact ⟨step, pending⟩

theorem tends_device {row row' : DeviceRow} (there : row ∈ view.devices)
    (step : DeviceLater row row') (same : row'.id = row.id) : Tends kind view (.device row') := by
  intro seen found
  rw [same, Table.get?_of_mem there] at found
  cases found
  exact step

theorem tends_token {row row' : DeviceTokenRow} (there : row ∈ view.tokens)
    (same : row'.id = row.id) : Tends kind view (.token row') := by
  intro _
  rw [same, Table.get?_of_mem there]
  rfl

theorem DeviceLater.revoke (row : DeviceRow) (now : Int) : DeviceLater row (row.revoke now) :=
  ⟨fun _ => rfl, fun _ is => is⟩

theorem reads_isMemberSuspended {userId : String} : Tx.Reads (isMemberSuspended userId) :=
  writes_query

theorem reads_isActiveMember {userId : String} : Tx.Reads (isActiveMember userId) := by
  apply writes_bind writes_query
  intro user
  split
  · exact writes_done
  · exact writes_bind reads_isMemberSuspended fun _ => writes_done

theorem reads_requireActiveMember {userId : String} : Tx.Reads (requireActiveMember userId) :=
  writes_bind reads_isActiveMember fun _ => writes_check

theorem reads_requireAdministrator {actor : String} : Tx.Reads (d.requireAdministrator actor) := by
  apply writes_bind writes_query
  intro found
  apply writes_bind writes_require
  intro user
  apply writes_bind reads_isMemberSuspended
  intro suspended
  apply writes_bind writes_check
  intro _
  apply writes_bind writes_check
  exact fun _ => writes_check

theorem writes_updatePending {id : String} {set : PairingCodeRow → PairingCodeRow}
    (same : ∀ row, (set row).id = row.id) (hash : ∀ row, (set row).codeHash = row.codeHash)
    (expires : ∀ row, (set row).expiresAt = row.expiresAt) :
    Writes (Tends kind) (updatePending id set) := by
  apply writes_change
  intro view row member
  obtain ⟨found, pending⟩ := Option.filter_eq_some_iff.mp (Option.mem_toList.mp member)
  rw [beq_iff_eq] at pending
  exact tends_code (Table.mem_of_get? found) pending
    ⟨hash row, expires row, fun settled => absurd pending settled⟩ (same row)

theorem reads_generate : Tx.Reads generate := writes_bind writes_drawn fun _ => writes_done

theorem reads_nowIso : Tx.Reads nowIso := writes_bind writes_drawn fun _ => writes_done

theorem writes_createPairing {actor createdBy : String} {platform : Option DevicePlatform} :
    Writes (Tends kind) (createPairing d actor createdBy platform) := by
  apply writes_bind writes_query
  intro found
  apply writes_bind writes_check
  intro _
  apply writes_bind reads_generate.writes
  intro code
  apply writes_bind reads_nowIso.writes
  intro now
  apply writes_bind reads_generate.writes
  intro id
  apply writes_bind reads_requireActiveMember.writes
  intro _
  refine writes_bind (writes_add ?_) fun _ => writes_done
  intro view fresh row found
  change view.codes.get? id = some row at found
  rw [found] at fresh
  cases fresh

theorem writes_addDevice {row : DeviceRow} : Writes (Tends kind)
    (Tx.add (fun db => (db.devices.get? row.id).isSome) (.device row) .constraint : Txn Unit) := by
  apply writes_add
  intro view fresh old found
  rw [found] at fresh
  cases fresh

theorem reads_generateDeviceToken : Tx.Reads d.generateDeviceToken := by
  apply writes_bind reads_generate
  intro lookup
  exact writes_bind reads_generate fun _ => writes_done

theorem reads_buildTokenRow {deviceId : String} {kind : DeviceTokenKind}
    {token : GeneratedDeviceToken} {now : Int} :
    Tx.Reads (d.buildTokenRow deviceId kind token now) :=
  writes_bind reads_generate fun _ => writes_done

theorem writes_insertToken {row : DeviceTokenRow} : Writes (Tends .claim) (insertToken row) :=
  writes_add fun _ _ other => absurd rfl other

theorem writes_claimInTx {input : ClaimPairingInput} {existing : PairingCodeRow} {now : Int} :
    Writes (Tends .claim) (claimInTx d input existing now) := by
  apply writes_bind reads_isActiveMember.writes
  intro active
  apply writes_bind writes_check
  intro _
  apply writes_bind reads_generate.writes
  intro id
  apply writes_bind (@writes_addDevice _ (input.device id existing now))
  intro _
  have update : Writes (Tends .claim) (updatePending existing.id fun row => row.claimedBy id now) :=
    writes_updatePending (fun _ => rfl) (fun _ => rfl) fun _ => rfl
  apply writes_bind update
  intro claimed
  apply writes_bind writes_check
  intro _
  apply writes_bind reads_generateDeviceToken.writes
  intro control
  apply writes_bind reads_generateDeviceToken.writes
  intro node
  apply writes_bind reads_buildTokenRow.writes
  intro controlRow
  apply writes_bind reads_buildTokenRow.writes
  intro nodeRow
  apply writes_bind writes_insertToken
  intro _
  exact writes_bind writes_insertToken fun _ => writes_done

theorem writes_claimPairing {input : ClaimPairingInput} :
    Writes (Tends .claim) (claimPairing d input) := by
  apply writes_bind writes_check
  intro _
  apply writes_bind reads_nowIso.writes
  intro now
  apply writes_bind writes_query
  intro rows
  apply writes_bind reads_generate.writes
  intro choice
  apply writes_bind writes_require
  intro existing
  apply writes_bind writes_check
  intro _
  split
  · have update : Writes (Tends .claim)
        (updatePending existing.id fun row => { row with status := .expired }) :=
      writes_updatePending (fun _ => rfl) (fun _ => rfl) fun _ => rfl
    exact writes_bind update fun _ => writes_done
  · apply writes_bind writes_check
    exact fun _ => writes_claimInTx

theorem reads_resolveDeviceToken {raw : String} {kind : DeviceTokenKind} :
    Tx.Reads (resolveDeviceToken d raw kind) := by
  unfold resolveDeviceToken
  split
  · exact writes_done
  · apply writes_bind writes_query
    intro token
    apply writes_bind reads_nowIso
    intro now
    split
    · exact writes_done
    · apply writes_bind writes_query
      intro device
      split
      · exact writes_done
      · apply writes_bind reads_isMemberSuspended
        intro suspended
        split
        · exact writes_done
        · exact writes_done

theorem writes_revokeDevice {deviceId : String} :
    Writes (Tends kind) (revokeDevice deviceId) := by
  apply writes_bind reads_nowIso.writes
  intro now
  apply writes_bind writes_query
  intro found
  apply writes_bind writes_require
  intro device
  split
  · exact writes_done
  · refine writes_bind (writes_change ?_) fun _ =>
      writes_bind (writes_change ?_) fun _ => writes_done
    · intro view row member
      have there := Table.mem_of_get? (Option.mem_toList.mp member)
      exact tends_device there (DeviceLater.revoke row now) rfl
    · intro view row member
      exact tends_token (Table.mem_select.mp member).1 rfl

theorem writes_linkComputer {deviceId computerId : String} :
    Writes (Tends .enrol) (linkComputer deviceId computerId) := by
  apply writes_bind
  · apply writes_change
    intro view row member
    obtain ⟨found, unlinked⟩ := Option.filter_eq_some_iff.mp (Option.mem_toList.mp member)
    rw [Option.isNone_iff_eq_none] at unlinked
    refine tends_device (Table.mem_of_get? found) ⟨id, fun c is => ?_⟩ rfl
    cases unlinked.symm.trans is
  · intro linked
    split
    · have remove : Writes (Tends .enrol)
          (Tx.change (fun db => (db.computers.get? computerId).toList) fun row =>
            .removeComputer row.id : Txn (List ComputerRow)) := by
        apply writes_change
        intro view row member
        exact (rfl : Kind.enrol = Kind.enrol)
      apply writes_bind remove
      intro _
      apply writes_bind writes_query
      intro winner
      exact writes_bind writes_require fun _ => writes_done
    · exact writes_done

theorem writes_enrollDeviceComputer {actor : String} {input : EnrollDeviceComputerInput} :
    Writes (Tends .enrol) (enrollDeviceComputer d actor input) := by
  apply writes_bind reads_requireAdministrator.writes
  intro _
  apply writes_bind reads_nowIso.writes
  intro now
  apply writes_bind writes_query
  intro found
  apply writes_bind writes_require
  intro device
  apply writes_bind writes_check
  intro _
  apply writes_bind writes_check
  intro _
  split
  · exact writes_done
  · apply writes_bind reads_generate.writes
    intro id
    apply writes_bind (writes_add fun _ _ => trivial)
    exact fun _ => writes_linkComputer

theorem writes_suspendMember {actor userId reason : String} {now : Int} :
    Writes (Tends kind) (suspendMember actor userId reason now) := by
  apply writes_bind (writes_change fun _ _ _ => trivial)
  intro _
  apply writes_bind writes_query
  intro owned
  apply writes_bind
  · apply writes_change
    intro view row member
    exact tends_device (Table.mem_select.mp member).1 (DeviceLater.revoke row now) rfl
  · intro _
    apply writes_bind
    · apply writes_change
      intro view row member
      exact tends_token (Table.mem_select.mp member).1 rfl
    · intro _
      refine writes_bind (writes_change ?_) fun _ => writes_done
      intro view row member
      obtain ⟨there, matches_⟩ := Table.mem_select.mp member
      have pending := (Bool.and_eq_true_iff.mp matches_).2
      rw [beq_iff_eq] at pending
      exact tends_code there pending ⟨rfl, rfl, fun settled => absurd pending settled⟩ rfl

theorem writes_setMemberSuspension {actor userId reason : String} {suspended : Bool} :
    Writes (Tends kind) (setMemberSuspension d actor userId suspended reason) := by
  apply writes_bind writes_check
  intro _
  apply writes_bind writes_check
  intro _
  apply writes_bind reads_requireAdministrator.writes
  intro _
  apply writes_bind writes_queryForUpdate
  intro targets
  apply writes_bind writes_require
  intro target
  apply writes_bind writes_query
  intro acting
  apply writes_bind writes_check
  intro _
  apply writes_bind reads_nowIso.writes
  intro now
  split
  · exact writes_suspendMember
  · exact writes_bind (writes_change fun _ _ _ => trivial) fun _ => writes_done

theorem writes_revokeControlSession {tokenId : String} :
    Writes (Tends kind) (revokeControlSession tokenId) := by
  apply writes_bind reads_nowIso.writes
  intro now
  refine writes_bind (writes_change ?_) fun _ => writes_done
  intro view row member
  obtain ⟨found, _⟩ := Option.filter_eq_some_iff.mp (Option.mem_toList.mp member)
  exact tends_token (Table.mem_of_get? found) rfl

theorem writes_recordDeviceActivity {deviceId : String} :
    Writes (Tends kind) (recordDeviceActivity deviceId) := by
  apply writes_bind reads_nowIso.writes
  intro now
  refine writes_bind (writes_change ?_) fun _ => writes_done
  intro view row member
  have there := Table.mem_of_get? (Option.mem_toList.mp member)
  exact tends_device there ⟨id, fun _ is => is⟩ rfl

theorem writes_updatePresence {nodeId : String} {patch : ComputerRow → ComputerRow} :
    Writes (Tends kind) (updatePresence nodeId patch) :=
  writes_bind (writes_change fun _ _ _ => trivial) fun _ => writes_done

theorem writes_call {c : Call} : Writes (Tends c.kind) (c.program d) := by
  cases c with
  | createPairing => exact writes_createPairing
  | claimPairing => exact writes_claimPairing
  | resolveDeviceToken => exact reads_resolveDeviceToken.writes
  | revokeDevice => exact writes_revokeDevice
  | enrollDeviceComputer => exact writes_enrollDeviceComputer
  | setMemberSuspension => exact writes_setMemberSuspension
  | revokeControlSession => exact writes_revokeControlSession
  | recordDeviceActivity => exact writes_recordDeviceActivity
  | updatePresence => exact writes_updatePresence

end Artoo.Devices
