import Artoo.Members.Services

/-! What gives a member access: sessions, devices and their tokens, pending codes and consents; who
a transaction gives it to, and what others may commit meanwhile. -/
namespace Artoo.Members
open Artoo.Lib Tx
open Artoo.Devices (Deployment)

/-- The tables that a suspension sweeps. -/
inductive Kind where
  | session | device | token | code | consent
  deriving DecidableEq, Repr

inductive Row where
  | session (row : SessionRow)
  | device (row : Devices.DeviceRow)
  | token (row : Devices.DeviceTokenRow)
  | code (row : Devices.PairingCodeRow)
  | consent (row : ConsentRow)

def Row.item : Row → Kind × String
  | .session row => (.session, row.id)
  | .device row => (.device, row.id)
  | .token row => (.token, row.id)
  | .code row => (.code, row.id)
  | .consent row => (.consent, row.id)

def Store.row (st : Store) : Kind → String → Option Row
  | .session, id => (st.sessions.get? id).map .session
  | .device, id => (st.core.devices.get? id).map .device
  | .token, id => (st.core.tokens.get? id).map .token
  | .code, id => (st.core.codes.get? id).map .code
  | .consent, id => (st.consents.get? id).map .consent

/-- A device that the member enrolled. -/
def OwnsDevice (st : Store) (userId id : String) : Prop :=
  ∃ row, st.row .device id = some (.device row) ∧ row.enrolledByUserId = userId

/-- An unrevoked session, active device, active device token, pending pairing code or unrevoked
consent of the member. -/
def Row.Gives (st : Store) (userId : String) : Row → Prop
  | .session row => row.userId = userId ∧ row.revokedAt = none
  | .device row => row.enrolledByUserId = userId ∧ row.trust = .active
  | .token row => row.status = .active ∧ OwnsDevice st userId row.deviceId
  | .code row => row.createdByUserId = userId ∧ row.status = .pending
  | .consent row => row.userId = userId ∧ row.revokedAt = none

def Active (st : Store) (userId : String) (kind : Kind) (id : String) : Prop :=
  ∃ row, st.row kind id = some row ∧ row.Gives st userId

def Clean (st : Store) (userId : String) : Prop := ∀ kind id, ¬ Active st userId kind id

/-- No suspended member has access left. -/
def Swept (st : Store) : Prop := ∀ userId, suspended st userId = true → Clean st userId

/-! ## What only reads -/

theorem reads_isActiveMember {userId : String} : Reads (isActiveMember userId) := by
  unfold isActiveMember
  apply writes_bind writes_queryForUpdate
  intro rows
  split
  · exact writes_done
  · exact writes_bind writes_query fun _ => writes_done

theorem reads_requireActiveMember {userId : String} : Reads (requireActiveMember userId) := by
  unfold requireActiveMember
  exact writes_bind reads_isActiveMember fun _ => writes_check

theorem reads_requireAiSharingAuthorization {policy : Option AiDataSharingPolicy} {userId : String}
    {expected : Option AiSharingAuthorization} :
    Reads (requireAiSharingAuthorization policy userId expected) := by
  unfold requireAiSharingAuthorization
  apply writes_bind writes_require
  intro policy
  apply writes_bind reads_requireActiveMember
  intro _
  cases policy.mode with
  | local_ => exact writes_ofResult
  | external => exact writes_bind writes_query fun _ => writes_ofResult

theorem reads_requireAdministrator {d : Deployment} {actor : String} :
    Reads (requireAdministrator d actor) := by
  unfold requireAdministrator
  apply writes_bind writes_queryForUpdate
  intro rows
  apply writes_bind writes_require
  intro user
  apply writes_bind writes_query
  intro _
  apply writes_bind writes_check
  intro _
  exact writes_bind writes_check fun _ => writes_check

/-! ## What others may commit -/

/-- The member gains nothing. -/
structure NoNew (userId : String) (st st' : Store) : Prop where
  active : ∀ kind id, Active st' userId kind id → Active st userId kind id
  owned : ∀ id, OwnsDevice st' userId id → OwnsDevice st userId id

theorem NoNew.refl (userId : String) (st : Store) : NoNew userId st st :=
  ⟨fun _ _ h => h, fun _ h => h⟩

theorem NoNew.trans {userId : String} {a b c : Store} (first : NoNew userId a b)
    (last : NoNew userId b c) : NoNew userId a c :=
  ⟨fun kind id h => first.active kind id (last.active kind id h),
    fun id h => first.owned id (last.owned id h)⟩

/-- A device keeps the member who enrolled it. -/
def KeepOwners (st st' : Store) : Prop := ∀ userId id, OwnsDevice st userId id → OwnsDevice st' userId id

/-- A lock on the row of the member, of either mode. -/
def LocksUser (userId : String) (locks : List Lock) : Prop :=
  .shareUser userId ∈ locks ∨ .core (.user userId) ∈ locks

/-- Who locks the member's row exclusively sees nothing new of the member; with either lock the
suspension stays as it is, and a locked device row too. -/
structure MemberLater (locks : List Lock) (st st' : Store) : Prop where
  owners : KeepOwners st st'
  none_ : ∀ userId, .core (.user userId) ∈ locks → NoNew userId st st'
  suspended : ∀ userId, LocksUser userId locks → suspended st' userId = suspended st userId
  devices : ∀ id, .core (.device id) ∈ locks → st'.row .device id = st.row .device id

def memberRely : Rely Store Lock where
  rel := MemberLater
  refl _ st := ⟨fun _ _ h => h, fun _ _ => .refl _ st, fun _ _ => rfl, fun _ _ => rfl⟩
  trans _ _ _ _ first last :=
    ⟨fun userId id h => last.owners userId id (first.owners userId id h),
      fun userId held => (first.none_ userId held).trans (last.none_ userId held),
      fun userId held => (last.suspended userId held).trans (first.suspended userId held),
      fun id held => (last.devices id held).trans (first.devices id held)⟩
  weaken _ _ _ _ sub h :=
    ⟨h.owners, fun userId held => h.none_ userId (sub held),
      fun userId held => h.suspended userId (held.imp (fun k => sub k) fun k => sub k),
      fun id held => h.devices id (sub held)⟩

abbrev Standing := Progress Store Write Lock

/-! ## What a log leaves -/

/-- The row a write leaves in a table that is swept. -/
def Write.row : Write → Option Row
  | .session row => some (.session row)
  | .consent row => some (.consent row)
  | .core (.device row) => some (.device row)
  | .core (.token row) => some (.token row)
  | .core (.code row) => some (.code row)
  | _ => none

theorem row_item {st : Store} {kind : Kind} {id : String} {row : Row}
    (found : st.row kind id = some row) : row.item = (kind, id) := by
  cases kind
  all_goals
    obtain ⟨r, there, rfl⟩ := Option.map_eq_some_iff.mp found
    have key := Table.key_of_get? there
    exact Prod.ext rfl key

theorem map_put {ρ : Type} {key : ρ → String} {t : Table key} {r : ρ} {id : String}
    {wrap : ρ → Row} {kind : Kind} (item : (wrap r).item = (kind, key r)) :
    ((t.put r).get? id).map wrap = ((some (wrap r)).filter fun row => decide (row.item = (kind, id))).or
      ((t.get? id).map wrap) := by
  rw [Table.get?_put]
  by_cases hit : key r = id
  · simp [hit, item, Option.filter]
  · simp [hit, item, Option.filter]

theorem row_apply (w : Write) (st : Store) (kind : Kind) (id : String) :
    (w.apply st).row kind id =
      (w.row.filter fun row => decide (row.item = (kind, id))).or (st.row kind id) := by
  cases w with
  | session row =>
    cases kind with
    | session => exact map_put rfl
    | _ => rfl
  | consent row =>
    cases kind with
    | consent => exact map_put rfl
    | _ => rfl
  | run row => cases kind <;> rfl
  | core w =>
    cases w with
    | device row =>
      cases kind with
      | device => exact map_put rfl
      | _ => rfl
    | token row =>
      cases kind with
      | token => exact map_put rfl
      | _ => rfl
    | code row =>
      cases kind with
      | code => exact map_put rfl
      | _ => rfl
    | _ => cases kind <;> rfl

/-- A row after a log: written by it, or there before and not written. -/
theorem found_row {log : List Write} {st : Store} {kind : Kind} {id : String} {row : Row}
    (found : (writeAll log st).row kind id = some row) :
    (∃ w ∈ log, w.row = some row) ∨ st.row kind id = some row ∧
      ∀ w ∈ log, ∀ other, w.row = some other → other.item ≠ (kind, id) := by
  induction log generalizing st with
  | nil => exact Or.inr ⟨found, List.forall_mem_nil _⟩
  | cons w log ih =>
    rcases ih found with ⟨w', member, is⟩ | ⟨there, off⟩
    · exact Or.inl ⟨w', List.mem_cons_of_mem _ member, is⟩
    · change (w.apply st).row kind id = some row at there
      rw [row_apply, Option.or_eq_some_iff] at there
      rcases there with new | ⟨other, old⟩
      · exact Or.inl ⟨w, List.mem_cons_self, (Option.filter_eq_some_iff.mp new).1⟩
      · refine Or.inr ⟨old, fun w' member row' is => ?_⟩
        rcases List.mem_cons.mp member with rfl | later
        · intro hit
          rw [is, Option.filter_some, if_pos (decide_eq_true hit)] at other
          cases other
        · exact off w' later row' is

theorem unwritten_row {log : List Write} {st : Store} {kind : Kind} {id : String}
    (off : ∀ w ∈ log, ∀ row, w.row = some row → row.item ≠ (kind, id)) :
    (writeAll log st).row kind id = st.row kind id := by
  induction log generalizing st with
  | nil => rfl
  | cons w log ih =>
    rw [writeAll_cons, ih fun w' member => off w' (List.mem_cons_of_mem _ member)]
    change (w.apply st).row kind id = _
    rw [row_apply]
    cases is : w.row with
    | none => rfl
    | some row =>
      have other := off w List.mem_cons_self row is
      rw [Option.filter_some, if_neg (by simpa using other), Option.none_or]

theorem row_persists {log : List Write} {st : Store} {kind : Kind} {id : String}
    (there : (st.row kind id).isSome) : ((writeAll log st).row kind id).isSome := by
  induction log generalizing st with
  | nil => exact there
  | cons w log ih =>
    apply ih
    change ((w.apply st).row kind id).isSome
    rw [row_apply, Option.isSome_or, there, Bool.or_true]

theorem unwritten_suspension {log : List Write} {st : Store} {userId : String}
    (off : ∀ row, .core (.suspension row) ∈ log → row.userId ≠ userId) :
    (writeAll log st).core.suspensions.get? userId = st.core.suspensions.get? userId := by
  induction log generalizing st with
  | nil => rfl
  | cons w log ih =>
    rw [writeAll_cons, ih fun row member => off row (List.mem_cons_of_mem _ member)]
    rcases w with w | _ | _ | _
    · cases w with
      | suspension row => exact Table.get?_put_other (off row List.mem_cons_self)
      | _ => rfl
    · rfl
    · rfl
    · rfl

/-! ## Transactions about one member -/

/-- A row that may give access. -/
def Row.Fresh : Row → Prop
  | .session row => row.revokedAt = none
  | .device _ => True
  | .token row => row.status = .active
  | .code row => row.status = .pending
  | .consent row => row.revokedAt = none

/-- A row that gives access to the member only. -/
def Row.For (userId : String) (log : List Write) : Row → Prop
  | .session row => row.userId = userId
  | .device row => row.enrolledByUserId = userId
  | .token row => ∃ device, .core (.device device) ∈ log ∧ device.id = row.deviceId
  | .code row => row.createdByUserId = userId
  | .consent row => row.userId = userId

/-- What a transaction writes gives access to one member only, and only under a lock of the
member's row; a suspension is written under the exclusive one. -/
structure About (userId : String) (s : Standing) : Prop where
  rows : ∀ w ∈ s.log, ∀ row, w.row = some row → row.Fresh →
    row.For userId s.log ∧ LocksUser userId s.locks
  devices : ∀ row, .core (.device row) ∈ s.log → .core (.device row.id) ∈ s.locks ∧
    ∀ other, OwnsDevice s.db other row.id → other = userId
  suspensions : ∀ row, .core (.suspension row) ∈ s.log →
    row.userId = userId ∧ .core (.user userId) ∈ s.locks

theorem Row.Gives.fresh {st : Store} {userId : String} {row : Row} (h : row.Gives st userId) :
    row.Fresh := by
  cases row with
  | session row => exact h.2
  | device row => trivial
  | token row => exact h.1
  | code row => exact h.2
  | consent row => exact h.2

/-- An exclusive lock of a member's row leaves no other lock of it. -/
theorem exclusive_user {userId : String} {locks others : List Lock}
    (apart : Modes.Apart locks others) (held : .core (.user userId) ∈ locks) :
    ¬ LocksUser userId others := by
  rintro (shared | exclusive)
  · have off := (apart _ held _ shared).1
    simp [Conflicts.conflicts, Lock.conflicts] at off
  · have off := (apart _ held _ exclusive).1
    simp [Conflicts.conflicts, Lock.conflicts] at off

section About

variable {userId other id : String} {kind : Kind} {s : Standing}

theorem About.later (h : About userId s) {st : Store} (step : MemberLater s.locks s.db st) :
    About userId (s.at_ st) := by
  refine ⟨h.rows, fun row member => ?_, h.suspensions⟩
  obtain ⟨locked, own⟩ := h.devices row member
  refine ⟨locked, fun other ⟨device, there, is⟩ => own other ⟨device, ?_, is⟩⟩
  exact (step.devices row.id locked).symm.trans there

theorem device_row {w : Write} {row : Devices.DeviceRow} (is : w.row = some (.device row)) :
    w = .core (.device row) := by
  rcases w with w | _ | _ | _
  · cases w with
    | device r =>
      cases is
      rfl
    | _ => cases is
  · cases is
  · cases is
  · cases is

theorem About.owned_view (h : About userId s) (owns : OwnsDevice s.view other id) :
    OwnsDevice s.db other id ∨ other = userId ∧ LocksUser userId s.locks := by
  obtain ⟨row, there, is⟩ := owns
  rcases found_row there with ⟨w, member, wrote⟩ | ⟨old, _⟩
  · obtain ⟨own, locked⟩ := h.rows w member _ wrote trivial
    exact Or.inr ⟨is.symm.trans own, locked⟩
  · exact Or.inl ⟨row, old, is⟩

theorem About.active_view (h : About userId s) (active : Active s.view other kind id) :
    Active s.db other kind id ∨ other = userId ∧ LocksUser userId s.locks := by
  obtain ⟨row, there, gives⟩ := active
  rcases found_row there with ⟨w, member, wrote⟩ | ⟨old, _⟩
  · obtain ⟨own, locked⟩ := h.rows w member row wrote gives.fresh
    refine Or.inr ⟨?_, locked⟩
    cases row with
    | session row => exact gives.1.symm.trans own
    | device row => exact gives.1.symm.trans own
    | code row => exact gives.1.symm.trans own
    | consent row => exact gives.1.symm.trans own
    | token row =>
      obtain ⟨device, logged, same⟩ := own
      obtain ⟨row', seen, is⟩ := gives.2
      rcases found_row seen with ⟨w', member', wrote'⟩ | ⟨_, off⟩
      · exact is.symm.trans (h.rows w' member' _ wrote' trivial).1
      · exact (off _ logged (.device device) rfl (Prod.ext rfl same)).elim
  · cases row with
    | token row =>
      rcases h.owned_view gives.2 with owns | mine
      · exact Or.inl ⟨.token row, old, gives.1, owns⟩
      · exact Or.inr mine
    | session row => exact Or.inl ⟨.session row, old, gives⟩
    | device row => exact Or.inl ⟨.device row, old, gives⟩
    | code row => exact Or.inl ⟨.code row, old, gives⟩
    | consent row => exact Or.inl ⟨.consent row, old, gives⟩

theorem About.keepOwners (h : About userId s) : KeepOwners s.db s.view := by
  rintro other id ⟨row, there, is⟩
  have persists := @row_persists s.log s.db .device id (by rw [there]; rfl)
  obtain ⟨row', seen⟩ := Option.isSome_iff_exists.mp persists
  rcases found_row seen with ⟨w, member, wrote⟩ | ⟨old, _⟩
  · have key := row_item seen
    cases row' with
    | device device =>
      have logged := device_row wrote
      subst logged
      have mine := (h.devices device member).2 other
        (by rw [show device.id = id from (Prod.mk.inj key).2]; exact ⟨row, there, is⟩)
      exact ⟨device, seen, mine ▸ (h.rows _ member _ wrote trivial).1⟩
    | _ => cases (Prod.mk.inj key).1
  · rw [there] at old
    cases old
    exact ⟨row, seen, is⟩

theorem About.suspended_view (h : About userId s) :
    suspended s.view other = suspended s.db other ∨
      other = userId ∧ .core (.user userId) ∈ s.locks := by
  by_cases written : ∃ row, .core (.suspension row) ∈ s.log ∧ row.userId = other
  · obtain ⟨row, member, rfl⟩ := written
    exact Or.inr (h.suspensions row member)
  · refine Or.inl ?_
    unfold suspended
    rw [show s.view = writeAll s.log s.db from rfl, unwritten_suspension fun row member is =>
      written ⟨row, member, is⟩]

theorem About.device_view (h : About userId s) :
    s.view.row .device id = s.db.row .device id ∨ .core (.device id) ∈ s.locks := by
  by_cases written : ∃ row, .core (.device row) ∈ s.log ∧ row.id = id
  · obtain ⟨row, member, rfl⟩ := written
    exact Or.inr (h.devices row member).1
  · refine Or.inl (unwritten_row fun w member row is hit => ?_)
    cases row with
    | device device =>
      have logged := device_row is
      subst logged
      exact written ⟨device, member, (Prod.mk.inj hit).2⟩
    | _ => cases (Prod.mk.inj hit).1

/-- What a commit leaves to the others. -/
theorem About.commit (h : About userId s) {others : List Lock}
    (apart : Modes.Apart others s.locks) : MemberLater others s.db s.view := by
  constructor
  · exact h.keepOwners
  · intro other held
    constructor
    · intro kind id active
      rcases h.active_view active with old | ⟨rfl, locked⟩
      · exact old
      · exact (exclusive_user apart held locked).elim
    · intro id owns
      rcases h.owned_view owns with old | ⟨rfl, locked⟩
      · exact old
      · exact (exclusive_user apart held locked).elim
  · intro other held
    rcases @About.suspended_view userId other s h with same | ⟨rfl, locked⟩
    · exact same
    · exact (exclusive_user apart.symm locked held).elim
  · intro id held
    rcases @About.device_view userId id s h with same | locked
    · exact same
    · have off := (apart _ held _ locked).1
      simp [Conflicts.conflicts, Lock.conflicts] at off

end About

end Artoo.Members
