import Artoo.Members.Access

/-! Transactions that give a member access, and the suspension that takes it away. -/
namespace Artoo.Members
open Artoo.Lib Tx

/-! ## Transactions that give access -/

/-- A transaction that may give the member access: under a lock of the member's row, and the
member is not suspended. -/
structure Entering (userId : String) (s : Standing) : Prop where
  about : About userId s
  locked : LocksUser userId s.locks
  active : suspended s.db userId = false
  none_ : ∀ row, .core (.suspension row) ∉ s.log

section Entering

variable {userId : String} {s : Standing} {st : Store}

theorem Entering.later (h : Entering userId s) (step : MemberLater s.locks s.db st) :
    Entering userId (s.at_ st) :=
  ⟨h.about.later step, h.locked, (step.suspended userId h.locked).trans h.active, h.none_⟩

theorem Row.For.append {log more : List Write} {row : Row} (h : row.For userId log) :
    row.For userId (log ++ more) := by
  cases row with
  | token row =>
    obtain ⟨device, logged, same⟩ := h
    exact ⟨device, List.mem_append_left _ logged, same⟩
  | _ => exact h

theorem LocksUser.append {locks more : List Lock} (h : LocksUser userId locks) :
    LocksUser userId (locks ++ more) :=
  h.imp (List.mem_append_left _) (List.mem_append_left _)

/-- More writes. -/
theorem Entering.after (h : Entering userId s) {new : List Write} {more : List Lock}
    (own : ∀ w ∈ new, ∀ row, w.row = some row → row.Fresh → row.For userId (s.log ++ new))
    (device : ∀ row, .core (.device row) ∈ new → .core (.device row.id) ∈ more ∧
      ∀ other, OwnsDevice s.db other row.id → other = userId)
    (none_ : ∀ row, .core (.suspension row) ∉ new) :
    Entering userId ⟨s.db, s.locks ++ more, s.log ++ new⟩ := by
  refine ⟨⟨?_, ?_, ?_⟩, h.locked.append, h.active, ?_⟩
  · intro w member row is fresh
    rcases List.mem_append.mp member with old | wrote
    · exact ⟨(h.about.rows w old row is fresh).1.append, h.locked.append⟩
    · exact ⟨own w wrote row is fresh, h.locked.append⟩
  · intro row member
    rcases List.mem_append.mp member with old | wrote
    · obtain ⟨locked, owner⟩ := h.about.devices row old
      exact ⟨List.mem_append_left _ locked, owner⟩
    · obtain ⟨locked, owner⟩ := device row wrote
      exact ⟨List.mem_append_right _ locked, owner⟩
  · intro row member
    rcases List.mem_append.mp member with old | wrote
    · exact (h.none_ row old).elim
    · exact (none_ row wrote).elim
  · intro row member
    rcases List.mem_append.mp member with old | wrote
    · exact h.none_ row old
    · exact none_ row wrote

/-- The member is not suspended at its end either. -/
theorem Entering.active_view (h : Entering userId s) : suspended s.view userId = false := by
  have same : s.view.core.suspensions.get? userId = s.db.core.suspensions.get? userId :=
    unwritten_suspension fun row member => (h.none_ row member).elim
  unfold suspended
  rw [same]
  exact h.active

theorem entering_start (log : s.log = []) (locked : LocksUser userId s.locks)
    (active : suspended s.db userId = false) : Entering userId s := by
  refine ⟨⟨?_, ?_, ?_⟩, locked, active, ?_⟩
  all_goals simp [log]

end Entering

/-! ## Transactions that take access -/

/-- A row that a sweep may leave: one that gives no access, as it is revoked. -/
def Row.Swept (userId : String) (ids : List String) (locks : List Lock) (row : Row) : Prop :=
  row.Fresh → ∃ device, row = .device device ∧ device.trust = .revoked ∧
    device.enrolledByUserId = userId ∧ device.id ∈ ids ∧ .core (.device device.id) ∈ locks

/-- A suspension that has swept some tables, with the devices it found. -/
structure Sweeping (userId : String) (ids : List String) (kinds : List Kind) (s : Standing) :
    Prop where
  locked : .core (.user userId) ∈ s.locks
  owned : ∀ id, OwnsDevice s.db userId id ↔ id ∈ ids
  rows : ∀ w ∈ s.log, ∀ row, w.row = some row → row.item.1 ∈ kinds ∧ row.Swept userId ids s.locks
  swept : ∀ kind ∈ kinds, ∀ id, Active s.db userId kind id →
    ∃ w ∈ s.log, ∃ row, w.row = some row ∧ row.item = (kind, id)
  suspensions : ∀ row, .core (.suspension row) ∈ s.log → row.userId = userId

theorem owner_unique {st : Store} {a b id : String} (left : OwnsDevice st a id)
    (right : OwnsDevice st b id) : a = b := by
  obtain ⟨row, there, rfl⟩ := left
  obtain ⟨row', there', rfl⟩ := right
  rw [there] at there'
  cases there'
  rfl

section Sweeping

variable {userId : String} {ids : List String} {kinds : List Kind} {s : Standing} {st : Store}

theorem Sweeping.later (h : Sweeping userId ids kinds s) (step : MemberLater s.locks s.db st) :
    Sweeping userId ids kinds (s.at_ st) := by
  have unchanged := step.none_ userId h.locked
  refine ⟨h.locked, fun id => ?_, h.rows, fun kind member id active => ?_, h.suspensions⟩
  · constructor
    · exact fun owns => (h.owned id).mp (unchanged.owned id owns)
    · exact fun member => step.owners userId id ((h.owned id).mpr member)
  · exact h.swept kind member id (unchanged.active kind id active)

/-- What is not swept yet is as it was. -/
theorem Sweeping.row_view (h : Sweeping userId ids kinds s) {kind : Kind} (left : kind ∉ kinds)
    (id : String) : s.view.row kind id = s.db.row kind id :=
  unwritten_row fun w member row is hit => by
    have swept := (h.rows w member row is).1
    rw [hit] at swept
    exact left swept

theorem Row.Swept.append {locks more : List Lock} {row : Row} (h : row.Swept userId ids locks) :
    row.Swept userId ids (locks ++ more) := by
  intro fresh
  obtain ⟨device, is, revoked, mine, found, held⟩ := h fresh
  exact ⟨device, is, revoked, mine, found, List.mem_append_left _ held⟩

/-- One table more. -/
theorem Sweeping.sweep (h : Sweeping userId ids kinds s) {α : Type} {found : List α}
    {set : α → Write} (kind : Kind)
    (covers : ∀ id, Active s.db userId kind id →
      ∃ a ∈ found, ∃ row, (set a).row = some row ∧ row.item = (kind, id))
    (rows : ∀ a ∈ found, ∃ row, (set a).row = some row ∧ row.item.1 = kind ∧
      row.Swept userId ids (Tables.guards Store (set a))) :
    Sweeping userId ids (kind :: kinds)
      ⟨s.db, s.locks ++ (found.map set).flatMap (Tables.guards Store), s.log ++ found.map set⟩ := by
  constructor
  · exact List.mem_append_left _ h.locked
  · exact h.owned
  · intro w member row is
    rcases List.mem_append.mp member with old | new
    · exact ⟨List.mem_cons_of_mem _ (h.rows w old row is).1, (h.rows w old row is).2.append⟩
    · obtain ⟨a, there, rfl⟩ := List.mem_map.mp new
      obtain ⟨row', is', kind', swept⟩ := rows a there
      rw [is] at is'
      cases is'
      refine ⟨kind' ▸ List.mem_cons_self, fun fresh => ?_⟩
      obtain ⟨device, same, revoked, mine, found, held⟩ := swept fresh
      exact ⟨device, same, revoked, mine, found,
        List.mem_append_right _ (List.mem_flatMap.mpr ⟨_, new, held⟩)⟩
  · intro other member id active
    rcases List.mem_cons.mp member with rfl | earlier
    · obtain ⟨a, there, row, is, item⟩ := covers id active
      exact ⟨set a, List.mem_append_right _ (List.mem_map_of_mem there), row, is, item⟩
    · obtain ⟨w, logged, rest⟩ := h.swept other earlier id active
      exact ⟨w, List.mem_append_left _ logged, rest⟩
  · intro row member
    rcases List.mem_append.mp member with old | new
    · exact h.suspensions row old
    · obtain ⟨a, there, is⟩ := List.mem_map.mp new
      obtain ⟨row', is', _⟩ := rows a there
      rw [is] at is'
      cases is'

theorem Sweeping.about (h : Sweeping userId ids kinds s) : About userId s := by
  constructor
  · intro w member row is fresh
    obtain ⟨device, rfl, _, mine, _⟩ := (h.rows w member row is).2 fresh
    exact ⟨mine, Or.inr h.locked⟩
  · intro row member
    obtain ⟨device, is, _, _, found, held⟩ := (h.rows _ member (.device row) rfl).2 trivial
    cases is
    exact ⟨held, fun other owns => owner_unique owns ((h.owned row.id).mpr found)⟩
  · exact fun row member => ⟨h.suspensions row member, h.locked⟩

/-- Once all tables are swept, the member has no access left. -/
theorem Sweeping.clean (h : Sweeping userId ids kinds s) (all : ∀ kind, kind ∈ kinds) :
    Clean s.view userId := by
  rintro kind id ⟨row, there, gives⟩
  rcases found_row there with ⟨w, member, wrote⟩ | ⟨old, off⟩
  · obtain ⟨device, rfl, revoked, _⟩ := (h.rows w member row wrote).2 gives.fresh
    exact nomatch revoked.symm.trans gives.2
  · have active : Active s.db userId kind id := by
      refine ⟨row, old, ?_⟩
      cases row with
      | token row =>
        obtain ⟨status, device, seen, mine⟩ := gives
        refine ⟨status, ?_⟩
        rcases found_row seen with ⟨w, member, wrote⟩ | ⟨before, _⟩
        · obtain ⟨_, is, _, _, found, _⟩ := (h.rows w member _ wrote).2 trivial
          cases is
          have key := (Prod.mk.inj (row_item seen)).2
          exact (h.owned row.deviceId).mpr (key ▸ found)
        · exact ⟨device, before, mine⟩
      | session row => exact gives
      | device row => exact gives
      | code row => exact gives
      | consent row => exact gives
    obtain ⟨w, member, row', is, item⟩ := h.swept kind (all kind) id active
    exact off w member row' is item

end Sweeping

end Artoo.Members
