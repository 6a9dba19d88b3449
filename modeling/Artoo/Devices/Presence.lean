import Artoo.Devices.Types
import Mathlib.Data.List.Chain

/-! Device presence: the events of a device against what a read of it shows. -/
namespace Artoo.Devices

inductive DevicePresenceState where
  | online | stale | offline
  deriving DecidableEq, Repr

structure PresenceWindows where
  onlineWithinMs : Int
  staleWithinMs : Int

structure PresenceConfig where
  windows : PresenceWindows
  /-- between two writes of `last_seen_at` -/
  throttleMs : Int

def defaultDevicePresenceConfig : PresenceConfig where
  windows := { onlineWithinMs := 90000, staleWithinMs := 300000 }
  throttleMs := 15000

def derivePresenceState (lastSeenAt : Option Int) (now : Int) (windows : PresenceWindows) :
    DevicePresenceState :=
  match lastSeenAt with
  | none => .offline
  | some lastSeen =>
    if now - lastSeen ≤ windows.onlineWithinMs then .online
    else if now - lastSeen ≤ windows.staleWithinMs then .stale
    else .offline

/-- A `device.presence_changed` event. -/
structure PresenceEvent where
  before : DevicePresenceState
  after : DevicePresenceState
  deriving DecidableEq, Repr

/-- The columns of a device that its presence depends on, its live sockets and its events, the last
one first. -/
structure Presence where
  lastSeenAt : Option Int := none
  trust : DeviceTrust := .active
  connections : Nat := 0
  events : List PresenceEvent := []
  deriving DecidableEq, Repr

namespace Presence

def seen (s : Presence) (now : Int) : DevicePresenceState :=
  derivePresenceState s.lastSeenAt now defaultDevicePresenceConfig.windows

def emit (s : Presence) (before after : DevicePresenceState) : Presence :=
  { s with events := ⟨before, after⟩ :: s.events }

/-- Seen so recently that the activity is not recorded. -/
def throttled (s : Presence) (now : Int) : Bool :=
  s.lastSeenAt.any fun lastSeen => now - lastSeen < defaultDevicePresenceConfig.throttleMs

def recordDeviceActivity (s : Presence) (now : Int) : Presence :=
  if s.trust ≠ .active then s
  else if s.seen now = .online then
    if s.throttled now then s else { s with lastSeenAt := now }
  else { s with lastSeenAt := now }.emit (s.seen now) .online

def markDeviceOffline (s : Presence) (now : Int) : Presence :=
  if s.seen now = .offline then s else s.emit (s.seen now) .offline

/-- The read, with the live sockets of the registry. -/
def devicePresence (s : Presence) (now : Int) : DevicePresenceState :=
  if s.trust ≠ .active ∨ s.connections = 0 then .offline else s.seen now

end Presence

inductive PresenceOp where
  /-- a socket of the device is accepted -/
  | connect
  /-- authenticated activity, such as a heartbeat -/
  | activity
  /-- a socket closes -/
  | disconnect
  | revoke
  /-- the revocation of the devices of a suspended member -/
  | suspend
  deriving DecidableEq, Repr

namespace Presence

/-- A device that is not trusted is not authenticated. -/
def accept (s : Presence) (now : Int) : Presence :=
  if s.trust ≠ .active then s
  else { s with connections := s.connections + 1 }.recordDeviceActivity now

/-- A socket closes; with the last one the device goes offline. -/
def release (s : Presence) (now : Int) : Presence :=
  match s.connections with
  | 0 => s
  | 1 => { s with connections := 0 }.markDeviceOffline now
  | n + 2 => { s with connections := n + 1 }

def closeForDevice (s : Presence) : Presence := { s with connections := 0 }

/-- The revocation closes the sockets, and is an offline edge where there was one. -/
def revoke (s : Presence) (now : Int) : Presence :=
  if s.trust = .active ∧ s.connections ≠ 0 then
    ({ s with trust := .revoked }.closeForDevice).markDeviceOffline now
  else { s with trust := .revoked }.closeForDevice

def suspend (s : Presence) : Presence := { s with trust := .revoked }.closeForDevice

def step (s : Presence) (now : Int) : PresenceOp → Presence
  | .connect => s.accept now
  | .activity => s.recordDeviceActivity now
  | .disconnect => s.release now
  | .revoke => s.revoke now
  | .suspend => s.suspend

def lastTo (s : Presence) : Option DevicePresenceState := s.events.head?.map (·.after)

/-- No event counts as offline. -/
def saysOnline (s : Presence) : Prop := s.lastTo = some .online

/-- What the events say is what a read shows, and no event repeats the one before. -/
structure Agrees (s : Presence) (now : Int) : Prop where
  read : s.saysOnline ↔ s.devicePresence now ≠ .offline
  distinct : s.events.IsChain fun e f => e.after ≠ f.after

/-- When a step keeps the agreement. -/
def Meets (s : Presence) (now : Int) : PresenceOp → Prop
  | .connect => s.trust = .active → (s.seen now = .online ↔ s.saysOnline)
  | .activity => s.trust = .active →
      if s.connections = 0 then s.seen now = .online else (s.seen now = .online ↔ s.saysOnline)
  | .disconnect => s.connections ≠ 0 → s.trust = .active ∨ s.connections = 1 →
      (s.seen now ≠ .offline ↔ s.saysOnline)
  | .revoke => s.trust = .active → s.connections ≠ 0 → (s.seen now ≠ .offline ↔ s.saysOnline)
  | .suspend => ¬ s.saysOnline

/-! ## One step -/

/-- Events lead online or offline, and activity is recorded with the first. -/
structure Sound (s : Presence) : Prop where
  two : ∀ e ∈ s.events, e.after = .online ∨ e.after = .offline
  fresh : s.events = [] → s.lastSeenAt = none

variable {s s' : Presence} {now earlier : Int} {before after : DevicePresenceState}

theorem seen_record {t : Presence} (is : t.lastSeenAt = some now) : t.seen now = .online := by
  unfold seen derivePresenceState
  simp [is, defaultDevicePresenceConfig]

theorem seen_none (none_ : s.lastSeenAt = none) : s.seen now = .offline := by
  unfold seen derivePresenceState
  rw [none_]

theorem read_iff : s.devicePresence now ≠ .offline ↔
    s.trust = .active ∧ s.connections ≠ 0 ∧ s.seen now ≠ .offline := by
  unfold devicePresence
  split
  · rename_i off
    simp only [ne_eq, not_true_eq_false, false_iff, not_and]
    intro active live
    rcases off with h | h
    · exact absurd active h
    · exact absurd h live
  · rename_i on
    rw [not_or, not_not] at on
    simp [on.1, on.2]

/-- A step without an event. -/
theorem agrees_quiet (h : s.Agrees earlier) (same : s'.events = s.events) :
    s'.Agrees now ↔ (s.saysOnline ↔ s'.devicePresence now ≠ .offline) := by
  have online : s'.saysOnline ↔ s.saysOnline := by
    unfold saysOnline lastTo
    rw [same]
  constructor
  · intro agrees
    exact online.symm.trans agrees.read
  · intro read
    exact ⟨online.trans read, same ▸ h.distinct⟩

/-- A step with an event. -/
theorem agrees_loud (h : s.Agrees earlier) (sound : s.Sound)
    (same : s'.events = ⟨before, after⟩ :: s.events) (ends : after = .online ∨ after = .offline)
    (started : after = .offline → s.events ≠ []) :
    s'.Agrees now ↔ (after = .online ↔ s'.devicePresence now ≠ .offline) ∧
      (after = .online ↔ ¬ s.saysOnline) := by
  have online : s'.saysOnline ↔ after = .online := by
    unfold saysOnline lastTo
    rw [same]
    simp
  have distinct : (s'.events.IsChain fun e f => e.after ≠ f.after) ↔
      (after = .online ↔ ¬ s.saysOnline) := by
    rw [same]
    cases old : s.events with
    | nil =>
      have flat : ¬ s.saysOnline := by
        unfold saysOnline lastTo
        rw [old]
        exact nofun
      rcases ends with is | is
      · simp [is, flat]
      · exact absurd old (started is)
    | cons e rest =>
      have last : s.saysOnline ↔ e.after = .online := by
        unfold saysOnline lastTo
        rw [old]
        simp
      have chain := old ▸ h.distinct
      rw [List.isChain_cons_cons, last]
      rcases ends with is | is <;> rcases sound.two e (old ▸ List.mem_cons_self) with is' | is' <;>
        simp [is, is', chain]
  constructor
  · rintro ⟨read, apart⟩
    exact ⟨online.symm.trans read, distinct.mp apart⟩
  · rintro ⟨read, apart⟩
    exact ⟨online.trans read, distinct.mpr apart⟩

/-- What shows as online or stale has been recorded, with an event. -/
theorem Sound.started (sound : s.Sound) (seen : s.seen now ≠ .offline) : s.events ≠ [] :=
  fun none_ => seen (seen_none (sound.fresh none_))

theorem agrees_online (h : s.Agrees earlier) (events : s'.events = s.events)
    (active : s'.trust = .active) (online : s'.seen now = .online) :
    s'.Agrees now ↔ (s.saysOnline ↔ s'.connections ≠ 0) := by
  rw [agrees_quiet h events, read_iff, online]
  simp [active]

/-- Recorded activity, with the number of live sockets then. -/
theorem agrees_record (h : s.Agrees earlier) (sound : s.Sound) (active : s.trust = .active)
    {n : Nat} : ({ s with connections := n }.recordDeviceActivity now).Agrees now ↔
      if s.seen now = .online then (s.saysOnline ↔ n ≠ 0) else n ≠ 0 ∧ ¬ s.saysOnline := by
  unfold recordDeviceActivity
  rw [if_neg (by simpa using active)]
  change (if s.seen now = .online then _ else _ : Presence).Agrees now ↔ _
  split
  · rename_i seen
    split
    · exact agrees_online h rfl active seen
    · exact agrees_online h rfl active (seen_record rfl)
  · refine (agrees_loud h sound rfl (Or.inl rfl) nofun).trans ?_
    simp [read_iff, seen_record, active, emit]

/-- The offline edge, with no live socket any more. -/
theorem agrees_mark (h : s.Agrees earlier) (sound : s.Sound) {trust : DeviceTrust} :
    ({ s with trust, connections := 0 }.markDeviceOffline now).Agrees now ↔
      (s.seen now ≠ .offline ↔ s.saysOnline) := by
  unfold markDeviceOffline
  change (if s.seen now = .offline then _ else _ : Presence).Agrees now ↔ _
  split
  · rename_i seen
    refine (agrees_quiet h ?_).trans ?_
    · rfl
    · simp [read_iff, seen]
  · rename_i seen
    refine (agrees_loud h sound rfl (Or.inr rfl) fun _ => sound.started seen).trans ?_
    simp [read_iff, seen, emit]

/-- What no socket keeps, or trust does not, shows as offline. -/
theorem agrees_off (h : s.Agrees earlier) (events : s'.events = s.events)
    (off : s'.trust ≠ .active ∨ s'.connections = 0) : s'.Agrees now ↔ ¬ s.saysOnline := by
  rw [agrees_quiet h events, read_iff]
  rcases off with h | h <;> simp [h]

theorem Agrees.off (h : s.Agrees earlier) (off : s.trust ≠ .active ∨ s.connections = 0) :
    ¬ s.saysOnline := by
  rw [h.read, read_iff]
  rcases off with h | h <;> simp [h]

/-- A step keeps the agreement exactly when it meets its condition. -/
theorem step_agrees (h : s.Agrees earlier) (sound : s.Sound) {op : PresenceOp} :
    (s.step now op).Agrees now ↔ s.Meets now op := by
  cases op with
  | connect =>
    change (s.accept now).Agrees now ↔ (s.trust = .active → _)
    unfold accept
    split
    · rename_i off
      rw [agrees_off h rfl (Or.inl off)]
      simp [off, h.off (Or.inl off)]
    · rename_i active
      rw [not_not] at active
      rw [agrees_record h sound active]
      by_cases seen : s.seen now = .online <;> simp [seen, active]
  | activity =>
    change (s.recordDeviceActivity now).Agrees now ↔ (s.trust = .active → _)
    by_cases active : s.trust = .active
    · refine (agrees_record h sound active).trans ?_
      by_cases live : s.connections = 0
      · have flat := h.off (Or.inr live)
        by_cases seen : s.seen now = .online <;> simp [seen, active, live, flat]
      · by_cases seen : s.seen now = .online <;> simp [seen, active, live]
    · have flat := h.off (Or.inl active)
      unfold recordDeviceActivity
      rw [if_pos active, agrees_off h rfl (Or.inl active)]
      simp [active, flat]
  | disconnect =>
    change (s.release now).Agrees now ↔ (s.connections ≠ 0 → _)
    unfold release
    split
    · rename_i live
      rw [agrees_off h rfl (Or.inr live)]
      simp [live, h.off (Or.inr live)]
    · rename_i live
      refine (agrees_mark h sound).trans ?_
      simp [live]
    · rename_i n live
      refine (agrees_quiet h ?_).trans ?_
      · rfl
      · rw [read_iff]
        by_cases active : s.trust = .active
        · simp only [active, live]
          change (s.saysOnline ↔ True ∧ n + 1 ≠ 0 ∧ s.seen now ≠ .offline) ↔ _
          simp [eq_comm, iff_comm]
        · simp [active, live, h.off (Or.inl active)]
  | revoke =>
    change (s.revoke now).Agrees now ↔ (s.trust = .active → s.connections ≠ 0 → _)
    unfold revoke
    split
    · rename_i both
      refine (agrees_mark h sound).trans ?_
      simp [both]
    · rename_i off
      refine (agrees_off h ?_ (Or.inr ?_)).trans ?_
      · rfl
      · rfl
      · rw [not_and_or, not_not] at off
        simp only [h.off off, not_false_eq_true, true_iff]
        intro active live
        rcases off with no | no
        · exact absurd active no
        · exact absurd no live
  | suspend =>
    refine (agrees_off h ?_ (Or.inr ?_)).trans ?_
    · rfl
    · rfl
    · rfl

/-! ## Every run -/

theorem sound_record (h : s.Sound) (events : s'.events = s.events)
    (last : s'.lastSeenAt = s.lastSeenAt) : (s'.recordDeviceActivity now).Sound := by
  have kept : s'.Sound := ⟨events ▸ h.two, fun none_ => last.trans (h.fresh (events ▸ none_))⟩
  unfold recordDeviceActivity
  split
  · exact kept
  · split
    · rename_i seen
      split
      · exact kept
      · refine ⟨kept.two, fun none_ => ?_⟩
        rw [seen_none (kept.fresh none_)] at seen
        cases seen
    · refine ⟨fun e there => ?_, nofun⟩
      rcases List.mem_cons.mp there with rfl | old
      · exact Or.inl rfl
      · exact kept.two e old

theorem sound_mark (h : s.Sound) (events : s'.events = s.events)
    (last : s'.lastSeenAt = s.lastSeenAt) : (s'.markDeviceOffline now).Sound := by
  unfold markDeviceOffline
  split
  · exact ⟨events ▸ h.two, fun none_ => last.trans (h.fresh (events ▸ none_))⟩
  · refine ⟨fun e there => ?_, nofun⟩
    rcases List.mem_cons.mp there with rfl | old
    · exact Or.inr rfl
    · exact h.two e (events ▸ old)

theorem Sound.step (h : s.Sound) (op : PresenceOp) : (s.step now op).Sound := by
  have same : ∀ {t : Presence}, t.events = s.events → t.lastSeenAt = s.lastSeenAt → t.Sound :=
    fun events last => ⟨events ▸ h.two, fun none_ => last.trans (h.fresh (events ▸ none_))⟩
  cases op with
  | connect =>
    change (s.accept now).Sound
    unfold accept
    split
    · exact h
    · exact sound_record h rfl rfl
  | activity => exact sound_record h rfl rfl
  | disconnect =>
    change (s.release now).Sound
    unfold release
    split
    · exact h
    · exact sound_mark h rfl rfl
    · exact same rfl rfl
  | revoke =>
    change (s.revoke now).Sound
    unfold revoke
    split
    · exact sound_mark h rfl rfl
    · exact same rfl rfl
  | suspend => exact same rfl rfl

/-- After every operation of the run the events agree with a read at its time. -/
def AlwaysAgrees (s : Presence) : List (Int × PresenceOp) → Prop
  | [] => True
  | (now, op) :: ops => (s.step now op).Agrees now ∧ (s.step now op).AlwaysAgrees ops

/-- Every operation of the run meets its condition. -/
def AlwaysMeets (s : Presence) : List (Int × PresenceOp) → Prop
  | [] => True
  | (now, op) :: ops => s.Meets now op ∧ (s.step now op).AlwaysMeets ops

theorem always_agrees_iff (h : s.Agrees earlier) (sound : s.Sound)
    {ops : List (Int × PresenceOp)} : s.AlwaysAgrees ops ↔ s.AlwaysMeets ops := by
  induction ops generalizing s earlier with
  | nil => exact Iff.rfl
  | cons l ops ih =>
    obtain ⟨now, op⟩ := l
    change (s.step now op).Agrees now ∧ _ ↔ s.Meets now op ∧ _
    rw [← step_agrees h sound]
    exact and_congr_right fun next => ih next (sound.step op)

end Presence

/-- From the pairing of a device on, its events agree with the reads after every operation exactly
when every operation meets its condition. -/
theorem presence_agrees (ops : List (Int × PresenceOp)) :
    Presence.AlwaysAgrees {} ops ↔ Presence.AlwaysMeets {} ops := by
  have start : Presence.Agrees {} 0 := ⟨⟨nofun, fun on => absurd rfl on⟩, List.IsChain.nil⟩
  have sound : Presence.Sound {} := ⟨nofun, fun _ => rfl⟩
  exact Presence.always_agrees_iff start sound

namespace Sample

def reconnected : Presence :=
  ((({ : Presence}.step 0 .connect).step 1000 .disconnect).step 2000 .connect)

end Sample
open Sample

/-- A reconnection within the online window emits no event, and the disconnection after it repeats
one. -/
theorem reconnect_disagrees :
    ¬ Presence.AlwaysAgrees {} [(0, .connect), (1000, .disconnect), (2000, .connect)] ∧
      reconnected.devicePresence 2000 = .online ∧ reconnected.lastTo = some .offline ∧
      (reconnected.step 3000 .disconnect).events.map (·.after) = [.offline, .offline, .online] := by
  have shown : reconnected.devicePresence 2000 = .online := by decide
  have last : reconnected.lastTo = some .offline := by decide
  refine ⟨fun agrees => ?_, shown, last, by decide⟩
  have read : reconnected.saysOnline ↔ reconnected.devicePresence 2000 ≠ .offline := agrees.2.2.1.read
  have online : reconnected.saysOnline := read.mpr (by rw [shown]; exact nofun)
  unfold Presence.saysOnline at online
  rw [last] at online
  cases online

end Artoo.Devices
