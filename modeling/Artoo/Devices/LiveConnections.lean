import Artoo.Lib.Automaton
import Mathlib.Data.List.Induction
import Mathlib.Logic.Function.Basic

/-! The live sockets of the devices, and the moments at which a device goes offline. -/
namespace Artoo.Devices.LiveConnections
open Artoo.Lib

inductive Kind where
  | node | control
  deriving DecidableEq

variable {C : Type} [DecidableEq C]

/-- `byDevice`: the sockets of a device, in the order they were added. -/
abbrev Registry (C : Type) := String → Option (List (C × Kind))

inductive Call (C : Type) where
  | add (deviceId : String) (conn : C) (kind : Kind)
  /-- the disposer that `add` returned; it may run late, or twice -/
  | release (deviceId : String) (conn : C)
  | closeForDevice (deviceId : String) (kind : Option Kind)

structure Effect (C : Type) where
  closed : List C := []
  /-- the device that `onDeviceOffline` is called for -/
  offline : Option String := none

/-- `Map.set` -/
def setKind (set : List (C × Kind)) (conn : C) (kind : Kind) : List (C × Kind) :=
  if set.any (·.1 = conn) then set.map fun c => if c.1 = conn then (conn, kind) else c
  else set ++ [(conn, kind)]

/-- A set that is empty is taken out of the map. -/
def nonempty (set : List (C × Kind)) : Option (List (C × Kind)) := if set.isEmpty then none else some set

def ofKind (kind : Option Kind) (c : C × Kind) : Bool := kind.all (· = c.2)

def step (byDevice : Registry C) : Call C → Registry C × Effect C
  | .add deviceId conn kind =>
    (Function.update byDevice deviceId
      (some (setKind ((byDevice deviceId).getD []) conn kind)), {})
  | .release deviceId conn =>
    match byDevice deviceId with
    | none => (byDevice, {})
    | some set =>
      let current := set.filter (·.1 ≠ conn)
      (Function.update byDevice deviceId (nonempty current),
        { offline := if current.isEmpty then some deviceId else none })
  | .closeForDevice deviceId kind =>
    match byDevice deviceId with
    | none => (byDevice, {})
    | some set =>
      let conns := set.filter (ofKind kind)
      let rest := set.filter (!ofKind kind ·)
      (Function.update byDevice deviceId (nonempty rest),
        { closed := conns.map Prod.fst
          offline := if kind.isSome && !conns.isEmpty && rest.isEmpty then some deviceId else none })

def automaton : Automaton (Registry C) (Call C) (Effect C) where
  step := step

def countForDevice (byDevice : Registry C) (deviceId : String) : ℕ :=
  ((byDevice deviceId).map List.length).getD 0

@[simp] theorem automaton_step :
    (automaton : Automaton (Registry C) (Call C) (Effect C)).step = step := rfl

/-! ## Online and offline -/

def online (byDevice : Registry C) (deviceId : String) : Bool :=
  0 < countForDevice byDevice deviceId

/-- The calls of a run at which a device comes online. -/
def risesIn (deviceId : String) : Registry C → List (Call C) → ℕ
  | _, [] => 0
  | byDevice, call :: calls =>
    (!online byDevice deviceId && online (step byDevice call).1 deviceId).toNat +
      risesIn deviceId (step byDevice call).1 calls

def Call.revokes (deviceId : String) : Call C → Bool
  | .closeForDevice other none => other == deviceId
  | _ => false

/-- The calls of a run that close all sockets of a device that has some. -/
def revokedIn (deviceId : String) : Registry C → List (Call C) → ℕ
  | _, [] => 0
  | byDevice, call :: calls =>
    (call.revokes deviceId && online byDevice deviceId).toNat +
      revokedIn deviceId (step byDevice call).1 calls

def offlineIn (deviceId : String) (effects : List (Effect C)) : ℕ :=
  effects.countP (·.offline == some deviceId)

/-- No device has an empty set. -/
def Tight (byDevice : Registry C) : Prop := ∀ deviceId, byDevice deviceId ≠ some []

variable {byDevice : Registry C} {deviceId other : String} {set : List (C × Kind)} {call : Call C}

theorem setKind_ne_nil (set : List (C × Kind)) (conn : C) (kind : Kind) :
    setKind set conn kind ≠ [] := by
  unfold setKind
  split
  · rename_i known
    obtain ⟨c, member, -⟩ := List.any_eq_true.mp known
    intro empty
    rw [List.map_eq_nil_iff] at empty
    rw [empty] at member
    cases member
  · simp

omit [DecidableEq C] in
theorem nonempty_ne : nonempty set ≠ some [] := by
  unfold nonempty
  cases set <;> simp

omit [DecidableEq C] in
theorem Tight.update (tight : Tight byDevice) {entry : Option (List (C × Kind))}
    (ne : entry ≠ some []) (deviceId : String) : Tight (Function.update byDevice deviceId entry) := by
  intro other
  by_cases same : other = deviceId
  · rw [same, Function.update_self]
    exact ne
  · rw [Function.update_of_ne same]
    exact tight other

theorem Tight.step (tight : Tight byDevice) (call : Call C) :
    Tight (LiveConnections.step byDevice call).1 := by
  cases call with
  | add deviceId conn kind => exact tight.update (by simp [setKind_ne_nil]) deviceId
  | release deviceId conn =>
    rw [LiveConnections.step]
    cases byDevice deviceId with
    | none => exact tight
    | some set => exact tight.update nonempty_ne deviceId
  | closeForDevice deviceId kind =>
    rw [LiveConnections.step]
    cases byDevice deviceId with
    | none => exact tight
    | some set => exact tight.update nonempty_ne deviceId

omit [DecidableEq C] in
theorem online_eq (tight : Tight byDevice) (deviceId : String) :
    online byDevice deviceId = (byDevice deviceId).isSome := by
  unfold online countForDevice
  cases held : byDevice deviceId with
  | none => simp
  | some set =>
    cases set with
    | nil => exact absurd held (tight deviceId)
    | cons c set => simp

/-- One call: it brings the device online, tells that it is offline, is a revocation, or none of
these changes anything. -/
theorem step_balance (tight : Tight byDevice) (call : Call C) (deviceId : String) :
    (online byDevice deviceId).toNat +
        (!online byDevice deviceId && online (step byDevice call).1 deviceId).toNat =
      (online (step byDevice call).1 deviceId).toNat +
        ((step byDevice call).2.offline == some deviceId).toNat +
        (call.revokes deviceId && online byDevice deviceId).toNat := by
  rw [online_eq tight, online_eq (tight.step call)]
  have beq_other : ∀ other, ¬deviceId = other → (other == deviceId) = false :=
    fun other ne => beq_eq_false_iff_ne.mpr (Ne.symm ne)
  cases call with
  | add other conn kind =>
    by_cases same : deviceId = other
    · subst same
      cases byDevice deviceId <;> simp [step, Call.revokes]
    · simp [step, Call.revokes, Function.update_of_ne same]
  | release other conn =>
    rw [step]
    cases held : byDevice other with
    | none => simp [Call.revokes]
    | some set =>
      by_cases same : deviceId = other
      · subst same
        rw [held]
        dsimp only
        generalize set.filter _ = current
        cases current <;> simp [nonempty, Call.revokes]
      · dsimp only
        generalize set.filter _ = current
        rw [Function.update_of_ne same]
        cases current <;> cases byDevice deviceId <;> simp [Call.revokes, beq_other other same]
  | closeForDevice other kind =>
    rw [step]
    cases held : byDevice other with
    | none =>
      by_cases same : deviceId = other
      · subst same
        simp [held]
      · cases kind <;> simp [Call.revokes, beq_other other same]
    | some set =>
      by_cases same : deviceId = other
      · subst same
        have some_left : set ≠ [] := fun is => tight deviceId (is ▸ held)
        rw [held]
        cases kind with
        | none =>
          have all : set.filter (!ofKind none ·) = [] := by simp [ofKind]
          simp [all, nonempty, Call.revokes]
        | some kind =>
          -- a set that nothing is left of had something to close
          have conns : set.filter (ofKind (some kind)) = [] →
              set.filter (!ofKind (some kind) ·) ≠ [] := by
            intro closed left
            rw [List.filter_eq_nil_iff] at closed left
            cases set with
            | nil => exact some_left rfl
            | cons c rest =>
              have kept := left c (by simp)
              simp [closed c (by simp)] at kept
          dsimp only
          generalize set.filter (ofKind (some kind)) = closed at conns
          generalize set.filter (!ofKind (some kind) ·) = left at conns
          cases left with
          | nil =>
            cases closed with
            | nil => exact absurd rfl (conns rfl)
            | cons c rest => simp [nonempty, Call.revokes]
          | cons c rest => simp [nonempty, Call.revokes]
      · dsimp only
        rw [Function.update_of_ne same]
        have silent : ∀ b : Bool, ((if b then some other else none) == some deviceId) = false := by
          intro b
          cases b <;> simp [beq_other other same]
        rw [silent]
        cases kind <;> cases byDevice deviceId <;> simp [Call.revokes, beq_other other same]

theorem toNat_ite (b : Bool) : (if b = true then 1 else 0) = b.toNat := by
  cases b <;> rfl

theorem run_balance (tight : Tight byDevice) (calls : List (Call C)) (deviceId : String) :
    (online byDevice deviceId).toNat + risesIn deviceId byDevice calls =
      (online (automaton.final byDevice calls) deviceId).toNat +
        offlineIn deviceId (automaton.answers byDevice calls) + revokedIn deviceId byDevice calls := by
  induction calls generalizing byDevice with
  | nil =>
    simp [risesIn, revokedIn, offlineIn]
  | cons call calls ih =>
    have here := step_balance tight call deviceId
    have rest := ih (tight.step call)
    unfold offlineIn at rest ⊢
    simp only [risesIn, revokedIn, Automaton.final_cons, Automaton.answers_cons, List.countP_cons,
      automaton_step, toNat_ite]
    omega

/-- Each time a device is online ends with one call of `onDeviceOffline`, or with the revocation of
the device, and lasts otherwise: a disposer that runs late or twice is no second end of it. -/
theorem offline_once (calls : List (Call C)) (deviceId : String) :
    risesIn deviceId (fun _ => none) calls =
      offlineIn deviceId (automaton.answers (fun _ => none) calls) +
        revokedIn deviceId (fun _ => none) calls +
        (online (automaton.final (fun _ => none) calls) deviceId).toNat := by
  have balance := run_balance (show Tight (fun _ => none : Registry C) by simp [Tight]) calls deviceId
  have start : online (fun _ => none : Registry C) deviceId = false := rfl
  simp only [start, Bool.toNat_false, Nat.zero_add] at balance
  omega

end Artoo.Devices.LiveConnections
