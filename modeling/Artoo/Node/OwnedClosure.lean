import Mathlib.Data.Int.Notation
import Mathlib.Data.List.Basic

/-! Owned runs: what was observed of a child and of its guardian, and what is a closure of both. -/
namespace Artoo.Node.OwnedClosure

abbrev Text := List Char

structure OwnedPhysicalFacts where
  childPid : Option ℕ
  childSpawned : Bool
  childExitObserved : Bool
  childStdioClosed : Bool
  groupAbsent : Bool
  guardianPid : Option ℕ
  guardianAttempted : Bool
  guardianSpawned : Bool
  guardianExitObserved : Bool
  guardianStdioClosed : Bool
  guardianGroupAbsent : Bool
  deriving DecidableEq

/-- The variables of a start. A guardian that was not attempted has no pid. -/
structure Observed where
  childPid : Option ℕ
  spawned : Bool := false
  childExitObserved : Bool := false
  childStdioClosed : Bool := false
  childSpawnFailed : Bool := false
  groupAbsent : Bool := false
  guardianPid : Option ℕ := none
  guardianAttempted : Bool := false
  guardianSpawned : Bool := false
  guardianSpawnFailed : Bool := false
  guardianExitObserved : Bool := false
  guardianCloseObserved : Bool := false
  guardianStatus : Option ℤ := none
  guardianSignal : Option Text := none
  guardianGroupAbsent : Bool := false

/-- `spawn` with the pid of the guardian, where the start goes on to one. -/
inductive Seen where
  | spawn (guardian : Option (Option ℕ))
  | error
  | exit
  | close
  | groupGone
  | guardianSpawn
  | guardianExit
  | guardianClose (code : Option ℤ) (signal : Option Text)
  | guardianError

/-- The order in which Node emits: `spawn` once, of a child with a pid, before its `exit`, and an `exit`
only of a child that spawned; the `close` of the guardian once. -/
def delivered (o : Observed) : Seen → Bool
  | .spawn _ => o.childPid.isSome && !o.spawned
  | .exit => o.spawned
  | .guardianSpawn => o.guardianPid.isSome && !o.guardianExitObserved
  | .guardianExit => o.guardianSpawned
  | .guardianClose _ _ => o.guardianAttempted && !o.guardianCloseObserved
  | .guardianError => o.guardianAttempted
  | _ => true

def seen (o : Observed) : Seen → Observed
  | .spawn none => { o with spawned := true }
  | .spawn (some pid) => { o with spawned := true, guardianAttempted := true, guardianPid := pid }
  | .error => if !o.spawned then { o with childSpawnFailed := o.childPid.isNone } else o
  | .exit => { o with childExitObserved := true }
  | .close => { o with childStdioClosed := true }
  | .groupGone => { o with groupAbsent := true }
  | .guardianSpawn => { o with guardianSpawned := true }
  | .guardianExit => { o with guardianExitObserved := true }
  | .guardianClose code signal =>
    { o with guardianCloseObserved := true, guardianStatus := code, guardianSignal := signal }
  | .guardianError =>
    if !o.guardianSpawned && o.guardianPid.isNone then { o with guardianSpawnFailed := true } else o

def childNeverSpawned (o : Observed) : Bool :=
  o.childSpawnFailed && !o.spawned && o.childPid.isNone && o.childStdioClosed

/-- Of a guardian that was attempted. -/
def neverSpawned (o : Observed) : Bool :=
  o.guardianSpawnFailed && !o.guardianSpawned && o.guardianPid.isNone && o.guardianCloseObserved

def physicalFacts (o : Observed) : OwnedPhysicalFacts where
  childPid := o.childPid
  childSpawned := o.spawned
  childExitObserved := o.childExitObserved
  childStdioClosed := o.childStdioClosed
  groupAbsent := o.groupAbsent || childNeverSpawned o
  guardianPid := o.guardianPid
  guardianAttempted := o.guardianAttempted
  guardianSpawned := o.guardianSpawned
  guardianExitObserved := o.guardianExitObserved
  guardianStdioClosed := o.guardianCloseObserved || !o.guardianAttempted
  guardianGroupAbsent := o.guardianGroupAbsent || (!o.guardianAttempted || neverSpawned o)

/-- The probe of the guardian's group, where it is made. -/
def probed (absent : Bool) (o : Observed) : Observed :=
  { o with guardianGroupAbsent := o.guardianGroupAbsent || absent }

def observeFullClosure (absent : Bool) (o : Observed) : Observed × Option OwnedPhysicalFacts :=
  if !(childNeverSpawned o || o.childExitObserved && o.childStdioClosed && o.groupAbsent) then (o, none)
  else if !o.guardianAttempted || neverSpawned o then (o, some (physicalFacts o))
  else if !o.guardianExitObserved || !o.guardianCloseObserved || o.guardianStatus != some 0 ||
      o.guardianSignal.isSome || o.guardianPid.isNone then (o, none)
  else if (probed absent o).guardianGroupAbsent then
    (probed absent o, some (physicalFacts (probed absent o)))
  else (probed absent o, none)

/-! ## A closure -/

/-- The child's exit and stdio close and the absence of its group were seen, or it never spawned. -/
def ChildGone (o : Observed) : Prop :=
  childNeverSpawned o = true ∨
    (o.spawned = true ∧ o.childExitObserved = true ∧ o.childStdioClosed = true ∧ o.groupAbsent = true)

/-- A guardian that was attempted exited with code 0 and closed, and its group is absent, or it never
spawned. -/
def GuardianGone (o : Observed) : Prop :=
  o.guardianAttempted = true → neverSpawned o = true ∨
    (o.guardianExitObserved = true ∧ o.guardianCloseObserved = true ∧ o.guardianStatus = some 0 ∧
      o.guardianSignal = none ∧ o.guardianPid.isSome = true ∧ o.guardianGroupAbsent = true)

def Closed (o : Observed) : Prop := ChildGone o ∧ GuardianGone o

/-- Of what Node emits in its order. -/
structure Ordered (o : Observed) : Prop where
  exit : o.childExitObserved = true → o.spawned = true
  guardian : o.guardianAttempted = true → o.spawned = true
  pid : o.guardianPid.isSome = true → o.guardianAttempted = true
  spawned : o.spawned = true → o.childPid.isSome = true
  guardianSpawned : o.guardianSpawned = true → o.guardianAttempted = true

theorem ordered_seen {o : Observed} (h : Ordered o) {e : Seen} (sent : delivered o e = true) :
    Ordered (seen o e) := by
  obtain ⟨exit, guardian, pid, spawned, known⟩ := h
  cases e with
  | spawn next =>
    unfold delivered at sent
    rw [Bool.and_eq_true] at sent
    cases next with
    | none => exact ⟨fun _ => rfl, fun _ => rfl, pid, fun _ => sent.1, known⟩
    | some next => exact ⟨fun _ => rfl, fun _ => rfl, fun _ => rfl, fun _ => sent.1, fun _ => rfl⟩
  | error =>
    unfold seen
    dsimp only
    split_ifs
    · exact ⟨exit, guardian, pid, spawned, known⟩
    · exact ⟨exit, guardian, pid, spawned, known⟩
  | exit => exact ⟨fun _ => sent, guardian, pid, spawned, known⟩
  | guardianSpawn =>
    unfold delivered at sent
    rw [Bool.and_eq_true] at sent
    exact ⟨exit, guardian, pid, spawned, fun _ => pid sent.1⟩
  | guardianError =>
    unfold seen
    dsimp only
    split_ifs
    · exact ⟨exit, guardian, pid, spawned, known⟩
    · exact ⟨exit, guardian, pid, spawned, known⟩
  | _ => exact ⟨exit, guardian, pid, spawned, known⟩

/-- Nothing that is emitted after a closure changes what is known of it. -/
theorem closed_seen {o : Observed} (ordered : Ordered o) (h : Closed o) {e : Seen}
    (sent : delivered o e = true) : Closed (seen o e) ∧ physicalFacts (seen o e) = physicalFacts o := by
  obtain ⟨child, guardian⟩ := h
  obtain ⟨exit, attempted, pid, spawned, known⟩ := ordered
  cases e with
  | spawn next =>
    -- A child that is gone never spawned, and has no pid, or has spawned.
    unfold delivered at sent
    unfold ChildGone childNeverSpawned at child
    simp_all
  | _ =>
    unfold Closed ChildGone GuardianGone physicalFacts childNeverSpawned neverSpawned seen at *
    unfold delivered at sent
    grind

theorem childGone_iff {o : Observed} (ordered : Ordered o) :
    (childNeverSpawned o || o.childExitObserved && o.childStdioClosed && o.groupAbsent) = true ↔
      ChildGone o := by
  unfold ChildGone
  rw [Bool.or_eq_true, Bool.and_eq_true, Bool.and_eq_true]
  constructor
  · rintro (never | ⟨⟨exited, closed⟩, absent⟩)
    · exact .inl never
    · exact .inr ⟨ordered.exit exited, exited, closed, absent⟩
  · rintro (never | ⟨-, exited, closed, absent⟩)
    · exact .inl never
    · exact .inr ⟨⟨exited, closed⟩, absent⟩

/-- What is checked of the guardian before its group is probed. -/
theorem short_iff (o : Observed) :
    (!o.guardianExitObserved || !o.guardianCloseObserved || o.guardianStatus != some 0 ||
        o.guardianSignal.isSome || o.guardianPid.isNone) = true ↔
      ¬(o.guardianExitObserved = true ∧ o.guardianCloseObserved = true ∧
        o.guardianStatus = some 0 ∧ o.guardianSignal = none ∧ o.guardianPid.isSome = true) := by
  cases o.guardianExitObserved <;> cases o.guardianCloseObserved <;> cases o.guardianSignal <;>
    cases o.guardianPid <;> simp

theorem probed_of {o : Observed} {absent : Bool} (gone : o.guardianGroupAbsent = true) :
    probed absent o = o := by
  cases o
  unfold probed
  simp_all

theorem closed_observe {o : Observed} {absent : Bool} (ordered : Ordered o)
    {facts : OwnedPhysicalFacts} (is : (observeFullClosure absent o).2 = some facts) :
    Closed (observeFullClosure absent o).1 ∧
      physicalFacts (observeFullClosure absent o).1 = facts := by
  unfold observeFullClosure at *
  by_cases child : (childNeverSpawned o ||
      o.childExitObserved && o.childStdioClosed && o.groupAbsent) = true
  · have gone := (childGone_iff ordered).mp child
    rw [if_neg (by rw [child]; exact Bool.false_ne_true)] at *
    by_cases free : (!o.guardianAttempted || neverSpawned o) = true
    · rw [if_pos free] at *
      refine ⟨⟨gone, fun attempted => .inl ?_⟩, Option.some.inj is⟩
      rw [attempted] at free
      exact free
    · rw [if_neg free] at *
      by_cases short : (!o.guardianExitObserved || !o.guardianCloseObserved ||
          o.guardianStatus != some 0 || o.guardianSignal.isSome || o.guardianPid.isNone) = true
      · rw [if_pos short] at is
        exact absurd is nofun
      · rw [if_neg short] at *
        have ready := not_not.mp (mt (short_iff o).mpr short)
        by_cases absent_ : (probed absent o).guardianGroupAbsent = true
        · rw [if_pos absent_] at *
          refine ⟨⟨gone, fun _ => .inr ?_⟩, Option.some.inj is⟩
          exact ⟨ready.1, ready.2.1, ready.2.2.1, ready.2.2.2.1, ready.2.2.2.2, absent_⟩
        · rw [if_neg absent_] at is
          exact absurd is nofun
  · rw [Bool.not_eq_true] at child
    rw [if_pos (by rw [child]; rfl)] at is
    exact absurd is nofun

theorem ordered_observe {o : Observed} {absent : Bool} (h : Ordered o) :
    Ordered (observeFullClosure absent o).1 := by
  obtain ⟨exit, attempted, pid, spawned, known⟩ := h
  unfold observeFullClosure
  split_ifs <;> exact ⟨exit, attempted, pid, spawned, known⟩

/-- A closure is seen again as it was. -/
theorem observe_closed {o : Observed} {absent : Bool} (ordered : Ordered o) (h : Closed o) :
    observeFullClosure absent o = (o, some (physicalFacts o)) := by
  obtain ⟨child, guardian⟩ := h
  unfold observeFullClosure
  rw [if_neg (by rw [(childGone_iff ordered).mpr child]; exact Bool.false_ne_true)]
  by_cases free : (!o.guardianAttempted || neverSpawned o) = true
  · rw [if_pos free]
  · rw [if_neg free]
    rw [Bool.or_eq_true, not_or] at free
    have attempted : o.guardianAttempted = true := by simpa using free.1
    obtain ⟨exited, closed, status, signal, pid, absent_⟩ :=
      (guardian attempted).resolve_left free.2
    rw [if_neg fun short => (short_iff o).mp short ⟨exited, closed, status, signal, pid⟩,
      probed_of absent_, if_pos absent_]

end Artoo.Node.OwnedClosure
