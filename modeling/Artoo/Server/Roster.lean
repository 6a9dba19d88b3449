import Artoo.Devices.Presence
import Artoo.Domain.State
import Mathlib.Algebra.Field.Rat
import Mathlib.Algebra.Order.Monoid.Unbundled.WithTop
import Mathlib.Algebra.Order.Ring.Rat

/-! The roster of agent instances, and the candidates of the scheduler. -/
namespace Artoo.Server.Roster

open Devices (DevicePresenceState DeviceTrust PresenceWindows derivePresenceState)
open Domain (RunStatus TaskStatus)

/-! ## The tables -/

/-- What is read of JavaScript's dates. `parse` has no value for `NaN`. -/
structure Dates where
  parse : String → Option ℤ
  toISOString : ℤ → String
  parse_toISOString : ∀ {v t}, parse v = some t → parse (toISOString t) = some t

/-- A value of a configuration. A number can be infinite. -/
inductive ConfigValue where
  | number (value : WithTop ℚ)
  | other

structure InstanceRow where
  id : String
  organizationId : String
  agentId : String
  computerId : String
  runtime : String
  status : String
  config : Option (List (String × ConfigValue))

structure ComputerRow where
  id : String
  organizationId : String
  status : String
  capabilities : List String
  lastHeartbeatAt : Option String

structure AgentRow where
  id : String
  organizationId : String
  capabilities : List String

inductive RuntimeStatus where
  | detected | available | missing | disabled
  deriving DecidableEq

structure RuntimeRow where
  organizationId : String
  computerId : String
  runtime : String
  status : RuntimeStatus
  capabilities : List String
  lastSeenAt : Option String

structure DeviceRow where
  organizationId : String
  computerId : Option String
  trust : DeviceTrust

structure RunRow where
  organizationId : String
  taskId : String
  agentInstanceId : String
  status : RunStatus

structure TaskRow where
  id : String
  status : TaskStatus

structure Database where
  instances : List InstanceRow
  computers : List ComputerRow
  agents : List AgentRow
  runtimes : List RuntimeRow
  devices : List DeviceRow
  runs : List RunRow
  tasks : List TaskRow
  computers_id : (computers.map (·.id)).Nodup
  tasks_id : (tasks.map (·.id)).Nodup
  runtimes_computer_runtime : (runtimes.map fun r => (r.computerId, r.runtime)).Nodup
  runs_task : ∀ run ∈ runs, ∃ task ∈ tasks, task.id = run.taskId

def isActiveRunStatus (status : RunStatus) : Bool :=
  !(status == .completed || status == .failed || status == .cancelled)

section Reads

variable (db : Database) (organizationId : String) (instance_ : InstanceRow)

def runtimeRows : List RuntimeRow :=
  db.runtimes.filter fun r => r.organizationId == organizationId &&
    r.computerId == instance_.computerId && r.runtime == instance_.runtime

def computerRows : List ComputerRow :=
  db.computers.filter fun c => instance_.computerId == c.id && c.organizationId == organizationId

end Reads

/-! ## The roster -/

inductive ConnectionState where
  | online | stale | offline | revoked
  deriving DecidableEq

inductive RuntimePresenceState where
  | available | busy | disabled | stale | missing
  deriving DecidableEq

structure Facts where
  hasLiveConnection : Bool
  deviceTrust : Option DeviceTrust
  lastSeenAt : Option String
  runtimeLastSeenAt : Option String
  runtimeStatus : Option RuntimeStatus
  concurrencyLimit : WithTop ℚ
  activeRuns : List (RunStatus × TaskStatus)

section Roster

variable (d : Dates)

def presenceState (lastSeenIso : Option String) (nowIso : String) (windows : PresenceWindows) :
    DevicePresenceState :=
  match lastSeenIso.bind d.parse, d.parse nowIso with
  | some lastSeen, some now => derivePresenceState (some lastSeen) now windows
  | _, _ => .offline

def deriveConnection (facts : Facts) (nowIso : String) (windows : PresenceWindows) :
    ConnectionState :=
  if facts.deviceTrust = some .revoked then .revoked
  else if !facts.hasLiveConnection then .offline
  else match presenceState d facts.lastSeenAt nowIso windows with
    | .online => .online
    | .stale => .stale
    | .offline => .offline

def deriveRuntime (facts : Facts) (nowIso : String) (windows : PresenceWindows) :
    RuntimePresenceState :=
  if facts.runtimeStatus = none ∨ facts.runtimeStatus = some .missing then .missing
  else if facts.runtimeStatus = some .disabled then .disabled
  else if facts.concurrencyLimit ≤ (facts.activeRuns.length : ℚ) then .busy
  else if presenceState d (facts.runtimeLastSeenAt.orElse fun _ => facts.lastSeenAt) nowIso windows ≠
      .online then .stale
  else .available

/-- It throws where the text is no date. -/
def ISO : Option String → Option (Option String)
  | none => some none
  | some v => (d.parse v).map fun t => some (d.toISOString t)

def deviceTrustForComputer (rows : List DeviceRow) : Option DeviceTrust :=
  if rows.any (·.trust == .revoked) then some .revoked
  else if rows.any (·.trust == .active) then some .active
  else none

def activeRunsForInstance (db : Database) (organizationId agentInstanceId : String) :
    List (RunStatus × TaskStatus) :=
  let rows := (db.runs.filter fun run => run.organizationId == organizationId &&
    run.agentInstanceId == agentInstanceId).flatMap fun run =>
      (db.tasks.filter (·.id == run.taskId)).map fun task => (run.status, task.status)
  rows.filter fun row => isActiveRunStatus row.1

/-- `concurrency_limit` of a configuration. -/
def concurrencyLimitFromConfig (config : Option (List (String × ConfigValue))) : WithTop ℚ :=
  match (config.getD []).lookup "concurrency_limit" with
  | some (.number raw) => if 0 < raw then raw else 1
  | _ => 1

def instanceFacts (db : Database) (organizationId : String) (isLive : String → Bool)
    (instance_ : InstanceRow) : Option Facts := do
  let runtimeRow := (runtimeRows db organizationId instance_).head?
  let computer := (computerRows db organizationId instance_).head?
  let deviceRows := db.devices.filter fun r =>
    r.computerId == some instance_.computerId && r.organizationId == organizationId
  let lastSeenAt ← ISO d (computer.bind (·.lastHeartbeatAt))
  let runtimeLastSeenAt ← ISO d (runtimeRow.bind (·.lastSeenAt))
  some {
    hasLiveConnection := isLive instance_.computerId
    deviceTrust := deviceTrustForComputer deviceRows
    lastSeenAt
    runtimeLastSeenAt
    runtimeStatus := runtimeRow.map (·.status)
    concurrencyLimit := concurrencyLimitFromConfig instance_.config
    activeRuns := activeRunsForInstance db organizationId instance_.id }

structure AgentInstancePresence where
  agentInstanceId : String
  connection : ConnectionState
  runtime : RuntimePresenceState

def synthesizeAgentInstancePresence (instance_ : InstanceRow) (facts : Facts) (nowIso : String)
    (windows : PresenceWindows) : AgentInstancePresence where
  agentInstanceId := instance_.id
  connection := deriveConnection d facts nowIso windows
  runtime := deriveRuntime d facts nowIso windows

/-- What the roster shows of an instance of the organization. -/
def agentInstancePresence (db : Database) (organizationId : String) (isLive : String → Bool)
    (nowIso : String) (windows : PresenceWindows) (instance_ : InstanceRow) :
    Option AgentInstancePresence :=
  (instanceFacts d db organizationId isLive instance_).map fun facts =>
    synthesizeAgentInstancePresence d instance_ facts nowIso windows

def listAgentInstancePresence (db : Database) (organizationId : String) (isLive : String → Bool)
    (nowIso : String) (windows : PresenceWindows) : Option (List AgentInstancePresence) :=
  (db.instances.filter (·.organizationId == organizationId)).mapM
    (agentInstancePresence d db organizationId isLive nowIso windows)

end Roster

/-! ## The scheduler -/

/-- A row of the query: the runtime is null where there is none. -/
structure Candidate where
  instance_ : InstanceRow
  computer : ComputerRow
  agent : AgentRow
  runtimeRow : Option RuntimeRow

structure ScheduleOptions where
  required : List String
  manual : Bool
  agentInstanceId : Option String

section Scheduler

variable (d : Dates)

def isRuntimeStale (lastSeenIso : Option String) (nowIso : String) (staleAfterMs : ℤ) : Bool :=
  match lastSeenIso with
  | none => true
  | some lastSeenIso =>
    match d.parse lastSeenIso, d.parse nowIso with
    | some lastSeen, some now => now - lastSeen > staleAfterMs
    | _, _ => true

def isInstanceAdminAvailable (adminStatus : String) : Bool :=
  adminStatus != "disabled" && adminStatus != "stopping" && adminStatus != "failed"

def hasSpareCapacity (activeRuns : ℕ) (concurrencyLimit : WithTop ℚ) : Bool :=
  decide (((activeRuns : ℚ) : WithTop ℚ) < max 1 concurrencyLimit)

def isDeviceTrustEligible (hasRevokedDevice : Bool) : Bool := !hasRevokedDevice

def candidates (db : Database) (organizationId : String) : List Candidate :=
  (db.instances.filter (·.organizationId == organizationId)).flatMap fun instance_ =>
    (computerRows db organizationId instance_).flatMap fun computer =>
      (db.agents.filter fun a => instance_.agentId == a.id && a.organizationId == organizationId).flatMap
        fun agent =>
          match runtimeRows db organizationId instance_ with
          | [] => [⟨instance_, computer, agent, none⟩]
          | rows => rows.map fun r => ⟨instance_, computer, agent, some r⟩

def activeRunsByInstance (db : Database) (organizationId instanceId : String) : ℕ :=
  ((db.runs.filter (·.organizationId == organizationId)).filter fun run =>
    isActiveRunStatus run.status && run.agentInstanceId == instanceId).length

def revokedComputerIds (db : Database) (organizationId : String) : List String :=
  (db.devices.filter fun r => r.organizationId == organizationId && r.trust == .revoked).filterMap
    (·.computerId)

def capacityFilter (db : Database) (organizationId : String) (r : Candidate) : Bool :=
  hasSpareCapacity (activeRunsByInstance db organizationId r.instance_.id)
    (concurrencyLimitFromConfig r.instance_.config)

def trustFilter (db : Database) (organizationId : String) (r : Candidate) : Bool :=
  isDeviceTrustEligible ((revokedComputerIds db organizationId).contains r.instance_.computerId)

/-- Without a row of its runtime a candidate stays. -/
def runtimeFilter (nowIso : String) (staleAfterMs : ℤ) (r : Candidate) : Bool :=
  match r.runtimeRow with
  | none => true
  | some row =>
    !(row.status == .disabled || row.status == .missing) &&
      !isRuntimeStale d row.lastSeenAt nowIso staleAfterMs

def matchCapabilities (required offered : List String) : Bool := required.all offered.contains

/-- `skillCaps` are of the skills that are installed and enabled, for a runtime. -/
def eligible (db : Database) (organizationId nowIso : String) (staleAfterMs : ℤ)
    (skillCaps : String → List String) (opts : ScheduleOptions) : List Candidate :=
  (((candidates db organizationId).filter fun r =>
      isInstanceAdminAvailable r.instance_.status && r.computer.status == "online" &&
        capacityFilter db organizationId r && trustFilter db organizationId r).filter fun r =>
      !opts.manual || opts.agentInstanceId == none ||
        opts.agentInstanceId == some r.instance_.id).filter fun r =>
      runtimeFilter d nowIso staleAfterMs r &&
        matchCapabilities opts.required (r.agent.capabilities ++ r.computer.capabilities ++
          (r.runtimeRow.map (·.capabilities)).getD [] ++ skillCaps r.instance_.runtime)

end Scheduler

/-! ## One against the other -/

section Agree

variable (d : Dates) (db : Database) (organizationId : String) (isLive : String → Bool)
  (nowIso : String) (windows : PresenceWindows)

/-- The roster shows the instance as online and its runtime as available. -/
def ShownAvailable (instance_ : InstanceRow) : Prop :=
  ∃ shown, agentInstancePresence d db organizationId isLive nowIso windows instance_ = some shown ∧
    shown.connection = .online ∧ shown.runtime = .available

/-- The same window is used for both. -/
def RosterAgrees : Prop :=
  ∀ r ∈ candidates db organizationId,
    ShownAvailable d db organizationId isLive nowIso windows r.instance_ →
      trustFilter db organizationId r = true ∧ capacityFilter db organizationId r = true ∧
        runtimeFilter d nowIso windows.onlineWithinMs r = true

/-- A runtime that can be used has never been seen, on a connected computer that has. -/
structure NeverSeen (r : Candidate) (row : RuntimeRow) : Prop where
  runtimeRow : r.runtimeRow = some row
  enabled : row.status ≠ .missing ∧ row.status ≠ .disabled
  unseen : row.lastSeenAt = none
  trusted : trustFilter db organizationId r = true
  live : isLive r.instance_.computerId = true
  fresh : presenceState d r.computer.lastHeartbeatAt nowIso windows = .online
  spare : (activeRunsByInstance db organizationId r.instance_.id : ℚ) <
    concurrencyLimitFromConfig r.instance_.config

end Agree

section Rows

variable {d : Dates} {db : Database} {organizationId nowIso : String} {isLive : String → Bool}
  {windows : PresenceWindows} {instance_ : InstanceRow} {r : Candidate}

theorem head_of_single {α : Type} {a : α} {l : List α} (one : l.length ≤ 1) (among : a ∈ l) :
    l.head? = some a := by
  match l with
  | [] => cases among
  | [b] => rw [List.mem_singleton.mp among]; rfl
  | _ :: _ :: _ => exact absurd one (by simp)

/-- A key that is unique is found once. -/
theorem length_filter_key {α β : Type} {key : α → β} {k : β} {p : α → Bool} {l : List α}
    (unique : (l.map key).Nodup) (found : ∀ a, p a = true → key a = k) : (l.filter p).length ≤ 1 := by
  induction l with
  | nil => exact Nat.zero_le 1
  | cons a l ih =>
    obtain ⟨new, rest⟩ := List.nodup_cons.mp unique
    by_cases is : p a = true
    · have none_ : l.filter p = [] := by
        rw [List.filter_eq_nil_iff]
        intro b among is'
        exact new (List.mem_map.mpr ⟨b, among, (found b is').trans (found a is).symm⟩)
      rw [List.filter_cons_of_pos is, none_]
      exact le_refl 1
    · rw [List.filter_cons_of_neg is]
      exact ih rest

theorem candidate_rows (among : r ∈ candidates db organizationId) :
    r.instance_.organizationId = organizationId ∧
      (runtimeRows db organizationId r.instance_).head? = r.runtimeRow ∧
      (computerRows db organizationId r.instance_).head? = some r.computer := by
  obtain ⟨i, own, among⟩ := List.mem_flatMap.mp among
  obtain ⟨c, computer, among⟩ := List.mem_flatMap.mp among
  obtain ⟨a, agent, among⟩ := List.mem_flatMap.mp among
  have one : (computerRows db organizationId i).length ≤ 1 := by
    apply length_filter_key (k := i.computerId) db.computers_id
    intro c is
    exact (beq_iff_eq.mp (Bool.and_eq_true_iff.mp is).1).symm
  have once : (runtimeRows db organizationId i).length ≤ 1 := by
    apply length_filter_key (k := (i.computerId, i.runtime)) db.runtimes_computer_runtime
    intro row is
    obtain ⟨is, runtime⟩ := Bool.and_eq_true_iff.mp is
    exact Prod.ext (beq_iff_eq.mp (Bool.and_eq_true_iff.mp is).2) (beq_iff_eq.mp runtime)
  have own' : i.organizationId = organizationId := beq_iff_eq.mp (List.mem_filter.mp own).2
  cases rows : runtimeRows db organizationId i with
  | nil =>
    rw [rows] at among
    cases List.mem_singleton.mp among
    exact ⟨own', by rw [rows]; rfl, head_of_single one computer⟩
  | cons row more =>
    rw [rows] at among
    obtain ⟨row', there, rfl⟩ := List.mem_map.mp among
    refine ⟨own', ?_, head_of_single one computer⟩
    rw [rows] at once
    rw [rows]
    exact head_of_single once there

/-- Each run has one task: the join neither loses nor repeats one. -/
theorem length_activeRuns :
    (activeRunsForInstance db organizationId instance_.id).length =
      activeRunsByInstance db organizationId instance_.id := by
  have tasks : ∀ run ∈ db.runs, ∃ task, db.tasks.filter (·.id == run.taskId) = [task] := by
    intro run among
    obtain ⟨task, there, is⟩ := db.runs_task run among
    have found : task ∈ db.tasks.filter (·.id == run.taskId) :=
      List.mem_filter.mpr ⟨there, beq_iff_eq.mpr is⟩
    have one : (db.tasks.filter (·.id == run.taskId)).length ≤ 1 :=
      length_filter_key (k := run.taskId) db.tasks_id fun task is => beq_iff_eq.mp is
    exact List.length_eq_one_iff.mp (le_antisymm one (List.length_pos_of_mem found))
  unfold activeRunsByInstance activeRunsForInstance
  dsimp only
  generalize db.runs = runs at tasks ⊢
  induction runs with
  | nil => rfl
  | cons run runs ih =>
    have rest := ih fun run' among => tasks run' (List.mem_cons_of_mem run among)
    obtain ⟨task, single⟩ := tasks run List.mem_cons_self
    simp only [List.filter_cons]
    cases run.organizationId == organizationId with
    | false => exact rest
    | true =>
      simp only [List.filter_cons, Bool.true_and, if_true]
      cases run.agentInstanceId == instance_.id with
      | false =>
        rw [Bool.and_false]
        exact rest
      | true =>
        rw [if_pos rfl, List.flatMap_cons, single, List.filter_append, List.length_append, rest]
        cases active : isActiveRunStatus run.status with
        | false => simp [active]
        | true => simp [active, Nat.add_comm]

theorem presenceState_online {lastSeen : Option String} :
    presenceState d lastSeen nowIso windows = .online ↔
      ∃ t now, lastSeen.bind d.parse = some t ∧ d.parse nowIso = some now ∧
        now - t ≤ windows.onlineWithinMs := by
  unfold presenceState derivePresenceState
  cases lastSeen.bind d.parse with
  | none => simp
  | some t =>
    cases d.parse nowIso with
    | none => simp
    | some now =>
      dsimp only
      split_ifs with online stale
      all_goals
        simp only [Option.some.injEq, exists_and_left, exists_eq_left', true_iff, false_iff]
        omega

/-- Not online is stale to the scheduler. -/
theorem stale_iff {lastSeen : Option String} :
    isRuntimeStale d lastSeen nowIso windows.onlineWithinMs = false ↔
      presenceState d lastSeen nowIso windows = .online := by
  rw [presenceState_online]
  unfold isRuntimeStale
  cases lastSeen with
  | none => simp
  | some text =>
    cases seen : d.parse text with
    | none => simp [seen]
    | some t =>
      cases d.parse nowIso with
      | none => simp
      | some now => simp [seen]

/-- What is read of a date is the same when it is written again. -/
theorem ISO_bind {v v' : Option String} (iso : ISO d v = some v') :
    v'.bind d.parse = v.bind d.parse := by
  cases v with
  | none =>
    cases iso
    rfl
  | some text =>
    obtain ⟨t, is, rfl⟩ := Option.map_eq_some_iff.mp iso
    exact (d.parse_toISOString is).trans is.symm

theorem presenceState_ISO {v v' : Option String} (iso : ISO d v = some v') :
    presenceState d v' nowIso windows = presenceState d v nowIso windows := by
  unfold presenceState
  rw [ISO_bind iso]

theorem ISO_of_online {v : Option String} (online : presenceState d v nowIso windows = .online) :
    ∃ text, ISO d v = some (some text) := by
  obtain ⟨t, now, is, -⟩ := presenceState_online.mp online
  obtain ⟨text, rfl, parsed⟩ := Option.bind_eq_some_iff.mp is
  exact ⟨d.toISOString t, by rw [ISO, parsed]; rfl⟩

/-- Both find the same revoked devices. -/
theorem trust_iff :
    deviceTrustForComputer (db.devices.filter fun row =>
        row.computerId == some r.instance_.computerId && row.organizationId == organizationId) ≠
          some .revoked ↔
      trustFilter db organizationId r = true := by
  have revoked : (db.devices.filter fun row => row.computerId == some r.instance_.computerId &&
      row.organizationId == organizationId).any (·.trust == .revoked) =
        (revokedComputerIds db organizationId).contains r.instance_.computerId := by
    rw [Bool.eq_iff_iff, List.any_eq_true, List.contains_iff_mem]
    unfold revokedComputerIds
    simp only [List.mem_filter, List.mem_filterMap, Bool.and_eq_true, beq_iff_eq]
    constructor
    · rintro ⟨row, ⟨there, computer, own⟩, off⟩
      exact ⟨row, ⟨there, own, off⟩, computer⟩
    · rintro ⟨row, ⟨there, own, off⟩, computer⟩
      exact ⟨row, ⟨there, computer, own⟩, off⟩
  unfold deviceTrustForComputer trustFilter isDeviceTrustEligible
  rw [revoked]
  cases (revokedComputerIds db organizationId).contains r.instance_.computerId with
  | true => simp
  | false =>
    rw [if_neg Bool.false_ne_true]
    split_ifs <;> simp

theorem deriveConnection_online {facts : Facts} :
    deriveConnection d facts nowIso windows = .online ↔
      facts.deviceTrust ≠ some .revoked ∧ facts.hasLiveConnection = true ∧
        presenceState d facts.lastSeenAt nowIso windows = .online := by
  unfold deriveConnection
  by_cases revoked : facts.deviceTrust = some .revoked
  · simp [revoked]
  · rw [if_neg revoked]
    cases facts.hasLiveConnection with
    | false => simp
    | true => cases presenceState d facts.lastSeenAt nowIso windows <;> simp [revoked]

theorem deriveRuntime_available {facts : Facts} :
    deriveRuntime d facts nowIso windows = .available ↔
      (∃ status, facts.runtimeStatus = some status ∧ status ≠ .missing ∧ status ≠ .disabled) ∧
        (facts.activeRuns.length : ℚ) < facts.concurrencyLimit ∧
        presenceState d (facts.runtimeLastSeenAt.orElse fun _ => facts.lastSeenAt) nowIso windows =
          .online := by
  unfold deriveRuntime
  cases facts.runtimeStatus with
  | none => simp
  | some status =>
    cases status with
    | missing => simp
    | disabled => simp
    | detected | available =>
      rw [if_neg (by simp), if_neg (by simp)]
      split_ifs with busy stale
      · constructor
        · intro shown
          cases shown
        · rintro ⟨-, spare, -⟩
          exact absurd busy (not_le.mpr spare)
      · constructor
        · intro shown
          cases shown
        · rintro ⟨-, -, online⟩
          exact absurd online stale
      · exact ⟨fun _ => ⟨⟨_, rfl, by simp⟩, not_le.mp busy, not_not.mp stale⟩, fun _ => rfl⟩

theorem facts_of_candidate (among : r ∈ candidates db organizationId) {facts : Facts} :
    instanceFacts d db organizationId isLive r.instance_ = some facts ↔
      ∃ lastSeenAt runtimeLastSeenAt, ISO d r.computer.lastHeartbeatAt = some lastSeenAt ∧
        ISO d (r.runtimeRow.bind (·.lastSeenAt)) = some runtimeLastSeenAt ∧
        facts = ⟨isLive r.instance_.computerId,
          deviceTrustForComputer (db.devices.filter fun row =>
            row.computerId == some r.instance_.computerId && row.organizationId == organizationId),
          lastSeenAt, runtimeLastSeenAt, r.runtimeRow.map (·.status),
          concurrencyLimitFromConfig r.instance_.config,
          activeRunsForInstance db organizationId r.instance_.id⟩ := by
  obtain ⟨-, runtime, computer⟩ := candidate_rows among
  unfold instanceFacts
  simp only [runtime, computer, Option.bind_some, Option.bind_eq_bind, Option.bind_eq_some_iff,
    Option.some.injEq]
  constructor
  · rintro ⟨a, isA, b, isB, rfl⟩
    exact ⟨a, b, isA, isB, rfl⟩
  · rintro ⟨a, b, isA, isB, rfl⟩
    exact ⟨a, isA, b, isB, rfl⟩

/-- What is shown as available passes, unless it has never been seen. -/
theorem passes_of_shown (among : r ∈ candidates db organizationId)
    (shown : ShownAvailable d db organizationId isLive nowIso windows r.instance_)
    (seen : ¬∃ row, NeverSeen d db organizationId isLive nowIso windows r row) :
    trustFilter db organizationId r = true ∧ capacityFilter db organizationId r = true ∧
      runtimeFilter d nowIso windows.onlineWithinMs r = true := by
  obtain ⟨shown, is, connection, runtime⟩ := shown
  obtain ⟨facts, gathered, rfl⟩ := Option.map_eq_some_iff.mp is
  obtain ⟨lastSeenAt, runtimeLastSeenAt, heartbeat, seenAt, rfl⟩ :=
    (facts_of_candidate among).mp gathered
  obtain ⟨trust, live, fresh⟩ := deriveConnection_online.mp connection
  obtain ⟨⟨status, some_, enabled⟩, spare, online⟩ := deriveRuntime_available.mp runtime
  have trusted := trust_iff.mp trust
  rw [length_activeRuns] at spare
  rw [presenceState_ISO heartbeat] at fresh
  obtain ⟨row, rowIs, rfl⟩ := Option.map_eq_some_iff.mp some_
  refine ⟨trusted, ?_, ?_⟩
  · exact decide_eq_true (lt_max_of_lt_right spare)
  · cases unseen : row.lastSeenAt with
    | none => exact absurd ⟨row, rowIs, enabled, unseen, trusted, live, fresh, spare⟩ seen
    | some text =>
      rw [rowIs, Option.bind_some, unseen] at seenAt
      obtain ⟨t, parsed, rfl⟩ := Option.map_eq_some_iff.mp seenAt
      have recent : isRuntimeStale d row.lastSeenAt nowIso windows.onlineWithinMs = false := by
        rw [unseen, stale_iff, ← presenceState_ISO seenAt]
        exact online
      unfold runtimeFilter
      rw [rowIs]
      dsimp only
      rw [recent, beq_eq_false_iff_ne.mpr enabled.1, beq_eq_false_iff_ne.mpr enabled.2]
      rfl

/-- What has never been seen is shown all the same: the heartbeat of its computer stands for it. -/
theorem NeverSeen.excluded (among : r ∈ candidates db organizationId) {row : RuntimeRow}
    (never : NeverSeen d db organizationId isLive nowIso windows r row) :
    ShownAvailable d db organizationId isLive nowIso windows r.instance_ ∧
      runtimeFilter d nowIso windows.onlineWithinMs r = false := by
  obtain ⟨text, heartbeat⟩ := ISO_of_online never.fresh
  have seenAt : ISO d (r.runtimeRow.bind (·.lastSeenAt)) = some none := by
    rw [never.runtimeRow, Option.bind_some, never.unseen]
    rfl
  have gathered : instanceFacts d db organizationId isLive r.instance_ = some _ :=
    (facts_of_candidate among).mpr ⟨some text, none, heartbeat, seenAt, rfl⟩
  refine ⟨⟨_, Option.map_eq_some_iff.mpr ⟨_, gathered, rfl⟩, ?_, ?_⟩, ?_⟩
  · refine deriveConnection_online.mpr ⟨trust_iff.mpr never.trusted, never.live, ?_⟩
    rw [presenceState_ISO heartbeat]
    exact never.fresh
  · refine deriveRuntime_available.mpr ⟨⟨row.status, ?_, never.enabled⟩, ?_, ?_⟩
    · rw [never.runtimeRow]
      rfl
    · rw [length_activeRuns]
      exact never.spare
    · change presenceState d (some text) nowIso windows = .online
      rw [presenceState_ISO heartbeat]
      exact never.fresh
  · unfold runtimeFilter
    rw [never.runtimeRow]
    dsimp only
    rw [never.unseen]
    exact Bool.and_false _

/-- The roster agrees with the scheduler, unless an enabled runtime was never seen where its computer
was. -/
theorem rosterAgrees_iff :
    RosterAgrees d db organizationId isLive nowIso windows ↔
      ∀ r ∈ candidates db organizationId, ¬∃ row,
        NeverSeen d db organizationId isLive nowIso windows r row := by
  constructor
  · rintro agrees r among ⟨row, never⟩
    obtain ⟨shown, off⟩ := never.excluded among
    obtain ⟨-, -, on⟩ := agrees r among shown
    exact Bool.noConfusion (off.symm.trans on)
  · intro seen r among shown
    exact passes_of_shown among shown (seen r among)

end Rows

/-! ## A runtime that was never seen -/

def newYear : String := "2026-01-01T00:00:00.000Z"

/-- The dates of one instant. -/
def oneDate : Dates where
  parse v := if v = newYear then some 1767225600000 else none
  toISOString _ := newYear
  parse_toISOString := by
    intro v t is
    split_ifs at is
    cases is
    rfl

def neverSeenInstance : InstanceRow := ⟨"i", "o", "a", "c", "codex", "idle", none⟩
def neverSeenComputer : ComputerRow := ⟨"c", "o", "online", [], some newYear⟩
def neverSeenRuntime : RuntimeRow := ⟨"o", "c", "codex", .available, [], none⟩

def neverSeenDatabase : Database where
  instances := [neverSeenInstance]
  computers := [neverSeenComputer]
  agents := [⟨"a", "o", []⟩]
  runtimes := [neverSeenRuntime]
  devices := []
  runs := []
  tasks := []
  computers_id := List.nodup_singleton _
  tasks_id := List.nodup_nil
  runtimes_computer_runtime := List.nodup_singleton _
  runs_task := List.forall_mem_nil _

theorem not_rosterAgrees :
    ¬∀ d db organizationId isLive nowIso windows,
      RosterAgrees d db organizationId isLive nowIso windows := by
  intro all
  have among : (⟨neverSeenInstance, neverSeenComputer, ⟨"a", "o", []⟩, some neverSeenRuntime⟩ :
      Candidate) ∈ candidates neverSeenDatabase "o" := List.mem_singleton.mpr rfl
  have never : NeverSeen oneDate neverSeenDatabase "o" (fun _ => true) newYear ⟨30000, 300000⟩
      ⟨neverSeenInstance, neverSeenComputer, ⟨"a", "o", []⟩, some neverSeenRuntime⟩
      neverSeenRuntime :=
    ⟨rfl, by decide, rfl, rfl, rfl, rfl, WithTop.coe_lt_coe.mpr zero_lt_one⟩
  obtain ⟨shown, off⟩ := never.excluded among
  obtain ⟨-, -, on⟩ := all _ _ _ _ _ _ _ among shown
  exact Bool.noConfusion (off.symm.trans on)

end Artoo.Server.Roster
