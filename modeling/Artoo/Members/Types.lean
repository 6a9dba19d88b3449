import Artoo.Devices.Services
import Artoo.Lib.LockModes

/-! The accounts of members: their sessions, the consents to share data with AI providers and the
consent each run was created under, beside the devices and suspensions. -/
namespace Artoo.Members
open Artoo.Lib
open Artoo.Devices (Deployment Draw)

structure SessionRow where
  id : String
  userId : String
  tokenLookup : String
  tokenHash : String
  createdAt : Int
  expiresAt : Int
  revokedAt : Option Int := none
  deriving DecidableEq, Repr

structure ConsentRow where
  id : String
  userId : String
  policyVersion : String
  grantedAt : Int
  revokedAt : Option Int := none
  deriving DecidableEq, Repr

/-- The columns of a run that its dispatch is authorized by. -/
structure RunRow where
  id : String
  requestedByUserId : Option String
  aiDataSharingConsentId : Option String
  aiDataSharingPolicyVersion : Option String
  deriving DecidableEq, Repr

/-- Users, suspensions, devices, device tokens and pairing codes are in `core`. -/
structure Store where
  core : Devices.Database := {}
  sessions : Table SessionRow.id := .empty
  consents : Table ConsentRow.id := .empty
  runs : Table RunRow.id := .empty

inductive Write where
  | core (w : Devices.Write)
  | session (row : SessionRow)
  | consent (row : ConsentRow)
  | run (row : RunRow)
  deriving DecidableEq

/-- A row lock, or the entry of a unique index; `shareUser` is the shared lock of a user's row,
`core (.user id)` its exclusive one. -/
inductive Lock where
  | core (k : Devices.Lock)
  | shareUser (id : String)
  | session (id : String)
  | sessionLookup (tokenLookup : String)
  | consent (id : String)
  | activeConsent (userId : String)
  | run (id : String)
  deriving DecidableEq, Repr

def Lock.conflicts : Lock → Lock → Bool
  | .shareUser _, .shareUser _ => false
  | .core (.user id), .shareUser other => id == other
  | .shareUser id, .core (.user other) => id == other
  | j, k => j == k

instance : Conflicts Lock := ⟨Lock.conflicts⟩

def Write.apply : Write → Store → Store
  | .core w, st => { st with core := w.apply st.core }
  | .session row, st => { st with sessions := st.sessions.put row }
  | .consent row, st => { st with consents := st.consents.put row }
  | .run row, st => { st with runs := st.runs.put row }

def Write.locks : Write → List Lock
  | .core w => w.locks.map .core
  | .session row => [.session row.id, .sessionLookup row.tokenLookup]
  | .consent row => [.consent row.id, .activeConsent row.userId]
  | .run row => [.run row.id]

instance : Tables Store Write Lock := ⟨Write.apply, Write.locks⟩

inductive AppError where
  | core (e : Devices.AppError)
  | invalidState (message : String)
  | aiSharingUnconfigured (message : String)
  | aiConsentRequired (message : String)
  deriving DecidableEq, Repr

abbrev Txn := Tx Store Write Lock Draw AppError

variable {α : Type}

/-- A transaction of the tables of devices and members. -/
def core (p : Devices.Txn α) : Txn α := p.lift Store.core Write.core Lock.core AppError.core

def generate : Txn String := core Devices.generate

def nowIso : Txn Int := core Devices.nowIso

/-- Suspended and not reinstated since. -/
def suspended (st : Store) (userId : String) : Bool :=
  (st.core.suspensions.get? userId).any (·.reinstatedAt.isNone)

def isMemberSuspended (userId : String) : Txn Bool := Tx.query (suspended · userId)

/-- `select … from users where id = … for share`. -/
def shareUser (userId : String) : Txn (List Devices.UserRow) :=
  Tx.queryForUpdate (fun st => (st.core.users.get? userId).toList) fun row => .shareUser row.id

/-- `select … from users where id = … for update`. -/
def lockUser (userId : String) : Txn (List Devices.UserRow) :=
  Tx.queryForUpdate (fun st => (st.core.users.get? userId).toList) fun row => .core (.user row.id)

/-- Whether the user exists and is not suspended. -/
def isActiveMember (userId : String) : Txn Bool := do
  let rows ← shareUser userId
  if rows.isEmpty then return false else return !(← isMemberSuspended userId)

def requireActiveMember (userId : String) : Txn Unit := do
  Tx.check (!(← isActiveMember userId))
    (.core (.permissionDenied "This account does not have active access to the team."))

def ownerOrAdmin : AppError := .core Devices.ownerOrAdmin

/-- In a transaction the actor's row is locked too. -/
def requireAdministrator (d : Deployment) (actor : String) : Txn Unit := do
  let rows ← shareUser actor
  let user ← Tx.require rows.head? ownerOrAdmin
  Tx.check (← isMemberSuspended actor) ownerOrAdmin
  Tx.check (!d.isAllowedTeamEmail user.email) ownerOrAdmin
  let role := d.effectiveTeamRole user.email user.role
  Tx.check (role != "owner" && role != "admin") ownerOrAdmin

end Artoo.Members
