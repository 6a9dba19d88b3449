import Artoo.Lib.Sessions
import Artoo.Lib.Statement
import Artoo.Server.Approval

/-! Users, devices, their tokens and their pairing codes; row writes and locks. A timestamp is its
instant in milliseconds. -/
namespace Artoo.Devices
open Artoo.Lib
open Artoo.Domain (isTrimmed)
open Artoo.Server (trim)

inductive DevicePlatform where
  | windows | macos | android | ios
  deriving DecidableEq, Repr

def DevicePlatform.name : DevicePlatform → String
  | .windows => "windows" | .macos => "macos" | .android => "android" | .ios => "ios"

inductive DeviceTrust where
  | active | revoked
  deriving DecidableEq, Repr

inductive DeviceTokenKind where
  | controlSession | node
  deriving DecidableEq, Repr

inductive DeviceTokenStatus where
  | active | revoked
  deriving DecidableEq, Repr

inductive PairingCodeStatus where
  | pending | claimed | expired | cancelled
  deriving DecidableEq, Repr

structure UserRow where
  id : String
  email : String
  role : String
  deriving DecidableEq, Repr

structure SuspensionRow where
  userId : String
  suspendedByUserId : String
  reason : String
  suspendedAt : Int
  reinstatedAt : Option Int := none
  deriving DecidableEq, Repr

structure DeviceRow where
  id : String
  displayName : String
  platform : DevicePlatform
  appVersion : String
  computerId : Option String := none
  enrolledByUserId : String
  trust : DeviceTrust := .active
  lastSeenAt : Option Int := none
  createdAt : Int
  revokedAt : Option Int := none
  deriving DecidableEq, Repr

structure DeviceTokenRow where
  id : String
  deviceId : String
  kind : DeviceTokenKind
  tokenLookup : String
  tokenHash : String
  status : DeviceTokenStatus := .active
  createdAt : Int
  expiresAt : Option Int := none
  revokedAt : Option Int := none
  deriving DecidableEq, Repr

structure PairingCodeRow where
  id : String
  codeHash : String
  createdByUserId : String
  intendedPlatform : Option DevicePlatform := none
  status : PairingCodeStatus := .pending
  expiresAt : Int
  claimedByDeviceId : Option String := none
  createdAt : Int
  claimedAt : Option Int := none
  deriving DecidableEq, Repr

structure ComputerRow where
  id : String
  displayName : String
  hostname : String
  os : String
  arch : String
  status : String := "enrolling"
  lastHeartbeatAt : Option Int := none
  createdAt : Int
  deriving DecidableEq, Repr

structure Database where
  users : Table UserRow.id := .empty
  suspensions : Table SuspensionRow.userId := .empty
  codes : Table PairingCodeRow.id := .empty
  devices : Table DeviceRow.id := .empty
  tokens : Table DeviceTokenRow.id := .empty
  computers : Table ComputerRow.id := .empty

inductive Write where
  | suspension (row : SuspensionRow)
  | code (row : PairingCodeRow)
  | device (row : DeviceRow)
  | token (row : DeviceTokenRow)
  | computer (row : ComputerRow)
  | removeComputer (id : String)
  deriving DecidableEq

/-- A row lock, or the entry of a unique index. -/
inductive Lock where
  | user (id : String)
  | suspension (userId : String)
  | code (id : String)
  | device (id : String)
  | token (id : String)
  | lookup (tokenLookup : String)
  | computer (id : String)
  deriving DecidableEq, Repr

def Write.apply : Write → Database → Database
  | .suspension row, db => { db with suspensions := db.suspensions.put row }
  | .code row, db => { db with codes := db.codes.put row }
  | .device row, db => { db with devices := db.devices.put row }
  | .token row, db => { db with tokens := db.tokens.put row }
  | .computer row, db => { db with computers := db.computers.put row }
  | .removeComputer id, db => { db with computers := db.computers.remove id }

def Write.locks : Write → List Lock
  | .suspension row => [.suspension row.userId]
  | .code row => [.code row.id]
  | .device row => [.device row.id]
  | .token row => [.token row.id, .lookup row.tokenLookup]
  | .computer row => [.computer row.id]
  | .removeComputer id => [.computer id]

instance : Tables Database Write Lock := ⟨Write.apply, Write.locks⟩

inductive AppError where
  | permissionDenied (message : String)
  | validation (message : String)
  | notFound (message : String)
  | conflict (message : String)
  | constraint
  deriving DecidableEq, Repr

/-- A drawn value: random text or an id, and an instant. -/
structure Draw where
  text : String := ""
  instant : Int := 0

abbrev Txn := Tx Database Write Lock Draw AppError

/-- The configuration of the server, and functions of its platform. -/
structure Deployment where
  /-- the keyed digest of a pairing code, with the pepper of the server -/
  hmacSha256Hex : String → String
  sha256Hex : String → String
  toUpperCase : String → String
  toLowerCase : String → String
  ownerEmails : Option (List String) := none
  allowedEmails : Option (List String) := none
  hostedDomain : Option String := none
  pairingTtlMs : Int
  controlTokenTtlMs : Int

def generate : Txn String := return (← Tx.drawn).text

def nowIso : Txn Int := return (← Tx.drawn).instant

def isExpired (expiresAt now : Int) : Bool := expiresAt ≤ now

/-! ## Credentials -/

def Deployment.normalizePairingCode (d : Deployment) (code : String) : String :=
  d.toUpperCase (String.ofList (code.toList.filter fun c => !isTrimmed c && c != '-'))

def Deployment.hashPairingCode (d : Deployment) (code : String) : String :=
  d.hmacSha256Hex (d.normalizePairingCode code)

def deviceTokenPrefix : String := "sk_device_"

def formatDeviceToken (lookup secret : String) : String :=
  deviceTokenPrefix ++ lookup ++ "_" ++ secret

structure ParsedDeviceToken where
  lookup : String
  secret : String
  deriving DecidableEq, Repr

def isLookupChar (c : Char) : Bool := c.isAlphanum || c == '-'

def isSecretChar (c : Char) : Bool := c.isAlphanum || c == '_' || c == '-'

/-- The first underscore after the prefix splits lookup and secret. -/
def parseDeviceToken (raw : String) : Option ParsedDeviceToken := do
  let body ← raw.toList.dropPrefix? deviceTokenPrefix.toList
  let lookup := body.takeWhile (· ≠ '_')
  match body.dropWhile (· ≠ '_') with
  | '_' :: secret =>
    if !lookup.isEmpty && !secret.isEmpty && lookup.all isLookupChar && secret.all isSecretChar then
      some ⟨String.ofList lookup, String.ofList secret⟩
    else none
  | _ => none

def isHexDigit (c : Char) : Bool :=
  c.isDigit || (decide ('a' ≤ c) && decide (c ≤ 'f')) || (decide ('A' ≤ c) && decide (c ≤ 'F'))

/-- `/^[0-9a-f]{64}$/i`. -/
def isHex256 (s : String) : Bool := s.length == 64 && s.toList.all isHexDigit

def constantTimeEqualHex (a b : String) : Bool :=
  isHex256 a && isHex256 b && a.toList.map Char.toLower == b.toList.map Char.toLower

def Deployment.verifyDeviceSecret (d : Deployment) (parsed : ParsedDeviceToken)
    (storedSecretHash : String) : Bool :=
  constantTimeEqualHex (d.sha256Hex parsed.secret) storedSecretHash

/-! ## Members -/

def Deployment.normalizeEmail (d : Deployment) (email : String) : String :=
  d.toLowerCase (trim email)

def Deployment.effectiveTeamRole (d : Deployment) (email storedRole : String) : String :=
  if d.ownerEmails.any (·.contains (d.normalizeEmail email)) then "owner"
  else if d.ownerEmails.isSome && storedRole == "owner" then "member"
  else storedRole

def Deployment.isAllowedTeamEmail (d : Deployment) (email : String) : Bool :=
  d.allowedEmails.all (·.contains (d.normalizeEmail email)) &&
    d.hostedDomain.all fun domain => (d.normalizeEmail email).endsWith ("@" ++ domain)

def isMemberSuspended (userId : String) : Txn Bool :=
  Tx.query fun db => (db.suspensions.get? userId).any (·.reinstatedAt.isNone)

/-- Whether the user exists and is not suspended. The share lock on the user is left out: without it
more interleavings are possible, not fewer. -/
def isActiveMember (userId : String) : Txn Bool := do
  let user ← Tx.query (·.users.get? userId)
  if user.isNone then return false else return !(← isMemberSuspended userId)

def requireActiveMember (userId : String) : Txn Unit := do
  Tx.check (!(← isActiveMember userId))
    (.permissionDenied "This account does not have active access to the team.")

def ownerOrAdmin : AppError := .permissionDenied "an owner or admin is required"

def Deployment.requireAdministrator (d : Deployment) (actor : String) : Txn Unit := do
  let user ← Tx.require (← Tx.query (·.users.get? actor)) ownerOrAdmin
  Tx.check (← isMemberSuspended actor) ownerOrAdmin
  Tx.check (!d.isAllowedTeamEmail user.email) ownerOrAdmin
  let role := d.effectiveTeamRole user.email user.role
  Tx.check (role != "owner" && role != "admin") ownerOrAdmin

end Artoo.Devices
