import Artoo.Devices.Types

/-! The pairing of devices: codes, claims, tokens, enrolment and revocation, and the other writers
of their tables. A call is one transaction; before its transaction it only reads, or makes its one
write and is refused. -/
namespace Artoo.Devices
open Artoo.Lib
open Artoo.Server (trim)

/-- What a call answers. -/
inductive Reply where
  | created (pairing : PairingCodeRow) (code : String)
  | claimed (device : DeviceRow) (controlToken nodeToken : String)
  /-- an expired code is marked, and the claim refused -/
  | invalidPairing
  | resolved (device : Option (String × Option String × DeviceTokenKind))
  | revoked (deviceId : String) (revoked : Bool)
  | enrolled (deviceId computerId : String) (created : Bool)
  | suspended (revokedDeviceIds : List String)
  | done
  deriving DecidableEq, Repr

/-! ## Pairing -/

def Deployment.pairingRow (d : Deployment) (id code createdBy : String)
    (intendedPlatform : Option DevicePlatform) (now : Int) : PairingCodeRow :=
  { id, codeHash := d.hashPairingCode code, createdByUserId := createdBy, intendedPlatform,
    expiresAt := now + d.pairingTtlMs, createdAt := now }

def createPairing (d : Deployment) (actor createdBy : String)
    (intendedPlatform : Option DevicePlatform) : Txn Reply := do
  let found ← Tx.query (·.users.get? actor)
  Tx.check (createdBy != actor || found.isNone)
    (.permissionDenied "pairing codes must belong to the current team member")
  let code ← generate
  let now ← nowIso
  let id ← generate
  let row := d.pairingRow id code createdBy intendedPlatform now
  requireActiveMember createdBy
  Tx.add (fun db => (db.codes.get? id).isSome) (.code row) .constraint
  return .created row code

def invalidPairing : AppError := .validation "invalid or expired pairing code"

/-- The raw token, its lookup and the digest of its secret. -/
structure GeneratedDeviceToken where
  raw : String
  lookup : String
  secretHash : String

def Deployment.generateDeviceToken (d : Deployment) : Txn GeneratedDeviceToken := do
  let lookup ← generate
  let secret ← generate
  return { raw := formatDeviceToken lookup secret, lookup, secretHash := d.sha256Hex secret }

def Deployment.tokenRow (d : Deployment) (id deviceId : String) (kind : DeviceTokenKind)
    (token : GeneratedDeviceToken) (now : Int) : DeviceTokenRow :=
  { id, deviceId, kind, tokenLookup := token.lookup, tokenHash := token.secretHash, createdAt := now
    expiresAt := if kind = .controlSession then some (now + d.controlTokenTtlMs) else none }

def Deployment.buildTokenRow (d : Deployment) (deviceId : String) (kind : DeviceTokenKind)
    (token : GeneratedDeviceToken) (now : Int) : Txn DeviceTokenRow :=
  return d.tokenRow (← generate) deviceId kind token now

def insertToken (row : DeviceTokenRow) : Txn Unit :=
  Tx.add (fun db => db.tokens.rows.any fun t => t.id == row.id || t.tokenLookup == row.tokenLookup)
    (.token row) .constraint

/-- `update … where id = … and status = 'pending' returning …`. -/
def updatePending (id : String) (set : PairingCodeRow → PairingCodeRow) :
    Txn (List PairingCodeRow) :=
  Tx.change (fun db => ((db.codes.get? id).filter (·.status == .pending)).toList) fun row =>
    .code (set row)

def PairingCodeRow.claimedBy (row : PairingCodeRow) (deviceId : String) (now : Int) :
    PairingCodeRow :=
  { row with status := .claimed, claimedByDeviceId := some deviceId, claimedAt := some now }

structure ClaimPairingInput where
  code : String
  platform : DevicePlatform
  appVersion : String
  displayName : String

def ClaimPairingInput.device (input : ClaimPairingInput) (id : String) (existing : PairingCodeRow)
    (now : Int) : DeviceRow :=
  { id, displayName := trim input.displayName, platform := input.platform
    appVersion := trim input.appVersion, enrolledByUserId := existing.createdByUserId
    createdAt := now }

/-- The transaction of a claim. -/
def claimInTx (d : Deployment) (input : ClaimPairingInput) (existing : PairingCodeRow) (now : Int) :
    Txn Reply := do
  Tx.check (!(← isActiveMember existing.createdByUserId)) invalidPairing
  let id ← generate
  let device := input.device id existing now
  Tx.add (fun db => (db.devices.get? id).isSome) (.device device) .constraint
  let claimed ← updatePending existing.id fun row => row.claimedBy id now
  Tx.check claimed.isEmpty invalidPairing
  let control ← d.generateDeviceToken
  let node ← d.generateDeviceToken
  let controlRow ← d.buildTokenRow id .controlSession control now
  let nodeRow ← d.buildTokenRow id .node node now
  insertToken controlRow
  insertToken nodeRow
  return .claimed device control.raw node.raw

/-- The select takes any row of the digest. -/
def claimPairing (d : Deployment) (input : ClaimPairingInput) : Txn Reply := do
  Tx.check ((trim input.displayName).isEmpty || (trim input.appVersion).isEmpty)
    (.validation "display_name and app_version are required")
  let now ← nowIso
  let hash := d.hashPairingCode input.code
  let rows ← Tx.query fun db => db.codes.select fun row => row.codeHash == hash
  let choice ← generate
  let existing ← Tx.require ((rows.find? (·.id == choice)).or rows.head?) invalidPairing
  Tx.check (existing.status != .pending) invalidPairing
  if isExpired existing.expiresAt now then
    let _ ← updatePending existing.id fun row => { row with status := .expired }
    return .invalidPairing
  else
    Tx.check (existing.intendedPlatform.any (· != input.platform)) invalidPairing
    claimInTx d input existing now

/-! ## Resolution -/

/-- A token that may resolve: of the kind, active, with the secret, not expired. -/
def Deployment.presents (d : Deployment) (token : DeviceTokenRow) (parsed : ParsedDeviceToken)
    (kind : DeviceTokenKind) (now : Int) : Bool :=
  token.kind == kind && token.status == .active && token.revokedAt.isNone &&
    d.verifyDeviceSecret parsed token.tokenHash && !token.expiresAt.any (isExpired · now)

def DeviceRow.trusted (device : DeviceRow) : Bool :=
  device.trust == .active && device.revokedAt.isNone

def resolveFound (device : DeviceRow) (kind : DeviceTokenKind) : Txn Reply := do
  if ← isMemberSuspended device.enrolledByUserId then return .resolved none
  else return .resolved (some (device.id, device.computerId, kind))

def resolveToken (d : Deployment) (parsed : ParsedDeviceToken) (kind : DeviceTokenKind) :
    Txn Reply := do
  let token ← Tx.query fun db => db.tokens.rows.find? fun t => t.tokenLookup == parsed.lookup
  let now ← nowIso
  match token.filter fun t => d.presents t parsed kind now with
  | none => return .resolved none
  | some token =>
    let device ← Tx.query (·.devices.get? token.deviceId)
    match device.filter DeviceRow.trusted with
    | none => return .resolved none
    | some device => resolveFound device token.kind

def resolveDeviceToken (d : Deployment) (raw : String) (kind : DeviceTokenKind) : Txn Reply :=
  match parseDeviceToken raw with
  | none => return .resolved none
  | some parsed => resolveToken d parsed kind

/-! ## Revocation -/

def DeviceRow.revoke (device : DeviceRow) (now : Int) : DeviceRow :=
  { device with trust := .revoked, revokedAt := some now }

def DeviceTokenRow.revoke (token : DeviceTokenRow) (now : Int) : DeviceTokenRow :=
  { token with status := .revoked, revokedAt := some now }

def revokeActive (deviceId : String) (now : Int) : Txn Reply := do
  let _ ← Tx.change (fun db => (db.devices.get? deviceId).toList) fun row =>
    .device (row.revoke now)
  let _ ← Tx.change
    (fun db => db.tokens.select fun t => t.deviceId == deviceId && t.status == .active) fun t =>
    .token (t.revoke now)
  return .revoked deviceId true

def revokeDevice (deviceId : String) : Txn Reply := do
  let now ← nowIso
  let device ← Tx.require (← Tx.query (·.devices.get? deviceId))
    (.notFound s!"device not found: {deviceId}")
  if device.trust = .revoked then return .revoked deviceId false
  else revokeActive deviceId now

/-! ## Enrolment -/

structure EnrollDeviceComputerInput where
  deviceId : String
  displayName : Option String := none
  hostname : Option String := none
  os : Option String := none
  arch : Option String := none

/-- `text?.trim() || fallback`. -/
def orElse (text : Option String) (fallback : String) : String :=
  ((text.map trim).filter (!·.isEmpty)).getD fallback

def EnrollDeviceComputerInput.computer (input : EnrollDeviceComputerInput) (id : String)
    (device : DeviceRow) (now : Int) : ComputerRow :=
  { id, displayName := orElse input.displayName device.displayName
    hostname := orElse input.hostname device.displayName
    os := orElse input.os device.platform.name, arch := orElse input.arch "unknown"
    createdAt := now }

def winner (deviceId : String) : Txn Reply := do
  let winner ← Tx.query (·.devices.get? deviceId)
  let winnerId ← Tx.require (winner.bind (·.computerId))
    (.conflict s!"device enrollment race left no computer: {deviceId}")
  return .enrolled deviceId winnerId false

/-- The call that finds `computer_id` null links its candidate; another removes it. -/
def linkComputer (deviceId computerId : String) : Txn Reply := do
  let linked ← Tx.change
    (fun db => ((db.devices.get? deviceId).filter (·.computerId.isNone)).toList)
    fun row => .device { row with computerId := some computerId }
  if linked.isEmpty then
    let _ ← Tx.change (fun db => (db.computers.get? computerId).toList) fun row =>
      .removeComputer row.id
    winner deviceId
  else return .enrolled deviceId computerId true

def enrollInTx (input : EnrollDeviceComputerInput) (device : DeviceRow) (now : Int) :
    Txn Reply := do
  let id ← generate
  Tx.add (fun db => (db.computers.get? id).isSome) (.computer (input.computer id device now))
    .constraint
  linkComputer device.id id

def enrollDeviceComputer (d : Deployment) (actor : String) (input : EnrollDeviceComputerInput) :
    Txn Reply := do
  d.requireAdministrator actor
  let now ← nowIso
  let device ← Tx.require (← Tx.query (·.devices.get? input.deviceId))
    (.notFound s!"device not found: {input.deviceId}")
  Tx.check (device.trust != .active) (.conflict s!"device is revoked: {input.deviceId}")
  Tx.check (device.platform != .windows && device.platform != .macos) (.validation
    (s!"device platform {device.platform.name} cannot host a local node; " ++
      "mobile clients are remote control surfaces"))
  match device.computerId with
  | some computerId => return .enrolled device.id computerId false
  | none => enrollInTx input device now

/-! ## Other writers of the tables -/

def suspendMember (actor userId reason : String) (now : Int) : Txn Reply := do
  let _ ← Tx.change (fun _ => [()]) fun _ => .suspension
    { userId, suspendedByUserId := actor, reason := trim reason, suspendedAt := now }
  let owned ← Tx.query fun db => db.devices.select fun row => row.enrolledByUserId == userId
  let ids := owned.map (·.id)
  let _ ← Tx.change (fun db => db.devices.select fun row => ids.contains row.id) fun row =>
    .device (row.revoke now)
  let _ ← Tx.change (fun db => db.tokens.select fun t => ids.contains t.deviceId) fun t =>
    .token (t.revoke now)
  let _ ← Tx.change (fun db => db.codes.select fun row =>
    row.createdByUserId == userId && row.status == .pending) fun row =>
    .code { row with status := .expired }
  return .suspended ids

def reinstateMember (userId : String) (now : Int) : Txn Reply := do
  let _ ← Tx.change (fun db => (db.suspensions.get? userId).toList) fun row =>
    .suspension { row with reinstatedAt := some now }
  return .suspended []

def setMemberSuspension (d : Deployment) (actor userId : String) (suspended : Bool)
    (reason : String) : Txn Reply := do
  Tx.check (actor == userId)
    (.permissionDenied "You cannot suspend or reinstate your own account.")
  Tx.check ((trim reason).isEmpty || 1000 < Server.utf16Length reason)
    (.validation "Provide a reason of 1–1000 characters.")
  d.requireAdministrator actor
  let targets ← Tx.queryForUpdate (fun db => (db.users.get? userId).toList) fun row => .user row.id
  let target ← Tx.require targets.head? (.notFound "Member not found in this team.")
  let acting ← Tx.query (·.users.get? actor)
  Tx.check (d.effectiveTeamRole target.email target.role != "member" &&
    !acting.any fun row => d.effectiveTeamRole row.email row.role == "owner")
    (.permissionDenied "Only a team owner can change an administrator's access.")
  let now ← nowIso
  if suspended then suspendMember actor userId reason now else reinstateMember userId now

def revokeControlSession (tokenId : String) : Txn Reply := do
  let now ← nowIso
  let _ ← Tx.change
    (fun db => ((db.tokens.get? tokenId).filter (·.kind == .controlSession)).toList) fun t =>
    .token (t.revoke now)
  return .done

/-- The write of `recordDeviceActivity`. -/
def recordDeviceActivity (deviceId : String) : Txn Reply := do
  let now ← nowIso
  let _ ← Tx.change (fun db => (db.devices.get? deviceId).toList) fun row =>
    .device { row with lastSeenAt := some now }
  return .done

def updatePresence (nodeId : String) (patch : ComputerRow → ComputerRow) : Txn Reply := do
  let _ ← Tx.change (fun db => (db.computers.get? nodeId).toList) fun row =>
    .computer { patch row with id := row.id }
  return .done

/-! ## Calls -/

inductive Call where
  | createPairing (actor createdBy : String) (intendedPlatform : Option DevicePlatform)
  | claimPairing (input : ClaimPairingInput)
  | resolveDeviceToken (raw : String) (kind : DeviceTokenKind)
  | revokeDevice (deviceId : String)
  | enrollDeviceComputer (actor : String) (input : EnrollDeviceComputerInput)
  | setMemberSuspension (actor userId : String) (suspended : Bool) (reason : String)
  | revokeControlSession (tokenId : String)
  | recordDeviceActivity (deviceId : String)
  | updatePresence (nodeId : String) (patch : ComputerRow → ComputerRow)

def Call.program (d : Deployment) : Call → Txn Reply
  | .createPairing actor createdBy platform => Devices.createPairing d actor createdBy platform
  | .claimPairing input => Devices.claimPairing d input
  | .resolveDeviceToken raw kind => Devices.resolveDeviceToken d raw kind
  | .revokeDevice deviceId => Devices.revokeDevice deviceId
  | .enrollDeviceComputer actor input => Devices.enrollDeviceComputer d actor input
  | .setMemberSuspension actor userId suspended reason =>
    Devices.setMemberSuspension d actor userId suspended reason
  | .revokeControlSession tokenId => Devices.revokeControlSession tokenId
  | .recordDeviceActivity deviceId => Devices.recordDeviceActivity deviceId
  | .updatePresence nodeId patch => Devices.updatePresence nodeId patch

end Artoo.Devices
