import Artoo.Members.Types

/-! Suspension, sign-in, pairing and the consents to AI data sharing. A call is one transaction;
before its transaction it only reads, or makes its one write and is refused. -/
namespace Artoo.Members
open Artoo.Lib
open Artoo.Devices (Deployment DevicePlatform ClaimPairingInput PairingCodeRow)
open Artoo.Server (trim)

/-! ## Sessions -/

def sessionTokenPrefix : String := "sk_session_"

structure CreatedSession where
  raw : String
  sessionId : String
  expiresAt : Int
  deriving DecidableEq, Repr

def sessionRow (id userId lookup secretHash : String) (now ttlMs : Int) : SessionRow :=
  { id, userId, tokenLookup := lookup, tokenHash := secretHash, createdAt := now
    expiresAt := now + ttlMs }

def createSession (d : Deployment) (ttlMs : Int) (userId : String) : Txn CreatedSession := do
  let lookup ← generate
  let secret ← generate
  let id ← generate
  let now ← nowIso
  requireActiveMember userId
  Tx.add
    (fun st => st.sessions.rows.any fun s => s.id == id || s.tokenLookup == lookup)
    (.session (sessionRow id userId lookup (d.sha256Hex secret) now ttlMs)) (.core .constraint)
  return ⟨sessionTokenPrefix ++ lookup ++ "_" ++ secret, id, now + ttlMs⟩

/-! ## Pairing -/

def createPairing (d : Deployment) (actor createdBy : String)
    (intendedPlatform : Option DevicePlatform) : Txn (PairingCodeRow × String) := do
  let found ← Tx.query (·.core.users.get? actor)
  Tx.check (createdBy != actor || found.isNone)
    (.core (.permissionDenied "pairing codes must belong to the current team member"))
  let code ← generate
  let now ← nowIso
  let id ← generate
  let row := d.pairingRow id code createdBy intendedPlatform now
  requireActiveMember createdBy
  Tx.add (fun st => (st.core.codes.get? id).isSome) (.core (.code row)) (.core .constraint)
  return (row, code)

def invalidPairing : AppError := .core Devices.invalidPairing

/-- `update … where id = … and status = 'pending' returning …`. -/
def updatePending (id : String) (set : PairingCodeRow → PairingCodeRow) :
    Txn (List PairingCodeRow) :=
  Tx.change (fun st => ((st.core.codes.get? id).filter (·.status == .pending)).toList) fun row =>
    .core (.code (set row))

def insertToken (row : Devices.DeviceTokenRow) : Txn Unit :=
  Tx.add (fun st => st.core.tokens.rows.any fun t =>
    t.id == row.id || t.tokenLookup == row.tokenLookup) (.core (.token row)) (.core .constraint)

/-- The transaction of a claim. -/
def claimInTx (d : Deployment) (input : ClaimPairingInput) (existing : PairingCodeRow) (now : Int) :
    Txn Devices.Reply := do
  Tx.check (!(← isActiveMember existing.createdByUserId)) invalidPairing
  let id ← generate
  let device := input.device id existing now
  Tx.add (fun st => (st.core.devices.get? id).isSome) (.core (.device device)) (.core .constraint)
  let claimed ← updatePending existing.id fun row => row.claimedBy id now
  Tx.check claimed.isEmpty invalidPairing
  let control ← core d.generateDeviceToken
  let node ← core d.generateDeviceToken
  let controlRow ← core (d.buildTokenRow id .controlSession control now)
  let nodeRow ← core (d.buildTokenRow id .node node now)
  insertToken controlRow
  insertToken nodeRow
  return .claimed device control.raw node.raw

/-- The select takes any row of the digest. -/
def claimPairing (d : Deployment) (input : ClaimPairingInput) : Txn Devices.Reply := do
  Tx.check ((trim input.displayName).isEmpty || (trim input.appVersion).isEmpty)
    (.core (.validation "display_name and app_version are required"))
  let now ← nowIso
  let hash := d.hashPairingCode input.code
  let rows ← Tx.query fun st => st.core.codes.select fun row => row.codeHash == hash
  let choice ← generate
  let existing ← Tx.require ((rows.find? (·.id == choice)).or rows.head?) invalidPairing
  Tx.check (existing.status != .pending) invalidPairing
  if Devices.isExpired existing.expiresAt now then
    let _ ← updatePending existing.id fun row => { row with status := .expired }
    return .invalidPairing
  else
    Tx.check (existing.intendedPlatform.any (· != input.platform)) invalidPairing
    claimInTx d input existing now

/-! ## Consents -/

inductive PolicyMode where
  | local_ | external
  deriving DecidableEq, Repr

structure AiDataSharingPolicy where
  version : String
  mode : PolicyMode
  deriving DecidableEq, Repr

def configuredPolicy (policy : Option AiDataSharingPolicy) : Txn AiDataSharingPolicy :=
  Tx.require policy (.aiSharingUnconfigured
    "Your team operator must disclose the AI providers before agent work can start.")

def consentRequired : AppError := .aiConsentRequired
  "Review and allow your team's AI data sharing before requesting agent work."

def activeConsents (userId : String) (st : Store) : List ConsentRow :=
  st.consents.select fun row => row.userId == userId && row.revokedAt.isNone

def activeGrant (userId : String) : Txn (Option ConsentRow) :=
  Tx.query fun st => (activeConsents userId st).head?

/-- The grant and the policy version that work is created under, or has to be under. -/
structure AiSharingAuthorization where
  consentId : Option String
  policyVersion : Option String
  deriving DecidableEq, Repr

/-- What the policy allows, given the active grant. -/
def authorize (policy : AiDataSharingPolicy) (grant : Option ConsentRow)
    (expected : Option AiSharingAuthorization) : Except AppError AiSharingAuthorization :=
  match policy.mode with
  | .local_ =>
    if expected.any fun e =>
        e.consentId.isSome || (e.policyVersion.isSome && e.policyVersion != some policy.version) then
      .error consentRequired
    else .ok ⟨none, some policy.version⟩
  | .external =>
    match grant with
    | none => .error consentRequired
    | some grant =>
      if grant.policyVersion != policy.version then .error consentRequired
      else if expected.any fun e =>
          e.consentId != some grant.id || e.policyVersion != some policy.version then
        .error consentRequired
      else .ok ⟨some grant.id, some policy.version⟩

def requireAiSharingAuthorization (policy : Option AiDataSharingPolicy) (userId : String)
    (expected : Option AiSharingAuthorization) : Txn AiSharingAuthorization := do
  let policy ← configuredPolicy policy
  requireActiveMember userId
  let grant ← match policy.mode with
    | .local_ => pure none
    | .external => activeGrant userId
  Tx.ofResult (authorize policy grant expected)

/-- `update … set revoked_at = … where user_id = … and revoked_at is null`. -/
def revokeConsents (userId : String) (now : Int) : Txn (List ConsentRow) :=
  Tx.change (activeConsents userId) fun row => .consent { row with revokedAt := some now }

def insertConsent (row : ConsentRow) : Txn Unit :=
  Tx.add (fun st => (st.consents.get? row.id).isSome || !(activeConsents row.userId st).isEmpty)
    (.consent row) (.core .constraint)

def notOfTeam : AppError := .core (.permissionDenied "The account does not belong to this team.")

def replaceGrant (policy : AiDataSharingPolicy) (actor : String) : Txn Unit := do
  let now ← nowIso
  let _ ← revokeConsents actor now
  let id ← generate
  insertConsent { id, userId := actor, policyVersion := policy.version, grantedAt := now }

def grantAiDataSharingConsent (policy : Option AiDataSharingPolicy) (actor version : String) :
    Txn Unit := do
  let policy ← configuredPolicy policy
  Tx.check (policy.mode != .external) (.invalidState
    "The team has declared local-only processing; no external AI consent is needed.")
  Tx.check (version != policy.version) (.core (.conflict
    "The AI disclosure changed. Review its current providers before allowing sharing."))
  let rows ← lockUser actor
  Tx.check rows.isEmpty notOfTeam
  let current ← activeGrant actor
  if current.any (·.policyVersion == policy.version) then return ()
  else replaceGrant policy actor

def revokeAiDataSharingConsent (actor : String) : Txn Unit := do
  let rows ← lockUser actor
  Tx.check rows.isEmpty notOfTeam
  let now ← nowIso
  let _ ← revokeConsents actor now

/-! ## Suspension -/

/-- The sweep of a suspension; yields the devices it revokes. -/
def suspendMember (actor userId reason : String) (now : Int) : Txn (List String) := do
  let _ ← Tx.change (fun _ => [()]) fun _ => .core (.suspension
    { userId, suspendedByUserId := actor, reason := trim reason, suspendedAt := now })
  let owned ← Tx.query fun st => st.core.devices.select fun row => row.enrolledByUserId == userId
  let ids := owned.map (·.id)
  let _ ← Tx.change (fun st => st.core.devices.select fun row => ids.contains row.id) fun row =>
    .core (.device (row.revoke now))
  let _ ← Tx.change (fun st => st.core.tokens.select fun t => ids.contains t.deviceId) fun t =>
    .core (.token (t.revoke now))
  let _ ← Tx.change (fun st => st.sessions.select fun s => s.userId == userId && s.revokedAt.isNone)
    fun s => .session { s with revokedAt := some now }
  let _ ← Tx.change (fun st => st.core.codes.select fun row =>
    row.createdByUserId == userId && row.status == .pending) fun row =>
    .core (.code { row with status := .expired })
  let _ ← revokeConsents userId now
  return ids

def reinstateMember (userId : String) (now : Int) : Txn (List String) := do
  let _ ← Tx.change (fun st => (st.core.suspensions.get? userId).toList) fun row =>
    .core (.suspension { row with reinstatedAt := some now })
  return []

def setMemberSuspension (d : Deployment) (actor userId : String) (suspended : Bool)
    (reason : String) : Txn (List String) := do
  Tx.check (actor == userId)
    (.core (.permissionDenied "You cannot suspend or reinstate your own account."))
  Tx.check ((trim reason).isEmpty || 1000 < Server.utf16Length reason)
    (.core (.validation "Provide a reason of 1–1000 characters."))
  requireAdministrator d actor
  let targets ← lockUser userId
  let target ← Tx.require targets.head? (.core (.notFound "Member not found in this team."))
  let acting ← Tx.query (·.core.users.get? actor)
  Tx.check (d.effectiveTeamRole target.email target.role != "member" &&
    !acting.any fun row => d.effectiveTeamRole row.email row.role == "owner")
    (.core (.permissionDenied "Only a team owner can change an administrator's access."))
  let now ← nowIso
  if suspended then suspendMember actor userId reason now else reinstateMember userId now

/-! ## Runs -/

/-- What an assignment does with the consent: the member's, or with a turn the one the turn was
asked under. `refused` is any other refusal. -/
def assignTask (policy : Option AiDataSharingPolicy) (actor : String)
    (turn : Option AiSharingAuthorization) (refused : Option AppError) : Txn RunRow := do
  let sharing ← requireAiSharingAuthorization policy actor none
  let sharing ← match turn with
    | none => pure sharing
    | some turn => requireAiSharingAuthorization policy actor (some turn)
  Tx.ofResult (match refused with | some e => .error e | none => .ok ())
  let id ← generate
  let row : RunRow :=
    { id, requestedByUserId := actor, aiDataSharingConsentId := sharing.consentId
      aiDataSharingPolicyVersion := sharing.policyVersion }
  Tx.add (fun st => (st.runs.get? id).isSome) (.run row) (.core .constraint)
  return row

/-! ## Calls -/

inductive Call where
  | setMemberSuspension (actor userId : String) (suspended : Bool) (reason : String)
  | createSession (ttlMs : Int) (userId : String)
  | createPairing (actor createdBy : String) (intendedPlatform : Option DevicePlatform)
  | claimPairing (input : ClaimPairingInput)
  | grantConsent (policy : Option AiDataSharingPolicy) (actor version : String)
  | revokeConsent (actor : String)
  | assignTask (policy : Option AiDataSharingPolicy) (actor : String)
      (turn : Option AiSharingAuthorization) (refused : Option AppError)

def Call.program (d : Deployment) : Call → Txn Unit
  | .setMemberSuspension actor userId suspended reason => do
    let _ ← Members.setMemberSuspension d actor userId suspended reason
  | .createSession ttlMs userId => do
    let _ ← Members.createSession d ttlMs userId
  | .createPairing actor createdBy platform => do
    let _ ← Members.createPairing d actor createdBy platform
  | .claimPairing input => do
    let _ ← Members.claimPairing d input
  | .grantConsent policy actor version => grantAiDataSharingConsent policy actor version
  | .revokeConsent actor => revokeAiDataSharingConsent actor
  | .assignTask policy actor turn refused => do
    let _ ← Members.assignTask policy actor turn refused

/-- A database with the calls that are going on. -/
abbrev Members := World Call Store Write Lock Devices.Draw AppError Unit

end Artoo.Members
