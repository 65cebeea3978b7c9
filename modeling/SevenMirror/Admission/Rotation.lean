import SevenMirror.Admission.Operations
import SevenMirror.Lib.Machine

/-! The rotations of `internal/admission/store.go`: of the authority of a workspace, and of the
credential of a device.  `Call` gathers the calls that change the registry. -/

namespace SevenMirror.Admission

open Lib MembershipCodec

variable (crypto : Crypto)

/-! ### The authority of a workspace -/

structure RotateWorkspaceAuthorityInput where
  workspaceID : WorkspaceID
  previousAuthorityPrivateKey : Bytes
  newAuthorityPrivateKey : Bytes
  now : Time

structure RotatedWorkspaceAuthority where
  authorityEpoch : Nat
  transitionDigest : Bytes
  rosterEpoch : Nat
  rosterDigest : Bytes
  signedTransition : Bytes

/-- The certificate that the new authority issues for an active one. -/
def reissuedCertificate (certificate : DeviceCertificate) (now : Time) (epoch : Nat) :
    DeviceCertificate :=
  { certificate with
    issuedAtUnixMs := unixMillisUnsigned now
    membershipEpoch := UInt64.ofNat epoch }

/-- The loop that reissues the active certificates and stores them with their devices. -/
def reissueCertificates (input : RotateWorkspaceAuthorityInput) (epoch : Nat) :
    List SignedDeviceCertificate → Table Device.id →
      Except RegistryError (Table Device.id × List SignedDeviceCertificate)
  | [], devices => return (devices, [])
  | old :: rest, devices => do
    let new ← rethrow .codec (signDeviceCertificate crypto
      (reissuedCertificate old.body input.now epoch) input.newAuthorityPrivateKey)
    let encoded ← rethrow .codec
      (encodeSignedDeviceCertificate crypto new (publicKey input.newAuthorityPrivateKey))
    let certificateID ← require (Block.check 32 new.certificateId) .constraint
    let chosen (d : Device) : Bool :=
      d.id.bytes = old.body.deviceId ∧ d.certificateID.map (·.bytes) = some old.certificateId ∧
        d.membershipState = .approved ∧ d.revokedAtMs = none
    reject (devices.affected chosen ≠ 1) .activeMismatch
    let devices := devices.update chosen
      (fun d => { d with
        certificateID := some certificateID, signedCertificate := some encoded
        approvedAtMs := some (unixMillis input.now) }) (fun _ _ => rfl)
    let (devices, active) ← reissueCertificates input epoch rest devices
    return (devices, new :: active)

def rotationTransition (w : Workspace) (previous : SignedWorkspaceRoster)
    (input : RotateWorkspaceAuthorityInput) : AuthorityKeyTransition where
  protocolVersion := protocolVersion
  workspaceId := w.id.bytes
  transitionEpoch := UInt64.ofNat (w.authorityEpoch + 1)
  previousTransitionDigest := w.authorityTransitionDigest.bytes
  previousAuthorityPublicKey := publicKey input.previousAuthorityPrivateKey
  newAuthorityPublicKey := publicKey input.newAuthorityPrivateKey
  activationRosterEpoch := UInt64.ofNat (nextDraft previous).epoch
  previousRosterDigest := previous.rosterDigest
  issuedAtUnixMs := unixMillisUnsigned input.now

/-- `INSERT INTO workspace_authority_transitions`. -/
def insertAuthorityTransition (w : Workspace) (transition : SignedAuthorityKeyTransition)
    (activationEpoch : Nat) (newKey : Block 32) (encoded : Bytes) (now : Time) :
    Except RegistryError Workspace := do
  let digest ← require (Block.check 32 transition.transitionDigest) .constraint
  reject (w.transitions.rows.any fun r => r.digest = digest) .constraint
  let transitions ← require (w.transitions.insert
    { epoch := w.authorityEpoch + 1, digest, previousDigest := w.authorityTransitionDigest
      previousAuthorityPublicKey := w.authorityPublicKey, newAuthorityPublicKey := newKey
      activationRosterEpoch := activationEpoch, signedTransition := encoded
      createdAtMs := unixMillis now }) .constraint
  return { w with transitions }

/-- `UPDATE workspaces` to the new authority.  The row is the one that the transaction read. -/
def activateAuthority (w : Workspace) (transition : SignedAuthorityKeyTransition)
    (newKey : Block 32) : Except RegistryError Workspace := do
  let digest ← require (Block.check 32 transition.transitionDigest) .constraint
  return { w with
    authorityPublicKey := newKey, authorityEpoch := w.authorityEpoch + 1
    authorityTransitionDigest := digest }

/-- The transaction of `RotateWorkspaceAuthority`. -/
def rotateAuthority (w : Workspace) (input : RotateWorkspaceAuthorityInput) :
    Except RegistryError (Workspace × RotatedWorkspaceAuthority) := do
  reject (w.authorityPublicKey.bytes ≠ publicKey input.previousAuthorityPrivateKey)
    .workspaceAuthorityUnavailable
  reject (w.authorityEpoch = maxInt64) .authorityEpochExhausted
  let row ← require (latestRoster w.rosters.rows) .rosterRequired
  let previous ← rethrow .codec (decodeSignedWorkspaceRoster crypto row.signedRoster
    (publicKey input.previousAuthorityPrivateKey))
  reject (previous.body.rosterEpoch ≥ maxEpoch) .rosterEpochExhausted
  let draft := nextDraft previous
  let transition ← rethrow .codec (signAuthorityKeyTransition crypto
    (rotationTransition w previous input) input.previousAuthorityPrivateKey
    input.newAuthorityPrivateKey)
  let transitionEncoded ← rethrow .codec (encodeSignedAuthorityKeyTransition crypto transition)
  let (devices, active) ← reissueCertificates crypto input draft.epoch draft.activeCertificates
    w.devices
  let roster ← rethrow .codec (signWorkspaceRoster crypto
    (rosterOf w draft active draft.revocations []) input.newAuthorityPrivateKey)
  let rosterEncoded ← rethrow .codec
    (encodeSignedWorkspaceRoster crypto roster (publicKey input.newAuthorityPrivateKey))
  let newKey ← require (Block.check 32 (publicKey input.newAuthorityPrivateKey)) .constraint
  let w₁ ← insertAuthorityTransition { w with devices } transition draft.epoch newKey
    transitionEncoded input.now
  let w₂ ← insertWorkspaceRoster w₁ draft.epoch draft.previousDigest roster rosterEncoded input.now
  let w₃ ← activateAuthority w₂ transition newKey
  return (w₃, ⟨w₃.authorityEpoch, transition.transitionDigest, draft.epoch, roster.rosterDigest,
    transitionEncoded⟩)

def rotateWorkspaceAuthority (s : Registry) (input : RotateWorkspaceAuthorityInput) :
    Except RegistryError (Registry × RotatedWorkspaceAuthority) := do
  reject (input.previousAuthorityPrivateKey.length ≠ ed25519PrivateKeySize ∨
    input.newAuthorityPrivateKey.length ≠ ed25519PrivateKeySize ∨ input.now.isZero)
    .rotationArguments
  reject (publicKey input.previousAuthorityPrivateKey = publicKey input.newAuthorityPrivateKey)
    .sameAuthority
  let w ← require (s.find input.workspaceID) .workspaceAuthorityUnavailable
  let (w', rotated) ← rotateAuthority crypto w input
  return (s.put w', rotated)

/-! ### The credential of a device -/

structure IssueRotationCode where
  workspaceID : WorkspaceID
  reference : Bytes
  now : Time
  ttl : Int
  secret : Block 24

def issueCredentialRotationCode (s : Registry) (input : IssueRotationCode) :
    Except RegistryError (Registry × Bytes) := do
  reject (input.ttl ≤ 0 ∨ input.ttl > day) .rotationLifetime
  let w ← require (s.find input.workspaceID) .deviceNotFound
  let deviceID ← resolveDeviceReference crypto w input.reference
  reject (¬ w.devices.rows.any fun d =>
    d.id = deviceID ∧ d.revokedAtMs = none ∧ d.membershipState = .approved) .deviceNotFound
  let rotationCodes ← require (s.rotationCodes.insert
    { codeHash := crypto.sha256 input.secret.bytes, workspaceID := w.id, deviceID
      createdAtMs := unixMillis input.now
      expiresAtMs := unixMillis ⟨input.now.nanos + input.ttl⟩ }) .constraint
  return ({ s with rotationCodes }, encodeBase64URL input.secret.bytes)

structure CredentialRotation where
  workspaceID : WorkspaceID
  deviceID : DeviceID
  currentAuthToken : Bytes
  rotationCode : Bytes
  pendingAuthToken : Bytes
  now : Time

/-- Another device than this one has the token. -/
def Registry.tokenTakenBesides (s : Registry) (workspaceID : WorkspaceID) (deviceID : DeviceID)
    (hash : Block 32) : Bool :=
  s.workspaces.rows.any fun w => w.devices.rows.any fun d =>
    d.authTokenHash = hash ∧ ¬ (w.id = workspaceID ∧ d.id = deviceID)

def rotateCredential (s : Registry) (input : CredentialRotation) :
    Except RegistryError (Registry × Nat) := do
  reject (input.currentAuthToken.length ≠ authTokenBytes ∨
    input.pendingAuthToken.length ≠ authTokenBytes ∨
    input.currentAuthToken = input.pendingAuthToken) .invalidRotation
  let secret ← require (decodeBase64URL input.rotationCode) .invalidRotation
  reject (secret.length ≠ rotationSecretBytes ∨ encodeBase64URL secret ≠ input.rotationCode)
    .invalidRotation
  let codeHash := crypto.sha256 secret
  let currentHash := crypto.sha256 input.currentAuthToken
  let pendingHash := crypto.sha256 input.pendingAuthToken
  let nowMillis := unixMillis input.now
  let code ← require (s.rotationCodes.find codeHash) .invalidRotation
  let w ← require (s.find code.workspaceID) .invalidRotation
  let device ← require (w.devices.find code.deviceID) .invalidRotation
  reject (code.consumedAtMs.isSome ∨ device.revokedAtMs.isSome ∨ code.expiresAtMs ≤ nowMillis ∨
    code.workspaceID ≠ input.workspaceID ∨ code.deviceID ≠ input.deviceID ∨
    device.authTokenHash ≠ currentHash ∨ device.credentialVersion < 1) .invalidRotation
  let usable (c : RotationCode) : Bool :=
    c.codeHash = codeHash ∧ c.consumedAtMs = none ∧ c.expiresAtMs > nowMillis
  reject (s.rotationCodes.affected usable ≠ 1) .invalidRotation
  let rotationCodes := s.rotationCodes.update usable
    (fun c => { c with consumedAtMs := some nowMillis }) (fun _ _ => rfl)
  let chosen (d : Device) : Bool :=
    d.id = input.deviceID ∧ d.authTokenHash = currentHash ∧
      d.credentialVersion = device.credentialVersion ∧ d.revokedAtMs = none ∧
      d.membershipState = .approved
  reject (s.tokenTakenBesides input.workspaceID input.deviceID pendingHash) .constraint
  reject (w.devices.affected chosen ≠ 1) .invalidRotation
  let devices := w.devices.update chosen
    (fun d => { d with
      authTokenHash := pendingHash, credentialVersion := d.credentialVersion + 1 })
    (fun _ _ => rfl)
  return ({ s with rotationCodes }.put { w with devices }, device.credentialVersion + 1)

/-! ### Calls -/

inductive Call
  | createWorkspace (authorityPublicKey : Block 32) (now : Time) (id : WorkspaceID)
  | issuePairingCode (input : IssuePairingCode)
  | registerPending (input : Registration)
  | completePendingIdentityProof (input : PendingIdentityProof)
  | approvePendingMembership (input : ApprovePendingDevice)
  | renameDevice (input : RenameDeviceInput)
  | revokeDevice (input : RevokeDeviceInput)
  | rotateWorkspaceAuthority (input : RotateWorkspaceAuthorityInput)
  | issueCredentialRotationCode (input : IssueRotationCode)
  | rotateCredential (input : CredentialRotation)

/-- The registry that a call commits. -/
def commit (s : Registry) : Call → Except RegistryError Registry
  | .createWorkspace key now id => createWorkspace s key now id
  | .issuePairingCode input => (issuePairingCode crypto s input).map (·.1)
  | .registerPending input => (registerPending crypto s input).map (·.1)
  | .completePendingIdentityProof input => completePendingIdentityProof crypto s input
  | .approvePendingMembership input => (approvePendingMembership crypto s input).map (·.1)
  | .renameDevice input => (renameDevice crypto s input).map (·.1)
  | .revokeDevice input => (revokeDevice crypto s input).map (·.1)
  | .rotateWorkspaceAuthority input => (rotateWorkspaceAuthority crypto s input).map (·.1)
  | .issueCredentialRotationCode input => (issueCredentialRotationCode crypto s input).map (·.1)
  | .rotateCredential input => (rotateCredential crypto s input).map (·.1)

/-- The store: a call commits, or fails and changes nothing. -/
def store : Machine Registry Call (Option RegistryError) where
  step s call :=
    match commit crypto s call with
    | .ok s' => (s', none)
    | .error e => (s, some e)

end SevenMirror.Admission
