import SevenMirror.Admission.Store

/-! The operations of `internal/admission/store.go` on workspaces and devices.  Each of them commits
one transaction, and a call that fails changes nothing.  What the source draws at random is an
argument. -/

namespace SevenMirror.Admission

open Lib MembershipCodec

variable (crypto : Crypto)

/-! ### Workspaces and registration -/

def createWorkspace (s : Registry) (authorityPublicKey : Block 32) (now : Time)
    (id : WorkspaceID) : Except RegistryError Registry := do
  reject (allZero authorityPublicKey.bytes) .zeroAuthorityKey
  let workspaces ← require (s.workspaces.insert
    { id, createdAtMs := unixMillis now, authorityPublicKey, authorityEpoch := 1
      authorityTransitionDigest := ⟨List.replicate 32 0, rfl⟩
      devices := .empty, rosters := .empty, transitions := .empty }) .constraint
  return { s with workspaces }

/-- `deviceType` is missing where the source is given a text that names no type. -/
structure IssuePairingCode where
  workspaceID : WorkspaceID
  deviceType : Option DeviceType
  boundName : Bytes
  now : Time
  ttl : Int
  secret : Block 24

def issuePairingCode (s : Registry) (input : IssuePairingCode) :
    Except RegistryError (Registry × Bytes) := do
  let deviceType ← require input.deviceType .deviceType
  if input.boundName ≠ [] then validateDeviceName input.boundName
  reject (input.ttl ≤ 0 ∨ input.ttl > day) .pairingLifetime
  reject ((s.find input.workspaceID).isNone) .constraint
  let pairingCodes ← require (s.pairingCodes.insert
    { codeHash := crypto.sha256 input.secret.bytes, workspaceID := input.workspaceID, deviceType
      boundName := if input.boundName = [] then none else some input.boundName
      createdAtMs := unixMillis input.now
      expiresAtMs := unixMillis ⟨input.now.nanos + input.ttl⟩ }) .constraint
  return ({ s with pairingCodes }, encodeBase64URL input.secret.bytes)

structure PendingChallenge where
  digest : Bytes
  secret : Bytes
  expiresAt : Time

structure Registration where
  pairingCode : Bytes
  deviceType : Option DeviceType
  deviceName : Bytes
  e2eePublicKey : Bytes
  now : Time
  createChallenge : WorkspaceID → DeviceID → Option PendingChallenge
  deviceID : DeviceID
  authToken : Block 32

structure RegisteredDevice where
  workspaceID : WorkspaceID
  deviceID : DeviceID
  authToken : Block 32

/-- `consumed_at_ms IS NULL AND expires_at_ms > ?`. -/
def PairingCode.usable (code : PairingCode) (nowMillis : Int) : Bool :=
  code.consumedAtMs = none ∧ code.expiresAtMs > nowMillis

def registerPending (s : Registry) (input : Registration) :
    Except RegistryError (Registry × RegisteredDevice) := do
  let deviceType ← require input.deviceType .invalidPairingCode
  rethrow (fun _ => .invalidRegistration) (validateDeviceName input.deviceName)
  reject (input.e2eePublicKey.length ≠ 65 ∨ input.e2eePublicKey.head? ≠ some 0x04)
    .invalidRegistration
  reject (¬ crypto.onCurve input.e2eePublicKey) .invalidRegistration
  let secret ← require (decodeBase64URL input.pairingCode) .invalidPairingCode
  reject (secret.length ≠ pairingSecretBytes) .invalidPairingCode
  let codeHash := crypto.sha256 secret
  let nowMillis := unixMillis input.now
  let code ← require (s.pairingCodes.find codeHash) .invalidPairingCode
  reject (code.consumedAtMs.isSome ∨ code.expiresAtMs ≤ nowMillis ∨ code.deviceType ≠ deviceType ∨
    (code.boundName.isSome ∧ code.boundName ≠ some input.deviceName)) .invalidPairingCode
  let chosen (c : PairingCode) : Bool := c.codeHash = codeHash ∧ c.usable nowMillis
  reject (s.pairingCodes.affected chosen ≠ 1) .invalidPairingCode
  let pairingCodes := s.pairingCodes.update chosen
    (fun c => { c with consumedAtMs := some nowMillis }) (fun _ _ => rfl)
  let challenge ← require (input.createChallenge code.workspaceID input.deviceID) .challenge
  reject (challenge.digest.length ≠ 32 ∨ allZero challenge.digest ∨
    challenge.secret.length ≠ 32 ∨ allZero challenge.secret ∨
    ¬ challenge.expiresAt.after input.now ∨
    challenge.expiresAt.nanos - input.now.nanos > 10 * 60 * 1000000000) .invalidRegistration
  let challengeDigest ← require (Block.check 32 challenge.digest) .constraint
  let e2eePublicKey ← require (Block.check 65 input.e2eePublicKey) .constraint
  let authTokenHash := crypto.sha256 input.authToken.bytes
  let w ← require (s.find code.workspaceID) .constraint
  reject (s.tokenTaken authTokenHash) .constraint
  let devices ← require (w.devices.insert
    { id := input.deviceID, deviceType, deviceName := input.deviceName, authTokenHash, e2eePublicKey
      registeredAtMs := nowMillis, membershipState := .pendingProof
      proofChallengeDigest := some challengeDigest
      proofSecretHash := some (crypto.sha256 challenge.secret)
      proofExpiresAtMs := some (unixMillis challenge.expiresAt) }) .constraint
  return ({ s with pairingCodes }.put { w with devices },
    ⟨code.workspaceID, input.deviceID, input.authToken⟩)

structure PendingIdentityProof where
  workspaceID : WorkspaceID
  deviceID : DeviceID
  authToken : Bytes
  challengeDigest : Bytes
  challengeSecret : Bytes
  now : Time

def completePendingIdentityProof (s : Registry) (input : PendingIdentityProof) :
    Except RegistryError Registry := do
  reject (input.authToken.length ≠ authTokenBytes ∨ input.challengeDigest.length ≠ 32 ∨
    input.challengeSecret.length ≠ 32) .invalidMembershipProof
  let authHash := crypto.sha256 input.authToken
  let secretHash := crypto.sha256 input.challengeSecret
  let w ← require (s.find input.workspaceID) .invalidMembershipProof
  let proven (d : Device) : Bool :=
    d.id = input.deviceID ∧ d.authTokenHash = authHash ∧ d.membershipState = .pendingProof ∧
      d.revokedAtMs = none ∧
      (d.proofExpiresAtMs.any fun expiresAt => expiresAt > unixMillis input.now) ∧
      d.proofChallengeDigest.map (·.bytes) = some input.challengeDigest ∧
      d.proofSecretHash = some secretHash
  reject (w.devices.affected proven ≠ 1) .invalidMembershipProof
  let devices := w.devices.update proven
    (fun d => { d with
      membershipState := .pendingApproval, proofCompletedAtMs := some (unixMillis input.now)
      proofSecretHash := none }) (fun _ _ => rfl)
  return s.put { w with devices }

/-! ### Membership -/

structure ApprovePendingDevice where
  workspaceID : WorkspaceID
  deviceReference : Bytes
  roles : List DeviceRole
  authorityPrivateKey : Bytes
  now : Time

/-- What a change of the membership reports. -/
structure MembershipChange where
  deviceReference : Bytes
  certificateID : Bytes
  rosterEpoch : Nat
  rosterDigest : Bytes

def membershipDeviceType : DeviceType → MembershipCodec.DeviceType
  | .android => deviceTypeAndroid
  | .chrome => deviceTypeChrome

/-- The certificate of a device that joins. -/
def joiningCertificate (w : Workspace) (device : Device) (input : ApprovePendingDevice)
    (epoch : Nat) : DeviceCertificate where
  protocolVersion := protocolVersion
  workspaceId := w.id.bytes
  deviceId := device.id.bytes
  deviceType := membershipDeviceType device.deviceType
  displayName := device.deviceName
  roles := input.roles
  identityPublicKey := device.e2eePublicKey.bytes
  identityKeyId := (crypto.sha256 device.e2eePublicKey.bytes).bytes
  issuedAtUnixMs := unixMillisUnsigned input.now
  membershipEpoch := UInt64.ofNat epoch

/-- The roster that a draft leads to. -/
def rosterOf (w : Workspace) (draft : WorkspaceRosterDraft)
    (activeCertificates : List SignedDeviceCertificate) (revocations : List RevokedCertificate)
    (certificateTransitions : List DeviceCertificateTransition) : WorkspaceRoster where
  protocolVersion := protocolVersion
  workspaceId := w.id.bytes
  rosterEpoch := UInt64.ofNat draft.epoch
  previousRosterDigest := draft.previousDigest
  activeCertificates := activeCertificates
  revocations := revocations
  certificateTransitions := certificateTransitions

/-- The transaction of `ApprovePendingMembership`, after the reference was resolved. -/
def approveDevice (w : Workspace) (deviceID : DeviceID) (input : ApprovePendingDevice) :
    Except RegistryError (Workspace × MembershipChange) := do
  reject (publicKey input.authorityPrivateKey ≠ w.authorityPublicKey.bytes)
    .workspaceAuthorityUnavailable
  let device ← require (w.devices.find deviceID) .deviceNotFound
  reject (device.revokedAtMs.isSome ∨ device.membershipState ≠ .pendingApproval) .deviceNotFound
  let draft ← prepareNextWorkspaceRoster crypto w
  let certificate ← rethrow .codec (signDeviceCertificate crypto
    (joiningCertificate crypto w device input draft.epoch) input.authorityPrivateKey)
  let active := sortCertificates (draft.activeCertificates ++ [certificate])
  let roster ← rethrow .codec (signWorkspaceRoster crypto
    (rosterOf w draft active draft.revocations []) input.authorityPrivateKey)
  let certificateEncoded ← rethrow .codec
    (encodeSignedDeviceCertificate crypto certificate w.authorityPublicKey.bytes)
  let rosterEncoded ← rethrow .codec
    (encodeSignedWorkspaceRoster crypto roster w.authorityPublicKey.bytes)
  let certificateID ← require (Block.check 32 certificate.certificateId) .constraint
  let pending (d : Device) : Bool :=
    d.id = deviceID ∧ d.membershipState = .pendingApproval ∧ d.revokedAtMs = none
  reject (w.devices.affected pending ≠ 1) .deviceNotFound
  let devices := w.devices.update pending
    (fun d => { d with
      membershipState := .approved, certificateID := some certificateID
      signedCertificate := some certificateEncoded, approvedAtMs := some (unixMillis input.now)
      proofChallengeDigest := none, proofExpiresAtMs := none }) (fun _ _ => rfl)
  let w' ← insertWorkspaceRoster { w with devices } draft.epoch draft.previousDigest roster
    rosterEncoded input.now
  return (w', ⟨input.deviceReference, certificate.certificateId, draft.epoch, roster.rosterDigest⟩)

def approvePendingMembership (s : Registry) (input : ApprovePendingDevice) :
    Except RegistryError (Registry × MembershipChange) := do
  reject (input.authorityPrivateKey.length ≠ ed25519PrivateKeySize ∨ input.roles.length = 0)
    .approvalArguments
  let w ← require (s.find input.workspaceID) .deviceNotFound
  let deviceID ← resolveDeviceReference crypto w input.deviceReference
  let (w', change) ← approveDevice crypto w deviceID input
  return (s.put w', change)

structure RenameDeviceInput where
  workspaceID : WorkspaceID
  deviceReference : Bytes
  displayName : Bytes
  authorityPrivateKey : Bytes
  now : Time

/-- The stored certificate of a device, as `RenameDevice` and `RevokeDevice` require it. -/
def storedCertificate (w : Workspace) (device : Device) :
    Except RegistryError SignedDeviceCertificate := do
  let certificate ← rethrow (fun _ => .storedCertificate) (decodeSignedDeviceCertificate crypto
    (device.signedCertificate.getD []) w.authorityPublicKey.bytes)
  reject (some certificate.certificateId ≠ device.certificateID.map (·.bytes) ∨
    certificate.body.workspaceId ≠ w.id.bytes ∨ certificate.body.deviceId ≠ device.id.bytes)
    .storedCertificate
  return certificate

/-- The loop that takes the certificate of a device out of the active ones. -/
def withoutDevice (w : Workspace) (device : Device) (active : List SignedDeviceCertificate) :
    Except RegistryError (List SignedDeviceCertificate) := do
  let own (c : SignedDeviceCertificate) : Bool := c.body.deviceId = device.id.bytes
  reject (¬ (active.filter own).all fun c =>
    match encodeSignedDeviceCertificate crypto c w.authorityPublicKey.bytes with
    | .ok encoded => encoded = device.signedCertificate.getD []
    | .error _ => false) .activeMismatch
  reject (¬ active.any own) .notActive
  return active.filter fun c => !own c

/-- The certificate with another display name. -/
def renamedCertificate (previous : DeviceCertificate) (input : RenameDeviceInput) (epoch : Nat) :
    DeviceCertificate :=
  { previous with
    displayName := input.displayName
    issuedAtUnixMs := unixMillisUnsigned input.now
    membershipEpoch := UInt64.ofNat epoch }

/-- The transition from the one certificate of a device to the other. -/
def renamingTransition (w : Workspace) (deviceID : DeviceID)
    (previous replacement : SignedDeviceCertificate) (draft : WorkspaceRosterDraft) (now : Time) :
    DeviceCertificateTransition where
  protocolVersion := protocolVersion
  workspaceId := w.id.bytes
  deviceId := deviceID.bytes
  previousCertificateId := previous.certificateId
  newCertificateId := replacement.certificateId
  activationRosterEpoch := UInt64.ofNat draft.epoch
  previousRosterDigest := draft.previousDigest
  reason := reasonDisplayName
  issuedAtUnixMs := unixMillisUnsigned now

/-- The transaction of `RenameDevice`, after the reference was resolved. -/
def renameDeviceTo (w : Workspace) (deviceID : DeviceID) (input : RenameDeviceInput) :
    Except RegistryError (Workspace × MembershipChange) := do
  let device ← require (w.devices.find deviceID) .deviceNotFound
  reject (device.membershipState ≠ .approved ∨ device.revokedAtMs.isSome ∨
    device.deviceName = input.displayName) .deviceNotFound
  reject (input.authorityPrivateKey.length ≠ ed25519PrivateKeySize ∨
    publicKey input.authorityPrivateKey ≠ w.authorityPublicKey.bytes) .workspaceAuthorityUnavailable
  let previous ← storedCertificate crypto w device
  reject (previous.body.displayName ≠ device.deviceName) .storedCertificate
  let draft ← prepareNextWorkspaceRoster crypto w
  reject (draft.epoch = 1) .noRoster
  let others ← withoutDevice crypto w device draft.activeCertificates
  let replacement ← rethrow .codec (signDeviceCertificate crypto
    (renamedCertificate previous.body input draft.epoch) input.authorityPrivateKey)
  let transition := renamingTransition w deviceID previous replacement draft input.now
  rethrow .codec (validateDisplayNameCertificateTransition previous replacement transition)
  let active := sortCertificates (others ++ [replacement])
  let roster ← rethrow .codec (signWorkspaceRoster crypto
    (rosterOf w draft active draft.revocations [transition]) input.authorityPrivateKey)
  let replacementEncoded ← rethrow .codec
    (encodeSignedDeviceCertificate crypto replacement w.authorityPublicKey.bytes)
  let rosterEncoded ← rethrow .codec
    (encodeSignedWorkspaceRoster crypto roster w.authorityPublicKey.bytes)
  let certificateID ← require (Block.check 32 replacement.certificateId) .constraint
  let chosen (d : Device) : Bool :=
    d.id = deviceID ∧ d.membershipState = .approved ∧ d.revokedAtMs = none ∧
      d.certificateID.map (·.bytes) = some previous.certificateId
  reject (w.devices.affected chosen ≠ 1) .deviceNotFound
  let devices := w.devices.update chosen
    (fun d => { d with
      deviceName := input.displayName, certificateID := some certificateID
      signedCertificate := some replacementEncoded }) (fun _ _ => rfl)
  let w' ← insertWorkspaceRoster { w with devices } draft.epoch draft.previousDigest roster
    rosterEncoded input.now
  return (w', ⟨input.deviceReference, replacement.certificateId, draft.epoch, roster.rosterDigest⟩)

def renameDevice (s : Registry) (input : RenameDeviceInput) :
    Except RegistryError (Registry × MembershipChange) := do
  validateDeviceName input.displayName
  let w ← require (s.find input.workspaceID) .deviceNotFound
  let deviceID ← resolveDeviceReference crypto w input.deviceReference
  let (w', change) ← renameDeviceTo crypto w deviceID input
  return (s.put w', change)

structure RevokeDeviceInput where
  workspaceID : WorkspaceID
  deviceReference : Bytes
  authorityPrivateKey : Bytes
  now : Time

structure RevokedDevice where
  deviceReference : Bytes
  changed : Bool
  rosterEpoch : Nat
  rosterDigest : Bytes

/-- The revocation of a device that has no certificate. -/
def revokePending (w : Workspace) (deviceID : DeviceID) (now : Time) :
    Except RegistryError Workspace := do
  let chosen (d : Device) : Bool :=
    d.id = deviceID ∧ d.revokedAtMs = none ∧ d.membershipState ≠ .approved
  reject (w.devices.affected chosen ≠ 1) .deviceNotFound
  let devices := w.devices.update chosen
    (fun d => { d with revokedAtMs := some (unixMillis now), membershipState := .revoked })
    (fun _ _ => rfl)
  return { w with devices }

/-- The revocation of an approved device. -/
def revokeApproved (w : Workspace) (device : Device) (input : RevokeDeviceInput) :
    Except RegistryError (Workspace × Nat × Bytes) := do
  reject (input.authorityPrivateKey.length ≠ ed25519PrivateKeySize ∨ device.certificateID.isNone ∨
    (device.signedCertificate.getD []).length = 0) .workspaceAuthorityUnavailable
  reject (publicKey input.authorityPrivateKey ≠ w.authorityPublicKey.bytes)
    .workspaceAuthorityUnavailable
  let draft ← prepareNextWorkspaceRoster crypto w
  reject (draft.epoch = 1) .noRoster
  let _ ← storedCertificate crypto w device
  let active ← withoutDevice crypto w device draft.activeCertificates
  let revocations := sortRevocations (draft.revocations ++
    [{ certificateId := (device.certificateID.map (·.bytes)).getD [], deviceId := device.id.bytes
       revokedAtUnixMs := unixMillisUnsigned input.now }])
  let roster ← rethrow .codec (signWorkspaceRoster crypto (rosterOf w draft active revocations [])
    input.authorityPrivateKey)
  let rosterEncoded ← rethrow .codec
    (encodeSignedWorkspaceRoster crypto roster w.authorityPublicKey.bytes)
  let chosen (d : Device) : Bool :=
    d.id = device.id ∧ d.membershipState = .approved ∧ d.revokedAtMs = none
  reject (w.devices.affected chosen ≠ 1) .deviceNotFound
  let devices := w.devices.update chosen
    (fun d => { d with
      revokedAtMs := some (unixMillis input.now), membershipState := .revoked
      revokedMembershipEpoch := some draft.epoch }) (fun _ _ => rfl)
  let w' ← insertWorkspaceRoster { w with devices } draft.epoch draft.previousDigest roster
    rosterEncoded input.now
  return (w', draft.epoch, roster.rosterDigest)

/-- The transaction of `RevokeDevice`, after the reference was resolved. -/
def revokeDeviceOf (w : Workspace) (deviceID : DeviceID) (input : RevokeDeviceInput) :
    Except RegistryError (Workspace × RevokedDevice) := do
  let device ← require (w.devices.find deviceID) .deviceNotFound
  if device.revokedAtMs.isSome then return (w, ⟨input.deviceReference, false, 0, []⟩)
  else if device.membershipState ≠ .approved then
    let w' ← revokePending w deviceID input.now
    return (w', ⟨input.deviceReference, true, 0, []⟩)
  else
    let (w', epoch, digest) ← revokeApproved crypto w device input
    return (w', ⟨input.deviceReference, true, epoch, digest⟩)

def revokeDevice (s : Registry) (input : RevokeDeviceInput) :
    Except RegistryError (Registry × RevokedDevice) := do
  let w ← require (s.find input.workspaceID) .deviceNotFound
  let deviceID ← resolveDeviceReference crypto w input.deviceReference
  let (w', revoked) ← revokeDeviceOf crypto w deviceID input
  return (s.put w', revoked)

end SevenMirror.Admission
