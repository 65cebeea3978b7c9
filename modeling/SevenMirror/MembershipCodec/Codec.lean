import SevenMirror.Lib.BigEndian
import SevenMirror.Lib.Reject
import SevenMirror.MembershipCodec.Messages

/-! The membership codec of `protocol/membershipcodec/membership.go`: what is signed, how it is
encoded, and which messages are accepted.  The cryptographic functions are parameters. -/

namespace SevenMirror.MembershipCodec

open Lib Wire

/-- SHA-256, Ed25519 over byte strings, and whether 65 bytes are a point of P-256. -/
structure Crypto where
  sha256 : Bytes → Block 32
  sign : Bytes → Bytes → Block 64
  verify : Bytes → Bytes → Bytes → Bool
  onCurve : Bytes → Bool

def protocolVersion : UInt32 := 1

def identifierSize : Nat := 16

def digestSize : Nat := 32

def p256PublicKeySize : Nat := 65

def ed25519SignatureSize : Nat := 64

def ed25519PublicKeySize : Nat := 32

def ed25519PrivateKeySize : Nat := 64

def maxDisplayNameBytes : Nat := 100

def maxMembershipMessageSize : Nat := 0x100000

def maxActiveCertificates : Nat := 256

def maxCertificateTransitions : Nat := 256

def maxRevocations : Nat := 4096

/-- `math.MaxInt64`, as an unsigned number. -/
def maxEpoch : UInt64 := 0x7fffffffffffffff

/-- A domain, with the zero byte that ends it. -/
def domain (name : String) : Bytes :=
  "SyncNotifications-membership-".toUTF8.toList ++ name.toUTF8.toList ++ [0]

def certificateIDDomain : Bytes := domain "device-certificate-id-v1"

def certificateSignatureDomain : Bytes := domain "device-certificate-signature-v1"

def rosterDigestDomain : Bytes := domain "workspace-roster-digest-v1"

def rosterSignatureDomain : Bytes := domain "workspace-roster-signature-v1"

def authorityTransitionDigestDomain : Bytes := domain "authority-transition-digest-v1"

def authorityTransitionOldSignatureDomain : Bytes :=
  domain "authority-transition-old-signature-v1"

def authorityTransitionNewSignatureDomain : Bytes :=
  domain "authority-transition-new-signature-v1"

/-- `PrivateKey.Public`: the second half of the key. -/
def publicKey (privateKey : Bytes) : Bytes := privateKey.drop 32

/-- The errors, one for each message of the source. -/
inductive CodecError
  | encoding | size | decoding | reencoding | notCanonical
  | binding
  | certificateMissing | certificateVersion | certificateType | displayName | noRole | roles
  | identityKeySize | identityKeyPoint | identityKeyID | certificateTimes
  | privateKey | publicKey
  | signedCertificateMissing | certificateID | certificateSignature
  | rosterMissing | rosterHead | rosterPreviousDigest | tooManyActive | activeBinding | activeOrder
  | tooManyTransitions | certificateTransition | certificateTransitionOrder
  | certificateTransitionReplacement | tooManyRevocations | revocation | revocationOrder
  | revokedActive
  | signedRosterMissing | rosterDigest | rosterSignature
  | transitionPrivateKeys | signedTransitionMissing | transitionMissing | transitionUnknown
  | transitionHead | transitionEpoch | transitionPreviousDigest | transitionKeys
  | transitionRoster | transitionDigest | previousAuthoritySignature | newAuthoritySignature
  | displayNameBinding | displayNameProtected
  | challengeMissing | challengeVersion | challengeSecret | challengeLifetime
  | proofMissing | proofVersion | proofValues | proofMismatch
deriving DecidableEq, Repr

section Encoding

variable {M : Type}

def encode (c : Codec M) (value : M) : Except CodecError Bytes := do
  let encoded ← require (c.marshal value) .encoding
  reject (encoded.length = 0 ∨ encoded.length > maxMembershipMessageSize) .size
  return encoded

def decodeCanonical (c : Codec M) (encoded : Bytes) : Except CodecError M := do
  reject (encoded.length = 0 ∨ encoded.length > maxMembershipMessageSize) .size
  let value ← require (c.unmarshal encoded) .decoding
  let canonical ← require (c.marshal value) .reencoding
  reject (canonical ≠ encoded) .notCanonical
  return value

end Encoding

variable (crypto : Crypto)

def domainHash (domain encoded : Bytes) : Bytes := (crypto.sha256 (domain ++ encoded)).bytes

def validateBinding (workspaceID deviceID identityKeyID : Bytes) : Except CodecError Unit :=
  reject (workspaceID.length ≠ identifierSize ∨ allZero workspaceID ∨
    deviceID.length ≠ identifierSize ∨ allZero deviceID ∨
    identityKeyID.length ≠ digestSize ∨ allZero identityKeyID) .binding

/-! ### Device certificates -/

/-- The roles are supported and strictly sorted, after `previous`. -/
def rolesSorted (previous : DeviceRole) : List DeviceRole → Bool
  | [] => true
  | role :: roles =>
    !(role < deviceRoleSendNotifications || role > deviceRoleManageDevices || role ≤ previous) &&
      rolesSorted role roles

def validateDeviceCertificate (value : DeviceCertificate) : Except CodecError Unit := do
  reject (value.unknown ≠ []) .certificateMissing
  reject (value.protocolVersion ≠ protocolVersion) .certificateVersion
  validateBinding value.workspaceId value.deviceId value.identityKeyId
  reject (value.deviceType ≠ deviceTypeAndroid ∧ value.deviceType ≠ deviceTypeChrome)
    .certificateType
  reject (¬ validUtf8 value.displayName ∨ trimSpace value.displayName = [] ∨
    value.displayName.length > maxDisplayNameBytes) .displayName
  reject (value.roles.length = 0) .noRole
  reject (¬ rolesSorted deviceRoleUnspecified value.roles) .roles
  reject (value.identityPublicKey.length ≠ p256PublicKeySize) .identityKeySize
  reject (¬ crypto.onCurve value.identityPublicKey) .identityKeyPoint
  reject (value.identityKeyId ≠ (crypto.sha256 value.identityPublicKey).bytes) .identityKeyID
  reject (value.issuedAtUnixMs = 0 ∨ value.issuedAtUnixMs > maxEpoch ∨
    value.expiresAtUnixMs > maxEpoch ∨
    (value.expiresAtUnixMs ≠ 0 ∧ value.expiresAtUnixMs ≤ value.issuedAtUnixMs) ∨
    value.membershipEpoch = 0 ∨ value.membershipEpoch > maxEpoch) .certificateTimes

def signDeviceCertificate (certificate : DeviceCertificate) (authorityPrivateKey : Bytes) :
    Except CodecError SignedDeviceCertificate := do
  validateDeviceCertificate crypto certificate
  reject (authorityPrivateKey.length ≠ ed25519PrivateKeySize) .privateKey
  let encoded ← encode certificateCodec certificate
  return {
    certificate := some certificate
    certificateId := domainHash crypto certificateIDDomain encoded
    authoritySignature :=
      (crypto.sign authorityPrivateKey (certificateSignatureDomain ++ encoded)).bytes }

def validateSignedDeviceCertificate (value : SignedDeviceCertificate)
    (authorityPublicKey : Bytes) : Except CodecError Unit := do
  reject (value.unknown ≠ []) .signedCertificateMissing
  reject (authorityPublicKey.length ≠ ed25519PublicKeySize) .publicKey
  let certificate ← require value.certificate .certificateMissing
  validateDeviceCertificate crypto certificate
  let encoded ← encode certificateCodec certificate
  reject (value.certificateId ≠ domainHash crypto certificateIDDomain encoded) .certificateID
  reject (value.authoritySignature.length ≠ ed25519SignatureSize ∨
    ¬ crypto.verify authorityPublicKey (certificateSignatureDomain ++ encoded)
      value.authoritySignature) .certificateSignature

def encodeSignedDeviceCertificate (value : SignedDeviceCertificate) (authorityPublicKey : Bytes) :
    Except CodecError Bytes := do
  validateSignedDeviceCertificate crypto value authorityPublicKey
  encode signedCertificateCodec value

def decodeSignedDeviceCertificate (encoded authorityPublicKey : Bytes) :
    Except CodecError SignedDeviceCertificate := do
  let value ← decodeCanonical signedCertificateCodec encoded
  validateSignedDeviceCertificate crypto value authorityPublicKey
  return value

/-- `GetCertificate`, whose getters read zero values from a certificate that is not there. -/
def SignedDeviceCertificate.body (value : SignedDeviceCertificate) : DeviceCertificate :=
  value.certificate.getD {}

/-! ### Rosters -/

/-- `bytes.Compare(previous, current) >= 0`, for a previous value if there is one. -/
def unordered (previous : Option Bytes) (current : Bytes) : Bool :=
  match previous with
  | none => false
  | some p => !(p < current)

/-- A loop over items that are strictly sorted by `key`, with the checks before and after the
comparison with the previous item. -/
def validateAscending {α : Type} (key : α → Bytes) (before : α → Except CodecError Unit)
    (order : CodecError) (after : α → Except CodecError Unit) :
    Option Bytes → List α → Except CodecError Unit
  | _, [] => return ()
  | previous, item :: rest => do
    before item
    reject (unordered previous (key item)) order
    after item
    validateAscending key before order after (some (key item)) rest

def validateActiveCertificate (roster : WorkspaceRoster) (authorityPublicKey : Bytes)
    (certificate : SignedDeviceCertificate) : Except CodecError Unit := do
  validateSignedDeviceCertificate crypto certificate authorityPublicKey
  reject (certificate.body.workspaceId ≠ roster.workspaceId ∨
    certificate.body.membershipEpoch > roster.rosterEpoch) .activeBinding

def validateCertificateTransition (roster : WorkspaceRoster)
    (transition : DeviceCertificateTransition) : Except CodecError Unit :=
  reject (transition.unknown ≠ [] ∨ transition.protocolVersion ≠ protocolVersion ∨
    transition.workspaceId ≠ roster.workspaceId ∨
    transition.deviceId.length ≠ identifierSize ∨ allZero transition.deviceId ∨
    transition.previousCertificateId.length ≠ digestSize ∨
    allZero transition.previousCertificateId ∨
    transition.newCertificateId.length ≠ digestSize ∨ allZero transition.newCertificateId ∨
    transition.previousCertificateId = transition.newCertificateId ∨
    transition.activationRosterEpoch ≠ roster.rosterEpoch ∨
    transition.previousRosterDigest ≠ roster.previousRosterDigest ∨
    transition.reason ≠ reasonDisplayName ∨
    transition.issuedAtUnixMs = 0 ∨ transition.issuedAtUnixMs > maxEpoch) .certificateTransition

/-- `activeCertificatesByDevice`.  The devices are distinct where it is read. -/
def WorkspaceRoster.activeCertificate (roster : WorkspaceRoster) (deviceID : Bytes) :
    Option SignedDeviceCertificate :=
  roster.activeCertificates.find? (·.body.deviceId == deviceID)

/-- The transition names the active certificate of its device. -/
def replacementActive (roster : WorkspaceRoster) (transition : DeviceCertificateTransition) :
    Bool :=
  match roster.activeCertificate transition.deviceId with
  | none => false
  | some active => active.certificateId = transition.newCertificateId

def validateRevocation (revocation : RevokedCertificate) : Except CodecError Unit :=
  reject (revocation.unknown ≠ [] ∨
    revocation.certificateId.length ≠ digestSize ∨ allZero revocation.certificateId ∨
    revocation.deviceId.length ≠ identifierSize ∨ allZero revocation.deviceId ∨
    revocation.revokedAtUnixMs = 0 ∨ revocation.revokedAtUnixMs > maxEpoch) .revocation

def validateWorkspaceRoster (value : WorkspaceRoster) (authorityPublicKey : Bytes) :
    Except CodecError Unit := do
  reject (value.unknown ≠ []) .rosterMissing
  reject (value.protocolVersion ≠ protocolVersion ∨ value.workspaceId.length ≠ identifierSize ∨
    allZero value.workspaceId ∨ value.rosterEpoch = 0 ∨ value.rosterEpoch > maxEpoch) .rosterHead
  reject (value.previousRosterDigest.length ≠ digestSize ∨
    (value.rosterEpoch = 1 ∧ ¬ allZero value.previousRosterDigest) ∨
    (value.rosterEpoch > 1 ∧ allZero value.previousRosterDigest)) .rosterPreviousDigest
  reject (value.activeCertificates.length > maxActiveCertificates) .tooManyActive
  validateAscending (·.body.deviceId) (validateActiveCertificate crypto value authorityPublicKey)
    .activeOrder (fun _ => return ()) none value.activeCertificates
  reject (value.certificateTransitions.length > maxCertificateTransitions ∨
    (value.rosterEpoch = 1 ∧ value.certificateTransitions.length ≠ 0)) .tooManyTransitions
  validateAscending (·.deviceId) (validateCertificateTransition value) .certificateTransitionOrder
    (fun transition =>
      reject (¬ replacementActive value transition) .certificateTransitionReplacement)
    none value.certificateTransitions
  reject (value.revocations.length > maxRevocations) .tooManyRevocations
  validateAscending (·.certificateId) validateRevocation .revocationOrder
    (fun revocation =>
      reject (value.activeCertificates.any (·.certificateId == revocation.certificateId))
        .revokedActive)
    none value.revocations

def signWorkspaceRoster (roster : WorkspaceRoster) (authorityPrivateKey : Bytes) :
    Except CodecError SignedWorkspaceRoster := do
  reject (authorityPrivateKey.length ≠ ed25519PrivateKeySize) .privateKey
  validateWorkspaceRoster crypto roster (publicKey authorityPrivateKey)
  let encoded ← encode rosterCodec roster
  return {
    roster := some roster
    rosterDigest := domainHash crypto rosterDigestDomain encoded
    authoritySignature :=
      (crypto.sign authorityPrivateKey (rosterSignatureDomain ++ encoded)).bytes }

def validateSignedWorkspaceRoster (value : SignedWorkspaceRoster) (authorityPublicKey : Bytes) :
    Except CodecError Unit := do
  reject (value.unknown ≠ []) .signedRosterMissing
  reject (authorityPublicKey.length ≠ ed25519PublicKeySize) .publicKey
  let roster ← require value.roster .rosterMissing
  validateWorkspaceRoster crypto roster authorityPublicKey
  let encoded ← encode rosterCodec roster
  reject (value.rosterDigest ≠ domainHash crypto rosterDigestDomain encoded) .rosterDigest
  reject (value.authoritySignature.length ≠ ed25519SignatureSize ∨
    ¬ crypto.verify authorityPublicKey (rosterSignatureDomain ++ encoded)
      value.authoritySignature) .rosterSignature

def encodeSignedWorkspaceRoster (value : SignedWorkspaceRoster) (authorityPublicKey : Bytes) :
    Except CodecError Bytes := do
  validateSignedWorkspaceRoster crypto value authorityPublicKey
  encode signedRosterCodec value

def decodeSignedWorkspaceRoster (encoded authorityPublicKey : Bytes) :
    Except CodecError SignedWorkspaceRoster := do
  let value ← decodeCanonical signedRosterCodec encoded
  validateSignedWorkspaceRoster crypto value authorityPublicKey
  return value

/-- `GetRoster`. -/
def SignedWorkspaceRoster.body (value : SignedWorkspaceRoster) : WorkspaceRoster :=
  value.roster.getD {}

/-- The certificate without what a change of the display name may change. -/
def DeviceCertificate.withoutName (certificate : DeviceCertificate) : DeviceCertificate :=
  { certificate with displayName := [], issuedAtUnixMs := 0, membershipEpoch := 0 }

def validateDisplayNameCertificateTransition (previous current : SignedDeviceCertificate)
    (transition : DeviceCertificateTransition) : Except CodecError Unit := do
  let oldCertificate ← require previous.certificate .displayNameBinding
  let newCertificate ← require current.certificate .displayNameBinding
  reject (transition.workspaceId ≠ oldCertificate.workspaceId ∨
    transition.deviceId ≠ oldCertificate.deviceId ∨
    oldCertificate.workspaceId ≠ newCertificate.workspaceId ∨
    oldCertificate.deviceId ≠ newCertificate.deviceId ∨
    transition.previousCertificateId ≠ previous.certificateId ∨
    transition.newCertificateId ≠ current.certificateId ∨
    transition.reason ≠ reasonDisplayName ∨
    oldCertificate.displayName = newCertificate.displayName ∨
    newCertificate.membershipEpoch ≠ transition.activationRosterEpoch ∨
    newCertificate.issuedAtUnixMs ≠ transition.issuedAtUnixMs) .displayNameBinding
  reject (oldCertificate.withoutName ≠ newCertificate.withoutName) .displayNameProtected

/-! ### Authority transitions -/

def validateAuthorityKeyTransition (value : AuthorityKeyTransition) (previousKey newKey : Bytes) :
    Except CodecError Unit := do
  reject (value.unknown ≠ []) .transitionUnknown
  reject (value.protocolVersion ≠ protocolVersion ∨ value.workspaceId.length ≠ identifierSize ∨
    allZero value.workspaceId) .transitionHead
  reject (value.transitionEpoch < 2 ∨ value.transitionEpoch > maxEpoch) .transitionEpoch
  reject (value.previousTransitionDigest.length ≠ digestSize ∨
    (value.transitionEpoch = 2 ∧ ¬ allZero value.previousTransitionDigest) ∨
    (value.transitionEpoch > 2 ∧ allZero value.previousTransitionDigest)) .transitionPreviousDigest
  reject (previousKey.length ≠ ed25519PublicKeySize ∨ newKey.length ≠ ed25519PublicKeySize ∨
    previousKey ≠ value.previousAuthorityPublicKey ∨ newKey ≠ value.newAuthorityPublicKey ∨
    previousKey = newKey ∨ allZero previousKey ∨ allZero newKey) .transitionKeys
  reject (value.activationRosterEpoch < 2 ∨ value.activationRosterEpoch > maxEpoch ∨
    value.previousRosterDigest.length ≠ digestSize ∨ allZero value.previousRosterDigest ∨
    value.issuedAtUnixMs = 0 ∨ value.issuedAtUnixMs > maxEpoch) .transitionRoster

def signAuthorityKeyTransition (transition : AuthorityKeyTransition)
    (previousAuthorityPrivateKey newAuthorityPrivateKey : Bytes) :
    Except CodecError SignedAuthorityKeyTransition := do
  reject (previousAuthorityPrivateKey.length ≠ ed25519PrivateKeySize ∨
    newAuthorityPrivateKey.length ≠ ed25519PrivateKeySize) .transitionPrivateKeys
  validateAuthorityKeyTransition transition (publicKey previousAuthorityPrivateKey)
    (publicKey newAuthorityPrivateKey)
  let encoded ← encode authorityTransitionCodec transition
  return {
    transition := some transition
    transitionDigest := domainHash crypto authorityTransitionDigestDomain encoded
    previousAuthoritySignature :=
      (crypto.sign previousAuthorityPrivateKey
        (authorityTransitionOldSignatureDomain ++ encoded)).bytes
    newAuthoritySignature :=
      (crypto.sign newAuthorityPrivateKey
        (authorityTransitionNewSignatureDomain ++ encoded)).bytes }

def validateSignedAuthorityKeyTransition (value : SignedAuthorityKeyTransition) :
    Except CodecError Unit := do
  reject (value.unknown ≠ []) .signedTransitionMissing
  let transition ← require value.transition .transitionMissing
  let previousKey := transition.previousAuthorityPublicKey
  let newKey := transition.newAuthorityPublicKey
  validateAuthorityKeyTransition transition previousKey newKey
  let encoded ← encode authorityTransitionCodec transition
  reject (value.transitionDigest ≠ domainHash crypto authorityTransitionDigestDomain encoded)
    .transitionDigest
  reject (value.previousAuthoritySignature.length ≠ ed25519SignatureSize ∨
    ¬ crypto.verify previousKey (authorityTransitionOldSignatureDomain ++ encoded)
      value.previousAuthoritySignature) .previousAuthoritySignature
  reject (value.newAuthoritySignature.length ≠ ed25519SignatureSize ∨
    ¬ crypto.verify newKey (authorityTransitionNewSignatureDomain ++ encoded)
      value.newAuthoritySignature) .newAuthoritySignature

def encodeSignedAuthorityKeyTransition (value : SignedAuthorityKeyTransition) :
    Except CodecError Bytes := do
  validateSignedAuthorityKeyTransition crypto value
  encode signedAuthorityTransitionCodec value

def decodeSignedAuthorityKeyTransition (encoded : Bytes) :
    Except CodecError SignedAuthorityKeyTransition := do
  let value ← decodeCanonical signedAuthorityTransitionCodec encoded
  validateSignedAuthorityKeyTransition crypto value
  return value

/-- `GetTransition`. -/
def SignedAuthorityKeyTransition.body (value : SignedAuthorityKeyTransition) :
    AuthorityKeyTransition :=
  value.transition.getD {}

end SevenMirror.MembershipCodec
