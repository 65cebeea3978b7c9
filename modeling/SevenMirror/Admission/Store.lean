import SevenMirror.Lib.Table
import SevenMirror.MembershipCodec.Codec
import Mathlib.Data.List.Sort

/-! The registry of `internal/admission/store.go`: its rows, and the helpers of its transactions.
Every statement about devices, rosters, and authority transitions names one workspace, so these
tables are kept as parts of the workspace they belong to.  A column with a `CHECK` has a type that
admits only what the check does. -/

namespace SevenMirror.Admission

open Lib MembershipCodec

def pairingSecretBytes : Nat := 24

def rotationSecretBytes : Nat := 24

def authTokenBytes : Nat := 32

def maxDeviceNameBytes : Nat := 100

/-- 24 hours, in nanoseconds. -/
def day : Int := 24 * 60 * 60 * 1000000000

inductive DeviceType
  | android
  | chrome
deriving DecidableEq, Repr

inductive MembershipState
  | pendingProof
  | pendingApproval
  | approved
  | revoked
deriving DecidableEq, Repr

/-- A row of `devices`, without the workspace and the `last_*` columns, which no statement reads. -/
structure Device where
  id : DeviceID
  deviceType : DeviceType
  deviceName : Bytes
  authTokenHash : Block 32
  e2eePublicKey : Block 65
  registeredAtMs : Int
  revokedAtMs : Option Int := none
  credentialVersion : Nat := 1
  membershipState : MembershipState
  proofChallengeDigest : Option (Block 32) := none
  proofSecretHash : Option (Block 32) := none
  proofExpiresAtMs : Option Int := none
  proofCompletedAtMs : Option Int := none
  certificateID : Option (Block 32) := none
  signedCertificate : Option Bytes := none
  approvedAtMs : Option Int := none
  revokedMembershipEpoch : Option Nat := none
deriving DecidableEq, Repr

/-- A row of `workspace_rosters`, without the workspace. -/
structure RosterRow where
  epoch : Nat
  digest : Block 32
  previousDigest : Block 32
  signedRoster : Bytes
  createdAtMs : Int
deriving DecidableEq, Repr

/-- A row of `workspace_authority_transitions`, without the workspace. -/
structure TransitionRow where
  epoch : Nat
  digest : Block 32
  previousDigest : Block 32
  previousAuthorityPublicKey : Block 32
  newAuthorityPublicKey : Block 32
  activationRosterEpoch : Nat
  signedTransition : Bytes
  createdAtMs : Int
deriving DecidableEq, Repr

/-- A row of `workspaces`, with the rows that refer to it. -/
structure Workspace where
  id : WorkspaceID
  createdAtMs : Int
  authorityPublicKey : Block 32
  authorityEpoch : Nat
  authorityTransitionDigest : Block 32
  devices : Table Device.id
  rosters : Table RosterRow.epoch
  transitions : Table TransitionRow.epoch

structure PairingCode where
  codeHash : Block 32
  workspaceID : WorkspaceID
  deviceType : DeviceType
  boundName : Option Bytes
  createdAtMs : Int
  expiresAtMs : Int
  consumedAtMs : Option Int := none
deriving DecidableEq, Repr

structure RotationCode where
  codeHash : Block 32
  workspaceID : WorkspaceID
  deviceID : DeviceID
  createdAtMs : Int
  expiresAtMs : Int
  consumedAtMs : Option Int := none
deriving DecidableEq, Repr

structure Registry where
  workspaces : Table Workspace.id
  pairingCodes : Table PairingCode.codeHash
  rotationCodes : Table RotationCode.codeHash

def Registry.empty : Registry := ⟨.empty, .empty, .empty⟩

/-- The errors.  `constraint` is a statement that SQLite refuses. -/
inductive RegistryError
  | invalidPairingCode | invalidRegistration | invalidRotation | deviceNotFound
  | workspaceAuthorityUnavailable | invalidMembershipProof
  | zeroAuthorityKey | deviceType | deviceName | pairingLifetime | rotationLifetime
  | approvalArguments | rotationArguments | sameAuthority | authorityEpochExhausted
  | rosterRequired | rosterEpochExhausted | activeMismatch | noRoster | notActive
  | storedCertificate | ambiguousReference | challenge
  | codec (error : CodecError)
  | constraint
deriving DecidableEq, Repr

/-- The row of a workspace. -/
def Registry.find (s : Registry) (id : WorkspaceID) : Option Workspace := s.workspaces.find id

/-- The registry after a transaction on one workspace. -/
def Registry.put (s : Registry) (w : Workspace) : Registry :=
  { s with workspaces := s.workspaces.update (·.id = w.id) (fun _ => w) (by simp [eq_comm]) }

/-- A device of the registry has this token. -/
def Registry.tokenTaken (s : Registry) (hash : Block 32) : Bool :=
  s.workspaces.rows.any fun w => w.devices.rows.any fun d => d.authTokenHash = hash

def unixMillis (t : Time) : Int := t.unixMilli

/-- `uint64(unixMillis(t))`. -/
def unixMillisUnsigned (t : Time) : UInt64 := UInt64.ofInt (unixMillis t)

def validateDeviceName (value : Bytes) : Except RegistryError Unit :=
  reject (¬ validUtf8 value ∨ trimSpace value = [] ∨ value.length > maxDeviceNameBytes) .deviceName

variable (crypto : Crypto)

/-! ### Device references -/

def deviceReference (workspaceID : WorkspaceID) (deviceID : DeviceID) : Bytes :=
  let digest := crypto.sha256 ("SyncNotifications-admin-device-ref-v1".toUTF8.toList ++ [0] ++
    workspaceID.bytes ++ deviceID.bytes)
  encodeBase64URL (digest.bytes.take 12)

def validDeviceReference (value : Bytes) : Bool :=
  match decodeBase64URL value with
  | none => false
  | some decoded => decoded.length = 12 ∧ encodeBase64URL decoded = value

/-- The one device with the reference. -/
def resolveDeviceReference (w : Workspace) (reference : Bytes) :
    Except RegistryError DeviceID := do
  reject (¬ validDeviceReference reference) .deviceNotFound
  match w.devices.rows.filter fun d => deviceReference crypto w.id d.id = reference with
  | [] => throw .deviceNotFound
  | [d] => return d.id
  | _ => throw .ambiguousReference

/-! ### Rosters -/

/-- `ORDER BY epoch DESC LIMIT 1`. -/
def latestRoster (rows : List RosterRow) : Option RosterRow :=
  rows.foldl (fun best r =>
    match best with
    | none => some r
    | some b => if b.epoch < r.epoch then some r else some b) none

structure WorkspaceRosterDraft where
  epoch : Nat
  previousDigest : Bytes
  activeCertificates : List SignedDeviceCertificate
  revocations : List RevokedCertificate
deriving DecidableEq, Repr

def firstDraft : WorkspaceRosterDraft := ⟨1, List.replicate 32 0, [], []⟩

/-- The draft that follows a roster. -/
def nextDraft (previous : SignedWorkspaceRoster) : WorkspaceRosterDraft :=
  ⟨previous.body.rosterEpoch.toNat + 1, previous.rosterDigest, previous.body.activeCertificates,
    previous.body.revocations⟩

def prepareNextWorkspaceRoster (w : Workspace) : Except RegistryError WorkspaceRosterDraft :=
  match latestRoster w.rosters.rows with
  | none => return firstDraft
  | some row => do
    let previous ← rethrow .codec
      (decodeSignedWorkspaceRoster crypto row.signedRoster w.authorityPublicKey.bytes)
    reject (previous.body.rosterEpoch ≥ maxEpoch) .rosterEpochExhausted
    return nextDraft previous

def insertWorkspaceRoster (w : Workspace) (epoch : Nat) (previousDigest : Bytes)
    (roster : SignedWorkspaceRoster) (encoded : Bytes) (now : Time) :
    Except RegistryError Workspace := do
  let digest ← require (Block.check 32 roster.rosterDigest) .constraint
  let previousDigest ← require (Block.check 32 previousDigest) .constraint
  reject (w.rosters.rows.any fun r => r.digest = digest) .constraint
  let rosters ← require
    (w.rosters.insert ⟨epoch, digest, previousDigest, encoded, unixMillis now⟩) .constraint
  return { w with rosters }

/-- `sort.Slice` by the device identifier. -/
def sortCertificates (certificates : List SignedDeviceCertificate) :
    List SignedDeviceCertificate :=
  certificates.insertionSort fun left right => left.body.deviceId ≤ right.body.deviceId

/-- `sort.Slice` by the certificate identifier. -/
def sortRevocations (revocations : List RevokedCertificate) : List RevokedCertificate :=
  revocations.insertionSort fun left right => left.certificateId ≤ right.certificateId

end SevenMirror.Admission
