import SevenMirror.MembershipCodec.Codec

/-! How a device proves that it holds the private key of its identity: the challenge that is encrypted
to the key, the proof that returns its secret, and the digest and the encryption context of a
challenge. -/

namespace SevenMirror.MembershipCodec

open Lib Wire

/-! ### Messages -/

structure IdentityPossessionChallenge where
  protocolVersion : UInt32 := 0
  workspaceId : Bytes := []
  deviceId : Bytes := []
  identityKeyId : Bytes := []
  challengeSecret : Bytes := []
  issuedAtUnixMs : UInt64 := 0
  expiresAtUnixMs : UInt64 := 0
  unknown : Bytes := []
deriving DecidableEq, Repr

structure PendingIdentityProof where
  protocolVersion : UInt32 := 0
  workspaceId : Bytes := []
  deviceId : Bytes := []
  identityKeyId : Bytes := []
  challengeDigest : Bytes := []
  challengeSecret : Bytes := []
  unknown : Bytes := []
deriving DecidableEq, Repr

def challengeCodec : Codec IdentityPossessionChallenge where
  fields :=
    [uint32.field 1 { get := (·.protocolVersion),
                      set := fun v m => { m with protocolVersion := v } },
      bytes.field 2 { get := (·.workspaceId), set := fun v m => { m with workspaceId := v } },
      bytes.field 3 { get := (·.deviceId), set := fun v m => { m with deviceId := v } },
      bytes.field 4 { get := (·.identityKeyId), set := fun v m => { m with identityKeyId := v } },
      bytes.field 5 { get := (·.challengeSecret),
                      set := fun v m => { m with challengeSecret := v } },
      uint64.field 6 { get := (·.issuedAtUnixMs), set := fun v m => { m with issuedAtUnixMs := v } },
      uint64.field 7 { get := (·.expiresAtUnixMs),
                       set := fun v m => { m with expiresAtUnixMs := v } }]
  empty := {}
  unknown := { get := (·.unknown), set := fun v m => { m with unknown := v } }
  ascending := by decide
  valid := by decide
  builds := fun ⟨_, _, _, _, _, _, _, _⟩ h =>
    ⟨rfl, rfl, rfl, rfl, rfl, rfl, rfl, by cases h; rfl⟩

def proofCodec : Codec PendingIdentityProof where
  fields :=
    [uint32.field 1 { get := (·.protocolVersion),
                      set := fun v m => { m with protocolVersion := v } },
      bytes.field 2 { get := (·.workspaceId), set := fun v m => { m with workspaceId := v } },
      bytes.field 3 { get := (·.deviceId), set := fun v m => { m with deviceId := v } },
      bytes.field 4 { get := (·.identityKeyId), set := fun v m => { m with identityKeyId := v } },
      bytes.field 5 { get := (·.challengeDigest),
                      set := fun v m => { m with challengeDigest := v } },
      bytes.field 6 { get := (·.challengeSecret),
                      set := fun v m => { m with challengeSecret := v } }]
  empty := {}
  unknown := { get := (·.unknown), set := fun v m => { m with unknown := v } }
  ascending := by decide
  valid := by decide
  builds := fun ⟨_, _, _, _, _, _, _⟩ h => ⟨rfl, rfl, rfl, rfl, rfl, rfl, by cases h; rfl⟩

/-! ### Validation -/

def possessionHPKEInfoDomain : Bytes := domain "possession-hpke-info-v1"

def challengeDigestDomain : Bytes := domain "possession-challenge-digest-v1"

/-- `MaxChallengeLifetime / time.Millisecond`. -/
def maxChallengeLifetime : UInt64 := 600000

def validateChallenge (value : IdentityPossessionChallenge) : Except CodecError Unit := do
  reject (value.unknown ≠ []) .challengeMissing
  reject (value.protocolVersion ≠ protocolVersion) .challengeVersion
  validateBinding value.workspaceId value.deviceId value.identityKeyId
  reject (value.challengeSecret.length ≠ digestSize ∨ allZero value.challengeSecret)
    .challengeSecret
  reject (value.issuedAtUnixMs = 0 ∨ value.issuedAtUnixMs > maxEpoch ∨
    value.expiresAtUnixMs ≤ value.issuedAtUnixMs ∨ value.expiresAtUnixMs > maxEpoch ∨
    value.expiresAtUnixMs - value.issuedAtUnixMs > maxChallengeLifetime) .challengeLifetime

def validateProof (value : PendingIdentityProof) : Except CodecError Unit := do
  reject (value.unknown ≠ []) .proofMissing
  reject (value.protocolVersion ≠ protocolVersion) .proofVersion
  validateBinding value.workspaceId value.deviceId value.identityKeyId
  reject (value.challengeDigest.length ≠ digestSize ∨ allZero value.challengeDigest ∨
    value.challengeSecret.length ≠ digestSize ∨ allZero value.challengeSecret) .proofValues

def encodeIdentityPossessionChallenge (value : IdentityPossessionChallenge) :
    Except CodecError Bytes := do
  validateChallenge value
  encode challengeCodec value

def decodeIdentityPossessionChallenge (encoded : Bytes) :
    Except CodecError IdentityPossessionChallenge := do
  let value ← decodeCanonical challengeCodec encoded
  validateChallenge value
  return value

def encodePendingIdentityProof (value : PendingIdentityProof) : Except CodecError Bytes := do
  validateProof value
  encode proofCodec value

def decodePendingIdentityProof (encoded : Bytes) : Except CodecError PendingIdentityProof := do
  let value ← decodeCanonical proofCodec encoded
  validateProof value
  return value

def possessionHPKEInfo (workspaceID deviceID identityKeyID : Bytes) : Except CodecError Bytes := do
  validateBinding workspaceID deviceID identityKeyID
  return possessionHPKEInfoDomain ++ workspaceID ++ deviceID ++ identityKeyID

def challengeDigest (crypto : Crypto) (challenge : IdentityPossessionChallenge) :
    Except CodecError Bytes := do
  let encoded ← encodeIdentityPossessionChallenge challenge
  return domainHash crypto challengeDigestDomain encoded

def validateProofAgainstChallenge (crypto : Crypto) (proof : PendingIdentityProof)
    (challenge : IdentityPossessionChallenge) : Except CodecError Unit := do
  validateProof proof
  let digest ← challengeDigest crypto challenge
  reject (proof.workspaceId ≠ challenge.workspaceId ∨ proof.deviceId ≠ challenge.deviceId ∨
    proof.identityKeyId ≠ challenge.identityKeyId ∨ proof.challengeDigest ≠ digest ∨
    proof.challengeSecret ≠ challenge.challengeSecret) .proofMismatch

/-! ### What is accepted is plain -/

theorem challenge_plain {value : IdentityPossessionChallenge}
    (h : validateChallenge value = .ok ()) : challengeCodec.Plain value := by
  simp only [validateChallenge, bind_eq_ok, exists_unit, reject_eq_ok] at h
  refine ⟨by simpa [challengeCodec] using h.1, ?_⟩
  simp [challengeCodec, Kind.field, uint32, uint64, scalar, bytes, blob]

theorem proof_plain {value : PendingIdentityProof} (h : validateProof value = .ok ()) :
    proofCodec.Plain value := by
  simp only [validateProof, bind_eq_ok, exists_unit, reject_eq_ok] at h
  refine ⟨by simpa [proofCodec] using h.1, ?_⟩
  simp [proofCodec, Kind.field, uint32, scalar, bytes, blob]

end SevenMirror.MembershipCodec
