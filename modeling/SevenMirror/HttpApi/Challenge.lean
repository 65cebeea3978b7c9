import SevenMirror.Admission.Progress
import SevenMirror.MembershipCodec.Possession

/-! The challenge of `internal/membership/identity_challenge.go`, which is sealed to the identity key
that a device proposes, and the answer of the device that
`protocol/workspace-membership-v1.md` asks for.  A device that holds the private key opens what the
server sealed, and answers with the secret and the digest that the server has kept. -/

namespace SevenMirror.HttpApi

open Lib Wire MembershipCodec Admission

/-- Base-mode HPKE: `NewPublicKey`, `NewSender` and `Seal` with the randomness of the sender, and
`NewRecipient` and `Open`. -/
structure Hpke where
  sealTo (publicKey info plaintext randomness : Bytes) : Option (Bytes × Bytes)
  openWith (privateKey info encapsulatedKey ciphertext : Bytes) : Option Bytes

/-- With this randomness, what is sealed to the public key is opened with the private key. -/
def Hpke.Opens (hpke : Hpke) (privateKey publicKey randomness : Bytes) : Prop :=
  ∀ info plaintext, ∃ encapsulatedKey ciphertext,
    hpke.sealTo publicKey info plaintext randomness = some (encapsulatedKey, ciphertext) ∧
    hpke.openWith privateKey info encapsulatedKey ciphertext = some plaintext

/-- Five minutes, in nanoseconds. -/
def identityChallengeLifetime : Int := 5 * 60 * 1000000000

structure IdentityChallenge where
  canonicalPlaintext : Bytes
  digest : Bytes
  secret : Block 32
  expiresAt : Time
  encapsulatedKey : Bytes
  ciphertext : Bytes
deriving DecidableEq, Repr

inductive ChallengeError
  | time | random | sealing
  | codec (error : CodecError)
deriving DecidableEq, Repr

/-- What the random source gives: the secret, unless it fails, and what the sender draws. -/
structure ChallengeRandom where
  secret : Option (Block 32)
  sender : Bytes

/-- The message that `CreateIdentityChallenge` encodes. -/
def challengeMessage (crypto : Crypto) (workspaceID deviceID identityPublicKey : Bytes) (now : Time)
    (secret : Block 32) : IdentityPossessionChallenge where
  protocolVersion := protocolVersion
  workspaceId := workspaceID
  deviceId := deviceID
  identityKeyId := (crypto.sha256 identityPublicKey).bytes
  challengeSecret := secret.bytes
  issuedAtUnixMs := unixMillisUnsigned now
  expiresAtUnixMs := unixMillisUnsigned ⟨now.nanos + identityChallengeLifetime⟩

section Programs

variable (crypto : Crypto) (hpke : Hpke)

def createIdentityChallenge (workspaceID deviceID identityPublicKey : Bytes) (now : Time)
    (random : ChallengeRandom) : Except ChallengeError IdentityChallenge := do
  reject (now.unixMilli ≤ 0) .time
  let identityKeyID := (crypto.sha256 identityPublicKey).bytes
  let info ← rethrow .codec (possessionHPKEInfo workspaceID deviceID identityKeyID)
  let secret ← require random.secret .random
  let challenge := challengeMessage crypto workspaceID deviceID identityPublicKey now secret
  let plaintext ← rethrow .codec (encodeIdentityPossessionChallenge challenge)
  let digest ← rethrow .codec (challengeDigest crypto challenge)
  let (encapsulatedKey, ciphertext) ←
    require (hpke.sealTo identityPublicKey info plaintext random.sender) .sealing
  return ⟨plaintext, digest, secret, ⟨now.nanos + identityChallengeLifetime⟩, encapsulatedKey,
    ciphertext⟩

/-- The device: it opens the challenge, and encodes the proof that returns its secret. -/
def answerChallenge (privateKey identityPublicKey workspaceID deviceID encapsulatedKey
    ciphertext : Bytes) : Option Bytes := do
  let identityKeyID := (crypto.sha256 identityPublicKey).bytes
  let info ← (possessionHPKEInfo workspaceID deviceID identityKeyID).toOption
  let plaintext ← hpke.openWith privateKey info encapsulatedKey ciphertext
  let challenge ← (decodeIdentityPossessionChallenge plaintext).toOption
  let digest ← (challengeDigest crypto challenge).toOption
  (encodePendingIdentityProof
    ⟨protocolVersion, workspaceID, deviceID, identityKeyID, digest, challenge.challengeSecret,
      []⟩).toOption

end Programs

/-! ### Both messages are encoded -/

theorem encodeIdentityPossessionChallenge_of_valid {value : IdentityPossessionChallenge}
    (h : validateChallenge value = .ok ()) :
    ∃ encoded, encodeIdentityPossessionChallenge value = .ok encoded := by
  have hvalid := h
  simp only [validateChallenge, validateBinding, bind_eq_ok, exists_unit, reject_eq_ok, not_or, ne_eq,
    Decidable.not_not, gt_iff_lt, UInt64.not_lt] at h
  obtain ⟨hunknown, hversion, ⟨hworkspace, -, hdevice, -, hkey, -⟩, ⟨hsecret, -⟩,
    -, hissued, -, hexpires, -⟩ := h
  have hfields : Within (Codec.emitAll value challengeCodec.fields) _ _ :=
    within_emitAll_cons (within_version (by decide) hversion) <|
    within_emitAll_cons (within_block (by decide) hworkspace (by decide) (by decide)) <|
    within_emitAll_cons (within_block (by decide) hdevice (by decide) (by decide)) <|
    within_emitAll_cons (within_block (by decide) hkey (by decide) (by decide)) <|
    within_emitAll_cons (within_block (by decide) hsecret (by decide) (by decide)) <|
    within_emitAll_cons (within_number (by decide) hissued) <|
    within_emitAll_cons (within_number (by decide) hexpires) within_emitAll_nil
  obtain ⟨encoded, hencode, -⟩ :=
    encode_of_within (within_marshal hunknown hfields) (by decide) (by decide)
  exact ⟨encoded, by simpa only [encodeIdentityPossessionChallenge, hvalid, ok_bind] using hencode⟩

theorem encodePendingIdentityProof_of_valid {value : MembershipCodec.PendingIdentityProof}
    (h : validateProof value = .ok ()) :
    ∃ encoded, encodePendingIdentityProof value = .ok encoded := by
  have hvalid := h
  simp only [validateProof, validateBinding, bind_eq_ok, exists_unit, reject_eq_ok, not_or, ne_eq,
    Decidable.not_not] at h
  obtain ⟨hunknown, hversion, ⟨hworkspace, -, hdevice, -, hkey, -⟩, hdigest, -, hsecret, -⟩ := h
  have hfields : Within (Codec.emitAll value proofCodec.fields) _ _ :=
    within_emitAll_cons (within_version (by decide) hversion) <|
    within_emitAll_cons (within_block (by decide) hworkspace (by decide) (by decide)) <|
    within_emitAll_cons (within_block (by decide) hdevice (by decide) (by decide)) <|
    within_emitAll_cons (within_block (by decide) hkey (by decide) (by decide)) <|
    within_emitAll_cons (within_block (by decide) hdigest (by decide) (by decide)) <|
    within_emitAll_cons (within_block (by decide) hsecret (by decide) (by decide)) within_emitAll_nil
  obtain ⟨encoded, hencode, -⟩ :=
    encode_of_within (within_marshal hunknown hfields) (by decide) (by decide)
  exact ⟨encoded, by simpa only [encodePendingIdentityProof, hvalid, ok_bind] using hencode⟩

/-! ### The instants of a challenge -/

section Instants

variable {now : Time}

/-- An instant that `UnixMilli` and `UnixNano` give, not in the first millisecond of 1970. -/
def Present (now : Time) : Prop := 1000000 ≤ now.nanos ∧ now.nanos ≤ maxInt64

theorem unixMillis_eq (hlow : 0 ≤ now.nanos) (hhigh : now.nanos ≤ 2 * maxInt64) :
    unixMillis now = now.nanos / 1000000 := by
  unfold maxInt64 at hhigh
  simp only [unixMillis, Time.unixMilli]
  apply Int.bmod_eq_of_le <;> omega

/-- A challenge expires 300000 milliseconds later. -/
theorem Present.expires (h : Present now) :
    unixMillis ⟨now.nanos + identityChallengeLifetime⟩ = unixMillis now + 300000 := by
  obtain ⟨hlow, hhigh⟩ := h
  rw [unixMillis_eq, unixMillis_eq] <;> simp only [identityChallengeLifetime, maxInt64] at * <;> omega

theorem Present.positive (h : Present now) : 0 < unixMillis now := by
  obtain ⟨hlow, hhigh⟩ := h
  rw [unixMillis_eq] <;> simp only [maxInt64] at * <;> omega

theorem toNat_unixMillisUnsigned (h : 0 < unixMillis now) :
    (unixMillisUnsigned now).toNat = (unixMillis now).toNat := by
  have hlt := unixMillis_lt now
  simp only [unixMillisUnsigned, UInt64.ofInt, UInt64.toNat_ofNat']
  omega

end Instants

/-! ### A challenge and its answer -/

/-- What `CreateIdentityChallenge` needs: identifiers and hashes that are not zero, and an instant that
a challenge has room after. -/
structure Challengeable (crypto : Crypto) (workspaceID deviceID identityPublicKey : Bytes) (now : Time)
    (secret : Block 32) : Prop where
  binding : validateBinding workspaceID deviceID (crypto.sha256 identityPublicKey).bytes = .ok ()
  present : Present now
  fresh : allZero secret.bytes = false
  digest : ∀ digest, challengeDigest crypto
    (challengeMessage crypto workspaceID deviceID identityPublicKey now secret) = .ok digest →
      allZero digest = false

section Answers

variable {crypto : Crypto} {hpke : Hpke} {workspaceID deviceID identityPublicKey : Bytes} {now : Time}
  {secret : Block 32}

theorem Challengeable.valid
    (h : Challengeable crypto workspaceID deviceID identityPublicKey now secret) :
    validateChallenge (challengeMessage crypto workspaceID deviceID identityPublicKey now secret) =
      .ok () := by
  have hexpires := h.present.expires
  have hlater : 0 < unixMillis ⟨now.nanos + identityChallengeLifetime⟩ := by
    have hnow := h.present.positive
    omega
  have hissued := unixMillisUnsigned_bounds h.present.positive
  have hbounds := unixMillisUnsigned_bounds hlater
  have hnow := toNat_unixMillisUnsigned h.present.positive
  have hthen := toNat_unixMillisUnsigned hlater
  have hlt := unixMillis_lt ⟨now.nanos + identityChallengeLifetime⟩
  have hbefore : unixMillisUnsigned now <
      unixMillisUnsigned ⟨now.nanos + identityChallengeLifetime⟩ := by
    rw [UInt64.lt_iff_toNat_lt]
    omega
  have hlifetime : unixMillisUnsigned ⟨now.nanos + identityChallengeLifetime⟩ -
      unixMillisUnsigned now ≤ maxChallengeLifetime := by
    rw [UInt64.le_iff_toNat_le, UInt64.toNat_sub_of_le _ _ (UInt64.le_of_lt hbefore)]
    simp only [maxChallengeLifetime, UInt64.reduceToNat]
    omega
  simp only [validateChallenge, bind_eq_ok, exists_unit, reject_eq_ok, challengeMessage, not_or, ne_eq,
    not_true_eq_false, not_false_eq_true, gt_iff_lt, UInt64.not_lt, UInt64.not_le, true_and]
  exact ⟨h.binding, reject_eq_ok.mpr (by simp [secret.size, digestSize, h.fresh]), hissued.1, hissued.2,
    hbefore, hbounds.2, hlifetime⟩

/-- The answer to a challenge: a proof with its digest and its secret. -/
def answerOf (crypto : Crypto) (workspaceID deviceID identityPublicKey digest : Bytes)
    (secret : Block 32) : MembershipCodec.PendingIdentityProof where
  protocolVersion := protocolVersion
  workspaceId := workspaceID
  deviceId := deviceID
  identityKeyId := (crypto.sha256 identityPublicKey).bytes
  challengeDigest := digest
  challengeSecret := secret.bytes

/-- The challenge that the server creates is opened and answered by the holder of the private key. -/
theorem Challengeable.answered {privateKey randomness : Bytes}
    (h : Challengeable crypto workspaceID deviceID identityPublicKey now secret)
    (hopens : hpke.Opens privateKey identityPublicKey randomness) :
    ∃ challenge answer,
      createIdentityChallenge crypto hpke workspaceID deviceID identityPublicKey now
        ⟨some secret, randomness⟩ = .ok challenge ∧
      challenge.digest.length = 32 ∧ allZero challenge.digest = false ∧ challenge.secret = secret ∧
      challenge.expiresAt = ⟨now.nanos + identityChallengeLifetime⟩ ∧
      answerChallenge crypto hpke privateKey identityPublicKey workspaceID deviceID
        challenge.encapsulatedKey challenge.ciphertext = some answer ∧
      decodePendingIdentityProof answer = .ok (answerOf crypto workspaceID deviceID identityPublicKey
        challenge.digest secret) := by
  obtain ⟨plaintext, hencode⟩ := encodeIdentityPossessionChallenge_of_valid h.valid
  have hdecode : decodeIdentityPossessionChallenge plaintext = .ok _ :=
    (decode_iff_encode fun _ => challenge_plain).mpr hencode
  have hdigest : challengeDigest crypto
      (challengeMessage crypto workspaceID deviceID identityPublicKey now secret) =
        .ok (domainHash crypto challengeDigestDomain plaintext) := by
    rw [challengeDigest, hencode]
    rfl
  have hinfo : possessionHPKEInfo workspaceID deviceID (crypto.sha256 identityPublicKey).bytes =
      .ok (possessionHPKEInfoDomain ++ workspaceID ++ deviceID ++
        (crypto.sha256 identityPublicKey).bytes) := by
    rw [possessionHPKEInfo, h.binding]
    rfl
  obtain ⟨encapsulatedKey, ciphertext, hseal, hopen⟩ := hopens (possessionHPKEInfoDomain ++
    workspaceID ++ deviceID ++ (crypto.sha256 identityPublicKey).bytes) plaintext
  -- the proof is one that is encoded
  have hanswer : validateProof (answerOf crypto workspaceID deviceID identityPublicKey
      (domainHash crypto challengeDigestDomain plaintext) secret) = .ok () := by
    simp only [validateProof, answerOf, bind_eq_ok, exists_unit, reject_eq_ok, ne_eq, not_true_eq_false,
      not_false_eq_true, true_and]
    refine ⟨h.binding, reject_eq_ok.mpr ?_⟩
    simp [domainHash_length, secret.size, digestSize, h.digest _ hdigest, h.fresh]
  obtain ⟨answer, hproof⟩ := encodePendingIdentityProof_of_valid hanswer
  refine ⟨⟨plaintext, domainHash crypto challengeDigestDomain plaintext, secret, _, encapsulatedKey,
    ciphertext⟩, answer, ?_, domainHash_length _ _, h.digest _ hdigest, rfl, rfl, ?_,
    (decode_iff_encode fun _ => proof_plain).mpr hproof⟩
  · have hpositive : ¬ now.unixMilli ≤ 0 := by
      have hnow := h.present.positive
      unfold unixMillis at hnow
      omega
    simp only [createIdentityChallenge, bind_eq_ok, exists_unit, reject_eq_ok, rethrow_eq_ok,
      require_eq_ok, pure_eq_ok]
    exact ⟨hpositive, _, hinfo, secret, rfl, plaintext, hencode, _, hdigest, _, hseal, rfl⟩
  · simp only [answerChallenge, hinfo, Except.toOption, Option.bind_eq_bind, Option.bind_some, hopen,
      hdecode, hdigest]
    exact congrArg Except.toOption hproof

end Answers

end SevenMirror.HttpApi
