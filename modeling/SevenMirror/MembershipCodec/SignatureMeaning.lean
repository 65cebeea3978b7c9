import Mathlib.Data.List.Nodup
import Mathlib.Data.Set.Function
import SevenMirror.Lib.Signatures
import SevenMirror.MembershipCodec.Possession
import SevenMirror.MembershipCodec.Validity

/-! A signature means what it says.  What is hashed or signed starts with the domain of its purpose, so
that a text tells the purpose and the message; a signature that is accepted for a message was therefore
made for it, by the function that signs such messages, whatever else the key has signed. -/

namespace SevenMirror.MembershipCodec

open Lib Wire

/-! ### Domains -/

/-- The purposes of the nine domains. -/
inductive Purpose
  | possessionHPKEInfo
  | challengeDigest
  | certificateID
  | certificateSignature
  | rosterDigest
  | rosterSignature
  | authorityTransitionDigest
  | authorityTransitionOldSignature
  | authorityTransitionNewSignature
deriving DecidableEq, Repr

namespace Purpose

def domain : Purpose → Bytes
  | possessionHPKEInfo => possessionHPKEInfoDomain
  | challengeDigest => challengeDigestDomain
  | certificateID => certificateIDDomain
  | certificateSignature => certificateSignatureDomain
  | rosterDigest => rosterDigestDomain
  | rosterSignature => rosterSignatureDomain
  | authorityTransitionDigest => authorityTransitionDigestDomain
  | authorityTransitionOldSignature => authorityTransitionOldSignatureDomain
  | authorityTransitionNewSignature => authorityTransitionNewSignatureDomain

def all : List Purpose :=
  [possessionHPKEInfo, challengeDigest, certificateID, certificateSignature, rosterDigest,
    rosterSignature, authorityTransitionDigest, authorityTransitionOldSignature,
    authorityTransitionNewSignature]

theorem mem_all (p : Purpose) : p ∈ all := by
  cases p <;> decide

theorem domain_injective {p p' : Purpose} (h : p.domain = p'.domain) : p = p' := by
  have hnodup : (all.map domain).Nodup := by decide +kernel
  exact List.inj_on_of_nodup_map hnodup (mem_all p) (mem_all p') h

/-- The zero byte that ends a domain is its only one. -/
theorem domain_terminated (p : Purpose) : Terminated (UInt8.ofNat 0) p.domain := by
  cases p <;> exact ⟨_, rfl, by decide +kernel⟩

/-- A text with a domain is read in one way, over all nine domains. -/
theorem append_inj {p p' : Purpose} {x y : Bytes} (h : p.domain ++ x = p'.domain ++ y) :
    p = p' ∧ x = y := by
  obtain ⟨hdomain, hrest⟩ := p.domain_terminated.append_inj p'.domain_terminated h
  exact ⟨domain_injective hdomain, hrest⟩

end Purpose

/-! ### What is hashed and signed -/

/-- A message and what it is hashed or signed for. -/
inductive Statement
  | challengeDigest (challenge : IdentityPossessionChallenge)
  | certificateID (certificate : DeviceCertificate)
  | certificateSignature (certificate : DeviceCertificate)
  | rosterDigest (roster : WorkspaceRoster)
  | rosterSignature (roster : WorkspaceRoster)
  | authorityTransitionDigest (transition : AuthorityKeyTransition)
  | authorityTransitionOldSignature (transition : AuthorityKeyTransition)
  | authorityTransitionNewSignature (transition : AuthorityKeyTransition)
deriving DecidableEq

namespace Statement

def purpose : Statement → Purpose
  | challengeDigest _ => .challengeDigest
  | certificateID _ => .certificateID
  | certificateSignature _ => .certificateSignature
  | rosterDigest _ => .rosterDigest
  | rosterSignature _ => .rosterSignature
  | authorityTransitionDigest _ => .authorityTransitionDigest
  | authorityTransitionOldSignature _ => .authorityTransitionOldSignature
  | authorityTransitionNewSignature _ => .authorityTransitionNewSignature

def encoded : Statement → Except CodecError Bytes
  | challengeDigest challenge => encode challengeCodec challenge
  | certificateID certificate | certificateSignature certificate =>
    encode certificateCodec certificate
  | rosterDigest roster | rosterSignature roster => encode rosterCodec roster
  | authorityTransitionDigest transition | authorityTransitionOldSignature transition
  | authorityTransitionNewSignature transition => encode authorityTransitionCodec transition

/-- `domainBytes`. -/
def text (s : Statement) : Except CodecError Bytes := do
  let encoded ← s.encoded
  return s.purpose.domain ++ encoded

/-- The message has no unknown records. -/
def Plain : Statement → Prop
  | challengeDigest challenge => challengeCodec.Plain challenge
  | certificateID certificate | certificateSignature certificate =>
    certificateCodec.Plain certificate
  | rosterDigest roster | rosterSignature roster => rosterCodec.Plain roster
  | authorityTransitionDigest transition | authorityTransitionOldSignature transition
  | authorityTransitionNewSignature transition => authorityTransitionCodec.Plain transition

theorem text_eq_ok {s : Statement} {b : Bytes} :
    s.text = .ok b ↔ ∃ encoded, s.encoded = .ok encoded ∧ s.purpose.domain ++ encoded = b := by
  simp only [text, bind_eq_ok, pure_eq_ok]

/-- A text says which message it is of, and for which purpose. -/
theorem text_inj {s s' : Statement} {b : Bytes} (hs : s.Plain) (hs' : s'.Plain)
    (h : s.text = .ok b) (h' : s'.text = .ok b) : s = s' := by
  obtain ⟨encoded, hencoded, hb⟩ := text_eq_ok.mp h
  obtain ⟨encoded', hencoded', hb'⟩ := text_eq_ok.mp h'
  obtain ⟨hpurpose, rfl⟩ := Purpose.append_inj (hb.trans hb'.symm)
  cases s <;> cases s' <;> cases hpurpose <;>
    exact congrArg _ (encode_inj hs hs' hencoded hencoded')

end Statement

/-! ### Signing -/

/-- A call of one of the functions that sign, with private keys. -/
inductive SignCall
  | certificate (certificate : DeviceCertificate) (key : Bytes)
  | roster (roster : WorkspaceRoster) (key : Bytes)
  | transition (transition : AuthorityKeyTransition) (previousKey newKey : Bytes)

/-- What the call states, and with which public keys, if it succeeds. -/
def SignCall.statements (crypto : Crypto) : SignCall → List (Bytes × Statement)
  | .certificate c key =>
    match signDeviceCertificate crypto c key with
    | .error _ => []
    | .ok _ => [(publicKey key, .certificateSignature c)]
  | .roster r key =>
    match signWorkspaceRoster crypto r key with
    | .error _ => []
    | .ok _ => [(publicKey key, .rosterSignature r)]
  | .transition t previousKey newKey =>
    match signAuthorityKeyTransition crypto t previousKey newKey with
    | .error _ => []
    | .ok _ => [(publicKey previousKey, .authorityTransitionOldSignature t),
        (publicKey newKey, .authorityTransitionNewSignature t)]

/-- The texts that the call has `ed25519.Sign` sign. -/
def SignCall.requests (crypto : Crypto) (call : SignCall) : List (Bytes × Bytes) :=
  (call.statements crypto).filterMap fun stated => stated.2.text.toOption.map (stated.1, ·)

/-- The signatures in what the functions return are of the texts of their statements. -/
structure SignsStatements (crypto : Crypto) : Prop where
  certificate : ∀ certificate key signed,
    signDeviceCertificate crypto certificate key = .ok signed →
    ∃ b, (Statement.certificateSignature certificate).text = .ok b ∧
      signed.authoritySignature = (crypto.sign key b).bytes
  roster : ∀ roster key signed, signWorkspaceRoster crypto roster key = .ok signed →
    ∃ b, (Statement.rosterSignature roster).text = .ok b ∧
      signed.authoritySignature = (crypto.sign key b).bytes
  previousAuthority : ∀ transition previousKey newKey signed,
    signAuthorityKeyTransition crypto transition previousKey newKey = .ok signed →
    ∃ b, (Statement.authorityTransitionOldSignature transition).text = .ok b ∧
      signed.previousAuthoritySignature = (crypto.sign previousKey b).bytes
  newAuthority : ∀ transition previousKey newKey signed,
    signAuthorityKeyTransition crypto transition previousKey newKey = .ok signed →
    ∃ b, (Statement.authorityTransitionNewSignature transition).text = .ok b ∧
      signed.newAuthoritySignature = (crypto.sign newKey b).bytes

theorem signsStatements (crypto : Crypto) : SignsStatements crypto := by
  refine ⟨fun c key signed h => ?_, fun r key signed h => ?_, fun t k k' signed h => ?_,
    fun t k k' signed h => ?_⟩
  · simp only [signDeviceCertificate, bind_eq_ok, pure_eq_ok] at h
    obtain ⟨-, -, -, -, encoded, hencoded, rfl⟩ := h
    exact ⟨_, Statement.text_eq_ok.mpr ⟨encoded, hencoded, rfl⟩, rfl⟩
  · simp only [signWorkspaceRoster, bind_eq_ok, pure_eq_ok] at h
    obtain ⟨-, -, -, -, encoded, hencoded, rfl⟩ := h
    exact ⟨_, Statement.text_eq_ok.mpr ⟨encoded, hencoded, rfl⟩, rfl⟩
  · simp only [signAuthorityKeyTransition, bind_eq_ok, pure_eq_ok] at h
    obtain ⟨-, -, -, -, encoded, hencoded, rfl⟩ := h
    exact ⟨_, Statement.text_eq_ok.mpr ⟨encoded, hencoded, rfl⟩, rfl⟩
  · simp only [signAuthorityKeyTransition, bind_eq_ok, pure_eq_ok] at h
    obtain ⟨-, -, -, -, encoded, hencoded, rfl⟩ := h
    exact ⟨_, Statement.text_eq_ok.mpr ⟨encoded, hencoded, rfl⟩, rfl⟩

/-- What a call states is plain, since it was validated. -/
theorem SignCall.plain_of_mem {crypto : Crypto} {call : SignCall} {key : Bytes} {s : Statement}
    (h : (key, s) ∈ call.statements crypto) : s.Plain := by
  cases call with
  | certificate certificate key =>
    simp only [SignCall.statements] at h
    split at h
    · exact absurd h List.not_mem_nil
    · rename_i signed hsigned
      simp only [signDeviceCertificate, bind_eq_ok, exists_unit] at hsigned
      cases List.mem_singleton.mp h
      exact certificate_plain hsigned.1
  | roster roster key =>
    simp only [SignCall.statements] at h
    split at h
    · exact absurd h List.not_mem_nil
    · rename_i signed hsigned
      simp only [signWorkspaceRoster, bind_eq_ok, exists_unit] at hsigned
      cases List.mem_singleton.mp h
      exact (validateWorkspaceRoster_iff.mp hsigned.2.1).plain
  | transition transition previousKey newKey =>
    simp only [SignCall.statements] at h
    split at h
    · exact absurd h List.not_mem_nil
    · rename_i signed hsigned
      simp only [signAuthorityKeyTransition, bind_eq_ok, exists_unit] at hsigned
      have hplain := transition_plain hsigned.2.1
      rcases List.mem_cons.mp h with heq | hmem
      · cases heq
        exact hplain
      · cases List.mem_singleton.mp hmem
        exact hplain

/-! ### Ideal signatures -/

/-- Ed25519 as an oracle, which knows the public keys and the texts that were signed: a signature
verifies under a key only for a text that was signed with it. -/
structure IdealEd25519 (oracle : List (Bytes × Bytes) → Crypto) : Prop where
  verifies : ∀ log key b signature,
    (oracle log).verify key b signature = true → (key, b) ∈ log

section Oracle

variable (oracle : List (Bytes × Bytes) → Crypto) (calls : List SignCall)

/-- The cryptography after the calls, each of which runs with what was signed before. -/
def after : Crypto := oracle (transcript (fun log call => call.requests (oracle log)) calls)

/-- One of the calls made the statement, with the private key to this public key. -/
def Stated (key : Bytes) (s : Statement) : Prop :=
  ∃ before call later, calls = before ++ call :: later ∧
    (key, s) ∈ call.statements (after oracle before)

/-- The statement was made with the key, and its text was not signed as any other statement. -/
structure Means (key : Bytes) (s : Statement) : Prop where
  stated : Stated oracle calls key s
  only : ∀ key' s', Stated oracle calls key' s' → s'.text = s.text → s' = s

end Oracle

section Accepted

variable {oracle : List (Bytes × Bytes) → Crypto} {calls : List SignCall} {key b : Bytes}
  {s : Statement}

theorem Stated.plain (h : Stated oracle calls key s) : s.Plain := by
  obtain ⟨before, call, later, -, hmem⟩ := h
  exact call.plain_of_mem hmem

/-- What verifies for the text of a statement was signed as that statement. -/
theorem means_of_verify (hideal : IdealEd25519 oracle) (hs : s.Plain) (htext : s.text = .ok b)
    {signature : Bytes} (h : (after oracle calls).verify key b signature = true) :
    Means oracle calls key s := by
  have honly : ∀ key' s', Stated oracle calls key' s' → s'.text = s.text → s' = s :=
    fun _ s' hstated hsame => Statement.text_inj hstated.plain hs (hsame.trans htext) htext
  obtain ⟨before, call, later, rfl, hrequest⟩ :=
    exists_of_mem_transcript _ (hideal.verifies _ _ _ _ h)
  obtain ⟨⟨key', s'⟩, hstatement, hrequested⟩ := List.mem_filterMap.mp hrequest
  obtain ⟨b', hb', hpair⟩ := Option.map_eq_some_iff.mp hrequested
  cases hpair
  have htext' : s'.text = .ok b := by
    cases hresult : s'.text with
    | error e =>
      rw [hresult] at hb'
      cases hb'
    | ok b' =>
      rw [hresult] at hb'
      cases hb'
      rfl
  have hstated : Stated oracle (before ++ call :: later) key' s' :=
    ⟨before, call, later, rfl, hstatement⟩
  obtain rfl := honly _ _ hstated (htext'.trans htext.symm)
  exact ⟨hstated, honly⟩

theorem certificate_means (hideal : IdealEd25519 oracle) {value : SignedDeviceCertificate}
    (h : validateSignedDeviceCertificate (after oracle calls) value key = .ok ()) :
    ∃ c, value.certificate = some c ∧ Means oracle calls key (.certificateSignature c) := by
  obtain ⟨-, -, c, encoded, hc, hvalid, hencoded, -, -, hverify⟩ :=
    validateSignedDeviceCertificate_iff.mp h
  have htext : (Statement.certificateSignature c).text = .ok _ :=
    Statement.text_eq_ok.mpr ⟨encoded, hencoded, rfl⟩
  exact ⟨c, hc, means_of_verify hideal (certificate_plain hvalid) htext hverify⟩

theorem roster_means (hideal : IdealEd25519 oracle) {value : SignedWorkspaceRoster}
    (h : validateSignedWorkspaceRoster (after oracle calls) value key = .ok ()) :
    ∃ r, value.roster = some r ∧ Means oracle calls key (.rosterSignature r) := by
  obtain ⟨-, -, r, encoded, hr, hvalid, hencoded, -, -, hverify⟩ :=
    validateSignedWorkspaceRoster_iff.mp h
  have htext : (Statement.rosterSignature r).text = .ok _ :=
    Statement.text_eq_ok.mpr ⟨encoded, hencoded, rfl⟩
  exact ⟨r, hr, means_of_verify hideal hvalid.plain htext hverify⟩

/-- Each half of a transition was signed as that half. -/
theorem transition_means (hideal : IdealEd25519 oracle) {value : SignedAuthorityKeyTransition}
    (h : validateSignedAuthorityKeyTransition (after oracle calls) value = .ok ()) :
    ∃ t, value.transition = some t ∧
      Means oracle calls t.previousAuthorityPublicKey (.authorityTransitionOldSignature t) ∧
      Means oracle calls t.newAuthorityPublicKey (.authorityTransitionNewSignature t) := by
  obtain ⟨-, t, encoded, ht, hvalid, hencoded, -, -, hold, -, hnew⟩ :=
    validateSignedAuthorityKeyTransition_iff.mp h
  have hplain := transition_plain hvalid
  have htextOld : (Statement.authorityTransitionOldSignature t).text = .ok _ :=
    Statement.text_eq_ok.mpr ⟨encoded, hencoded, rfl⟩
  have htextNew : (Statement.authorityTransitionNewSignature t).text = .ok _ :=
    Statement.text_eq_ok.mpr ⟨encoded, hencoded, rfl⟩
  exact ⟨t, ht, means_of_verify hideal hplain htextOld hold,
    means_of_verify hideal hplain htextNew hnew⟩

end Accepted

/-! ### Digests -/

/-- The digests and identifiers in accepted messages, and those of challenges. -/
inductive HasDigest (crypto : Crypto) : Statement → Bytes → Prop
  | challenge {c : IdentityPossessionChallenge} {digest : Bytes}
      (h : challengeDigest crypto c = .ok digest) : HasDigest crypto (.challengeDigest c) digest
  | certificate {value : SignedDeviceCertificate} {key : Bytes} {c : DeviceCertificate}
      (h : validateSignedDeviceCertificate crypto value key = .ok ())
      (hc : value.certificate = some c) : HasDigest crypto (.certificateID c) value.certificateId
  | roster {value : SignedWorkspaceRoster} {key : Bytes} {r : WorkspaceRoster}
      (h : validateSignedWorkspaceRoster crypto value key = .ok ())
      (hr : value.roster = some r) : HasDigest crypto (.rosterDigest r) value.rosterDigest
  | transition {value : SignedAuthorityKeyTransition} {t : AuthorityKeyTransition}
      (h : validateSignedAuthorityKeyTransition crypto value = .ok ())
      (ht : value.transition = some t) :
      HasDigest crypto (.authorityTransitionDigest t) value.transitionDigest

theorem HasDigest.hashed {crypto : Crypto} {s : Statement} {digest : Bytes}
    (h : HasDigest crypto s digest) :
    s.Plain ∧ ∃ b, s.text = .ok b ∧ digest = (crypto.sha256 b).bytes := by
  cases h with
  | @challenge c digest h =>
    simp only [MembershipCodec.challengeDigest, encodeIdentityPossessionChallenge, bind_eq_ok,
      exists_unit, pure_eq_ok] at h
    obtain ⟨encoded, ⟨hvalid, hencoded⟩, rfl⟩ := h
    exact ⟨challenge_plain hvalid, _, Statement.text_eq_ok.mpr ⟨encoded, hencoded, rfl⟩, rfl⟩
  | @certificate value key c h hc =>
    obtain ⟨-, -, c', encoded, hc', hvalid, hencoded, hid, -⟩ :=
      validateSignedDeviceCertificate_iff.mp h
    obtain rfl : c' = c := Option.some.inj (hc'.symm.trans hc)
    exact ⟨certificate_plain hvalid, _, Statement.text_eq_ok.mpr ⟨encoded, hencoded, rfl⟩, hid⟩
  | @roster value key r h hr =>
    obtain ⟨-, -, r', encoded, hr', hvalid, hencoded, hdigest, -⟩ :=
      validateSignedWorkspaceRoster_iff.mp h
    obtain rfl : r' = r := Option.some.inj (hr'.symm.trans hr)
    exact ⟨hvalid.plain, _, Statement.text_eq_ok.mpr ⟨encoded, hencoded, rfl⟩, hdigest⟩
  | @transition value t h ht =>
    obtain ⟨-, t', encoded, ht', hvalid, hencoded, hdigest, -⟩ :=
      validateSignedAuthorityKeyTransition_iff.mp h
    obtain rfl : t' = t := Option.some.inj (ht'.symm.trans ht)
    exact ⟨transition_plain hvalid, _, Statement.text_eq_ok.mpr ⟨encoded, hencoded, rfl⟩, hdigest⟩

/-- Where the hash function tells the texts apart, a digest belongs to one message and one kind. -/
theorem HasDigest.inj {crypto : Crypto} {hashed : Set Statement}
    (hinj : Set.InjOn crypto.sha256 {b | ∃ s ∈ hashed, s.text = .ok b}) {s s' : Statement}
    (hs : s ∈ hashed) (hs' : s' ∈ hashed) {digest : Bytes} (h : HasDigest crypto s digest)
    (h' : HasDigest crypto s' digest) : s = s' := by
  obtain ⟨hplain, b, htext, hdigest⟩ := h.hashed
  obtain ⟨hplain', b', htext', hdigest'⟩ := h'.hashed
  have hsame : crypto.sha256 b = crypto.sha256 b' := Block.ext (hdigest.symm.trans hdigest')
  obtain rfl := hinj ⟨s, hs, htext⟩ ⟨s', hs', htext'⟩ hsame
  exact Statement.text_inj hplain hplain' htext htext'

/-! ### Encryption contexts -/

/-- The identifiers have fixed sizes, so that their concatenation tells them. -/
theorem possessionHPKEInfo_inj {workspaceID deviceID keyID workspaceID' deviceID' keyID' : Bytes}
    {info : Bytes} (h : possessionHPKEInfo workspaceID deviceID keyID = .ok info)
    (h' : possessionHPKEInfo workspaceID' deviceID' keyID' = .ok info) :
    workspaceID = workspaceID' ∧ deviceID = deviceID' ∧ keyID = keyID' := by
  simp only [possessionHPKEInfo, validateBinding, bind_eq_ok, exists_unit, reject_eq_ok, not_or,
    ne_eq, Decidable.not_not, pure_eq_ok] at h h'
  obtain ⟨⟨hworkspace, -, hdevice, -⟩, rfl⟩ := h
  obtain ⟨⟨hworkspace', -, hdevice', -⟩, heq⟩ := h'
  simp only [List.append_assoc, List.append_cancel_left_eq] at heq
  obtain ⟨hw, hrest⟩ := List.append_inj heq (hworkspace'.trans hworkspace.symm)
  obtain ⟨hd, hk⟩ := List.append_inj hrest (hdevice'.trans hdevice.symm)
  exact ⟨hw.symm, hd.symm, hk.symm⟩

/-- After any calls that sign, with whichever keys, what the validators accept under a key was signed
with it in the role in which it is accepted, and its text was not signed in another one; digests of
different kinds differ; and the encryption context of a challenge tells what it is for. -/
theorem signatures_mean_what_they_say (oracle : List (Bytes × Bytes) → Crypto)
    (hideal : IdealEd25519 oracle) (calls : List SignCall) :
    (∀ value key, validateSignedDeviceCertificate (after oracle calls) value key = .ok () →
      ∃ c, value.certificate = some c ∧ Means oracle calls key (.certificateSignature c)) ∧
    (∀ value key, validateSignedWorkspaceRoster (after oracle calls) value key = .ok () →
      ∃ r, value.roster = some r ∧ Means oracle calls key (.rosterSignature r)) ∧
    (∀ value, validateSignedAuthorityKeyTransition (after oracle calls) value = .ok () →
      ∃ t, value.transition = some t ∧
        Means oracle calls t.previousAuthorityPublicKey (.authorityTransitionOldSignature t) ∧
        Means oracle calls t.newAuthorityPublicKey (.authorityTransitionNewSignature t)) ∧
    (∀ crypto, SignsStatements crypto) ∧
    (∀ (crypto : Crypto) (hashed : Set Statement),
      Set.InjOn crypto.sha256 {b | ∃ s ∈ hashed, s.text = .ok b} →
      ∀ s ∈ hashed, ∀ s' ∈ hashed, ∀ digest, HasDigest crypto s digest →
        HasDigest crypto s' digest → s = s') ∧
    (∀ workspaceID deviceID keyID workspaceID' deviceID' keyID' info,
      possessionHPKEInfo workspaceID deviceID keyID = .ok info →
      possessionHPKEInfo workspaceID' deviceID' keyID' = .ok info →
      workspaceID = workspaceID' ∧ deviceID = deviceID' ∧ keyID = keyID') :=
  ⟨fun _ _ h => certificate_means hideal h, fun _ _ h => roster_means hideal h,
    fun _ h => transition_means hideal h, signsStatements,
    fun _ _ hinj _ hs _ hs' _ h h' => h.inj hinj hs hs' h',
    fun _ _ _ _ _ _ _ h h' => possessionHPKEInfo_inj h h'⟩

/-- An oracle that looks into the log. -/
def logOracle (log : List (Bytes × Bytes)) : Crypto where
  sha256 _ := ⟨List.replicate 32 (UInt8.ofNat 1), rfl⟩
  sign _ _ := ⟨List.replicate 64 (UInt8.ofNat 5), rfl⟩
  verify key b _ := decide ((key, b) ∈ log)
  onCurve _ := true

theorem logOracle_ideal : IdealEd25519 logOracle := ⟨fun _ _ _ _ h => of_decide_eq_true h⟩

/-- A private key for both roles of an authority. -/
def loggedKey : Bytes := List.replicate 64 (UInt8.ofNat 3)

def loggedCertificate : DeviceCertificate where
  protocolVersion := protocolVersion
  workspaceId := List.replicate 16 (UInt8.ofNat 1)
  deviceId := List.replicate 16 (UInt8.ofNat 2)
  deviceType := deviceTypeAndroid
  displayName := [UInt8.ofNat 0x61]
  roles := [deviceRoleSendNotifications]
  identityPublicKey := List.replicate 65 (UInt8.ofNat 4)
  identityKeyId := List.replicate 32 (UInt8.ofNat 1)
  issuedAtUnixMs := 1
  membershipEpoch := 1

def loggedSignedCertificate : SignedDeviceCertificate where
  certificate := some loggedCertificate
  certificateId := List.replicate 32 (UInt8.ofNat 1)
  authoritySignature := List.replicate 64 (UInt8.ofNat 5)

def loggedRoster : WorkspaceRoster where
  protocolVersion := protocolVersion
  workspaceId := List.replicate 16 (UInt8.ofNat 1)
  rosterEpoch := 1
  previousRosterDigest := List.replicate 32 (UInt8.ofNat 0)
  activeCertificates := [loggedSignedCertificate]

def loggedSignedRoster : SignedWorkspaceRoster where
  roster := some loggedRoster
  rosterDigest := List.replicate 32 (UInt8.ofNat 1)
  authoritySignature := List.replicate 64 (UInt8.ofNat 5)

/-- The certificate is signed, and then the roster that holds it, with the same key. -/
def loggedCalls : List SignCall :=
  [.certificate loggedCertificate loggedKey, .roster loggedRoster loggedKey]

theorem signatures_mean_what_they_say_logged :
    validateSignedWorkspaceRoster (after logOracle loggedCalls) loggedSignedRoster
      (publicKey loggedKey) = .ok () ∧
    Means logOracle loggedCalls (publicKey loggedKey) (.rosterSignature loggedRoster) := by
  have haccepted : validateSignedWorkspaceRoster (after logOracle loggedCalls) loggedSignedRoster
      (publicKey loggedKey) = .ok () := by decide +kernel
  obtain ⟨r, hr, hmeans⟩ := (signatures_mean_what_they_say logOracle logOracle_ideal
    loggedCalls).2.1 loggedSignedRoster (publicKey loggedKey) haccepted
  obtain rfl : loggedRoster = r := Option.some.inj hr
  exact ⟨haccepted, hmeans⟩

end SevenMirror.MembershipCodec
