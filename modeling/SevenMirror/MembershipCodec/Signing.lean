import SevenMirror.MembershipCodec.Sizes

/-! Signing succeeds.  A message that the validators accept is signed and encoded with every key pair,
since nothing but its validity and its size can fail.  What the registry asks of the hash function is
that it tells apart what the registry keeps apart. -/

namespace SevenMirror.MembershipCodec

open Lib Wire

/-- An Ed25519 key pair: the public half accepts what the key signs. -/
structure KeyPair (crypto : Crypto) (privateKey : Bytes) : Prop where
  size : privateKey.length = ed25519PrivateKeySize
  nonzero : allZero (publicKey privateKey) = false
  verifies : ∀ text, crypto.verify (publicKey privateKey) text
    (crypto.sign privateKey text).bytes = true

/-- No digest is zero, and digests tell apart certificates of different devices or epochs, rosters of
different epochs, and authority transitions of different epochs. -/
structure Crypto.Ideal (crypto : Crypto) : Prop where
  nonzero : ∀ text, allZero (crypto.sha256 text).bytes = false
  certificates : ∀ {c c' : DeviceCertificate} {encoded encoded' : Bytes},
    CertificateValid crypto c → CertificateValid crypto c' →
    encode certificateCodec c = .ok encoded → encode certificateCodec c' = .ok encoded' →
    domainHash crypto certificateIDDomain encoded = domainHash crypto certificateIDDomain encoded' →
    c.deviceId = c'.deviceId ∧ c.membershipEpoch = c'.membershipEpoch
  rosters : ∀ {key key' : Bytes} {r r' : WorkspaceRoster} {encoded encoded' : Bytes},
    RosterValid crypto key r → RosterValid crypto key' r' →
    encode rosterCodec r = .ok encoded → encode rosterCodec r' = .ok encoded' →
    domainHash crypto rosterDigestDomain encoded = domainHash crypto rosterDigestDomain encoded' →
    r.rosterEpoch = r'.rosterEpoch
  transitions : ∀ {t t' : AuthorityKeyTransition} {encoded encoded' : Bytes},
    TransitionValid t → TransitionValid t' →
    encode authorityTransitionCodec t = .ok encoded →
    encode authorityTransitionCodec t' = .ok encoded' →
    domainHash crypto authorityTransitionDigestDomain encoded =
      domainHash crypto authorityTransitionDigestDomain encoded' →
    t.transitionEpoch = t'.transitionEpoch

variable {crypto : Crypto} {privateKey : Bytes}

theorem KeyPair.publicKey_size (h : KeyPair crypto privateKey) :
    (publicKey privateKey).length = ed25519PublicKeySize := by
  have hsize := h.size
  simp only [publicKey, List.length_drop, ed25519PrivateKeySize, ed25519PublicKeySize] at hsize ⊢
  omega

/-! ### Certificates -/

theorem signDeviceCertificate_succeeds (hkey : KeyPair crypto privateKey) {c : DeviceCertificate}
    (h : CertificateValid crypto c) :
    ∃ signed encoded, signDeviceCertificate crypto c privateKey = .ok signed ∧
      signed.certificate = some c ∧
      encodeSignedDeviceCertificate crypto signed (publicKey privateKey) = .ok encoded := by
  have hvalid := validateDeviceCertificate_iff.mpr h
  obtain ⟨text, htext, -⟩ := encode_of_within h.within (by decide) (by decide)
  have hsign : signDeviceCertificate crypto c privateKey = .ok
      { certificate := some c
        certificateId := domainHash crypto certificateIDDomain text
        authoritySignature :=
          (crypto.sign privateKey (certificateSignatureDomain ++ text)).bytes } := by
    simp [signDeviceCertificate, hvalid, hkey.size, htext, reject]
  have hsigned : validateSignedDeviceCertificate crypto
      { certificate := some c
        certificateId := domainHash crypto certificateIDDomain text
        authoritySignature :=
          (crypto.sign privateKey (certificateSignatureDomain ++ text)).bytes }
      (publicKey privateKey) = .ok () :=
    validateSignedDeviceCertificate_iff.mpr ⟨rfl, hkey.publicKey_size, c, text, rfl, hvalid, htext,
      rfl, (crypto.sign _ _).size, hkey.verifies _⟩
  obtain ⟨encoded, hencoded, -⟩ :=
    encode_of_within (signedCertificate_within hsigned) (by decide) (by decide)
  exact ⟨_, encoded, hsign, rfl, encodeSignedDeviceCertificate_iff.mpr ⟨hsigned, hencoded⟩⟩

/-! ### Rosters -/

theorem signWorkspaceRoster_succeeds (hkey : KeyPair crypto privateKey) {r : WorkspaceRoster}
    (h : RosterValid crypto (publicKey privateKey) r) :
    ∃ signed encoded, signWorkspaceRoster crypto r privateKey = .ok signed ∧
      signed.roster = some r ∧
      encodeSignedWorkspaceRoster crypto signed (publicKey privateKey) = .ok encoded := by
  have hvalid := validateWorkspaceRoster_iff.mpr h
  obtain ⟨text, htext, -⟩ := encode_of_within h.within (Nat.succ_pos _) (by decide)
  have hsign : signWorkspaceRoster crypto r privateKey = .ok
      { roster := some r
        rosterDigest := domainHash crypto rosterDigestDomain text
        authoritySignature := (crypto.sign privateKey (rosterSignatureDomain ++ text)).bytes } := by
    simp [signWorkspaceRoster, hvalid, hkey.size, htext, reject]
  have hsigned : validateSignedWorkspaceRoster crypto
      { roster := some r
        rosterDigest := domainHash crypto rosterDigestDomain text
        authoritySignature := (crypto.sign privateKey (rosterSignatureDomain ++ text)).bytes }
      (publicKey privateKey) = .ok () :=
    validateSignedWorkspaceRoster_iff.mpr ⟨rfl, hkey.publicKey_size, r, text, rfl, h, htext, rfl,
      (crypto.sign _ _).size, hkey.verifies _⟩
  obtain ⟨encoded, hencoded, -⟩ :=
    encode_of_within (signedRoster_within hsigned) (Nat.succ_pos _) (by decide)
  exact ⟨_, encoded, hsign, rfl, encodeSignedWorkspaceRoster_iff.mpr ⟨hsigned, hencoded⟩⟩

/-! ### Authority transitions -/

theorem signAuthorityKeyTransition_succeeds {newPrivateKey : Bytes}
    (hkey : KeyPair crypto privateKey) (hnew : KeyPair crypto newPrivateKey)
    {t : AuthorityKeyTransition} (h : TransitionValid t)
    (hprevious : t.previousAuthorityPublicKey = publicKey privateKey)
    (hnewKey : t.newAuthorityPublicKey = publicKey newPrivateKey) :
    ∃ signed encoded, signAuthorityKeyTransition crypto t privateKey newPrivateKey = .ok signed ∧
      signed.transition = some t ∧ encodeSignedAuthorityKeyTransition crypto signed = .ok encoded := by
  have hvalid := validateAuthorityKeyTransition_iff.mpr h
  have hkeys := hvalid
  rw [hprevious, hnewKey] at hkeys
  obtain ⟨text, htext, -⟩ := encode_of_within h.within (by decide) (by decide)
  have hsign : signAuthorityKeyTransition crypto t privateKey newPrivateKey = .ok
      { transition := some t
        transitionDigest := domainHash crypto authorityTransitionDigestDomain text
        previousAuthoritySignature :=
          (crypto.sign privateKey (authorityTransitionOldSignatureDomain ++ text)).bytes
        newAuthoritySignature :=
          (crypto.sign newPrivateKey (authorityTransitionNewSignatureDomain ++ text)).bytes } := by
    simp [signAuthorityKeyTransition, hkeys, hkey.size, hnew.size, htext, reject]
  have hsigned : validateSignedAuthorityKeyTransition crypto
      { transition := some t
        transitionDigest := domainHash crypto authorityTransitionDigestDomain text
        previousAuthoritySignature :=
          (crypto.sign privateKey (authorityTransitionOldSignatureDomain ++ text)).bytes
        newAuthoritySignature :=
          (crypto.sign newPrivateKey (authorityTransitionNewSignatureDomain ++ text)).bytes } =
      .ok () := by
    refine validateSignedAuthorityKeyTransition_iff.mpr ⟨rfl, t, text, rfl, hvalid, htext, rfl,
      (crypto.sign _ _).size, ?_, (crypto.sign _ _).size, ?_⟩
    · rw [hprevious]
      exact hkey.verifies _
    · rw [hnewKey]
      exact hnew.verifies _
  obtain ⟨encoded, hencoded, -⟩ :=
    encode_of_within (signedTransition_within hsigned) (by decide) (by decide)
  exact ⟨_, encoded, hsign, rfl, encodeSignedAuthorityKeyTransition_iff.mpr ⟨hsigned, hencoded⟩⟩

/-! ### Digests of accepted messages -/

section Digests

variable {crypto : Crypto} (ideal : crypto.Ideal)

include ideal

theorem Crypto.Ideal.domainHash_nonzero (domain encoded : Bytes) :
    allZero (domainHash crypto domain encoded) = false :=
  ideal.nonzero _

/-- Accepted certificates with one identifier are of one device and epoch. -/
theorem Crypto.Ideal.certificateId_inj {value value' : SignedDeviceCertificate} {key key' : Bytes}
    (h : validateSignedDeviceCertificate crypto value key = .ok ())
    (h' : validateSignedDeviceCertificate crypto value' key' = .ok ())
    (heq : value.certificateId = value'.certificateId) :
    value.body.deviceId = value'.body.deviceId ∧
      value.body.membershipEpoch = value'.body.membershipEpoch := by
  obtain ⟨-, -, c, text, hc, hvalid, htext, hid, -⟩ := validateSignedDeviceCertificate_iff.mp h
  obtain ⟨-, -, c', text', hc', hvalid', htext', hid', -⟩ :=
    validateSignedDeviceCertificate_iff.mp h'
  simp only [SignedDeviceCertificate.body, hc, hc', Option.getD_some]
  rw [hid, hid'] at heq
  exact ideal.certificates (validateDeviceCertificate_iff.mp hvalid)
    (validateDeviceCertificate_iff.mp hvalid') htext htext' heq

theorem Crypto.Ideal.rosterDigest_inj {value value' : SignedWorkspaceRoster} {key key' : Bytes}
    (h : validateSignedWorkspaceRoster crypto value key = .ok ())
    (h' : validateSignedWorkspaceRoster crypto value' key' = .ok ())
    (heq : value.rosterDigest = value'.rosterDigest) :
    value.body.rosterEpoch = value'.body.rosterEpoch := by
  obtain ⟨-, -, r, text, hr, hvalid, htext, hdigest, -⟩ := validateSignedWorkspaceRoster_iff.mp h
  obtain ⟨-, -, r', text', hr', hvalid', htext', hdigest', -⟩ :=
    validateSignedWorkspaceRoster_iff.mp h'
  simp only [SignedWorkspaceRoster.body, hr, hr', Option.getD_some]
  rw [hdigest, hdigest'] at heq
  exact ideal.rosters hvalid hvalid' htext htext' heq

theorem Crypto.Ideal.transitionDigest_inj {value value' : SignedAuthorityKeyTransition}
    (h : validateSignedAuthorityKeyTransition crypto value = .ok ())
    (h' : validateSignedAuthorityKeyTransition crypto value' = .ok ())
    (heq : value.transitionDigest = value'.transitionDigest) :
    value.body.transitionEpoch = value'.body.transitionEpoch := by
  obtain ⟨-, t, text, ht, hvalid, htext, hdigest, -⟩ :=
    validateSignedAuthorityKeyTransition_iff.mp h
  obtain ⟨-, t', text', ht', hvalid', htext', hdigest', -⟩ :=
    validateSignedAuthorityKeyTransition_iff.mp h'
  simp only [SignedAuthorityKeyTransition.body, ht, ht', Option.getD_some]
  rw [hdigest, hdigest'] at heq
  exact ideal.transitions (validateAuthorityKeyTransition_iff.mp hvalid)
    (validateAuthorityKeyTransition_iff.mp hvalid') htext htext' heq

end Digests

/-! ### A hash function with these properties -/

/-- `n` bytes, of which the first are those of `b`. -/
def fitted (n : Nat) (b : Bytes) : Bytes := (b ++ List.replicate n (UInt8.ofNat 0)).take n

/-- The content, and ones that keep the digest from being zero. -/
def digestOf (content : Bytes) : Block 32 :=
  ⟨fitted 24 content ++ List.replicate 8 (UInt8.ofNat 1), by simp [fitted]⟩

/-- The text is hashed under the domain. -/
def inDomain (domain text : Bytes) : Bool := text.take domain.length = domain

/-- What is decoded from a text under the domain. -/
def decodedFrom {M : Type} (domain : Bytes) (codec : Codec M) (content : M → Bytes)
    (text : Bytes) : Bytes :=
  match codec.unmarshal (text.drop domain.length) with
  | some m => content m
  | none => []

def certificateContent (c : DeviceCertificate) : Bytes :=
  fitted 16 c.deviceId ++ toBigEndian 8 c.membershipEpoch.toNat

/-- The numbers that the messages are told apart by, and otherwise the last bytes. -/
def digestContent (text : Bytes) : Bytes :=
  if inDomain certificateIDDomain text then
    decodedFrom certificateIDDomain certificateCodec certificateContent text
  else if inDomain rosterDigestDomain text then
    decodedFrom rosterDigestDomain rosterCodec (fun r => toBigEndian 8 r.rosterEpoch.toNat) text
  else if inDomain authorityTransitionDigestDomain text then
    decodedFrom authorityTransitionDigestDomain authorityTransitionCodec
      (fun t => toBigEndian 8 t.transitionEpoch.toNat) text
  else text.drop (text.length - 12)

/-- Cryptography in which hashing forgets nothing that the registry relies on. -/
def idealCrypto : Crypto where
  sha256 text := digestOf (digestContent text)
  sign _ _ := ⟨List.replicate 64 (UInt8.ofNat 0), rfl⟩
  verify _ _ _ := true
  onCurve _ := true

theorem fitted_of_length {n : Nat} {b : Bytes} (h : b.length = n) : fitted n b = b := by
  rw [fitted, List.take_append_of_le_length (Nat.le_of_eq h.symm), List.take_of_length_le]
  exact Nat.le_of_eq h

/-- Digests of contents of one length tell them apart. -/
theorem digestOf_inj {a b : Bytes} (ha : a.length ≤ 24) (hlength : a.length = b.length)
    (h : digestOf a = digestOf b) : a = b := by
  have hbytes : fitted 24 a = fitted 24 b :=
    (List.append_inj (congrArg Block.bytes h) (by simp [fitted])).1
  have htake := congrArg (List.take a.length) hbytes
  simp only [fitted, List.take_take, Nat.min_eq_left ha, List.take_left] at htake
  rwa [hlength, List.take_left] at htake

theorem inDomain_append (domain text : Bytes) : inDomain domain (domain ++ text) = true := by
  simp [inDomain]

theorem inDomain_of_length {domain text : Bytes} (h : text.length < domain.length) :
    inDomain domain text = false := by
  rw [inDomain, decide_eq_false_iff_not]
  intro heq
  have hlength := congrArg List.length heq
  rw [List.length_take] at hlength
  omega

/-- A text that starts otherwise is not in the domain. -/
theorem inDomain_of_start {domain start : Bytes} (text : Bytes)
    (h : domain.take start.length ≠ start.take domain.length) :
    inDomain domain (start ++ text) = false := by
  rw [inDomain, decide_eq_false_iff_not]
  intro heq
  apply h
  have hdomain : domain.take start.length =
      ((start ++ text).take domain.length).take start.length := by rw [heq]
  have hstart : start.take domain.length =
      ((start ++ text).take start.length).take domain.length := by rw [List.take_left]
  rw [hdomain, hstart, List.take_take, List.take_take, Nat.min_comm]

theorem decodedFrom_encode {M : Type} {codec : Codec M} {m : M} {encoded : Bytes}
    (domain : Bytes) (content : M → Bytes) (hplain : codec.Plain m)
    (h : encode codec m = .ok encoded) :
    decodedFrom domain codec content (domain ++ encoded) = content m := by
  obtain ⟨hmarshal, -, hsize⟩ := encode_eq_ok.mp h
  have hsmall : encoded.length < textLimit := Nat.lt_of_le_of_lt hsize (by decide)
  rw [decodedFrom, List.drop_left, Codec.unmarshal_marshal hplain hmarshal hsmall]

theorem digestContent_certificate {c : DeviceCertificate} {encoded : Bytes}
    (hc : CertificateValid crypto c) (h : encode certificateCodec c = .ok encoded) :
    digestContent (certificateIDDomain ++ encoded) =
      c.deviceId ++ toBigEndian 8 c.membershipEpoch.toNat := by
  have hplain := certificate_plain (validateDeviceCertificate_iff.mpr hc)
  rw [digestContent, if_pos (inDomain_append _ _), decodedFrom_encode _ _ hplain h,
    certificateContent, fitted_of_length (n := 16) hc.device.1]

theorem digestContent_roster {key encoded : Bytes} {r : WorkspaceRoster}
    (hr : RosterValid crypto key r) (h : encode rosterCodec r = .ok encoded) :
    digestContent (rosterDigestDomain ++ encoded) = toBigEndian 8 r.rosterEpoch.toNat := by
  have hother : inDomain certificateIDDomain (rosterDigestDomain ++ encoded) = false :=
    inDomain_of_start _ (by decide +kernel)
  rw [digestContent, hother, if_neg Bool.false_ne_true, if_pos (inDomain_append _ _),
    decodedFrom_encode _ _ hr.plain h]

theorem digestContent_transition {t : AuthorityKeyTransition} {encoded : Bytes}
    (ht : TransitionValid t) (h : encode authorityTransitionCodec t = .ok encoded) :
    digestContent (authorityTransitionDigestDomain ++ encoded) =
      toBigEndian 8 t.transitionEpoch.toNat := by
  have hcertificate : inDomain certificateIDDomain
      (authorityTransitionDigestDomain ++ encoded) = false := inDomain_of_start _ (by decide +kernel)
  have hroster : inDomain rosterDigestDomain
      (authorityTransitionDigestDomain ++ encoded) = false := inDomain_of_start _ (by decide +kernel)
  have hplain := transition_plain (validateAuthorityKeyTransition_iff.mpr ht)
  rw [digestContent, hcertificate, hroster, if_neg Bool.false_ne_true, if_neg Bool.false_ne_true,
    if_pos (inDomain_append _ _), decodedFrom_encode _ _ hplain h]

theorem epochBytes_inj {a b : UInt64} (h : toBigEndian 8 a.toNat = toBigEndian 8 b.toNat) :
    a = b := by
  have hspan (x : UInt64) : x.toNat < byteSpan 8 := x.toNat_lt
  exact UInt64.toNat_inj.mp (toBigEndian_inj (hspan a) (hspan b) h)

theorem idealCrypto_ideal : idealCrypto.Ideal where
  nonzero text := by
    simp only [idealCrypto, digestOf, allZero, List.all_append, List.all_replicate]
    simp
  certificates hc hc' h h' heq := by
    have hcontent := digestOf_inj
      (by simp [digestContent_certificate hc h, hc.device.1, identifierSize])
      (by simp [digestContent_certificate hc h, digestContent_certificate hc' h', hc.device.1,
        hc'.device.1]) (Block.ext heq)
    rw [digestContent_certificate hc h, digestContent_certificate hc' h'] at hcontent
    obtain ⟨hdevice, hepoch⟩ := List.append_inj hcontent (hc.device.1.trans hc'.device.1.symm)
    exact ⟨hdevice, epochBytes_inj hepoch⟩
  rosters hr hr' h h' heq := by
    have hcontent := digestOf_inj (by simp [digestContent_roster hr h])
      (by simp [digestContent_roster hr h, digestContent_roster hr' h']) (Block.ext heq)
    rw [digestContent_roster hr h, digestContent_roster hr' h'] at hcontent
    exact epochBytes_inj hcontent
  transitions ht ht' h h' heq := by
    have hcontent := digestOf_inj (by simp [digestContent_transition ht h])
      (by simp [digestContent_transition ht h, digestContent_transition ht' h']) (Block.ext heq)
    rw [digestContent_transition ht h, digestContent_transition ht' h'] at hcontent
    exact epochBytes_inj hcontent

end SevenMirror.MembershipCodec
