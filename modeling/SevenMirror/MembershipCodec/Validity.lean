import SevenMirror.MembershipCodec.Codec

/-! What the validators of the membership codec accept, and that an accepted message is read back
from its encoding.  Every accepted message is free of unknown records at any depth, and that is what
reading it back needs. -/

namespace SevenMirror.MembershipCodec

open Lib Wire

/-! ### Canonical encodings -/

section Encoding

variable {M : Type} {c : Codec M} {value : M} {encoded : Bytes}

theorem encode_eq_ok :
    encode c value = .ok encoded ↔
      c.marshal value = some encoded ∧ encoded.length ≠ 0 ∧
        encoded.length ≤ maxMembershipMessageSize := by
  simp only [encode, bind_eq_ok, exists_unit, require_eq_ok, reject_eq_ok, pure_eq_ok]
  constructor
  · rintro ⟨b, hb, hsize, rfl⟩
    exact ⟨hb, by omega, by omega⟩
  · rintro ⟨hb, hne, hle⟩
    exact ⟨encoded, hb, by omega, rfl⟩

/-- A message that is read is the one that was encoded. -/
theorem decodeCanonical_encode (hplain : c.Plain value) (h : encode c value = .ok encoded) :
    decodeCanonical c encoded = .ok value := by
  obtain ⟨hm, hne, hle⟩ := encode_eq_ok.mp h
  have hsmall : encoded.length < textLimit := Nat.lt_of_le_of_lt hle (by decide)
  simp only [decodeCanonical, bind_eq_ok, exists_unit, require_eq_ok, reject_eq_ok, pure_eq_ok]
  exact ⟨by omega, value, Codec.unmarshal_marshal hplain hm hsmall, encoded, hm, by simp, rfl⟩

/-- Messages are told apart by their encodings. -/
theorem encode_inj {value' : M} (hplain : c.Plain value) (hplain' : c.Plain value')
    (h : encode c value = .ok encoded) (h' : encode c value' = .ok encoded) : value = value' := by
  have hread := decodeCanonical_encode hplain h
  rw [decodeCanonical_encode hplain' h'] at hread
  exact (Except.ok.inj hread).symm

/-- What is read is encoded as it was. -/
theorem encode_of_decodeCanonical (h : decodeCanonical c encoded = .ok value) :
    encode c value = .ok encoded := by
  simp only [decodeCanonical, bind_eq_ok, exists_unit, require_eq_ok, reject_eq_ok, pure_eq_ok] at h
  obtain ⟨hsize, v, -, canonical, hm, hsame, rfl⟩ := h
  obtain rfl : canonical = encoded := by simpa using hsame
  exact encode_eq_ok.mpr ⟨hm, by omega, by omega⟩

/-- A decoder that validates inverts the encoder that validates the same, and accepts nothing
else. -/
theorem decode_iff_encode {valid : M → Except CodecError Unit}
    (hplain : ∀ v, valid v = .ok () → c.Plain v) :
    (do let v ← decodeCanonical c encoded; valid v; return v) = .ok value ↔
      (do valid value; encode c value) = .ok encoded := by
  simp only [bind_eq_ok, exists_unit, pure_eq_ok]
  constructor
  · rintro ⟨v, hdecode, hvalid, rfl⟩
    exact ⟨hvalid, encode_of_decodeCanonical hdecode⟩
  · rintro ⟨hvalid, hencode⟩
    exact ⟨value, decodeCanonical_encode (hplain value hvalid) hencode, hvalid, rfl⟩

end Encoding

/-! ### Sorted loops -/

section Ascending

variable {α : Type} {key : α → Bytes} {before after : α → Except CodecError Unit}
  {order : CodecError}

theorem validateAscending_chain {previous : Option Bytes} {items : List α} :
    validateAscending key before order after previous items = .ok () ↔
      (∀ x ∈ items, before x = .ok () ∧ after x = .ok ()) ∧
        (previous.toList ++ items.map key).IsChain (· < ·) := by
  induction items generalizing previous with
  | nil => cases previous <;> simp [validateAscending]
  | cons x rest ih =>
    simp only [validateAscending, bind_eq_ok, exists_unit, reject_eq_ok, ih, List.mem_cons,
      forall_eq_or_imp, List.map_cons, Option.toList_some, List.cons_append, List.nil_append]
    constructor
    · rintro ⟨hbefore, horder, hafter, hrest, hchain⟩
      refine ⟨⟨⟨hbefore, hafter⟩, hrest⟩, ?_⟩
      cases previous with
      | none => exact hchain
      | some p => exact List.IsChain.cons_cons (by simpa [unordered] using horder) hchain
    · rintro ⟨⟨⟨hbefore, hafter⟩, hrest⟩, hchain⟩
      cases previous with
      | none => exact ⟨hbefore, by simp [unordered], hafter, hrest, hchain⟩
      | some p =>
        obtain ⟨hp, hchain⟩ := List.isChain_cons_cons.mp hchain
        exact ⟨hbefore, by simpa [unordered] using hp, hafter, hrest, hchain⟩

/-- The loop compares neighbours, and so orders all items. -/
theorem validateAscending_iff {items : List α} :
    validateAscending key before order after none items = .ok () ↔
      (∀ x ∈ items, before x = .ok () ∧ after x = .ok ()) ∧
        (items.map key).Pairwise (· < ·) := by
  rw [validateAscending_chain, List.isChain_iff_pairwise]
  rfl

end Ascending

variable {crypto : Crypto}

/-! ### Certificates -/

theorem validateSignedDeviceCertificate_iff {value : SignedDeviceCertificate} {key : Bytes} :
    validateSignedDeviceCertificate crypto value key = .ok () ↔
      value.unknown = [] ∧ key.length = ed25519PublicKeySize ∧
      ∃ certificate encoded, value.certificate = some certificate ∧
        validateDeviceCertificate crypto certificate = .ok () ∧
        encode certificateCodec certificate = .ok encoded ∧
        value.certificateId = domainHash crypto certificateIDDomain encoded ∧
        value.authoritySignature.length = ed25519SignatureSize ∧
        crypto.verify key (certificateSignatureDomain ++ encoded) value.authoritySignature = true := by
  simp only [validateSignedDeviceCertificate, bind_eq_ok, exists_unit, require_eq_ok, reject_eq_ok]
  constructor
  · rintro ⟨hu, hk, certificate, hc, hv, encoded, he, hid, hs⟩
    refine ⟨by simpa using hu, by simpa using hk, certificate, encoded, hc, hv, he,
      by simpa using hid, ?_⟩
    simpa [not_or] using hs
  · rintro ⟨hu, hk, certificate, encoded, hc, hv, he, hid, hlen, hs⟩
    exact ⟨by simpa using hu, by simpa using hk, certificate, hc, hv, encoded, he,
      by simpa using hid, by simp [hlen, hs]⟩

theorem certificate_plain {certificate : DeviceCertificate}
    (h : validateDeviceCertificate crypto certificate = .ok ()) :
    certificateCodec.Plain certificate := by
  simp only [validateDeviceCertificate, bind_eq_ok, exists_unit, reject_eq_ok] at h
  obtain ⟨hu, -⟩ := h
  refine ⟨by simpa [certificateCodec] using hu, ?_⟩
  simp [certificateCodec, Kind.field, uint32, uint64, enum, scalar, bytes, string, blob, packed]

theorem signedCertificate_plain {value : SignedDeviceCertificate} {key : Bytes}
    (h : validateSignedDeviceCertificate crypto value key = .ok ()) :
    signedCertificateCodec.Plain value := by
  obtain ⟨hu, -, certificate, -, hc, hv, -⟩ := validateSignedDeviceCertificate_iff.mp h
  refine ⟨by simpa [signedCertificateCodec] using hu, ?_⟩
  simp [signedCertificateCodec, Kind.field, message, bytes, blob, hc, certificate_plain hv]

theorem encodeSignedDeviceCertificate_iff {value : SignedDeviceCertificate} {key encoded : Bytes} :
    encodeSignedDeviceCertificate crypto value key = .ok encoded ↔
      validateSignedDeviceCertificate crypto value key = .ok () ∧
        encode signedCertificateCodec value = .ok encoded := by
  simp only [encodeSignedDeviceCertificate, bind_eq_ok, exists_unit]

theorem decodeSignedDeviceCertificate_iff {value : SignedDeviceCertificate} {key encoded : Bytes} :
    decodeSignedDeviceCertificate crypto encoded key = .ok value ↔
      encodeSignedDeviceCertificate crypto value key = .ok encoded :=
  decode_iff_encode fun _ => signedCertificate_plain

theorem signDeviceCertificate_ok {certificate : DeviceCertificate} {privateKey : Bytes}
    {signed : SignedDeviceCertificate}
    (h : signDeviceCertificate crypto certificate privateKey = .ok signed) :
    signed.certificate = some certificate := by
  simp only [signDeviceCertificate, bind_eq_ok, pure_eq_ok] at h
  obtain ⟨-, -, -, -, -, -, rfl⟩ := h
  rfl

/-! ### Rosters -/

/-- What `validateWorkspaceRoster` accepts. -/
structure RosterValid (crypto : Crypto) (key : Bytes) (r : WorkspaceRoster) : Prop where
  unknown : r.unknown = []
  version : r.protocolVersion = protocolVersion
  workspace : r.workspaceId.length = identifierSize ∧ allZero r.workspaceId = false
  epoch : r.rosterEpoch ≠ 0 ∧ r.rosterEpoch ≤ maxEpoch
  previous_size : r.previousRosterDigest.length = digestSize
  previous_first : r.rosterEpoch = 1 → allZero r.previousRosterDigest = true
  previous_later : 1 < r.rosterEpoch → allZero r.previousRosterDigest = false
  active_count : r.activeCertificates.length ≤ maxActiveCertificates
  active : ∀ c ∈ r.activeCertificates, validateActiveCertificate crypto r key c = .ok ()
  active_order : (r.activeCertificates.map (·.body.deviceId)).Pairwise (· < ·)
  transitions_count : r.certificateTransitions.length ≤ maxCertificateTransitions
  transitions_first : r.rosterEpoch = 1 → r.certificateTransitions = []
  transitions : ∀ t ∈ r.certificateTransitions,
    validateCertificateTransition r t = .ok () ∧ replacementActive r t = true
  transitions_order : (r.certificateTransitions.map (·.deviceId)).Pairwise (· < ·)
  revocations_count : r.revocations.length ≤ maxRevocations
  revocations : ∀ x ∈ r.revocations, validateRevocation x = .ok ()
  revocations_order : (r.revocations.map (·.certificateId)).Pairwise (· < ·)
  disjoint : ∀ x ∈ r.revocations, ∀ c ∈ r.activeCertificates, c.certificateId ≠ x.certificateId

theorem validateWorkspaceRoster_iff {r : WorkspaceRoster} {key : Bytes} :
    validateWorkspaceRoster crypto r key = .ok () ↔ RosterValid crypto key r := by
  simp only [validateWorkspaceRoster, bind_eq_ok, exists_unit, reject_eq_ok, validateAscending_iff]
  constructor
  · rintro ⟨hu, hhead, hprev, hcount, ⟨hactive, horder⟩, htc, ⟨htrans, htorder⟩, hrc, hrev, hrorder⟩
    refine ⟨by simpa using hu, by tauto, by simp_all, by simp_all, by tauto, ?_, ?_, by omega,
      fun c hc => (hactive c hc).1, horder, by omega, ?_, fun t ht => ?_, htorder, by omega,
      fun x hx => (hrev x hx).1, hrorder, fun x hx => ?_⟩
    · intro h1
      simp_all
    · intro h1
      simp_all
    · intro h1
      simp_all
    · have := htrans t ht
      simp_all
    · have := (hrev x hx).2
      simpa using this
  · intro h
    refine ⟨by simp [h.unknown], ?_, ?_, by have := h.active_count; omega,
      ⟨fun c hc => ⟨h.active c hc, rfl⟩, h.active_order⟩, ?_,
      ⟨fun t ht => ⟨(h.transitions t ht).1, by simp [(h.transitions t ht).2]⟩, h.transitions_order⟩,
      by have := h.revocations_count; omega,
      fun x hx => ⟨h.revocations x hx, by simpa using h.disjoint x hx⟩, h.revocations_order⟩
    · simp [h.version, h.workspace, h.epoch]
    · have := h.previous_first
      have := h.previous_later
      simp [h.previous_size]
      grind
    · have := h.transitions_first
      have := h.transitions_count
      simp
      grind

theorem validateActiveCertificate_iff {r : WorkspaceRoster} {key : Bytes}
    {certificate : SignedDeviceCertificate} :
    validateActiveCertificate crypto r key certificate = .ok () ↔
      validateSignedDeviceCertificate crypto certificate key = .ok () ∧
        certificate.body.workspaceId = r.workspaceId ∧
        certificate.body.membershipEpoch ≤ r.rosterEpoch := by
  simp [validateActiveCertificate, exists_unit]

theorem validateSignedWorkspaceRoster_iff {value : SignedWorkspaceRoster} {key : Bytes} :
    validateSignedWorkspaceRoster crypto value key = .ok () ↔
      value.unknown = [] ∧ key.length = ed25519PublicKeySize ∧
      ∃ roster encoded, value.roster = some roster ∧ RosterValid crypto key roster ∧
        encode rosterCodec roster = .ok encoded ∧
        value.rosterDigest = domainHash crypto rosterDigestDomain encoded ∧
        value.authoritySignature.length = ed25519SignatureSize ∧
        crypto.verify key (rosterSignatureDomain ++ encoded) value.authoritySignature = true := by
  simp only [validateSignedWorkspaceRoster, bind_eq_ok, exists_unit, require_eq_ok, reject_eq_ok,
    validateWorkspaceRoster_iff]
  constructor
  · rintro ⟨hu, hk, roster, hr, hv, encoded, he, hd, hs⟩
    refine ⟨by simpa using hu, by simpa using hk, roster, encoded, hr, hv, he, by simpa using hd, ?_⟩
    simpa [not_or] using hs
  · rintro ⟨hu, hk, roster, encoded, hr, hv, he, hd, hlen, hs⟩
    exact ⟨by simpa using hu, by simpa using hk, roster, hr, hv, encoded, he, by simpa using hd,
      by simp [hlen, hs]⟩

theorem revocation_plain {revocation : RevokedCertificate}
    (h : validateRevocation revocation = .ok ()) : revokedCertificateCodec.Plain revocation := by
  simp only [validateRevocation, reject_eq_ok, not_or] at h
  refine ⟨by simpa [revokedCertificateCodec] using h.1, ?_⟩
  simp [revokedCertificateCodec, Kind.field, uint64, scalar, bytes, blob]

theorem certificateTransition_plain {r : WorkspaceRoster} {t : DeviceCertificateTransition}
    (h : validateCertificateTransition r t = .ok ()) : certificateTransitionCodec.Plain t := by
  simp only [validateCertificateTransition, reject_eq_ok, not_or] at h
  refine ⟨by simpa [certificateTransitionCodec] using h.1, ?_⟩
  simp [certificateTransitionCodec, Kind.field, uint32, uint64, enum, scalar, bytes, blob]

theorem RosterValid.plain {key : Bytes} {r : WorkspaceRoster} (h : RosterValid crypto key r) :
    rosterCodec.Plain r := by
  have hactive : ∀ c ∈ r.activeCertificates, signedCertificateCodec.Plain c := fun c hc =>
    signedCertificate_plain (validateActiveCertificate_iff.mp (h.active c hc)).1
  have hrevoked : ∀ x ∈ r.revocations, revokedCertificateCodec.Plain x := fun x hx =>
    revocation_plain (h.revocations x hx)
  have htransitions : ∀ t ∈ r.certificateTransitions, certificateTransitionCodec.Plain t :=
    fun t ht => certificateTransition_plain (h.transitions t ht).1
  refine ⟨by simpa [rosterCodec] using h.unknown, ?_⟩
  simp only [rosterCodec, List.forall_mem_cons]
  exact ⟨trivial, trivial, trivial, trivial, hactive, hrevoked, htransitions, nofun⟩

theorem signedRoster_plain {value : SignedWorkspaceRoster} {key : Bytes}
    (h : validateSignedWorkspaceRoster crypto value key = .ok ()) :
    signedRosterCodec.Plain value := by
  obtain ⟨hu, -, roster, -, hr, hv, -⟩ := validateSignedWorkspaceRoster_iff.mp h
  refine ⟨by simpa [signedRosterCodec] using hu, ?_⟩
  simp [signedRosterCodec, Kind.field, message, bytes, blob, hr, hv.plain]

theorem encodeSignedWorkspaceRoster_iff {value : SignedWorkspaceRoster} {key encoded : Bytes} :
    encodeSignedWorkspaceRoster crypto value key = .ok encoded ↔
      validateSignedWorkspaceRoster crypto value key = .ok () ∧
        encode signedRosterCodec value = .ok encoded := by
  simp only [encodeSignedWorkspaceRoster, bind_eq_ok, exists_unit]

theorem decodeSignedWorkspaceRoster_iff {value : SignedWorkspaceRoster} {key encoded : Bytes} :
    decodeSignedWorkspaceRoster crypto encoded key = .ok value ↔
      encodeSignedWorkspaceRoster crypto value key = .ok encoded :=
  decode_iff_encode fun _ => signedRoster_plain

theorem signWorkspaceRoster_ok {roster : WorkspaceRoster} {privateKey : Bytes}
    {signed : SignedWorkspaceRoster}
    (h : signWorkspaceRoster crypto roster privateKey = .ok signed) :
    signed.roster = some roster := by
  simp only [signWorkspaceRoster, bind_eq_ok, pure_eq_ok] at h
  obtain ⟨-, -, -, -, -, -, rfl⟩ := h
  rfl

/-! ### Authority transitions -/

theorem validateSignedAuthorityKeyTransition_iff {value : SignedAuthorityKeyTransition} :
    validateSignedAuthorityKeyTransition crypto value = .ok () ↔
      value.unknown = [] ∧
      ∃ transition encoded, value.transition = some transition ∧
        validateAuthorityKeyTransition transition transition.previousAuthorityPublicKey
          transition.newAuthorityPublicKey = .ok () ∧
        encode authorityTransitionCodec transition = .ok encoded ∧
        value.transitionDigest = domainHash crypto authorityTransitionDigestDomain encoded ∧
        value.previousAuthoritySignature.length = ed25519SignatureSize ∧
        crypto.verify transition.previousAuthorityPublicKey
          (authorityTransitionOldSignatureDomain ++ encoded)
          value.previousAuthoritySignature = true ∧
        value.newAuthoritySignature.length = ed25519SignatureSize ∧
        crypto.verify transition.newAuthorityPublicKey
          (authorityTransitionNewSignatureDomain ++ encoded)
          value.newAuthoritySignature = true := by
  simp only [validateSignedAuthorityKeyTransition, bind_eq_ok, exists_unit, require_eq_ok,
    reject_eq_ok]
  constructor
  · rintro ⟨hu, transition, ht, hv, encoded, he, hd, hold, hnew⟩
    simp only [not_or, ne_eq, Decidable.not_not] at hold hnew
    exact ⟨by simpa using hu, transition, encoded, ht, hv, he, by simpa using hd, hold.1, hold.2,
      hnew.1, hnew.2⟩
  · rintro ⟨hu, transition, encoded, ht, hv, he, hd, hold, hold', hnew, hnew'⟩
    exact ⟨by simpa using hu, transition, ht, hv, encoded, he, by simpa using hd,
      by simp [hold, hold'], by simp [hnew, hnew']⟩

theorem transition_plain {t : AuthorityKeyTransition} {previousKey newKey : Bytes}
    (h : validateAuthorityKeyTransition t previousKey newKey = .ok ()) :
    authorityTransitionCodec.Plain t := by
  simp only [validateAuthorityKeyTransition, bind_eq_ok, exists_unit, reject_eq_ok] at h
  refine ⟨by simpa [authorityTransitionCodec] using h.1, ?_⟩
  simp [authorityTransitionCodec, Kind.field, uint32, uint64, scalar, bytes, blob]

theorem signedTransition_plain {value : SignedAuthorityKeyTransition}
    (h : validateSignedAuthorityKeyTransition crypto value = .ok ()) :
    signedAuthorityTransitionCodec.Plain value := by
  obtain ⟨hu, transition, -, ht, hv, -⟩ := validateSignedAuthorityKeyTransition_iff.mp h
  refine ⟨by simpa [signedAuthorityTransitionCodec] using hu, ?_⟩
  simp [signedAuthorityTransitionCodec, Kind.field, message, bytes, blob, ht, transition_plain hv]

theorem encodeSignedAuthorityKeyTransition_iff {value : SignedAuthorityKeyTransition}
    {encoded : Bytes} :
    encodeSignedAuthorityKeyTransition crypto value = .ok encoded ↔
      validateSignedAuthorityKeyTransition crypto value = .ok () ∧
        encode signedAuthorityTransitionCodec value = .ok encoded := by
  simp only [encodeSignedAuthorityKeyTransition, bind_eq_ok, exists_unit]

theorem decodeSignedAuthorityKeyTransition_iff {value : SignedAuthorityKeyTransition}
    {encoded : Bytes} :
    decodeSignedAuthorityKeyTransition crypto encoded = .ok value ↔
      encodeSignedAuthorityKeyTransition crypto value = .ok encoded :=
  decode_iff_encode fun _ => signedTransition_plain

theorem signAuthorityKeyTransition_ok {transition : AuthorityKeyTransition}
    {previousKey newKey : Bytes} {signed : SignedAuthorityKeyTransition}
    (h : signAuthorityKeyTransition crypto transition previousKey newKey = .ok signed) :
    signed.transition = some transition := by
  simp only [signAuthorityKeyTransition, bind_eq_ok, pure_eq_ok] at h
  obtain ⟨-, -, -, -, -, -, rfl⟩ := h
  rfl

end SevenMirror.MembershipCodec
