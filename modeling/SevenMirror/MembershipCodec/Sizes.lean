import SevenMirror.Lib.Sizes
import SevenMirror.MembershipCodec.Validity

/-! Accepted messages fit their size limit.  The validators bound every field and every list, so an
accepted message has a text, and the text is far shorter than a message may be. -/

namespace SevenMirror.MembershipCodec

open Lib Wire

variable {crypto : Crypto}

theorem encode_of_within {M : Type} {c : Codec M} {value : M} {low high : Nat}
    (h : Within (c.marshal value) low high) (hlow : 0 < low)
    (hhigh : high ≤ maxMembershipMessageSize) :
    ∃ encoded, encode c value = .ok encoded ∧ low ≤ encoded.length ∧ encoded.length ≤ high := by
  obtain ⟨encoded, hmarshal, hge, hle⟩ := h
  exact ⟨encoded, encode_eq_ok.mpr ⟨hmarshal, by omega, by omega⟩, hge, hle⟩

/-! ### Fields -/

theorem domainHash_length (domain encoded : Bytes) :
    (domainHash crypto domain encoded).length = digestSize :=
  (crypto.sha256 _).size

section Fields

variable {number : Nat}

theorem within_version {v : UInt32} (hn : number < 16) (hv : v = protocolVersion) :
    Within (uint32.emit number v) 2 2 := by
  subst hv
  exact within_scalar_nonzero (k := 0) hn (by decide) (by decide)

/-- Instants and epochs have 63 bits. -/
theorem within_number {v : UInt64} (hn : number < 16) (hv : v ≤ maxEpoch) :
    Within (uint64.emit number v) 0 10 := by
  refine within_scalar (k := 8) hn (Nat.lt_of_le_of_lt (UInt64.le_iff_toNat_le.mp hv) ?_)
  decide

/-- Identifiers, digests, keys, and signatures have a fixed size. -/
theorem within_block {v : Bytes} {size : Nat} (hn : number < 16) (hv : v.length = size)
    (hpos : 0 < size) (hsize : size < 0x80) : Within (bytes.emit number v) (size + 2) (size + 2) := by
  refine within_blob (k := 0) hn rfl (fun hnil => ?_) (by omega) (by omega) hsize
  rw [hnil, List.length_nil] at hv
  omega

end Fields

/-! ### Certificates -/

/-- What `validateDeviceCertificate` accepts. -/
structure CertificateValid (crypto : Crypto) (c : DeviceCertificate) : Prop where
  unknown : c.unknown = []
  version : c.protocolVersion = protocolVersion
  workspace : c.workspaceId.length = identifierSize ∧ allZero c.workspaceId = false
  device : c.deviceId.length = identifierSize ∧ allZero c.deviceId = false
  keyID : c.identityKeyId.length = digestSize ∧ allZero c.identityKeyId = false
  type : c.deviceType = deviceTypeAndroid ∨ c.deviceType = deviceTypeChrome
  name : validUtf8 c.displayName = true ∧ trimSpace c.displayName ≠ [] ∧
    c.displayName.length ≤ maxDisplayNameBytes
  roles : c.roles ≠ [] ∧ rolesSorted deviceRoleUnspecified c.roles = true
  identity_size : c.identityPublicKey.length = p256PublicKeySize
  identity : crypto.onCurve c.identityPublicKey = true
  identity_hash : c.identityKeyId = (crypto.sha256 c.identityPublicKey).bytes
  issued : c.issuedAtUnixMs ≠ 0 ∧ c.issuedAtUnixMs ≤ maxEpoch
  expires : c.expiresAtUnixMs ≤ maxEpoch ∧
    (c.expiresAtUnixMs = 0 ∨ c.issuedAtUnixMs < c.expiresAtUnixMs)
  epoch : c.membershipEpoch ≠ 0 ∧ c.membershipEpoch ≤ maxEpoch

theorem validateDeviceCertificate_iff {c : DeviceCertificate} :
    validateDeviceCertificate crypto c = .ok () ↔ CertificateValid crypto c := by
  simp only [validateDeviceCertificate, validateBinding, bind_eq_ok, exists_unit, reject_eq_ok,
    not_or, not_and, ne_eq, Decidable.not_not, Bool.not_eq_true, gt_iff_lt, Nat.not_lt,
    UInt64.not_lt, UInt64.not_le]
  constructor
  · rintro ⟨hunknown, hversion, ⟨hw, hwz, hd, hdz, hk, hkz⟩, htype, ⟨hutf, htrim, hlen⟩, hnone,
      hsorted, hsize, hcurve, hhash, hissued, hissuedMax, hexpiresMax, hexpires, hepoch, hepochMax⟩
    refine ⟨hunknown, hversion, ⟨hw, hwz⟩, ⟨hd, hdz⟩, ⟨hk, hkz⟩, ?_, ⟨?_, htrim, hlen⟩,
      ⟨fun h => hnone (by simp [h]), ?_⟩, hsize, ?_, hhash, ⟨hissued, hissuedMax⟩,
      ⟨hexpiresMax, ?_⟩, hepoch, hepochMax⟩
    · by_cases ha : c.deviceType = deviceTypeAndroid
      · exact Or.inl ha
      · exact Or.inr (htype ha)
    · simpa using hutf
    · simpa using hsorted
    · simpa using hcurve
    · by_cases hz : c.expiresAtUnixMs = 0
      · exact Or.inl hz
      · exact Or.inr (hexpires hz)
  · intro h
    refine ⟨h.unknown, h.version, ⟨h.workspace.1, h.workspace.2, h.device.1, h.device.2, h.keyID.1,
      h.keyID.2⟩, fun ha => h.type.resolve_left ha, ⟨by simp [h.name.1], h.name.2.1, h.name.2.2⟩, ?_,
      by simp [h.roles.2], h.identity_size, by simp [h.identity], h.identity_hash, h.issued.1,
      h.issued.2, h.expires.1, fun hz => h.expires.2.resolve_left hz, h.epoch.1, h.epoch.2⟩
    simpa using h.roles.1

theorem rolesSorted_bounds {previous : DeviceRole} {roles : List DeviceRole}
    (h : rolesSorted previous roles = true) (hprevious : 0 ≤ previous.toInt ∧ previous.toInt ≤ 4) :
    (roles.length : Int) ≤ 4 - previous.toInt ∧ ∀ role ∈ roles, enumVarint role < varintSpan 1 := by
  induction roles generalizing previous with
  | nil => simpa using hprevious.2
  | cons role rest ih =>
    simp only [rolesSorted, Bool.and_eq_true, Bool.not_eq_true', Bool.or_eq_false_iff,
      decide_eq_false_iff_not, Int32.lt_iff_toInt_lt, Int32.le_iff_toInt_le] at h
    obtain ⟨⟨⟨hlow, hhigh⟩, hafter⟩, hrest⟩ := h
    have hone : deviceRoleSendNotifications.toInt = 1 := by decide
    have hfour : deviceRoleManageDevices.toInt = 4 := by decide
    rw [hone] at hlow
    rw [hfour] at hhigh
    obtain ⟨hlength, hroles⟩ := ih hrest ⟨by omega, by omega⟩
    refine ⟨by rw [List.length_cons]; omega, fun x hx => ?_⟩
    rcases List.mem_cons.mp hx with rfl | hx
    · simp only [enumVarint, varintSpan]
      omega
    · exact hroles x hx

theorem within_roles {roles : List DeviceRole} {number : Nat} (hn : number < 16)
    (h : rolesSorted deviceRoleUnspecified roles = true) :
    Within (packed.emit number roles) 0 6 := by
  obtain ⟨hlength, hsmall⟩ := rolesSorted_bounds h (by decide)
  have hzero : deviceRoleUnspecified.toInt = 0 := by decide
  exact within_packed hn hsmall (by omega : roles.length ≤ 4) (by decide)

theorem trimSpace_nil : trimSpace [] = [] := by decide

/-- An accepted certificate has 144 to 279 bytes. -/
theorem CertificateValid.within {c : DeviceCertificate} (h : CertificateValid crypto c) :
    Within (certificateCodec.marshal c) 144 279 := by
  have hname : c.displayName ≠ [] := fun hnil => h.name.2.1 (hnil ▸ trimSpace_nil)
  have htype : Within (enum.emit 4 c.deviceType) 2 2 := by
    rcases h.type with htype | htype
    · rw [htype]
      exact within_scalar_nonzero (k := 0) (by decide) (by decide) (by decide)
    · rw [htype]
      exact within_scalar_nonzero (k := 0) (by decide) (by decide) (by decide)
  have hdisplay : Within (string.emit 5 c.displayName) 3 102 := by
    have hpos := List.length_pos_of_ne_nil hname
    exact within_blob (k := 0) (by decide) h.name.1 hname hpos h.name.2.2 (by decide)
  have hfields : Within (Codec.emitAll c certificateCodec.fields) _ _ :=
    within_emitAll_cons (within_version (by decide) h.version) <|
    within_emitAll_cons (within_block (by decide) h.workspace.1 (by decide) (by decide)) <|
    within_emitAll_cons (within_block (by decide) h.device.1 (by decide) (by decide)) <|
    within_emitAll_cons htype <|
    within_emitAll_cons hdisplay <|
    within_emitAll_cons (within_roles (by decide) h.roles.2) <|
    within_emitAll_cons (within_block (by decide) h.identity_size (by decide) (by decide)) <|
    within_emitAll_cons (within_block (by decide) h.keyID.1 (by decide) (by decide)) <|
    within_emitAll_cons (within_number (by decide) h.issued.2) <|
    within_emitAll_cons (within_number (by decide) h.expires.1) <|
    within_emitAll_cons (within_number (by decide) h.epoch.2) within_emitAll_nil
  exact (within_marshal h.unknown hfields).weaken (by decide) (by decide)

theorem signedCertificate_within {value : SignedDeviceCertificate} {key : Bytes}
    (h : validateSignedDeviceCertificate crypto value key = .ok ()) :
    Within (signedCertificateCodec.marshal value) 246 382 := by
  obtain ⟨hunknown, -, certificate, encoded, hcertificate, hvalid, -, hid, hsignature, -⟩ :=
    validateSignedDeviceCertificate_iff.mp h
  have hlength : value.certificateId.length = digestSize := by rw [hid, domainHash_length]
  have hbody : Within ((message certificateCodec).emit 1 value.certificate) 146 282 := by
    rw [hcertificate]
    exact within_message (k := 1) (by decide) (validateDeviceCertificate_iff.mp hvalid).within
      (by decide)
  have hfields : Within (Codec.emitAll value signedCertificateCodec.fields) _ _ :=
    within_emitAll_cons hbody <|
    within_emitAll_cons (within_block (by decide) hlength (by decide) (by decide)) <|
    within_emitAll_cons (within_block (by decide) hsignature (by decide) (by decide))
      within_emitAll_nil
  exact (within_marshal hunknown hfields).weaken (by decide) (by decide)

/-! ### Rosters -/

theorem revocation_within {x : RevokedCertificate} (h : validateRevocation x = .ok ()) :
    Within (revokedCertificateCodec.marshal x) 0 62 := by
  simp only [validateRevocation, reject_eq_ok, not_or, ne_eq, Decidable.not_not, gt_iff_lt,
    UInt64.not_lt] at h
  obtain ⟨hunknown, hid, -, hdevice, -, -, hinstant⟩ := h
  have hfields : Within (Codec.emitAll x revokedCertificateCodec.fields) _ _ :=
    within_emitAll_cons (within_block (by decide) hid (by decide) (by decide)) <|
    within_emitAll_cons (within_block (by decide) hdevice (by decide) (by decide)) <|
    within_emitAll_cons (within_number (by decide) hinstant) within_emitAll_nil
  exact (within_marshal hunknown hfields).weaken (by decide) (by decide)

theorem certificateTransition_within {key : Bytes} {r : WorkspaceRoster}
    (hr : RosterValid crypto key r) {t : DeviceCertificateTransition}
    (h : validateCertificateTransition r t = .ok ()) :
    Within (certificateTransitionCodec.marshal t) 0 162 := by
  simp only [validateCertificateTransition, reject_eq_ok, not_or, ne_eq, Decidable.not_not,
    gt_iff_lt, UInt64.not_lt] at h
  obtain ⟨hunknown, hversion, hworkspace, hdevice, -, hprevious, -, hnew, -, -, hepoch, hdigest,
    hreason, -, hinstant⟩ := h
  have hepochMax : t.activationRosterEpoch ≤ maxEpoch := hepoch ▸ hr.epoch.2
  have hreason : Within (enum.emit 8 t.reason) 2 2 := by
    rw [hreason]
    exact within_scalar_nonzero (k := 0) (by decide) (by decide) (by decide)
  have hfields : Within (Codec.emitAll t certificateTransitionCodec.fields) _ _ :=
    within_emitAll_cons (within_version (by decide) hversion) <|
    within_emitAll_cons (within_block (by decide) (hworkspace ▸ hr.workspace.1) (by decide)
      (by decide)) <|
    within_emitAll_cons (within_block (by decide) hdevice (by decide) (by decide)) <|
    within_emitAll_cons (within_block (by decide) hprevious (by decide) (by decide)) <|
    within_emitAll_cons (within_block (by decide) hnew (by decide) (by decide)) <|
    within_emitAll_cons (within_number (by decide) hepochMax) <|
    within_emitAll_cons (within_block (by decide) (hdigest ▸ hr.previous_size) (by decide)
      (by decide)) <|
    within_emitAll_cons hreason <|
    within_emitAll_cons (within_number (by decide) hinstant) within_emitAll_nil
  exact (within_marshal hunknown hfields).weaken (by decide) (by decide)

/-- An accepted roster: 256 certificates, 4096 revocations, and 256 transitions at most. -/
theorem RosterValid.within {key : Bytes} {r : WorkspaceRoster} (h : RosterValid crypto key r) :
    Within (rosterCodec.marshal r) (r.activeCertificates.length * 248 + 54) 403008 := by
  have hactive : Within ((repeated signedCertificateCodec).emit 5 r.activeCertificates)
      (r.activeCertificates.length * 248) (r.activeCertificates.length * 385) :=
    within_repeated (k := 1) (by decide) (fun c hc =>
      signedCertificate_within (validateActiveCertificate_iff.mp (h.active c hc)).1) (by decide)
  have hrevocations : Within ((repeated revokedCertificateCodec).emit 6 r.revocations)
      (r.revocations.length * 2) (r.revocations.length * 64) :=
    within_repeated (k := 0) (by decide) (fun x hx => revocation_within (h.revocations x hx))
      (by decide)
  have htransitions : Within ((repeated certificateTransitionCodec).emit 7
      r.certificateTransitions) (r.certificateTransitions.length * 2)
      (r.certificateTransitions.length * 165) :=
    within_repeated (k := 1) (by decide) (fun t ht =>
      certificateTransition_within h (h.transitions t ht).1) (by decide)
  have hfields : Within (Codec.emitAll r rosterCodec.fields) _ _ :=
    within_emitAll_cons (within_version (by decide) h.version) <|
    within_emitAll_cons (within_block (by decide) h.workspace.1 (by decide) (by decide)) <|
    within_emitAll_cons (within_number (by decide) h.epoch.2) <|
    within_emitAll_cons (within_block (by decide) h.previous_size (by decide) (by decide)) <|
    within_emitAll_cons hactive <|
    within_emitAll_cons hrevocations <|
    within_emitAll_cons htransitions within_emitAll_nil
  have hactiveCount : r.activeCertificates.length ≤ 256 := h.active_count
  have hrevocationsCount : r.revocations.length ≤ 4096 := h.revocations_count
  have htransitionsCount : r.certificateTransitions.length ≤ 256 := h.transitions_count
  refine (within_marshal h.unknown hfields).weaken ?_ ?_
  · simp only [identifierSize, digestSize]
    omega
  · simp only [identifierSize, digestSize]
    omega

/-- What a digest and a signature add to the text of a roster. -/
theorem RosterValid.signed_within {key : Bytes} {r : WorkspaceRoster} (h : RosterValid crypto key r)
    {value : SignedWorkspaceRoster} (hroster : value.roster = some r) (hunknown : value.unknown = [])
    (hdigest : value.rosterDigest.length = digestSize)
    (hsignature : value.authoritySignature.length = ed25519SignatureSize) :
    Within (signedRosterCodec.marshal value) (r.activeCertificates.length * 248 + 156) 403112 := by
  have hbody : Within ((message rosterCodec).emit 1 value.roster)
      (r.activeCertificates.length * 248 + 56) 403012 := by
    rw [hroster]
    exact within_message (k := 2) (by decide) h.within (by decide)
  have hfields : Within (Codec.emitAll value signedRosterCodec.fields) _ _ :=
    within_emitAll_cons hbody <|
    within_emitAll_cons (within_block (by decide) hdigest (by decide) (by decide)) <|
    within_emitAll_cons (within_block (by decide) hsignature (by decide) (by decide))
      within_emitAll_nil
  refine (within_marshal hunknown hfields).weaken ?_ (by decide)
  simp only [digestSize, ed25519SignatureSize]
  omega

theorem signedRoster_within {value : SignedWorkspaceRoster} {key : Bytes}
    (h : validateSignedWorkspaceRoster crypto value key = .ok ()) :
    Within (signedRosterCodec.marshal value) (value.body.activeCertificates.length * 248 + 156)
      403112 := by
  obtain ⟨hunknown, -, roster, encoded, hroster, hvalid, -, hdigest, hsignature, -⟩ :=
    validateSignedWorkspaceRoster_iff.mp h
  have hlength : value.rosterDigest.length = digestSize := by rw [hdigest, domainHash_length]
  have hwithin := hvalid.signed_within hroster hunknown hlength hsignature
  rwa [SignedWorkspaceRoster.body, hroster]

/-! ### The size error -/

theorem encode_ne_size {M : Type} {c : Codec M} {value : M} {low high : Nat}
    (h : Within (c.marshal value) low high) (hlow : 0 < low)
    (hhigh : high ≤ maxMembershipMessageSize) : encode c value ≠ .error .size := by
  obtain ⟨encoded, hencoded, -⟩ := encode_of_within h hlow hhigh
  rw [hencoded]
  exact fun herror => (by cases herror)

theorem validateSignedDeviceCertificate_ne_size {value : SignedDeviceCertificate} {key : Bytes} :
    validateSignedDeviceCertificate crypto value key ≠ .error .size := by
  have hcertificate (c : DeviceCertificate) :
      validateDeviceCertificate crypto c ≠ .error .size := by
    simp [validateDeviceCertificate, validateBinding, bind_eq_error, reject_eq_error]
  intro h
  simp only [validateSignedDeviceCertificate, bind_eq_error, reject_eq_error, require_eq_error,
    reject_eq_ok, require_eq_ok, hcertificate, exists_unit, reduceCtorEq, and_false, false_or,
    or_false, exists_false] at h
  obtain ⟨-, -, certificate, -, hvalid, hsize⟩ := h
  exact encode_ne_size (validateDeviceCertificate_iff.mp hvalid).within (by decide) (by decide) hsize

/-- A loop over sorted items fails with an error of its checks. -/
theorem validateAscending_ne_size {α : Type} {key : α → Bytes}
    {before after : α → Except CodecError Unit} {order : CodecError}
    (hbefore : ∀ x, before x ≠ .error .size) (horder : order ≠ .size)
    (hafter : ∀ x, after x ≠ .error .size) {previous : Option Bytes} {items : List α} :
    validateAscending key before order after previous items ≠ .error .size := by
  induction items generalizing previous with
  | nil => exact pure_ne_error
  | cons x rest ih =>
    simp [validateAscending, bind_eq_error, reject_eq_error, hbefore, horder, hafter, ih]

theorem validateWorkspaceRoster_ne_size {r : WorkspaceRoster} {key : Bytes} :
    validateWorkspaceRoster crypto r key ≠ .error .size := by
  have hactive (c : SignedDeviceCertificate) :
      validateActiveCertificate crypto r key c ≠ .error .size := by
    simp [validateActiveCertificate, bind_eq_error, reject_eq_error,
      validateSignedDeviceCertificate_ne_size]
  have htransition (t : DeviceCertificateTransition) :
      validateCertificateTransition r t ≠ .error .size := by
    simp [validateCertificateTransition, reject_eq_error]
  have hrevocation (x : RevokedCertificate) : validateRevocation x ≠ .error .size := by
    simp [validateRevocation, reject_eq_error]
  simp [validateWorkspaceRoster, bind_eq_error, reject_eq_error, validateAscending_ne_size, hactive,
    htransition, hrevocation, pure_ne_error]

theorem signWorkspaceRoster_ne_size {r : WorkspaceRoster} {privateKey : Bytes} :
    signWorkspaceRoster crypto r privateKey ≠ .error .size := by
  intro h
  simp only [signWorkspaceRoster, bind_eq_error, reject_eq_error, reject_eq_ok, pure_ne_error,
    validateWorkspaceRoster_ne_size, exists_unit, reduceCtorEq, and_false, false_or, or_false,
    exists_false] at h
  obtain ⟨-, hvalid, hsize⟩ := h
  exact encode_ne_size (validateWorkspaceRoster_iff.mp hvalid).within (Nat.succ_pos _) (by decide)
    hsize

theorem encodeSignedWorkspaceRoster_ne_size {value : SignedWorkspaceRoster} {key : Bytes} :
    encodeSignedWorkspaceRoster crypto value key ≠ .error .size := by
  have hsigned : validateSignedWorkspaceRoster crypto value key ≠ .error .size := by
    intro h
    simp only [validateSignedWorkspaceRoster, bind_eq_error, reject_eq_error, require_eq_error,
      reject_eq_ok, require_eq_ok, validateWorkspaceRoster_ne_size, exists_unit, reduceCtorEq,
      and_false, false_or, or_false, exists_false] at h
    obtain ⟨-, -, roster, -, hvalid, hsize⟩ := h
    exact encode_ne_size (validateWorkspaceRoster_iff.mp hvalid).within (Nat.succ_pos _) (by decide)
      hsize
  intro h
  simp only [encodeSignedWorkspaceRoster, bind_eq_error, hsigned, false_or, exists_unit] at h
  exact encode_ne_size (signedRoster_within h.1) (Nat.succ_pos _) (by decide) h.2

/-! ### Authority transitions -/

/-- What `validateAuthorityKeyTransition` accepts, with the keys of the transition. -/
structure TransitionValid (t : AuthorityKeyTransition) : Prop where
  unknown : t.unknown = []
  version : t.protocolVersion = protocolVersion
  workspace : t.workspaceId.length = identifierSize ∧ allZero t.workspaceId = false
  epoch : 2 ≤ t.transitionEpoch ∧ t.transitionEpoch ≤ maxEpoch
  previous_size : t.previousTransitionDigest.length = digestSize
  previous_first : t.transitionEpoch = 2 → allZero t.previousTransitionDigest = true
  previous_later : 2 < t.transitionEpoch → allZero t.previousTransitionDigest = false
  previousKey : t.previousAuthorityPublicKey.length = ed25519PublicKeySize ∧
    allZero t.previousAuthorityPublicKey = false
  newKey : t.newAuthorityPublicKey.length = ed25519PublicKeySize ∧
    allZero t.newAuthorityPublicKey = false
  keys : t.previousAuthorityPublicKey ≠ t.newAuthorityPublicKey
  activation : 2 ≤ t.activationRosterEpoch ∧ t.activationRosterEpoch ≤ maxEpoch
  roster : t.previousRosterDigest.length = digestSize ∧ allZero t.previousRosterDigest = false
  issued : t.issuedAtUnixMs ≠ 0 ∧ t.issuedAtUnixMs ≤ maxEpoch

theorem validateAuthorityKeyTransition_iff {t : AuthorityKeyTransition} :
    validateAuthorityKeyTransition t t.previousAuthorityPublicKey t.newAuthorityPublicKey = .ok () ↔
      TransitionValid t := by
  simp only [validateAuthorityKeyTransition, bind_eq_ok, exists_unit, reject_eq_ok, not_or, not_and,
    ne_eq, Decidable.not_not, Bool.not_eq_true, gt_iff_lt, UInt64.not_lt]
  constructor
  · rintro ⟨hunknown, ⟨hversion, hw, hwz⟩, ⟨he, heMax⟩, ⟨hsize, hfirst, hlater⟩,
      ⟨hp, hn, -, -, hne, hpz, hnz⟩, ⟨ha, haMax, hr, hrz, hi, hiMax⟩⟩
    exact ⟨hunknown, hversion, ⟨hw, hwz⟩, ⟨he, heMax⟩, hsize, fun h => by simpa using hfirst h,
      hlater, ⟨hp, hpz⟩, ⟨hn, hnz⟩, hne, ⟨ha, haMax⟩, ⟨hr, hrz⟩, ⟨hi, hiMax⟩⟩
  · intro h
    exact ⟨h.unknown, ⟨h.version, h.workspace.1, h.workspace.2⟩, ⟨h.epoch.1, h.epoch.2⟩,
      ⟨h.previous_size, fun he => by simpa using h.previous_first he, h.previous_later⟩,
      ⟨h.previousKey.1, h.newKey.1, trivial, trivial, h.keys, h.previousKey.2, h.newKey.2⟩,
      ⟨h.activation.1, h.activation.2, h.roster.1, h.roster.2, h.issued.1, h.issued.2⟩⟩

theorem TransitionValid.within {t : AuthorityKeyTransition} (h : TransitionValid t) :
    Within (authorityTransitionCodec.marshal t) 156 186 := by
  have hfields : Within (Codec.emitAll t authorityTransitionCodec.fields) _ _ :=
    within_emitAll_cons (within_version (by decide) h.version) <|
    within_emitAll_cons (within_block (by decide) h.workspace.1 (by decide) (by decide)) <|
    within_emitAll_cons (within_number (by decide) h.epoch.2) <|
    within_emitAll_cons (within_block (by decide) h.previous_size (by decide) (by decide)) <|
    within_emitAll_cons (within_block (by decide) h.previousKey.1 (by decide) (by decide)) <|
    within_emitAll_cons (within_block (by decide) h.newKey.1 (by decide) (by decide)) <|
    within_emitAll_cons (within_number (by decide) h.activation.2) <|
    within_emitAll_cons (within_block (by decide) h.roster.1 (by decide) (by decide)) <|
    within_emitAll_cons (within_number (by decide) h.issued.2) within_emitAll_nil
  exact (within_marshal h.unknown hfields).weaken (by decide) (by decide)

theorem signedTransition_within {value : SignedAuthorityKeyTransition}
    (h : validateSignedAuthorityKeyTransition crypto value = .ok ()) :
    Within (signedAuthorityTransitionCodec.marshal value) 324 355 := by
  obtain ⟨hunknown, transition, encoded, htransition, hvalid, -, hdigest, hold, -, hnew, -⟩ :=
    validateSignedAuthorityKeyTransition_iff.mp h
  have hlength : value.transitionDigest.length = digestSize := by rw [hdigest, domainHash_length]
  have hbody : Within ((message authorityTransitionCodec).emit 1 value.transition) 158 189 := by
    rw [htransition]
    exact within_message (k := 1) (by decide) (validateAuthorityKeyTransition_iff.mp hvalid).within
      (by decide)
  have hfields : Within (Codec.emitAll value signedAuthorityTransitionCodec.fields) _ _ :=
    within_emitAll_cons hbody <|
    within_emitAll_cons (within_block (by decide) hlength (by decide) (by decide)) <|
    within_emitAll_cons (within_block (by decide) hold (by decide) (by decide)) <|
    within_emitAll_cons (within_block (by decide) hnew (by decide) (by decide)) within_emitAll_nil
  exact (within_marshal hunknown hfields).weaken (by decide) (by decide)

end SevenMirror.MembershipCodec
