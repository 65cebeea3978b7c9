import SevenMirror.Lib.Table
import SevenMirror.MembershipCodec.Sizes

/-! The rules for rosters, stated for a roster as a whole, and that `validateWorkspaceRoster` decides
them.  The rules compare all pairs and speak of what is in the lists; the validator compares
neighbours and looks up what it has passed. -/

namespace SevenMirror.MembershipCodec

open Lib Wire

variable {crypto : Crypto} {key : Bytes} {r : WorkspaceRoster}

/-! ### The rules -/

/-- An identifier of `size` bytes, not all of them zero. -/
def IsIdentifier (size : Nat) (b : Bytes) : Prop := b.length = size ∧ ∃ x ∈ b, x ≠ 0

/-- A number from 1 to `math.MaxInt64`. -/
def Positive (n : UInt64) : Prop := 1 ≤ n.toNat ∧ n.toNat ≤ maxInt64

/-- A certificate that may be signed. -/
structure CertificateRules (crypto : Crypto) (c : DeviceCertificate) : Prop where
  unknown : c.unknown = []
  version : c.protocolVersion = protocolVersion
  workspace : IsIdentifier identifierSize c.workspaceId
  device : IsIdentifier identifierSize c.deviceId
  keyID : IsIdentifier digestSize c.identityKeyId
  type : c.deviceType = deviceTypeAndroid ∨ c.deviceType = deviceTypeChrome
  name : validUtf8 c.displayName = true ∧ trimSpace c.displayName ≠ [] ∧
    c.displayName.length ≤ maxDisplayNameBytes
  roles : c.roles ≠ [] ∧ c.roles.Pairwise (· < ·) ∧
    ∀ role ∈ c.roles, deviceRoleSendNotifications ≤ role ∧ role ≤ deviceRoleManageDevices
  identity : c.identityPublicKey.length = p256PublicKeySize ∧
    crypto.onCurve c.identityPublicKey = true
  identity_hash : c.identityKeyId = (crypto.sha256 c.identityPublicKey).bytes
  issued : Positive c.issuedAtUnixMs
  expires : c.expiresAtUnixMs = 0 ∨
    Positive c.expiresAtUnixMs ∧ c.issuedAtUnixMs < c.expiresAtUnixMs
  epoch : Positive c.membershipEpoch

/-- The certificate is `c`, with its identifier and a signature by the key. -/
structure SignedBy (crypto : Crypto) (key : Bytes) (value : SignedDeviceCertificate)
    (c : DeviceCertificate) : Prop where
  unknown : value.unknown = []
  certificate : value.certificate = some c
  rules : CertificateRules crypto c
  key_size : key.length = ed25519PublicKeySize
  signed : ∃ encoded, certificateCodec.marshal c = some encoded ∧
    value.certificateId = (crypto.sha256 (certificateIDDomain ++ encoded)).bytes ∧
    value.authoritySignature.length = ed25519SignatureSize ∧
    crypto.verify key (certificateSignatureDomain ++ encoded) value.authoritySignature = true

/-- A change of certificate in this roster. -/
structure TransitionRules (r : WorkspaceRoster) (t : DeviceCertificateTransition) : Prop where
  unknown : t.unknown = []
  version : t.protocolVersion = protocolVersion
  workspace : t.workspaceId = r.workspaceId
  device : IsIdentifier identifierSize t.deviceId
  previous : IsIdentifier digestSize t.previousCertificateId
  new : IsIdentifier digestSize t.newCertificateId
  different : t.previousCertificateId ≠ t.newCertificateId
  epoch : t.activationRosterEpoch = r.rosterEpoch
  digest : t.previousRosterDigest = r.previousRosterDigest
  reason : t.reason = reasonDisplayName
  issued : Positive t.issuedAtUnixMs

structure RevocationRules (x : RevokedCertificate) : Prop where
  unknown : x.unknown = []
  certificate : IsIdentifier digestSize x.certificateId
  device : IsIdentifier identifierSize x.deviceId
  revoked : Positive x.revokedAtUnixMs

/-- A roster that the key may sign. -/
structure RosterRules (crypto : Crypto) (key : Bytes) (r : WorkspaceRoster) : Prop where
  unknown : r.unknown = []
  version : r.protocolVersion = protocolVersion
  workspace : IsIdentifier identifierSize r.workspaceId
  epoch : Positive r.rosterEpoch
  previous : r.previousRosterDigest.length = digestSize ∧
    ((∀ x ∈ r.previousRosterDigest, x = 0) ↔ r.rosterEpoch = 1)
  active_count : r.activeCertificates.length ≤ maxActiveCertificates
  active : ∀ s ∈ r.activeCertificates, ∃ c, SignedBy crypto key s c ∧
    c.workspaceId = r.workspaceId ∧ c.membershipEpoch ≤ r.rosterEpoch
  active_order : r.activeCertificates.Pairwise fun s s' => s.body.deviceId < s'.body.deviceId
  transitions_count : r.certificateTransitions.length ≤ maxCertificateTransitions
  transitions_first : r.rosterEpoch = 1 → r.certificateTransitions = []
  transitions : ∀ t ∈ r.certificateTransitions, TransitionRules r t ∧
    ∃ s ∈ r.activeCertificates, s.body.deviceId = t.deviceId ∧
      s.certificateId = t.newCertificateId
  transitions_order : r.certificateTransitions.Pairwise fun t t' => t.deviceId < t'.deviceId
  revocations_count : r.revocations.length ≤ maxRevocations
  revocations : ∀ x ∈ r.revocations, RevocationRules x
  revocations_order : r.revocations.Pairwise fun x x' => x.certificateId < x'.certificateId
  disjoint : ∀ s ∈ r.activeCertificates, ∀ x ∈ r.revocations, s.certificateId ≠ x.certificateId

/-! ### What the validator checks -/

theorem isIdentifier_iff {size : Nat} {b : Bytes} :
    IsIdentifier size b ↔ b.length = size ∧ allZero b = false := by
  simp [IsIdentifier, allZero]

theorem positive_iff {n : UInt64} : Positive n ↔ n ≠ 0 ∧ n ≤ maxEpoch := by
  have hmax : maxEpoch.toNat = maxInt64 := by decide
  rw [Positive, UInt64.le_iff_toNat_le, hmax, ne_eq, ← UInt64.toNat_inj, UInt64.toNat_zero]
  omega

theorem rolesSorted_iff {previous : DeviceRole} {roles : List DeviceRole} :
    rolesSorted previous roles = true ↔ (∀ role ∈ roles, previous < role) ∧
      roles.Pairwise (· < ·) ∧
      ∀ role ∈ roles, deviceRoleSendNotifications ≤ role ∧ role ≤ deviceRoleManageDevices := by
  induction roles generalizing previous with
  | nil => simp [rolesSorted]
  | cons role rest ih =>
    simp only [rolesSorted, Bool.and_eq_true, Bool.not_eq_true', Bool.or_eq_false_iff,
      decide_eq_false_iff_not, Int32.not_lt, Int32.not_le, gt_iff_lt, ih, List.forall_mem_cons,
      List.pairwise_cons]
    constructor
    · rintro ⟨⟨⟨hlow, hhigh⟩, hafter⟩, hrest, hpairs, hbounds⟩
      exact ⟨⟨hafter, fun x hx => Int32.lt_trans hafter (hrest x hx)⟩, ⟨hrest, hpairs⟩,
        ⟨hlow, hhigh⟩, hbounds⟩
    · rintro ⟨⟨hafter, -⟩, ⟨hrest, hpairs⟩, ⟨hlow, hhigh⟩, hbounds⟩
      exact ⟨⟨⟨hlow, hhigh⟩, hafter⟩, hrest, hpairs, hbounds⟩

/-- Every supported role comes after the first, which is not one. -/
theorem rolesSorted_first {roles : List DeviceRole} :
    rolesSorted deviceRoleUnspecified roles = true ↔ roles.Pairwise (· < ·) ∧
      ∀ role ∈ roles, deviceRoleSendNotifications ≤ role ∧ role ≤ deviceRoleManageDevices := by
  rw [rolesSorted_iff, and_iff_right_of_imp]
  intro ⟨_, hbounds⟩ role hrole
  exact Int32.lt_of_lt_of_le (by decide) (hbounds role hrole).1

theorem certificateRules_iff {c : DeviceCertificate} :
    CertificateRules crypto c ↔ CertificateValid crypto c := by
  constructor
  · intro h
    refine ⟨h.unknown, h.version, isIdentifier_iff.mp h.workspace, isIdentifier_iff.mp h.device,
      isIdentifier_iff.mp h.keyID, h.type, h.name, ⟨h.roles.1, rolesSorted_first.mpr h.roles.2⟩,
      h.identity.1, h.identity.2, h.identity_hash, positive_iff.mp h.issued, ?_,
      positive_iff.mp h.epoch⟩
    rcases h.expires with hzero | ⟨hpositive, hlater⟩
    · rw [hzero]
      exact ⟨by decide, Or.inl rfl⟩
    · exact ⟨(positive_iff.mp hpositive).2, Or.inr hlater⟩
  · intro h
    refine ⟨h.unknown, h.version, isIdentifier_iff.mpr h.workspace, isIdentifier_iff.mpr h.device,
      isIdentifier_iff.mpr h.keyID, h.type, h.name, ⟨h.roles.1, rolesSorted_first.mp h.roles.2⟩,
      ⟨h.identity_size, h.identity⟩, h.identity_hash, positive_iff.mpr h.issued, ?_,
      positive_iff.mpr h.epoch⟩
    by_cases hzero : c.expiresAtUnixMs = 0
    · exact Or.inl hzero
    · exact Or.inr ⟨positive_iff.mpr ⟨hzero, h.expires.1⟩, h.expires.2.resolve_left hzero⟩

theorem signedBy_iff {value : SignedDeviceCertificate} :
    validateSignedDeviceCertificate crypto value key = .ok () ↔ ∃ c, SignedBy crypto key value c := by
  rw [validateSignedDeviceCertificate_iff]
  constructor
  · rintro ⟨hunknown, hkey, c, encoded, hc, hvalid, hencoded, hid, hsize, hverify⟩
    exact ⟨c, hunknown, hc, certificateRules_iff.mpr (validateDeviceCertificate_iff.mp hvalid), hkey,
      encoded, (encode_eq_ok.mp hencoded).1, hid, hsize, hverify⟩
  · rintro ⟨c, hunknown, hc, hrules, hkey, encoded, hmarshal, hid, hsize, hverify⟩
    have hvalid := certificateRules_iff.mp hrules
    -- a certificate that keeps the rules has a text of the right size
    obtain ⟨encoded', hencoded, -⟩ := encode_of_within hvalid.within (by decide) (by decide)
    obtain rfl : encoded' = encoded := by
      have hsame := (encode_eq_ok.mp hencoded).1.symm.trans hmarshal
      exact Option.some.inj hsame
    exact ⟨hunknown, hkey, c, encoded', hc, validateDeviceCertificate_iff.mpr hvalid, hencoded, hid,
      hsize, hverify⟩

theorem activeCertificate_iff {s : SignedDeviceCertificate} :
    validateActiveCertificate crypto r key s = .ok () ↔ ∃ c, SignedBy crypto key s c ∧
      c.workspaceId = r.workspaceId ∧ c.membershipEpoch ≤ r.rosterEpoch := by
  rw [validateActiveCertificate_iff, signedBy_iff]
  constructor
  · rintro ⟨⟨c, hsigned⟩, hbinding⟩
    rw [SignedDeviceCertificate.body, hsigned.certificate, Option.getD_some] at hbinding
    exact ⟨c, hsigned, hbinding⟩
  · rintro ⟨c, hsigned, hbinding⟩
    refine ⟨⟨c, hsigned⟩, ?_⟩
    rw [SignedDeviceCertificate.body, hsigned.certificate, Option.getD_some]
    exact hbinding

theorem transitionRules_iff {t : DeviceCertificateTransition} :
    validateCertificateTransition r t = .ok () ↔ TransitionRules r t := by
  simp only [validateCertificateTransition, reject_eq_ok, not_or, ne_eq, Decidable.not_not,
    gt_iff_lt, UInt64.not_lt, Bool.not_eq_true]
  constructor
  · rintro ⟨hunknown, hversion, hworkspace, hd, hdz, hp, hpz, hn, hnz, hne, hepoch, hdigest, hreason,
      hi, hiMax⟩
    exact ⟨hunknown, hversion, hworkspace, isIdentifier_iff.mpr ⟨hd, hdz⟩,
      isIdentifier_iff.mpr ⟨hp, hpz⟩, isIdentifier_iff.mpr ⟨hn, hnz⟩, hne, hepoch, hdigest, hreason,
      positive_iff.mpr ⟨hi, hiMax⟩⟩
  · intro h
    have hdevice := isIdentifier_iff.mp h.device
    have hprevious := isIdentifier_iff.mp h.previous
    have hnew := isIdentifier_iff.mp h.new
    have hissued := positive_iff.mp h.issued
    exact ⟨h.unknown, h.version, h.workspace, hdevice.1, hdevice.2, hprevious.1, hprevious.2, hnew.1,
      hnew.2, h.different, h.epoch, h.digest, h.reason, hissued.1, hissued.2⟩

theorem revocationRules_iff {x : RevokedCertificate} :
    validateRevocation x = .ok () ↔ RevocationRules x := by
  simp only [validateRevocation, reject_eq_ok, not_or, ne_eq, Decidable.not_not, gt_iff_lt,
    UInt64.not_lt, Bool.not_eq_true]
  constructor
  · rintro ⟨hunknown, hc, hcz, hd, hdz, hr, hrMax⟩
    exact ⟨hunknown, isIdentifier_iff.mpr ⟨hc, hcz⟩, isIdentifier_iff.mpr ⟨hd, hdz⟩,
      positive_iff.mpr ⟨hr, hrMax⟩⟩
  · intro h
    have hcertificate := isIdentifier_iff.mp h.certificate
    have hdevice := isIdentifier_iff.mp h.device
    have hrevoked := positive_iff.mp h.revoked
    exact ⟨h.unknown, hcertificate.1, hcertificate.2, hdevice.1, hdevice.2, hrevoked.1, hrevoked.2⟩

/-- The devices of the active certificates are distinct, so that the one looked up is the one that is
there. -/
theorem replacementActive_iff
    (horder : (r.activeCertificates.map (·.body.deviceId)).Pairwise (· < ·))
    {t : DeviceCertificateTransition} :
    replacementActive r t = true ↔ ∃ s ∈ r.activeCertificates, s.body.deviceId = t.deviceId ∧
      s.certificateId = t.newCertificateId := by
  rw [replacementActive]
  constructor
  · intro h
    split at h
    · cases h
    · rename_i active hactive
      have hdevice := List.find?_some hactive
      exact ⟨active, List.mem_of_find?_eq_some hactive, by simpa using hdevice, by simpa using h⟩
  · rintro ⟨s, hs, hdevice, hid⟩
    have hdistinct : r.activeCertificates.Pairwise fun s s' => s.body.deviceId ≠ s'.body.deviceId :=
      (List.pairwise_map.mp horder).imp fun hlt heq => by
        rw [heq] at hlt
        exact List.lt_irrefl _ hlt
    let byDevice : Table fun s : SignedDeviceCertificate => s.body.deviceId :=
      ⟨r.activeCertificates, hdistinct⟩
    have hfind : byDevice.find t.deviceId = some s := Table.find_eq_some.mpr ⟨hs, hdevice⟩
    have hsame : r.activeCertificate t.deviceId = byDevice.find t.deviceId := by
      simp only [WorkspaceRoster.activeCertificate, Table.find, byDevice, beq_eq_decide]
    rw [hsame, hfind]
    simpa using hid

theorem rosterRules_iff : RosterRules crypto key r ↔ RosterValid crypto key r := by
  constructor
  · intro h
    have horder := List.pairwise_map.mpr h.active_order
    have hepoch := positive_iff.mp h.epoch
    have hzero : allZero r.previousRosterDigest = true ↔ r.rosterEpoch = 1 := by
      rw [← h.previous.2]
      simp [allZero]
    refine ⟨h.unknown, h.version, isIdentifier_iff.mp h.workspace, hepoch, h.previous.1, hzero.mpr,
      fun hlater => ?_, h.active_count, fun s hs => activeCertificate_iff.mpr (h.active s hs), horder,
      h.transitions_count, h.transitions_first, fun t ht => ?_,
      List.pairwise_map.mpr h.transitions_order, h.revocations_count,
      fun x hx => revocationRules_iff.mpr (h.revocations x hx),
      List.pairwise_map.mpr h.revocations_order, fun x hx s hs => h.disjoint s hs x hx⟩
    · rw [Bool.eq_false_iff, ne_eq, hzero]
      rintro hone
      rw [hone] at hlater
      exact absurd hlater (by decide)
    · obtain ⟨hrules, hactive⟩ := h.transitions t ht
      exact ⟨transitionRules_iff.mpr hrules, (replacementActive_iff horder).mpr hactive⟩
  · intro h
    refine ⟨h.unknown, h.version, isIdentifier_iff.mpr h.workspace, positive_iff.mpr h.epoch,
      ⟨h.previous_size, ?_⟩, h.active_count, fun s hs => activeCertificate_iff.mp (h.active s hs),
      List.pairwise_map.mp h.active_order, h.transitions_count, h.transitions_first, fun t ht => ?_,
      List.pairwise_map.mp h.transitions_order, h.revocations_count,
      fun x hx => revocationRules_iff.mp (h.revocations x hx),
      List.pairwise_map.mp h.revocations_order, fun s hs x hx => h.disjoint x hx s hs⟩
    · have hzero : (∀ x ∈ r.previousRosterDigest, x = 0) ↔
          allZero r.previousRosterDigest = true := by simp [allZero]
      rw [hzero]
      refine ⟨fun hall => ?_, h.previous_first⟩
      by_contra hne
      have hlater : 1 < r.rosterEpoch := by
        have hpos := h.epoch.1
        simp only [ne_eq, ← UInt64.toNat_inj, UInt64.toNat_zero, UInt64.toNat_one] at hpos hne
        rw [UInt64.lt_iff_toNat_lt, UInt64.toNat_one]
        omega
      rw [h.previous_later hlater] at hall
      cases hall
    · obtain ⟨hrules, hactive⟩ := h.transitions t ht
      exact ⟨transitionRules_iff.mp hrules, (replacementActive_iff h.active_order).mp hactive⟩

/-- The validator decides the rules. -/
theorem validateWorkspaceRoster_decides (crypto : Crypto) (key : Bytes) (r : WorkspaceRoster) :
    validateWorkspaceRoster crypto r key = .ok () ↔ RosterRules crypto key r := by
  rw [validateWorkspaceRoster_iff, rosterRules_iff]

end SevenMirror.MembershipCodec
