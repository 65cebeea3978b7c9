import SevenMirror.Admission.Progress

/-! The operations on members succeed.  In a workspace that the store keeps, approving, renaming, and
revoking a device and rotating the authority lead to an accepted roster, and nothing else of what they
check can fail; the only limits are 256 active and 4096 revoked certificates. -/

namespace SevenMirror.Admission

open Lib MembershipCodec

/-! ### Certificates -/

/-- A certificate is accepted with another name, instant, and epoch. -/
theorem certificate_renewed {crypto : Crypto} {c : DeviceCertificate}
    (h : CertificateValid crypto c) (hexpires : c.expiresAtUnixMs = 0) {name : Bytes}
    {instant epoch : UInt64} (hname : validateDeviceName name = .ok ())
    (hinstant : instant ≠ 0 ∧ instant ≤ maxEpoch) (hepoch : epoch ≠ 0 ∧ epoch ≤ maxEpoch) :
    CertificateValid crypto { c with
      displayName := name, issuedAtUnixMs := instant, membershipEpoch := epoch } where
  unknown := h.unknown
  version := h.version
  workspace := h.workspace
  device := h.device
  keyID := h.keyID
  type := h.type
  name := validateDeviceName_iff.mp hname
  roles := h.roles
  identity_size := h.identity_size
  identity := h.identity
  identity_hash := h.identity_hash
  issued := hinstant
  expires := ⟨h.expires.1, Or.inl hexpires⟩
  epoch := hepoch

theorem signedCertificate_body {crypto : Crypto} {c : SignedDeviceCertificate} {key : Bytes}
    (h : validateSignedDeviceCertificate crypto c key = .ok ()) :
    c.certificate = some c.body ∧ CertificateValid crypto c.body ∧
      c.certificateId.length = digestSize := by
  obtain ⟨-, -, certificate, text, hc, hvalid, -, hid, -⟩ :=
    validateSignedDeviceCertificate_iff.mp h
  simp only [SignedDeviceCertificate.body, hc, Option.getD_some]
  exact ⟨trivial, validateDeviceCertificate_iff.mp hvalid, by rw [hid, domainHash_length]⟩

theorem certificateId_nonzero {crypto : Crypto} (ideal : crypto.Ideal)
    {c : SignedDeviceCertificate} {key : Bytes}
    (h : validateSignedDeviceCertificate crypto c key = .ok ()) :
    allZero c.certificateId = false := by
  obtain ⟨-, -, -, text, -, -, -, hid, -⟩ := validateSignedDeviceCertificate_iff.mp h
  rw [hid]
  exact ideal.domainHash_nonzero _ _

section Rows

variable {crypto : Crypto} {id : WorkspaceID} {key : Block 32} {w : Workspace} {d : Device}
  {c : SignedDeviceCertificate} {active : List SignedDeviceCertificate}
  {revocations : List RevokedCertificate}

theorem Certified.storedCertificate (h : Certified crypto w.id w.authorityPublicKey d c) :
    storedCertificate crypto w d = .ok c := by
  obtain ⟨encoded, hstored, hencode⟩ := h.stored
  simp only [Admission.storedCertificate, bind_eq_ok, exists_unit, rethrow_eq_ok, reject_eq_ok,
    pure_eq_ok, not_or, ne_eq, Decidable.not_not]
  refine ⟨c, ?_, ⟨h.certificateID.symm, h.workspace, h.device⟩, rfl⟩
  rw [hstored, Option.getD_some]
  exact decodeSignedDeviceCertificate_iff.mpr hencode

/-- The certificate of a member is found in the roster as it is stored. -/
theorem withoutDevice_succeeds
    (hagrees : Agrees crypto w.id w.authorityPublicKey (· ∈ w.devices.rows) active revocations)
    (hd : d ∈ w.devices.rows) (hmember : d.Member) :
    withoutDevice crypto w d active =
      .ok (active.filter fun c => !decide (c.body.deviceId = d.id.bytes)) := by
  simp only [withoutDevice, bind_eq_ok, exists_unit, reject_eq_ok, pure_eq_ok, not_not, and_true,
    List.all_eq_true, List.any_eq_true, List.mem_filter, decide_eq_true_eq]
  refine ⟨?_, ?_⟩
  · rintro c ⟨hc, hdevice⟩
    obtain ⟨x, hx, -, hcertified⟩ := hagrees.active c hc
    obtain rfl := Agrees.unique hd x hx (Block.ext (hcertified.device.symm.trans hdevice))
    obtain ⟨encoded, hstored, hencode⟩ := hcertified.stored
    simp [hencode, hstored]
  · obtain ⟨c, hc, hcertified⟩ := hagrees.member d hd hmember
    exact ⟨c, hc, hcertified.device⟩

/-- The devices of a workspace that are members. -/
def Workspace.activeDevices (w : Workspace) : Nat :=
  w.devices.rows.countP fun d => d.membershipState = .approved ∧ d.revokedAtMs = none

/-- The devices of a workspace that a roster revoked. -/
def Workspace.revokedDevices (w : Workspace) : Nat :=
  w.devices.rows.countP fun d => d.revokedMembershipEpoch.isSome

/-- Items with distinct names are as many as the rows that have these names. -/
theorem length_eq_countP {α : Type} {items : List α} {name : α → Bytes} {p : Device → Bool}
    {devices : Table Device.id} (hitems : (items.map name).Nodup)
    (hmem : ∀ b, b ∈ items.map name ↔ ∃ d ∈ devices.rows, p d = true ∧ d.id.bytes = b) :
    items.length = devices.rows.countP p := by
  have hrows : ((devices.rows.filter p).map fun d => d.id.bytes).Nodup := by
    rw [List.Nodup, List.pairwise_map]
    exact (devices.distinct.imp fun hne heq => hne (Block.ext heq)).filter p
  have hperm : (items.map name).Perm ((devices.rows.filter p).map fun d => d.id.bytes) := by
    refine (List.perm_ext_iff_of_nodup hitems hrows).mpr fun b => ?_
    rw [hmem]
    simp only [List.mem_map, List.mem_filter, and_assoc]
  rw [List.countP_eq_length_filter, ← List.length_map name, hperm.length_eq, List.length_map]

/-- There are as many active certificates as active devices. -/
theorem Agrees.active_length
    (hagrees : Agrees crypto w.id w.authorityPublicKey (· ∈ w.devices.rows) active revocations)
    (hordered : (active.map (·.body.deviceId)).Pairwise (· < ·)) :
    active.length = w.activeDevices := by
  refine length_eq_countP (nodup_of_ascends hordered) fun b => ?_
  simp only [decide_eq_true_eq]
  constructor
  · intro hb
    obtain ⟨c, hc, rfl⟩ := List.mem_map.mp hb
    obtain ⟨d, hd, hmember, hcertified⟩ := hagrees.active c hc
    exact ⟨d, hd, hmember, hcertified.device.symm⟩
  · rintro ⟨d, hd, hmember, rfl⟩
    obtain ⟨c, hc, hcertified⟩ := hagrees.member d hd hmember
    exact List.mem_map.mpr ⟨c, hc, hcertified.device⟩

/-- There are as many revocations as devices that a roster revoked. -/
theorem Agrees.revocations_length
    (hagrees : Agrees crypto w.id w.authorityPublicKey (· ∈ w.devices.rows) active revocations)
    (hordered : (revocations.map (·.certificateId)).Pairwise (· < ·)) :
    revocations.length = w.revokedDevices := by
  have hnodup : (revocations.map (·.deviceId)).Nodup := by
    have hids := nodup_of_ascends hordered
    rw [List.Nodup, List.pairwise_map] at hids ⊢
    refine hids.imp_of_mem fun {x y} hx hy hne heq => hne ?_
    -- revocations of one device name its one certificate
    obtain ⟨d, hd, -, hdevice, hcolumn⟩ := hagrees.revocation x hx
    obtain ⟨d', hd', -, hdevice', hcolumn'⟩ := hagrees.revocation y hy
    obtain rfl := Agrees.unique hd d' hd'
      (Block.ext (hdevice'.symm.trans (heq.symm.trans hdevice)))
    exact Option.some.inj (hcolumn.symm.trans hcolumn')
  refine length_eq_countP hnodup fun b => ?_
  constructor
  · intro hb
    obtain ⟨x, hx, rfl⟩ := List.mem_map.mp hb
    obtain ⟨d, hd, hepoch, hdevice, -⟩ := hagrees.revocation x hx
    exact ⟨d, hd, hepoch, hdevice.symm⟩
  · rintro ⟨d, hd, hepoch, rfl⟩
    obtain ⟨x, hx, hdevice, -⟩ := hagrees.revoked d hd hepoch
    exact List.mem_map.mpr ⟨x, hx, hdevice⟩

end Rows

/-! ### Rosters at their limits -/

section Limits

variable {crypto : Crypto} {key : Bytes} {r : WorkspaceRoster}

theorem validateWorkspaceRoster_tooManyActive
    (h : RosterValid crypto key { r with
      activeCertificates := [], revocations := [], certificateTransitions := [] })
    (hcount : maxActiveCertificates < r.activeCertificates.length) :
    validateWorkspaceRoster crypto r key = .error .tooManyActive := by
  have hvalid := validateWorkspaceRoster_iff.mpr h
  simp only [validateWorkspaceRoster, bind_eq_ok, exists_unit, reject_eq_ok] at hvalid
  obtain ⟨hunknown, hhead, hdigest, -⟩ := hvalid
  simp only [validateWorkspaceRoster, reject_neg hunknown, reject_neg hhead, reject_neg hdigest,
    reject_pos hcount, gt_iff_lt, ok_bind, error_bind]

theorem validateWorkspaceRoster_tooManyRevocations
    (h : RosterValid crypto key { r with revocations := [] })
    (hcount : maxRevocations < r.revocations.length) :
    validateWorkspaceRoster crypto r key = .error .tooManyRevocations := by
  have hvalid := validateWorkspaceRoster_iff.mpr h
  simp only [validateWorkspaceRoster, bind_eq_ok, exists_unit, reject_eq_ok] at hvalid
  obtain ⟨hunknown, hhead, hdigest, hactive, hcertificates, htransitions, hascending, -⟩ := hvalid
  -- the loops before the revocations do not read them
  have hcertificates' : validateAscending (·.body.deviceId) (validateActiveCertificate crypto r key)
      .activeOrder (fun _ => return ()) none r.activeCertificates = .ok () := hcertificates
  have hascending' : validateAscending (·.deviceId) (validateCertificateTransition r)
      .certificateTransitionOrder (fun transition =>
        reject (¬ replacementActive r transition) .certificateTransitionReplacement) none
      r.certificateTransitions = .ok () := hascending
  simp only [validateWorkspaceRoster, reject_neg hunknown, reject_neg hhead, reject_neg hdigest,
    reject_neg hactive, reject_neg htransitions, hcertificates', hascending', ok_bind]
  rw [reject_pos hcount, error_bind]

end Limits

/-! ### Proposals -/

/-- No identifier is zero.  Identifiers are drawn at random and not compared with zero. -/
structure Workspace.Named (w : Workspace) : Prop where
  id : allZero w.id.bytes = false
  devices : ∀ d ∈ w.devices.rows, allZero d.id.bytes = false

/-- The key is that of the authority of the workspace. -/
structure Workspace.Authority (crypto : Crypto) (w : Workspace) (privateKey : Bytes) : Prop where
  pair : KeyPair crypto privateKey
  current : publicKey privateKey = w.authorityPublicKey.bytes

section Proposals

variable {crypto : Crypto} {initial : Block 32} {w : Workspace} {d : Device}
  {draft : WorkspaceRosterDraft} {privateKey : Bytes} {others : List SignedDeviceCertificate}

theorem Workspace.Healthy.active_valid (h : w.Healthy crypto initial) (hd : Drafts crypto w draft)
    {c : SignedDeviceCertificate} (hc : c ∈ draft.activeCertificates) :
    validateSignedDeviceCertificate crypto c w.authorityPublicKey.bytes = .ok () ∧
      c.body.workspaceId = w.id.bytes ∧ c.body.membershipEpoch.toNat ≤ draft.epoch := by
  obtain ⟨x, -, -, hcertified, hepoch, -⟩ := h.holder hd hc
  exact ⟨hcertified.valid, hcertified.workspace, Nat.le_of_lt hepoch⟩

/-- What is not accepted is not signed. -/
theorem signWorkspaceRoster_invalid {roster : WorkspaceRoster} {e : CodecError}
    (hkey : KeyPair crypto privateKey)
    (h : validateWorkspaceRoster crypto roster (publicKey privateKey) = .error e) :
    signWorkspaceRoster crypto roster privateKey = .error e := by
  simp only [signWorkspaceRoster, h, reject, hkey.size, ne_eq, not_true_eq_false, if_false, ok_bind,
    error_bind]

/-- Active certificates of the draft, with any revocations of others. -/
theorem Workspace.Healthy.proposes_revocations (h : w.Healthy crypto initial)
    (hd : Drafts crypto w draft) (hothers : others.Sublist draft.activeCertificates)
    {revocations : List RevokedCertificate} (hcount : revocations.length ≤ maxRevocations)
    (hvalid : ∀ x ∈ revocations, validateRevocation x = .ok ())
    (horder : (revocations.map (·.certificateId)).Pairwise (· < ·))
    (hdisjoint : ∀ x ∈ revocations, ∀ c ∈ others, c.certificateId ≠ x.certificateId) :
    Proposed crypto w draft w.authorityPublicKey.bytes others revocations [] := by
  constructor
  case active_count => exact Nat.le_trans hothers.length_le hd.listed.active_count
  case active_valid => exact fun c hc => h.active_valid hd (hothers.subset hc)
  case active_order => exact (hd.agrees h.chained h.agreed).2.sublist (hothers.map _)
  case transitions_count => exact Nat.zero_le _
  case transitions_first => exact fun _ => rfl
  case transitions_valid => simp
  case revocations_count => exact hcount
  case revocations_valid => exact hvalid
  case revocations_order => exact horder
  case disjoint => exact hdisjoint

/-- Active certificates of the draft, with one that the next roster brings. -/
theorem Workspace.Healthy.proposes_certificate (h : w.Healthy crypto initial)
    (ideal : crypto.Ideal) (hd : Drafts crypto w draft)
    (hothers : others.Sublist draft.activeCertificates) {c : SignedDeviceCertificate}
    (hc : validateSignedDeviceCertificate crypto c w.authorityPublicKey.bytes = .ok ())
    (hworkspace : c.body.workspaceId = w.id.bytes)
    (hepoch : c.body.membershipEpoch = UInt64.ofNat draft.epoch)
    (hfresh : c.body.deviceId ∉ others.map (·.body.deviceId))
    (hcount : others.length < maxActiveCertificates)
    {transitions : List DeviceCertificateTransition} (hone : transitions.length ≤ 1)
    (hfirst : draft.epoch = 1 → transitions = [])
    (htransitions : ∀ t ∈ transitions,
      validateCertificateTransition
          (rosterOf w draft (sortCertificates (others ++ [c])) draft.revocations transitions) t =
        .ok () ∧
      replacementActive
          (rosterOf w draft (sortCertificates (others ++ [c])) draft.revocations transitions) t =
        true) :
    Proposed crypto w draft w.authorityPublicKey.bytes (sortCertificates (others ++ [c]))
      draft.revocations transitions := by
  have hlisted := hd.listed
  obtain ⟨-, hordered⟩ := hd.agrees h.chained h.agreed
  have hmem : ∀ x ∈ sortCertificates (others ++ [c]), x ∈ draft.activeCertificates ∨ x = c := by
    intro x hx
    rw [sortCertificates, List.mem_insertionSort, List.mem_append, List.mem_singleton] at hx
    exact hx.imp_left fun hx => hothers.subset hx
  constructor
  case active_count =>
    rw [sortCertificates, List.length_insertionSort, List.length_append, List.length_singleton]
    exact hcount
  case active_valid =>
    intro x hx
    rcases hmem x hx with hx | rfl
    · exact h.active_valid hd hx
    · exact ⟨hc, hworkspace, by rw [hepoch, hd.epoch_toNat]⟩
  case active_order =>
    exact insertionSort_concat_ascends ((nodup_of_ascends hordered).sublist (hothers.map _)) hfresh
  case transitions_count => exact hone
  case transitions_first => exact hfirst
  case transitions_valid => exact htransitions
  case revocations_count => exact hlisted.revocations_count
  case revocations_valid => exact hlisted.revocations
  case revocations_order => exact hlisted.revocations_order
  case disjoint =>
    intro x hx y hy
    rcases hmem y hy with hy | rfl
    · exact hlisted.disjoint x hx y hy
    · exact h.unrevoked ideal hd hc hepoch x hx

/-- Signing, encoding, and inserting what is proposed. -/
theorem Proposed.publishes (h : w.Healthy crypto initial) (ideal : crypto.Ideal)
    (hid : allZero w.id.bytes = false) (hd : Drafts crypto w draft)
    (hkey : KeyPair crypto privateKey) {active : List SignedDeviceCertificate}
    {revocations : List RevokedCertificate} {transitions : List DeviceCertificateTransition}
    (hp : Proposed crypto w draft (publicKey privateKey) active revocations transitions) (now : Time)
    {v : Workspace} (hv : v.rosters = w.rosters) :
    ∃ roster encoded v',
      signWorkspaceRoster crypto (rosterOf w draft active revocations transitions) privateKey =
        .ok roster ∧
      encodeSignedWorkspaceRoster crypto roster (publicKey privateKey) = .ok encoded ∧
      insertWorkspaceRoster v draft.epoch draft.previousDigest roster encoded now = .ok v' :=
  h.publishes ideal hd hkey (hp.valid h ideal hid hd) rfl now hv

end Proposals

/-! ### Approval -/

section Approval

variable {crypto : Crypto} {initial : Block 32} {w : Workspace} {d : Device}
  {draft : WorkspaceRosterDraft} {input : ApprovePendingDevice}

theorem joiningCertificate_valid (h : w.Healthy crypto initial) (ideal : crypto.Ideal)
    (hnamed : w.Named) (hd : Drafts crypto w draft) (hmem : d ∈ w.devices.rows)
    (hroles : input.roles ≠ [] ∧ rolesSorted deviceRoleUnspecified input.roles = true)
    (hnow : 0 < unixMillis input.now) :
    CertificateValid crypto (joiningCertificate crypto w d input draft.epoch) := by
  have hrow := h.sound d hmem
  constructor
  case unknown => rfl
  case version => rfl
  case workspace => exact ⟨w.id.size, hnamed.id⟩
  case device => exact ⟨d.id.size, hnamed.devices d hmem⟩
  case keyID => exact ⟨(crypto.sha256 _).size, ideal.nonzero _⟩
  case type =>
    cases hkind : d.deviceType with
    | android => exact Or.inl (by simp [joiningCertificate, membershipDeviceType, hkind])
    | chrome => exact Or.inr (by simp [joiningCertificate, membershipDeviceType, hkind])
  case name => exact validateDeviceName_iff.mp hrow.name
  case roles => exact hroles
  case identity_size => exact d.e2eePublicKey.size
  case identity => exact hrow.identity
  case identity_hash => rfl
  case issued => exact unixMillisUnsigned_bounds hnow
  case expires => exact ⟨UInt64.le_of_lt (by decide : (0 : UInt64) < maxEpoch), Or.inl rfl⟩
  case epoch => exact h.epoch_bounds hd

/-- The roster with the certificate of a device that joins. -/
theorem Workspace.Healthy.proposes_joining (h : w.Healthy crypto initial) (ideal : crypto.Ideal)
    (hd : Drafts crypto w draft) (hmem : d ∈ w.devices.rows) (hidle : ¬ d.Member)
    {c : SignedDeviceCertificate}
    (hvalid : validateSignedDeviceCertificate crypto c w.authorityPublicKey.bytes = .ok ())
    (hbody : c.body = joiningCertificate crypto w d input draft.epoch)
    (hcount : draft.activeCertificates.length < maxActiveCertificates) :
    Proposed crypto w draft w.authorityPublicKey.bytes
      (sortCertificates (draft.activeCertificates ++ [c])) draft.revocations [] := by
  obtain ⟨hagrees, -⟩ := hd.agrees h.chained h.agreed
  refine h.proposes_certificate ideal hd (List.Sublist.refl _) hvalid ?_ ?_ ?_ hcount
    (Nat.zero_le _) (fun _ => rfl) (by simp)
  · rw [hbody]
    rfl
  · rw [hbody]
    rfl
  · rw [hbody]
    exact hagrees.not_active hmem hidle

/-- A roster that is full takes no further certificate. -/
theorem Workspace.Healthy.refuses_joining (h : w.Healthy crypto initial) (ideal : crypto.Ideal)
    (hnamed : w.Named) (hkey : w.Authority crypto input.authorityPrivateKey)
    (hd : Drafts crypto w draft) (hfull : draft.activeCertificates.length = maxActiveCertificates)
    (c : SignedDeviceCertificate) :
    signWorkspaceRoster crypto (rosterOf w draft
      (sortCertificates (draft.activeCertificates ++ [c])) draft.revocations [])
      input.authorityPrivateKey = .error .tooManyActive := by
  have hempty : Proposed crypto w draft w.authorityPublicKey.bytes [] [] [] :=
    h.proposes_revocations hd (List.nil_sublist _) (Nat.zero_le _) (by simp) .nil (by simp)
  refine signWorkspaceRoster_invalid hkey.pair ?_
  rw [hkey.current]
  refine validateWorkspaceRoster_tooManyActive (hempty.valid h ideal hnamed.id hd) ?_
  simp only [rosterOf, sortCertificates, List.length_insertionSort, List.length_append,
    List.length_singleton, hfull]
  exact Nat.lt_succ_self _

variable (input) in
/-- Approving a device that waits for it succeeds, unless 256 devices are active. -/
theorem approveDevice_succeeds (h : w.Healthy crypto initial) (ideal : crypto.Ideal)
    (hnamed : w.Named) (hkey : w.Authority crypto input.authorityPrivateKey)
    (hmem : d ∈ w.devices.rows) (hstate : d.membershipState = .pendingApproval)
    (hroles : input.roles ≠ [] ∧ rolesSorted deviceRoleUnspecified input.roles = true)
    (hnow : 0 < unixMillis input.now) :
    (∃ result, approveDevice crypto w d.id input = .ok result) ∨
      w.activeDevices = maxActiveCertificates ∧
        approveDevice crypto w d.id input = .error (.codec .tooManyActive) := by
  obtain ⟨draft, hdraft, hd⟩ := h.drafts
  obtain ⟨hagrees, hordered⟩ := hd.agrees h.chained h.agreed
  have hrevoked : d.revokedAtMs = none := by
    have hrow := (h.sound d hmem).revoked
    simpa [hstate] using hrow
  have hidle : ¬ d.Member := by
    intro hmember
    have happroved := hmember.1
    rw [hstate] at happroved
    cases happroved
  have hfind : w.devices.find d.id = some d := Table.find_eq_some.mpr ⟨hmem, rfl⟩
  obtain ⟨c, text, hsign, hbody, hencode⟩ :=
    signDeviceCertificate_succeeds hkey.pair (joiningCertificate_valid h ideal hnamed hd hmem hroles hnow)
  rw [hkey.current] at hencode
  have hvalid := (encodeSignedDeviceCertificate_iff.mp hencode).1
  have hbody' : c.body = joiningCertificate crypto w d input draft.epoch := by
    rw [SignedDeviceCertificate.body, hbody, Option.getD_some]
  obtain ⟨block, hblock⟩ := Block.check_of_size (signedCertificate_body hvalid).2.2
  have hlength := hagrees.active_length hordered
  by_cases hcount : draft.activeCertificates.length < maxActiveCertificates
  · left
    have hp := h.proposes_joining ideal hd hmem hidle hvalid hbody' hcount
    rw [← hkey.current] at hp
    obtain ⟨roster, encoded, w', hroster, hrosterText, hinsert⟩ :=
      hp.publishes h ideal hnamed.id hd hkey.pair input.now (v := { w with
        devices := w.devices.update
          (fun x => x.id = d.id ∧ x.membershipState = .pendingApproval ∧ x.revokedAtMs = none)
          (fun x => { x with
            membershipState := .approved, certificateID := some block
            signedCertificate := some text, approvedAtMs := some (unixMillis input.now)
            proofChallengeDigest := none, proofExpiresAtMs := none }) (fun _ _ => rfl) }) rfl
    rw [hkey.current] at hrosterText
    refine ⟨(w', ⟨input.deviceReference, c.certificateId, draft.epoch, roster.rosterDigest⟩), ?_⟩
    simp only [approveDevice, bind_eq_ok, exists_unit, reject_eq_ok, require_eq_ok, rethrow_eq_ok,
      pure_eq_ok]
    refine ⟨by simp [hkey.current], d, hfind, by simp [hrevoked, hstate], draft, hdraft, c, hsign,
      roster, hroster, text, hencode, encoded, hrosterText, block, hblock, ?_, w', hinsert, rfl⟩
    simp only [ne_eq, not_not]
    refine Table.affected_eq_one hmem (by simp [hstate, hrevoked]) fun x hx => ?_
    exact (of_decide_eq_true hx).1
  · right
    have hfull : draft.activeCertificates.length = maxActiveCertificates :=
      Nat.le_antisymm hd.listed.active_count (Nat.not_lt.mp hcount)
    refine ⟨hlength.symm.trans hfull, ?_⟩
    have hroster := h.refuses_joining ideal hnamed hkey hd hfull c
    simp only [approveDevice, hkey.current, hfind, hdraft, hsign, hroster, hrevoked, hstate, reject,
      require, rethrow, ne_eq, not_true_eq_false, if_false, ok_bind, error_bind, Option.isSome_none,
      Bool.false_eq_true, or_self]

end Approval

/-! ### Members -/

section Members

variable {crypto : Crypto} {initial : Block 32} {w : Workspace} {d : Device}
  {draft : WorkspaceRosterDraft} {c : SignedDeviceCertificate}

/-- An approved device is a member, and the draft lists its certificate. -/
theorem Workspace.Healthy.member (h : w.Healthy crypto initial) (hd : Drafts crypto w draft)
    (hmem : d ∈ w.devices.rows) (hstate : d.membershipState = .approved) :
    d.Member ∧ ∃ c ∈ draft.activeCertificates, Certified crypto w.id w.authorityPublicKey d c ∧
      c.body.membershipEpoch.toNat < draft.epoch ∧ c.body.expiresAtUnixMs = 0 := by
  have hmember : d.Member := by
    have hrow := (h.sound d hmem).revoked
    exact ⟨hstate, by simpa [hstate] using hrow⟩
  obtain ⟨hagrees, -⟩ := hd.agrees h.chained h.agreed
  obtain ⟨c, hc, hcertified⟩ := hagrees.member d hmem hmember
  obtain ⟨x, hx, -, hcertified', hbody⟩ := h.holder hd hc
  exact ⟨hmember, c, hc, hcertified, hbody⟩

/-- A draft that lists a certificate is not the first one. -/
theorem Workspace.Healthy.epoch_ne_one (h : w.Healthy crypto initial) (hd : Drafts crypto w draft)
    (hc : c ∈ draft.activeCertificates) : draft.epoch ≠ 1 := by
  obtain ⟨x, -, -, hcertified, hepoch, -⟩ := h.holder hd hc
  have hnonzero := (signedCertificate_body hcertified.valid).2.1.epoch.1
  intro hone
  refine hnonzero (UInt64.toNat_inj.mp ?_)
  rw [UInt64.toNat_zero]
  omega

theorem mem_withoutDevice {active : List SignedDeviceCertificate} {x : SignedDeviceCertificate} :
    x ∈ (active.filter fun c => !decide (c.body.deviceId = d.id.bytes)) ↔
      x ∈ active ∧ x.body.deviceId ≠ d.id.bytes := by
  simp only [List.mem_filter, Bool.not_eq_true', decide_eq_false_iff_not, ne_eq]

theorem length_withoutDevice_lt {active : List SignedDeviceCertificate} (hc : c ∈ active)
    (hdevice : c.body.deviceId = d.id.bytes) :
    (active.filter fun c => !decide (c.body.deviceId = d.id.bytes)).length < active.length :=
  List.length_filter_lt_length_iff_exists.mpr ⟨c, hc, by simp [hdevice]⟩

end Members

/-! ### Renaming -/

/-- Among items with distinct keys, the first one with a key is the one. -/
theorem find?_of_nodup {α : Type} {key : α → Bytes} {items : List α} {x : α}
    (hnodup : (items.map key).Nodup) (hx : x ∈ items) :
    items.find? (fun y => key y == key x) = some x := by
  induction items with
  | nil => cases hx
  | cons y rest ih =>
    rw [List.map_cons, List.nodup_cons] at hnodup
    rcases List.mem_cons.mp hx with rfl | hx
    · simp
    · have hne : (key y == key x) = false := by
        simp only [beq_eq_false_iff_ne, ne_eq]
        intro heq
        exact hnodup.1 (heq ▸ List.mem_map_of_mem hx)
      rw [List.find?_cons, hne]
      exact ih hnodup.2 hx

section Renaming

variable {crypto : Crypto} {initial : Block 32} {w : Workspace} {d : Device}
  {draft : WorkspaceRosterDraft} {input : RenameDeviceInput}
  {previous replacement : SignedDeviceCertificate}

theorem validateDisplayNameCertificateTransition_succeeds
    (hcertified : Certified crypto w.id w.authorityPublicKey d previous)
    (hbody : replacement.certificate = some (renamedCertificate previous.body input draft.epoch))
    (hne : d.deviceName ≠ input.displayName) :
    validateDisplayNameCertificateTransition previous replacement
      (renamingTransition w d.id previous replacement draft input.now) = .ok () := by
  simp only [validateDisplayNameCertificateTransition, bind_eq_ok, exists_unit, require_eq_ok,
    reject_eq_ok]
  refine ⟨_, (signedCertificate_body hcertified.valid).1, _, hbody, ?_, ?_⟩
  · simp [renamingTransition, renamedCertificate, hcertified.workspace, hcertified.device,
      hcertified.name, hne]
  · simp [renamedCertificate, DeviceCertificate.withoutName]

theorem renamingTransition_valid (ideal : crypto.Ideal)
    (hnamed : w.Named) (hmem : d ∈ w.devices.rows) (hd : Drafts crypto w draft) {key : Bytes}
    (hcertified : Certified crypto w.id w.authorityPublicKey d previous)
    (hepoch : previous.body.membershipEpoch.toNat < draft.epoch)
    (hvalid : validateSignedDeviceCertificate crypto replacement key = .ok ())
    (hnew : replacement.body.membershipEpoch = UInt64.ofNat draft.epoch)
    (hnow : 0 < unixMillis input.now) {active : List SignedDeviceCertificate}
    {revocations : List RevokedCertificate} {transitions : List DeviceCertificateTransition} :
    validateCertificateTransition (rosterOf w draft active revocations transitions)
      (renamingTransition w d.id previous replacement draft input.now) = .ok () := by
  have hids : previous.certificateId ≠ replacement.certificateId := by
    intro heq
    have hepochs := (ideal.certificateId_inj hcertified.valid hvalid heq).2
    rw [hepochs, hnew, hd.epoch_toNat] at hepoch
    exact Nat.lt_irrefl _ hepoch
  have hold := (signedCertificate_body hcertified.valid).2.2
  have hlength := (signedCertificate_body hvalid).2.2
  obtain ⟨hinstant, hmax⟩ := unixMillisUnsigned_bounds hnow
  simp only [validateCertificateTransition, reject_eq_ok, not_or, ne_eq, not_not, Bool.not_eq_true,
    gt_iff_lt, UInt64.not_lt]
  exact ⟨rfl, rfl, rfl, d.id.size, hnamed.devices d hmem, hold,
    certificateId_nonzero ideal hcertified.valid, hlength, certificateId_nonzero ideal hvalid, hids,
    rfl, rfl, rfl, hinstant, hmax⟩

/-- The roster lists the certificate with the new name in the place of the old one. -/
theorem Workspace.Healthy.proposes_renaming (h : w.Healthy crypto initial) (ideal : crypto.Ideal)
    (hnamed : w.Named) (hmem : d ∈ w.devices.rows) (hd : Drafts crypto w draft)
    (hprevious : previous ∈ draft.activeCertificates)
    (hcertified : Certified crypto w.id w.authorityPublicKey d previous)
    (hepoch : previous.body.membershipEpoch.toNat < draft.epoch)
    (hvalid : validateSignedDeviceCertificate crypto replacement w.authorityPublicKey.bytes = .ok ())
    (hbody : replacement.body = renamedCertificate previous.body input draft.epoch)
    (hnow : 0 < unixMillis input.now) :
    Proposed crypto w draft w.authorityPublicKey.bytes
      (sortCertificates ((draft.activeCertificates.filter
        fun c => !decide (c.body.deviceId = d.id.bytes)) ++ [replacement])) draft.revocations
      [renamingTransition w d.id previous replacement draft input.now] := by
  obtain ⟨-, hordered⟩ := hd.agrees h.chained h.agreed
  have hdevice : replacement.body.deviceId = d.id.bytes := by
    rw [hbody]
    exact hcertified.device
  have hfresh : replacement.body.deviceId ∉ (draft.activeCertificates.filter
      fun c => !decide (c.body.deviceId = d.id.bytes)).map (·.body.deviceId) := by
    intro hin
    obtain ⟨x, hx, heq⟩ := List.mem_map.mp hin
    exact (mem_withoutDevice.mp hx).2 (heq.trans hdevice)
  refine h.proposes_certificate ideal hd List.filter_sublist hvalid ?_ ?_ hfresh ?_ (Nat.le_refl 1)
    (fun hone => absurd hone (h.epoch_ne_one hd hprevious)) ?_
  · rw [hbody]
    exact hcertified.workspace
  · rw [hbody]
    rfl
  · exact Nat.lt_of_lt_of_le (length_withoutDevice_lt hprevious hcertified.device)
      hd.listed.active_count
  · intro t ht
    rw [List.mem_singleton.mp ht]
    refine ⟨renamingTransition_valid ideal hnamed hmem hd hcertified hepoch hvalid
      (by rw [hbody]; rfl) hnow, ?_⟩
    have hfound := find?_of_nodup (x := replacement)
      (nodup_of_ascends (insertionSort_concat_ascends
        ((nodup_of_ascends hordered).sublist (List.filter_sublist.map _)) hfresh))
      (by simp [List.mem_insertionSort])
    rw [hdevice] at hfound
    simp only [replacementActive, WorkspaceRoster.activeCertificate, rosterOf, renamingTransition,
      sortCertificates, hfound, decide_eq_true_eq]

variable (input) in
/-- Renaming an approved device to another valid name succeeds. -/
theorem renameDeviceTo_succeeds (h : w.Healthy crypto initial) (ideal : crypto.Ideal)
    (hnamed : w.Named) (hkey : w.Authority crypto input.authorityPrivateKey)
    (hmem : d ∈ w.devices.rows) (hstate : d.membershipState = .approved)
    (hname : validateDeviceName input.displayName = .ok ()) (hne : d.deviceName ≠ input.displayName)
    (hnow : 0 < unixMillis input.now) :
    ∃ result, renameDeviceTo crypto w d.id input = .ok result := by
  obtain ⟨draft, hdraft, hd⟩ := h.drafts
  obtain ⟨hagrees, -⟩ := hd.agrees h.chained h.agreed
  obtain ⟨hmember, previous, hprevious, hcertified, hepoch, hexpires⟩ := h.member hd hmem hstate
  have hfind : w.devices.find d.id = some d := Table.find_eq_some.mpr ⟨hmem, rfl⟩
  obtain ⟨-, hold, -⟩ := signedCertificate_body hcertified.valid
  obtain ⟨c, text, hsign, hbody, hencode⟩ := signDeviceCertificate_succeeds hkey.pair
    (certificate_renewed hold hexpires hname (unixMillisUnsigned_bounds hnow) (h.epoch_bounds hd))
  rw [hkey.current] at hencode
  have hvalid := (encodeSignedDeviceCertificate_iff.mp hencode).1
  have hbody' : c.body = renamedCertificate previous.body input draft.epoch := by
    rw [SignedDeviceCertificate.body, hbody, Option.getD_some]
    rfl
  obtain ⟨block, hblock⟩ := Block.check_of_size (signedCertificate_body hvalid).2.2
  have hwithout := withoutDevice_succeeds hagrees hmem hmember
  have hp := h.proposes_renaming ideal hnamed hmem hd hprevious hcertified hepoch hvalid hbody' hnow
  rw [← hkey.current] at hp
  obtain ⟨roster, encoded, w', hroster, hrosterText, hinsert⟩ :=
    hp.publishes h ideal hnamed.id hd hkey.pair input.now (v := { w with
      devices := w.devices.update
        (fun x => x.id = d.id ∧ x.membershipState = .approved ∧ x.revokedAtMs = none ∧
          x.certificateID.map (·.bytes) = some previous.certificateId)
        (fun x => { x with
          deviceName := input.displayName, certificateID := some block
          signedCertificate := some text }) (fun _ _ => rfl) }) rfl
  rw [hkey.current] at hrosterText
  refine ⟨(w', ⟨input.deviceReference, c.certificateId, draft.epoch, roster.rosterDigest⟩), ?_⟩
  simp only [renameDeviceTo, bind_eq_ok, exists_unit, reject_eq_ok, require_eq_ok, rethrow_eq_ok,
    pure_eq_ok]
  refine ⟨d, hfind, by simp [hmember.1, hmember.2, hne], by simp [hkey.pair.size, hkey.current],
    previous, hcertified.storedCertificate, by simp [hcertified.name], draft, hdraft,
    h.epoch_ne_one hd hprevious, _, hwithout, c, hsign,
    validateDisplayNameCertificateTransition_succeeds hcertified hbody hne, roster, hroster, text,
    hencode, encoded, hrosterText, block, hblock, ?_, w', hinsert, rfl⟩
  simp only [ne_eq, not_not]
  refine Table.affected_eq_one hmem ?_ fun x hx => ?_
  · simp [hmember.1, hmember.2, hcertified.certificateID]
  · exact (of_decide_eq_true hx).1

end Renaming

/-! ### Revocation -/

section Revocation

variable {crypto : Crypto} {initial : Block 32} {w : Workspace} {d : Device}
  {draft : WorkspaceRosterDraft} {c : SignedDeviceCertificate} {input : RevokeDeviceInput}

theorem revocationOf_certificateId (h : Certified crypto w.id w.authorityPublicKey d c) (now : Time) :
    (revocationOf d now).certificateId = c.certificateId := by
  rw [revocationOf, h.certificateID, Option.getD_some]

theorem validateRevocation_succeeds (ideal : crypto.Ideal) {now : Time}
    (h : Certified crypto w.id w.authorityPublicKey d c) (hnow : 0 < unixMillis now) :
    validateRevocation (revocationOf d now) = .ok () := by
  obtain ⟨-, hbody, hlength⟩ := signedCertificate_body h.valid
  obtain ⟨hinstant, hmax⟩ := unixMillisUnsigned_bounds hnow
  have hid := certificateId_nonzero ideal h.valid
  rw [← revocationOf_certificateId h now] at hid hlength
  have hdevice := hbody.device
  rw [h.device] at hdevice
  simp only [validateRevocation, reject_eq_ok, not_or, ne_eq, not_not, Bool.not_eq_true,
    gt_iff_lt, UInt64.not_lt]
  exact ⟨rfl, hlength, hid, hdevice.1, hdevice.2, hinstant, hmax⟩

/-- The roster without a member, with its revocation. -/
theorem Workspace.Healthy.proposes_revocation (h : w.Healthy crypto initial) (ideal : crypto.Ideal)
    (hd : Drafts crypto w draft) (hc : c ∈ draft.activeCertificates)
    (hcertified : Certified crypto w.id w.authorityPublicKey d c)
    (hcount : draft.revocations.length < maxRevocations) {now : Time} (hnow : 0 < unixMillis now) :
    Proposed crypto w draft w.authorityPublicKey.bytes
      (draft.activeCertificates.filter fun c => !decide (c.body.deviceId = d.id.bytes))
      (sortRevocations (draft.revocations ++ [revocationOf d now])) [] := by
  have hlisted := hd.listed
  have hmem : ∀ x ∈ sortRevocations (draft.revocations ++ [revocationOf d now]),
      x ∈ draft.revocations ∨ x = revocationOf d now := by
    intro x hx
    rwa [sortRevocations, List.mem_insertionSort, List.mem_append, List.mem_singleton] at hx
  refine h.proposes_revocations hd List.filter_sublist ?_ ?_ ?_ ?_
  · rw [sortRevocations, List.length_insertionSort, List.length_append, List.length_singleton]
    exact hcount
  · intro x hx
    rcases hmem x hx with hx | rfl
    · exact hlisted.revocations x hx
    · exact validateRevocation_succeeds ideal hcertified hnow
  · refine insertionSort_concat_ascends (nodup_of_ascends hlisted.revocations_order) fun hin => ?_
    obtain ⟨x, hx, heq⟩ := List.mem_map.mp hin
    rw [revocationOf_certificateId hcertified] at heq
    exact hlisted.disjoint x hx c hc heq.symm
  · intro x hx y hy heq
    obtain ⟨hy, hdevice⟩ := mem_withoutDevice.mp hy
    rcases hmem x hx with hx | rfl
    · exact hlisted.disjoint x hx y hy heq
    · -- certificates of different devices have different identifiers
      rw [revocationOf_certificateId hcertified] at heq
      have hdevices :=
        (ideal.certificateId_inj (h.active_valid hd hy).1 hcertified.valid heq).1
      exact hdevice (hdevices.trans hcertified.device)

/-- A roster that lists 4096 revocations takes no further one. -/
theorem Workspace.Healthy.refuses_revocation (h : w.Healthy crypto initial) (ideal : crypto.Ideal)
    (hnamed : w.Named) (hkey : w.Authority crypto input.authorityPrivateKey)
    (hd : Drafts crypto w draft) (hfull : draft.revocations.length = maxRevocations) :
    signWorkspaceRoster crypto (rosterOf w draft
      (draft.activeCertificates.filter fun c => !decide (c.body.deviceId = d.id.bytes))
      (sortRevocations (draft.revocations ++ [revocationOf d input.now])) [])
      input.authorityPrivateKey = .error .tooManyRevocations := by
  have hothers : Proposed crypto w draft w.authorityPublicKey.bytes
      (draft.activeCertificates.filter fun c => !decide (c.body.deviceId = d.id.bytes)) [] [] :=
    h.proposes_revocations hd List.filter_sublist (Nat.zero_le _) (by simp) .nil (by simp)
  refine signWorkspaceRoster_invalid hkey.pair ?_
  rw [hkey.current]
  refine validateWorkspaceRoster_tooManyRevocations (hothers.valid h ideal hnamed.id hd) ?_
  simp only [rosterOf, sortRevocations, List.length_insertionSort, List.length_append,
    List.length_singleton, hfull]
  exact Nat.lt_succ_self _

variable (input) in
/-- Revoking an approved device succeeds, unless 4096 devices were revoked by rosters. -/
theorem revokeApproved_succeeds (h : w.Healthy crypto initial) (ideal : crypto.Ideal)
    (hnamed : w.Named) (hkey : w.Authority crypto input.authorityPrivateKey)
    (hmem : d ∈ w.devices.rows) (hstate : d.membershipState = .approved)
    (hnow : 0 < unixMillis input.now) :
    (w.revokedDevices < maxRevocations → ∃ result, revokeApproved crypto w d input = .ok result) ∧
      (w.revokedDevices = maxRevocations →
        revokeApproved crypto w d input = .error (.codec .tooManyRevocations)) := by
  obtain ⟨draft, hdraft, hd⟩ := h.drafts
  obtain ⟨hagrees, -⟩ := hd.agrees h.chained h.agreed
  obtain ⟨hmember, c, hc, hcertified, -, -⟩ := h.member hd hmem hstate
  have hlength := hagrees.revocations_length hd.listed.revocations_order
  obtain ⟨text, hstored, hencode⟩ := hcertified.stored
  have hcolumn : d.certificateID.isNone = false := by
    have hsome := hcertified.isSome
    rw [← Option.not_isSome, hsome]
    rfl
  have htext : text.length ≠ 0 := (encode_eq_ok.mp (encodeSignedDeviceCertificate_iff.mp hencode).2).2.1
  have hwithout := withoutDevice_succeeds hagrees hmem hmember
  constructor
  · intro hcount
    have hp := h.proposes_revocation ideal hd hc hcertified (hlength ▸ hcount) hnow
    rw [← hkey.current] at hp
    obtain ⟨roster, encoded, w', hroster, hrosterText, hinsert⟩ :=
      hp.publishes h ideal hnamed.id hd hkey.pair input.now (v := { w with
        devices := w.devices.update
          (fun x => x.id = d.id ∧ x.membershipState = .approved ∧ x.revokedAtMs = none)
          (fun x => { x with
            revokedAtMs := some (unixMillis input.now), membershipState := .revoked
            revokedMembershipEpoch := some draft.epoch }) (fun _ _ => rfl) }) rfl
    rw [hkey.current] at hrosterText
    refine ⟨(w', draft.epoch, roster.rosterDigest), ?_⟩
    simp only [revokeApproved, bind_eq_ok, exists_unit, reject_eq_ok, rethrow_eq_ok,
      pure_eq_ok]
    refine ⟨by simp [hkey.pair.size, hcolumn, hstored, htext], by simp [hkey.current], draft, hdraft,
      h.epoch_ne_one hd hc, c, hcertified.storedCertificate, _, hwithout, roster, hroster, encoded,
      hrosterText, ?_, w', hinsert, rfl⟩
    simp only [ne_eq, not_not]
    refine Table.affected_eq_one hmem (by simp [hmember.1, hmember.2]) fun x hx => ?_
    exact (of_decide_eq_true hx).1
  · intro hfull
    have hroster := h.refuses_revocation (d := d) ideal hnamed hkey hd (hlength.trans hfull)
    simp only [revocationOf] at hroster
    simp only [revokeApproved, hkey.pair.size, hkey.current, hcolumn, hstored, htext, hdraft,
      h.epoch_ne_one hd hc, hcertified.storedCertificate, hwithout, hroster, reject,
      rethrow, ne_eq, not_true_eq_false, if_false, ok_bind, error_bind, Option.getD_some,
      Bool.false_eq_true, or_self]

end Revocation

end SevenMirror.Admission
