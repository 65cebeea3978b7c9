import SevenMirror.Admission.Publish

/-! What a committed call does.  Each call that changes a workspace takes one of a few actions, and
an action says which row of `devices` it replaces and what it publishes. -/

namespace SevenMirror.Admission

open Lib MembershipCodec

/-- What a committed call does to its workspace, and to which device. -/
inductive Action
  | register (device : DeviceID)
  | prove (device : DeviceID)
  | rotateCredential (device : DeviceID)
  | approve (device : DeviceID)
  | rename (device : DeviceID)
  | revoke (device : DeviceID)
  | rotateAuthority
deriving DecidableEq, Repr

/-- The row of a device that `approveDevice` writes. -/
def Device.approvedWith (d : Device) (id : Block 32) (encoded : Bytes) (now : Time) : Device :=
  { d with
    membershipState := .approved, certificateID := some id, signedCertificate := some encoded
    approvedAtMs := some (unixMillis now), proofChallengeDigest := none, proofExpiresAtMs := none }

/-- The row of a device that `renameDeviceTo` writes. -/
def Device.renamedWith (d : Device) (name : Bytes) (id : Block 32) (encoded : Bytes) : Device :=
  { d with deviceName := name, certificateID := some id, signedCertificate := some encoded }

/-- The row of an approved device that `revokeApproved` writes. -/
def Device.revokedWith (d : Device) (epoch : Nat) (now : Time) : Device :=
  { d with
    revokedAtMs := some (unixMillis now), membershipState := .revoked
    revokedMembershipEpoch := some epoch }

/-- The revocation of a device. -/
def revocationOf (d : Device) (now : Time) : RevokedCertificate where
  certificateId := (d.certificateID.map (·.bytes)).getD []
  deviceId := d.id.bytes
  revokedAtUnixMs := unixMillisUnsigned now

/-- The row that an authority rotation adds. -/
def transitionRow (w : Workspace) (digest newKey : Block 32) (epoch : Nat) (encoded : Bytes)
    (now : Time) : TransitionRow where
  epoch := w.authorityEpoch + 1
  digest := digest
  previousDigest := w.authorityTransitionDigest
  previousAuthorityPublicKey := w.authorityPublicKey
  newAuthorityPublicKey := newKey
  activationRosterEpoch := epoch
  signedTransition := encoded
  createdAtMs := unixMillis now

/-- The row that `registerPending` writes. -/
structure Device.Registered (crypto : Crypto) (d : Device) : Prop where
  state : d.membershipState = .pendingProof
  revokedAt : d.revokedAtMs = none
  version : d.credentialVersion = 1
  epoch : d.revokedMembershipEpoch = none
  certificateID : d.certificateID = none
  signedCertificate : d.signedCertificate = none
  name : validateDeviceName d.deviceName = .ok ()
  identity : crypto.onCurve d.e2eePublicKey.bytes = true

/-- An approval: the certificate that it issues, and what it starts from. -/
structure Approval where
  input : ApprovePendingDevice
  device : Device
  draft : WorkspaceRosterDraft
  certificate : SignedDeviceCertificate
  id : Block 32
  encoded : Bytes

structure Renaming where
  input : RenameDeviceInput
  device : Device
  draft : WorkspaceRosterDraft
  previous : SignedDeviceCertificate
  replacement : SignedDeviceCertificate
  others : List SignedDeviceCertificate
  id : Block 32
  encoded : Bytes

/-- A revocation of an approved device. -/
structure Revocation where
  input : RevokeDeviceInput
  device : Device
  draft : WorkspaceRosterDraft
  stored : SignedDeviceCertificate
  others : List SignedDeviceCertificate

structure AuthorityRotation where
  input : RotateWorkspaceAuthorityInput
  previous : SignedWorkspaceRoster
  transition : SignedAuthorityKeyTransition
  active : List SignedDeviceCertificate
  newKey : Block 32
  digest : Block 32
  encoded : Bytes

section Takes

variable (crypto : Crypto) (w : Workspace) (devices : Table Device.id)
  (rosters : Table RosterRow.epoch)

structure Approval.Takes (a : Approval) : Prop where
  state : a.device.membershipState = .pendingApproval
  unrevoked : a.device.revokedAtMs = none
  draft : Drafts crypto w a.draft
  body : a.certificate.certificate =
    some (joiningCertificate crypto w a.device a.input a.draft.epoch)
  encode : encodeSignedDeviceCertificate crypto a.certificate w.authorityPublicKey.bytes =
    .ok a.encoded
  id : a.id.bytes = a.certificate.certificateId
  replaces : w.devices.Replaces devices a.device (a.device.approvedWith a.id a.encoded a.input.now)
  published : Published crypto w { w with devices, rosters } (rosterOf w a.draft
    (sortCertificates (a.draft.activeCertificates ++ [a.certificate])) a.draft.revocations [])

structure Renaming.Takes (r : Renaming) : Prop where
  name : validateDeviceName r.input.displayName = .ok ()
  member : r.device.membershipState = .approved ∧ r.device.revokedAtMs = none
  other : r.device.deviceName ≠ r.input.displayName
  stored : storedCertificate crypto w r.device = .ok r.previous
  draft : Drafts crypto w r.draft
  others : withoutDevice crypto w r.device r.draft.activeCertificates = .ok r.others
  body : r.replacement.certificate =
    some (renamedCertificate r.previous.body r.input r.draft.epoch)
  encode : encodeSignedDeviceCertificate crypto r.replacement w.authorityPublicKey.bytes =
    .ok r.encoded
  id : r.id.bytes = r.replacement.certificateId
  replaces : w.devices.Replaces devices r.device
    (r.device.renamedWith r.input.displayName r.id r.encoded)
  published : Published crypto w { w with devices, rosters } (rosterOf w r.draft
    (sortCertificates (r.others ++ [r.replacement])) r.draft.revocations
    [renamingTransition w r.device.id r.previous r.replacement r.draft r.input.now])

structure Revocation.Takes (r : Revocation) : Prop where
  member : r.device.membershipState = .approved ∧ r.device.revokedAtMs = none
  certificateID : r.device.certificateID.isSome
  stored : storedCertificate crypto w r.device = .ok r.stored
  draft : Drafts crypto w r.draft
  others : withoutDevice crypto w r.device r.draft.activeCertificates = .ok r.others
  replaces : w.devices.Replaces devices r.device (r.device.revokedWith r.draft.epoch r.input.now)
  published : Published crypto w { w with devices, rosters } (rosterOf w r.draft r.others
    (sortRevocations (r.draft.revocations ++ [revocationOf r.device r.input.now])) [])

structure AuthorityRotation.Takes (transitions : Table TransitionRow.epoch)
    (a : AuthorityRotation) : Prop where
  draft : Drafts crypto w (nextDraft a.previous)
  newKey : a.newKey.bytes = publicKey a.input.newAuthorityPrivateKey
  reissue : reissueCertificates crypto a.input (nextDraft a.previous).epoch
    a.previous.body.activeCertificates w.devices = .ok (devices, a.active)
  body : a.transition.transition = some (rotationTransition w a.previous a.input)
  encode : encodeSignedAuthorityKeyTransition crypto a.transition = .ok a.encoded
  digest : a.digest.bytes = a.transition.transitionDigest
  rows : transitions.rows = w.transitions.rows ++
    [transitionRow w a.digest a.newKey (nextDraft a.previous).epoch a.encoded a.input.now]
  published : Published crypto w
    { w with
      devices, rosters, transitions, authorityPublicKey := a.newKey
      authorityEpoch := w.authorityEpoch + 1, authorityTransitionDigest := a.digest }
    (rosterOf w (nextDraft a.previous) a.active a.previous.body.revocations [])

end Takes

inductive WorkspaceStep (crypto : Crypto) (w : Workspace) : Action → Workspace → Prop
  | register (d : Device) (devices : Table Device.id) : d.Registered crypto →
      (∀ x ∈ w.devices.rows, x.id ≠ d.id) → devices.rows = w.devices.rows ++ [d] →
      WorkspaceStep crypto w (.register d.id) { w with devices }
  | prove (d : Device) (now : Time) (devices : Table Device.id) :
      d.membershipState = .pendingProof → d.revokedAtMs = none →
      w.devices.Replaces devices d { d with
        membershipState := .pendingApproval, proofCompletedAtMs := some (unixMillis now)
        proofSecretHash := none } →
      WorkspaceStep crypto w (.prove d.id) { w with devices }
  | rotateCredential (d : Device) (hash : Block 32) (devices : Table Device.id) :
      d.membershipState = .approved → d.revokedAtMs = none →
      w.devices.Replaces devices d { d with
        authTokenHash := hash, credentialVersion := d.credentialVersion + 1 } →
      WorkspaceStep crypto w (.rotateCredential d.id) { w with devices }
  | approve (a : Approval) (devices : Table Device.id) (rosters : Table RosterRow.epoch) :
      a.Takes crypto w devices rosters →
      WorkspaceStep crypto w (.approve a.device.id) { w with devices, rosters }
  | rename (r : Renaming) (devices : Table Device.id) (rosters : Table RosterRow.epoch) :
      r.Takes crypto w devices rosters →
      WorkspaceStep crypto w (.rename r.device.id) { w with devices, rosters }
  | revokePending (d : Device) (now : Time) (devices : Table Device.id) :
      d.membershipState ≠ .approved → d.revokedAtMs = none →
      w.devices.Replaces devices d { d with
        revokedAtMs := some (unixMillis now), membershipState := .revoked } →
      WorkspaceStep crypto w (.revoke d.id) { w with devices }
  | revoke (r : Revocation) (devices : Table Device.id) (rosters : Table RosterRow.epoch) :
      r.Takes crypto w devices rosters →
      WorkspaceStep crypto w (.revoke r.device.id) { w with devices, rosters }
  | rotateAuthority (a : AuthorityRotation) (devices : Table Device.id)
      (rosters : Table RosterRow.epoch) (transitions : Table TransitionRow.epoch) :
      a.Takes crypto w devices rosters transitions →
      WorkspaceStep crypto w .rotateAuthority
        { w with
          devices, rosters, transitions, authorityPublicKey := a.newKey
          authorityEpoch := w.authorityEpoch + 1, authorityTransitionDigest := a.digest }

section Steps

variable {crypto : Crypto} {initial : Block 32} {w w' : Workspace}

theorem approveDevice_takes (h : w.Chained crypto initial) {deviceID : DeviceID}
    {input : ApprovePendingDevice} {change : MembershipChange}
    (hok : approveDevice crypto w deviceID input = .ok (w', change)) :
    ∃ (a : Approval) (devices : Table Device.id) (rosters : Table RosterRow.epoch),
      a.input = input ∧ a.device.id = deviceID ∧ a.Takes crypto w devices rosters ∧
      w' = { w with devices, rosters } ∧ w'.Chained crypto initial := by
  simp only [approveDevice, bind_eq_ok, exists_unit, reject_eq_ok, require_eq_ok, rethrow_eq_ok,
    pure_eq_ok, Prod.mk.injEq] at hok
  obtain ⟨-, d, hfind, hstate, draft, hdraft, certificate, hsign, roster, hroster, encoded, hencode,
    rosterEncoded, hrosterEncode, id, hid, -, w₁, hinsert, rfl, -⟩ := hok
  obtain ⟨hmem, rfl⟩ := Table.find_eq_some.mp hfind
  simp only [not_or, Bool.not_eq_true, Option.isSome_eq_false_iff, Option.isNone_iff_eq_none,
    ne_eq, Decidable.not_not] at hstate
  have hd := h.drafts hdraft
  obtain ⟨hchained, hpublished⟩ := h.publish hd hroster hrosterEncode hinsert
  obtain ⟨row, rosters, rfl, -⟩ := insertWorkspaceRoster_ok hinsert
  refine ⟨⟨input, d, draft, certificate, id, encoded⟩, _, rosters, rfl, rfl, ?_, rfl, hchained⟩
  refine ⟨hstate.2, hstate.1, hd, signDeviceCertificate_ok hsign, hencode,
    Block.check_eq_some.mp hid, ?_, hpublished⟩
  refine Table.update_replaces ?_ hmem ?_ ?_
  · exact fun _ _ => rfl
  · simp [hstate]
  · simp_all

theorem approveDevice_step (h : w.Chained crypto initial) {deviceID : DeviceID}
    {input : ApprovePendingDevice} {change : MembershipChange}
    (hok : approveDevice crypto w deviceID input = .ok (w', change)) :
    WorkspaceStep crypto w (.approve deviceID) w' ∧ w'.Chained crypto initial := by
  obtain ⟨a, devices, rosters, -, rfl, ha, rfl, hchained⟩ := approveDevice_takes h hok
  exact ⟨.approve a devices rosters ha, hchained⟩

theorem storedCertificate_ok {d : Device} {certificate : SignedDeviceCertificate}
    (h : storedCertificate crypto w d = .ok certificate) :
    decodeSignedDeviceCertificate crypto (d.signedCertificate.getD [])
        w.authorityPublicKey.bytes = .ok certificate ∧
      d.certificateID.map (·.bytes) = some certificate.certificateId ∧
      certificate.body.workspaceId = w.id.bytes ∧ certificate.body.deviceId = d.id.bytes := by
  simp only [storedCertificate, bind_eq_ok, exists_unit, reject_eq_ok, rethrow_eq_ok, pure_eq_ok,
    not_or, ne_eq, Decidable.not_not] at h
  obtain ⟨c, hdecode, ⟨hid, hworkspace, hdevice⟩, rfl⟩ := h
  exact ⟨hdecode, hid.symm, hworkspace, hdevice⟩

theorem renameDeviceTo_takes (h : w.Chained crypto initial) {deviceID : DeviceID}
    {input : RenameDeviceInput} {change : MembershipChange}
    (hname : validateDeviceName input.displayName = .ok ())
    (hok : renameDeviceTo crypto w deviceID input = .ok (w', change)) :
    ∃ (r : Renaming) (devices : Table Device.id) (rosters : Table RosterRow.epoch),
      r.input = input ∧ r.device.id = deviceID ∧ r.Takes crypto w devices rosters ∧
      w' = { w with devices, rosters } ∧ w'.Chained crypto initial := by
  simp only [renameDeviceTo, bind_eq_ok, exists_unit, reject_eq_ok, require_eq_ok, rethrow_eq_ok,
    pure_eq_ok, Prod.mk.injEq] at hok
  obtain ⟨d, hfind, hstate, -, previous, hprevious, -, draft, hdraft, -, others, hothers,
    replacement, hsign, -, roster, hroster, encoded, hencode, rosterEncoded, hrosterEncode, id, hid,
    -, w₁, hinsert, rfl, -⟩ := hok
  obtain ⟨hmem, rfl⟩ := Table.find_eq_some.mp hfind
  simp only [not_or, Bool.not_eq_true, Option.isSome_eq_false_iff, Option.isNone_iff_eq_none,
    ne_eq, Decidable.not_not] at hstate
  have hd := h.drafts hdraft
  have hstored := (storedCertificate_ok hprevious).2.1
  obtain ⟨hchained, hpublished⟩ := h.publish hd hroster hrosterEncode hinsert
  obtain ⟨row, rosters, rfl, -⟩ := insertWorkspaceRoster_ok hinsert
  refine ⟨⟨input, d, draft, previous, replacement, others, id, encoded⟩, _, rosters, rfl, rfl, ?_,
    rfl, hchained⟩
  refine ⟨hname, ⟨hstate.1, hstate.2.1⟩, hstate.2.2, hprevious, hd, hothers,
    signDeviceCertificate_ok hsign, hencode, Block.check_eq_some.mp hid, ?_, hpublished⟩
  refine Table.update_replaces ?_ hmem ?_ ?_
  · exact fun _ _ => rfl
  · simp [hstate, hstored]
  · simp_all

theorem renameDeviceTo_step (h : w.Chained crypto initial) {deviceID : DeviceID}
    {input : RenameDeviceInput} {change : MembershipChange}
    (hname : validateDeviceName input.displayName = .ok ())
    (hok : renameDeviceTo crypto w deviceID input = .ok (w', change)) :
    WorkspaceStep crypto w (.rename deviceID) w' ∧ w'.Chained crypto initial := by
  obtain ⟨r, devices, rosters, -, rfl, hr, rfl, hchained⟩ := renameDeviceTo_takes h hname hok
  exact ⟨.rename r devices rosters hr, hchained⟩

theorem revokeApproved_takes (h : w.Chained crypto initial) {d : Device}
    {input : RevokeDeviceInput} {epoch : Nat} {digest : Bytes} (hmem : d ∈ w.devices.rows)
    (hstate : d.membershipState = .approved) (hrevoked : d.revokedAtMs = none)
    (hok : revokeApproved crypto w d input = .ok (w', epoch, digest)) :
    ∃ (r : Revocation) (devices : Table Device.id) (rosters : Table RosterRow.epoch),
      r.input = input ∧ r.device = d ∧ r.Takes crypto w devices rosters ∧
      w' = { w with devices, rosters } ∧ w'.Chained crypto initial ∧
      input.authorityPrivateKey.length = ed25519PrivateKeySize := by
  simp only [revokeApproved, bind_eq_ok, exists_unit, reject_eq_ok, rethrow_eq_ok, pure_eq_ok,
    Prod.mk.injEq] at hok
  obtain ⟨hkey, -, draft, hdraft, -, stored, hstored, others, hothers, roster, hroster,
    rosterEncoded, hrosterEncode, -, w₁, hinsert, rfl, -⟩ := hok
  have hd := h.drafts hdraft
  have hid : d.certificateID.isSome := by
    have := (storedCertificate_ok hstored).2.1
    cases hc : d.certificateID <;> simp_all
  obtain ⟨hchained, hpublished⟩ := h.publish hd hroster hrosterEncode hinsert
  obtain ⟨row, rosters, rfl, -⟩ := insertWorkspaceRoster_ok hinsert
  refine ⟨⟨input, d, draft, stored, others⟩, _, rosters, rfl, rfl, ?_, rfl, hchained, by
    simp_all⟩
  refine ⟨⟨hstate, hrevoked⟩, hid, hstored, hd, hothers, ?_, hpublished⟩
  refine Table.update_replaces ?_ hmem ?_ ?_
  · exact fun _ _ => rfl
  · simp [hstate, hrevoked]
  · simp_all

/-- What a revocation of the device makes of the workspace, and whether it reports a change. -/
inductive RevokesDevice (crypto : Crypto) (w : Workspace) (d : Device) (input : RevokeDeviceInput) :
    Workspace → Bool → Prop
  | already : d.revokedAtMs.isSome → RevokesDevice crypto w d input w false
  | pending (devices : Table Device.id) : d.membershipState ≠ .approved → d.revokedAtMs = none →
      w.devices.Replaces devices d { d with
        revokedAtMs := some (unixMillis input.now), membershipState := .revoked } →
      RevokesDevice crypto w d input { w with devices } true
  | member (r : Revocation) (devices : Table Device.id) (rosters : Table RosterRow.epoch) :
      r.input = input → r.device = d → r.Takes crypto w devices rosters →
      input.authorityPrivateKey.length = ed25519PrivateKeySize →
      RevokesDevice crypto w d input { w with devices, rosters } true

theorem revokeDeviceOf_revokes (h : w.Chained crypto initial) {deviceID : DeviceID}
    {input : RevokeDeviceInput} {revoked : RevokedDevice}
    (hok : revokeDeviceOf crypto w deviceID input = .ok (w', revoked)) :
    ∃ d ∈ w.devices.rows, d.id = deviceID ∧ w'.Chained crypto initial ∧
      ∃ changed, revoked.changed = changed ∧ RevokesDevice crypto w d input w' changed := by
  simp only [revokeDeviceOf, bind_eq_ok, require_eq_ok] at hok
  obtain ⟨d, hfind, hok⟩ := hok
  obtain ⟨hmem, rfl⟩ := Table.find_eq_some.mp hfind
  refine ⟨d, hmem, rfl, ?_⟩
  split at hok
  · rename_i hrevoked
    cases hok
    exact ⟨h, _, rfl, .already hrevoked⟩
  · rename_i hrevoked
    have hrevoked : d.revokedAtMs = none := by simpa using hrevoked
    split at hok
    · rename_i hstate
      simp only [revokePending, bind_eq_ok, exists_unit, reject_eq_ok, pure_eq_ok,
        Prod.mk.injEq] at hok
      obtain ⟨w₁, ⟨-, rfl⟩, rfl, rfl⟩ := hok
      refine ⟨⟨h.rosters, h.authority⟩, _, rfl, .pending _ hstate hrevoked ?_⟩
      refine Table.update_replaces _ hmem ?_ ?_
      · simp [hstate, hrevoked]
      · simp_all
    · rename_i hstate
      simp only [bind_eq_ok, pure_eq_ok, Prod.mk.injEq] at hok
      obtain ⟨⟨w₁, epoch, digest⟩, happroved, rfl, rfl⟩ := hok
      obtain ⟨r, devices, rosters, hinput, hdevice, hr, rfl, hchained, hkey⟩ :=
        revokeApproved_takes h hmem (by simpa using hstate) hrevoked happroved
      exact ⟨hchained, _, rfl, .member r devices rosters hinput hdevice hr hkey⟩

/-- A revocation of a device that is revoked already changes nothing. -/
theorem revokeDeviceOf_step (h : w.Chained crypto initial) {deviceID : DeviceID}
    {input : RevokeDeviceInput} {revoked : RevokedDevice}
    (hok : revokeDeviceOf crypto w deviceID input = .ok (w', revoked)) :
    (w' = w ∧ ∃ d ∈ w.devices.rows, d.id = deviceID ∧ d.revokedAtMs.isSome) ∨
      WorkspaceStep crypto w (.revoke deviceID) w' ∧ w'.Chained crypto initial := by
  obtain ⟨d, hmem, rfl, hchained, changed, -, hrevokes⟩ := revokeDeviceOf_revokes h hok
  cases hrevokes with
  | already hrevoked => exact Or.inl ⟨rfl, d, hmem, rfl, hrevoked⟩
  | pending devices hstate hrevoked hreplaces =>
    exact Or.inr ⟨.revokePending d input.now devices hstate hrevoked hreplaces, hchained⟩
  | member r devices rosters _ hdevice hr _ =>
    subst hdevice
    exact Or.inr ⟨.revoke r devices rosters hr, hchained⟩

theorem insertAuthorityTransition_ok {transition : SignedAuthorityKeyTransition} {epoch : Nat}
    {newKey : Block 32} {encoded : Bytes} {now : Time}
    (h : insertAuthorityTransition w transition epoch newKey encoded now = .ok w') :
    ∃ digest transitions, w' = { w with transitions } ∧
      digest.bytes = transition.transitionDigest ∧
      transitions.rows = w.transitions.rows ++ [transitionRow w digest newKey epoch encoded now] := by
  simp only [insertAuthorityTransition, bind_eq_ok, require_eq_ok, exists_unit, reject_eq_ok,
    pure_eq_ok] at h
  obtain ⟨digest, hdigest, -, transitions, htransitions, rfl⟩ := h
  exact ⟨digest, transitions, rfl, Block.check_eq_some.mp hdigest,
    (Table.insert_eq_some.mp htransitions).2⟩

/-- The row of a transition that was signed for the workspace. -/
theorem transitionRow_holds {previous : SignedWorkspaceRoster}
    {input : RotateWorkspaceAuthorityInput} {transition : SignedAuthorityKeyTransition}
    {newKey digest : Block 32} {encoded : Bytes} (hbound : w.authorityEpoch < maxInt64)
    (hd : Drafts crypto w (nextDraft previous))
    (hkey : w.authorityPublicKey.bytes = publicKey input.previousAuthorityPrivateKey)
    (hnew : newKey.bytes = publicKey input.newAuthorityPrivateKey)
    (hbody : transition.transition = some (rotationTransition w previous input))
    (hencode : encodeSignedAuthorityKeyTransition crypto transition = .ok encoded)
    (hdigest : digest.bytes = transition.transitionDigest) :
    (transitionRow w digest newKey (nextDraft previous).epoch encoded input.now).Holds crypto w.id
      transition := by
  have hepoch : (UInt64.ofNat (w.authorityEpoch + 1)).toNat = w.authorityEpoch + 1 := by
    rw [UInt64.toNat_ofNat']
    refine Nat.mod_eq_of_lt ?_
    unfold maxInt64 at hbound
    omega
  have hactivation := hd.epoch_toNat
  constructor
  · exact decodeSignedAuthorityKeyTransition_iff.mpr hencode
  · simp [SignedAuthorityKeyTransition.body, hbody, rotationTransition]
  · simpa only [SignedAuthorityKeyTransition.body, hbody, Option.getD_some, rotationTransition,
      transitionRow] using hepoch
  · exact hdigest.symm
  · simp [SignedAuthorityKeyTransition.body, hbody, rotationTransition, transitionRow]
  · simp [SignedAuthorityKeyTransition.body, hbody, rotationTransition, transitionRow, hkey]
  · simp [SignedAuthorityKeyTransition.body, hbody, rotationTransition, transitionRow, hnew]
  · simpa only [SignedAuthorityKeyTransition.body, hbody, Option.getD_some, rotationTransition,
      transitionRow] using hactivation

/-- The transition binds the digest of the last roster. -/
theorem transitionRow_binds (newKey digest : Block 32) (encoded : Bytes)
    {previous : SignedWorkspaceRoster} {row : RosterRow} {input : RotateWorkspaceAuthorityInput}
    {transition : SignedAuthorityKeyTransition}
    (hrow : w.rosters.rows.getLast? = some row)
    (hm : row.Holds crypto w.id w.authorityPublicKey previous)
    (hbody : transition.transition = some (rotationTransition w previous input)) :
    Binds w.rosters.rows
      (transitionRow w digest newKey (nextDraft previous).epoch encoded input.now) transition := by
  refine ⟨row, List.mem_of_getLast? hrow, ?_, ?_⟩
  · simp only [transitionRow, nextDraft, hm.epoch]
  · simp [SignedAuthorityKeyTransition.body, hbody, rotationTransition, hm.digest]

theorem rotateAuthority_takes (h : w.Chained crypto initial)
    {input : RotateWorkspaceAuthorityInput} {rotated : RotatedWorkspaceAuthority}
    (hok : rotateAuthority crypto w input = .ok (w', rotated)) :
    ∃ (a : AuthorityRotation) (devices : Table Device.id) (rosters : Table RosterRow.epoch)
        (transitions : Table TransitionRow.epoch), a.input = input ∧
      a.Takes crypto w devices rosters transitions ∧
      w' = { w with
        devices, rosters, transitions, authorityPublicKey := a.newKey
        authorityEpoch := w.authorityEpoch + 1, authorityTransitionDigest := a.digest } ∧
      w'.Chained crypto initial := by
  simp only [rotateAuthority, bind_eq_ok, exists_unit, reject_eq_ok, require_eq_ok, rethrow_eq_ok,
    pure_eq_ok, Prod.mk.injEq, ne_eq, Decidable.not_not] at hok
  obtain ⟨hkey, hmax, row, hrow, previous, hprevious, hepoch, transition, hsign, encoded, hencode,
    ⟨devices, active⟩, hreissue, roster, hroster, rosterEncoded, hrosterEncode, newKey, hnewKey,
    w₁, hw₁, w₂, hw₂, w₃, hw₃, rfl, -⟩ := hok
  rw [← hkey] at hprevious
  have hd := h.draft_next hrow hprevious hepoch
  have hlength := hd.epoch_eq h
  have hnew := Block.check_eq_some.mp hnewKey
  have hbody := signAuthorityKeyTransition_ok hsign
  have hbounded := h.authority.bounded
  rw [h.rosters.latest] at hrow
  obtain ⟨m, hm⟩ := h.last_holds hrow
  have heq := hm.eq hprevious
  subst heq
  obtain ⟨digest, transitions, rfl, hdigest, htransitions⟩ := insertAuthorityTransition_ok hw₁
  obtain ⟨rosterRow, rosters, rfl, hrows, hrepoch, hrdigest, hrprevious, hrsigned⟩ :=
    insertWorkspaceRoster_ok hw₂
  simp only [activateAuthority, bind_eq_ok, require_eq_ok, pure_eq_ok] at hw₃
  obtain ⟨digest', hdigest', rfl⟩ := hw₃
  obtain rfl : digest = digest' := Block.ext (hdigest.trans (Block.check_eq_some.mp hdigest').symm)
  dsimp only at hrows htransitions ⊢
  have hencode' : encodeSignedWorkspaceRoster crypto roster newKey.bytes = .ok rosterEncoded := by
    rw [hnew]
    exact hrosterEncode
  have hholds := holds_of_signed hd hroster hencode' hrepoch hrdigest hrprevious hrsigned
  have htransition := transitionRow_holds (by omega) hd hkey hnew hbody hencode hdigest
  have hbinds := transitionRow_binds newKey digest encoded hrow hm hbody
  have hlink := hd.previous hrprevious
  refine ⟨⟨input, previous, transition, active, newKey, digest, encoded⟩, devices, rosters,
    transitions, rfl, ⟨hd, hnew, hreissue, hbody, hencode, hdigest, htransitions,
      rosterRow, roster, hrows, hholds, signWorkspaceRoster_ok hroster⟩, rfl, ⟨?_, ?_⟩⟩
  · dsimp only
    rw [hrows, htransitions]
    refine h.rosters.concat (hrepoch.trans hlength) (fun epoch he => keyInForce_before ?_)
      ⟨roster, ?_⟩ hlink.1 hlink.2
    · simp only [transitionRow]
      omega
    · rw [keyInForce_after (by simp only [transitionRow]; omega)]
      exact hholds
  · dsimp only
    rw [hrows, htransitions]
    exact h.authority.concat rfl hmax (by simp only [transitionRow]; omega) rfl rfl
      ⟨transition, htransition, hbinds⟩

theorem rotateAuthority_step (h : w.Chained crypto initial)
    {input : RotateWorkspaceAuthorityInput} {rotated : RotatedWorkspaceAuthority}
    (hok : rotateAuthority crypto w input = .ok (w', rotated)) :
    WorkspaceStep crypto w .rotateAuthority w' ∧ w'.Chained crypto initial := by
  obtain ⟨a, devices, rosters, transitions, -, ha, rfl, hchained⟩ := rotateAuthority_takes h hok
  exact ⟨.rotateAuthority a devices rosters transitions ha, hchained⟩

end Steps

end SevenMirror.Admission
