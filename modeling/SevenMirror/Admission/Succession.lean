import SevenMirror.Admission.Administration

/-! Rotating the authority of a workspace succeeds, and with it no operation of the membership
administration gets stuck. -/

namespace SevenMirror.Admission

open Lib MembershipCodec

/-! ### Reissuing -/

section Reissuing

variable {crypto : Crypto} {id : WorkspaceID} {key : Block 32}
  {input : RotateWorkspaceAuthorityInput} {epoch : Nat}

/-- The loop succeeds where members of the table hold the certificates. -/
theorem reissueCertificates_succeeds (hnew : KeyPair crypto input.newAuthorityPrivateKey)
    (hnow : 0 < unixMillis input.now)
    (hepoch : UInt64.ofNat epoch ≠ 0 ∧ UInt64.ofNat epoch ≤ maxEpoch)
    {todo : List SignedDeviceCertificate} {devices : Table Device.id}
    (hdistinct : (todo.map (·.body.deviceId)).Nodup)
    (hheld : ∀ c ∈ todo, ∃ d ∈ devices.rows, d.Member ∧ Certified crypto id key d c ∧
      c.body.expiresAtUnixMs = 0) :
    ∃ result, reissueCertificates crypto input epoch todo devices = .ok result := by
  induction todo generalizing devices with
  | nil => exact ⟨(devices, []), rfl⟩
  | cons old rest ih =>
    obtain ⟨d, hmem, hmember, hcertified, hexpires⟩ := hheld old List.mem_cons_self
    rw [List.map_cons, List.nodup_cons] at hdistinct
    obtain ⟨-, hold, -⟩ := signedCertificate_body hcertified.valid
    obtain ⟨new, text, hsign, -, hencode⟩ := signDeviceCertificate_succeeds hnew
      (certificate_renewed hold hexpires (validateDeviceName_iff.mpr hold.name)
        (unixMillisUnsigned_bounds hnow) hepoch)
    have hvalid := (encodeSignedDeviceCertificate_iff.mp hencode).1
    obtain ⟨block, hblock⟩ := Block.check_of_size (signedCertificate_body hvalid).2.2
    -- the rows that hold the other certificates are not the updated one
    have hothers : ∀ c ∈ rest, ∃ x ∈ (devices.update
        (fun x => x.id.bytes = old.body.deviceId ∧
          x.certificateID.map (·.bytes) = some old.certificateId ∧ x.membershipState = .approved ∧
          x.revokedAtMs = none)
        (fun x => { x with
          certificateID := some block, signedCertificate := some text
          approvedAtMs := some (unixMillis input.now) }) (fun _ _ => rfl)).rows,
        x.Member ∧ Certified crypto id key x c ∧ c.body.expiresAtUnixMs = 0 := by
      intro c hc
      obtain ⟨x, hx, hxmember, hxcertified, hxexpires⟩ := hheld c (List.mem_cons_of_mem _ hc)
      refine ⟨x, Table.mem_update.mpr ⟨x, hx, ?_⟩, hxmember, hxcertified, hxexpires⟩
      rw [if_neg]
      intro hchosen
      have heq : c.body.deviceId = old.body.deviceId :=
        hxcertified.device.trans (of_decide_eq_true hchosen).1
      exact hdistinct.1 (heq ▸ List.mem_map_of_mem hc)
    obtain ⟨⟨devices', active⟩, hrest⟩ := ih hdistinct.2 hothers
    refine ⟨(devices', new :: active), ?_⟩
    simp only [reissueCertificates, bind_eq_ok, exists_unit, rethrow_eq_ok, require_eq_ok,
      reject_eq_ok, pure_eq_ok]
    refine ⟨new, hsign, text, hencode, block, hblock, ?_, (devices', active), hrest, rfl⟩
    simp only [ne_eq, not_not]
    refine Table.affected_eq_one hmem ?_ fun x hx => ?_
    · simp [hcertified.device, hcertified.certificateID, hmember.1, hmember.2]
    · exact Block.ext ((of_decide_eq_true hx).1.trans hcertified.device)

/-- The new certificates are of the same devices. -/
theorem reissueCertificates_devices {todo active : List SignedDeviceCertificate}
    {devices devices' : Table Device.id}
    (hok : reissueCertificates crypto input epoch todo devices = .ok (devices', active)) :
    active.map (·.body.deviceId) = todo.map (·.body.deviceId) := by
  have heach := reissueCertificates_each hok
  clear hok
  induction heach with
  | nil => rfl
  | cons hnew _ ih =>
    rw [List.map_cons, List.map_cons, ih, hnew.1]
    rfl

end Reissuing

section Rotation

variable {crypto : Crypto} {initial : Block 32} {w : Workspace} {row : RosterRow}
  {m : SignedWorkspaceRoster} {input : RotateWorkspaceAuthorityInput}

/-- The reissued certificates make a roster of the new authority. -/
theorem Workspace.Healthy.proposes_reissued (h : w.Healthy crypto initial) (ideal : crypto.Ideal)
    {draft : WorkspaceRosterDraft} (hd : Drafts crypto w draft)
    {active : List SignedDeviceCertificate} {devices devices' : Table Device.id}
    (hok : reissueCertificates crypto input draft.epoch draft.activeCertificates devices =
      .ok (devices', active)) :
    Proposed crypto w draft (publicKey input.newAuthorityPrivateKey) active draft.revocations [] := by
  have heach := reissueCertificates_each hok
  have hlisted := hd.listed
  obtain ⟨-, hordered⟩ := hd.agrees h.chained h.agreed
  constructor
  case active_count => exact heach.length_eq ▸ hlisted.active_count
  case active_valid =>
    intro c hc
    obtain ⟨old, hold, hbody, hvalid⟩ := exists_of_forall₂ heach hc
    refine ⟨hvalid, ?_, ?_⟩
    · rw [hbody]
      exact (h.active_valid hd hold).2.1
    · rw [hbody]
      exact Nat.le_of_eq hd.epoch_toNat
  case active_order => exact reissueCertificates_devices hok ▸ hordered
  case transitions_count => exact Nat.zero_le _
  case transitions_first => exact fun _ => rfl
  case transitions_valid => simp
  case revocations_count => exact hlisted.revocations_count
  case revocations_valid => exact hlisted.revocations
  case revocations_order => exact hlisted.revocations_order
  case disjoint =>
    intro x hx c hc
    obtain ⟨old, -, hbody, hvalid⟩ := exists_of_forall₂ heach hc
    exact h.unrevoked ideal hd hvalid (by rw [hbody]; rfl) x hx

/-- Only the first transition follows no digest. -/
theorem AuthorityChain.digest_zero {id : WorkspaceID} {rosters : List RosterRow}
    {rows : List TransitionRow} {key digest : Block 32} {epoch : Nat} (ideal : crypto.Ideal)
    (h : AuthorityChain crypto id initial rosters rows key epoch digest) :
    (epoch = 1 → allZero digest.bytes = true) ∧ (1 < epoch → allZero digest.bytes = false) := by
  have hepoch := h.current_epoch
  have hdigest := h.current_digest
  cases hlast : rows.getLast? with
  | none =>
    have hnil := List.getLast?_eq_none_iff.mp hlast
    rw [hlast] at hdigest
    rw [hnil] at hepoch
    rw [hdigest]
    refine ⟨fun _ => by decide, fun hlt => ?_⟩
    rw [hepoch] at hlt
    exact absurd hlt (by decide)
  | some t =>
    have hmem := List.mem_of_getLast? hlast
    have hpos := List.length_pos_of_mem hmem
    rw [hlast] at hdigest
    obtain ⟨m, hm, -⟩ := h.holds t hmem
    have hvalid := (encodeSignedAuthorityKeyTransition_iff.mp
      (decodeSignedAuthorityKeyTransition_iff.mp hm.decodes)).1
    obtain ⟨-, transition, text, -, -, -, hdomain, -⟩ :=
      validateSignedAuthorityKeyTransition_iff.mp hvalid
    refine ⟨fun hone => by omega, fun _ => ?_⟩
    rw [hdigest, Option.map_some, Option.getD_some, ← hm.digest, hdomain]
    exact ideal.domainHash_nonzero _ _

theorem rotationTransition_valid (h : w.Healthy crypto initial) (ideal : crypto.Ideal)
    (hnamed : w.Named) (hd : Drafts crypto w (nextDraft m))
    (hkey : w.Authority crypto input.previousAuthorityPrivateKey)
    (hnew : KeyPair crypto input.newAuthorityPrivateKey)
    (hne : publicKey input.previousAuthorityPrivateKey ≠ publicKey input.newAuthorityPrivateKey)
    (hbelow : w.authorityEpoch < maxInt64) (hlater : 1 < (nextDraft m).epoch)
    (hnow : 0 < unixMillis input.now) : TransitionValid (rotationTransition w m input) := by
  obtain ⟨hfirst, hrest⟩ := h.chained.authority.digest_zero ideal
  have hpos : 1 ≤ w.authorityEpoch := by
    rw [h.chained.authority.current_epoch]
    exact Nat.le_add_left 1 _
  have hepoch : (UInt64.ofNat (w.authorityEpoch + 1)).toNat = w.authorityEpoch + 1 := by
    rw [UInt64.toNat_ofNat']
    simp only [maxInt64] at hbelow
    omega
  have htwo : (2 : UInt64).toNat = 2 := rfl
  constructor
  case unknown => rfl
  case version => rfl
  case workspace => exact ⟨w.id.size, hnamed.id⟩
  case epoch =>
    rw [UInt64.le_iff_toNat_le, UInt64.le_iff_toNat_le, rotationTransition, hepoch, htwo]
    simp only [maxEpoch, UInt64.reduceToNat, maxInt64] at hbelow ⊢
    omega
  case previous_size => exact w.authorityTransitionDigest.size
  case previous_first =>
    intro heq
    have hvalue := congrArg UInt64.toNat heq
    simp only [rotationTransition, hepoch, htwo] at hvalue
    exact hfirst (by omega)
  case previous_later =>
    intro hlt
    rw [UInt64.lt_iff_toNat_lt, rotationTransition, hepoch, htwo] at hlt
    exact hrest (by omega)
  case previousKey => exact ⟨hkey.pair.publicKey_size, hkey.pair.nonzero⟩
  case newKey => exact ⟨hnew.publicKey_size, hnew.nonzero⟩
  case keys => exact hne
  case activation =>
    refine ⟨?_, (h.epoch_bounds hd).2⟩
    rw [UInt64.le_iff_toNat_le, rotationTransition, hd.epoch_toNat, htwo]
    exact hlater
  case roster =>
    exact ⟨hd.previousDigest_size, (hd.previousDigest_zero ideal h.chained).2 hlater⟩
  case issued => exact unixMillisUnsigned_bounds hnow

/-- A transition of the next authority epoch is inserted. -/
theorem insertAuthorityTransition_succeeds (h : w.Chained crypto initial) (ideal : crypto.Ideal)
    {signed : SignedAuthorityKeyTransition} {t : AuthorityKeyTransition} {text : Bytes}
    (hencode : encodeSignedAuthorityKeyTransition crypto signed = .ok text)
    (hbody : signed.transition = some t) (hepoch : t.transitionEpoch.toNat = w.authorityEpoch + 1)
    (activation : Nat) (newKey : Block 32) (encoded : Bytes) (now : Time) {v : Workspace}
    (hv : v.transitions = w.transitions ∧ v.authorityEpoch = w.authorityEpoch) :
    ∃ digest v', Block.check 32 signed.transitionDigest = some digest ∧
      insertAuthorityTransition v signed activation newKey encoded now = .ok v' ∧
      v'.rosters = v.rosters := by
  have hvalid := (encodeSignedAuthorityKeyTransition_iff.mp hencode).1
  obtain ⟨-, transition, domain, -, -, -, hdomain, -⟩ :=
    validateSignedAuthorityKeyTransition_iff.mp hvalid
  obtain ⟨digest, hdigest⟩ : ∃ block, Block.check 32 signed.transitionDigest = some block :=
    Block.check_of_size (by rw [hdomain, domainHash_length]; rfl)
  have hcurrent := h.authority.current_epoch
  have hnumber : signed.body.transitionEpoch.toNat = w.authorityEpoch + 1 := by
    rw [SignedAuthorityKeyTransition.body, hbody, Option.getD_some, hepoch]
  -- the digest and the number are those of no earlier transition
  have hfresh : ∀ r ∈ w.transitions.rows, r.digest ≠ digest ∧ r.epoch ≠ w.authorityEpoch + 1 := by
    intro r hr
    have hbound := (h.authority.epochs.bounds hr).2
    refine ⟨fun heq => ?_, by omega⟩
    obtain ⟨m, hm, -⟩ := h.authority.holds r hr
    have hm' := (encodeSignedAuthorityKeyTransition_iff.mp
      (decodeSignedAuthorityKeyTransition_iff.mp hm.decodes)).1
    have hsame : m.transitionDigest = signed.transitionDigest := by
      rw [hm.digest, heq, Block.check_eq_some.mp hdigest]
    have hepochs := ideal.transitionDigest_inj hm' hvalid hsame
    have hold := hm.epoch
    rw [hepochs, hnumber] at hold
    omega
  refine ⟨digest, { v with transitions := ⟨v.transitions.rows ++
    [transitionRow v digest newKey activation encoded now], ?_⟩ }, hdigest, ?_, rfl⟩
  · rw [List.pairwise_append]
    refine ⟨v.transitions.distinct, List.pairwise_singleton _ _, fun r hr x hx => ?_⟩
    rw [List.mem_singleton.mp hx, transitionRow, hv.2]
    exact (hfresh r (hv.1 ▸ hr)).2
  · simp only [insertAuthorityTransition, bind_eq_ok, exists_unit, require_eq_ok, reject_eq_ok,
      pure_eq_ok]
    refine ⟨digest, hdigest, ?_, _, Table.insert_eq_some.mpr ⟨?_, rfl⟩, rfl⟩
    · simp only [List.any_eq_true, decide_eq_true_eq, not_exists, not_and]
      exact fun r hr => (hfresh r (hv.1 ▸ hr)).1
    · intro r hr
      rw [hv.2]
      exact (hfresh r (hv.1 ▸ hr)).2

variable (input) in
/-- Rotating the authority of a workspace that has a roster to another key succeeds. -/
theorem rotateAuthority_succeeds (h : w.Healthy crypto initial) (ideal : crypto.Ideal)
    (hnamed : w.Named) (hkey : w.Authority crypto input.previousAuthorityPrivateKey)
    (hnew : KeyPair crypto input.newAuthorityPrivateKey)
    (hne : publicKey input.previousAuthorityPrivateKey ≠ publicKey input.newAuthorityPrivateKey)
    (hbelow : w.authorityEpoch < maxInt64) (hrosters : w.rosters.rows ≠ [])
    (hnow : 0 < unixMillis input.now) :
    ∃ result, rotateAuthority crypto w input = .ok result := by
  obtain ⟨draft, hdraft, hd⟩ := h.drafts
  cases hd with
  | first hnil => exact absurd hnil hrosters
  | next row m hlast hm hroom =>
    have hd : Drafts crypto w (nextDraft m) := .next row m hlast hm hroom
    have hlater : 1 < (nextDraft m).epoch := by
      rw [hd.epoch_eq h.chained]
      have := List.length_pos_of_ne_nil hrosters
      omega
    have hvalid := rotationTransition_valid h ideal hnamed hd hkey hnew hne hbelow hlater hnow
    obtain ⟨transition, text, hsign, hbody, hencode⟩ :=
      signAuthorityKeyTransition_succeeds hkey.pair hnew hvalid rfl rfl
    obtain ⟨⟨devices, active⟩, hreissue⟩ := reissueCertificates_succeeds hnew hnow
      (h.epoch_bounds hd) (nodup_of_ascends (hd.agrees h.chained h.agreed).2) fun c hc => by
        obtain ⟨x, hx, hmember, hcertified, -, hexpires⟩ := h.holder hd hc
        exact ⟨x, hx, hmember, hcertified, hexpires⟩
    obtain ⟨newKey, hnewKey⟩ := Block.check_of_size hnew.publicKey_size
    have hepoch : (rotationTransition w m input).transitionEpoch.toNat = w.authorityEpoch + 1 := by
      simp only [rotationTransition, UInt64.toNat_ofNat', maxInt64] at hbelow ⊢
      omega
    obtain ⟨digest, w₁, hdigest, hw₁, hrosters₁⟩ := insertAuthorityTransition_succeeds h.chained
      ideal hencode hbody hepoch (nextDraft m).epoch newKey text input.now
      (v := { w with devices }) ⟨rfl, rfl⟩
    obtain ⟨roster, encoded, w₂, hroster, hrosterText, hw₂⟩ :=
      (h.proposes_reissued ideal hd hreissue).publishes h ideal hnamed.id hd hnew input.now
        (v := w₁) hrosters₁
    refine ⟨({ w₂ with
      authorityPublicKey := newKey, authorityEpoch := w₂.authorityEpoch + 1
      authorityTransitionDigest := digest }, ⟨w₂.authorityEpoch + 1, transition.transitionDigest,
      (nextDraft m).epoch, roster.rosterDigest, text⟩), ?_⟩
    simp only [rotateAuthority, bind_eq_ok, exists_unit, reject_eq_ok, require_eq_ok, rethrow_eq_ok,
      pure_eq_ok]
    refine ⟨by simp [hkey.current], Nat.ne_of_lt hbelow, row, h.chained.rosters.latest.trans hlast,
      m, by rw [hkey.current]; exact hm.decodes, UInt64.not_le.mpr hroom, transition, hsign, text,
      hencode, (devices, active), hreissue, roster, hroster, encoded, hrosterText, newKey, hnewKey,
      w₁, hw₁, w₂, hw₂, _, ?_, rfl⟩
    simp only [activateAuthority, bind_eq_ok, require_eq_ok, pure_eq_ok]
    exact ⟨digest, hdigest, rfl⟩

end Rotation

/-! ### The administration of a workspace -/

/-- No epoch of the workspace is the last one. -/
structure Workspace.EpochsLeft (w : Workspace) : Prop where
  rosters : ∀ r ∈ w.rosters.rows, r.epoch < maxInt64
  authority : w.authorityEpoch < maxInt64

/-- The references of different devices are different. -/
def Workspace.Distinguished (crypto : Crypto) (w : Workspace) : Prop :=
  ∀ x ∈ w.devices.rows, ∀ y ∈ w.devices.rows,
    deviceReference crypto w.id x.id = deviceReference crypto w.id y.id → x.id = y.id

/-- A registry that calls lead to, and the key of one of its workspaces at a positive instant. -/
structure Administered (crypto : Crypto) (s : Registry) (w : Workspace) (privateKey : Bytes)
    (now : Time) : Prop where
  reachable : Reachable crypto s
  found : s.find w.id = some w
  epochs : w.EpochsLeft
  named : w.Named
  references : w.Distinguished crypto
  authority : w.Authority crypto privateKey
  instant : 0 < unixMillis now

/-- `DeviceRole` has these values. -/
def supportedRole (role : DeviceRole) : Prop :=
  deviceRoleSendNotifications ≤ role ∧ role ≤ deviceRoleManageDevices

theorem rolesSorted_of_pairwise {previous : DeviceRole} {roles : List DeviceRole}
    (hsupported : ∀ role ∈ roles, supportedRole role) (hordered : roles.Pairwise (· < ·))
    (hprevious : ∀ role ∈ roles, previous < role) : rolesSorted previous roles = true := by
  induction roles generalizing previous with
  | nil => rfl
  | cons role rest ih =>
    obtain ⟨hlow, hhigh⟩ := hsupported role List.mem_cons_self
    obtain ⟨hafter, hrest⟩ := List.pairwise_cons.mp hordered
    have hfirst := hprevious role List.mem_cons_self
    simp only [rolesSorted, Bool.and_eq_true, Bool.not_eq_true', Bool.or_eq_false_iff,
      decide_eq_false_iff_not, Int32.not_lt, Int32.not_le]
    exact ⟨⟨⟨hlow, hhigh⟩, hfirst⟩,
      ih (fun x hx => hsupported x (List.mem_cons_of_mem _ hx)) hrest hafter⟩

theorem rolesSorted_of_supported {roles : List DeviceRole}
    (hsupported : ∀ role ∈ roles, supportedRole role) (hordered : roles.Pairwise (· < ·)) :
    rolesSorted deviceRoleUnspecified roles = true := by
  refine rolesSorted_of_pairwise hsupported hordered fun role hrole => ?_
  exact Int32.lt_of_lt_of_le (by decide) (hsupported role hrole).1

section Calls

variable {crypto : Crypto} {s : Registry} {w : Workspace} {d : Device} {privateKey : Bytes}
  {now : Time}

theorem Administered.healthy (h : Administered crypto s w privateKey now) :
    ∃ initial, w.Healthy crypto initial := by
  have hw := (Table.find_eq_some.mp h.found).1
  obtain ⟨initial, hchained⟩ := h.reachable.chained w hw
  refine h.reachable.healthy hw ?_
  cases hlast : w.rosters.rows.getLast? with
  | none =>
    rw [List.getLast?_eq_none_iff.mp hlast]
    decide
  | some row =>
    have hepoch := hchained.rosters.epochs.last hlast
    have hbelow := h.epochs.rosters row (List.mem_of_getLast? hlast)
    omega

theorem Administered.resolves (h : Administered crypto s w privateKey now)
    (hd : d ∈ w.devices.rows) :
    resolveDeviceReference crypto w (deviceReference crypto w.id d.id) = .ok d.id :=
  resolveDeviceReference_succeeds hd fun x hx => h.references x hx d hd

/-- Approving acts on the device that the reference names. -/
theorem Administered.approve_eq (h : Administered crypto s w privateKey now)
    (hd : d ∈ w.devices.rows) {roles : List DeviceRole} (hroles : roles ≠ []) :
    approvePendingMembership crypto s
        ⟨w.id, deviceReference crypto w.id d.id, roles, privateKey, now⟩ =
      (do let (w', change) ← approveDevice crypto w d.id
            ⟨w.id, deviceReference crypto w.id d.id, roles, privateKey, now⟩
          return (s.put w', change)) := by
  have hlength : roles.length ≠ 0 := fun hzero => hroles (List.eq_nil_of_length_eq_zero hzero)
  simp only [approvePendingMembership, h.authority.pair.size, hlength, h.found, h.resolves hd,
    reject, require, ok_bind, ne_eq, not_true_eq_false, or_self, if_false]

/-- Revoking acts on the approved device that the reference names. -/
theorem Administered.revoke_eq (h : Administered crypto s w privateKey now)
    (hd : d ∈ w.devices.rows) (hstate : d.membershipState = .approved) :
    revokeDevice crypto s ⟨w.id, deviceReference crypto w.id d.id, privateKey, now⟩ =
      (do let (w', epoch, digest) ← revokeApproved crypto w d
            ⟨w.id, deviceReference crypto w.id d.id, privateKey, now⟩
          return (s.put w', ⟨deviceReference crypto w.id d.id, true, epoch, digest⟩)) := by
  obtain ⟨initial, hhealthy⟩ := h.healthy
  have hrevoked : d.revokedAtMs.isSome = false := by
    have hrow := (hhealthy.sound d hd).revoked
    simpa [hstate] using hrow
  simp only [revokeDevice, revokeDeviceOf, h.found, h.resolves hd,
    Table.find_eq_some.mpr ⟨hd, rfl⟩, hrevoked, hstate, require, ok_bind, ne_eq, not_true_eq_false,
    if_false, Bool.false_eq_true]
  cases revokeApproved crypto w d ⟨w.id, deviceReference crypto w.id d.id, privateKey, now⟩ <;> rfl

/-- Rotating acts on the workspace. -/
theorem Administered.rotate_eq (h : Administered crypto s w privateKey now) {newPrivateKey : Bytes}
    (hnew : KeyPair crypto newPrivateKey) (hne : publicKey privateKey ≠ publicKey newPrivateKey) :
    rotateWorkspaceAuthority crypto s ⟨w.id, privateKey, newPrivateKey, now⟩ =
      (do let (w', rotated) ← rotateAuthority crypto w ⟨w.id, privateKey, newPrivateKey, now⟩
          return (s.put w', rotated)) := by
  simp only [rotateWorkspaceAuthority, h.authority.pair.size, hnew.size, not_isZero h.instant, hne,
    h.found, reject, require, ok_bind, ne_eq, not_true_eq_false, Bool.false_eq_true, or_self, if_false]

end Calls

end SevenMirror.Admission
