import SevenMirror.Admission.RegistryRun

/-! The devices of a workspace and its latest roster agree: the active certificates are those of the
members, and the revocations are those of the devices that a roster revoked.  A call replaces one
device or reissues every certificate, so agreement is stated for a set of devices, taken apart into
one device and the others, and put together again. -/

namespace SevenMirror.Admission

open Lib MembershipCodec

/-- `membership_state = 'approved' AND revoked_at_ms IS NULL`. -/
def Device.Member (d : Device) : Prop := d.membershipState = .approved ∧ d.revokedAtMs = none

/-- The device stores the certificate, under `key`, and its columns are those of the certificate. -/
structure Certified (crypto : Crypto) (id : WorkspaceID) (key : Block 32) (d : Device)
    (c : SignedDeviceCertificate) : Prop where
  stored : ∃ encoded, d.signedCertificate = some encoded ∧
    encodeSignedDeviceCertificate crypto c key.bytes = .ok encoded
  certificateID : d.certificateID.map (·.bytes) = some c.certificateId
  workspace : c.body.workspaceId = id.bytes
  device : c.body.deviceId = d.id.bytes
  name : c.body.displayName = d.deviceName
  identity : c.body.identityPublicKey = d.e2eePublicKey.bytes

/-- The revocation names the device and its certificate. -/
def Revokes (x : RevokedCertificate) (d : Device) : Prop :=
  x.deviceId = d.id.bytes ∧ d.certificateID.map (·.bytes) = some x.certificateId

/-- The devices of `D` agree with the active certificates and the revocations. -/
structure Agrees (crypto : Crypto) (id : WorkspaceID) (key : Block 32) (D : Device → Prop)
    (active : List SignedDeviceCertificate) (revocations : List RevokedCertificate) : Prop where
  member : ∀ d, D d → d.Member → ∃ c ∈ active, Certified crypto id key d c
  active : ∀ c ∈ active, ∃ d, D d ∧ d.Member ∧ Certified crypto id key d c
  revoked : ∀ d, D d → d.revokedMembershipEpoch.isSome → ∃ x ∈ revocations, Revokes x d
  revocation : ∀ x ∈ revocations, ∃ d, D d ∧ d.revokedMembershipEpoch.isSome ∧ Revokes x d
  settled : ∀ d, D d → d.revokedMembershipEpoch.isSome → d.revokedAtMs.isSome

/-- The device is not a member, and no roster revoked it. -/
def Device.Idle (d : Device) : Prop := ¬ d.Member ∧ d.revokedMembershipEpoch = none

section Sets

variable {crypto : Crypto} {id : WorkspaceID} {key : Block 32} {D D' : Device → Prop} {d : Device}
  {c : SignedDeviceCertificate} {active active' : List SignedDeviceCertificate}
  {revocations revocations' : List RevokedCertificate}

theorem Certified.eq {c' : SignedDeviceCertificate} (h : Certified crypto id key d c)
    (h' : decodeSignedDeviceCertificate crypto (d.signedCertificate.getD []) key.bytes = .ok c') :
    c' = c := by
  obtain ⟨encoded, hstored, hencode⟩ := h.stored
  rw [hstored, Option.getD_some, decodeSignedDeviceCertificate_iff.mpr hencode] at h'
  exact (Except.ok.inj h').symm

/-- Only the members of the lists count. -/
theorem Agrees.congr (h : Agrees crypto id key D active revocations) (hD : ∀ d, D' d ↔ D d)
    (hactive : ∀ c, c ∈ active' ↔ c ∈ active)
    (hrevocations : ∀ x, x ∈ revocations' ↔ x ∈ revocations) :
    Agrees crypto id key D' active' revocations' := by
  constructor <;> simp only [hD, hactive, hrevocations]
  · exact h.member
  · exact h.active
  · exact h.revoked
  · exact h.revocation
  · exact h.settled

theorem Agrees.union (h : Agrees crypto id key D active revocations)
    (h' : Agrees crypto id key D' active' revocations') :
    Agrees crypto id key (fun d => D d ∨ D' d) (active ++ active')
      (revocations ++ revocations') := by
  constructor
  · rintro d (hd | hd) hm
    · obtain ⟨c, hc, hcertified⟩ := h.member d hd hm
      exact ⟨c, List.mem_append_left _ hc, hcertified⟩
    · obtain ⟨c, hc, hcertified⟩ := h'.member d hd hm
      exact ⟨c, List.mem_append_right _ hc, hcertified⟩
  · intro c hc
    rcases List.mem_append.mp hc with hc | hc
    · obtain ⟨d, hd, hcertified⟩ := h.active c hc
      exact ⟨d, Or.inl hd, hcertified⟩
    · obtain ⟨d, hd, hcertified⟩ := h'.active c hc
      exact ⟨d, Or.inr hd, hcertified⟩
  · rintro d (hd | hd) hr
    · obtain ⟨x, hx, hrevokes⟩ := h.revoked d hd hr
      exact ⟨x, List.mem_append_left _ hx, hrevokes⟩
    · obtain ⟨x, hx, hrevokes⟩ := h'.revoked d hd hr
      exact ⟨x, List.mem_append_right _ hx, hrevokes⟩
  · intro x hx
    rcases List.mem_append.mp hx with hx | hx
    · obtain ⟨d, hd, hrevokes⟩ := h.revocation x hx
      exact ⟨d, Or.inl hd, hrevokes⟩
    · obtain ⟨d, hd, hrevokes⟩ := h'.revocation x hx
      exact ⟨d, Or.inr hd, hrevokes⟩
  · rintro d (hd | hd) hr
    · exact h.settled d hd hr
    · exact h'.settled d hd hr

theorem Agrees.idle (h : d.Idle) : Agrees crypto id key (· = d) [] [] := by
  obtain ⟨hmember, hepoch⟩ := h
  constructor
  · rintro _ rfl hm
    exact absurd hm hmember
  · simp
  · rintro _ rfl hr
    simp [hepoch] at hr
  · simp
  · rintro _ rfl hr
    simp [hepoch] at hr

theorem Agrees.certified (hm : d.Member) (hepoch : d.revokedMembershipEpoch = none)
    (h : Certified crypto id key d c) : Agrees crypto id key (· = d) [c] [] := by
  constructor
  · rintro _ rfl -
    exact ⟨c, List.mem_singleton_self c, h⟩
  · intro c' hc
    rw [List.mem_singleton.mp hc]
    exact ⟨d, rfl, hm, h⟩
  · rintro _ rfl hr
    simp [hepoch] at hr
  · simp
  · rintro _ rfl hr
    simp [hepoch] at hr

theorem Agrees.revokes {x : RevokedCertificate} (hrevoked : d.revokedAtMs.isSome)
    (hepoch : d.revokedMembershipEpoch.isSome) (h : Revokes x d) :
    Agrees crypto id key (· = d) [] [x] := by
  constructor
  · rintro _ rfl hm
    rw [hm.2] at hrevoked
    cases hrevoked
  · simp
  · rintro _ rfl -
    exact ⟨x, List.mem_singleton_self x, h⟩
  · intro x' hx
    rw [List.mem_singleton.mp hx]
    exact ⟨d, rfl, hepoch, h⟩
  · rintro _ rfl -
    exact hrevoked

/-- Without a device that no roster revoked. -/
theorem Agrees.remove (h : Agrees crypto id key D active revocations)
    (hunique : ∀ x, D x → x.id = d.id → x = d) (hepoch : d.revokedMembershipEpoch = none) :
    Agrees crypto id key (fun x => D x ∧ x.id ≠ d.id)
      (active.filter fun c => !decide (c.body.deviceId = d.id.bytes)) revocations := by
  constructor
  · rintro x ⟨hx, hne⟩ hm
    obtain ⟨c, hc, hcertified⟩ := h.member x hx hm
    refine ⟨c, ?_, hcertified⟩
    simp only [List.mem_filter, hc, hcertified.device, true_and, Bool.not_eq_true',
      decide_eq_false_iff_not]
    exact fun heq => hne (Block.ext heq)
  · intro c hc
    simp only [List.mem_filter, Bool.not_eq_true', decide_eq_false_iff_not] at hc
    obtain ⟨x, hx, hm, hcertified⟩ := h.active c hc.1
    refine ⟨x, ⟨hx, fun heq => hc.2 ?_⟩, hm, hcertified⟩
    rw [hcertified.device, heq]
  · rintro x ⟨hx, -⟩ hr
    exact h.revoked x hx hr
  · intro x hx
    obtain ⟨y, hy, hr, hrevokes⟩ := h.revocation x hx
    refine ⟨y, ⟨hy, fun heq => ?_⟩, hr, hrevokes⟩
    rw [hunique y hy heq, hepoch] at hr
    cases hr
  · rintro x ⟨hx, -⟩ hr
    exact h.settled x hx hr

/-- A device that is not a member has no active certificate. -/
theorem Agrees.filter_idle (h : Agrees crypto id key D active revocations)
    (hunique : ∀ x, D x → x.id = d.id → x = d) (hm : ¬ d.Member) :
    (active.filter fun c => !decide (c.body.deviceId = d.id.bytes)) = active := by
  simp only [List.filter_eq_self, Bool.not_eq_true', decide_eq_false_iff_not]
  intro c hc heq
  obtain ⟨x, hx, hmember, hcertified⟩ := h.active c hc
  have hxd : x = d := hunique x hx (Block.ext (hcertified.device.symm.trans heq))
  exact hm (hxd ▸ hmember)

/-- The active certificate of a member is its stored one. -/
theorem Agrees.mem_active_iff (h : Agrees crypto id key D active revocations)
    (hunique : ∀ x, D x → x.id = d.id → x = d) (hc : c ∈ active)
    (hcertified : Certified crypto id key d c) (c' : SignedDeviceCertificate) :
    c' ∈ active ↔
      c' ∈ (active.filter fun c => !decide (c.body.deviceId = d.id.bytes)) ++ [c] := by
  simp only [List.mem_append, List.mem_filter, Bool.not_eq_true', decide_eq_false_iff_not,
    List.mem_singleton]
  constructor
  · intro hc'
    by_cases heq : c'.body.deviceId = d.id.bytes
    · obtain ⟨x, hx, -, hcertified'⟩ := h.active c' hc'
      obtain rfl := hunique x hx (Block.ext (hcertified'.device.symm.trans heq))
      obtain ⟨encoded, hstored, hencode⟩ := hcertified'.stored
      refine Or.inr (hcertified.eq ?_)
      rw [hstored, Option.getD_some]
      exact decodeSignedDeviceCertificate_iff.mpr hencode
    · exact Or.inl ⟨hc', heq⟩
  · rintro (⟨hc', -⟩ | rfl)
    · exact hc'
    · exact hc

end Sets

/-! ### Replacing a device -/

section Tables

variable {crypto : Crypto} {id : WorkspaceID} {key : Block 32} {devices devices' : Table Device.id}
  {d d' : Device} {active active' own : List SignedDeviceCertificate}
  {revocations revocations' ownRevocations : List RevokedCertificate}

theorem Agrees.unique (hd : d ∈ devices.rows) : ∀ x, x ∈ devices.rows → x.id = d.id → x = d :=
  fun _ hx heq => Table.eq_of_key hx hd heq

/-- The others keep what they have, and `d'` brings its own. -/
theorem Agrees.replace (h : Agrees crypto id key (· ∈ devices.rows) active revocations)
    (hepoch : d.revokedMembershipEpoch = none) (hreplaces : devices.Replaces devices' d d')
    (hown : Agrees crypto id key (· = d') own ownRevocations) :
    Agrees crypto id key (· ∈ devices'.rows)
      ((active.filter fun c => !decide (c.body.deviceId = d.id.bytes)) ++ own)
      (revocations ++ ownRevocations) := by
  refine ((h.remove (Agrees.unique hreplaces.mem) hepoch).union hown).congr (fun x => ?_)
    (fun _ => Iff.rfl) (fun _ => Iff.rfl)
  rw [hreplaces.rows x, or_comm]

/-- A device that is idle before and after. -/
theorem Agrees.replace_idle (h : Agrees crypto id key (· ∈ devices.rows) active revocations)
    (hreplaces : devices.Replaces devices' d d') (hd : d.Idle) (hd' : d'.Idle) :
    Agrees crypto id key (· ∈ devices'.rows) active revocations := by
  have hreplace := h.replace hd.2 hreplaces (.idle hd')
  rwa [List.append_nil, List.append_nil, h.filter_idle (Agrees.unique hreplaces.mem) hd.1]
    at hreplace

/-- The roster lists no certificate of a device that is not a member. -/
theorem Agrees.not_active (h : Agrees crypto id key (· ∈ devices.rows) active revocations)
    (hd : d ∈ devices.rows) (hmember : ¬ d.Member) :
    d.id.bytes ∉ active.map (·.body.deviceId) := by
  intro hmem
  obtain ⟨c, hc, hid⟩ := List.mem_map.mp hmem
  obtain ⟨x, hx, hxm, hcertified⟩ := h.active c hc
  have hxd : x = d := Table.eq_of_key hx hd (Block.ext (hcertified.device.symm.trans hid))
  exact hmember (hxd ▸ hxm)

/-- Sorting the lists changes nothing. -/
theorem Agrees.sorted {D : Device → Prop} (h : Agrees crypto id key D active revocations)
    (hactive : active'.Perm active) (hrevocations : revocations'.Perm revocations) :
    Agrees crypto id key D active' revocations' :=
  h.congr (fun _ => Iff.rfl) (fun _ => hactive.mem_iff) (fun _ => hrevocations.mem_iff)

end Tables

/-! ### Reissuing every certificate -/

section Reissue

variable {crypto : Crypto} {id : WorkspaceID} {key newKey : Block 32} {d : Device}
  {input : RotateWorkspaceAuthorityInput}

/-- The row that the loop writes. -/
def Device.reissuedWith (d : Device) (id : Block 32) (encoded : Bytes) (now : Time) : Device :=
  { d with
    certificateID := some id, signedCertificate := some encoded
    approvedAtMs := some (unixMillis now) }

theorem Certified.reissued {old new : SignedDeviceCertificate} {epoch : Nat} {block : Block 32}
    {encoded : Bytes} (h : Certified crypto id key d old)
    (hbody : new.certificate = some (reissuedCertificate old.body input.now epoch))
    (hencode : encodeSignedDeviceCertificate crypto new newKey.bytes = .ok encoded)
    (hblock : block.bytes = new.certificateId) :
    Certified crypto id newKey (d.reissuedWith block encoded input.now) new where
  stored := ⟨encoded, rfl, hencode⟩
  certificateID := by simp [Device.reissuedWith, hblock]
  workspace := by simp [SignedDeviceCertificate.body, hbody, reissuedCertificate, ← h.workspace]
  device := by simp [SignedDeviceCertificate.body, hbody, reissuedCertificate, Device.reissuedWith,
    ← h.device]
  name := by simp [SignedDeviceCertificate.body, hbody, reissuedCertificate, Device.reissuedWith,
    ← h.name]
  identity := by simp [SignedDeviceCertificate.body, hbody, reissuedCertificate,
    Device.reissuedWith, ← h.identity]

/-- One pass of the loop, for a certificate that a member stores. -/
theorem reissueCertificates_cons {epoch : Nat} {old : SignedDeviceCertificate}
    {rest active : List SignedDeviceCertificate} {devices devices' : Table Device.id}
    (hok : reissueCertificates crypto input epoch (old :: rest) devices = .ok (devices', active))
    (hmem : d ∈ devices.rows) (hmember : d.Member) (h : Certified crypto id key d old) :
    ∃ new block encoded devices₁ active₁,
      new.certificate = some (reissuedCertificate old.body input.now epoch) ∧
      encodeSignedDeviceCertificate crypto new (publicKey input.newAuthorityPrivateKey) =
        .ok encoded ∧ block.bytes = new.certificateId ∧
      devices.Replaces devices₁ d (d.reissuedWith block encoded input.now) ∧
      reissueCertificates crypto input epoch rest devices₁ = .ok (devices', active₁) ∧
      active = new :: active₁ := by
  simp only [reissueCertificates, bind_eq_ok, exists_unit, rethrow_eq_ok, require_eq_ok,
    reject_eq_ok, pure_eq_ok, Prod.mk.injEq, ne_eq, Decidable.not_not] at hok
  obtain ⟨new, hsign, encoded, hencode, block, hblock, -, ⟨devices₂, active₁⟩, hrest, rfl, rfl⟩ :=
    hok
  refine ⟨new, block, encoded, _, active₁, signDeviceCertificate_ok hsign, hencode,
    Block.check_eq_some.mp hblock, ?_, hrest, rfl⟩
  refine Table.update_replaces _ hmem ?_ fun x hx => ?_
  · simp [h.device, h.certificateID, hmember.1, hmember.2]
  · simp only [decide_eq_true_eq] at hx
    exact Block.ext (hx.1.trans h.device)

theorem Agrees.epoch_none {D : Device → Prop} {active : List SignedDeviceCertificate}
    {revocations : List RevokedCertificate} (h : Agrees crypto id key D active revocations)
    (hd : D d) (hrevoked : d.revokedAtMs = none) : d.revokedMembershipEpoch = none := by
  cases he : d.revokedMembershipEpoch with
  | none => rfl
  | some e =>
    have := h.settled d hd (by simp [he])
    simp [hrevoked] at this

/-- Before the loop treats `todo`, the devices of `Old` agree with it under the old key, and those
of `New` with what it has done under the new one. -/
theorem reissueCertificates_agrees (hnew : newKey.bytes = publicKey input.newAuthorityPrivateKey)
    {epoch : Nat} {revocations : List RevokedCertificate} {todo : List SignedDeviceCertificate} :
    ∀ {done active : List SignedDeviceCertificate} {devices devices' : Table Device.id}
      {Old New : Device → Prop}, (todo.map (·.body.deviceId)).Pairwise (· ≠ ·) →
      Agrees crypto id key Old todo revocations → Agrees crypto id newKey New done [] →
      (∀ x y, Old x → New y → x.id ≠ y.id) → (∀ x, x ∈ devices.rows ↔ Old x ∨ New x) →
      reissueCertificates crypto input epoch todo devices = .ok (devices', active) →
      Agrees crypto id newKey (· ∈ devices'.rows) (done ++ active) revocations := by
  induction todo with
  | nil =>
    intro done active devices devices' Old New _ hold hnews _ hrows hok
    cases hok
    -- no member is left, and the key plays no part for the others
    have hrest : Agrees crypto id newKey Old [] revocations := by
      refine ⟨fun d hd hm => ?_, by simp, hold.revoked, hold.revocation, hold.settled⟩
      obtain ⟨c, hc, -⟩ := hold.member d hd hm
      cases hc
    refine (hnews.union hrest).congr (fun x => ?_) (fun _ => Iff.rfl) (fun _ => by simp)
    rw [hrows x, or_comm]
  | cons old rest ih =>
    intro done active devices devices' Old New hdistinct hold hnews hdisjoint hrows hok
    obtain ⟨d, hd, hmember, hcertified⟩ := hold.active old List.mem_cons_self
    have hmem : d ∈ devices.rows := (hrows d).mpr (Or.inl hd)
    have hepoch := hold.epoch_none hd hmember.2
    obtain ⟨new, block, encoded, devices₁, active₁, hbody, hencode, hblock, hreplaces, hrest, rfl⟩ :=
      reissueCertificates_cons hok hmem hmember hcertified
    rw [← hnew] at hencode
    rw [List.map_cons, List.pairwise_cons] at hdistinct
    have hfilter : ((old :: rest).filter fun c => !decide (c.body.deviceId = d.id.bytes)) = rest := by
      rw [List.filter_cons_of_neg (by simp [hcertified.device])]
      simp only [List.filter_eq_self, Bool.not_eq_true', decide_eq_false_iff_not]
      intro c hc heq
      exact hdistinct.1 _ (List.mem_map_of_mem hc) (hcertified.device.trans heq.symm)
    have hremoved := hold.remove
      (fun x hx heq => Table.eq_of_key ((hrows x).mpr (Or.inl hx)) hmem heq) hepoch
    rw [hfilter] at hremoved
    have hown : Agrees crypto id newKey (· = d.reissuedWith block encoded input.now) [new] [] :=
      .certified hmember hepoch (hcertified.reissued hbody hencode hblock)
    have hresult := ih hdistinct.2 hremoved (hnews.union hown) ?_ ?_ hrest
    · simpa using hresult
    · rintro x y ⟨hx, hne⟩ (hy | rfl)
      · exact hdisjoint x y hx hy
      · exact hne
    · intro x
      have hother : New x → x.id ≠ d.id := fun hx => (hdisjoint d x hd hx).symm
      rw [hreplaces.rows x, hrows x]
      tauto

theorem reissued_agrees (hnew : newKey.bytes = publicKey input.newAuthorityPrivateKey)
    {epoch : Nat} {revocations : List RevokedCertificate}
    {todo active : List SignedDeviceCertificate} {devices devices' : Table Device.id}
    (hordered : (todo.map (·.body.deviceId)).Pairwise (· < ·))
    (h : Agrees crypto id key (· ∈ devices.rows) todo revocations)
    (hok : reissueCertificates crypto input epoch todo devices = .ok (devices', active)) :
    Agrees crypto id newKey (· ∈ devices'.rows) active revocations := by
  have hdistinct : (todo.map (·.body.deviceId)).Pairwise (· ≠ ·) := by
    refine hordered.imp fun hlt heq => ?_
    rw [heq] at hlt
    exact List.lt_irrefl _ hlt
  have hnone : Agrees crypto id newKey (fun _ => False) [] [] :=
    ⟨fun _ hd => hd.elim, by simp, fun _ hd => hd.elim, by simp, fun _ hd => hd.elim⟩
  exact reissueCertificates_agrees hnew hdistinct h hnone (fun _ _ _ hy => hy.elim) (by simp) hok

end Reissue

/-! ### The latest roster -/

/-- The certificates and revocations of the latest roster, which are none without a roster. -/
inductive Current (crypto : Crypto) (w : Workspace) :
    List SignedDeviceCertificate → List RevokedCertificate → Prop
  | none : latestRoster w.rosters.rows = none → Current crypto w [] []
  | roster (row : RosterRow) (m : SignedWorkspaceRoster) :
      latestRoster w.rosters.rows = some row →
      decodeSignedWorkspaceRoster crypto row.signedRoster w.authorityPublicKey.bytes = .ok m →
      Current crypto w m.body.activeCertificates m.body.revocations

/-- The registry of a workspace agrees with its latest roster. -/
def Workspace.Agreed (crypto : Crypto) (w : Workspace) : Prop :=
  ∃ active revocations, Current crypto w active revocations ∧
    Agrees crypto w.id w.authorityPublicKey (· ∈ w.devices.rows) active revocations

section Steps

variable {crypto : Crypto} {initial : Block 32} {w w' : Workspace}

theorem Current.ordered {active : List SignedDeviceCertificate}
    {revocations : List RevokedCertificate} (h : Current crypto w active revocations) :
    (active.map (·.body.deviceId)).Pairwise (· < ·) ∧
      (revocations.map (·.certificateId)).Pairwise (· < ·) := by
  cases h with
  | none => exact ⟨.nil, .nil⟩
  | roster row m hrow hm =>
    have hvalid := (encodeSignedWorkspaceRoster_iff.mp (decodeSignedWorkspaceRoster_iff.mp hm)).1
    obtain ⟨-, -, roster, encoded, hroster, hvalid, -⟩ :=
      validateSignedWorkspaceRoster_iff.mp hvalid
    simp only [SignedWorkspaceRoster.body, hroster, Option.getD_some]
    exact ⟨hvalid.active_order, hvalid.revocations_order⟩

theorem Current.unique {active active' : List SignedDeviceCertificate}
    {revocations revocations' : List RevokedCertificate}
    (h : Current crypto w active revocations) (h' : Current crypto w active' revocations') :
    active' = active ∧ revocations' = revocations := by
  cases h with
  | none hnone =>
    cases h' with
    | none => exact ⟨rfl, rfl⟩
    | roster row m hrow _ =>
      rw [hnone] at hrow
      cases hrow
  | roster row m hrow hm =>
    cases h' with
    | none hnone =>
      rw [hnone] at hrow
      cases hrow
    | roster row' m' hrow' hm' =>
      rw [hrow] at hrow'
      cases hrow'
      rw [hm] at hm'
      cases hm'
      exact ⟨rfl, rfl⟩

/-- A draft starts from what the latest roster says. -/
theorem Drafts.current (h : w.Chained crypto initial) {draft : WorkspaceRosterDraft}
    (hd : Drafts crypto w draft) : Current crypto w draft.activeCertificates draft.revocations := by
  cases hd with
  | first hnil => exact .none (by simp [hnil, latestRoster])
  | next row m hlast hm _ =>
    rw [← h.rosters.latest] at hlast
    exact .roster row m hlast hm.decodes

theorem Drafts.agrees (h : w.Chained crypto initial) (hagreed : w.Agreed crypto)
    {draft : WorkspaceRosterDraft} (hd : Drafts crypto w draft) :
    Agrees crypto w.id w.authorityPublicKey (· ∈ w.devices.rows) draft.activeCertificates
        draft.revocations ∧
      (draft.activeCertificates.map (·.body.deviceId)).Pairwise (· < ·) := by
  obtain ⟨active, revocations, hcurrent, hagrees⟩ := hagreed
  obtain ⟨hactive, hrevocations⟩ := hcurrent.unique (hd.current h)
  rw [hactive, hrevocations]
  exact ⟨hagrees, hcurrent.ordered.1⟩

theorem Current.withDevices {active : List SignedDeviceCertificate}
    {revocations : List RevokedCertificate} (h : Current crypto w active revocations)
    (devices : Table Device.id) : Current crypto { w with devices } active revocations := by
  cases h with
  | none hnone => exact .none hnone
  | roster row m hrow hm => exact .roster row m hrow hm

theorem Published.current (h' : w'.Chained crypto initial) {body : WorkspaceRoster}
    (h : Published crypto w w' body) :
    Current crypto w' body.activeCertificates body.revocations := by
  obtain ⟨row, m, hrows, hm, hbody⟩ := h
  have hlatest : latestRoster w'.rosters.rows = some row := by
    rw [h'.rosters.latest, hrows, List.getLast?_concat]
  have hcurrent := Current.roster row m hlatest hm.decodes
  simpa only [SignedWorkspaceRoster.body, hbody, Option.getD_some] using hcurrent

theorem withoutDevice_ok {d : Device} {active others : List SignedDeviceCertificate}
    (h : withoutDevice crypto w d active = .ok others) :
    others = active.filter fun c => !decide (c.body.deviceId = d.id.bytes) := by
  simp only [withoutDevice, bind_eq_ok, exists_unit, pure_eq_ok] at h
  exact h.2.2.symm

theorem sortCertificates_perm (certificates : List SignedDeviceCertificate) :
    (sortCertificates certificates).Perm certificates :=
  List.perm_insertionSort _ _

theorem sortRevocations_perm (revocations : List RevokedCertificate) :
    (sortRevocations revocations).Perm revocations :=
  List.perm_insertionSort _ _

theorem approve_certified {input : ApprovePendingDevice} {d : Device} {epoch : Nat}
    {certificate : SignedDeviceCertificate} {id : Block 32} {encoded : Bytes}
    (hbody : certificate.certificate = some (joiningCertificate crypto w d input epoch))
    (hencode : encodeSignedDeviceCertificate crypto certificate w.authorityPublicKey.bytes =
      .ok encoded) (hid : id.bytes = certificate.certificateId) :
    Certified crypto w.id w.authorityPublicKey (d.approvedWith id encoded input.now)
      certificate where
  stored := ⟨encoded, rfl, hencode⟩
  certificateID := by simp [Device.approvedWith, hid]
  workspace := by simp [SignedDeviceCertificate.body, hbody, joiningCertificate]
  device := by
    simp [SignedDeviceCertificate.body, hbody, joiningCertificate, Device.approvedWith]
  name := by
    simp [SignedDeviceCertificate.body, hbody, joiningCertificate, Device.approvedWith]
  identity := by
    simp [SignedDeviceCertificate.body, hbody, joiningCertificate, Device.approvedWith]

theorem rename_certified {input : RenameDeviceInput} {d : Device} {epoch : Nat}
    {previous replacement : SignedDeviceCertificate} {id : Block 32} {encoded : Bytes}
    (hprevious : Certified crypto w.id w.authorityPublicKey d previous)
    (hbody : replacement.certificate = some (renamedCertificate previous.body input epoch))
    (hencode : encodeSignedDeviceCertificate crypto replacement w.authorityPublicKey.bytes =
      .ok encoded) (hid : id.bytes = replacement.certificateId) :
    Certified crypto w.id w.authorityPublicKey (d.renamedWith input.displayName id encoded)
      replacement where
  stored := ⟨encoded, rfl, hencode⟩
  certificateID := by simp [Device.renamedWith, hid]
  workspace := by
    simp [SignedDeviceCertificate.body, hbody, renamedCertificate, ← hprevious.workspace]
  device := by
    simp [SignedDeviceCertificate.body, hbody, renamedCertificate, Device.renamedWith,
      ← hprevious.device]
  name := by simp [SignedDeviceCertificate.body, hbody, renamedCertificate, Device.renamedWith]
  identity := by
    simp [SignedDeviceCertificate.body, hbody, renamedCertificate, Device.renamedWith,
      ← hprevious.identity]

/-- Every action keeps the agreement. -/
theorem WorkspaceStep.agreed {action : Action} (h : w.Chained crypto initial)
    (hagreed : w.Agreed crypto) (hstep : WorkspaceStep crypto w action w')
    (h' : w'.Chained crypto initial) : w'.Agreed crypto := by
  cases hstep with
  | register d devices hd hfresh hrows =>
    obtain ⟨active, revocations, hcurrent, hagrees⟩ := hagreed
    have hidle : d.Idle := ⟨by simp [Device.Member, hd.state], hd.epoch⟩
    exact ⟨active, revocations, hcurrent.withDevices _,
      (hagrees.union (.idle hidle)).congr (by simp [hrows]) (by simp) (by simp)⟩
  | prove d now devices hstate hrevoked hreplaces =>
    obtain ⟨active, revocations, hcurrent, hagrees⟩ := hagreed
    have hepoch := hagrees.epoch_none hreplaces.mem hrevoked
    refine ⟨active, revocations, hcurrent.withDevices _, hagrees.replace_idle hreplaces ?_ ?_⟩
    · exact ⟨by simp [Device.Member, hstate], hepoch⟩
    · exact ⟨by simp [Device.Member], hepoch⟩
  | rotateCredential d hash devices hstate hrevoked hreplaces =>
    obtain ⟨active, revocations, hcurrent, hagrees⟩ := hagreed
    have hepoch := hagrees.epoch_none hreplaces.mem hrevoked
    obtain ⟨c, hc, hcertified⟩ := hagrees.member d hreplaces.mem ⟨hstate, hrevoked⟩
    refine ⟨active, revocations, hcurrent.withDevices _, (hagrees.replace hepoch hreplaces
      (.certified ⟨hstate, hrevoked⟩ hepoch ⟨hcertified.stored, hcertified.certificateID,
        hcertified.workspace, hcertified.device, hcertified.name, hcertified.identity⟩)).congr
      (fun _ => Iff.rfl) ?_ (by simp)⟩
    exact hagrees.mem_active_iff (Agrees.unique hreplaces.mem) hc hcertified
  | approve a devices rosters ha =>
    obtain ⟨hagrees, -⟩ := ha.draft.agrees h hagreed
    have hepoch := hagrees.epoch_none ha.replaces.mem ha.unrevoked
    have hown : Agrees crypto w.id w.authorityPublicKey
        (· = a.device.approvedWith a.id a.encoded a.input.now) [a.certificate] [] :=
      .certified ⟨rfl, ha.unrevoked⟩ hepoch (approve_certified ha.body ha.encode ha.id)
    have hnext := hagrees.replace hepoch ha.replaces hown
    rw [hagrees.filter_idle (Agrees.unique ha.replaces.mem) (by simp [Device.Member, ha.state]),
      List.append_nil] at hnext
    exact ⟨_, _, ha.published.current h', hnext.sorted (sortCertificates_perm _) (.refl _)⟩
  | rename r devices rosters hr =>
    obtain ⟨hagrees, -⟩ := hr.draft.agrees h hagreed
    have hepoch := hagrees.epoch_none hr.replaces.mem hr.member.2
    obtain ⟨c, -, hcertified⟩ := hagrees.member r.device hr.replaces.mem hr.member
    have hprevious := hcertified.eq (storedCertificate_ok hr.stored).1
    have hown : Agrees crypto w.id w.authorityPublicKey
        (· = r.device.renamedWith r.input.displayName r.id r.encoded) [r.replacement] [] :=
      .certified hr.member hepoch
        (rename_certified (hprevious ▸ hcertified) hr.body hr.encode hr.id)
    have hnext := hagrees.replace hepoch hr.replaces hown
    rw [← withoutDevice_ok hr.others, List.append_nil] at hnext
    exact ⟨_, _, hr.published.current h', hnext.sorted (sortCertificates_perm _) (.refl _)⟩
  | revokePending d now devices hstate hrevoked hreplaces =>
    obtain ⟨active, revocations, hcurrent, hagrees⟩ := hagreed
    have hepoch := hagrees.epoch_none hreplaces.mem hrevoked
    refine ⟨active, revocations, hcurrent.withDevices _, hagrees.replace_idle hreplaces ?_ ?_⟩
    · exact ⟨by simp [Device.Member, hstate], hepoch⟩
    · exact ⟨by simp [Device.Member], hepoch⟩
  | revoke r devices rosters hr =>
    obtain ⟨hagrees, -⟩ := hr.draft.agrees h hagreed
    have hepoch := hagrees.epoch_none hr.replaces.mem hr.member.2
    have hown : Agrees crypto w.id w.authorityPublicKey
        (· = r.device.revokedWith r.draft.epoch r.input.now) []
        [revocationOf r.device r.input.now] := by
      obtain ⟨block, hblock⟩ := Option.isSome_iff_exists.mp hr.certificateID
      exact .revokes rfl rfl ⟨rfl, by simp [revocationOf, Device.revokedWith, hblock]⟩
    have hnext := hagrees.replace hepoch hr.replaces hown
    rw [← withoutDevice_ok hr.others, List.append_nil] at hnext
    exact ⟨_, _, hr.published.current h', hnext.sorted (.refl _) (sortRevocations_perm _)⟩
  | rotateAuthority a devices rosters transitions ha =>
    obtain ⟨hagrees, hordered⟩ := ha.draft.agrees h hagreed
    exact ⟨_, _, ha.published.current h', reissued_agrees ha.newKey hordered hagrees ha.reissue⟩

end Steps

theorem newWorkspace_agreed {crypto : Crypto} (id : WorkspaceID) (key : Block 32) (now : Time) :
    (newWorkspace id key now).Agreed crypto := by
  refine ⟨[], [], .none rfl, ?_⟩
  constructor <;> simp [newWorkspace, Table.empty]

/-- In every registry that calls lead to, the active certificates of the latest roster are those
that the members store, one for each member, and its revocations are those of the devices that a
roster revoked. -/
theorem registry_agrees_with_roster (crypto : Crypto) (calls : List Call) (w : Workspace)
    (hw : w ∈ ((store crypto).run .empty calls).workspaces.rows) :
    ∃ active revocations, Current crypto w active revocations ∧
      (active.map (·.body.deviceId)).Pairwise (· < ·) ∧
      (revocations.map (·.certificateId)).Pairwise (· < ·) ∧
      Agrees crypto w.id w.authorityPublicKey (· ∈ w.devices.rows) active revocations := by
  obtain ⟨-, active, revocations, hcurrent, hagrees⟩ :=
    store_keeps newWorkspace_agreed WorkspaceStep.agreed calls w hw
  exact ⟨active, revocations, hcurrent, hcurrent.ordered.1, hcurrent.ordered.2, hagrees⟩

theorem registry_agrees_with_roster_rotation :
    ∃ w ∈ ((store sampleCrypto).run .empty sampleCalls).workspaces.rows,
    w.devices.rows.length = 1 ∧ w.rosters.rows.length = 2 ∧
    ∃ active revocations, Current sampleCrypto w active revocations ∧
      (active.map (·.body.deviceId)).Pairwise (· < ·) ∧
      (revocations.map (·.certificateId)).Pairwise (· < ·) ∧
      Agrees sampleCrypto w.id w.authorityPublicKey (· ∈ w.devices.rows) active revocations := by
  obtain ⟨w, hw, hdevices, hrosters, -⟩ := sampleCalls_workspace
  exact ⟨w, hw, hdevices, hrosters,
    registry_agrees_with_roster sampleCrypto sampleCalls w hw⟩

end SevenMirror.Admission
