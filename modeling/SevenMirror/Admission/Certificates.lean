import SevenMirror.Admission.Later
import SevenMirror.Admission.MemberTable
import SevenMirror.Admission.Rows

/-! The certificates that the rows of `devices` keep.  A device that was ever approved stores its last
certificate, also after its revocation; the certificate came with a roster of the workspace, and it
does not expire. -/

namespace SevenMirror.Admission

open Lib MembershipCodec

/-- The device stores a certificate that does not expire, of an epoch up to `epoch`. -/
def Kept (crypto : Crypto) (id : WorkspaceID) (epoch : Nat) (d : Device) : Prop :=
  ∃ key c, Certified crypto id key d c ∧ c.body.membershipEpoch.toNat ≤ epoch ∧
    c.body.expiresAtUnixMs = 0

/-- Every device with a certificate keeps it. -/
def Workspace.Keeping (crypto : Crypto) (w : Workspace) : Prop :=
  ∀ d ∈ w.devices.rows, d.certificateID.isSome → Kept crypto w.id w.rosters.rows.length d

section Kept

variable {crypto : Crypto} {initial : Block 32} {id : WorkspaceID} {key key' : Block 32}
  {w w' : Workspace} {d d' : Device} {c c' : SignedDeviceCertificate} {epoch epoch' : Nat}

/-- The stored text determines the certificate, whatever key it is under. -/
theorem Certified.unique (h : Certified crypto id key d c) (h' : Certified crypto id key' d c') :
    c = c' := by
  obtain ⟨encoded, hstored, hencode⟩ := h.stored
  obtain ⟨encoded', hstored', hencode'⟩ := h'.stored
  obtain ⟨hvalid, htext⟩ := encodeSignedDeviceCertificate_iff.mp hencode
  obtain ⟨hvalid', htext'⟩ := encodeSignedDeviceCertificate_iff.mp hencode'
  rw [hstored] at hstored'
  cases hstored'
  have hread := decodeCanonical_encode (signedCertificate_plain hvalid) htext
  rw [decodeCanonical_encode (signedCertificate_plain hvalid') htext'] at hread
  exact (Except.ok.inj hread).symm

theorem Certified.valid (h : Certified crypto id key d c) :
    validateSignedDeviceCertificate crypto c key.bytes = .ok () := by
  obtain ⟨encoded, -, hencode⟩ := h.stored
  exact (encodeSignedDeviceCertificate_iff.mp hencode).1

theorem Certified.isSome (h : Certified crypto id key d c) : d.certificateID.isSome := by
  have hid := h.certificateID
  cases hcolumn : d.certificateID with
  | none => simp [hcolumn] at hid
  | some block => rfl

/-- The columns that a certificate speaks of. -/
theorem Certified.columns (h : Certified crypto id key d c) (hid : d'.id = d.id)
    (hname : d'.deviceName = d.deviceName) (hkey : d'.e2eePublicKey = d.e2eePublicKey)
    (hcolumn : d'.certificateID = d.certificateID)
    (hsigned : d'.signedCertificate = d.signedCertificate) : Certified crypto id key d' c where
  stored := by
    rw [hsigned]
    exact h.stored
  certificateID := by
    rw [hcolumn]
    exact h.certificateID
  workspace := h.workspace
  device := by
    rw [hid]
    exact h.device
  name := by
    rw [hname]
    exact h.name
  identity := by
    rw [hkey]
    exact h.identity

theorem Kept.mono (h : Kept crypto id epoch d) (hle : epoch ≤ epoch') : Kept crypto id epoch' d := by
  obtain ⟨key, c, hcertified, hepoch, hexpires⟩ := h
  exact ⟨key, c, hcertified, Nat.le_trans hepoch hle, hexpires⟩

/-- What the certificate of a kept row says. -/
theorem Kept.certified (h : Kept crypto id epoch d) (hd : Certified crypto id key d c) :
    c.body.membershipEpoch.toNat ≤ epoch ∧ c.body.expiresAtUnixMs = 0 := by
  obtain ⟨key', c', hcertified, hbody⟩ := h
  rw [hd.unique hcertified]
  exact hbody

/-- A certificate that an action issued with the next roster. -/
theorem Drafts.kept {draft : WorkspaceRosterDraft} {body : WorkspaceRoster}
    (h : w.Chained crypto initial) (hdraft : Drafts crypto w draft)
    (hpublished : Published crypto w w' body) (hcertified : Certified crypto id key d c)
    (hepoch : c.body.membershipEpoch = UInt64.ofNat draft.epoch)
    (hexpires : c.body.expiresAtUnixMs = 0) : Kept crypto id w'.rosters.rows.length d := by
  obtain ⟨row, m, hrows, -⟩ := hpublished
  refine ⟨key, c, hcertified, ?_, hexpires⟩
  rw [hepoch, hdraft.epoch_toNat, hdraft.epoch_eq h, hrows, List.length_append,
    List.length_singleton, Nat.add_comm]

/-- After a rotation every member keeps the certificate that was reissued to it. -/
theorem AuthorityRotation.Takes.kept {a : AuthorityRotation} {devices : Table Device.id}
    {rosters : Table RosterRow.epoch} {transitions : Table TransitionRow.epoch}
    (ha : a.Takes crypto w devices rosters transitions) (h : w.Chained crypto initial)
    (hagreed : w.Agreed crypto) (hkept : w.Keeping crypto)
    (hw' : w' = { w with
      devices, rosters, transitions, authorityPublicKey := a.newKey
      authorityEpoch := w.authorityEpoch + 1, authorityTransitionDigest := a.digest })
    (h' : w'.Chained crypto initial) (hagreed' : w'.Agreed crypto) (hd' : d' ∈ w'.devices.rows)
    (hmember : d'.Member) : Kept crypto w'.id w'.rosters.rows.length d' := by
  obtain ⟨active, revocations, hcurrent, hagrees⟩ := hagreed'
  have hpublished := ha.published
  rw [← hw'] at hpublished
  obtain ⟨rfl, -⟩ := (hpublished.current h').unique hcurrent
  obtain ⟨c, hc, hcertified⟩ := hagrees.member d' hd' hmember
  obtain ⟨old, hold, hbody, -⟩ := exists_of_forall₂ (reissueCertificates_each ha.reissue) hc
  obtain ⟨hagreesOld, -⟩ := ha.draft.agrees h hagreed
  obtain ⟨d, hd, -, hcertifiedOld⟩ := hagreesOld.active old hold
  have hexpires := ((hkept d hd hcertifiedOld.isSome).certified hcertifiedOld).2
  refine ha.draft.kept h hpublished hcertified ?_ ?_
  · rw [hbody]
    rfl
  · rw [hbody]
    exact hexpires

/-- Every action keeps the certificates. -/
theorem WorkspaceStep.keeping {action : Action} (h : w.Chained crypto initial)
    (hagreed : w.Agreed crypto) (hsound : ∀ d ∈ w.devices.rows, d.Sound crypto)
    (hkept : w.Keeping crypto) (hstep : WorkspaceStep crypto w action w')
    (h' : w'.Chained crypto initial) : w'.Keeping crypto := by
  have hagreed' := hstep.agreed h hagreed h'
  have hsound' := hstep.sound hsound
  have hlength : w.rosters.rows.length ≤ w'.rosters.rows.length := by
    obtain ⟨more, hmore⟩ := (hstep.extends h).rosters
    rw [hmore, List.length_append]
    exact Nat.le_add_right _ _
  have hid := hstep.id_eq
  -- the rows that the action leaves alone
  have old : ∀ d ∈ w.devices.rows, d.certificateID.isSome →
      Kept crypto w'.id w'.rosters.rows.length d := by
    intro d hd hsome
    rw [hid]
    exact (hkept d hd hsome).mono hlength
  -- a row whose certificate stays
  have same {r r' : Device} (hr : r ∈ w.devices.rows)
      (hcertified : ∀ key c, Certified crypto w'.id key r c → Certified crypto w'.id key r' c)
      (hsome : r'.certificateID.isSome → r.certificateID.isSome) (hr' : r'.certificateID.isSome) :
      Kept crypto w'.id w'.rosters.rows.length r' := by
    obtain ⟨key, c, hc, hbody⟩ := old r hr (hsome hr')
    exact ⟨key, c, hcertified key c hc, hbody⟩
  cases hstep with
  | register d devices hd _ hrows =>
    intro x hx hsome
    rw [hrows, List.mem_append, List.mem_singleton] at hx
    rcases hx with hx | rfl
    · exact old x hx hsome
    · rw [hd.certificateID] at hsome
      cases hsome
  | prove d now devices _ _ hreplaces =>
    exact Replaces.forall_rows hreplaces old
      (same hreplaces.mem (fun _ _ hc => hc.columns rfl rfl rfl rfl rfl) id)
  | rotateCredential d hash devices _ _ hreplaces =>
    exact Replaces.forall_rows hreplaces old
      (same hreplaces.mem (fun _ _ hc => hc.columns rfl rfl rfl rfl rfl) id)
  | revokePending d now devices _ _ hreplaces =>
    exact Replaces.forall_rows hreplaces old
      (same hreplaces.mem (fun _ _ hc => hc.columns rfl rfl rfl rfl rfl) id)
  | revoke r devices rosters hr =>
    exact Replaces.forall_rows hr.replaces old
      (same hr.replaces.mem (fun _ _ hc => hc.columns rfl rfl rfl rfl rfl) id)
  | approve a devices rosters ha =>
    refine Replaces.forall_rows ha.replaces old fun _ => ?_
    refine ha.draft.kept h ha.published (approve_certified ha.body ha.encode ha.id) ?_ ?_
    · simp [SignedDeviceCertificate.body, ha.body, joiningCertificate]
    · simp [SignedDeviceCertificate.body, ha.body, joiningCertificate]
  | rename r devices rosters hr =>
    obtain ⟨hagrees, -⟩ := hr.draft.agrees h hagreed
    obtain ⟨c, -, hcertified⟩ := hagrees.member r.device hr.replaces.mem hr.member
    obtain rfl := hcertified.eq (storedCertificate_ok hr.stored).1
    have hexpires := ((hkept r.device hr.replaces.mem hcertified.isSome).certified hcertified).2
    refine Replaces.forall_rows hr.replaces old fun _ => ?_
    refine hr.draft.kept h hr.published (rename_certified hcertified hr.body hr.encode hr.id) ?_ ?_
    · simp [SignedDeviceCertificate.body, hr.body, renamedCertificate]
    · simpa [SignedDeviceCertificate.body, hr.body, renamedCertificate] using hexpires
  | rotateAuthority a devices rosters transitions ha =>
    intro d' hd' hsome
    have hrow := hsound' d' hd'
    by_cases hrevoked : d'.revokedAtMs.isSome
    · exact old d' (reissueCertificates_old ha.reissue hd' hrevoked) hsome
    · -- a row with a certificate that is not revoked is a member
      have happroved : d'.membershipState = .approved := by
        refine (hrow.certified.mp hsome).resolve_right fun hepoch => hrevoked ?_
        exact hrow.revoked.mpr (hrow.epoch hepoch)
      exact ha.kept h hagreed hkept rfl h' hagreed' hd' ⟨happroved, by simpa using hrevoked⟩

end Kept

/-- In every registry that calls lead to, every certificate is kept. -/
theorem Reachable.keeping {crypto : Crypto} {s : Registry} (hs : Reachable crypto s)
    {w : Workspace} (hw : w ∈ s.workspaces.rows) : w.Keeping crypto := by
  obtain ⟨calls, rfl⟩ := hs
  refine (store_keeps (P := fun w => w.Agreed crypto ∧ (∀ d ∈ w.devices.rows, d.Sound crypto) ∧
    w.Keeping crypto) ?_ ?_ calls w hw).2.2.2
  · exact fun id key now => ⟨newWorkspace_agreed id key now, fun _ hd => absurd hd List.not_mem_nil,
      fun _ hd => absurd hd List.not_mem_nil⟩
  · rintro w w' action initial h ⟨hagreed, hsound, hkept⟩ hstep h'
    exact ⟨hstep.agreed h hagreed h', hstep.sound hsound, hstep.keeping h hagreed hsound hkept h'⟩

end SevenMirror.Admission
