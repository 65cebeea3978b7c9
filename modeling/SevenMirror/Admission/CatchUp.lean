import SevenMirror.Admission.Authorization
import SevenMirror.Admission.MemberTable
import SevenMirror.Admission.Snapshot

/-! What a client can follow.  A device that has a roster reads on from it.  A device that has none
reads from the epoch of its certificate, and starts from the key that the workspace had when the
device registered; this works as long as its certificates are issued under that key. -/

namespace SevenMirror.Admission

open Lib MembershipCodec

/-! ### Reading on -/

/-- The last roster that the device may read: the latest one, or the one that revoked it. -/
def visibleCeiling (w : Workspace) (d : Device) : Nat :=
  d.revokedMembershipEpoch.getD w.rosters.rows.length

/-- The device has a certificate to read with: it is approved, or a roster revoked it. -/
def Device.Enrolled (d : Device) : Prop :=
  d.membershipState = .approved ∨
    d.membershipState = .revoked ∧ d.revokedMembershipEpoch.isSome

def Device.row (w : Workspace) (d : Device) : MemberRow where
  state := d.membershipState
  authorityPublicKey := w.authorityPublicKey
  signedCertificate := d.signedCertificate
  revokedMembershipEpoch := d.revokedMembershipEpoch

section Reads

variable {crypto : Crypto} {s : Registry} {input : MembershipRead} {initial : Block 32}
  {w : Workspace} {d : Device}

/-- The row that the read of an enrolled device with its token finds. -/
theorem Device.Sound.memberRow_enrolled (hsound : d.Sound crypto)
    (hw : s.find input.workspaceID = some w) (hd : w.devices.find input.deviceID = some d)
    (henrolled : d.Enrolled) (htoken : d.authTokenHash = crypto.sha256 input.authToken) :
    memberRow crypto input s = some (d.row w) := by
  have hreadable : d.readable = true := by
    rcases henrolled with hstate | ⟨hstate, hepoch⟩
    · simp [Device.readable, hstate, (hsound.unrevoked hstate).1]
    · simp [Device.readable, hstate, hepoch]
  exact memberRow_eq_some.mpr ⟨w, d, hw, hd, htoken, hreadable, rfl⟩

/-- The read of an enrolled device with its token, in one store. -/
theorem Device.Sound.eval_enrolled (hsound : d.Sound crypto)
    (hw : s.find input.workspaceID = some w) (hd : w.devices.find input.deviceID = some d)
    (henrolled : d.Enrolled) (htoken : d.authTokenHash = crypto.sha256 input.authToken)
    (hlength : input.authToken.length = authTokenBytes) (hafter : ¬ input.afterRosterEpoch < 0) :
    (readMembershipState crypto input).eval (answerMembership crypto input s) =
      memberView crypto input s (d.row w) := by
  have hstate : ¬ ((d.row w).state ≠ .revoked ∧ (d.row w).state ≠ .approved) := by
    rcases henrolled with hstate | ⟨hstate, -⟩ <;> simp [Device.row, hstate]
  rw [readMembershipState_eval, if_neg (by simp [hlength, hafter]),
    hsound.memberRow_enrolled hw hd henrolled htoken]
  simp only [if_neg hstate]

theorem Reachable.memberRow_enrolled (hs : Reachable crypto s)
    (hw : s.find input.workspaceID = some w) (hd : w.devices.find input.deviceID = some d)
    (henrolled : d.Enrolled) (htoken : d.authTokenHash = crypto.sha256 input.authToken) :
    memberRow crypto input s = some (d.row w) :=
  (hs.sound (Registry.find_eq_some.mp hw).1 d (Table.find_eq_some.mp hd).1).memberRow_enrolled hw hd
    henrolled htoken

theorem Reachable.eval_enrolled (hs : Reachable crypto s) (hw : s.find input.workspaceID = some w)
    (hd : w.devices.find input.deviceID = some d) (henrolled : d.Enrolled)
    (htoken : d.authTokenHash = crypto.sha256 input.authToken)
    (hlength : input.authToken.length = authTokenBytes) (hafter : ¬ input.afterRosterEpoch < 0) :
    (readMembershipState crypto input).eval (answerMembership crypto input s) =
      memberView crypto input s (d.row w) :=
  (hs.sound (Registry.find_eq_some.mp hw).1 d (Table.find_eq_some.mp hd).1).eval_enrolled hw hd
    henrolled htoken hlength hafter

/-- The read of an enrolled device with its token, where the page fits. -/
theorem Reachable.read_enrolled (hs : Reachable crypto s) (hw : s.find input.workspaceID = some w)
    (hd : w.devices.find input.deviceID = some d) (henrolled : d.Enrolled)
    (htoken : d.authTokenHash = crypto.sha256 input.authToken)
    (hlength : input.authToken.length = authTokenBytes) (hafter : ¬ input.afterRosterEpoch < 0)
    (hfits : readFits crypto input s = true) :
    (readMembershipState crypto input).alone (answerMembership crypto input s) false =
      some (memberView crypto input s (d.row w)) := by
  rw [readMembershipState_alone s hfits, hs.eval_enrolled hw hd henrolled htoken hlength hafter]

/-- The epoch that the caller gives is the one that it reads on from. -/
theorem queryAfterEpoch_given {epoch : Nat} (hepoch : input.afterRosterEpoch.toInt = epoch)
    (hpositive : 1 ≤ epoch) (certificate : Bytes) (key : Block 32) :
    queryAfterEpoch crypto input certificate key = .ok input.afterRosterEpoch := by
  have hne : input.afterRosterEpoch ≠ 0 := fun hzero => by
    rw [hzero, Int64.toInt_zero] at hepoch
    omega
  rw [queryAfterEpoch, if_neg hne]
  rfl

/-- A caller that gives none reads on from the roster before that of its certificate. -/
theorem queryAfterEpoch_own {c : SignedDeviceCertificate} {certificate : Bytes} {key : Block 32}
    (hafter : input.afterRosterEpoch = 0)
    (hdecode : decodeSignedDeviceCertificate crypto certificate key.bytes = .ok c)
    (hpositive : 1 ≤ c.body.membershipEpoch.toNat)
    (hbound : c.body.membershipEpoch.toNat ≤ maxInt64) :
    ∃ after, queryAfterEpoch crypto input certificate key = .ok after ∧
      after.toInt = (c.body.membershipEpoch.toNat - 1 : Nat) := by
  have hlow : ¬ c.body.membershipEpoch < 1 := by
    rw [UInt64.lt_iff_toNat_lt, UInt64.toNat_one]
    omega
  have hhigh : ¬ c.body.membershipEpoch > maxEpoch := by
    rw [gt_iff_lt, UInt64.lt_iff_toNat_lt]
    exact Nat.not_lt.mpr hbound
  refine ⟨c.body.membershipEpoch.toInt64 - 1, ?_, ?_⟩
  · simp only [queryAfterEpoch, hafter, if_true, hdecode, rethrow, ok_bind, reject, hlow, hhigh,
      or_self, if_false]
    rfl
  · rw [toInt_toInt64_sub_one hlow hhigh]
    omega

theorem afterRosterEpoch_nonneg {epoch : Nat} (hepoch : input.afterRosterEpoch.toInt = epoch) :
    ¬ input.afterRosterEpoch < 0 := by
  rw [Int64.lt_iff_toInt_lt, hepoch, Int64.toInt_zero]
  omega

/-- No transition is active after the latest roster. -/
theorem Workspace.Chained.within_beyond (h : w.Chained crypto initial) (low : Nat) {high : Nat}
    (hle : w.rosters.rows.length ≤ high) :
    transitionsWithin w.transitions.rows low high =
      transitionsWithin w.transitions.rows low w.rosters.rows.length := by
  refine List.filter_congr fun t ht => ?_
  have hactive := h.authority.activated t ht
  simp only [decide_eq_decide]
  omega

theorem Workspace.Chained.within_latest (h : w.Chained crypto initial) (low : Nat) :
    transitionsWithin w.transitions.rows low maxInt64 =
      transitionsWithin w.transitions.rows low w.rosters.rows.length :=
  h.within_beyond low h.length_le

/-- What is read up to the ceiling of the row is what is read up to the visible one. -/
theorem Workspace.Chained.ceiling_eq (h : w.Chained crypto initial) (low : Nat) :
    transitionsWithin w.transitions.rows low (d.row w).ceiling =
        transitionsWithin w.transitions.rows low (visibleCeiling w d) ∧
      keyInForce initial w.transitions.rows (d.row w).ceiling =
        keyInForce initial w.transitions.rows (visibleCeiling w d) := by
  unfold MemberRow.ceiling visibleCeiling Device.row
  cases d.revokedMembershipEpoch with
  | some epoch => exact ⟨rfl, rfl⟩
  | none =>
    refine ⟨h.within_latest low, ?_⟩
    simp only [Option.getD_none]
    rw [h.authority.key_current h.length_le, h.authority.key_current (Nat.le_refl _)]

theorem Reachable.ceiling_le (hs : Reachable crypto s) (hw : w ∈ s.workspaces.rows)
    (h : w.Chained crypto initial) (hd : d ∈ w.devices.rows) :
    visibleCeiling w d ≤ w.rosters.rows.length := by
  unfold visibleCeiling
  cases hepoch : d.revokedMembershipEpoch with
  | none => exact Nat.le_refl _
  | some epoch => exact (hs.recorded hw h d hd epoch hepoch).epoch_le

end Reads

/-- An enrolled device that has roster `epoch` reads on from it: the transitions lead from the key of
that roster to the key of its ceiling, and the rosters follow the one it has, each under the key of
its epoch. -/
theorem enrolled_device_reads_on (crypto : Crypto) (s : Registry) (hs : Reachable crypto s)
    (input : MembershipRead) (w : Workspace) (hw : s.find input.workspaceID = some w) (d : Device)
    (hd : w.devices.find input.deviceID = some d) (henrolled : d.Enrolled)
    (htoken : d.authTokenHash = crypto.sha256 input.authToken)
    (hlength : input.authToken.length = authTokenBytes) (epoch : Nat)
    (hepoch : input.afterRosterEpoch.toInt = epoch) (hpositive : 1 ≤ epoch)
    (hceiling : epoch ≤ visibleCeiling w d)
    (hcount : (transitionsWithin w.transitions.rows epoch (visibleCeiling w d)).length ≤
      maxAuthorityTransitions)
    (hfits : readFits crypto input s = true) :
    ∃ initial view, w.Chained crypto initial ∧
      (readMembershipState crypto input).alone (answerMembership crypto input s) false =
        some (.ok view) ∧
      view.authorityPublicKey = keyInForce initial w.transitions.rows (visibleCeiling w d) ∧
      view.authorityTransitions =
        (transitionsWithin w.transitions.rows epoch (visibleCeiling w d)).map
          (·.signedTransition) ∧
      TransitionPath crypto (keyInForce initial w.transitions.rows epoch).bytes
        view.authorityTransitions view.authorityPublicKey.bytes ∧
      ∃ r ∈ w.rosters.rows, r.epoch = epoch ∧
        RosterPath crypto (keyInForce initial w.transitions.rows) epoch r.digest.bytes
          view.rosters := by
  have hmem := (Registry.find_eq_some.mp hw).1
  obtain ⟨initial, h⟩ := hs.chained w hmem
  have hle := hs.ceiling_le hmem h (Table.find_eq_some.mp hd).1
  obtain ⟨hwithin, hkey⟩ := h.ceiling_eq (d := d) epoch
  obtain ⟨k, hk, hview⟩ := memberView_eq hw h rfl
    (queryAfterEpoch_given hepoch hpositive _ _) hepoch (hwithin ▸ hcount)
  obtain ⟨r, hr, hrepoch, hpath⟩ := h.rosters.path hpositive (Nat.le_trans hceiling hle) k
  refine ⟨initial, viewAfter initial w (d.row w) epoch k, h, ?_, hkey, ?_, ?_, r, hr, hrepoch, hpath⟩
  · rw [hs.read_enrolled hw hd henrolled htoken hlength (afterRosterEpoch_nonneg hepoch) hfits, hview]
  · simp only [viewAfter, hwithin]
  · simp only [viewAfter, hwithin, hkey]
    exact h.transitionPath hceiling

/-- The device has the first roster, and the authority rotated with the second. -/
theorem enrolled_device_reads_on_rotation :
    ∃ initial w view, ((store sampleCrypto).run .empty sampleCalls).find sampleWorkspace = some w ∧
      (readMembershipState sampleCrypto { sampleRead with afterRosterEpoch := 1 }).alone
        (answerMembership sampleCrypto { sampleRead with afterRosterEpoch := 1 }
          ((store sampleCrypto).run .empty sampleCalls)) false = some (.ok view) ∧
      view.authorityTransitions.length = 1 ∧
      TransitionPath sampleCrypto (keyInForce initial w.transitions.rows 1).bytes
        view.authorityTransitions view.authorityPublicKey.bytes := by
  obtain ⟨hcolumns, hfits⟩ :
      (((store sampleCrypto).run .empty sampleCalls).find sampleWorkspace).bind (fun w =>
        (w.devices.find (numbered 15 1)).map fun d => (d.membershipState, d.authTokenHash,
          visibleCeiling w d,
          (transitionsWithin w.transitions.rows 1 (visibleCeiling w d)).length)) =
        some (.approved, sampleCrypto.sha256 sampleRead.authToken, 2, 1) ∧
      readFits sampleCrypto { sampleRead with afterRosterEpoch := 1 }
        ((store sampleCrypto).run .empty sampleCalls) = true := by
    decide +kernel
  obtain ⟨w, hw, hdevice⟩ := Option.bind_eq_some_iff.mp hcolumns
  obtain ⟨d, hd, hdevice⟩ := Option.map_eq_some_iff.mp hdevice
  simp only [Prod.mk.injEq] at hdevice
  obtain ⟨hstate, htoken, hceiling, hcount⟩ := hdevice
  obtain ⟨initial, view, -, hread, -, htransitions, hpath, -⟩ := enrolled_device_reads_on
    sampleCrypto _ ⟨sampleCalls, rfl⟩ { sampleRead with afterRosterEpoch := 1 } w hw d hd
    (Or.inl hstate) htoken (by decide) 1 (by decide) (Nat.le_refl 1) (by rw [hceiling]; decide)
    (by rw [hcount]; decide) hfits
  refine ⟨initial, w, view, hw, hread, ?_, hpath⟩
  rw [htransitions, List.length_map, hcount]

/-! ### Certificates and the key they are issued under -/

/-- The action issues a certificate to the device. -/
def Action.certifies (w : Workspace) (deviceID : DeviceID) : Action → Bool
  | .approve id => id = deviceID
  | .rename id => id = deviceID
  | .rotateAuthority => (w.devices.find deviceID).any (·.membershipState = .approved)
  | _ => false

section Issues

variable {crypto : Crypto} {initial key : Block 32} {w w' : Workspace} {d d' : Device}
  {action : Action}

/-- The device stores a certificate of this epoch. -/
def Issued (crypto : Crypto) (w : Workspace) (d : Device) (epoch : Nat) : Prop :=
  ∃ c, decodeSignedDeviceCertificate crypto (d.signedCertificate.getD [])
      w.authorityPublicKey.bytes = .ok c ∧ c.body.membershipEpoch.toNat = epoch

/-- The action published a roster, and the certificate is of its epoch. -/
structure NewIssue (crypto : Crypto) (w w' : Workspace) (d' : Device) : Prop where
  issued : Issued crypto w' d' (w.rosters.rows.length + 1)
  published : w'.rosters.rows.length = w.rosters.rows.length + 1

theorem Drafts.issues {c : SignedDeviceCertificate} {draft : WorkspaceRosterDraft} {encoded : Bytes}
    {body : WorkspaceRoster} (h : w.Chained crypto initial) (hdraft : Drafts crypto w draft)
    (hpublished : Published crypto w w' body)
    (hencode : encodeSignedDeviceCertificate crypto c w'.authorityPublicKey.bytes = .ok encoded)
    (hstored : d'.signedCertificate = some encoded)
    (hepoch : c.body.membershipEpoch = UInt64.ofNat draft.epoch) :
    NewIssue crypto w w' d' := by
  obtain ⟨row, m, hrows, -⟩ := hpublished
  refine ⟨⟨c, ?_, ?_⟩, by simp [hrows]⟩
  · rw [hstored, Option.getD_some]
    exact decodeSignedDeviceCertificate_iff.mpr hencode
  · rw [hepoch, hdraft.epoch_toNat, hdraft.epoch_eq h, Nat.add_comm]

/-- After a rotation every member has a certificate of the new roster. -/
theorem AuthorityRotation.Takes.issues {a : AuthorityRotation} {devices : Table Device.id}
    {rosters : Table RosterRow.epoch} {transitions : Table TransitionRow.epoch}
    (ha : a.Takes crypto w devices rosters transitions) (h : w.Chained crypto initial)
    (hagreed : w.Agreed crypto)
    (hw' : w' = { w with
      devices, rosters, transitions, authorityPublicKey := a.newKey
      authorityEpoch := w.authorityEpoch + 1, authorityTransitionDigest := a.digest })
    (h' : w'.Chained crypto initial) (hagreed' : w'.Agreed crypto) (hd' : d' ∈ w'.devices.rows)
    (hmember : d'.Member) :
    Action.certifies w d'.id .rotateAuthority = true ∧ NewIssue crypto w w' d' := by
  obtain ⟨active, revocations, hcurrent, hagrees⟩ := hagreed'
  have hpublished := ha.published
  rw [← hw'] at hpublished
  obtain ⟨rfl, -⟩ := (hpublished.current h').unique hcurrent
  obtain ⟨c, hc, hcertified⟩ := hagrees.member d' hd' hmember
  obtain ⟨encoded, hstored, hencode⟩ := hcertified.stored
  obtain ⟨old, hold, hbody, -⟩ := exists_of_forall₂ (reissueCertificates_each ha.reissue) hc
  obtain ⟨hagreesOld, -⟩ := ha.draft.agrees h hagreed
  obtain ⟨d, hd, hdmember, hcertifiedOld⟩ := hagreesOld.active old hold
  have hid : d.id = d'.id := by
    refine Block.ext (hcertifiedOld.device.symm.trans (Eq.trans ?_ hcertified.device))
    rw [hbody]
    rfl
  refine ⟨?_, ha.draft.issues h hpublished hencode hstored (by rw [hbody]; rfl)⟩
  have hfind : w.devices.find d'.id = some d := Table.find_eq_some.mpr ⟨hd, hid⟩
  simp [Action.certifies, hfind, hdmember.1]

/-- A member has the certificate that it had, or the action issued it. -/
theorem WorkspaceStep.issues (h : w.Chained crypto initial) (hagreed : w.Agreed crypto)
    (hstep : WorkspaceStep crypto w action w') (h' : w'.Chained crypto initial)
    (hd' : d' ∈ w'.devices.rows) (hmember : d'.Member) :
    (∃ d, SameIssue w w' d d') ∨ action.certifies w d'.id = true ∧ NewIssue crypto w w' d' := by
  have hagreed' := hstep.agreed h hagreed h'
  -- a row that an action does not replace
  have same {devices : Table Device.id} {rosters : Table RosterRow.epoch}
      (hmem : d' ∈ w.devices.rows) : SameIssue w { w with devices, rosters } d' d' :=
    ⟨hmem, rfl, hmember, rfl, rfl, rfl⟩
  cases hstep with
  | register d devices hd _ hrows =>
    rw [hrows, List.mem_append, List.mem_singleton] at hd'
    rcases hd' with hd' | rfl
    · exact Or.inl ⟨d', same hd'⟩
    · exact absurd hmember.1 (by simp [hd.state])
  | prove d now devices _ _ hreplaces =>
    rcases (hreplaces.rows d').mp hd' with rfl | ⟨hmem, -⟩
    · exact absurd hmember.1 (by simp)
    · exact Or.inl ⟨d', same hmem⟩
  | rotateCredential d hash devices hstate hrevoked hreplaces =>
    rcases (hreplaces.rows d').mp hd' with rfl | ⟨hmem, -⟩
    · exact Or.inl ⟨d, hreplaces.mem, rfl, ⟨hstate, hrevoked⟩, rfl, rfl, rfl⟩
    · exact Or.inl ⟨d', same hmem⟩
  | approve a devices rosters ha =>
    rcases (ha.replaces.rows d').mp hd' with rfl | ⟨hmem, -⟩
    · refine Or.inr ⟨by simp [Action.certifies, Device.approvedWith],
        ha.draft.issues h ha.published ha.encode rfl ?_⟩
      simp [SignedDeviceCertificate.body, ha.body, joiningCertificate]
    · exact Or.inl ⟨d', same hmem⟩
  | rename r devices rosters hr =>
    rcases (hr.replaces.rows d').mp hd' with rfl | ⟨hmem, -⟩
    · refine Or.inr ⟨by simp [Action.certifies, Device.renamedWith],
        hr.draft.issues h hr.published hr.encode rfl ?_⟩
      simp [SignedDeviceCertificate.body, hr.body, renamedCertificate]
    · exact Or.inl ⟨d', same hmem⟩
  | revokePending d now devices _ _ hreplaces =>
    rcases (hreplaces.rows d').mp hd' with rfl | ⟨hmem, -⟩
    · exact absurd hmember.1 (by simp)
    · exact Or.inl ⟨d', same hmem⟩
  | revoke r devices rosters hr =>
    rcases (hr.replaces.rows d').mp hd' with rfl | ⟨hmem, -⟩
    · exact absurd hmember.1 (by simp [Device.revokedWith])
    · exact Or.inl ⟨d', same hmem⟩
  | rotateAuthority a devices rosters transitions ha =>
    exact Or.inr (ha.issues h hagreed rfl h' hagreed' hd' hmember)

/-- A transition leads to another key. -/
theorem TransitionRow.Holds.key_ne {id : WorkspaceID} {t : TransitionRow}
    {m : SignedAuthorityKeyTransition} (h : t.Holds crypto id m) :
    t.newAuthorityPublicKey ≠ t.previousAuthorityPublicKey := by
  have hvalid := (encodeSignedAuthorityKeyTransition_iff.mp
    (decodeSignedAuthorityKeyTransition_iff.mp h.decodes)).1
  obtain ⟨-, transition, -, hm, hvalid, -⟩ := validateSignedAuthorityKeyTransition_iff.mp hvalid
  intro heq
  have hkeys : transition.newAuthorityPublicKey = transition.previousAuthorityPublicKey := by
    have hnew := h.newKey
    have hprevious := h.previousKey
    simp only [SignedAuthorityKeyTransition.body, hm, Option.getD_some] at hnew hprevious
    rw [hnew, hprevious, heq]
  simp only [validateAuthorityKeyTransition, bind_eq_ok, exists_unit, reject_eq_ok] at hvalid
  obtain ⟨-, -, -, -, hdistinct, -⟩ := hvalid
  exact hdistinct (by simp [hkeys])

/-- Only a rotation changes the key and the transitions. -/
theorem WorkspaceStep.authority_cases (hstep : WorkspaceStep crypto w action w')
    (h' : w'.Chained crypto initial) :
    w'.authorityPublicKey = w.authorityPublicKey ∧ w'.transitions = w.transitions ∨
      w'.authorityPublicKey ≠ w.authorityPublicKey ∧
        ∃ t, w'.transitions.rows = w.transitions.rows ++ [t] := by
  cases hstep with
  | rotateAuthority a devices rosters transitions ha =>
    obtain ⟨m, hm, -⟩ := h'.authority.holds _ (by rw [ha.rows]; exact List.mem_concat_self)
    exact Or.inr ⟨hm.key_ne, _, ha.rows⟩
  | _ => exact Or.inl ⟨rfl, rfl⟩

/-- The certificate of the device is of an epoch before which `key` was in force, and at most one
transition came since. -/
structure PinnedAt (crypto : Crypto) (initial key : Block 32) (w : Workspace) (d : Device)
    (epoch : Nat) : Prop where
  issued : Issued crypto w d epoch
  positive : 1 ≤ epoch
  bound : epoch ≤ w.rosters.rows.length
  before : keyInForce initial w.transitions.rows (epoch - 1) = key
  few : (transitionsWithin w.transitions.rows (epoch - 1) maxInt64).length ≤ 1
  none_of_same : w.authorityPublicKey = key →
    transitionsWithin w.transitions.rows (epoch - 1) maxInt64 = []

theorem Workspace.Chained.within_last (h : w.Chained crypto initial) :
    transitionsWithin w.transitions.rows w.rosters.rows.length maxInt64 = [] := by
  rw [h.within_latest, transitionsWithin_nil (Nat.le_refl _)]

/-- A certificate that is issued while the workspace is under `key`. -/
theorem WorkspaceStep.pins (h : w.Chained crypto initial) (hstep : WorkspaceStep crypto w action w')
    (h' : w'.Chained crypto initial) (hkey : w.authorityPublicKey = key)
    (hnew : NewIssue crypto w w' d') :
    PinnedAt crypto initial key w' d' (w.rosters.rows.length + 1) := by
  have hbefore : keyInForce initial w'.transitions.rows w.rosters.rows.length = key := by
    rw [(hstep.extends h).keyInForce_eq (Nat.le_refl _), h.authority.key_current (Nat.le_refl _),
      hkey]
  refine ⟨hnew.issued, Nat.le_add_left _ _, Nat.le_of_eq hnew.published.symm, hbefore, ?_, ?_⟩ <;>
    rw [Nat.add_sub_cancel] <;>
    rcases hstep.authority_cases h' with ⟨-, hsame⟩ | ⟨hne, t, hrows⟩
  · simp [hsame, h.within_last]
  · rw [hrows, transitionsWithin, List.filter_append, List.length_append]
    have hnone := h.within_last
    unfold transitionsWithin at hnone
    rw [hnone, List.length_nil, Nat.zero_add]
    exact List.length_filter_le _ [t]
  · intro _
    rw [hsame, h.within_last]
  · exact fun heq => absurd (heq.trans hkey.symm) hne

/-- A certificate that stays. -/
theorem PinnedAt.same {epoch : Nat} (hd : PinnedAt crypto initial key w d epoch)
    (hsame : SameIssue w w' d d') (hle : w.rosters.rows.length ≤ w'.rosters.rows.length) :
    PinnedAt crypto initial key w' d' epoch where
  issued := by
    unfold Issued
    rw [hsame.certificate, hsame.key]
    exact hd.issued
  positive := hd.positive
  bound := Nat.le_trans hd.bound hle
  before := by rw [hsame.transitions]; exact hd.before
  few := by rw [hsame.transitions]; exact hd.few
  none_of_same := by rw [hsame.transitions, hsame.key]; exact hd.none_of_same

/-- If the device is a member, then its certificate leads from `key`. -/
def Pinned (crypto : Crypto) (initial key : Block 32) (deviceID : DeviceID) (w : Workspace) :
    Prop :=
  ∀ d ∈ w.devices.rows, d.id = deviceID → d.Member →
    ∃ epoch, PinnedAt crypto initial key w d epoch

theorem WorkspaceStep.pinned {deviceID : DeviceID} (h : w.Chained crypto initial)
    (hagreed : w.Agreed crypto) (hpinned : Pinned crypto initial key deviceID w)
    (hstep : WorkspaceStep crypto w action w') (h' : w'.Chained crypto initial)
    (hkey : action.certifies w deviceID = true → w.authorityPublicKey = key) :
    Pinned crypto initial key deviceID w' := by
  intro d' hd' hid hmember
  rcases hstep.issues h hagreed h' hd' hmember with ⟨d, hsame⟩ | ⟨hcertifies, hnew⟩
  · obtain ⟨epoch, hd⟩ := hpinned d hsame.mem (hsame.id_eq ▸ hid) hsame.member
    obtain ⟨more, hrows⟩ := (hstep.extends h).rosters
    exact ⟨epoch, hd.same hsame (by simp [hrows])⟩
  · exact ⟨_, hstep.pins h h' (hkey (hid ▸ hcertifies)) hnew⟩

end Issues

/-! ### The key of registration -/

/-- If the call issues a certificate to the device, then the workspace is under `key`. -/
def issuesUnder (crypto : Crypto) (id : WorkspaceID) (deviceID : DeviceID) (key : Block 32)
    (s : Registry) (call : Call) : Bool :=
  match call.action crypto s, s.find id with
  | some (id', action), some w =>
    ¬ (id' = id ∧ action.certifies w deviceID) ∨ w.authorityPublicKey = key
  | _, _ => true

section Pins

variable {crypto : Crypto} {id : WorkspaceID} {deviceID : DeviceID} {key : Block 32}
  {s s' : Registry}

def Registry.Pinned (crypto : Crypto) (id : WorkspaceID) (deviceID : DeviceID) (key : Block 32)
    (s : Registry) : Prop :=
  ∀ w initial, s.find id = some w → w.Chained crypto initial →
    Admission.Pinned crypto initial key deviceID w

theorem RegistryStep.pinned {call : Call} (hs : Reachable crypto s)
    (hpinned : s.Pinned crypto id deviceID key) (hstep : RegistryStep crypto s call s')
    (hallowed : issuesUnder crypto id deviceID key s call = true) :
    s'.Pinned crypto id deviceID key := by
  intro w' initial' hw' h'
  obtain ⟨hmem', rfl⟩ := Registry.find_eq_some.mp hw'
  cases hstep with
  | unchanged hsame _ =>
    refine hpinned w' initial' ?_ h'
    simpa only [Registry.find, hsame] using hw'
  | created newKey now newID _ _ hrows =>
    rw [hrows, List.mem_append, List.mem_singleton] at hmem'
    rcases hmem' with hmem' | rfl
    · exact hpinned w' initial' (Registry.find_eq_some.mpr ⟨hmem', rfl⟩) h'
    · intro d hd
      cases hd
  | acted v v' action haction hstep hchained hreplaces =>
    rcases (hreplaces.rows w').mp hmem' with rfl | ⟨hmem, -⟩
    · obtain ⟨initial, h⟩ := hs.chained v hreplaces.mem
      have hv : s.find w'.id = some v :=
        Registry.find_eq_some.mpr ⟨hreplaces.mem, hstep.id_eq.symm⟩
      rw [(hchained initial h).initial_eq h']
      refine hstep.pinned h (hs.agreed hreplaces.mem) (hpinned v initial hv h) (hchained initial h)
        fun hcertifies => ?_
      simp only [issuesUnder, haction, hv] at hallowed
      simpa [hstep.id_eq, hcertifies] using hallowed
    · exact hpinned w' initial' (Registry.find_eq_some.mpr ⟨hmem, rfl⟩) h'

theorem Reachable.run_pinned (hs : Reachable crypto s) (hpinned : s.Pinned crypto id deviceID key)
    {calls : List Call}
    (hcalls : (store crypto).Allowed
      (fun s call => issuesUnder crypto id deviceID key s call = true) s calls) :
    ((store crypto).run s calls).Pinned crypto id deviceID key := by
  refine (Machine.run_invariant (I := fun s => Reachable crypto s ∧
    s.Pinned crypto id deviceID key) _ ?_ ⟨hs, hpinned⟩ hcalls).2
  rintro t call ⟨ht, hpinned⟩ hallowed
  refine ⟨ht.step call, ?_⟩
  simp only [store]
  split
  · rename_i t' hcommit
    exact (commit_step ht.chained hcommit).pinned ht hpinned hallowed
  · exact hpinned

theorem registerPending_run {input : Registration} {registered : RegisteredDevice}
    (hok : registerPending crypto s input = .ok (s', registered)) :
    ((store crypto).step s (.registerPending input)).1 = s' := by
  simp [store, commit, hok, Except.map]

/-- The device that was just registered is no member yet. -/
theorem registerPending_pinned {input : Registration} {registered : RegisteredDevice}
    (hok : registerPending crypto s input = .ok (s', registered)) :
    ∃ key, workspaceAuthorityPublicKey s' registered.workspaceID = some key ∧
      s'.Pinned crypto registered.workspaceID registered.deviceID key := by
  simp only [registerPending, bind_eq_ok, exists_unit, reject_eq_ok, require_eq_ok, rethrow_eq_ok,
    pure_eq_ok, Prod.mk.injEq] at hok
  obtain ⟨deviceType, -, -, -, -, secret, -, -, code, -, -, -, challenge, -, -, digest, -, e2ee, -,
    w, hw, -, devices, hdevices, rfl, rfl⟩ := hok
  have hput : (s.put { w with devices }).find code.workspaceID = some { w with devices } :=
    Registry.find_put hw rfl
  have hkey : workspaceAuthorityPublicKey (s.put { w with devices }) code.workspaceID =
      some w.authorityPublicKey := by
    simp [workspaceAuthorityPublicKey, hput]
  refine ⟨w.authorityPublicKey, hkey, ?_⟩
  intro w' initial hw' _ d hd hid hmember
  obtain rfl : { w with devices } = w' := Option.some.inj (hput.symm.trans hw')
  obtain ⟨hfresh, hrows⟩ := Table.insert_eq_some.mp hdevices
  rw [hrows, List.mem_append, List.mem_singleton] at hd
  rcases hd with hd | rfl
  · exact absurd hid (hfresh d hd)
  · cases hmember.1

/-- A member whose certificate leads from `key` reads from its epoch. -/
theorem Reachable.read_pinned {input : MembershipRead} {w : Workspace} {d : Device}
    {initial : Block 32} {epoch : Nat} (hs : Reachable crypto s)
    (hw : s.find input.workspaceID = some w) (h : w.Chained crypto initial)
    (hd : w.devices.find input.deviceID = some d) (hmember : d.Member)
    (hepoch : d.revokedMembershipEpoch = none) (hpinned : PinnedAt crypto initial key w d epoch)
    (htoken : d.authTokenHash = crypto.sha256 input.authToken)
    (hlength : input.authToken.length = authTokenBytes) (hafter : input.afterRosterEpoch = 0)
    (hfits : readFits crypto input s = true) :
    ∃ view, (readMembershipState crypto input).alone (answerMembership crypto input s) false =
        some (.ok view) ∧
      TransitionPath crypto key.bytes view.authorityTransitions view.authorityPublicKey.bytes ∧
      (view.authorityTransitions = [] ↔ view.authorityPublicKey = key) := by
  obtain ⟨c, hdecode, hc⟩ := hpinned.issued
  have hbound := Nat.le_trans hpinned.bound h.length_le
  have hceiling : (d.row w).ceiling = maxInt64 := by simp [MemberRow.ceiling, Device.row, hepoch]
  have hcurrent := h.authority.key_current h.length_le
  obtain ⟨after, hquery, hepoch'⟩ := queryAfterEpoch_own hafter hdecode
    (hc.symm ▸ hpinned.positive) (hc.symm ▸ hbound)
  rw [hc] at hepoch'
  rw [← hcurrent, ← hceiling] at hquery
  have hcount : (transitionsWithin w.transitions.rows (epoch - 1) (d.row w).ceiling).length ≤
      maxAuthorityTransitions := by
    rw [hceiling]
    exact Nat.le_trans hpinned.few (by decide)
  have hrow : (d.row w).authorityPublicKey = w.authorityPublicKey := rfl
  obtain ⟨k, hk, hview⟩ := memberView_eq hw h hrow hquery hepoch' hcount
  have hread := hs.read_enrolled hw hd (Or.inl hmember.1) htoken hlength (by simp [hafter]) hfits
  have hpath := h.transitionPath (Nat.le_trans (Nat.sub_le epoch 1) hbound)
  rw [hpinned.before, hcurrent] at hpath
  refine ⟨_, hread.trans (congrArg some hview), ?_⟩
  simp only [viewAfter, hceiling, hcurrent]
  refine ⟨hpath, fun hnil => ?_, fun hkey => ?_⟩
  · rw [hnil] at hpath
    exact Block.ext hpath.symm
  · rw [hpinned.none_of_same hkey]
    rfl

end Pins

/-- A device can follow the authority from the key that the workspace had when the device registered,
in every run that issues its certificates under that key. -/
theorem registration_key_leads_on (crypto : Crypto) (s : Registry) (hs : Reachable crypto s)
    (input : Registration) (s₁ : Registry) (registered : RegisteredDevice)
    (hok : registerPending crypto s input = .ok (s₁, registered)) :
    ∃ key, workspaceAuthorityPublicKey s₁ registered.workspaceID = some key ∧
      ∀ calls, (store crypto).Allowed (fun s call =>
          issuesUnder crypto registered.workspaceID registered.deviceID key s call = true) s₁ calls →
      ∀ d, ((store crypto).run s₁ calls).device registered.workspaceID registered.deviceID = some d →
        d.membershipState = .approved →
      ∀ token, d.authTokenHash = crypto.sha256 token → token.length = authTokenBytes →
        readFits crypto ⟨registered.workspaceID, registered.deviceID, token, 0⟩
          ((store crypto).run s₁ calls) = true →
      ∃ view,
        (readMembershipState crypto ⟨registered.workspaceID, registered.deviceID, token, 0⟩).alone
          (answerMembership crypto ⟨registered.workspaceID, registered.deviceID, token, 0⟩
            ((store crypto).run s₁ calls)) false = some (.ok view) ∧
        TransitionPath crypto key.bytes view.authorityTransitions view.authorityPublicKey.bytes ∧
        (view.authorityTransitions = [] ↔ view.authorityPublicKey = key) := by
  obtain ⟨key, hkey, hpinned⟩ := registerPending_pinned hok
  refine ⟨key, hkey, fun calls hcalls d hd happroved token htoken hlength hfits => ?_⟩
  have hs₁ : Reachable crypto s₁ := registerPending_run hok ▸ hs.step (.registerPending input)
  have hs' := hs₁.run calls
  obtain ⟨w, hw, hfind⟩ := Registry.device_eq_some.mp hd
  obtain ⟨hdmem, hid⟩ := Table.find_eq_some.mp hfind
  obtain ⟨initial, h⟩ := hs'.chained w (Registry.find_eq_some.mp hw).1
  obtain ⟨hnever, hepoch⟩ := (hs'.device_sound hd).unrevoked happroved
  have hmember : d.Member := ⟨happroved, hnever⟩
  obtain ⟨epoch, hat⟩ := hs₁.run_pinned hpinned hcalls w initial hw h d hdmem hid hmember
  exact hs'.read_pinned hw h hfind hmember hepoch hat htoken hlength rfl hfits

/-- The store in which the first device may register. -/
abbrev beforeRegistration : Registry :=
  (store sampleCrypto).run .empty (sampleCreation :: (enroll 1).take 1)

abbrev afterRegistration : Registry :=
  ((store sampleCrypto).step beforeRegistration (.registerPending (sampleRegistration 1))).1

/-- The device is approved, and the authority passes to a second key. -/
def rotatedOnce : List Call := (enroll 1).drop 2 ++ [.rotateWorkspaceAuthority sampleRotation]

/-- The authority passes to a third key. -/
def rotatedTwice : List Call :=
  rotatedOnce ++ [.rotateWorkspaceAuthority { sampleRotation with
    previousAuthorityPrivateKey := samplePrivateKey 2
    newAuthorityPrivateKey := samplePrivateKey 3 }]

/-- What the runs come to: the device registers under the first key, reads on after one rotation, and
after two of them reads what does not lead on from that key. -/
theorem registration_runs :
    ((registerPending sampleCrypto beforeRegistration (sampleRegistration 1)).toOption.map
        fun p => (p.2.workspaceID, p.2.deviceID)) = some (sampleWorkspace, numbered 15 1) ∧
    workspaceAuthorityPublicKey afterRegistration sampleWorkspace =
      some ⟨List.replicate 32 1, rfl⟩ ∧
    ((store sampleCrypto).Allowed (fun s call =>
        issuesUnder sampleCrypto sampleWorkspace (numbered 15 1) ⟨List.replicate 32 1, rfl⟩ s call =
          true) afterRegistration rotatedOnce ∧
      (((store sampleCrypto).run afterRegistration rotatedOnce).device sampleWorkspace
        (numbered 15 1)).map (fun d => (d.membershipState, d.authTokenHash)) =
          some (.approved, sampleCrypto.sha256 sampleRead.authToken) ∧
      readFits sampleCrypto sampleRead ((store sampleCrypto).run afterRegistration rotatedOnce) =
        true) ∧
    (((store sampleCrypto).run afterRegistration rotatedTwice).device sampleWorkspace
      (numbered 15 1)).map (fun d => (d.membershipState, d.authTokenHash)) =
        some (.approved, sampleCrypto.sha256 sampleRead.authToken) ∧
    (((readMembershipState sampleCrypto sampleRead).alone
      (answerMembership sampleCrypto sampleRead
        ((store sampleCrypto).run afterRegistration rotatedTwice)) false).bind
          Except.toOption).map (fun view => decide (TransitionPath sampleCrypto
            (List.replicate 32 1) view.authorityTransitions view.authorityPublicKey.bytes)) =
      some false := by
  decide +kernel

theorem registerPending_sample :
    ∃ token, registerPending sampleCrypto beforeRegistration (sampleRegistration 1) =
      .ok (afterRegistration, ⟨sampleWorkspace, numbered 15 1, token⟩) := by
  have hids := registration_runs.1
  cases hok : registerPending sampleCrypto beforeRegistration (sampleRegistration 1) with
  | error e =>
    rw [hok] at hids
    cases hids
  | ok p =>
    obtain ⟨s₁, ⟨id, deviceID, token⟩⟩ := p
    rw [hok] at hids
    cases hids
    have hs₁ : afterRegistration = s₁ := registerPending_run hok
    subst hs₁
    exact ⟨token, rfl⟩

theorem registration_key_leads_on_rotation :
    ∃ token view, registerPending sampleCrypto beforeRegistration (sampleRegistration 1) =
        .ok (afterRegistration, ⟨sampleWorkspace, numbered 15 1, token⟩) ∧
      (readMembershipState sampleCrypto sampleRead).alone (answerMembership sampleCrypto sampleRead
        ((store sampleCrypto).run afterRegistration rotatedOnce)) false = some (.ok view) ∧
      TransitionPath sampleCrypto (List.replicate 32 1) view.authorityTransitions
        view.authorityPublicKey.bytes := by
  obtain ⟨token, hok⟩ := registerPending_sample
  obtain ⟨key, hkey, hreads⟩ := registration_key_leads_on sampleCrypto beforeRegistration
    ⟨_, rfl⟩ (sampleRegistration 1) afterRegistration _ hok
  obtain ⟨-, hfirst, ⟨hcalls, hdevice, hfits⟩, -⟩ := registration_runs
  obtain rfl : ⟨List.replicate 32 1, rfl⟩ = key := Option.some.inj (hfirst.symm.trans hkey)
  obtain ⟨d, hd, hcolumns⟩ := Option.map_eq_some_iff.mp hdevice
  obtain ⟨hstate, htoken⟩ := Prod.mk.inj hcolumns
  obtain ⟨view, hread, hpath, -⟩ := hreads rotatedOnce hcalls d hd hstate sampleRead.authToken htoken
    (by decide) hfits
  exact ⟨token, view, hok, hread, hpath⟩

/-- After the second rotation the read starts from the second key. -/
theorem registration_key_lost :
    ∃ token d view, registerPending sampleCrypto beforeRegistration (sampleRegistration 1) =
        .ok (afterRegistration, ⟨sampleWorkspace, numbered 15 1, token⟩) ∧
      workspaceAuthorityPublicKey afterRegistration sampleWorkspace =
        some ⟨List.replicate 32 1, rfl⟩ ∧
      ((store sampleCrypto).run afterRegistration rotatedTwice).device sampleWorkspace
        (numbered 15 1) = some d ∧ d.membershipState = .approved ∧
      d.authTokenHash = sampleCrypto.sha256 sampleRead.authToken ∧
      (readMembershipState sampleCrypto sampleRead).alone (answerMembership sampleCrypto sampleRead
        ((store sampleCrypto).run afterRegistration rotatedTwice)) false = some (.ok view) ∧
      ¬ TransitionPath sampleCrypto (List.replicate 32 1) view.authorityTransitions
        view.authorityPublicKey.bytes := by
  obtain ⟨token, hok⟩ := registerPending_sample
  obtain ⟨-, hfirst, -, hdevice, hview⟩ := registration_runs
  obtain ⟨d, hd, hcolumns⟩ := Option.map_eq_some_iff.mp hdevice
  obtain ⟨hstate, htoken⟩ := Prod.mk.inj hcolumns
  obtain ⟨view, hread, hpath⟩ := Option.map_eq_some_iff.mp hview
  obtain ⟨result, hread, hresult⟩ := Option.bind_eq_some_iff.mp hread
  cases result with
  | error e => cases hresult
  | ok view' =>
    cases hresult
    exact ⟨token, d, view, hok, hfirst, hd, hstate, htoken, hread, of_decide_eq_false hpath⟩

end SevenMirror.Admission
