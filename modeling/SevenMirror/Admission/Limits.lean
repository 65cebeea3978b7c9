import SevenMirror.Admission.Growth

/-! The limits of a workspace.  Administration and reading succeed up to the sizes of rosters and of
pages, and a workspace that lives long enough reaches these sizes. -/

namespace SevenMirror.Admission

open Lib MembershipCodec

section Administration

variable {crypto : Crypto} {s : Registry} {w : Workspace} {d : Device} {privateKey : Bytes}
  {now : Time}

/-! ### Approving, renaming, and rotating -/

/-- Approvals fail only at 256 active devices; renaming and rotating never fail. -/
theorem administration_succeeds (ideal : crypto.Ideal)
    (h : Administered crypto s w privateKey now) :
    (∀ d ∈ w.devices.rows, d.membershipState = .pendingApproval → ∀ roles : List DeviceRole,
      roles ≠ [] → roles.Pairwise (· < ·) → (∀ role ∈ roles, supportedRole role) →
      (∃ result, approvePendingMembership crypto s
        ⟨w.id, deviceReference crypto w.id d.id, roles, privateKey, now⟩ = .ok result) ∨
      w.activeDevices = maxActiveCertificates ∧ approvePendingMembership crypto s
        ⟨w.id, deviceReference crypto w.id d.id, roles, privateKey, now⟩ =
          .error (.codec .tooManyActive)) ∧
    (∀ d ∈ w.devices.rows, d.membershipState = .approved → ∀ name,
      validateDeviceName name = .ok () → d.deviceName ≠ name →
      ∃ result, renameDevice crypto s
        ⟨w.id, deviceReference crypto w.id d.id, name, privateKey, now⟩ = .ok result) ∧
    (w.rosters.rows ≠ [] → ∀ newPrivateKey, KeyPair crypto newPrivateKey →
      publicKey privateKey ≠ publicKey newPrivateKey →
      ∃ result, rotateWorkspaceAuthority crypto s ⟨w.id, privateKey, newPrivateKey, now⟩ =
        .ok result) := by
  obtain ⟨initial, hhealthy⟩ := h.healthy
  refine ⟨fun d hd hstate roles hnonempty hordered hsupported => ?_,
    fun d hd hstate name hname hne => ?_, fun hrosters newPrivateKey hnew hne => ?_⟩
  · have hroles := rolesSorted_of_supported hsupported hordered
    rw [h.approve_eq hd hnonempty]
    rcases approveDevice_succeeds
        ⟨w.id, deviceReference crypto w.id d.id, roles, privateKey, now⟩ hhealthy ideal h.named
        h.authority hd hstate ⟨hnonempty, hroles⟩ h.instant with
      ⟨⟨w', change⟩, hok⟩ | ⟨hfull, herror⟩
    · rw [hok]
      exact Or.inl ⟨(s.put w', change), rfl⟩
    · rw [herror]
      exact Or.inr ⟨hfull, rfl⟩
  · obtain ⟨⟨w', change⟩, hok⟩ := renameDeviceTo_succeeds
      ⟨w.id, deviceReference crypto w.id d.id, name, privateKey, now⟩ hhealthy ideal h.named
      h.authority hd hstate hname hne h.instant
    refine ⟨(s.put w', change), ?_⟩
    simp only [renameDevice, hname, h.found, h.resolves hd, hok, require, ok_bind]
    rfl
  · obtain ⟨⟨w', rotated⟩, hok⟩ := rotateAuthority_succeeds
      ⟨w.id, privateKey, newPrivateKey, now⟩ hhealthy ideal h.named h.authority hnew hne
      h.epochs.authority hrosters h.instant
    refine ⟨(s.put w', rotated), ?_⟩
    rw [h.rotate_eq hnew hne, hok]
    rfl

/-- One device is a member, and another waits for its approval. -/
theorem administration_succeeds_second :
    ∃ (s : Registry) (w : Workspace) (d d' : Device) (name : Bytes),
      Administered idealCrypto s w fleetKey sampleInstant ∧
      (∃ result, approvePendingMembership idealCrypto s ⟨w.id, deviceReference idealCrypto w.id d.id,
        [deviceRoleSendNotifications], fleetKey, sampleInstant⟩ = .ok result) ∧
      (∃ result, renameDevice idealCrypto s ⟨w.id, deviceReference idealCrypto w.id d'.id, name,
        fleetKey, sampleInstant⟩ = .ok result) ∧
      ∃ result, rotateWorkspaceAuthority idealCrypto s ⟨w.id, fleetKey,
        List.replicate 64 (UInt8.ofNat 2), sampleInstant⟩ = .ok result := by
  obtain ⟨s₁, w₁, d', h₁, hl₁, -, hd', -, -, hstate'⟩ := fleet_enrolled (n := 0) (by decide)
  obtain ⟨s₂, devices, d, h₂, hkept, hd, -, -, hstate⟩ := h₁.joins (by decide)
  have hl₂ := hl₁.withDevices devices
  have h := h₂.administered (by decide) hl₂ (by decide)
  obtain ⟨happrove, hrename, hrotate⟩ := administration_succeeds idealCrypto_ideal h
  obtain ⟨name, hname, hne⟩ : ∃ name, validateDeviceName name = .ok () ∧ d'.deviceName ≠ name := by
    by_cases hsame : d'.deviceName = [65]
    · exact ⟨[66], by decide, by rw [hsame]; decide⟩
    · exact ⟨[65], by decide, hsame⟩
  refine ⟨s₂, _, d, d', name, h, ?_, hrename d' (hkept d' hd') hstate' name hname hne, ?_⟩
  · refine (happrove d hd hstate _ (List.cons_ne_nil _ _) (List.pairwise_singleton _ _) ?_).resolve_right
      fun hfull => ?_
    · intro role hrole
      rw [List.mem_singleton.mp hrole]
      exact ⟨by decide, by decide⟩
    · have hone := (h₂.counts hl₂).1
      rw [hfull.1] at hone
      exact absurd hone (by decide)
  · refine hrotate ?_ _ ⟨rfl, by decide, fun _ => rfl⟩ (by decide)
    intro hnil
    have hlength := hl₂.rosters
    rw [hnil] at hlength
    exact absurd hlength (by decide)

/-! ### Revoking -/

/-- Revoking an approved device succeeds while rosters revoked fewer than 4096 devices. -/
theorem revokeDevice_succeeds (ideal : crypto.Ideal) (h : Administered crypto s w privateKey now)
    (hd : d ∈ w.devices.rows) (hstate : d.membershipState = .approved)
    (hcount : w.revokedDevices < maxRevocations) :
    ∃ s' revoked, revokeDevice crypto s
        ⟨w.id, deviceReference crypto w.id d.id, privateKey, now⟩ = .ok (s', revoked) ∧
      revoked.changed = true := by
  obtain ⟨initial, hhealthy⟩ := h.healthy
  obtain ⟨⟨w', epoch, digest⟩, hok⟩ :=
    (revokeApproved_succeeds ⟨w.id, deviceReference crypto w.id d.id, privateKey, now⟩ hhealthy ideal
      h.named h.authority hd hstate h.instant).1 hcount
  refine ⟨s.put w', ⟨deviceReference crypto w.id d.id, true, epoch, digest⟩, ?_, rfl⟩
  rw [h.revoke_eq hd hstate, hok]
  rfl

theorem revokeDevice_succeeds_first :
    ∃ (s : Registry) (w : Workspace) (d : Device) (s' : Registry) (revoked : _),
      Administered idealCrypto s w fleetKey sampleInstant ∧
      d ∈ w.devices.rows ∧ d.membershipState = .approved ∧ w.revokedDevices < maxRevocations ∧
      revokeDevice idealCrypto s ⟨w.id, deviceReference idealCrypto w.id d.id, fleetKey,
        sampleInstant⟩ = .ok (s', revoked) ∧ revoked.changed = true := by
  obtain ⟨s, w, d, hfleet, hl, -, hd, -, -, hstate⟩ := fleet_enrolled (n := 0) (by decide)
  have h := hfleet.administered (by decide) hl (by decide)
  have hcount : w.revokedDevices < maxRevocations := by
    rw [(hfleet.counts hl).2]
    decide
  obtain ⟨s', revoked, hok, hchanged⟩ :=
    revokeDevice_succeeds idealCrypto_ideal h hd hstate hcount
  exact ⟨s, w, d, s', revoked, h, hd, hstate, hcount, hok, hchanged⟩

/-- After 4096 devices were revoked, the next one cannot be. -/
theorem revokeDevice_fails_at_limit :
    ∃ (s : Registry) (w : Workspace) (d : Device),
      Administered idealCrypto s w fleetKey sampleInstant ∧ d ∈ w.devices.rows ∧
      d.membershipState = .approved ∧ w.revokedDevices = maxRevocations ∧
      revokeDevice idealCrypto s ⟨w.id, deviceReference idealCrypto w.id d.id, fleetKey,
        sampleInstant⟩ = .error (.codec .tooManyRevocations) := by
  obtain ⟨s₁, w₁, h₁, hl₁⟩ := fleet_revoked (Nat.le_refl maxRevocations)
  obtain ⟨s₂, devices₂, d₂, h₂, -, hd₂, -, -, hstate₂⟩ := h₁.joins (by decide)
  obtain ⟨s, devices, rosters, row, d, hfleet, hl, -, -, -, hd, -, -, hstate⟩ :=
    h₂.approves (by decide) (hl₁.withDevices devices₂) (by decide) (by decide) hd₂ hstate₂
  have h := hfleet.administered (by decide) hl (by decide)
  obtain ⟨initial, hhealthy⟩ := h.healthy
  have hcount := (hfleet.counts hl).2
  have herror := (revokeApproved_succeeds ⟨fleetWorkspace, deviceReference idealCrypto w₁.id d.id,
    fleetKey, sampleInstant⟩ hhealthy idealCrypto_ideal h.named h.authority hd hstate h.instant).2
    hcount
  rw [← hfleet.id] at herror
  refine ⟨s, _, d, h, hd, hstate, hcount, ?_⟩
  rw [h.revoke_eq hd hstate, herror]
  rfl

end Administration

/-! ### Reading -/

section Reading

variable {crypto : Crypto} {s : Registry} {input : MembershipRead} {w : Workspace} {d : Device}

/-- The read of an approved device whose page does not fit waits for itself. -/
theorem Reachable.read_waits (hs : Reachable crypto s) (hw : s.find input.workspaceID = some w)
    (hd : w.devices.find input.deviceID = some d) (hstate : d.membershipState = .approved)
    (htoken : d.authTokenHash = crypto.sha256 input.authToken)
    (hlength : input.authToken.length = authTokenBytes) {epoch : Nat}
    (hepoch : input.afterRosterEpoch.toInt = epoch) (hpositive : 1 ≤ epoch)
    (hcount : (transitionsWithin w.transitions.rows epoch maxInt64).length ≤ maxAuthorityTransitions)
    (hlarge : pageFits (selectRosters input s input.afterRosterEpoch maxInt64) = false) :
    (readMembershipState crypto input).alone (answerMembership crypto input s) false = none := by
  have hmem := (Registry.find_eq_some.mp hw).1
  obtain ⟨initial, h⟩ := hs.chained w hmem
  have hnever := ((hs.sound hmem d (Table.find_eq_some.mp hd).1).unrevoked hstate).2
  have hfew : ([] : List Bytes).length +
      (selectTransitions input s input.afterRosterEpoch maxInt64).length ≤
        maxAuthorityTransitions := by
    rw [selectTransitions_eq hw h hepoch, List.length_map, List.length_take, List.length_nil]
    omega
  have htransitions := collectTransitions_eq hfew
  obtain ⟨k, -, exhausted, hrosters⟩ := collectRosters_eq hw h hepoch maxInt64
  obtain ⟨hmany, hsize⟩ := not_or.mp (of_decide_eq_false hlarge)
  obtain rfl : exhausted = false := by
    refine collectRosters_stops ⟨?_, fun _ => Nat.lt_of_not_le hmany⟩ (by omega) hrosters
    intro hnil
    rw [hnil] at hmany
    exact hmany (Nat.zero_le 1)
  have hrow : answerMembership crypto input s .device = some (d.row w) :=
    hs.memberRow_enrolled hw hd (Or.inl hstate) htoken
  rw [readMembershipState, if_neg (by simp [hlength, afterRosterEpoch_nonneg hepoch]),
    Statements.alone, if_neg Bool.false_ne_true, hrow]
  simp only [readMember, Device.row, hstate, hnever, ne_eq, not_true_eq_false, and_false, if_false]
  exact readChains_waits (queryAfterEpoch_given hepoch hpositive _ _) htransitions hrosters

/-- The least size of so many rosters from number `epoch` on, if each of them lists as many
certificates as its number. -/
def leastPage (epoch : Nat) : Nat → Nat
  | 0 => 0
  | count + 1 => epoch * 248 + 156 + leastPage (epoch + 1) count

theorem leastPage_le {rows : List RosterRow} {epoch : Nat}
    (h : Numbered RosterRow.epoch epoch rows)
    (hgrowing : ∀ row ∈ rows, row.epoch * 248 + 156 ≤ row.signedRoster.length) :
    leastPage epoch rows.length ≤ pageSize (rows.map fun r => (r.epoch, r.signedRoster)) := by
  induction rows generalizing epoch with
  | nil => exact Nat.le_refl 0
  | cons row rest ih =>
    obtain ⟨hrow, hrest⟩ := h.of_cons
    have hsize := hgrowing row List.mem_cons_self
    have hpage := ih hrest fun r hr => hgrowing r (List.mem_cons_of_mem row hr)
    rw [hrow] at hsize
    simp only [List.map_cons, List.length_cons, leastPage, pageSize]
    exact Nat.add_le_add hsize hpage

end Reading

/-- The last of 128 devices reads on from the first roster. -/
def crowdedRead : MembershipRead where
  workspaceID := fleetWorkspace
  deviceID := counted 14 127
  authToken := (counted 30 127).bytes
  afterRosterEpoch := 1

/-- The rosters of 128 devices exceed a page, and the read of the last device does not return. -/
theorem crowdedRead_waits :
    ∃ s w d, Reachable idealCrypto s ∧ s.find crowdedRead.workspaceID = some w ∧
      w.devices.find crowdedRead.deviceID = some d ∧ d.membershipState = .approved ∧
      d.authTokenHash = idealCrypto.sha256 crowdedRead.authToken ∧
      visibleCeiling w d = 128 ∧ w.transitions.rows = [] ∧
      (readMembershipState idealCrypto crowdedRead).alone
        (answerMembership idealCrypto crowdedRead s) false = none := by
  obtain ⟨s, w, d, hfleet, hl, hgrowing, hd, hid, htoken, hstate⟩ :=
    fleet_enrolled (n := 127) (by decide)
  obtain ⟨initial, h⟩ := hfleet.reachable.chained w hfleet.mem
  have hw : s.find crowdedRead.workspaceID = some w := by
    have hfound := hfleet.found
    rw [hfleet.id] at hfound
    exact hfound
  have hfind : w.devices.find crowdedRead.deviceID = some d := Table.find_eq_some.mpr ⟨hd, hid⟩
  have hepoch : crowdedRead.afterRosterEpoch.toInt = (1 : Nat) := by decide
  have htransitions : w.transitions.rows = [] := by
    have hcurrent := h.authority.current_epoch
    rw [hfleet.authority] at hcurrent
    exact List.eq_nil_of_length_eq_zero (by omega)
  have hceiling : visibleCeiling w d = 128 := by
    rw [visibleCeiling, ((hfleet.reachable.sound hfleet.mem d hd).unrevoked hstate).2,
      Option.getD_none, hl.rosters]
  -- all rosters after the first one are on the page
  have hpage : selectRosters crowdedRead s crowdedRead.afterRosterEpoch maxInt64 =
      (w.rosters.rows.drop 1).map fun r => (r.epoch, r.signedRoster) := by
    have hcount : (w.rosters.rows.drop 1).length = 127 := by
      rw [List.length_drop, hl.rosters]
    have hall : (w.rosters.rows.drop 1).take (maxInt64 - 1) = w.rosters.rows.drop 1 :=
      List.take_of_length_le (by rw [hcount]; decide)
    rw [selectRosters_eq hw h hepoch, hall, List.take_of_length_le (by rw [hcount]; decide)]
  have hleast := leastPage_le (h.rosters.epochs.drop 1)
    fun row hrow => hgrowing row (List.mem_of_mem_drop hrow)
  rw [List.length_drop, hl.rosters] at hleast
  have hlarge : pageFits (selectRosters crowdedRead s crowdedRead.afterRosterEpoch maxInt64) =
      false := by
    rw [hpage]
    refine decide_eq_false (not_or.mpr ⟨?_, ?_⟩)
    · rw [List.length_map, List.length_drop, hl.rosters]
      decide
    · have hexceeds : maxMembershipRosterPageRaw < leastPage 2 127 := by decide +kernel
      exact Nat.not_le_of_lt (Nat.lt_of_lt_of_le hexceeds hleast)
  refine ⟨s, w, d, hfleet.reachable, hw, hfind, hstate, htoken, hceiling, htransitions, ?_⟩
  refine hfleet.reachable.read_waits hw hfind hstate htoken (counted 30 127).size hepoch
    (Nat.le_refl 1) ?_ hlarge
  rw [htransitions]
  exact Nat.zero_le _

/-- The device has the first of 128 rosters, no transition follows, and no view comes back. -/
theorem enrolled_device_cannot_read_on :
    ∃ s w d, Reachable idealCrypto s ∧ s.find crowdedRead.workspaceID = some w ∧
      w.devices.find crowdedRead.deviceID = some d ∧ d.Enrolled ∧
      d.authTokenHash = idealCrypto.sha256 crowdedRead.authToken ∧
      crowdedRead.authToken.length = authTokenBytes ∧
      crowdedRead.afterRosterEpoch.toInt = (1 : Nat) ∧ 1 ≤ visibleCeiling w d ∧
      (transitionsWithin w.transitions.rows 1 (visibleCeiling w d)).length ≤
        maxAuthorityTransitions ∧
      ∀ view, (readMembershipState idealCrypto crowdedRead).alone
        (answerMembership idealCrypto crowdedRead s) false ≠ some (.ok view) := by
  obtain ⟨s, w, d, hs, hw, hd, hstate, htoken, hceiling, htransitions, hwaits⟩ := crowdedRead_waits
  refine ⟨s, w, d, hs, hw, hd, Or.inl hstate, htoken, (counted 30 127).size, by decide, ?_, ?_, ?_⟩
  · rw [hceiling]
    decide
  · rw [htransitions]
    exact Nat.zero_le _
  · intro view
    rw [hwaits]
    intro h
    cases h

end SevenMirror.Admission
