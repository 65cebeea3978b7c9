import SevenMirror.Admission.Certificates
import SevenMirror.Lib.Base64
import SevenMirror.MembershipCodec.Signing

/-! Membership administration does not get stuck.  What the store keeps is what the next call needs:
the latest roster is decoded, the certificates of the members are those of the roster, the roster that
follows is accepted, fits its size limit, and has a digest of its own. -/

namespace SevenMirror.Admission

open Lib MembershipCodec

/-! ### Instants and identifiers -/

theorem unixMillis_lt (t : Time) : unixMillis t < 0x8000000000000000 := by
  have h : (t.nanos / 1000000).bmod 0x10000000000000000 < (0x10000000000000000 + 1) / 2 :=
    Int.bmod_lt (by decide)
  exact h

/-- A positive instant is a positive number of 63 bits. -/
theorem unixMillisUnsigned_bounds {now : Time} (h : 0 < unixMillis now) :
    unixMillisUnsigned now ≠ 0 ∧ unixMillisUnsigned now ≤ maxEpoch := by
  have hlt := unixMillis_lt now
  have hvalue : (unixMillisUnsigned now).toNat = (unixMillis now).toNat := by
    simp only [unixMillisUnsigned, UInt64.ofInt, UInt64.toNat_ofNat']
    omega
  constructor
  · intro hzero
    rw [hzero] at hvalue
    simp only [UInt64.toNat_zero] at hvalue
    omega
  · rw [UInt64.le_iff_toNat_le, hvalue]
    simp only [maxEpoch, UInt64.reduceToNat]
    omega

theorem not_isZero {now : Time} (h : 0 < unixMillis now) : now.isZero = false := by
  rw [Bool.eq_false_iff]
  intro hzero
  have hnanos : now.nanos = -62135596800000000000 := by simpa [Time.isZero] using hzero
  rw [unixMillis, Time.unixMilli, hnanos] at h
  revert h
  decide

theorem validateDeviceName_iff {name : Bytes} :
    validateDeviceName name = .ok () ↔ validUtf8 name = true ∧ trimSpace name ≠ [] ∧
      name.length ≤ maxDeviceNameBytes := by
  simp only [validateDeviceName, reject_eq_ok, not_or, Decidable.not_not, Nat.not_lt, gt_iff_lt]

/-! ### Device references -/

theorem validDeviceReference_deviceReference (crypto : Crypto) (id : WorkspaceID)
    (deviceID : DeviceID) : validDeviceReference (deviceReference crypto id deviceID) = true := by
  simp only [validDeviceReference, deviceReference, decodeBase64URL_encodeBase64URL, List.length_take,
    (crypto.sha256 _).size]
  decide

section References

variable {crypto : Crypto} {w : Workspace} {d : Device}

/-- A reference that no other device has is resolved. -/
theorem resolveDeviceReference_succeeds (hd : d ∈ w.devices.rows)
    (hunique : ∀ x ∈ w.devices.rows,
      deviceReference crypto w.id x.id = deviceReference crypto w.id d.id → x.id = d.id) :
    resolveDeviceReference crypto w (deviceReference crypto w.id d.id) = .ok d.id := by
  have hfilter : (w.devices.rows.filter fun x =>
      deviceReference crypto w.id x.id = deviceReference crypto w.id d.id) = [d] := by
    refine Table.filter_eq_singleton hd fun x hx => ?_
    rw [decide_eq_true_eq]
    exact ⟨hunique x hx, fun heq => by rw [heq]⟩
  simp only [resolveDeviceReference, validDeviceReference_deviceReference, hfilter]
  rfl

end References

/-! ### Sorting -/

section Sorting

variable {α : Type} {key : α → Bytes}

/-- Items with distinct keys are strictly sorted. -/
theorem insertionSort_ascends {items : List α} (h : (items.map key).Nodup) :
    ((items.insertionSort fun a b => key a ≤ key b).map key).Pairwise (· < ·) := by
  have : Std.Total fun a b : α => key a ≤ key b := ⟨fun a b => List.le_total (key a) (key b)⟩
  have : IsTrans α fun a b => key a ≤ key b := ⟨fun _ _ _ => List.le_trans⟩
  have hsorted := List.pairwise_insertionSort (fun a b : α => key a ≤ key b) items
  have hnodup : ((items.insertionSort fun a b => key a ≤ key b).map key).Nodup :=
    ((List.perm_insertionSort _ items).map key).nodup_iff.mpr h
  rw [List.pairwise_map]
  rw [List.Nodup, List.pairwise_map] at hnodup
  exact (hsorted.and hnodup).imp fun ⟨hle, hne⟩ => Std.lt_of_le_of_ne hle hne

theorem nodup_of_ascends {keys : List Bytes} (h : keys.Pairwise (· < ·)) : keys.Nodup := by
  refine List.Pairwise.imp (fun {a b} (hlt : a < b) (heq : a = b) => ?_) h
  rw [heq] at hlt
  exact List.lt_irrefl _ hlt

theorem insertionSort_concat_ascends {items : List α} {x : α} (h : (items.map key).Nodup)
    (hx : key x ∉ items.map key) :
    (((items ++ [x]).insertionSort fun a b => key a ≤ key b).map key).Pairwise (· < ·) := by
  refine insertionSort_ascends ?_
  rw [List.map_append, List.nodup_append]
  refine ⟨h, List.nodup_singleton _, ?_⟩
  intro a ha b hb heq
  rw [List.map_singleton, List.mem_singleton] at hb
  exact hx (hb ▸ heq ▸ ha)

end Sorting

/-! ### The next roster -/

/-- What the store keeps of a workspace that may still publish. -/
structure Workspace.Healthy (crypto : Crypto) (initial : Block 32) (w : Workspace) : Prop where
  chained : w.Chained crypto initial
  agreed : w.Agreed crypto
  sound : ∀ d ∈ w.devices.rows, d.Sound crypto
  keeping : w.Keeping crypto
  room : w.rosters.rows.length < maxInt64

theorem Reachable.healthy {crypto : Crypto} {s : Registry} (hs : Reachable crypto s)
    {w : Workspace} (hw : w ∈ s.workspaces.rows) (hroom : w.rosters.rows.length < maxInt64) :
    ∃ initial, w.Healthy crypto initial := by
  obtain ⟨initial, h⟩ := hs.chained w hw
  exact ⟨initial, h, hs.agreed hw, hs.sound hw, hs.keeping hw, hroom⟩

section Rosters

variable {crypto : Crypto} {initial key : Block 32} {id : WorkspaceID} {w : Workspace}
  {row : RosterRow} {m : SignedWorkspaceRoster} {draft : WorkspaceRosterDraft}

theorem RosterRow.Holds.valid (h : row.Holds crypto id key m) :
    validateSignedWorkspaceRoster crypto m key.bytes = .ok () :=
  (encodeSignedWorkspaceRoster_iff.mp (decodeSignedWorkspaceRoster_iff.mp h.decodes)).1

theorem RosterRow.Holds.body_valid (h : row.Holds crypto id key m) :
    RosterValid crypto key.bytes m.body := by
  obtain ⟨-, -, roster, -, hroster, hvalid, -⟩ := validateSignedWorkspaceRoster_iff.mp h.valid
  simp only [SignedWorkspaceRoster.body, hroster, Option.getD_some]
  exact hvalid

theorem Workspace.Healthy.drafts (h : w.Healthy crypto initial) :
    ∃ draft, prepareNextWorkspaceRoster crypto w = .ok draft ∧ Drafts crypto w draft := by
  have hlatest := h.chained.rosters.latest
  cases hlast : w.rosters.rows.getLast? with
  | none =>
    refine ⟨firstDraft, ?_, .first (List.getLast?_eq_none_iff.mp hlast)⟩
    simp only [prepareNextWorkspaceRoster, hlatest, hlast]
    rfl
  | some row =>
    obtain ⟨m, hm⟩ := h.chained.last_holds hlast
    have hbelow : m.body.rosterEpoch < maxEpoch := by
      have hepoch := hm.epoch
      have hlength := h.chained.rosters.epochs.last hlast
      have hroom := h.room
      rw [UInt64.lt_iff_toNat_lt]
      simp only [maxEpoch, UInt64.reduceToNat, maxInt64] at hroom ⊢
      omega
    refine ⟨nextDraft m, ?_, .next row m hlast hm hbelow⟩
    simp only [prepareNextWorkspaceRoster, hlatest, hlast, bind_eq_ok, exists_unit, rethrow_eq_ok,
      reject_eq_ok, pure_eq_ok]
    exact ⟨m, hm.decodes, UInt64.not_le.mpr hbelow, rfl⟩

/-- What the lists of a draft satisfy. -/
structure Listed (draft : WorkspaceRosterDraft) : Prop where
  active_count : draft.activeCertificates.length ≤ maxActiveCertificates
  revocations : ∀ x ∈ draft.revocations, validateRevocation x = .ok ()
  revocations_order : (draft.revocations.map (·.certificateId)).Pairwise (· < ·)
  revocations_count : draft.revocations.length ≤ maxRevocations
  disjoint : ∀ x ∈ draft.revocations, ∀ c ∈ draft.activeCertificates,
    c.certificateId ≠ x.certificateId

theorem Drafts.listed (hd : Drafts crypto w draft) : Listed draft := by
  cases hd with
  | first => exact ⟨Nat.zero_le _, by simp [firstDraft], .nil, Nat.zero_le _, by simp [firstDraft]⟩
  | next row m _ hm _ =>
    have hvalid := hm.body_valid
    exact ⟨hvalid.active_count, hvalid.revocations, hvalid.revocations_order,
      hvalid.revocations_count, hvalid.disjoint⟩

theorem Drafts.previousDigest_size (hd : Drafts crypto w draft) :
    draft.previousDigest.length = digestSize := by
  cases hd with
  | first => rfl
  | next row m _ hm _ =>
    rw [nextDraft, hm.digest]
    exact row.digest.size

/-- Only the first draft follows no digest. -/
theorem Drafts.previousDigest_zero (ideal : crypto.Ideal) (h : w.Chained crypto initial)
    (hd : Drafts crypto w draft) :
    (draft.epoch = 1 → allZero draft.previousDigest = true) ∧
      (1 < draft.epoch → allZero draft.previousDigest = false) := by
  cases hd with
  | first => exact ⟨fun _ => by decide, fun hlt => absurd hlt (by decide)⟩
  | next row m hlast hm _ =>
    have hbounds := (h.rosters.epochs.bounds (List.mem_of_getLast? hlast)).1
    have hepoch := hm.epoch
    refine ⟨fun hone => ?_, fun _ => ?_⟩
    · simp only [nextDraft] at hone
      omega
    · obtain ⟨-, -, roster, encoded, -, -, -, hdigest, -⟩ :=
        validateSignedWorkspaceRoster_iff.mp hm.valid
      rw [nextDraft, hdigest]
      exact ideal.domainHash_nonzero _ _

/-- The members hold the active certificates, which are older than the draft. -/
theorem Workspace.Healthy.holder (h : w.Healthy crypto initial) (hd : Drafts crypto w draft)
    {c : SignedDeviceCertificate} (hc : c ∈ draft.activeCertificates) :
    ∃ d ∈ w.devices.rows, d.Member ∧ Certified crypto w.id w.authorityPublicKey d c ∧
      c.body.membershipEpoch.toNat < draft.epoch ∧ c.body.expiresAtUnixMs = 0 := by
  obtain ⟨hagrees, -⟩ := hd.agrees h.chained h.agreed
  obtain ⟨d, hmem, hmember, hcertified⟩ := hagrees.active c hc
  obtain ⟨hepoch, hexpires⟩ := (h.keeping d hmem hcertified.isSome).certified hcertified
  have hlength := hd.epoch_eq h.chained
  exact ⟨d, hmem, hmember, hcertified, by omega, hexpires⟩

/-- A certificate of the next roster is none of the revoked ones. -/
theorem Workspace.Healthy.unrevoked (h : w.Healthy crypto initial) (ideal : crypto.Ideal)
    (hd : Drafts crypto w draft) {c : SignedDeviceCertificate} {key : Bytes}
    (hc : validateSignedDeviceCertificate crypto c key = .ok ())
    (hepoch : c.body.membershipEpoch = UInt64.ofNat draft.epoch) :
    ∀ x ∈ draft.revocations, c.certificateId ≠ x.certificateId := by
  intro x hx heq
  obtain ⟨hagrees, -⟩ := hd.agrees h.chained h.agreed
  obtain ⟨d, hmem, -, -, hcolumn⟩ := hagrees.revocation x hx
  have hsome : d.certificateID.isSome := by
    cases hid : d.certificateID with
    | none => simp [hid] at hcolumn
    | some block => rfl
  obtain ⟨key', c', hcertified, hold, -⟩ := h.keeping d hmem hsome
  have hsame : c.certificateId = c'.certificateId := by
    have hid := hcertified.certificateID
    rw [hcolumn] at hid
    exact heq.trans (Option.some.inj hid)
  have hepochs := (ideal.certificateId_inj hc hcertified.valid hsame).2
  have hlength := hd.epoch_eq h.chained
  rw [← hepochs, hepoch, hd.epoch_toNat] at hold
  omega

/-- What an operation proposes for the next roster. -/
structure Proposed (crypto : Crypto) (w : Workspace) (draft : WorkspaceRosterDraft) (key : Bytes)
    (active : List SignedDeviceCertificate) (revocations : List RevokedCertificate)
    (transitions : List DeviceCertificateTransition) : Prop where
  active_count : active.length ≤ maxActiveCertificates
  active_valid : ∀ c ∈ active, validateSignedDeviceCertificate crypto c key = .ok () ∧
    c.body.workspaceId = w.id.bytes ∧ c.body.membershipEpoch.toNat ≤ draft.epoch
  active_order : (active.map (·.body.deviceId)).Pairwise (· < ·)
  transitions_count : transitions.length ≤ 1
  transitions_first : draft.epoch = 1 → transitions = []
  transitions_valid : ∀ t ∈ transitions,
    validateCertificateTransition (rosterOf w draft active revocations transitions) t = .ok () ∧
      replacementActive (rosterOf w draft active revocations transitions) t = true
  revocations_count : revocations.length ≤ maxRevocations
  revocations_valid : ∀ x ∈ revocations, validateRevocation x = .ok ()
  revocations_order : (revocations.map (·.certificateId)).Pairwise (· < ·)
  disjoint : ∀ x ∈ revocations, ∀ c ∈ active, c.certificateId ≠ x.certificateId

/-- The number of the next roster. -/
theorem Workspace.Healthy.epoch_bounds (h : w.Healthy crypto initial) (hd : Drafts crypto w draft) :
    UInt64.ofNat draft.epoch ≠ 0 ∧ UInt64.ofNat draft.epoch ≤ maxEpoch := by
  have hvalue := hd.epoch_toNat
  have hlength := hd.epoch_eq h.chained
  have hroom := h.room
  constructor
  · intro hzero
    rw [hzero, UInt64.toNat_zero] at hvalue
    omega
  · rw [UInt64.le_iff_toNat_le, hvalue]
    simp only [maxEpoch, UInt64.reduceToNat, maxInt64] at hroom ⊢
    omega

theorem Proposed.valid {key : Bytes} {active : List SignedDeviceCertificate}
    {revocations : List RevokedCertificate} {transitions : List DeviceCertificateTransition}
    (hp : Proposed crypto w draft key active revocations transitions)
    (h : w.Healthy crypto initial) (ideal : crypto.Ideal) (hid : allZero w.id.bytes = false)
    (hd : Drafts crypto w draft) :
    RosterValid crypto key (rosterOf w draft active revocations transitions) := by
  have hvalue := hd.epoch_toNat
  obtain ⟨hfirst, hlater⟩ := hd.previousDigest_zero ideal h.chained
  have hone : (rosterOf w draft active revocations transitions).rosterEpoch = 1 →
      draft.epoch = 1 := by
    intro heq
    rw [← hvalue]
    exact congrArg UInt64.toNat heq
  constructor
  case unknown => rfl
  case version => rfl
  case workspace => exact ⟨w.id.size, hid⟩
  case epoch => exact h.epoch_bounds hd
  case previous_size => exact hd.previousDigest_size
  case previous_first => exact fun heq => hfirst (hone heq)
  case previous_later =>
    intro hlt
    refine hlater ?_
    rw [← hvalue]
    exact UInt64.lt_iff_toNat_lt.mp hlt
  case active_count => exact hp.active_count
  case active =>
    intro c hc
    obtain ⟨hvalid, hworkspace, hepoch⟩ := hp.active_valid c hc
    refine validateActiveCertificate_iff.mpr ⟨hvalid, hworkspace, ?_⟩
    rw [UInt64.le_iff_toNat_le]
    exact Nat.le_trans hepoch (Nat.le_of_eq hvalue.symm)
  case active_order => exact hp.active_order
  case transitions_count => exact Nat.le_trans hp.transitions_count (by decide)
  case transitions_first => exact fun heq => hp.transitions_first (hone heq)
  case transitions => exact hp.transitions_valid
  case transitions_order =>
    have hcount := hp.transitions_count
    rcases transitions with _ | ⟨t, _ | ⟨t', rest⟩⟩
    · exact .nil
    · exact List.pairwise_singleton _ _
    · simp at hcount
  case revocations_count => exact hp.revocations_count
  case revocations => exact hp.revocations_valid
  case revocations_order => exact hp.revocations_order
  case disjoint => exact hp.disjoint

theorem Block.check_of_size {n : Nat} {b : Bytes} (h : b.length = n) :
    ∃ block : Block n, Block.check n b = some block :=
  ⟨⟨b, h⟩, Block.check_eq_some.mpr rfl⟩

/-- An accepted roster is signed, encoded, and inserted. -/
theorem Workspace.Healthy.publishes (h : w.Healthy crypto initial) (ideal : crypto.Ideal)
    (hd : Drafts crypto w draft) {privateKey : Bytes} (hkey : KeyPair crypto privateKey)
    {body : WorkspaceRoster} (hbody : RosterValid crypto (publicKey privateKey) body)
    (hepoch : body.rosterEpoch = UInt64.ofNat draft.epoch) (now : Time) {v : Workspace}
    (hv : v.rosters = w.rosters) :
    ∃ roster encoded v', signWorkspaceRoster crypto body privateKey = .ok roster ∧
      encodeSignedWorkspaceRoster crypto roster (publicKey privateKey) = .ok encoded ∧
      insertWorkspaceRoster v draft.epoch draft.previousDigest roster encoded now = .ok v' := by
  obtain ⟨roster, encoded, hsign, hroster, hencode⟩ := signWorkspaceRoster_succeeds hkey hbody
  have hvalid := (encodeSignedWorkspaceRoster_iff.mp hencode).1
  obtain ⟨-, -, -, text, -, -, -, hdigest, -⟩ := validateSignedWorkspaceRoster_iff.mp hvalid
  obtain ⟨digest, hcheck⟩ : ∃ block, Block.check 32 roster.rosterDigest = some block :=
    Block.check_of_size (by rw [hdigest, domainHash_length]; rfl)
  obtain ⟨previous, hprevious⟩ : ∃ block, Block.check 32 draft.previousDigest = some block :=
    Block.check_of_size hd.previousDigest_size
  have hlength := hd.epoch_eq h.chained
  -- the digest and the number are those of no earlier roster
  have hnew : ∀ r ∈ w.rosters.rows, r.digest ≠ digest ∧ r.epoch ≠ draft.epoch := by
    intro r hr
    have hbound := (h.chained.rosters.epochs.bounds hr).2
    refine ⟨fun heq => ?_, by omega⟩
    obtain ⟨m, hm⟩ := h.chained.rosters.holds r hr
    have hsame : m.rosterDigest = roster.rosterDigest := by
      rw [hm.digest, heq, Block.check_eq_some.mp hcheck]
    have hepochs := ideal.rosterDigest_inj hm.valid hvalid hsame
    have hnumber : roster.body.rosterEpoch.toNat = draft.epoch := by
      simp only [SignedWorkspaceRoster.body, hroster, Option.getD_some, hepoch, hd.epoch_toNat]
    have hold := hm.epoch
    rw [hepochs, hnumber] at hold
    omega
  refine ⟨roster, encoded, { v with rosters := ⟨v.rosters.rows ++
    [⟨draft.epoch, digest, previous, encoded, unixMillis now⟩], ?_⟩ }, hsign, hencode, ?_⟩
  · rw [List.pairwise_append]
    refine ⟨v.rosters.distinct, List.pairwise_singleton _ _, fun r hr x hx => ?_⟩
    rw [List.mem_singleton.mp hx]
    exact (hnew r (hv ▸ hr)).2
  · simp only [insertWorkspaceRoster, bind_eq_ok, exists_unit, require_eq_ok, reject_eq_ok,
      pure_eq_ok]
    refine ⟨digest, hcheck, previous, hprevious, ?_, _, Table.insert_eq_some.mpr ⟨?_, rfl⟩, rfl⟩
    · simp only [List.any_eq_true, decide_eq_true_eq, not_exists, not_and]
      exact fun r hr => (hnew r (hv ▸ hr)).1
    · exact fun r hr => (hnew r (hv ▸ hr)).2

end Rosters

end SevenMirror.Admission
