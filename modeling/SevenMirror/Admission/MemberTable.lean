import SevenMirror.Admission.Agreement

/-! The rosters of a workspace as an abstract membership: who its members are, and which pairs of
certificate and device are revoked.  Each operation changes the membership of the latest roster in
its own way, and keeps the certificates of all other devices as they are. -/

namespace SevenMirror.Admission

open Lib MembershipCodec

/-- What a roster says of a member. -/
structure MemberEntry where
  deviceType : MembershipCodec.DeviceType
  displayName : Bytes
  roles : List DeviceRole
  identityPublicKey : Bytes
  expiresAtUnixMs : UInt64
deriving DecidableEq, Repr

/-- The members by their device identifiers, and the revoked pairs of certificate and device. -/
@[ext] structure MemberTable where
  members : Bytes → Option MemberEntry
  revoked : Bytes × Bytes → Prop

namespace MemberTable

def insert (t : MemberTable) (device : Bytes) (entry : MemberEntry) : MemberTable :=
  { t with members := fun x => if x = device then some entry else t.members x }

def rename (t : MemberTable) (device name : Bytes) : MemberTable :=
  { t with members := fun x =>
      if x = device then (t.members x).map ({ · with displayName := name }) else t.members x }

def revoke (t : MemberTable) (device certificate : Bytes) : MemberTable where
  members x := if x = device then none else t.members x
  revoked p := p = (certificate, device) ∨ t.revoked p

end MemberTable

def entryOf (certificate : DeviceCertificate) : MemberEntry where
  deviceType := certificate.deviceType
  displayName := certificate.displayName
  roles := certificate.roles
  identityPublicKey := certificate.identityPublicKey
  expiresAtUnixMs := certificate.expiresAtUnixMs

/-- The membership of a roster. -/
def tableOf (active : List SignedDeviceCertificate) (revocations : List RevokedCertificate) :
    MemberTable where
  members device := (active.find? fun c => c.body.deviceId = device).map (entryOf ·.body)
  revoked p := ∃ x ∈ revocations, (x.certificateId, x.deviceId) = p

section Tables

variable {active active' : List SignedDeviceCertificate}
  {revocations revocations' : List RevokedCertificate} {device : Bytes}

/-- The certificates are those of distinct devices. -/
def Distinct (active : List SignedDeviceCertificate) : Prop :=
  active.Pairwise fun c c' => c.body.deviceId ≠ c'.body.deviceId

theorem distinct_of_ordered (h : (active.map (·.body.deviceId)).Pairwise (· < ·)) :
    Distinct active := by
  refine (List.pairwise_map.mp h).imp fun hlt heq => ?_
  rw [heq] at hlt
  exact List.lt_irrefl _ hlt

theorem tableOf_members (h : Distinct active) {entry : MemberEntry} :
    (tableOf active revocations).members device = some entry ↔
      ∃ c ∈ active, c.body.deviceId = device ∧ entryOf c.body = entry := by
  have hfind (c : SignedDeviceCertificate) := Table.find_eq_some
    (t := (⟨active, h⟩ : Table fun c : SignedDeviceCertificate => c.body.deviceId)) (k := device)
    (r := c)
  simp only [Table.find] at hfind
  simp only [tableOf, Option.map_eq_some_iff, hfind, and_assoc]

/-- Tables are equal if they have the same entries. -/
theorem tableOf_eq (h : Distinct active) {t : MemberTable}
    (hmembers : ∀ x entry, (∃ c ∈ active, c.body.deviceId = x ∧ entryOf c.body = entry) ↔
      t.members x = some entry)
    (hrevoked : ∀ p, (∃ x ∈ revocations, (x.certificateId, x.deviceId) = p) ↔ t.revoked p) :
    tableOf active revocations = t := by
  refine MemberTable.ext (funext fun x => Option.ext fun entry => ?_)
    (funext fun p => propext (hrevoked p))
  rw [tableOf_members h]
  exact hmembers x entry

theorem tableOf_insert (revocations : List RevokedCertificate) {new : SignedDeviceCertificate}
    (h : Distinct active) (h' : Distinct active')
    (hactive : ∀ c, c ∈ active' ↔ c ∈ active ∨ c = new)
    (hfresh : new.body.deviceId ∉ active.map (·.body.deviceId)) :
    tableOf active' revocations =
      (tableOf active revocations).insert new.body.deviceId (entryOf new.body) := by
  refine tableOf_eq h' (fun x entry => ?_) (fun p => Iff.rfl)
  simp only [MemberTable.insert, hactive, or_and_right, exists_or, exists_eq_left]
  split
  · rename_i hx
    subst hx
    rw [Option.some.injEq]
    refine ⟨fun hc => ?_, fun hentry => Or.inr ⟨rfl, hentry⟩⟩
    rcases hc with ⟨c, hc, hdevice, -⟩ | ⟨-, hentry⟩
    · exact absurd (List.mem_map.mpr ⟨c, hc, hdevice⟩) hfresh
    · exact hentry
  · rename_i hx
    rw [tableOf_members h]
    exact or_iff_left fun hnew => hx hnew.1.symm

theorem tableOf_rename (revocations : List RevokedCertificate) (name : Bytes)
    {old new : SignedDeviceCertificate} (h : Distinct active) (h' : Distinct active')
    (hold : old ∈ active) (hdevice : old.body.deviceId = device)
    (hactive : ∀ c, c ∈ active' ↔ (c ∈ active ∧ c.body.deviceId ≠ device) ∨ c = new)
    (hnew : new.body.deviceId = device)
    (hentry : entryOf new.body = { entryOf old.body with displayName := name }) :
    tableOf active' revocations = (tableOf active revocations).rename device name := by
  refine tableOf_eq h' (fun x entry => ?_) (fun p => Iff.rfl)
  simp only [MemberTable.rename, hactive, or_and_right, exists_or, exists_eq_left]
  have hmember : (tableOf active revocations).members device = some (entryOf old.body) :=
    (tableOf_members h).mpr ⟨old, hold, hdevice, rfl⟩
  split
  · rename_i hx
    subst hx
    rw [hmember, Option.map_some, Option.some.injEq, ← hentry]
    refine ⟨fun hc => ?_, fun heq => Or.inr ⟨hnew, heq⟩⟩
    rcases hc with ⟨c, ⟨-, hne⟩, heq, -⟩ | ⟨-, heq⟩
    · exact absurd heq hne
    · exact heq
  · rename_i hx
    rw [tableOf_members h]
    constructor
    · rintro (⟨c, ⟨hc, -⟩, hc'⟩ | ⟨heq, -⟩)
      · exact ⟨c, hc, hc'⟩
      · exact absurd (heq.symm.trans hnew) hx
    · rintro ⟨c, hc, rfl, hc'⟩
      exact Or.inl ⟨c, ⟨hc, hx⟩, rfl, hc'⟩

theorem tableOf_revoke {x : RevokedCertificate} (h : Distinct active) (h' : Distinct active')
    (hactive : ∀ c, c ∈ active' ↔ c ∈ active ∧ c.body.deviceId ≠ x.deviceId)
    (hrevocations : ∀ y, y ∈ revocations' ↔ y ∈ revocations ∨ y = x) :
    tableOf active' revocations' =
      (tableOf active revocations).revoke x.deviceId x.certificateId := by
  refine tableOf_eq h' (fun y entry => ?_) (fun p => ?_)
  · simp only [MemberTable.revoke, hactive]
    split
    · rename_i hy
      subst hy
      refine ⟨?_, nofun⟩
      rintro ⟨c, ⟨-, hne⟩, heq, -⟩
      exact absurd heq hne
    · rename_i hy
      rw [tableOf_members h]
      constructor
      · rintro ⟨c, ⟨hc, -⟩, hc'⟩
        exact ⟨c, hc, hc'⟩
      · rintro ⟨c, hc, rfl, hc'⟩
        exact ⟨c, ⟨hc, hy⟩, rfl, hc'⟩
  · simp only [MemberTable.revoke, tableOf, hrevocations, or_and_right, exists_or, exists_eq_left]
    rw [or_comm, @eq_comm _ p]

/-- Certificates of the same devices with the same entries. -/
theorem tableOf_congr (h : List.Forall₂ (fun c c' : SignedDeviceCertificate =>
      c'.body.deviceId = c.body.deviceId ∧ entryOf c'.body = entryOf c.body) active active') :
    tableOf active' revocations = tableOf active revocations := by
  refine MemberTable.ext (funext fun x => ?_) rfl
  simp only [tableOf]
  induction h with
  | nil => rfl
  | @cons c c' rest rest' hc _ ih =>
    simp only [List.find?_cons, hc.1]
    split
    · rw [Option.map_some, Option.map_some, hc.2]
    · exact ih

end Tables

/-! ### Operations -/

/-- The latest roster of `w` lists these, and that of `w'` is `m`. -/
structure Succeeds (crypto : Crypto) (w w' : Workspace) (active : List SignedDeviceCertificate)
    (revocations : List RevokedCertificate) (m : SignedWorkspaceRoster) : Prop where
  before : Current crypto w active revocations
  after : ∃ row, latestRoster w'.rosters.rows = some row ∧
    decodeSignedWorkspaceRoster crypto row.signedRoster w'.authorityPublicKey.bytes = .ok m

/-- The certificates of all other devices are the same. -/
def Untouched (device : Bytes) (active active' : List SignedDeviceCertificate) : Prop :=
  ∀ c, c.body.deviceId ≠ device → (c ∈ active' ↔ c ∈ active)

section Changes

variable (crypto : Crypto) (w w' : Workspace)

/-- The device joins, with the columns of its row and these roles. -/
def Inserts (d : Device) (roles : List DeviceRole) : Prop :=
  ∃ active revocations m, Succeeds crypto w w' active revocations m ∧
    (tableOf active revocations).members d.id.bytes = none ∧
    tableOf m.body.activeCertificates m.body.revocations =
      (tableOf active revocations).insert d.id.bytes
        ⟨membershipDeviceType d.deviceType, d.deviceName, roles, d.e2eePublicKey.bytes, 0⟩ ∧
    m.body.certificateTransitions = [] ∧
    Untouched d.id.bytes active m.body.activeCertificates

/-- The device has another name, and the one transition of the roster leads from its old certificate
to its new one. -/
def Renames (d : Device) (name : Bytes) : Prop :=
  ∃ active revocations m, Succeeds crypto w w' active revocations m ∧
    tableOf m.body.activeCertificates m.body.revocations =
      (tableOf active revocations).rename d.id.bytes name ∧
    (∃ old ∈ active, ∃ new ∈ m.body.activeCertificates, ∃ t,
      old.body.deviceId = d.id.bytes ∧ new.body.deviceId = d.id.bytes ∧
      m.body.certificateTransitions = [t] ∧ t.deviceId = d.id.bytes ∧
      t.reason = reasonDisplayName ∧ t.previousCertificateId = old.certificateId ∧
      t.newCertificateId = new.certificateId) ∧
    Untouched d.id.bytes active m.body.activeCertificates

/-- The certificate of the device passes from the active ones to the revoked ones. -/
def Withdraws (d : Device) : Prop :=
  ∃ active revocations m, Succeeds crypto w w' active revocations m ∧
    (∃ c ∈ active, c.body.deviceId = d.id.bytes ∧
      tableOf m.body.activeCertificates m.body.revocations =
        (tableOf active revocations).revoke d.id.bytes c.certificateId) ∧
    m.body.certificateTransitions = [] ∧
    Untouched d.id.bytes active m.body.activeCertificates

/-- Nothing changes but the signature, the issue time, and the membership epoch of every
certificate. -/
def Reissues (newKey : Bytes) (now : Time) : Prop :=
  ∃ active revocations m, Succeeds crypto w w' active revocations m ∧
    tableOf m.body.activeCertificates m.body.revocations = tableOf active revocations ∧
    m.body.certificateTransitions = [] ∧
    List.Forall₂ (fun old new : SignedDeviceCertificate =>
      new.body = { old.body with
        issuedAtUnixMs := unixMillisUnsigned now, membershipEpoch := m.body.rosterEpoch } ∧
      validateSignedDeviceCertificate crypto new newKey = .ok ())
      active m.body.activeCertificates

end Changes

section Operations

variable {crypto : Crypto} {initial : Block 32} {w w' : Workspace} {devices : Table Device.id}
  {rosters : Table RosterRow.epoch}

theorem Published.succeeds {body : WorkspaceRoster} {draft : WorkspaceRosterDraft}
    (hpublished : Published crypto w w' body) (h : w.Chained crypto initial)
    (h' : w'.Chained crypto initial) (hd : Drafts crypto w draft) :
    ∃ m, Succeeds crypto w w' draft.activeCertificates draft.revocations m ∧ m.body = body ∧
      Distinct body.activeCertificates := by
  have hdistinct := distinct_of_ordered (hpublished.current h').ordered.1
  obtain ⟨row, m, hrows, hm, hbody⟩ := hpublished
  refine ⟨m, ⟨hd.current h, row, ?_, hm.decodes⟩, by simp [SignedWorkspaceRoster.body, hbody],
    hdistinct⟩
  rw [h'.rosters.latest, hrows, List.getLast?_concat]

theorem Approval.Takes.inserts {a : Approval} (ha : a.Takes crypto w devices rosters)
    (h : w.Chained crypto initial) (hagreed : w.Agreed crypto)
    (h' : { w with devices, rosters }.Chained crypto initial) :
    Inserts crypto w { w with devices, rosters } a.device a.input.roles := by
  obtain ⟨m, hm, hbody, hdistinct'⟩ := ha.published.succeeds h h' ha.draft
  obtain ⟨hagrees, hordered⟩ := ha.draft.agrees h hagreed
  have hdistinct := distinct_of_ordered hordered
  have hfresh := hagrees.not_active ha.replaces.mem (by simp [Device.Member, ha.state])
  have hcertificate : a.certificate.body =
      joiningCertificate crypto w a.device a.input a.draft.epoch := by
    simp [SignedDeviceCertificate.body, ha.body]
  have hdevice : a.certificate.body.deviceId = a.device.id.bytes := by
    rw [hcertificate]
    rfl
  have hactive (c : SignedDeviceCertificate) : c ∈ m.body.activeCertificates ↔
      c ∈ a.draft.activeCertificates ∨ c = a.certificate := by
    rw [hbody, rosterOf, (sortCertificates_perm _).mem_iff, List.mem_append, List.mem_singleton]
  refine ⟨_, _, m, hm, ?_, ?_, by rw [hbody]; rfl, fun c hne => ?_⟩
  · refine Option.eq_none_iff_forall_ne_some.mpr fun entry hentry => hfresh ?_
    obtain ⟨c, hc, hid, -⟩ := (tableOf_members hdistinct).mp hentry
    exact List.mem_map.mpr ⟨c, hc, hid⟩
  · have hinsert := tableOf_insert a.draft.revocations hdistinct
      (hbody ▸ hdistinct') hactive (hdevice ▸ hfresh)
    rw [hdevice, hcertificate] at hinsert
    rw [hbody] at hinsert ⊢
    exact hinsert
  · rw [hactive]
    exact or_iff_left fun heq => hne (heq ▸ hdevice)

theorem Renaming.Takes.renames {r : Renaming} (hr : r.Takes crypto w devices rosters)
    (h : w.Chained crypto initial) (hagreed : w.Agreed crypto)
    (h' : { w with devices, rosters }.Chained crypto initial) :
    Renames crypto w { w with devices, rosters } r.device r.input.displayName := by
  obtain ⟨m, hm, hbody, hdistinct'⟩ := hr.published.succeeds h h' hr.draft
  obtain ⟨hagrees, hordered⟩ := hr.draft.agrees h hagreed
  have hdistinct := distinct_of_ordered hordered
  obtain ⟨old, hold, hcertified⟩ := hagrees.member r.device hr.replaces.mem hr.member
  have hprevious : r.previous = old := hcertified.eq (storedCertificate_ok hr.stored).1
  have hreplacement : r.replacement.body =
      renamedCertificate old.body r.input r.draft.epoch := by
    simp [SignedDeviceCertificate.body, hr.body, hprevious]
  have hdevice : r.replacement.body.deviceId = r.device.id.bytes := by
    rw [hreplacement, ← hcertified.device]
    rfl
  have hactive (c : SignedDeviceCertificate) : c ∈ m.body.activeCertificates ↔
      (c ∈ r.draft.activeCertificates ∧ c.body.deviceId ≠ r.device.id.bytes) ∨
        c = r.replacement := by
    rw [hbody, rosterOf, (sortCertificates_perm _).mem_iff, withoutDevice_ok hr.others]
    simp
  refine ⟨_, _, m, hm, ?_, ⟨old, hold, r.replacement, (hactive _).mpr (Or.inr rfl), ?_⟩,
    fun c hne => ?_⟩
  · have hrename := tableOf_rename r.draft.revocations r.input.displayName hdistinct
      (hbody ▸ hdistinct') hold hcertified.device hactive hdevice (by rw [hreplacement]; rfl)
    rw [hbody] at hrename ⊢
    exact hrename
  · refine ⟨_, hcertified.device, hdevice, by rw [hbody]; rfl, rfl, rfl, ?_, rfl⟩
    rw [← hprevious]
    rfl
  · rw [hactive]
    constructor
    · rintro (⟨hc, -⟩ | rfl)
      · exact hc
      · exact absurd hdevice hne
    · exact fun hc => Or.inl ⟨hc, hne⟩

theorem Revocation.Takes.withdraws {r : Revocation} (hr : r.Takes crypto w devices rosters)
    (h : w.Chained crypto initial) (hagreed : w.Agreed crypto)
    (h' : { w with devices, rosters }.Chained crypto initial) :
    Withdraws crypto w { w with devices, rosters } r.device := by
  obtain ⟨m, hm, hbody, hdistinct'⟩ := hr.published.succeeds h h' hr.draft
  obtain ⟨hagrees, hordered⟩ := hr.draft.agrees h hagreed
  have hdistinct := distinct_of_ordered hordered
  obtain ⟨c, hc, hcertified⟩ := hagrees.member r.device hr.replaces.mem hr.member
  have hcertificate : (revocationOf r.device r.input.now).certificateId = c.certificateId := by
    simp [revocationOf, hcertified.certificateID]
  have hactive (c : SignedDeviceCertificate) : c ∈ m.body.activeCertificates ↔
      c ∈ r.draft.activeCertificates ∧
        c.body.deviceId ≠ (revocationOf r.device r.input.now).deviceId := by
    rw [hbody, rosterOf, withoutDevice_ok hr.others]
    simp [revocationOf]
  have hrevocations (x : RevokedCertificate) : x ∈ m.body.revocations ↔
      x ∈ r.draft.revocations ∨ x = revocationOf r.device r.input.now := by
    rw [hbody, rosterOf, (sortRevocations_perm _).mem_iff, List.mem_append, List.mem_singleton]
  refine ⟨_, _, m, hm, ⟨c, hc, hcertified.device, ?_⟩, by rw [hbody]; rfl, fun c hne => ?_⟩
  · rw [tableOf_revoke hdistinct (hbody ▸ hdistinct') hactive hrevocations, hcertificate]
    rfl
  · rw [hactive]
    exact and_iff_left hne

theorem reissueCertificates_each {input : RotateWorkspaceAuthorityInput} {epoch : Nat}
    {todo active : List SignedDeviceCertificate} {devices devices' : Table Device.id}
    (hok : reissueCertificates crypto input epoch todo devices = .ok (devices', active)) :
    List.Forall₂ (fun old new : SignedDeviceCertificate =>
      new.body = reissuedCertificate old.body input.now epoch ∧
      validateSignedDeviceCertificate crypto new (publicKey input.newAuthorityPrivateKey) = .ok ())
      todo active := by
  induction todo generalizing devices active with
  | nil =>
    cases hok
    exact .nil
  | cons old rest ih =>
    simp only [reissueCertificates, bind_eq_ok, exists_unit, rethrow_eq_ok, require_eq_ok,
      reject_eq_ok, pure_eq_ok, Prod.mk.injEq] at hok
    obtain ⟨new, hsign, encoded, hencode, block, -, -, ⟨devices₁, active₁⟩, hrest, rfl, rfl⟩ := hok
    refine .cons ⟨?_, (encodeSignedDeviceCertificate_iff.mp hencode).1⟩ (ih hrest)
    simp [SignedDeviceCertificate.body, signDeviceCertificate_ok hsign]

theorem AuthorityRotation.Takes.reissues {a : AuthorityRotation}
    {transitions : Table TransitionRow.epoch}
    (ha : a.Takes crypto w devices rosters transitions) (h : w.Chained crypto initial)
    (hw' : w' = { w with
      devices, rosters, transitions, authorityPublicKey := a.newKey
      authorityEpoch := w.authorityEpoch + 1, authorityTransitionDigest := a.digest })
    (h' : w'.Chained crypto initial) :
    Reissues crypto w w' (publicKey a.input.newAuthorityPrivateKey) a.input.now := by
  subst hw'
  obtain ⟨m, hm, hbody, -⟩ := ha.published.succeeds h h' ha.draft
  have heach := reissueCertificates_each ha.reissue
  refine ⟨_, _, m, hm, ?_, by rw [hbody]; rfl, ?_⟩
  · rw [hbody]
    refine tableOf_congr (heach.imp fun old new hnew => ?_)
    rw [hnew.1]
    exact ⟨rfl, rfl⟩
  · rw [hbody]
    exact heach

end Operations

section Refinement

variable {crypto : Crypto} {s s' : Registry} {w w' : Workspace} {id : WorkspaceID}

theorem Registry.find_put (hw : s.find id = some w) (hid : w'.id = w.id) :
    (s.put w').find id = some w' := by
  obtain ⟨hmem, rfl⟩ := Registry.find_eq_some.mp hw
  exact Registry.find_eq_some.mpr
    ⟨((Registry.put_replaces hmem hid).rows w').mpr (Or.inl rfl), hid⟩

/-- A reference names the one device that has it. -/
theorem resolveDeviceReference_filter {reference : Bytes} {deviceID : DeviceID}
    (h : resolveDeviceReference crypto w reference = .ok deviceID) :
    ∃ d, d.id = deviceID ∧
      (w.devices.rows.filter fun d => deviceReference crypto w.id d.id = reference) = [d] := by
  simp only [resolveDeviceReference, bind_eq_ok, exists_unit] at h
  obtain ⟨-, h⟩ := h
  split at h
  · cases h
  · rename_i d hd
    cases h
    exact ⟨d, rfl, hd⟩
  · cases h

theorem resolveDeviceReference_ok {reference : Bytes} {deviceID : DeviceID}
    (h : resolveDeviceReference crypto w reference = .ok deviceID) :
    ∃ d ∈ w.devices.rows, d.id = deviceID ∧ deviceReference crypto w.id d.id = reference := by
  obtain ⟨d, hid, hfilter⟩ := resolveDeviceReference_filter h
  have hmem : d ∈ w.devices.rows.filter fun d => deviceReference crypto w.id d.id = reference := by
    rw [hfilter]
    exact List.mem_singleton_self d
  simp only [List.mem_filter, decide_eq_true_eq] at hmem
  exact ⟨d, hmem.1, hid, hmem.2⟩

theorem resolveDeviceReference_unique {reference : Bytes} {deviceID : DeviceID}
    (h : resolveDeviceReference crypto w reference = .ok deviceID) {d : Device}
    (hd : d ∈ w.devices.rows) (hreference : deviceReference crypto w.id d.id = reference) :
    d.id = deviceID := by
  obtain ⟨x, rfl, hfilter⟩ := resolveDeviceReference_filter h
  have hmem : d ∈ w.devices.rows.filter fun d => deviceReference crypto w.id d.id = reference :=
    List.mem_filter.mpr ⟨hd, decide_eq_true hreference⟩
  rw [hfilter, List.mem_singleton] at hmem
  rw [hmem]

theorem Reachable.agreed (hs : Reachable crypto s) (hw : w ∈ s.workspaces.rows) :
    w.Agreed crypto := by
  obtain ⟨calls, rfl⟩ := hs
  exact (store_keeps newWorkspace_agreed WorkspaceStep.agreed calls w hw).2

theorem approvePendingMembership_inserts (hs : Reachable crypto s) {input : ApprovePendingDevice}
    {change : MembershipChange} (hok : approvePendingMembership crypto s input = .ok (s', change)) :
    ∃ w w' d, s.find input.workspaceID = some w ∧ s'.find input.workspaceID = some w' ∧
      d ∈ w.devices.rows ∧ deviceReference crypto w.id d.id = input.deviceReference ∧
      Inserts crypto w w' d input.roles := by
  simp only [approvePendingMembership, bind_eq_ok, exists_unit, require_eq_ok, pure_eq_ok,
    Prod.mk.injEq] at hok
  obtain ⟨-, w, hw, deviceID, hresolve, ⟨w', change'⟩, happrove, rfl, -⟩ := hok
  have hmem := (Registry.find_eq_some.mp hw).1
  obtain ⟨initial, h⟩ := hs.chained w hmem
  obtain ⟨a, devices, rosters, rfl, hid, ha, rfl, h'⟩ := approveDevice_takes h happrove
  obtain ⟨d, hd, hdid, hreference⟩ := resolveDeviceReference_ok hresolve
  obtain rfl := Table.eq_of_key hd ha.replaces.mem (hdid.trans hid.symm)
  exact ⟨w, _, a.device, hw, Registry.find_put hw rfl, hd, hreference,
    ha.inserts h (hs.agreed hmem) h'⟩

theorem renameDevice_renames (hs : Reachable crypto s) {input : RenameDeviceInput}
    {change : MembershipChange} (hok : renameDevice crypto s input = .ok (s', change)) :
    ∃ w w' d, s.find input.workspaceID = some w ∧ s'.find input.workspaceID = some w' ∧
      d ∈ w.devices.rows ∧ deviceReference crypto w.id d.id = input.deviceReference ∧
      Renames crypto w w' d input.displayName := by
  simp only [renameDevice, bind_eq_ok, exists_unit, require_eq_ok, pure_eq_ok,
    Prod.mk.injEq] at hok
  obtain ⟨hname, w, hw, deviceID, hresolve, ⟨w', change'⟩, hrename, rfl, -⟩ := hok
  have hmem := (Registry.find_eq_some.mp hw).1
  obtain ⟨initial, h⟩ := hs.chained w hmem
  obtain ⟨r, devices, rosters, rfl, hid, hr, rfl, h'⟩ := renameDeviceTo_takes h hname hrename
  obtain ⟨d, hd, hdid, hreference⟩ := resolveDeviceReference_ok hresolve
  obtain rfl := Table.eq_of_key hd hr.replaces.mem (hdid.trans hid.symm)
  exact ⟨w, _, r.device, hw, Registry.find_put hw rfl, hd, hreference,
    hr.renames h (hs.agreed hmem) h'⟩

/-- A device that is no member has no certificate to withdraw. -/
theorem revokeDevice_withdraws (hs : Reachable crypto s) {input : RevokeDeviceInput}
    {revoked : RevokedDevice} (hok : revokeDevice crypto s input = .ok (s', revoked)) :
    ∃ w w' d, s.find input.workspaceID = some w ∧ s'.find input.workspaceID = some w' ∧
      d ∈ w.devices.rows ∧ deviceReference crypto w.id d.id = input.deviceReference ∧
      (d.Member ∧ Withdraws crypto w w' d ∨ ¬ d.Member ∧ w'.rosters = w.rosters) := by
  simp only [revokeDevice, bind_eq_ok, require_eq_ok, pure_eq_ok, Prod.mk.injEq] at hok
  obtain ⟨w, hw, deviceID, hresolve, ⟨w', revoked'⟩, hrevoke, rfl, -⟩ := hok
  have hmem := (Registry.find_eq_some.mp hw).1
  obtain ⟨initial, h⟩ := hs.chained w hmem
  obtain ⟨d, hd, rfl, h', changed, -, hrevokes⟩ := revokeDeviceOf_revokes h hrevoke
  obtain ⟨x, hx, hid, hreference⟩ := resolveDeviceReference_ok hresolve
  obtain rfl := Table.eq_of_key hd hx hid.symm
  cases hrevokes with
  | already hrevoked =>
    refine ⟨w, w, d, hw, Registry.find_put hw rfl, hd, hreference, Or.inr ⟨fun hm => ?_, rfl⟩⟩
    simp [hm.2] at hrevoked
  | pending devices hstate _ _ =>
    exact ⟨w, _, d, hw, Registry.find_put hw rfl, hd, hreference,
      Or.inr ⟨fun hm => hstate hm.1, rfl⟩⟩
  | member r devices rosters _ hdevice hr _ =>
    subst hdevice
    exact ⟨w, _, r.device, hw, Registry.find_put hw rfl, hd, hreference,
      Or.inl ⟨hr.member, hr.withdraws h (hs.agreed hmem) h'⟩⟩

theorem rotateWorkspaceAuthority_reissues (hs : Reachable crypto s)
    {input : RotateWorkspaceAuthorityInput} {rotated : RotatedWorkspaceAuthority}
    (hok : rotateWorkspaceAuthority crypto s input = .ok (s', rotated)) :
    ∃ w w', s.find input.workspaceID = some w ∧ s'.find input.workspaceID = some w' ∧
      Reissues crypto w w' (publicKey input.newAuthorityPrivateKey) input.now := by
  simp only [rotateWorkspaceAuthority, bind_eq_ok, exists_unit, require_eq_ok, pure_eq_ok,
    Prod.mk.injEq] at hok
  obtain ⟨-, -, w, hw, ⟨w', rotated'⟩, hrotate, rfl, -⟩ := hok
  obtain ⟨initial, h⟩ := hs.chained w (Registry.find_eq_some.mp hw).1
  obtain ⟨a, devices, rosters, transitions, rfl, ha, hw', h'⟩ := rotateAuthority_takes h hrotate
  exact ⟨w, w', hw, Registry.find_put hw (by rw [hw']), ha.reissues h hw' h'⟩

end Refinement

/-- Every operation changes the membership of the latest roster in its own way and in no other. -/
theorem rosters_refine_membership (crypto : Crypto) (s : Registry) (hs : Reachable crypto s) :
    (∀ input s' change, approvePendingMembership crypto s input = .ok (s', change) →
      ∃ w w' d, s.find input.workspaceID = some w ∧ s'.find input.workspaceID = some w' ∧
        d ∈ w.devices.rows ∧ deviceReference crypto w.id d.id = input.deviceReference ∧
        Inserts crypto w w' d input.roles) ∧
    (∀ input s' change, renameDevice crypto s input = .ok (s', change) →
      ∃ w w' d, s.find input.workspaceID = some w ∧ s'.find input.workspaceID = some w' ∧
        d ∈ w.devices.rows ∧ deviceReference crypto w.id d.id = input.deviceReference ∧
        Renames crypto w w' d input.displayName) ∧
    (∀ input s' revoked, revokeDevice crypto s input = .ok (s', revoked) →
      ∃ w w' d, s.find input.workspaceID = some w ∧ s'.find input.workspaceID = some w' ∧
        d ∈ w.devices.rows ∧ deviceReference crypto w.id d.id = input.deviceReference ∧
        (d.Member ∧ Withdraws crypto w w' d ∨ ¬ d.Member ∧ w'.rosters = w.rosters)) ∧
    (∀ input s' rotated, rotateWorkspaceAuthority crypto s input = .ok (s', rotated) →
      ∃ w w', s.find input.workspaceID = some w ∧ s'.find input.workspaceID = some w' ∧
        Reissues crypto w w' (publicKey input.newAuthorityPrivateKey) input.now) :=
  ⟨fun _ _ _ hok => approvePendingMembership_inserts hs hok,
    fun _ _ _ hok => renameDevice_renames hs hok,
    fun _ _ _ hok => revokeDevice_withdraws hs hok,
    fun _ _ _ hok => rotateWorkspaceAuthority_reissues hs hok⟩

/-- A rotation after the first device joined. -/
theorem rosters_refine_membership_rotation :
    ∃ s' rotated w w', rotateWorkspaceAuthority sampleCrypto
        ((store sampleCrypto).run .empty (sampleCreation :: enroll 1)) sampleRotation =
          .ok (s', rotated) ∧
      ((store sampleCrypto).run .empty (sampleCreation :: enroll 1)).find sampleWorkspace =
        some w ∧ s'.find sampleWorkspace = some w' ∧
      Reissues sampleCrypto w w' (List.replicate 32 2) sampleInstant := by
  have hok : (rotateWorkspaceAuthority sampleCrypto
      ((store sampleCrypto).run .empty (sampleCreation :: enroll 1)) sampleRotation).isOk := by
    decide +kernel
  obtain ⟨⟨s', rotated⟩, hok⟩ := isOk_iff.mp hok
  obtain ⟨w, w', hw, hw', hreissues⟩ := (rosters_refine_membership sampleCrypto _
    ⟨sampleCreation :: enroll 1, rfl⟩).2.2.2 sampleRotation s' rotated hok
  exact ⟨s', rotated, w, w', hok, hw, hw', hreissues⟩

end SevenMirror.Admission
