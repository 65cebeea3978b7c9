import SevenMirror.Admission.CatchUp
import SevenMirror.Admission.Enrolment

/-! A workspace that grows.  Device after device joins and is approved, or is approved and revoked;
what a long life of a workspace leads to is found by induction on the number of devices. -/

namespace SevenMirror.Admission

open Lib MembershipCodec

def fleetWorkspace : WorkspaceID := counted 14 0

def fleetKey : Bytes := List.replicate 64 (UInt8.ofNat 1)

theorem fleetKey_pair : KeyPair idealCrypto fleetKey := ⟨rfl, by decide, fun _ => rfl⟩

/-- The registry has one workspace, in which devices up to number `n` registered. -/
structure Fleet (s : Registry) (w : Workspace) (n : Nat) : Prop where
  reachable : Reachable idealCrypto s
  rows : s.workspaces.rows = [w]
  id : w.id = fleetWorkspace
  key : w.authorityPublicKey.bytes = publicKey fleetKey
  authority : w.authorityEpoch = 1
  devices : ∀ d ∈ w.devices.rows, ∃ i, i < n ∧ d.id = counted 14 i ∧
    d.authTokenHash = idealCrypto.sha256 (counted 30 i).bytes
  codes : ∀ c ∈ s.pairingCodes.rows, ∃ i, i < n ∧
    c.codeHash = idealCrypto.sha256 (counted 22 i).bytes

/-- The workspace has so many rosters, and its latest one lists so many certificates. -/
structure Lists (w : Workspace) (rosters active revoked : Nat) : Prop where
  rosters : w.rosters.rows.length = rosters
  current : ∃ certificates revocations, Current idealCrypto w certificates revocations ∧
    certificates.length = active ∧ revocations.length = revoked

section Fleet

variable {s s' : Registry} {w : Workspace} {d : Device} {n k a r : Nat}

theorem Lists.withDevices (h : Lists w k a r) (devices : Table Device.id) :
    Lists { w with devices } k a r := by
  obtain ⟨certificates, revocations, hcurrent, hlengths⟩ := h.current
  exact ⟨h.rosters, certificates, revocations, hcurrent.withDevices devices, hlengths⟩

theorem Fleet.mem (h : Fleet s w n) : w ∈ s.workspaces.rows := by
  rw [h.rows]
  exact List.mem_singleton_self w

theorem Fleet.found (h : Fleet s w n) : s.find w.id = some w :=
  Table.find_eq_some.mpr ⟨h.mem, rfl⟩

theorem put_rows {w' : Workspace} (hrows : s.workspaces.rows = [w]) (hid : w'.id = w.id) :
    (s.put w').workspaces.rows = [w'] := by
  simp [Registry.put, Table.update, hrows, hid]

/-- The lists count the devices of the workspace. -/
theorem Fleet.counts (h : Fleet s w n) (hl : Lists w k a r) :
    w.activeDevices = a ∧ w.revokedDevices = r := by
  obtain ⟨certificates, revocations, hcurrent, rfl, rfl⟩ := hl.current
  obtain ⟨certificates', revocations', hcurrent', hagrees⟩ := h.reachable.agreed h.mem
  obtain ⟨rfl, rfl⟩ := hcurrent'.unique hcurrent
  exact ⟨(hagrees.active_length hcurrent.ordered.1).symm,
    (hagrees.revocations_length hcurrent.ordered.2).symm⟩

/-- The draft lists what the latest roster lists. -/
theorem Lists.draft {draft : WorkspaceRosterDraft} {initial : Block 32} (hl : Lists w k a r)
    (hchained : w.Chained idealCrypto initial) (hd : Drafts idealCrypto w draft) :
    draft.epoch = k + 1 ∧ draft.activeCertificates.length = a ∧ draft.revocations.length = r := by
  obtain ⟨certificates, revocations, hcurrent, rfl, rfl⟩ := hl.current
  obtain ⟨hactive, hrevocations⟩ := hcurrent.unique (hd.current hchained)
  refine ⟨?_, congrArg List.length hactive, congrArg List.length hrevocations⟩
  rw [hd.epoch_eq hchained, hl.rosters, Nat.add_comm]

theorem Fleet.administered (h : Fleet s w n) (hn : n ≤ byteSpan 2) (hl : Lists w k a r)
    (hk : k < maxInt64) : Administered idealCrypto s w fleetKey sampleInstant := by
  obtain ⟨initial, hchained⟩ := h.reachable.chained w h.mem
  constructor
  case reachable => exact h.reachable
  case found => exact h.found
  case epochs =>
    refine ⟨fun row hrow => ?_, ?_⟩
    · have hbound := (hchained.rosters.epochs.bounds hrow).2
      rw [hl.rosters] at hbound
      omega
    · rw [h.authority]
      decide
  case named =>
    refine ⟨?_, fun d hd => ?_⟩
    · rw [h.id]
      exact counted_nonzero 13 0
    · obtain ⟨i, -, hid, -⟩ := h.devices d hd
      rw [hid]
      exact counted_nonzero 13 i
  case references =>
    intro x hx y hy heq
    obtain ⟨i, hi, hxid, -⟩ := h.devices x hx
    obtain ⟨j, hj, hyid, -⟩ := h.devices y hy
    rw [hxid, hyid] at heq ⊢
    rw [deviceReference_counted_inj (by omega) (by omega) heq]
  case authority => exact ⟨fleetKey_pair, h.key.symm⟩
  case instant => decide

/-! ### One more device -/

def fleetCode (n : Nat) : IssuePairingCode :=
  ⟨fleetWorkspace, some .android, [], sampleInstant, sampleLifetime, counted 22 n⟩

def fleetChallenge (n : Nat) : PendingChallenge :=
  ⟨(counted 30 n).bytes, (counted 30 n).bytes, ⟨sampleInstant.nanos + sampleLifetime⟩⟩

def fleetRegistration (n : Nat) : Registration where
  pairingCode := encodeBase64URL (counted 22 n).bytes
  deviceType := some .android
  deviceName := [65]
  e2eePublicKey := 4 :: List.replicate 64 (UInt8.ofNat 0)
  now := sampleInstant
  createChallenge _ _ := some (fleetChallenge n)
  deviceID := counted 14 n
  authToken := counted 30 n

theorem fleetChallenge_valid (n : Nat) : (fleetChallenge n).Valid sampleInstant where
  digest := ⟨(counted 30 n).size, counted_nonzero 29 n⟩
  secret := ⟨(counted 30 n).size, counted_nonzero 29 n⟩
  expires := ⟨by simp only [fleetChallenge]; decide, by simp only [fleetChallenge]; decide⟩

theorem fleetChallenge_open (n : Nat) :
    unixMillis sampleInstant < unixMillis (fleetChallenge n).expiresAt := by
  simp only [fleetChallenge]
  decide

theorem Fleet.device_new (h : Fleet s w n) (hn : n < byteSpan 2) :
    ∀ x ∈ w.devices.rows, x.id ≠ counted 14 n := by
  intro x hx heq
  obtain ⟨i, hi, hid, -⟩ := h.devices x hx
  have hsame := counted_inj (by omega) hn (congrArg Block.bytes (hid.symm.trans heq))
  omega

theorem Fleet.token_new (h : Fleet s w n) (hn : n < byteSpan 2) :
    s.tokenTaken (idealCrypto.sha256 (counted 30 n).bytes) = false := by
  simp only [Registry.tokenTaken, h.rows, List.any_cons, List.any_nil, Bool.or_false,
    List.any_eq_false, decide_eq_true_eq]
  intro x hx heq
  obtain ⟨i, hi, -, htoken⟩ := h.devices x hx
  have hsame := sha256_counted_inj (by decide) (by omega) hn (htoken.symm.trans heq)
  omega

/-- A code for one more device. -/
theorem Fleet.issues (h : Fleet s w n) (hn : n < byteSpan 2) :
    ∃ pairingCodes, Reachable idealCrypto { s with pairingCodes } ∧
      pairingCodes.rows = s.pairingCodes.rows ++ [(fleetCode n).row idealCrypto .android] := by
  have hfound : s.find fleetWorkspace = some w := h.id ▸ h.found
  obtain ⟨pairingCodes, hissue, hcodes⟩ := issuePairingCode_succeeds idealCrypto (fleetCode n)
    hfound rfl rfl (by decide : 0 < sampleLifetime ∧ sampleLifetime ≤ day) fun c hc heq => by
      obtain ⟨i, hi, hhash⟩ := h.codes c hc
      have hsame := sha256_counted_inj (by decide) (by omega) hn (hhash.symm.trans heq)
      omega
  refine ⟨pairingCodes, ?_, hcodes⟩
  exact h.reachable.commits (.issuePairingCode (fleetCode n)) (by simp [commit, hissue, Except.map])

/-- One more device registers with its code. -/
theorem Fleet.registers (h : Fleet s w n) (hn : n < byteSpan 2) :
    ∃ s' d devices, Reachable idealCrypto s' ∧ s'.workspaces.rows = [{ w with devices }] ∧
      devices.rows = w.devices.rows ++ [d] ∧
      d.Challenged idealCrypto (fleetRegistration n) (fleetChallenge n) ∧
      ∀ c ∈ s'.pairingCodes.rows, ∃ i, i < n + 1 ∧
        c.codeHash = idealCrypto.sha256 (counted 22 i).bytes := by
  have hfound : s.find fleetWorkspace = some w := h.id ▸ h.found
  obtain ⟨pairingCodes, hs, hcodes⟩ := h.issues hn
  have hlisted : (fleetCode n).row idealCrypto .android ∈ pairingCodes.rows := by
    rw [hcodes]
    exact List.mem_append_right _ (List.mem_singleton_self _)
  obtain ⟨s', registered, d, devices, hregister, hworkspaces, hrows, hchallenged, hhashes⟩ :=
    registerPending_succeeds (s := { s with pairingCodes }) (fleetRegistration n)
      ((fleetCode n).row idealCrypto .android) (counted 22 n) (fleetChallenge n) hlisted rfl
      (decodeBase64URL_encodeBase64URL _) rfl (fun _ h => by cases h) ⟨rfl, fleetChallenge_open n⟩
      (by decide : validateDeviceName [65] = .ok ()) ⟨rfl, rfl, rfl⟩ rfl
      (fleetChallenge_valid n) hfound (h.token_new hn) (h.device_new hn)
  refine ⟨s', d, devices, ?_, ?_, hrows, hchallenged, fun c hc => ?_⟩
  · exact hs.commits (.registerPending (fleetRegistration n))
      (by simp [commit, hregister, Except.map])
  · rw [hworkspaces]
    exact put_rows h.rows rfl
  · have hhash : c.codeHash ∈ pairingCodes.rows.map (·.codeHash) := by
      rw [← hhashes]
      exact List.mem_map_of_mem hc
    obtain ⟨c', hc', heq⟩ := List.mem_map.mp hhash
    rw [hcodes, List.mem_append, List.mem_singleton] at hc'
    rcases hc' with hc' | rfl
    · obtain ⟨i, hi, hcode⟩ := h.codes c' hc'
      exact ⟨i, by omega, heq.symm.trans hcode⟩
    · exact ⟨n, Nat.lt_succ_self n, heq.symm⟩

/-- A device registers and proves its identity. -/
theorem Fleet.joins (h : Fleet s w n) (hn : n < byteSpan 2) :
    ∃ s' devices d, Fleet s' { w with devices } (n + 1) ∧
      (∀ x ∈ w.devices.rows, x ∈ devices.rows) ∧ d ∈ devices.rows ∧ d.id = counted 14 n ∧
      d.authTokenHash = idealCrypto.sha256 (counted 30 n).bytes ∧
      d.membershipState = .pendingApproval := by
  obtain ⟨s₁, d, devices, hs₁, hrows₁, hrows, hchallenged, hcodes⟩ := h.registers hn
  have hmem : d ∈ devices.rows := by
    rw [hrows]
    exact List.mem_append_right _ (List.mem_singleton_self _)
  obtain ⟨devices', hproof, hreplaces⟩ := completePendingIdentityProof_succeeds
    (s := s₁) (w := { w with devices }) sampleInstant
    (Table.find_eq_some.mpr ⟨by rw [hrows₁]; exact List.mem_singleton_self _, rfl⟩) hmem hchallenged
    (fleetChallenge_valid n) (fleetChallenge_open n)
  refine ⟨s₁.put { w with devices := devices' }, devices', d.provenAt sampleInstant, ?_,
    fun x hx => (hreplaces.rows x).mpr (Or.inr ⟨?_, ?_⟩), (hreplaces.rows _).mpr (Or.inl rfl),
    hchallenged.id, hchallenged.token, rfl⟩
  rotate_left
  · rw [hrows]
    exact List.mem_append_left _ hx
  · rw [hchallenged.id]
    exact h.device_new hn x hx
  constructor
  case reachable =>
    exact hs₁.commits (.completePendingIdentityProof _) hproof
  case rows => exact put_rows hrows₁ rfl
  case id => exact h.id
  case key => exact h.key
  case authority => exact h.authority
  case devices =>
    intro x hx
    rcases (hreplaces.rows x).mp hx with rfl | ⟨hx, hne⟩
    · exact ⟨n, Nat.lt_succ_self n, hchallenged.id, hchallenged.token⟩
    · rw [hrows, List.mem_append, List.mem_singleton] at hx
      rcases hx with hx | rfl
      · obtain ⟨i, hi, hcolumns⟩ := h.devices x hx
        exact ⟨i, by omega, hcolumns⟩
      · exact absurd rfl hne
  case codes => exact hcodes

/-- The text of a roster with so many certificates. -/
theorem RosterRow.Holds.size {crypto : Crypto} {id : WorkspaceID} {key : Block 32} {row : RosterRow}
    {m : SignedWorkspaceRoster} (h : row.Holds crypto id key m) :
    m.body.activeCertificates.length * 248 + 156 ≤ row.signedRoster.length := by
  obtain ⟨hvalid, hencode⟩ :=
    encodeSignedWorkspaceRoster_iff.mp (decodeSignedWorkspaceRoster_iff.mp h.decodes)
  obtain ⟨text, htext, hlow, -⟩ := signedRoster_within hvalid
  rw [(encode_eq_ok.mp hencode).1] at htext
  cases htext
  exact hlow

/-- What one more roster makes of the lists. -/
theorem Lists.publish {devices : Table Device.id} {rosters : Table RosterRow.epoch}
    {initial : Block 32} {body : WorkspaceRoster} (hl : Lists w k a r)
    (hpublished : Published idealCrypto w { w with devices, rosters } body)
    (h' : Workspace.Chained idealCrypto initial { w with devices, rosters }) :
    Lists { w with devices, rosters } (k + 1) body.activeCertificates.length
      body.revocations.length := by
  have hcurrent := hpublished.current h'
  obtain ⟨row, m, hrows, -⟩ := hpublished
  refine ⟨?_, _, _, hcurrent, rfl, rfl⟩
  rw [hrows, List.length_append, List.length_singleton, hl.rosters]

/-- A device that proved its identity is approved. -/
theorem Fleet.approves (h : Fleet s w n) (hn : n ≤ byteSpan 2) (hl : Lists w k a r)
    (hk : k < maxInt64) (ha : a < maxActiveCertificates) (hd : d ∈ w.devices.rows)
    (hstate : d.membershipState = .pendingApproval) :
    ∃ s' devices rosters row d', Fleet s' { w with devices, rosters } n ∧
      Lists { w with devices, rosters } (k + 1) (a + 1) r ∧
      rosters.rows = w.rosters.rows ++ [row] ∧ row.epoch = k + 1 ∧
      (a + 1) * 248 + 156 ≤ row.signedRoster.length ∧ d' ∈ devices.rows ∧ d'.id = d.id ∧
      d'.authTokenHash = d.authTokenHash ∧ d'.membershipState = .approved := by
  have hadministered := h.administered hn hl hk
  obtain ⟨initial, hhealthy⟩ := hadministered.healthy
  have hchained := hhealthy.chained
  have hroles : rolesSorted deviceRoleUnspecified [deviceRoleSendNotifications] = true := by decide
  -- fewer than 256 devices are active
  obtain ⟨⟨w', change⟩, hok⟩ := (approveDevice_succeeds
    ⟨w.id, deviceReference idealCrypto w.id d.id, [deviceRoleSendNotifications], fleetKey,
      sampleInstant⟩ hhealthy idealCrypto_ideal hadministered.named hadministered.authority hd hstate
    ⟨List.cons_ne_nil _ _, hroles⟩ hadministered.instant).resolve_right fun hfull => by
      rw [(h.counts hl).1] at hfull
      omega
  have hcommit : commit idealCrypto s (.approvePendingMembership ⟨w.id,
      deviceReference idealCrypto w.id d.id, [deviceRoleSendNotifications], fleetKey,
      sampleInstant⟩) = .ok (s.put w') := by
    simp only [commit, hadministered.approve_eq hd (List.cons_ne_nil _ _), hok]
    rfl
  obtain ⟨ap, devices, rosters, hinput, hdevice, htakes, rfl, hchained'⟩ :=
    approveDevice_takes hchained hok
  obtain ⟨hepoch, hactive, hrevocations⟩ := hl.draft hchained htakes.draft
  have hap : ap.device = d := Table.eq_of_key htakes.replaces.mem hd hdevice
  have hlists := hl.publish htakes.published hchained'
  have hlength : (sortCertificates (ap.draft.activeCertificates ++ [ap.certificate])).length =
      a + 1 := by
    rw [sortCertificates, List.length_insertionSort, List.length_append, List.length_singleton,
      hactive]
  simp only [rosterOf, hlength, hrevocations] at hlists
  obtain ⟨row, m, hrows, hm, hbody⟩ := htakes.published
  have hbody' : m.body = rosterOf w ap.draft
      (sortCertificates (ap.draft.activeCertificates ++ [ap.certificate])) ap.draft.revocations [] := by
    rw [SignedWorkspaceRoster.body, hbody, Option.getD_some]
  have hsize := hm.size
  rw [hbody', rosterOf, hlength] at hsize
  have hnumber := hm.epoch
  rw [hbody', rosterOf, htakes.draft.epoch_toNat, hepoch] at hnumber
  refine ⟨s.put { w with devices, rosters }, devices, rosters, row,
    ap.device.approvedWith ap.id ap.encoded ap.input.now, ?_, hlists, hrows, hnumber.symm, hsize,
    (htakes.replaces.rows _).mpr (Or.inl rfl), hdevice, by rw [hap]; rfl, rfl⟩
  constructor
  case reachable => exact h.reachable.commits _ hcommit
  case rows => exact put_rows h.rows rfl
  case id => exact h.id
  case key => exact h.key
  case authority => exact h.authority
  case devices =>
    intro x hx
    rcases (htakes.replaces.rows x).mp hx with rfl | ⟨hx, -⟩
    · exact h.devices ap.device htakes.replaces.mem
    · exact h.devices x hx
  case codes => exact h.codes

/-- The only member is revoked. -/
theorem Fleet.revokes (h : Fleet s w n) (hn : n ≤ byteSpan 2) (hl : Lists w k 1 r)
    (hk : k < maxInt64) (hr : r < maxRevocations) (hd : d ∈ w.devices.rows)
    (hstate : d.membershipState = .approved) :
    ∃ s' devices rosters, Fleet s' { w with devices, rosters } n ∧
      Lists { w with devices, rosters } (k + 1) 0 (r + 1) := by
  have hadministered := h.administered hn hl hk
  obtain ⟨initial, hhealthy⟩ := hadministered.healthy
  have hchained := hhealthy.chained
  obtain ⟨⟨w', epoch, digest⟩, hok⟩ := (revokeApproved_succeeds
    ⟨w.id, deviceReference idealCrypto w.id d.id, fleetKey, sampleInstant⟩ hhealthy
    idealCrypto_ideal hadministered.named hadministered.authority hd hstate
    hadministered.instant).1 (by rw [(h.counts hl).2]; exact hr)
  have hcommit : commit idealCrypto s (.revokeDevice ⟨w.id, deviceReference idealCrypto w.id d.id,
      fleetKey, sampleInstant⟩) = .ok (s.put w') := by
    simp only [commit, hadministered.revoke_eq hd hstate, hok]
    rfl
  have hunrevoked : d.revokedAtMs = none := by
    have hrow := (hhealthy.sound d hd).revoked
    simpa [hstate] using hrow
  obtain ⟨rv, devices, rosters, -, rfl, htakes, rfl, hchained', -⟩ :=
    revokeApproved_takes hchained hd hstate hunrevoked hok
  obtain ⟨-, hactive, hrevocations⟩ := hl.draft hchained htakes.draft
  obtain ⟨hagrees, -⟩ := htakes.draft.agrees hchained hhealthy.agreed
  obtain ⟨hmember, c, hc, hcertified, -⟩ := hhealthy.member htakes.draft hd hstate
  -- its certificate was the only active one
  have hothers : rv.others.length = 0 := by
    have heq := htakes.others
    rw [withoutDevice_succeeds hagrees hd hmember] at heq
    have hlt := length_withoutDevice_lt hc hcertified.device
    rw [Except.ok.inj heq] at hlt
    omega
  have hlists := hl.publish htakes.published hchained'
  simp only [rosterOf, hothers, sortRevocations, List.length_insertionSort, List.length_append,
    List.length_singleton, hrevocations] at hlists
  refine ⟨s.put { w with devices, rosters }, devices, rosters, ?_, hlists⟩
  constructor
  case reachable => exact h.reachable.commits _ hcommit
  case rows => exact put_rows h.rows rfl
  case id => exact h.id
  case key => exact h.key
  case authority => exact h.authority
  case devices =>
    intro x hx
    rcases (htakes.replaces.rows x).mp hx with rfl | ⟨hx, -⟩
    · exact h.devices rv.device htakes.replaces.mem
    · exact h.devices x hx
  case codes => exact h.codes

end Fleet

theorem fleet_start : ∃ s w, Fleet s w 0 ∧ Lists w 0 0 0 := by
  obtain ⟨s, hok, hrows, hcodes⟩ := createWorkspace_succeeds (s := .empty)
    ⟨publicKey fleetKey, by decide⟩ sampleInstant fleetWorkspace (by decide)
    fun _ hw => absurd hw List.not_mem_nil
  refine ⟨s, _, ⟨Reachable.commits ⟨[], rfl⟩ (.createWorkspace _ _ _) hok, hrows, rfl, rfl, rfl,
    fun _ hd => absurd hd List.not_mem_nil, fun c hc => ?_⟩, rfl, [], [], .none rfl, rfl, rfl⟩
  rw [hcodes] at hc
  exact absurd hc List.not_mem_nil

/-- Up to 4096 devices may join and be revoked, one after the other. -/
theorem fleet_revoked {n : Nat} (hn : n ≤ maxRevocations) :
    ∃ s w, Fleet s w n ∧ Lists w (2 * n) 0 n := by
  induction n with
  | zero => exact fleet_start
  | succ n ih =>
    have hlimit : n < 4096 := hn
    have hspan : byteSpan 2 = 65536 := rfl
    obtain ⟨s, w, h, hl⟩ := ih (by omega)
    obtain ⟨s₁, devices₁, d, h₁, -, hd, -, -, hstate⟩ := h.joins (by omega)
    obtain ⟨s₂, devices₂, rosters₂, row, d', h₂, hl₂, -, -, -, hd', -, -, hstate'⟩ :=
      h₁.approves (by omega) (hl.withDevices devices₁) (by simp only [maxInt64]; omega) (by decide)
        hd hstate
    obtain ⟨s₃, devices₃, rosters₃, h₃, hl₃⟩ :=
      h₂.revokes (by omega) hl₂ (by simp only [maxInt64]; omega) hlimit hd' hstate'
    exact ⟨s₃, _, h₃, hl₃⟩

section Enrolled

variable {s : Registry} {w : Workspace} {n : Nat}

/-- Every roster has as many certificates as its number, at least in size. -/
def Growing (w : Workspace) : Prop :=
  ∀ row ∈ w.rosters.rows, row.epoch * 248 + 156 ≤ row.signedRoster.length

/-- Device `n` is approved and has its token. -/
def EnrolledAs (w : Workspace) (n : Nat) (d : Device) : Prop :=
  d ∈ w.devices.rows ∧ d.id = counted 14 n ∧
    d.authTokenHash = idealCrypto.sha256 (counted 30 n).bytes ∧ d.membershipState = .approved

theorem Fleet.enrols (h : Fleet s w n) (hl : Lists w n n 0) (hgrowing : Growing w)
    (hn : n < maxActiveCertificates) :
    ∃ s' w' d, Fleet s' w' (n + 1) ∧ Lists w' (n + 1) (n + 1) 0 ∧ Growing w' ∧
      EnrolledAs w' n d := by
  have hlimit : n < 256 := hn
  have hspan : byteSpan 2 = 65536 := rfl
  obtain ⟨s₁, devices₁, d, h₁, -, hd, hid, htoken, hstate⟩ := h.joins (by omega)
  obtain ⟨s₂, devices₂, rosters₂, row, d', h₂, hl₂, hrows, hepoch, hsize, hd', hid', htoken',
    hstate'⟩ := h₁.approves (by omega) (hl.withDevices devices₁) (by simp only [maxInt64]; omega) hn
      hd hstate
  refine ⟨s₂, _, d', h₂, hl₂, fun x hx => ?_, hd', hid'.trans hid, htoken'.trans htoken, hstate'⟩
  rw [hrows, List.mem_append, List.mem_singleton] at hx
  rcases hx with hx | rfl
  · exact hgrowing x hx
  · rw [hepoch]
    exact hsize

/-- Up to 256 devices may be active at once. -/
theorem fleet_enrolled (hn : n < maxActiveCertificates) :
    ∃ s w d, Fleet s w (n + 1) ∧ Lists w (n + 1) (n + 1) 0 ∧ Growing w ∧ EnrolledAs w n d := by
  induction n with
  | zero =>
    obtain ⟨s, w, h, hl⟩ := fleet_start
    refine h.enrols hl (fun row hrow => ?_) hn
    rw [List.eq_nil_of_length_eq_zero hl.rosters] at hrow
    cases hrow
  | succ n ih =>
    obtain ⟨s, w, -, h, hl, hgrowing, -⟩ := ih (Nat.lt_of_succ_lt hn)
    exact h.enrols hl hgrowing hn

end Enrolled

end SevenMirror.Admission
