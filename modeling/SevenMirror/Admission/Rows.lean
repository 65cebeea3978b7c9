import SevenMirror.Admission.Agreement

/-! What holds of every row of `devices`: its state, its certificate, and its revocation belong
together, and its name and key are those that registration and renaming admit.  `Device.Moves` says
what each action makes of a row. -/

namespace SevenMirror.Admission

open Lib MembershipCodec

structure Device.Sound (crypto : Crypto) (d : Device) : Prop where
  version : 1 ≤ d.credentialVersion
  name : validateDeviceName d.deviceName = .ok ()
  identity : crypto.onCurve d.e2eePublicKey.bytes = true
  revoked : d.revokedAtMs.isSome ↔ d.membershipState = .revoked
  epoch : d.revokedMembershipEpoch.isSome → d.membershipState = .revoked
  certified : d.certificateID.isSome ↔
    d.membershipState = .approved ∨ d.revokedMembershipEpoch.isSome

/-- An approved device has no columns of a revocation. -/
theorem Device.Sound.unrevoked {crypto : Crypto} {d : Device} (h : d.Sound crypto)
    (hstate : d.membershipState = .approved) :
    d.revokedAtMs = none ∧ d.revokedMembershipEpoch = none := by
  have hne : d.membershipState ≠ .revoked := by
    rw [hstate]
    decide
  constructor
  · exact Option.not_isSome_iff_eq_none.mp fun hsome => hne (h.revoked.mp hsome)
  · exact Option.not_isSome_iff_eq_none.mp fun hsome => hne (h.epoch hsome)

section Rows

variable {crypto : Crypto} {w w' : Workspace} {P : Device → Prop}

theorem Replaces.forall_rows {devices devices' : Table Device.id} {r r' : Device}
    (h : devices.Replaces devices' r r') (hrows : ∀ d ∈ devices.rows, P d) (hr' : P r') :
    ∀ d ∈ devices'.rows, P d := by
  intro d hd
  rcases (h.rows d).mp hd with rfl | ⟨hd, -⟩
  · exact hr'
  · exact hrows d hd

/-- What reissuing the certificate of a member keeps, the loop keeps. -/
theorem reissueCertificates_rows {input : RotateWorkspaceAuthorityInput} {epoch : Nat}
    (hP : ∀ d block encoded, P d → d.Member → P (d.reissuedWith block encoded input.now))
    {todo active : List SignedDeviceCertificate} {devices devices' : Table Device.id}
    (hok : reissueCertificates crypto input epoch todo devices = .ok (devices', active))
    (hrows : ∀ d ∈ devices.rows, P d) : ∀ d ∈ devices'.rows, P d := by
  induction todo generalizing devices active with
  | nil =>
    cases hok
    exact hrows
  | cons old rest ih =>
    simp only [reissueCertificates, bind_eq_ok, exists_unit, rethrow_eq_ok, require_eq_ok,
      reject_eq_ok, pure_eq_ok, Prod.mk.injEq] at hok
    obtain ⟨new, -, encoded, -, block, -, -, ⟨devices₁, active₁⟩, hrest, rfl, -⟩ := hok
    refine ih hrest fun d hd => ?_
    obtain ⟨x, hx, rfl⟩ := Table.mem_update.mp hd
    split
    · rename_i hchosen
      simp only [decide_eq_true_eq] at hchosen
      exact hP x block encoded (hrows x hx) hchosen.2.2
    · exact hrows x hx

/-- Every action keeps the rows sound. -/
theorem WorkspaceStep.sound {action : Action} (hrows : ∀ d ∈ w.devices.rows, d.Sound crypto)
    (hstep : WorkspaceStep crypto w action w') : ∀ d ∈ w'.devices.rows, d.Sound crypto := by
  cases hstep with
  | register x devices hx _ hadded =>
    intro d hd
    rw [hadded, List.mem_append, List.mem_singleton] at hd
    rcases hd with hd | rfl
    · exact hrows d hd
    · refine ⟨by simp [hx.version], hx.name, hx.identity, ?_, ?_, ?_⟩ <;>
        simp [hx.state, hx.revokedAt, hx.epoch, hx.certificateID]
  | prove x now devices hstate hrevoked hreplaces =>
    have hx := hrows x hreplaces.mem
    refine Replaces.forall_rows hreplaces hrows ⟨hx.version, hx.name, hx.identity, ?_, ?_, ?_⟩
    · simp [hrevoked]
    · intro he
      simpa [hstate] using hx.epoch he
    · simpa [hstate] using hx.certified
  | rotateCredential x hash devices hstate hrevoked hreplaces =>
    have hx := hrows x hreplaces.mem
    exact Replaces.forall_rows hreplaces hrows
      ⟨Nat.le_add_left 1 _, hx.name, hx.identity, hx.revoked, hx.epoch, hx.certified⟩
  | approve a devices rosters ha =>
    have hx := hrows a.device ha.replaces.mem
    refine Replaces.forall_rows ha.replaces hrows ⟨hx.version, hx.name, hx.identity, ?_, ?_, ?_⟩
    · simp [Device.approvedWith, ha.unrevoked]
    · intro he
      simpa [ha.state] using hx.epoch he
    · simp [Device.approvedWith]
  | rename r devices rosters hr =>
    have hx := hrows r.device hr.replaces.mem
    refine Replaces.forall_rows hr.replaces hrows
      ⟨hx.version, hr.name, hx.identity, hx.revoked, hx.epoch, ?_⟩
    simp [Device.renamedWith, hr.member.1]
  | revokePending x now devices hstate hrevoked hreplaces =>
    have hx := hrows x hreplaces.mem
    have hepoch : x.revokedMembershipEpoch.isSome = false := by
      rw [Bool.eq_false_iff]
      intro he
      have := hx.revoked.mpr (hx.epoch he)
      simp [hrevoked] at this
    refine Replaces.forall_rows hreplaces hrows ⟨hx.version, hx.name, hx.identity, ?_, ?_, ?_⟩
    · simp
    · simp
    · simpa [hstate, hepoch] using hx.certified
  | revoke r devices rosters hr =>
    have hx := hrows r.device hr.replaces.mem
    refine Replaces.forall_rows hr.replaces hrows ⟨hx.version, hx.name, hx.identity, ?_, ?_, ?_⟩
    · simp [Device.revokedWith]
    · simp [Device.revokedWith]
    · simpa [Device.revokedWith] using hr.certificateID
  | rotateAuthority a devices rosters transitions ha =>
    refine reissueCertificates_rows (fun d block encoded hd hmember => ?_) ha.reissue hrows
    refine ⟨hd.version, hd.name, hd.identity, hd.revoked, hd.epoch, ?_⟩
    simp [Device.reissuedWith, hmember.1]

end Rows

/-! ### What an action makes of a row -/

/-- The row of a device. -/
def Registry.device (s : Registry) (workspaceID : WorkspaceID) (deviceID : DeviceID) :
    Option Device := do
  let w ← s.find workspaceID
  w.devices.find deviceID

def workspaceAuthorityPublicKey (s : Registry) (id : WorkspaceID) : Option (Block 32) :=
  (s.find id).map (·.authorityPublicKey)

/-- The columns that no reissue of a certificate writes. -/
def Device.withoutCertificate (d : Device) : Device :=
  { d with certificateID := none, signedCertificate := none, approvedAtMs := none }

/-- The device that the action is about. -/
def Action.device : Action → Option DeviceID
  | .register d | .prove d | .rotateCredential d | .approve d | .rename d | .revoke d => some d
  | .rotateAuthority => none

/-- An action leads from the row `d` to another. -/
inductive Device.Moves (d : Device) : Action → Device → Prop
  | other {action : Action} : action.device ≠ some d.id → action ≠ .rotateAuthority →
      Moves d action d
  | prove (now : Time) : d.membershipState = .pendingProof → d.revokedAtMs = none →
      Moves d (.prove d.id) { d with
        membershipState := .pendingApproval, proofCompletedAtMs := some (unixMillis now)
        proofSecretHash := none }
  | rotateCredential (hash : Block 32) : d.membershipState = .approved → d.revokedAtMs = none →
      Moves d (.rotateCredential d.id) { d with
        authTokenHash := hash, credentialVersion := d.credentialVersion + 1 }
  | approve (id : Block 32) (encoded : Bytes) (now : Time) :
      d.membershipState = .pendingApproval → d.revokedAtMs = none →
      Moves d (.approve d.id) (d.approvedWith id encoded now)
  | rename (name : Bytes) (id : Block 32) (encoded : Bytes) : d.Member →
      Moves d (.rename d.id) (d.renamedWith name id encoded)
  | revokePending (now : Time) : d.membershipState ≠ .approved → d.revokedAtMs = none →
      Moves d (.revoke d.id) { d with
        revokedAtMs := some (unixMillis now), membershipState := .revoked }
  | revoke (epoch : Nat) (now : Time) : d.Member →
      Moves d (.revoke d.id) (d.revokedWith epoch now)
  | reissue (d' : Device) : d'.withoutCertificate = d.withoutCertificate →
      Moves d .rotateAuthority d'

section Moves

variable {crypto : Crypto} {s s' : Registry} {w w' : Workspace} {id : WorkspaceID}
  {deviceID : DeviceID} {d d' : Device} {action : Action}

theorem reissueCertificates_row {input : RotateWorkspaceAuthorityInput} {epoch : Nat}
    {todo active : List SignedDeviceCertificate} {devices devices' : Table Device.id}
    (hok : reissueCertificates crypto input epoch todo devices = .ok (devices', active))
    (hd : d ∈ devices.rows) :
    ∃ d' ∈ devices'.rows, d'.withoutCertificate = d.withoutCertificate := by
  induction todo generalizing d devices active with
  | nil =>
    cases hok
    exact ⟨d, hd, rfl⟩
  | cons old rest ih =>
    simp only [reissueCertificates, bind_eq_ok, exists_unit, rethrow_eq_ok, require_eq_ok,
      reject_eq_ok, pure_eq_ok, Prod.mk.injEq] at hok
    obtain ⟨new, -, encoded, -, block, -, -, ⟨devices₁, active₁⟩, hrest, rfl, -⟩ := hok
    obtain ⟨d', hd', heq⟩ := ih hrest (Table.mem_update.mpr ⟨d, hd, rfl⟩)
    refine ⟨d', hd', heq.trans ?_⟩
    split <;> rfl

/-- An action on the row `r` leaves every other row. -/
theorem Replaces.moves {devices : Table Device.id} {r r' : Device}
    (h : w.devices.Replaces devices r r') (hmove : r.Moves action r')
    (hdevice : action.device = some r.id) (hd : w.devices.find deviceID = some d) :
    ∃ d', devices.find deviceID = some d' ∧ d.Moves action d' := by
  obtain ⟨hmem, rfl⟩ := Table.find_eq_some.mp hd
  by_cases hid : r.id = d.id
  · obtain rfl := Table.eq_of_key h.mem hmem hid
    exact ⟨r', Table.find_eq_some.mpr ⟨(h.rows r').mpr (Or.inl rfl), h.key_eq⟩, hmove⟩
  · refine ⟨d, (h.find_ne hid).trans hd, .other ?_ ?_⟩
    · rw [hdevice]
      exact fun heq => hid (Option.some.inj heq)
    · intro hauthority
      rw [hauthority] at hdevice
      cases hdevice

theorem WorkspaceStep.moves (hstep : WorkspaceStep crypto w action w')
    (hd : w.devices.find deviceID = some d) :
    ∃ d', w'.devices.find deviceID = some d' ∧ d.Moves action d' := by
  cases hstep with
  | register x devices hx hfresh hrows =>
    obtain ⟨hmem, rfl⟩ := Table.find_eq_some.mp hd
    refine ⟨d, Table.find_eq_some.mpr ⟨?_, rfl⟩, .other ?_ (fun h => by cases h)⟩
    · rw [hrows]
      exact List.mem_append_left _ hmem
    · exact fun heq => hfresh d hmem (Option.some.inj heq).symm
  | prove r now devices hstate hrevoked hreplaces =>
    exact Replaces.moves hreplaces (.prove now hstate hrevoked) rfl hd
  | rotateCredential r hash devices hstate hrevoked hreplaces =>
    exact Replaces.moves hreplaces (.rotateCredential hash hstate hrevoked) rfl hd
  | approve a devices rosters ha =>
    exact Replaces.moves ha.replaces (.approve a.id a.encoded a.input.now ha.state ha.unrevoked) rfl hd
  | rename r devices rosters hr =>
    exact Replaces.moves hr.replaces (.rename r.input.displayName r.id r.encoded hr.member) rfl hd
  | revokePending r now devices hstate hrevoked hreplaces =>
    exact Replaces.moves hreplaces (.revokePending now hstate hrevoked) rfl hd
  | revoke r devices rosters hr =>
    exact Replaces.moves hr.replaces (.revoke r.draft.epoch r.input.now hr.member) rfl hd
  | rotateAuthority a devices rosters transitions ha =>
    obtain ⟨hmem, rfl⟩ := Table.find_eq_some.mp hd
    obtain ⟨d', hd', hsame⟩ := reissueCertificates_row ha.reissue hmem
    exact ⟨d', Table.find_eq_some.mpr ⟨hd', congrArg (·.id) hsame⟩, .reissue d' hsame⟩

theorem Registry.device_eq_some :
    s.device id deviceID = some d ↔
      ∃ w, s.find id = some w ∧ w.devices.find deviceID = some d := by
  simp [Registry.device, Option.bind_eq_some_iff]

theorem Registry.device_id (hd : s.device id deviceID = some d) : d.id = deviceID := by
  obtain ⟨w, -, hfind⟩ := Registry.device_eq_some.mp hd
  exact (Table.find_eq_some.mp hfind).2

/-- A committed call leaves a workspace, or acts on it. -/
theorem RegistryStep.workspace {call : Call} (hstep : RegistryStep crypto s call s')
    (hw : s.find id = some w) :
    ∃ w', s'.find id = some w' ∧
      ((w' = w ∧ ∀ action, call.action crypto s = some (id, action) →
          ∃ d ∈ w.devices.rows, d.revokedAtMs.isSome ∧ action = .revoke d.id) ∨
        ∃ action, call.action crypto s = some (id, action) ∧ WorkspaceStep crypto w action w') := by
  cases hstep with
  | unchanged hsame hidle =>
    refine ⟨w, ?_, Or.inl ⟨rfl, fun action haction => ?_⟩⟩
    · simpa only [Registry.find, hsame] using hw
    · obtain ⟨v, d, hv, hd⟩ := hidle _ _ haction
      rw [hw] at hv
      cases hv
      exact ⟨d, hd⟩
  | created key now newID hcall hfresh hrows =>
    subst hcall
    obtain ⟨hmem, rfl⟩ := Registry.find_eq_some.mp hw
    refine ⟨w, ?_, Or.inl ⟨rfl, fun _ h => by cases h⟩⟩
    exact Registry.find_eq_some.mpr ⟨by rw [hrows]; exact List.mem_append_left _ hmem, rfl⟩
  | acted v v' action haction hstep _ hreplaces =>
    by_cases hid : v.id = id
    · subst hid
      have hv := Registry.find_eq_some.mpr ⟨hreplaces.mem, rfl⟩
      rw [hw] at hv
      cases hv
      refine ⟨v', ?_, Or.inr ⟨action, haction, hstep⟩⟩
      exact Registry.find_eq_some.mpr ⟨(hreplaces.rows v').mpr (Or.inl rfl), hstep.id_eq⟩
    · refine ⟨w, (hreplaces.find_ne hid).trans hw, Or.inl ⟨rfl, fun action' haction' => ?_⟩⟩
      rw [haction] at haction'
      exact absurd (congrArg Prod.fst (Option.some.inj haction')) hid

/-- A committed call leaves the row of a device, or takes an action that moves it. -/
theorem RegistryStep.moves {call : Call} (hstep : RegistryStep crypto s call s')
    (hd : s.device id deviceID = some d) :
    ∃ d', s'.device id deviceID = some d' ∧
      ((d' = d ∧ ∀ action, call.action crypto s = some (id, action) →
          ∃ x, action = .revoke x ∧ (x = d.id → d.revokedAtMs.isSome)) ∨
        ∃ action, call.action crypto s = some (id, action) ∧ d.Moves action d') := by
  obtain ⟨w, hw, hfind⟩ := Registry.device_eq_some.mp hd
  obtain ⟨w', hw', ⟨rfl, hidle⟩ | ⟨action, haction, hstep⟩⟩ := hstep.workspace hw
  · refine ⟨d, Registry.device_eq_some.mpr ⟨w', hw', hfind⟩, Or.inl ⟨rfl, fun action haction => ?_⟩⟩
    obtain ⟨x, hx, hrevoked, rfl⟩ := hidle action haction
    refine ⟨x.id, rfl, fun hid => ?_⟩
    rw [← Table.eq_of_key hx (Table.find_eq_some.mp hfind).1 hid]
    exact hrevoked
  · obtain ⟨d', hd', hmove⟩ := hstep.moves hfind
    exact ⟨d', Registry.device_eq_some.mpr ⟨w', hw', hd'⟩, Or.inr ⟨action, haction, hmove⟩⟩

/-- A row is of a device that had one, or of a device that the action registers. -/
theorem WorkspaceStep.rows_back (hstep : WorkspaceStep crypto w action w') :
    ∀ x ∈ w'.devices.rows, (∃ y ∈ w.devices.rows, y.id = x.id) ∨ action = .register x.id := by
  have hold : ∀ x ∈ w.devices.rows,
      (∃ y ∈ w.devices.rows, y.id = x.id) ∨ action = .register x.id :=
    fun x hx => Or.inl ⟨x, hx, rfl⟩
  cases hstep with
  | register d devices hd hfresh hrows =>
    intro x hx
    rw [hrows, List.mem_append, List.mem_singleton] at hx
    rcases hx with hx | rfl
    · exact hold x hx
    · exact Or.inr rfl
  | prove r now devices hstate hrevoked hreplaces =>
    exact Replaces.forall_rows hreplaces hold (Or.inl ⟨r, hreplaces.mem, rfl⟩)
  | rotateCredential r hash devices hstate hrevoked hreplaces =>
    exact Replaces.forall_rows hreplaces hold (Or.inl ⟨r, hreplaces.mem, rfl⟩)
  | approve a devices rosters ha =>
    exact Replaces.forall_rows ha.replaces hold (Or.inl ⟨a.device, ha.replaces.mem, rfl⟩)
  | rename r devices rosters hr =>
    exact Replaces.forall_rows hr.replaces hold (Or.inl ⟨r.device, hr.replaces.mem, rfl⟩)
  | revokePending r now devices hstate hrevoked hreplaces =>
    exact Replaces.forall_rows hreplaces hold (Or.inl ⟨r, hreplaces.mem, rfl⟩)
  | revoke r devices rosters hr =>
    exact Replaces.forall_rows hr.replaces hold (Or.inl ⟨r.device, hr.replaces.mem, rfl⟩)
  | rotateAuthority a devices rosters transitions ha =>
    exact reissueCertificates_rows (fun d _ _ hd _ => hd) ha.reissue hold

/-- A device that had no row is one that the call registers. -/
theorem RegistryStep.device_back {call : Call} (hstep : RegistryStep crypto s call s')
    (hnone : s.device id deviceID = none) (hd : s'.device id deviceID = some d) :
    call.action crypto s = some (id, .register deviceID) := by
  have habsent {v : Workspace} (hv : s.find id = some v) (y : Device) (hy : y ∈ v.devices.rows) :
      y.id ≠ deviceID := by
    intro hid
    rw [Registry.device_eq_some.mpr ⟨v, hv, Table.find_eq_some.mpr ⟨hy, hid⟩⟩] at hnone
    cases hnone
  obtain ⟨x, hx, hfind⟩ := Registry.device_eq_some.mp hd
  obtain ⟨hmem, rfl⟩ := Registry.find_eq_some.mp hx
  obtain ⟨hdmem, rfl⟩ := Table.find_eq_some.mp hfind
  have hold (hx : x ∈ s.workspaces.rows) : False :=
    habsent (Registry.find_eq_some.mpr ⟨hx, rfl⟩) d hdmem rfl
  cases hstep with
  | unchanged hsame _ => exact (hold (hsame ▸ hmem)).elim
  | created key now newID hcall hfresh hrows =>
    rw [hrows, List.mem_append, List.mem_singleton] at hmem
    rcases hmem with hmem | rfl
    · exact (hold hmem).elim
    · exact absurd hdmem List.not_mem_nil
  | acted v v' action haction hstep _ hreplaces =>
    rcases (hreplaces.rows x).mp hmem with rfl | ⟨hmem, -⟩
    · rw [hstep.id_eq] at habsent ⊢
      rcases hstep.rows_back d hdmem with ⟨y, hy, hid⟩ | rfl
      · exact absurd hid (habsent (Registry.find_eq_some.mpr ⟨hreplaces.mem, rfl⟩) y hy)
      · exact haction
    · exact (hold hmem).elim

end Moves

/-- In every registry that calls lead to, every row is sound. -/
theorem Reachable.sound {crypto : Crypto} {s : Registry} (hs : Reachable crypto s) {w : Workspace}
    (hw : w ∈ s.workspaces.rows) : ∀ d ∈ w.devices.rows, d.Sound crypto := by
  obtain ⟨calls, rfl⟩ := hs
  exact (store_keeps (P := fun w => ∀ d ∈ w.devices.rows, d.Sound crypto)
    (fun _ _ _ _ hd => by cases hd) (fun _ hrows hstep _ => hstep.sound hrows) calls w hw).2

end SevenMirror.Admission
