import SevenMirror.Admission.Agreement
import SevenMirror.Admission.MembershipView

/-! What later stores keep of a workspace.  Its rosters and transitions only grow at their ends, a
transition is active only after the rosters there are, and the row of a revoked device never changes.
So a revoked device reads the same from then on. -/

namespace SevenMirror.Admission

open Lib MembershipCodec

/-- `w'` is a later state of `w`. -/
structure Extends (w w' : Workspace) : Prop where
  id_eq : w'.id = w.id
  rosters : ∃ more, w'.rosters.rows = w.rosters.rows ++ more
  transitions : ∃ more, w'.transitions.rows = w.transitions.rows ++ more ∧
    ∀ t ∈ more, w.rosters.rows.length < t.activationRosterEpoch
  revoked : ∀ d ∈ w.devices.rows, d.revokedAtMs.isSome → d ∈ w'.devices.rows

theorem Extends.refl (w : Workspace) : Extends w w :=
  ⟨rfl, ⟨[], by simp⟩, ⟨[], by simp⟩, fun _ hd _ => hd⟩

theorem Extends.trans {w w' w'' : Workspace} (h : Extends w w') (h' : Extends w' w'') :
    Extends w w'' := by
  obtain ⟨rosters, hrosters⟩ := h.rosters
  obtain ⟨rosters', hrosters'⟩ := h'.rosters
  obtain ⟨transitions, htransitions, hactive⟩ := h.transitions
  obtain ⟨transitions', htransitions', hactive'⟩ := h'.transitions
  refine ⟨h'.id_eq.trans h.id_eq, ⟨rosters ++ rosters', ?_⟩, ⟨transitions ++ transitions', ?_, ?_⟩,
    fun d hd hr => h'.revoked d (h.revoked d hd hr) hr⟩
  · rw [hrosters', hrosters, List.append_assoc]
  · rw [htransitions', htransitions, List.append_assoc]
  · intro t ht
    rcases List.mem_append.mp ht with ht | ht
    · exact hactive t ht
    · have hlt := hactive' t ht
      rw [hrosters, List.length_append] at hlt
      omega

section Steps

variable {crypto : Crypto} {initial : Block 32} {w w' : Workspace}

theorem Replaces.revoked {devices devices' : Table Device.id} {r r' d : Device}
    (h : devices.Replaces devices' r r') (hr : r.revokedAtMs = none) (hd : d ∈ devices.rows)
    (hrevoked : d.revokedAtMs.isSome) : d ∈ devices'.rows := by
  refine (h.rows d).mpr (Or.inr ⟨hd, fun heq => ?_⟩)
  rw [Table.eq_of_key hd h.mem heq, hr] at hrevoked
  cases hrevoked

theorem reissueCertificates_revoked {input : RotateWorkspaceAuthorityInput} {epoch : Nat}
    {todo active : List SignedDeviceCertificate} {devices devices' : Table Device.id} {d : Device}
    (hok : reissueCertificates crypto input epoch todo devices = .ok (devices', active))
    (hd : d ∈ devices.rows) (hrevoked : d.revokedAtMs.isSome) : d ∈ devices'.rows := by
  induction todo generalizing devices active with
  | nil =>
    cases hok
    exact hd
  | cons old rest ih =>
    simp only [reissueCertificates, bind_eq_ok, exists_unit, rethrow_eq_ok, require_eq_ok,
      reject_eq_ok, pure_eq_ok, Prod.mk.injEq] at hok
    obtain ⟨new, -, encoded, -, block, -, -, ⟨devices₁, active₁⟩, hrest, rfl, -⟩ := hok
    refine ih hrest (Table.mem_update.mpr ⟨d, hd, ?_⟩)
    rw [if_neg]
    intro hchosen
    simp only [decide_eq_true_eq] at hchosen
    rw [hchosen.2.2.2] at hrevoked
    cases hrevoked

/-- Every action leads to a later state. -/
theorem WorkspaceStep.extends {action : Action} (h : w.Chained crypto initial)
    (hstep : WorkspaceStep crypto w action w') : Extends w w' := by
  have quiet {devices : Table Device.id}
      (hdevices : ∀ d ∈ w.devices.rows, d.revokedAtMs.isSome → d ∈ devices.rows) :
      Extends w { w with devices } :=
    ⟨rfl, ⟨[], by simp⟩, ⟨[], by simp⟩, hdevices⟩
  have publish {devices : Table Device.id} {rosters : Table RosterRow.epoch}
      {body : WorkspaceRoster} (hpublished : Published crypto w { w with devices, rosters } body)
      (hdevices : ∀ d ∈ w.devices.rows, d.revokedAtMs.isSome → d ∈ devices.rows) :
      Extends w { w with devices, rosters } := by
    obtain ⟨row, m, hrows, -⟩ := hpublished
    exact ⟨rfl, ⟨[row], hrows⟩, ⟨[], by simp⟩, hdevices⟩
  cases hstep with
  | register d devices _ _ hrows =>
    exact quiet fun x hx _ => by simp [hrows, hx]
  | prove d _ devices _ hrevoked hreplaces =>
    exact quiet fun x hx hr => Replaces.revoked hreplaces hrevoked hx hr
  | rotateCredential d _ devices _ hrevoked hreplaces =>
    exact quiet fun x hx hr => Replaces.revoked hreplaces hrevoked hx hr
  | revokePending d _ devices _ hrevoked hreplaces =>
    exact quiet fun x hx hr => Replaces.revoked hreplaces hrevoked hx hr
  | approve a devices rosters ha =>
    exact publish ha.published fun x hx hr => Replaces.revoked ha.replaces ha.unrevoked hx hr
  | rename r devices rosters hr =>
    exact publish hr.published fun x hx => Replaces.revoked hr.replaces hr.member.2 hx
  | revoke r devices rosters hr =>
    exact publish hr.published fun x hx => Replaces.revoked hr.replaces hr.member.2 hx
  | rotateAuthority a devices rosters transitions ha =>
    obtain ⟨row, m, hrows, -⟩ := ha.published
    refine ⟨rfl, ⟨[row], hrows⟩, ⟨_, ha.rows, fun t ht => ?_⟩,
      fun x hx hr => reissueCertificates_revoked ha.reissue hx hr⟩
    have hepoch := ha.draft.epoch_eq h
    rw [List.mem_singleton.mp ht]
    simp only [transitionRow]
    omega

end Steps

/-- A workspace of a registry, later. -/
theorem RegistryStep.later {crypto : Crypto} {s s' : Registry} {call : Call} {w : Workspace}
    {initial : Block 32} (hstep : RegistryStep crypto s call s') (hw : w ∈ s.workspaces.rows)
    (h : w.Chained crypto initial) :
    ∃ w' ∈ s'.workspaces.rows, Extends w w' ∧ w'.Chained crypto initial := by
  cases hstep with
  | unchanged hsame _ => exact ⟨w, hsame ▸ hw, .refl w, h⟩
  | created key now id _ _ hrows => exact ⟨w, by simp [hrows, hw], .refl w, h⟩
  | acted v v' action _ hstep hchained hreplaces =>
    by_cases hid : w.id = v.id
    · obtain rfl := Table.eq_of_key hw hreplaces.mem hid
      exact ⟨v', (hreplaces.rows v').mpr (Or.inl rfl), hstep.extends h, hchained initial h⟩
    · exact ⟨w, (hreplaces.rows w).mpr (Or.inr ⟨hw, hid⟩), .refl w, h⟩

/-- Every run leads each workspace to a later state of it. -/
theorem store_later {crypto : Crypto} {s : Registry} {w : Workspace} {initial : Block 32}
    (hs : Reachable crypto s) (hw : w ∈ s.workspaces.rows) (h : w.Chained crypto initial)
    (calls : List Call) :
    ∃ w' ∈ ((store crypto).run s calls).workspaces.rows,
      Extends w w' ∧ w'.Chained crypto initial := by
  refine hs.run_keeps (I := fun s => ∃ w' ∈ s.workspaces.rows,
    Extends w w' ∧ w'.Chained crypto initial) ⟨w, hw, .refl w, h⟩ ?_ calls
  rintro t t' call - ⟨v, hv, hext, hchained⟩ hstep
  obtain ⟨v', hv', hext', hchained'⟩ := hstep.later hv hchained
  exact ⟨v', hv', hext.trans hext', hchained'⟩

/-! ### Revoked devices -/

/-- What is known of a device that a roster revoked: the roster is there, and from it on every roster
lists the revocation and no certificate of the device. -/
structure RevokedAt (crypto : Crypto) (initial : Block 32) (w : Workspace) (d : Device)
    (epoch : Nat) : Prop where
  state : d.membershipState = .revoked
  revoked : d.revokedAtMs.isSome
  epoch_le : epoch ≤ w.rosters.rows.length
  listed : ∀ r ∈ w.rosters.rows, epoch ≤ r.epoch →
    ∃ m, r.Holds crypto w.id (keyInForce initial w.transitions.rows r.epoch) m ∧
      d.id.bytes ∉ m.body.activeCertificates.map (·.body.deviceId) ∧
      ∃ x ∈ m.body.revocations, Revokes x d

/-- Every device that a roster revoked is known so. -/
def Workspace.Recorded (crypto : Crypto) (initial : Block 32) (w : Workspace) : Prop :=
  ∀ d ∈ w.devices.rows, ∀ epoch, d.revokedMembershipEpoch = some epoch →
    RevokedAt crypto initial w d epoch

section Recorded

variable {crypto : Crypto} {initial : Block 32} {w w' : Workspace} {d : Device} {epoch : Nat}

/-- Later transitions do not change the key of an earlier roster. -/
theorem keyInForce_append {rows more : List TransitionRow}
    (h : ∀ t ∈ more, epoch < t.activationRosterEpoch) :
    keyInForce initial (rows ++ more) epoch = keyInForce initial rows epoch := by
  have hnone : (more.filter fun t => t.activationRosterEpoch ≤ epoch) = [] := by
    simp only [List.filter_eq_nil_iff, decide_eq_true_eq]
    intro t ht
    have := h t ht
    omega
  unfold keyInForce
  rw [List.filter_append, hnone, List.append_nil]

theorem Extends.keyInForce_eq (h : Extends w w') (hle : epoch ≤ w.rosters.rows.length) :
    keyInForce initial w'.transitions.rows epoch = keyInForce initial w.transitions.rows epoch := by
  obtain ⟨more, hmore, hactive⟩ := h.transitions
  rw [hmore]
  exact keyInForce_append fun t ht => Nat.lt_of_le_of_lt hle (hactive t ht)

/-- The initial key of a workspace is that of its chains. -/
theorem Workspace.Chained.initial_eq {initial' : Block 32} (h : w.Chained crypto initial)
    (h' : w.Chained crypto initial') : initial' = initial := by
  cases hrows : w.transitions.rows.head? with
  | some t => exact (h'.authority.first t hrows).2.symm.trans (h.authority.first t hrows).2
  | none =>
    have hnil := List.head?_eq_none_iff.mp hrows
    have hkey := h.authority.current_key
    have hkey' := h'.authority.current_key
    rw [hnil] at hkey hkey'
    exact hkey'.symm.trans hkey

/-- The last roster lists the revocation of a device that a roster revoked. -/
theorem Workspace.Agreed.last_lists (hagreed : w.Agreed crypto) (h : w.Chained crypto initial)
    (hd : d ∈ w.devices.rows) (hepoch : d.revokedMembershipEpoch = some epoch) {r : RosterRow}
    (hr : w.rosters.rows.getLast? = some r) :
    ∃ m, r.Holds crypto w.id (keyInForce initial w.transitions.rows r.epoch) m ∧
      d.id.bytes ∉ m.body.activeCertificates.map (·.body.deviceId) ∧
      ∃ x ∈ m.body.revocations, Revokes x d := by
  obtain ⟨active, revocations, hcurrent, hagrees⟩ := hagreed
  have hrevoked := hagrees.settled d hd (by simp [hepoch])
  have hmember : ¬ d.Member := fun hm => by
    rw [hm.2] at hrevoked
    cases hrevoked
  have hlatest : latestRoster w.rosters.rows = some r := by rw [h.rosters.latest, hr]
  cases hcurrent with
  | none hnone =>
    rw [hlatest] at hnone
    cases hnone
  | roster row m hrow hm =>
    rw [hlatest] at hrow
    cases hrow
    obtain ⟨m', hm'⟩ := h.rosters.holds r (List.mem_of_getLast? hr)
    have hlast := h.rosters.epochs.last hr
    have hkey : keyInForce initial w.transitions.rows r.epoch = w.authorityPublicKey :=
      h.authority.key_current (by omega)
    obtain rfl := hm'.eq (hkey ▸ hm)
    exact ⟨m, hm', hagrees.not_active hd hmember, hagrees.revoked d hd (by simp [hepoch])⟩

/-- What the rosters list stays. -/
theorem Extends.lists (hext : Extends w w') (hd : RevokedAt crypto initial w d epoch)
    {r : RosterRow} (hr : r ∈ w.rosters.rows) (hle : epoch ≤ r.epoch)
    (h : w.Chained crypto initial) :
    ∃ m, r.Holds crypto w'.id (keyInForce initial w'.transitions.rows r.epoch) m ∧
      d.id.bytes ∉ m.body.activeCertificates.map (·.body.deviceId) ∧
      ∃ x ∈ m.body.revocations, Revokes x d := by
  have hbound : r.epoch ≤ w.rosters.rows.length := by
    have := (h.rosters.epochs.bounds hr).2
    omega
  rw [hext.id_eq, hext.keyInForce_eq hbound]
  exact hd.listed r hr hle

theorem WorkspaceStep.rosters_cases {action : Action} (hstep : WorkspaceStep crypto w action w') :
    w'.rosters.rows = w.rosters.rows ∨ ∃ r, w'.rosters.rows = w.rosters.rows ++ [r] := by
  have published {v : Workspace} {body : WorkspaceRoster} (h : Published crypto w v body) :
      ∃ r, v.rosters.rows = w.rosters.rows ++ [r] := by
    obtain ⟨r, m, hrows, -⟩ := h
    exact ⟨r, hrows⟩
  cases hstep with
  | register | prove | rotateCredential | revokePending => exact Or.inl rfl
  | approve a devices rosters ha => exact Or.inr (published ha.published)
  | rename r devices rosters hr => exact Or.inr (published hr.published)
  | revoke r devices rosters hr => exact Or.inr (published hr.published)
  | rotateAuthority a devices rosters transitions ha => exact Or.inr (published ha.published)

theorem reissueCertificates_old {input : RotateWorkspaceAuthorityInput}
    {todo active : List SignedDeviceCertificate} {devices devices' : Table Device.id} {n : Nat}
    (hok : reissueCertificates crypto input n todo devices = .ok (devices', active))
    (hd : d ∈ devices'.rows) (hrevoked : d.revokedAtMs.isSome) : d ∈ devices.rows := by
  induction todo generalizing devices active with
  | nil =>
    cases hok
    exact hd
  | cons old rest ih =>
    simp only [reissueCertificates, bind_eq_ok, exists_unit, rethrow_eq_ok, require_eq_ok,
      reject_eq_ok, pure_eq_ok, Prod.mk.injEq] at hok
    obtain ⟨new, -, encoded, -, block, -, -, ⟨devices₁, active₁⟩, hrest, rfl, -⟩ := hok
    obtain ⟨y, hy, rfl⟩ := Table.mem_update.mp (ih hrest)
    split at hrevoked
    · rename_i hchosen
      simp only [decide_eq_true_eq] at hchosen
      rw [hchosen.2.2.2] at hrevoked
      cases hrevoked
    · rename_i hchosen
      rwa [if_neg hchosen]

/-- The device was a member, and its certificate, the key, and the transitions are the same. -/
structure SameIssue (w w' : Workspace) (d d' : Device) : Prop where
  mem : d ∈ w.devices.rows
  id_eq : d'.id = d.id
  member : d.Member
  certificate : d'.signedCertificate = d.signedCertificate
  key : w'.authorityPublicKey = w.authorityPublicKey
  transitions : w'.transitions = w.transitions

/-- A device that a roster revoked was one before, or this action revoked it. -/
theorem WorkspaceStep.revoked_cases {action : Action} (h : w.Chained crypto initial)
    (hagreed : w.Agreed crypto) (hagreed' : w'.Agreed crypto)
    (hstep : WorkspaceStep crypto w action w') (hd : d ∈ w'.devices.rows)
    (hepoch : d.revokedMembershipEpoch = some epoch) :
    d ∈ w.devices.rows ∨ d.membershipState = .revoked ∧ epoch = w.rosters.rows.length + 1 ∧
      w'.rosters.rows ≠ w.rosters.rows ∧ ∃ r, SameIssue w w' r d := by
  obtain ⟨active', revocations', -, hagrees'⟩ := hagreed'
  have hrevoked := hagrees'.settled d hd (by simp [hepoch])
  -- a row that an action replaces has no epoch, and keeps it so
  have replaced {devices : Table Device.id} {r r' : Device}
      (hreplaces : w.devices.Replaces devices r r') (hr : r.revokedAtMs = none)
      (hsame : r'.revokedMembershipEpoch = r.revokedMembershipEpoch) (hmem : d ∈ devices.rows) :
      d ∈ w.devices.rows := by
    rcases (hreplaces.rows d).mp hmem with rfl | ⟨hmem, -⟩
    · obtain ⟨active, revocations, -, hagrees⟩ := hagreed
      rw [hsame, hagrees.epoch_none hreplaces.mem hr] at hepoch
      cases hepoch
    · exact hmem
  cases hstep with
  | register x devices hx _ hrows =>
    rw [hrows, List.mem_append, List.mem_singleton] at hd
    rcases hd with hd | rfl
    · exact Or.inl hd
    · rw [hx.epoch] at hepoch
      cases hepoch
  | prove _ _ _ _ hr hreplaces => exact Or.inl (replaced hreplaces hr rfl hd)
  | rotateCredential _ _ _ _ hr hreplaces => exact Or.inl (replaced hreplaces hr rfl hd)
  | revokePending _ _ _ _ hr hreplaces => exact Or.inl (replaced hreplaces hr rfl hd)
  | approve a devices rosters ha => exact Or.inl (replaced ha.replaces ha.unrevoked rfl hd)
  | rename r devices rosters hr => exact Or.inl (replaced hr.replaces hr.member.2 rfl hd)
  | revoke r devices rosters hr =>
    rcases (hr.replaces.rows d).mp hd with rfl | ⟨hmem, -⟩
    · obtain ⟨row, m, hrows, -⟩ := hr.published
      have hlength := hr.draft.epoch_eq h
      cases hepoch
      refine Or.inr ⟨rfl, by omega, ?_, r.device, hr.replaces.mem, rfl, hr.member, rfl, rfl, rfl⟩
      rw [hrows]
      simp
    · exact Or.inl hmem
  | rotateAuthority a devices rosters transitions ha =>
    exact Or.inl (reissueCertificates_old ha.reissue hd hrevoked)

/-- Every action keeps the record of the revocations. -/
theorem WorkspaceStep.recorded {action : Action} (h : w.Chained crypto initial)
    (hagreed : w.Agreed crypto) (hrecorded : w.Recorded crypto initial)
    (hstep : WorkspaceStep crypto w action w') (h' : w'.Chained crypto initial) :
    w'.Recorded crypto initial := by
  have hagreed' := hstep.agreed h hagreed h'
  have hext := hstep.extends h
  intro d hd epoch hepoch
  have hrevoked : d.revokedAtMs.isSome := by
    obtain ⟨active, revocations, -, hagrees⟩ := hagreed'
    exact hagrees.settled d hd (by simp [hepoch])
  rcases hstep.revoked_cases h hagreed hagreed' hd hepoch with hold | ⟨hstate, hnew, hpublished, -⟩
  · have hd' := hrecorded d hold epoch hepoch
    obtain ⟨more, hmore⟩ := hext.rosters
    refine ⟨hd'.state, hrevoked, ?_, fun r hr hle => ?_⟩
    · rw [hmore, List.length_append]
      exact Nat.le_add_right_of_le hd'.epoch_le
    · rcases hstep.rosters_cases with hsame | ⟨x, hx⟩
      · exact hext.lists hd' (hsame ▸ hr) hle h
      · rw [hx, List.mem_append, List.mem_singleton] at hr
        rcases hr with hr | rfl
        · exact hext.lists hd' hr hle h
        · exact hagreed'.last_lists h' hd hepoch (by rw [hx, List.getLast?_concat])
  · obtain ⟨x, hx⟩ := hstep.rosters_cases.resolve_left hpublished
    refine ⟨hstate, hrevoked, by simp [hx, hnew], fun r hr hle => ?_⟩
    rw [hx, List.mem_append, List.mem_singleton] at hr
    rcases hr with hr | rfl
    · have := (h.rosters.epochs.bounds hr).2
      omega
    · exact hagreed'.last_lists h' hd hepoch (by rw [hx, List.getLast?_concat])

end Recorded

/-- In every registry that calls lead to, every revocation is on record. -/
theorem Reachable.recorded {crypto : Crypto} {s : Registry} (hs : Reachable crypto s)
    {w : Workspace} (hw : w ∈ s.workspaces.rows) {initial : Block 32}
    (h : w.Chained crypto initial) : w.Recorded crypto initial := by
  obtain ⟨calls, rfl⟩ := hs
  obtain ⟨-, -, hrecorded⟩ := store_keeps
    (P := fun w => w.Agreed crypto ∧ ∀ initial, w.Chained crypto initial →
      w.Recorded crypto initial)
    (fun id key now => ⟨newWorkspace_agreed id key now, fun _ _ d hd => by cases hd⟩)
    (fun {w w' action initial} h hP hstep h' => ⟨hstep.agreed h hP.1 h', fun _ hinitial => by
      rw [h'.initial_eq hinitial]
      exact hstep.recorded h hP.1 (hP.2 initial h) h'⟩) calls w hw
  exact hrecorded initial h

/-! ### What a revoked device reads -/

theorem orderedRows_append {ρ : Type} {key : ρ → Nat} {p : ρ → Bool} {rows more : List ρ}
    (h : ∀ x ∈ more, ¬ p x = true) : orderedRows key p (rows ++ more) = orderedRows key p rows := by
  unfold orderedRows
  rw [List.filter_append, List.filter_eq_nil_iff.mpr h, List.append_nil]

section Reads

variable {crypto : Crypto} {input : MembershipRead} {initial : Block 32} {s s' : Registry}
  {w w' : Workspace} {epoch : Nat}

theorem Extends.selectTransitions_eq (hext : Extends w w')
    (hw : s.find input.workspaceID = some w) (hw' : s'.find input.workspaceID = some w')
    (hle : epoch ≤ w.rosters.rows.length) (after : Int64) :
    selectTransitions input s' after epoch = selectTransitions input s after epoch := by
  obtain ⟨more, hmore, hactive⟩ := hext.transitions
  simp only [selectTransitions, Registry.transitionsOf, hw, hw', Option.map_some, Option.getD_some,
    hmore]
  rw [orderedRows_append]
  intro t ht
  have := hactive t ht
  simp only [within, decide_eq_true_eq]
  omega

theorem Extends.selectRosters_eq (hext : Extends w w') (h' : w'.Chained crypto initial)
    (hw : s.find input.workspaceID = some w) (hw' : s'.find input.workspaceID = some w')
    (hle : epoch ≤ w.rosters.rows.length) (after : Int64) :
    selectRosters input s' after epoch = selectRosters input s after epoch := by
  obtain ⟨more, hmore⟩ := hext.rosters
  have hepochs := h'.rosters.epochs.drop w.rosters.rows.length
  rw [hmore, List.drop_left] at hepochs
  simp only [selectRosters, Registry.rostersOf, hw, hw', Option.map_some, Option.getD_some, hmore]
  rw [orderedRows_append]
  intro r hr
  have := (hepochs.bounds hr).1
  simp only [within, decide_eq_true_eq]
  omega

/-- The view of a device that was revoked at `epoch`, later. -/
theorem Extends.memberView_eq (hext : Extends w w') (h : w.Chained crypto initial)
    (h' : w'.Chained crypto initial) (hw : s.find input.workspaceID = some w)
    (hw' : s'.find input.workspaceID = some w') (hle : epoch ≤ w.rosters.rows.length)
    {row row' : MemberRow} (hrow : row.authorityPublicKey = w.authorityPublicKey)
    (hrow' : row'.authorityPublicKey = w'.authorityPublicKey)
    (hepoch : row.revokedMembershipEpoch = some epoch)
    (hepoch' : row'.revokedMembershipEpoch = some epoch)
    (hcertificate : row'.signedCertificate = row.signedCertificate) :
    memberView crypto input s' row' = memberView crypto input s row := by
  have hceiling : row.ceiling = epoch := by simp [MemberRow.ceiling, hepoch]
  have hceiling' : row'.ceiling = epoch := by simp [MemberRow.ceiling, hepoch']
  have hkey : effectiveKey input s' row' = effectiveKey input s row := by
    rw [effectiveKey_eq hw' h' hrow', effectiveKey_eq hw h hrow, hceiling, hceiling',
      hext.keyInForce_eq hle]
  simp only [memberView, hkey, hcertificate, hceiling, hceiling', hepoch, hepoch', Option.getD_some,
    hext.selectTransitions_eq hw hw' hle, hext.selectRosters_eq h' hw hw' hle]

end Reads

/-- A read of a device that a roster revoked does not wait for itself. -/
theorem readFits_revoked {crypto : Crypto} {input : MembershipRead} {s : Registry} {w : Workspace}
    {d : Device} (hw : s.find input.workspaceID = some w)
    (hd : w.devices.find input.deviceID = some d) (hepoch : d.revokedMembershipEpoch.isSome) :
    readFits crypto input s = true := by
  unfold readFits
  split
  · rfl
  · rename_i row hrow
    obtain ⟨w', d', hw', hd', -, -, rfl⟩ := memberRow_eq_some.mp hrow
    rw [hw] at hw'
    cases hw'
    rw [hd] at hd'
    cases hd'
    simp [hepoch]

theorem memberView_latest {crypto : Crypto} {input : MembershipRead} {s : Registry}
    {row : MemberRow} {view : MembershipStateView} {epoch : Nat}
    (h : memberView crypto input s row = .ok view)
    (hepoch : row.revokedMembershipEpoch = some epoch) : view.latestRosterEpoch = epoch := by
  simp only [memberView, bind_eq_ok, pure_eq_ok] at h
  obtain ⟨after, -, transitions, -, rosters, -, rfl⟩ := h
  simp [hepoch]

/-- A device that a roster revoked reads the same in every later store, whatever it asks for: its
view ends with the epoch of its revocation. -/
theorem revoked_read_unchanged (crypto : Crypto) (input : MembershipRead) (s : Registry)
    (hs : Reachable crypto s) (w : Workspace) (hw : s.find input.workspaceID = some w) (d : Device)
    (hd : w.devices.find input.deviceID = some d) (epoch : Nat)
    (hepoch : d.revokedMembershipEpoch = some epoch) (calls : List Call) :
    ∃ result,
      (readMembershipState crypto input).alone (answerMembership crypto input s) false =
        some result ∧
      (readMembershipState crypto input).alone
        (answerMembership crypto input ((store crypto).run s calls)) false = some result ∧
      ∀ view, result = .ok view → view.latestRosterEpoch = epoch := by
  obtain ⟨hmem, hid⟩ := Registry.find_eq_some.mp hw
  obtain ⟨hdmem, hdid⟩ := Table.find_eq_some.mp hd
  obtain ⟨initial, h⟩ := hs.chained w hmem
  have hrevoked := hs.recorded hmem h d hdmem epoch hepoch
  obtain ⟨w', hmem', hext, h'⟩ := store_later hs hmem h calls
  have hw' : ((store crypto).run s calls).find input.workspaceID = some w' :=
    Registry.find_eq_some.mpr ⟨hmem', hext.id_eq.trans hid⟩
  have hd' : w'.devices.find input.deviceID = some d :=
    Table.find_eq_some.mpr ⟨hext.revoked d hdmem hrevoked.revoked, hdid⟩
  refine ⟨_, readMembershipState_alone s (readFits_revoked hw hd (by simp [hepoch])), ?_, ?_⟩
  · rw [readMembershipState_alone _ (readFits_revoked hw' hd' (by simp [hepoch]))]
    simp only [readMembershipState_eval, memberRow, hw, hw', hd, hd', Option.bind_eq_bind,
      Option.bind_some]
    split_ifs with hinput hread
    · rfl
    · simp only [hrevoked.state, ne_eq, not_true_eq_false, false_and, if_false]
      exact congrArg some
        (hext.memberView_eq h h' hw hw' hrevoked.epoch_le rfl rfl hepoch hepoch rfl)
    · rfl
  · intro view hview
    rw [readMembershipState_eval] at hview
    simp only [memberRow, hw, hd, Option.bind_eq_bind, Option.bind_some] at hview
    split_ifs at hview with hinput hread
    simp only [hrevoked.state, ne_eq, not_true_eq_false, false_and, if_false] at hview
    exact memberView_latest hview hepoch

/-- A device joins and is revoked. -/
def revokedCalls : List Call :=
  sampleCreation :: enroll 1 ++
    [.revokeDevice ⟨sampleWorkspace, sampleReference 1, samplePrivateKey 1, sampleInstant⟩]

theorem revokedCalls_find :
    ((((store sampleCrypto).run .empty revokedCalls).find sampleWorkspace).bind fun w =>
      (w.devices.find (numbered 15 1)).map (·.revokedMembershipEpoch)) = some (some 2) ∧
    (((store sampleCrypto).run ((store sampleCrypto).run .empty revokedCalls)
      (enroll 2 ++ [.rotateWorkspaceAuthority sampleRotation])).find sampleWorkspace).map
        (·.rosters.rows.length) = some 4 := by
  decide +kernel

/-- What the device reads is the same after a further approval and a rotation. -/
theorem revoked_read_unchanged_rotation :
    (((store sampleCrypto).run ((store sampleCrypto).run .empty revokedCalls)
      (enroll 2 ++ [.rotateWorkspaceAuthority sampleRotation])).find sampleWorkspace).map
        (·.rosters.rows.length) = some 4 ∧
    ∃ result,
      (readMembershipState sampleCrypto ⟨sampleWorkspace, numbered 15 1, (numbered 31 1).bytes,
        0⟩).alone (answerMembership sampleCrypto ⟨sampleWorkspace, numbered 15 1,
          (numbered 31 1).bytes, 0⟩ ((store sampleCrypto).run .empty revokedCalls)) false =
        some result ∧
      (readMembershipState sampleCrypto ⟨sampleWorkspace, numbered 15 1, (numbered 31 1).bytes,
        0⟩).alone (answerMembership sampleCrypto ⟨sampleWorkspace, numbered 15 1,
          (numbered 31 1).bytes, 0⟩ ((store sampleCrypto).run
            ((store sampleCrypto).run .empty revokedCalls)
              (enroll 2 ++ [.rotateWorkspaceAuthority sampleRotation]))) false =
        some result ∧
      ∀ view, result = .ok view → view.latestRosterEpoch = 2 := by
  obtain ⟨hrevoked, hlater⟩ := revokedCalls_find
  obtain ⟨w, hw, hd⟩ := Option.bind_eq_some_iff.mp hrevoked
  obtain ⟨d, hd, hepoch⟩ := Option.map_eq_some_iff.mp hd
  exact ⟨hlater, revoked_read_unchanged sampleCrypto
    ⟨sampleWorkspace, numbered 15 1, (numbered 31 1).bytes, 0⟩ _ ⟨revokedCalls, rfl⟩ w hw d hd 2
    hepoch _⟩

end SevenMirror.Admission
