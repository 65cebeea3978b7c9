import SevenMirror.Admission.CatchUp

/-! The first page of a device.  Approving a device, renaming it, and rotating the authority each
give it a certificate together with the roster that lists this certificate.  A device that names no
roster therefore reads on from the roster of its own certificate, and both are under the key that the
view names: that of the workspace, or that of the roster that revoked the device. -/

namespace SevenMirror.Admission

open Lib MembershipCodec

/-! ### Where a certificate is listed -/

/-- The device stores the certificate `c`, the roster of its epoch lists it, and both are under
`key`, the last key that the device may read of. -/
structure ListedAt (crypto : Crypto) (initial key : Block 32) (w : Workspace) (d : Device)
    (c : SignedDeviceCertificate) : Prop where
  stored : ∃ encoded, d.signedCertificate = some encoded ∧
    encodeSignedDeviceCertificate crypto c key.bytes = .ok encoded
  inForce : keyInForce initial w.transitions.rows (visibleCeiling w d) = key
  bound : c.body.membershipEpoch.toNat ≤ visibleCeiling w d
  listed : ∃ r ∈ w.rosters.rows, r.epoch = c.body.membershipEpoch.toNat ∧
    ∃ m, r.Holds crypto w.id key m ∧ c ∈ m.body.activeCertificates
  few : (transitionsWithin w.transitions.rows (c.body.membershipEpoch.toNat - 1)
    (visibleCeiling w d)).length ≤ 1

/-- The certificate of every device that has one is listed. -/
def Workspace.Listed (crypto : Crypto) (initial : Block 32) (w : Workspace) : Prop :=
  ∀ d ∈ w.devices.rows, d.Enrolled → ∃ key c, ListedAt crypto initial key w d c

section Listed

variable {crypto : Crypto} {initial key : Block 32} {w w' : Workspace} {d d' : Device}
  {c : SignedDeviceCertificate} {action : Action}

theorem visibleCeiling_none (h : d.revokedMembershipEpoch = none) :
    visibleCeiling w d = w.rosters.rows.length := by
  rw [visibleCeiling, h, Option.getD_none]

theorem visibleCeiling_some {epoch : Nat} (h : d.revokedMembershipEpoch = some epoch) :
    visibleCeiling w d = epoch := by
  rw [visibleCeiling, h, Option.getD_some]

/-- The transitions up to a roster that is there are known. -/
theorem Extends.within_eq (h : Extends w w') (low : Nat) {high : Nat}
    (hle : high ≤ w.rosters.rows.length) :
    transitionsWithin w'.transitions.rows low high =
      transitionsWithin w.transitions.rows low high := by
  obtain ⟨more, hmore, hactive⟩ := h.transitions
  have hnone : transitionsWithin more low high = [] := by
    refine List.filter_eq_nil_iff.mpr fun t ht => ?_
    have := hactive t ht
    simp only [decide_eq_true_eq]
    omega
  unfold transitionsWithin at hnone ⊢
  rw [hmore, List.filter_append, hnone, List.append_nil]

/-- A certificate that stays is listed where it was. -/
theorem ListedAt.keep (hd : ListedAt crypto initial key w d c) (hext : Extends w w')
    (hsame : d'.signedCertificate = d.signedCertificate)
    (hkey : keyInForce initial w'.transitions.rows (visibleCeiling w' d') = key)
    (hle : visibleCeiling w d ≤ visibleCeiling w' d')
    (hwithin : ∀ low, transitionsWithin w'.transitions.rows low (visibleCeiling w' d') =
      transitionsWithin w.transitions.rows low (visibleCeiling w d)) :
    ListedAt crypto initial key w' d' c where
  stored := hsame ▸ hd.stored
  inForce := hkey
  bound := Nat.le_trans hd.bound hle
  listed := by
    obtain ⟨r, hr, hepoch, m, hm, hc⟩ := hd.listed
    obtain ⟨more, hmore⟩ := hext.rosters
    refine ⟨r, ?_, hepoch, m, hext.id_eq ▸ hm, hc⟩
    rw [hmore]
    exact List.mem_append_left _ hr
  few := by
    rw [hwithin]
    exact hd.few

/-- The certificate of a member stays, whether the device stays a member or a roster revokes it. -/
theorem ListedAt.same (h : w.Chained crypto initial) (h' : w'.Chained crypto initial)
    (hext : Extends w w') (hsame : SameIssue w w' d d') (hnone : d.revokedMembershipEpoch = none)
    (hle : w.rosters.rows.length ≤ visibleCeiling w' d')
    (hle' : w'.rosters.rows.length ≤ visibleCeiling w' d')
    (hd : ListedAt crypto initial key w d c) : ListedAt crypto initial key w' d' c := by
  have hceiling : visibleCeiling w d = w.rosters.rows.length := visibleCeiling_none hnone
  refine hd.keep hext hsame.certificate ?_ (hceiling ▸ hle) fun low => ?_
  · rw [h'.authority.key_current hle', hsame.key, ← hd.inForce, hceiling,
      h.authority.key_current (Nat.le_refl _)]
  · rw [hsame.transitions, h.within_beyond low hle, hceiling]

/-- A new certificate is listed by the latest roster. -/
theorem NewIssue.listed (h : w.Chained crypto initial) (hstep : WorkspaceStep crypto w action w')
    (h' : w'.Chained crypto initial) (hagreed' : w'.Agreed crypto) (hnew : NewIssue crypto w w' d')
    (hd' : d' ∈ w'.devices.rows) (hmember : d'.Member) (hnone : d'.revokedMembershipEpoch = none) :
    ∃ c, ListedAt crypto initial w'.authorityPublicKey w' d' c := by
  obtain ⟨active, revocations, hcurrent, hagrees⟩ := hagreed'
  obtain ⟨c, hc, hcertified⟩ := hagrees.member d' hd' hmember
  obtain ⟨x, hdecode, hepoch⟩ := hnew.issued
  obtain rfl := hcertified.eq hdecode
  have hpinned := hstep.pins h h' rfl hnew
  have hceiling : visibleCeiling w' d' = w.rosters.rows.length + 1 :=
    (visibleCeiling_none hnone).trans hnew.published
  have hlatest := hnew.published
  refine ⟨x, hcertified.stored, ?_, ?_, ?_, ?_⟩
  · rw [hceiling, h'.authority.key_current (Nat.le_of_eq hlatest)]
  · rw [hceiling, hepoch]
  · cases hcurrent with
    | none => cases hc
    | roster row m hrow hm =>
      rw [h'.rosters.latest] at hrow
      have hlast := h'.rosters.epochs.last hrow
      obtain ⟨m', hm'⟩ := h'.rosters.holds row (List.mem_of_getLast? hrow)
      rw [h'.authority.key_current (by omega)] at hm'
      rw [hm'.decodes] at hm
      cases hm
      exact ⟨row, List.mem_of_getLast? hrow, by omega, _, hm', hc⟩
  · have hfew := hpinned.few
    rw [h'.within_latest, hlatest] at hfew
    rw [hceiling, hepoch]
    exact hfew

/-- Every action keeps the certificates listed. -/
theorem WorkspaceStep.listed (h : w.Chained crypto initial) (hagreed : w.Agreed crypto)
    (hsound : ∀ d ∈ w.devices.rows, d.Sound crypto) (hrecorded : w.Recorded crypto initial)
    (hlisted : w.Listed crypto initial) (hstep : WorkspaceStep crypto w action w')
    (h' : w'.Chained crypto initial) : w'.Listed crypto initial := by
  have hagreed' := hstep.agreed h hagreed h'
  have hsound' := hstep.sound hsound
  have hext := hstep.extends h
  obtain ⟨more, hmore⟩ := hext.rosters
  have hgrow : w.rosters.rows.length ≤ w'.rosters.rows.length := by simp [hmore]
  -- what is known of the certificate of a member
  have known {d d' : Device} (hsame : SameIssue w w' d d')
      (hceiling : visibleCeiling w' d' = w'.rosters.rows.length) :
      ∃ key c, ListedAt crypto initial key w' d' c := by
    have hnone := ((hsound d hsame.mem).unrevoked hsame.member.1).2
    obtain ⟨key, c, hd⟩ := hlisted d hsame.mem (Or.inl hsame.member.1)
    exact ⟨key, c, hd.same h h' hext hsame hnone (hceiling ▸ hgrow) (Nat.le_of_eq hceiling.symm)⟩
  intro d' hd' henrolled
  rcases henrolled with hstate | ⟨hstate, hsome⟩
  · obtain ⟨hunrevoked, hnone⟩ := (hsound' d' hd').unrevoked hstate
    have hmember : d'.Member := ⟨hstate, hunrevoked⟩
    rcases hstep.issues h hagreed h' hd' hmember with ⟨d, hsame⟩ | ⟨-, hnew⟩
    · exact known hsame (visibleCeiling_none hnone)
    · exact ⟨_, hnew.listed h hstep h' hagreed' hd' hmember hnone⟩
  · obtain ⟨epoch, hepoch⟩ := Option.isSome_iff_exists.mp hsome
    have hceiling {v : Workspace} : visibleCeiling v d' = epoch := visibleCeiling_some hepoch
    rcases hstep.revoked_cases h hagreed hagreed' hd' hepoch with
      hold | ⟨-, hlast, hpublished, d, hsame⟩
    · -- what a revoked device may read is there already
      obtain ⟨key, c, hd⟩ := hlisted d' hold (Or.inr ⟨hstate, hsome⟩)
      have hle := (hrecorded d' hold epoch hepoch).epoch_le
      refine ⟨key, c, hd.keep hext rfl ?_ (by rw [hceiling, hceiling]) fun low => ?_⟩
      · rw [hceiling, hext.keyInForce_eq hle, ← hd.inForce, hceiling]
      · rw [hceiling, hceiling, hext.within_eq low hle]
    · refine known hsame (hceiling.trans ?_)
      obtain ⟨r, hr⟩ := hstep.rosters_cases.resolve_left hpublished
      rw [hlast, hr, List.length_append, List.length_singleton]

end Listed

theorem Reachable.listed {crypto : Crypto} {s : Registry} (hs : Reachable crypto s)
    {w : Workspace} (hw : w ∈ s.workspaces.rows) {initial : Block 32}
    (h : w.Chained crypto initial) : w.Listed crypto initial := by
  obtain ⟨calls, rfl⟩ := hs
  obtain ⟨-, -, -, hlisted⟩ := store_keeps
    (P := fun w => w.Agreed crypto ∧ (∀ d ∈ w.devices.rows, d.Sound crypto) ∧
      ∀ initial, w.Chained crypto initial → w.Recorded crypto initial ∧ w.Listed crypto initial)
    (fun id key now => ⟨newWorkspace_agreed id key now, fun d hd => absurd hd List.not_mem_nil,
      fun _ _ => ⟨fun d hd => absurd hd List.not_mem_nil, fun d hd => absurd hd List.not_mem_nil⟩⟩)
    (fun {w w' action initial} h hP hstep h' => by
      obtain ⟨hagreed, hsound, hkept⟩ := hP
      obtain ⟨hrecorded, hlisted⟩ := hkept initial h
      refine ⟨hstep.agreed h hagreed h', hstep.sound hsound, fun _ hinitial => ?_⟩
      rw [h'.initial_eq hinitial]
      exact ⟨hstep.recorded h hagreed hrecorded h',
        hstep.listed h hagreed hsound hrecorded hlisted h'⟩) calls w hw
  exact (hlisted initial h).2

/-! ### The page -/

/-- The bytes of the `k` rosters after an epoch. -/
def rosterBytes (w : Workspace) (low k : Nat) : Nat :=
  pageSize (((w.rosters.rows.drop low).take k).map fun r => (r.epoch, r.signedRoster))

/-- The `k` rosters after an epoch keep to the bounds of a page and reach one of them: the last
roster that is visible, the number of rosters, or the bytes, which one roster may exceed. -/
structure FullPage (w : Workspace) (low high k : Nat) : Prop where
  positive : 1 ≤ k
  visible : low + k ≤ high
  count : k ≤ maxMembershipRosterPage
  fits : 1 < k → rosterBytes w low k ≤ maxMembershipRosterPageRaw
  full : low + k = high ∨ k = maxMembershipRosterPage ∨
    maxMembershipRosterPageRaw < rosterBytes w low (k + 1)

/-- The loop over the rosters stops only where the next one exceeds the bytes of the page. -/
theorem collectRosters_full {rows : List (Nat × Bytes)} {expectedEpoch : Int64} {pageBytes : Nat}
    {taken rosters : List Bytes} {exhausted : Bool}
    (hok : collectRosters expectedEpoch pageBytes taken rows = .ok (rosters, exhausted)) :
    ∃ k ≤ rows.length, rosters = taken ++ (rows.take k).map (·.2) ∧
      (taken.length + k ≤ 1 ∨ k = 0 ∨
        pageBytes + pageSize (rows.take k) ≤ maxMembershipRosterPageRaw) ∧
      (k = rows.length ∨ 0 < taken.length + k ∧
        maxMembershipRosterPageRaw < pageBytes + pageSize (rows.take (k + 1))) := by
  induction rows generalizing expectedEpoch pageBytes taken with
  | nil =>
    cases hok
    exact ⟨0, Nat.le_refl _, by simp, by simp, Or.inl rfl⟩
  | cons row rest ih =>
    obtain ⟨epoch, signedRoster⟩ := row
    simp only [collectRosters] at hok
    split at hok
    · cases hok
    · split at hok
      · rename_i hlarge
        cases hok
        refine ⟨0, Nat.zero_le _, by simp, by simp, Or.inr ⟨by omega, ?_⟩⟩
        simp only [Nat.zero_add, List.take_succ_cons, List.take_zero, pageSize]
        omega
      · rename_i hsmall
        obtain ⟨k, hk, hrosters, hfits, hfull⟩ := ih hok
        rw [List.length_append, List.length_singleton] at hfits hfull
        refine ⟨k + 1, by rw [List.length_cons]; omega, by simp [hrosters], ?_, ?_⟩
        · rw [List.take_succ_cons, pageSize]
          rcases hfits with hfits | rfl | hfits
          · omega
          · simp only [List.take_zero, pageSize]
            omega
          · omega
        · rw [List.take_succ_cons, pageSize, List.length_cons]
          omega

section Pages

variable {crypto : Crypto} {s : Registry} {input : MembershipRead} {initial : Block 32}
  {w : Workspace} {d : Device} {after : Int64} {low : Nat}

/-- The rosters that are selected for a device. -/
theorem selectRosters_visible (hw : s.find input.workspaceID = some w)
    (h : w.Chained crypto initial) (hlow : after.toInt = low) :
    ∃ n, selectRosters input s after (d.row w).ceiling =
        ((w.rosters.rows.drop low).take n).map (fun r => (r.epoch, r.signedRoster)) ∧
      n ≤ visibleCeiling w d - low ∧ n ≤ maxMembershipRosterPage ∧
      (n = visibleCeiling w d - low ∨ n = maxMembershipRosterPage) := by
  have htake : (w.rosters.rows.drop low).take ((d.row w).ceiling - low) =
      (w.rosters.rows.drop low).take (visibleCeiling w d - low) := by
    cases hepoch : d.revokedMembershipEpoch with
    | some epoch => simp [MemberRow.ceiling, Device.row, visibleCeiling, hepoch]
    | none =>
      have hlength := h.length_le
      rw [List.take_of_length_le, List.take_of_length_le]
      · rw [visibleCeiling_none hepoch, List.length_drop]
      · simp only [MemberRow.ceiling, Device.row, hepoch, Option.getD_none, List.length_drop]
        omega
  rw [selectRosters_eq hw h hlow, htake, List.take_take]
  exact ⟨_, rfl, by omega, by omega, by omega⟩

/-- The page that a device reads is full. -/
theorem collectRosters_page (hw : s.find input.workspaceID = some w)
    (h : w.Chained crypto initial) (hlow : after.toInt = low)
    (hle : visibleCeiling w d ≤ w.rosters.rows.length) (hlt : low < visibleCeiling w d)
    {rosters : List Bytes} {exhausted : Bool}
    (hok : collectRosters (after + 1) 0 [] (selectRosters input s after (d.row w).ceiling) =
      .ok (rosters, exhausted)) :
    ∃ k, rosters = ((w.rosters.rows.drop low).take k).map (·.signedRoster) ∧
      FullPage w low (visibleCeiling w d) k := by
  obtain ⟨n, hselect, hvisible, hcount, hbound⟩ := selectRosters_visible (d := d) hw h hlow
  obtain ⟨k, hk, hrosters, hfits, hfull⟩ := collectRosters_full hok
  have hlength : (selectRosters input s after (d.row w).ceiling).length = n := by
    rw [hselect, List.length_map, List.length_take, List.length_drop]
    omega
  have htake {j : Nat} (hj : j ≤ n) :
      (selectRosters input s after (d.row w).ceiling).take j =
        ((w.rosters.rows.drop low).take j).map fun r => (r.epoch, r.signedRoster) := by
    rw [hselect, ← List.map_take, List.take_take, Nat.min_eq_left hj]
  rw [hlength] at hk hfull
  rw [List.nil_append, htake hk, List.map_map] at hrosters
  rw [List.length_nil, Nat.zero_add, Nat.zero_add, htake hk] at hfits
  have hpositive : 1 ≤ k := by
    have : maxMembershipRosterPage = 256 := rfl
    rw [List.length_nil] at hfull
    omega
  refine ⟨k, hrosters, hpositive, by omega, by omega, fun hmany => ?_, ?_⟩
  · exact (hfits.resolve_left (by omega)).resolve_left (by omega)
  · by_cases hlast : k = n
    · omega
    · have hlarge := (hfull.resolve_left hlast).2
      rw [Nat.zero_add, htake (by omega)] at hlarge
      exact Or.inr (Or.inr hlarge)

/-- The view of a device that has rosters left to read, with its page. -/
theorem memberView_page (hw : s.find input.workspaceID = some w) (h : w.Chained crypto initial)
    (hafter : queryAfterEpoch crypto input ((d.row w).signedCertificate.getD [])
      (keyInForce initial w.transitions.rows (d.row w).ceiling) = .ok after)
    (hlow : after.toInt = low)
    (hcount : (transitionsWithin w.transitions.rows low (d.row w).ceiling).length ≤
      maxAuthorityTransitions)
    (hle : visibleCeiling w d ≤ w.rosters.rows.length) (hlt : low < visibleCeiling w d) :
    ∃ k, memberView crypto input s (d.row w) = .ok (viewAfter initial w (d.row w) low k) ∧
      FullPage w low (visibleCeiling w d) k := by
  obtain ⟨j, -, hview⟩ := memberView_eq hw h rfl hafter hlow hcount
  have hok := hview
  have heffective : effectiveKey input s (d.row w) =
      keyInForce initial w.transitions.rows (d.row w).ceiling := effectiveKey_eq hw h rfl
  simp only [memberView, heffective, hafter, ok_bind, bind_eq_ok, pure_eq_ok] at hok
  obtain ⟨transitions, -, ⟨rosters, exhausted⟩, hcollect, hfields⟩ := hok
  obtain ⟨k, hpage, hfull⟩ := collectRosters_page hw h hlow hle hlt hcollect
  have hrosters : rosters = ((w.rosters.rows.drop low).take j).map (·.signedRoster) :=
    congrArg MembershipStateView.rosters hfields
  refine ⟨k, ?_, hfull⟩
  rw [hview, viewAfter, viewAfter, ← hrosters, hpage]

end Pages

/-- What a device reads that names no roster: its certificate `c`, under the key of the view, and the
rosters from the one of the epoch of `c` on.  The first of them is `m`, which is under this key too
and lists the certificate byte for byte. -/
structure ExactPage (crypto : Crypto) (w : Workspace) (d : Device) (view : MembershipStateView)
    (c : SignedDeviceCertificate) (m : SignedWorkspaceRoster) : Prop where
  stored : d.signedCertificate = some view.signedCertificate
  certificate : decodeSignedDeviceCertificate crypto view.signedCertificate
    view.authorityPublicKey.bytes = .ok c
  first : ∃ encoded, view.rosters.head? = some encoded ∧
    decodeSignedWorkspaceRoster crypto encoded view.authorityPublicKey.bytes = .ok m
  epoch : m.body.rosterEpoch = c.body.membershipEpoch
  listed : ∃ active ∈ m.body.activeCertificates,
    encodeSignedDeviceCertificate crypto active view.authorityPublicKey.bytes =
      .ok view.signedCertificate
  contiguous : ∀ i encoded, view.rosters[i]? = some encoded →
    ∃ (key : Block 32) (r : SignedWorkspaceRoster),
      decodeSignedWorkspaceRoster crypto encoded key.bytes = .ok r ∧
      r.body.rosterEpoch.toNat = c.body.membershipEpoch.toNat + i
  page : ∃ k, view.rosters =
      ((w.rosters.rows.drop (c.body.membershipEpoch.toNat - 1)).take k).map (·.signedRoster) ∧
    FullPage w (c.body.membershipEpoch.toNat - 1) (visibleCeiling w d) k

/-- The rosters of a page are numbered on. -/
theorem Workspace.Chained.contiguous {crypto : Crypto} {w : Workspace} {initial : Block 32}
    (h : w.Chained crypto initial) {low k i : Nat} {encoded : Bytes}
    (hi : (((w.rosters.rows.drop low).take k).map (·.signedRoster))[i]? = some encoded) :
    ∃ (key : Block 32) (r : SignedWorkspaceRoster),
      decodeSignedWorkspaceRoster crypto encoded key.bytes = .ok r ∧
      r.body.rosterEpoch.toNat = low + 1 + i := by
  rw [List.getElem?_map] at hi
  obtain ⟨row, hrow, rfl⟩ := Option.map_eq_some_iff.mp hi
  have hmem : row ∈ w.rosters.rows :=
    List.mem_of_mem_drop (List.mem_of_mem_take (List.mem_of_getElem? hrow))
  obtain ⟨m, hm⟩ := h.rosters.holds row hmem
  have hnumber := ((h.rosters.epochs.drop low).take k).getElem? hrow
  exact ⟨_, m, hm.decodes, by rw [hm.epoch, hnumber, Nat.add_comm 1 low]⟩

/-- The certificate of a device that has one, read without naming a roster. -/
theorem ListedAt.reads {crypto : Crypto} {s : Registry} {input : MembershipRead} {w : Workspace}
    {d : Device} {initial key : Block 32} {c : SignedDeviceCertificate}
    (hd : ListedAt crypto initial key w d c) (hw : s.find input.workspaceID = some w)
    (h : w.Chained crypto initial) (hle : visibleCeiling w d ≤ w.rosters.rows.length)
    (hafter : input.afterRosterEpoch = 0) :
    ∃ view m, memberView crypto input s (d.row w) = .ok view ∧ ExactPage crypto w d view c m := by
  obtain ⟨encoded, hstored, hencode⟩ := hd.stored
  obtain ⟨row, hrow, hepoch, m, hm, hc⟩ := hd.listed
  have hpositive : 1 ≤ c.body.membershipEpoch.toNat := hepoch ▸ (h.rosters.epochs.bounds hrow).1
  have hbound := hd.bound
  have hkey : keyInForce initial w.transitions.rows (d.row w).ceiling = key :=
    (h.ceiling_eq 0).2.trans hd.inForce
  have hdecode := decodeSignedDeviceCertificate_iff.mpr hencode
  have hcolumn : (d.row w).signedCertificate.getD [] = encoded := by
    simp [Device.row, hstored]
  obtain ⟨after, hquery, hlow⟩ := queryAfterEpoch_own hafter hdecode hpositive
    (Nat.le_trans (Nat.le_trans hbound hle) h.length_le)
  rw [← hcolumn, ← hkey] at hquery
  obtain ⟨k, hview, hfull⟩ := memberView_page hw h hquery hlow (by
    rw [(h.ceiling_eq _).1]
    exact Nat.le_trans hd.few (by decide)) hle (by omega)
  -- the first roster of the page is the one that lists the certificate
  have hfirst : (w.rosters.rows.drop (c.body.membershipEpoch.toNat - 1)).head? = some row := by
    rw [List.head?_drop, ← hepoch]
    exact h.rosters.epochs.getElem?_of_mem hrow
  refine ⟨_, m, hview, ?_⟩
  exact {
    stored := hstored.trans (congrArg some hcolumn.symm)
    certificate := by simp only [viewAfter, hcolumn, hkey, hdecode]
    first := by
      refine ⟨row.signedRoster, ?_, ?_⟩
      · rw [viewAfter, List.head?_map, List.head?_take, if_neg (by have := hfull.positive; omega), hfirst,
          Option.map_some]
      · simp only [viewAfter, hkey, hm.decodes]
    epoch := UInt64.toNat_inj.mp (hm.epoch.trans hepoch)
    listed := ⟨c, hc, by simp only [viewAfter, hcolumn, hkey, hencode]⟩
    contiguous := fun i encoded hi => by
      obtain ⟨key, r, hr, hnumber⟩ := h.contiguous hi
      exact ⟨key, r, hr, by omega⟩
    page := ⟨k, rfl, hfull⟩ }

/-- An enrolled device that names no roster reads the roster of its own certificate first.  The
certificate and this roster are under the key that the view names, the roster lists the certificate
byte for byte, and the rosters continue to the bounds of a page. -/
theorem bootstrap_page_exact (crypto : Crypto) (s : Registry) (hs : Reachable crypto s)
    (input : MembershipRead) (hafter : input.afterRosterEpoch = 0) (w : Workspace)
    (hw : s.find input.workspaceID = some w) (d : Device)
    (hd : w.devices.find input.deviceID = some d) (henrolled : d.Enrolled)
    (htoken : d.authTokenHash = crypto.sha256 input.authToken)
    (hlength : input.authToken.length = authTokenBytes) :
    ∃ view c m,
      (readMembershipState crypto input).eval (answerMembership crypto input s) = .ok view ∧
      (∀ result, (readMembershipState crypto input).alone (answerMembership crypto input s) false =
        some result → result = .ok view) ∧
      ExactPage crypto w d view c m := by
  have hmem := (Registry.find_eq_some.mp hw).1
  obtain ⟨initial, h⟩ := hs.chained w hmem
  have hrow := (Table.find_eq_some.mp hd).1
  obtain ⟨key, c, hlisted⟩ := hs.listed hmem h d hrow henrolled
  obtain ⟨view, m, hview, hpage⟩ := hlisted.reads hw h (hs.ceiling_le hmem h hrow) hafter
  have heval := hs.eval_enrolled hw hd henrolled htoken hlength (by simp [hafter])
  rw [hview] at heval
  exact ⟨view, c, m, heval, fun result hresult => (Statements.alone_eq_some hresult).symm.trans heval,
    hpage⟩

/-- A device is revoked, another one joins, and the authority rotates. -/
def revokedThenRotated : List Call :=
  revokedCalls ++ enroll 2 ++ [.rotateWorkspaceAuthority sampleRotation]

/-- The revoked device reads the rosters from that of its certificate to that of its revocation. -/
theorem bootstrap_page_exact_revoked :
    ∃ w d view c m, ((store sampleCrypto).run .empty revokedThenRotated).find sampleWorkspace = some w ∧
      w.devices.find sampleRead.deviceID = some d ∧ visibleCeiling w d = 2 ∧
      (readMembershipState sampleCrypto sampleRead).eval (answerMembership sampleCrypto sampleRead
        ((store sampleCrypto).run .empty revokedThenRotated)) = .ok view ∧
      ExactPage sampleCrypto w d view c m := by
  have hcolumns : (((store sampleCrypto).run .empty revokedThenRotated).find sampleWorkspace).bind
      (fun w => (w.devices.find sampleRead.deviceID).map fun d =>
        (d.membershipState, d.authTokenHash, visibleCeiling w d, d.revokedMembershipEpoch.isSome)) =
      some (.revoked, sampleCrypto.sha256 sampleRead.authToken, 2, true) := by
    decide +kernel
  obtain ⟨w, hw, hdevice⟩ := Option.bind_eq_some_iff.mp hcolumns
  obtain ⟨d, hd, hdevice⟩ := Option.map_eq_some_iff.mp hdevice
  simp only [Prod.mk.injEq] at hdevice
  obtain ⟨hstate, htoken, hceiling, hepoch⟩ := hdevice
  obtain ⟨view, c, m, heval, -, hpage⟩ := bootstrap_page_exact sampleCrypto _
    ⟨revokedThenRotated, rfl⟩ sampleRead rfl w hw d hd (Or.inr ⟨hstate, hepoch⟩) htoken (by decide)
  exact ⟨w, d, view, c, m, hw, hd, hceiling, heval, hpage⟩

end SevenMirror.Admission
