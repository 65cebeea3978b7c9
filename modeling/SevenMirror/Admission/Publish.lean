import SevenMirror.Admission.Chain

/-! What the operations publish.  Approving, renaming, and revoking a device add one roster under the
key of the workspace; rotating the authority adds one transition and one roster under the new key.
Each keeps both chains. -/

namespace SevenMirror.Admission

open Lib MembershipCodec

variable {crypto : Crypto} {initial : Block 32} {w w' : Workspace}

theorem RosterRow.Holds.eq {id : WorkspaceID} {key : Block 32} {r : RosterRow}
    {m m' : SignedWorkspaceRoster} (h : r.Holds crypto id key m)
    (h' : decodeSignedWorkspaceRoster crypto r.signedRoster key.bytes = .ok m') : m' = m := by
  have hm := h.decodes
  rw [h'] at hm
  exact Except.ok.inj hm

/-- The last roster is one under the key of the workspace. -/
theorem Workspace.Chained.last_holds (h : w.Chained crypto initial) {row : RosterRow}
    (hrow : w.rosters.rows.getLast? = some row) :
    ∃ m, row.Holds crypto w.id w.authorityPublicKey m := by
  obtain ⟨m, hm⟩ := h.rosters.holds row (List.mem_of_getLast? hrow)
  have hlast := h.rosters.epochs.last hrow
  rw [h.authority.key_current (by omega)] at hm
  exact ⟨m, hm⟩

/-- The draft continues the rosters of the workspace: it is the first one, or it follows the last
roster `m`. -/
inductive Drafts (crypto : Crypto) (w : Workspace) : WorkspaceRosterDraft → Prop
  | first : w.rosters.rows = [] → Drafts crypto w firstDraft
  | next (row : RosterRow) (m : SignedWorkspaceRoster) : w.rosters.rows.getLast? = some row →
      row.Holds crypto w.id w.authorityPublicKey m → m.body.rosterEpoch < maxEpoch →
      Drafts crypto w (nextDraft m)

theorem Workspace.Chained.draft_next (h : w.Chained crypto initial) {row : RosterRow}
    {m : SignedWorkspaceRoster} (hrow : latestRoster w.rosters.rows = some row)
    (hm : decodeSignedWorkspaceRoster crypto row.signedRoster w.authorityPublicKey.bytes = .ok m)
    (hepoch : ¬ m.body.rosterEpoch ≥ maxEpoch) : Drafts crypto w (nextDraft m) := by
  rw [h.rosters.latest] at hrow
  obtain ⟨m', hm'⟩ := h.last_holds hrow
  have heq := hm'.eq hm
  subst heq
  exact .next row m hrow hm' (UInt64.not_le.mp hepoch)

theorem Workspace.Chained.drafts (h : w.Chained crypto initial) {draft : WorkspaceRosterDraft}
    (hd : prepareNextWorkspaceRoster crypto w = .ok draft) : Drafts crypto w draft := by
  unfold prepareNextWorkspaceRoster at hd
  split at hd
  · rename_i hnone
    cases hd
    rw [h.rosters.latest] at hnone
    exact .first (List.getLast?_eq_none_iff.mp hnone)
  · rename_i row hrow
    simp only [bind_eq_ok, rethrow_eq_ok, exists_unit, reject_eq_ok, pure_eq_ok] at hd
    obtain ⟨m, hm, hepoch, rfl⟩ := hd
    exact h.draft_next hrow hm hepoch

theorem Drafts.epoch_eq (h : w.Chained crypto initial) {draft : WorkspaceRosterDraft}
    (hd : Drafts crypto w draft) : draft.epoch = 1 + w.rosters.rows.length := by
  cases hd with
  | first hnil => simp [firstDraft, hnil]
  | next row m hrow hm _ =>
    have hlast := h.rosters.epochs.last hrow
    have hepoch := hm.epoch
    simp only [nextDraft]
    omega

theorem Drafts.epoch_toNat {draft : WorkspaceRosterDraft} (hd : Drafts crypto w draft) :
    (UInt64.ofNat draft.epoch).toNat = draft.epoch := by
  have hbound : draft.epoch < 0x10000000000000000 := by
    cases hd with
    | first => decide
    | next row m _ _ hlt =>
      have hlt := UInt64.lt_iff_toNat_lt.mp hlt
      simp only [nextDraft, maxEpoch, UInt64.reduceToNat] at hlt ⊢
      omega
  simp only [UInt64.toNat_ofNat']
  exact Nat.mod_eq_of_lt hbound

/-- The digest that the next roster names. -/
theorem Drafts.previous {draft : WorkspaceRosterDraft} (hd : Drafts crypto w draft)
    {digest : Block 32} (h : digest.bytes = draft.previousDigest) :
    (w.rosters.rows = [] → digest = zeroDigest) ∧
      ∀ x ∈ w.rosters.rows.getLast?, digest = x.digest := by
  cases hd with
  | first hnil =>
    refine ⟨fun _ => Block.ext h, ?_⟩
    simp [hnil]
  | next row m hrow hm _ =>
    refine ⟨fun hnil => ?_, fun x hx => ?_⟩
    · simp [hnil] at hrow
    · rw [hrow] at hx
      cases hx
      exact Block.ext (h.trans hm.digest)

theorem insertWorkspaceRoster_ok {epoch : Nat} {previousDigest encoded : Bytes}
    {roster : SignedWorkspaceRoster} {now : Time}
    (h : insertWorkspaceRoster w epoch previousDigest roster encoded now = .ok w') :
    ∃ row rosters, w' = { w with rosters } ∧ rosters.rows = w.rosters.rows ++ [row] ∧
      row.epoch = epoch ∧ row.digest.bytes = roster.rosterDigest ∧
      row.previousDigest.bytes = previousDigest ∧ row.signedRoster = encoded := by
  simp only [insertWorkspaceRoster, bind_eq_ok, require_eq_ok, exists_unit, reject_eq_ok,
    pure_eq_ok] at h
  obtain ⟨digest, hdigest, previous, hprevious, -, rosters, hrosters, rfl⟩ := h
  exact ⟨_, rosters, rfl, (Table.insert_eq_some.mp hrosters).2, rfl,
    Block.check_eq_some.mp hdigest, Block.check_eq_some.mp hprevious, rfl⟩

/-- `w'` has one roster more than `w`, with this body, under the key of `w'`. -/
def Published (crypto : Crypto) (w w' : Workspace) (body : WorkspaceRoster) : Prop :=
  ∃ row m, w'.rosters.rows = w.rosters.rows ++ [row] ∧
    row.Holds crypto w'.id w'.authorityPublicKey m ∧ m.roster = some body

/-- The row of a signed roster, under the key it is encoded for. -/
theorem holds_of_signed {key : Block 32} {draft : WorkspaceRosterDraft}
    {active : List SignedDeviceCertificate} {revocations : List RevokedCertificate}
    {transitions : List DeviceCertificateTransition} {privateKey encoded : Bytes}
    {roster : SignedWorkspaceRoster} {row : RosterRow} (hd : Drafts crypto w draft)
    (hsign : signWorkspaceRoster crypto (rosterOf w draft active revocations transitions)
      privateKey = .ok roster)
    (hencode : encodeSignedWorkspaceRoster crypto roster key.bytes = .ok encoded)
    (hepoch : row.epoch = draft.epoch) (hdigest : row.digest.bytes = roster.rosterDigest)
    (hprevious : row.previousDigest.bytes = draft.previousDigest)
    (hsigned : row.signedRoster = encoded) : row.Holds crypto w.id key roster := by
  have hbody := signWorkspaceRoster_ok hsign
  refine ⟨?_, ?_, ?_, hdigest.symm, ?_⟩
  · rw [hsigned]
    exact decodeSignedWorkspaceRoster_iff.mpr hencode
  · simp [SignedWorkspaceRoster.body, hbody, rosterOf]
  · simp only [SignedWorkspaceRoster.body, hbody, Option.getD_some, rosterOf]
    rw [hd.epoch_toNat, hepoch]
  · simp [SignedWorkspaceRoster.body, hbody, rosterOf, hprevious]

/-- A roster under the key of the workspace keeps the chains. -/
theorem Workspace.Chained.publish (h : w.Chained crypto initial) {draft : WorkspaceRosterDraft}
    (hd : Drafts crypto w draft) {active : List SignedDeviceCertificate}
    {revocations : List RevokedCertificate} {transitions : List DeviceCertificateTransition}
    {privateKey encoded : Bytes} {roster : SignedWorkspaceRoster} {devices : Table Device.id}
    {now : Time}
    (hsign : signWorkspaceRoster crypto (rosterOf w draft active revocations transitions)
      privateKey = .ok roster)
    (hencode : encodeSignedWorkspaceRoster crypto roster w.authorityPublicKey.bytes = .ok encoded)
    (hinsert : insertWorkspaceRoster { w with devices } draft.epoch draft.previousDigest roster
      encoded now = .ok w') :
    w'.Chained crypto initial ∧
      Published crypto w w' (rosterOf w draft active revocations transitions) := by
  obtain ⟨row, rosters, rfl, hrows, hepoch, hdigest, hprevious, hsigned⟩ :=
    insertWorkspaceRoster_ok hinsert
  have hholds := holds_of_signed hd hsign hencode hepoch hdigest hprevious hsigned
  have hlength := hepoch.trans (hd.epoch_eq h)
  obtain ⟨hfirst, hlink⟩ := hd.previous hprevious
  refine ⟨⟨?_, ?_⟩, row, roster, hrows, hholds, signWorkspaceRoster_ok hsign⟩
  · dsimp only at hrows ⊢
    rw [hrows]
    refine h.rosters.concat hlength (fun _ _ => rfl) ⟨roster, ?_⟩ hfirst hlink
    rw [h.authority.key_current (by omega)]
    exact hholds
  · dsimp only at hrows ⊢
    rw [hrows]
    exact h.authority.concatRoster row

end SevenMirror.Admission
