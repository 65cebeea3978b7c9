import SevenMirror.Admission.MembershipState
import SevenMirror.Admission.KeyPath

/-! What `ReadMembershipState` returns when one store answers all of its statements. -/

namespace SevenMirror.Admission

open Lib MembershipCodec

section Views

variable (crypto : Crypto) (input : MembershipRead) (s : Registry)

/-- The authority that the view names: that of the workspace, or that of the epoch at which the
device was revoked. -/
def effectiveKey (row : MemberRow) : Block 32 :=
  match row.revokedMembershipEpoch with
  | none => row.authorityPublicKey
  | some epoch =>
    match selectTerminalAuthority input s epoch with
    | some key => key
    | none => (selectFirstAuthority input s).getD row.authorityPublicKey

/-- The last epoch that the device may read. -/
def MemberRow.ceiling (row : MemberRow) : Nat := row.revokedMembershipEpoch.getD maxInt64

/-- The view of a device that has a certificate. -/
def memberView (row : MemberRow) : Except MembershipReadError MembershipStateView := do
  let key := effectiveKey input s row
  let after ← queryAfterEpoch crypto input (row.signedCertificate.getD []) key
  let transitions ← collectTransitions [] (selectTransitions input s after row.ceiling)
  let (rosters, _) ← collectRosters (after + 1) 0 [] (selectRosters input s after row.ceiling)
  return {
    state := .approved
    authorityPublicKey := key
    signedCertificate := row.signedCertificate.getD []
    authorityTransitions := transitions
    rosters := rosters
    latestRosterEpoch :=
      row.revokedMembershipEpoch.getD (maxRosterEpoch (s.rostersOf input.workspaceID)) }

variable {crypto input s}

theorem readLatestEpoch_eval {view : MembershipStateView} {revoked : Option Nat} :
    (readLatestEpoch view revoked).eval (answerMembership crypto input s) =
      .ok { view with
        latestRosterEpoch := revoked.getD (maxRosterEpoch (s.rostersOf input.workspaceID)) } := by
  cases revoked <;> rfl

theorem readRosters_eval {view : MembershipStateView} {revoked : Option Nat} {after : Int64}
    {maximumEpoch : Nat} :
    (readRosters view revoked after maximumEpoch).eval (answerMembership crypto input s) =
      (do
        let (rosters, _) ←
          collectRosters (after + 1) 0 [] (selectRosters input s after maximumEpoch)
        return { view with
          rosters
          latestRosterEpoch :=
            revoked.getD (maxRosterEpoch (s.rostersOf input.workspaceID)) }) := by
  simp only [readRosters, Statements.eval, answerMembership]
  cases collectRosters (after + 1) 0 [] (selectRosters input s after maximumEpoch) with
  | error e => rfl
  | ok page =>
    obtain ⟨rosters, exhausted⟩ := page
    cases exhausted <;> exact readLatestEpoch_eval

theorem readChains_eval {view : MembershipStateView} {revoked : Option Nat} {maximumEpoch : Nat} :
    (readChains crypto input view revoked maximumEpoch).eval (answerMembership crypto input s) =
      (do
        let after ← queryAfterEpoch crypto input view.signedCertificate view.authorityPublicKey
        let authorityTransitions ←
          collectTransitions [] (selectTransitions input s after maximumEpoch)
        let (rosters, _) ←
          collectRosters (after + 1) 0 [] (selectRosters input s after maximumEpoch)
        return { view with
          authorityTransitions, rosters
          latestRosterEpoch :=
            revoked.getD (maxRosterEpoch (s.rostersOf input.workspaceID)) }) := by
  unfold readChains
  cases queryAfterEpoch crypto input view.signedCertificate view.authorityPublicKey with
  | error e => rfl
  | ok after =>
    simp only [readTransitions, Statements.eval, answerMembership]
    cases htransitions : collectTransitions [] (selectTransitions input s after maximumEpoch) with
    | error e => simp only [ok_bind, htransitions, error_bind, Statements.eval]
    | ok transitions => simp only [ok_bind, htransitions, readRosters_eval]

/-- The call in one store: a device that is pending has no chains to read. -/
theorem readMember_eval {row : MemberRow} :
    (readMember crypto input row).eval (answerMembership crypto input s) =
      if row.state ≠ .revoked ∧ row.state ≠ .approved then .ok (row.view row.state)
      else memberView crypto input s row := by
  unfold readMember
  split
  · rfl
  · unfold memberView effectiveKey MemberRow.ceiling
    cases hepoch : row.revokedMembershipEpoch with
    | none =>
      simp only [readChains_eval]
      rfl
    | some epoch =>
      simp only [Statements.eval, answerMembership]
      cases hterminal : selectTerminalAuthority input s epoch with
      | none =>
        simp only [Statements.eval, answerMembership, readChains_eval]
        rfl
      | some key =>
        simp only [readChains_eval]
        rfl

end Views

/-! ### The rows that are selected -/

section Selected

variable {ρ : Type} {key : ρ → Nat} {p : ρ → Bool} {rows : List ρ}

theorem orderedRows_eq (h : rows.Pairwise fun a b => key a ≤ key b) :
    orderedRows key p rows = rows.filter p :=
  List.Pairwise.insertionSort_eq (h.filter p)

end Selected

theorem collectTransitions_eq {taken rows : List Bytes}
    (h : taken.length + rows.length ≤ maxAuthorityTransitions) :
    collectTransitions taken rows = .ok (taken ++ rows) := by
  induction rows generalizing taken with
  | nil => simp [collectTransitions]
  | cons encoded rest ih =>
    rw [List.length_cons] at h
    rw [collectTransitions, if_neg (by omega), ih (by rw [List.length_append]; simp; omega)]
    simp

theorem collectTransitions_ok {taken rows transitions : List Bytes}
    (htaken : taken.length ≤ maxAuthorityTransitions)
    (h : collectTransitions taken rows = .ok transitions) :
    taken.length + rows.length ≤ maxAuthorityTransitions := by
  induction rows generalizing taken with
  | nil => simpa using htaken
  | cons encoded rest ih =>
    simp only [collectTransitions] at h
    split at h
    · cases h
    · have := ih (by rw [List.length_append, List.length_singleton]; omega) h
      rw [List.length_append, List.length_singleton] at this
      rw [List.length_cons]
      omega

theorem toInt_toInt64_sub_one {x : UInt64} (h : ¬ x < 1) (hle : ¬ x > maxEpoch) :
    (x.toInt64 - 1).toInt = x.toNat - 1 := by
  have hpos : 1 ≤ x.toNat := UInt64.le_iff_toNat_le.mp (UInt64.not_lt.mp h)
  have hlt : x.toNat ≤ 0x7fffffffffffffff := UInt64.le_iff_toNat_le.mp (UInt64.not_lt.mp hle)
  have hx : x.toInt64.toInt = x.toNat := by
    show x.toBitVec.toInt = _
    rw [BitVec.toInt_eq_toNat_of_lt (by simpa using (by omega : 2 * x.toNat < 2 ^ 64))]
    rfl
  rw [Int64.toInt_sub, Int64.toInt_one, hx]
  apply Int.bmod_eq_of_le <;> omega

/-- On rosters without a gap the loop takes the first ones, and all of them if it does not break. -/
theorem collectRosters_numbered {rows : List (Nat × Bytes)} {epoch : Nat} (expectedEpoch : Int64)
    (pageBytes : Nat) (taken : List Bytes) (h : Numbered (·.1) (epoch + 1) rows)
    (hmax : epoch + rows.length ≤ maxInt64)
    (hexpected : rows ≠ [] → expectedEpoch.toInt = epoch + 1) :
    ∃ k ≤ rows.length, collectRosters expectedEpoch pageBytes taken rows =
      .ok (taken ++ (rows.take k).map (·.2), decide (k = rows.length)) := by
  induction rows generalizing epoch expectedEpoch pageBytes taken with
  | nil => exact ⟨0, Nat.le_refl _, by simp [collectRosters]⟩
  | cons row rest ih =>
    obtain ⟨e, signedRoster⟩ := row
    obtain ⟨hrow, hrest⟩ := h.of_cons
    have hexpected := hexpected (List.cons_ne_nil _ _)
    rw [List.length_cons] at hmax
    rw [collectRosters, if_neg (by simp only at hrow; omega)]
    split
    · exact ⟨0, Nat.zero_le _, by simp⟩
    · have hnext : rest ≠ [] → (expectedEpoch + 1).toInt = (epoch + 1 : Nat) + 1 := fun hne => by
        have := List.length_pos_iff.mpr hne
        rw [toInt_add_one (by omega) (by omega)]
        omega
      obtain ⟨k, hk, hcollect⟩ :=
        ih (expectedEpoch + 1) (pageBytes + signedRoster.length) (taken ++ [signedRoster]) hrest
          (by omega) hnext
      refine ⟨k + 1, by rw [List.length_cons]; omega, ?_⟩
      rw [hcollect]
      simp

/-! ### The view of a workspace -/

section Chained

variable {crypto : Crypto} {input : MembershipRead} {s : Registry} {initial : Block 32}
  {w : Workspace}

theorem Workspace.Chained.length_le (h : w.Chained crypto initial) :
    w.rosters.rows.length ≤ maxInt64 := by
  cases hlast : w.rosters.rows.getLast? with
  | none => simp [List.getLast?_eq_none_iff.mp hlast]
  | some row =>
    obtain ⟨m, hm⟩ := h.rosters.holds row (List.mem_of_getLast? hlast)
    have hvalid := (encodeSignedWorkspaceRoster_iff.mp
      (decodeSignedWorkspaceRoster_iff.mp hm.decodes)).1
    obtain ⟨-, -, roster, -, hroster, hvalid, -⟩ := validateSignedWorkspaceRoster_iff.mp hvalid
    have hbound : roster.rosterEpoch.toNat ≤ maxInt64 := UInt64.le_iff_toNat_le.mp hvalid.epoch.2
    have hepoch := hm.epoch
    have := h.rosters.epochs.last hlast
    simp only [SignedWorkspaceRoster.body, hroster, Option.getD_some] at hepoch
    omega

theorem Workspace.Chained.activations (h : w.Chained crypto initial) :
    w.transitions.rows.Pairwise fun t t' =>
      t.activationRosterEpoch < t'.activationRosterEpoch :=
  activations_ascend (h.authority.linked.imp fun _ _ h => h.2.2)

theorem memberRow_eq_some {row : MemberRow} :
    memberRow crypto input s = some row ↔
      ∃ w d, s.find input.workspaceID = some w ∧ w.devices.find input.deviceID = some d ∧
        d.authTokenHash = crypto.sha256 input.authToken ∧ d.readable = true ∧
        row = ⟨d.membershipState, w.authorityPublicKey, d.signedCertificate,
          d.revokedMembershipEpoch⟩ := by
  simp only [memberRow, Option.bind_eq_bind, Option.bind_eq_some_iff,
    Option.ite_none_right_eq_some, Option.some.injEq]
  constructor
  · rintro ⟨w, hw, d, hd, ⟨htoken, hreadable⟩, rfl⟩
    exact ⟨w, d, hw, hd, htoken, hreadable, rfl⟩
  · rintro ⟨w, d, hw, hd, htoken, hreadable, rfl⟩
    exact ⟨w, hw, d, hd, ⟨htoken, hreadable⟩, rfl⟩

/-- The key that the view names is the one in force at the ceiling. -/
theorem effectiveKey_eq (hw : s.find input.workspaceID = some w) (h : w.Chained crypto initial)
    {row : MemberRow} (hrow : row.authorityPublicKey = w.authorityPublicKey) :
    effectiveKey input s row = keyInForce initial w.transitions.rows row.ceiling := by
  have hascend : w.transitions.rows.Pairwise fun t t' =>
      t.activationRosterEpoch ≤ t'.activationRosterEpoch := h.activations.imp Nat.le_of_lt
  have hrows : s.transitionsOf input.workspaceID = w.transitions.rows := by
    simp [Registry.transitionsOf, hw]
  unfold effectiveKey MemberRow.ceiling
  cases row.revokedMembershipEpoch with
  | none => rw [hrow, Option.getD_none, h.authority.key_current h.length_le]
  | some epoch =>
    simp only [Option.getD_some, selectTerminalAuthority, selectFirstAuthority, hrows,
      orderedRows_eq hascend]
    unfold keyInForce
    cases (w.transitions.rows.filter fun t => t.activationRosterEpoch ≤ epoch).getLast? with
    | some t => rfl
    | none =>
      -- before the first transition the key is the one that it replaces
      rw [Option.map_none, List.filter_eq_self.mpr (by simp)]
      cases hhead : w.transitions.rows.head? with
      | some t => exact (h.authority.first t hhead).2
      | none =>
        have hnil := List.head?_eq_none_iff.mp hhead
        simp [hrow, h.authority.current_key, hnil]

/-- The transitions that become active after one epoch and not after another. -/
def transitionsWithin (rows : List TransitionRow) (low high : Nat) : List TransitionRow :=
  rows.filter fun t => low < t.activationRosterEpoch ∧ t.activationRosterEpoch ≤ high

theorem within_eq {after : Int64} {low : Nat} (hlow : after.toInt = low) (high epoch : Nat) :
    within after high epoch = decide (low < epoch ∧ epoch ≤ high) := by
  simp [within, hlow]

theorem selectTransitions_eq (hw : s.find input.workspaceID = some w)
    (h : w.Chained crypto initial) {after : Int64} {low : Nat} (hlow : after.toInt = low)
    (high : Nat) : selectTransitions input s after high =
      ((transitionsWithin w.transitions.rows low high).take (maxAuthorityTransitions + 1)).map
        (·.signedTransition) := by
  have hascend : w.transitions.rows.Pairwise fun t t' => t.epoch ≤ t'.epoch :=
    h.authority.epochs.ascending.imp Nat.le_of_lt
  simp only [selectTransitions, Registry.transitionsOf, hw, Option.map_some, Option.getD_some,
    orderedRows_eq hascend, transitionsWithin, within_eq hlow]

theorem selectRosters_eq (hw : s.find input.workspaceID = some w) (h : w.Chained crypto initial)
    {after : Int64} {low : Nat} (hlow : after.toInt = low) (high : Nat) :
    selectRosters input s after high =
      (((w.rosters.rows.drop low).take (high - low)).take maxMembershipRosterPage).map
        fun r => (r.epoch, r.signedRoster) := by
  have hascend : w.rosters.rows.Pairwise fun r r' => r.epoch ≤ r'.epoch :=
    h.rosters.epochs.ascending.imp Nat.le_of_lt
  simp only [selectRosters, Registry.rostersOf, hw, Option.map_some, Option.getD_some,
    orderedRows_eq hascend, within_eq hlow]
  rw [h.rosters.epochs.filter_within (by omega), Nat.add_sub_cancel]

/-- The page of rosters after an epoch is found without a gap. -/
theorem collectRosters_eq (hw : s.find input.workspaceID = some w) (h : w.Chained crypto initial)
    {after : Int64} {low : Nat} (hlow : after.toInt = low) (high : Nat) :
    ∃ k ≤ high - low, ∃ exhausted,
      collectRosters (after + 1) 0 [] (selectRosters input s after high) =
        .ok (((w.rosters.rows.drop low).take k).map (·.signedRoster), exhausted) := by
  rw [selectRosters_eq hw h hlow, List.take_take]
  obtain ⟨n, hn, hmin⟩ : ∃ n ≤ high - low, min maxMembershipRosterPage (high - low) = n :=
    ⟨_, Nat.min_le_right _ _, rfl⟩
  rw [hmin]
  have hnumbered : Numbered (·.1) (low + 1)
      (((w.rosters.rows.drop low).take n).map fun r => (r.epoch, r.signedRoster)) := by
    have hepochs := (h.rosters.epochs.drop low).take n
    rw [Nat.add_comm] at hepochs
    unfold Numbered at hepochs ⊢
    rw [List.map_map, List.length_map]
    exact hepochs
  have hbound := Int64.toInt_lt after
  have hlength := h.length_le
  unfold maxInt64 at hlength
  obtain ⟨k, hk, hcollect⟩ := collectRosters_numbered (after + 1) 0 [] hnumbered
    (by
      rw [List.length_map, List.length_take, List.length_drop]
      unfold maxInt64
      omega)
    (fun hne => by
      have hpos := List.length_pos_iff.mpr hne
      rw [List.length_map, List.length_take, List.length_drop] at hpos
      rw [toInt_add_one (by omega) (by unfold maxInt64; omega), hlow])
  rw [List.length_map, List.length_take] at hk
  rw [List.nil_append, ← List.map_take, List.take_take, List.map_map,
    Nat.min_eq_left (by omega)] at hcollect
  exact ⟨k, by omega, _, hcollect⟩

theorem maxRosterEpoch_eq {rows : List RosterRow} (h : Numbered RosterRow.epoch 1 rows) :
    maxRosterEpoch rows = rows.length := by
  induction rows using List.reverseRecOn with
  | nil => rfl
  | append_singleton rows r ih =>
    obtain ⟨hrows, hr⟩ := h.of_concat
    have ih := ih hrows
    unfold maxRosterEpoch at ih ⊢
    rw [List.foldl_append, ih, List.length_append, List.length_singleton, List.foldl_cons,
      List.foldl_nil, hr, Nat.add_comm]
    exact Nat.max_eq_right (Nat.le_succ _)

/-- The view of a workspace after an epoch, with `k` rosters. -/
def viewAfter (initial : Block 32) (w : Workspace) (row : MemberRow) (low k : Nat) :
    MembershipStateView where
  state := .approved
  authorityPublicKey := keyInForce initial w.transitions.rows row.ceiling
  signedCertificate := row.signedCertificate.getD []
  authorityTransitions :=
    (transitionsWithin w.transitions.rows low row.ceiling).map (·.signedTransition)
  rosters := ((w.rosters.rows.drop low).take k).map (·.signedRoster)
  latestRosterEpoch := row.revokedMembershipEpoch.getD w.rosters.rows.length

theorem queryAfterEpoch_nonneg {certificate : Bytes} {key : Block 32} {after : Int64}
    (hinput : ¬ input.afterRosterEpoch < 0)
    (h : queryAfterEpoch crypto input certificate key = .ok after) :
    ∃ low : Nat, after.toInt = low := by
  suffices hpos : 0 ≤ after.toInt from ⟨after.toInt.toNat, by omega⟩
  unfold queryAfterEpoch at h
  split at h
  · simp only [bind_eq_ok, exists_unit, rethrow_eq_ok, reject_eq_ok, pure_eq_ok, not_or] at h
    obtain ⟨c, -, ⟨hone, hmax⟩, rfl⟩ := h
    have hle := UInt64.le_iff_toNat_le.mp (UInt64.not_lt.mp hone)
    rw [toInt_toInt64_sub_one hone hmax]
    have : (1 : UInt64).toNat = 1 := rfl
    omega
  · simp only [pure_eq_ok] at h
    subst h
    exact Int64.le_iff_toInt_le.mp (Int64.not_lt.mp hinput)

/-- The view of a member, where the transitions are few enough. -/
theorem memberView_eq (hw : s.find input.workspaceID = some w) (h : w.Chained crypto initial)
    {row : MemberRow} (hrow : row.authorityPublicKey = w.authorityPublicKey) {after : Int64}
    {low : Nat}
    (hafter : queryAfterEpoch crypto input (row.signedCertificate.getD [])
      (keyInForce initial w.transitions.rows row.ceiling) = .ok after)
    (hlow : after.toInt = low)
    (hcount : (transitionsWithin w.transitions.rows low row.ceiling).length ≤
      maxAuthorityTransitions) :
    ∃ k ≤ row.ceiling - low,
      memberView crypto input s row = .ok (viewAfter initial w row low k) := by
  obtain ⟨k, hk, exhausted, hcollect⟩ := collectRosters_eq hw h hlow row.ceiling
  have htransitions : collectTransitions [] (selectTransitions input s after row.ceiling) =
      .ok ((transitionsWithin w.transitions.rows low row.ceiling).map (·.signedTransition)) := by
    rw [selectTransitions_eq hw h hlow, List.take_of_length_le (by omega),
      collectTransitions_eq (by simpa using hcount), List.nil_append]
  have hlatest : maxRosterEpoch (s.rostersOf input.workspaceID) = w.rosters.rows.length := by
    rw [← maxRosterEpoch_eq h.rosters.epochs]
    simp [Registry.rostersOf, hw]
  refine ⟨k, hk, ?_⟩
  simp only [memberView, effectiveKey_eq hw h hrow, hafter, ok_bind, htransitions, hcollect,
    hlatest]
  rfl

theorem memberView_ok (hw : s.find input.workspaceID = some w) (h : w.Chained crypto initial)
    {row : MemberRow} (hrow : row.authorityPublicKey = w.authorityPublicKey)
    (hinput : ¬ input.afterRosterEpoch < 0) {view : MembershipStateView}
    (hview : memberView crypto input s row = .ok view) :
    ∃ low, ∃ k ≤ row.ceiling - low, view = viewAfter initial w row low k := by
  have hok := hview
  simp only [memberView, effectiveKey_eq hw h hrow, bind_eq_ok] at hok
  obtain ⟨after, hafter, transitions, htransitions, -⟩ := hok
  obtain ⟨low, hlow⟩ := queryAfterEpoch_nonneg hinput hafter
  have hcount := collectTransitions_ok (Nat.zero_le _) htransitions
  rw [selectTransitions_eq hw h hlow, List.length_nil, List.length_map, List.length_take] at hcount
  obtain ⟨k, hk, heq⟩ := memberView_eq hw h hrow hafter hlow (by omega)
  rw [hview] at heq
  exact ⟨low, k, hk, Except.ok.inj heq⟩

/-- The call in one store. -/
theorem readMembershipState_eval :
    (readMembershipState crypto input).eval (answerMembership crypto input s) =
      if input.authToken.length ≠ authTokenBytes ∨ input.afterRosterEpoch < 0 then
        .error .unavailable
      else match memberRow crypto input s with
        | none => .error .unavailable
        | some row =>
          if row.state ≠ .revoked ∧ row.state ≠ .approved then .ok (row.view row.state)
          else memberView crypto input s row := by
  unfold readMembershipState
  split
  · rfl
  · simp only [Statements.eval, answerMembership]
    cases memberRow crypto input s with
    | none => rfl
    | some row => exact readMember_eval

theorem Workspace.Chained.transitionPath (h : w.Chained crypto initial) {low high : Nat}
    (hle : low ≤ high) :
    TransitionPath crypto (keyInForce initial w.transitions.rows low).bytes
      ((transitionsWithin w.transitions.rows low high).map (·.signedTransition))
      (keyInForce initial w.transitions.rows high).bytes := by
  have hholds : ∀ t ∈ w.transitions.rows, ∃ m, t.Holds crypto w.id m := fun t ht => by
    obtain ⟨m, hm, -⟩ := h.authority.holds t ht
    exact ⟨m, hm⟩
  exact transitionPath_between hholds (fun t ht => (h.authority.first t ht).2)
    (h.authority.linked.imp fun _ _ hlink => hlink.2) hle

theorem transitionsWithin_nil {rows : List TransitionRow} {low high : Nat} (hle : high ≤ low) :
    transitionsWithin rows low high = [] := by
  simp only [transitionsWithin, List.filter_eq_nil_iff, decide_eq_true_eq]
  omega

theorem viewAfter_path (h : w.Chained crypto initial) {row : MemberRow} {low k : Nat} :
    ∃ key, TransitionPath crypto key (viewAfter initial w row low k).authorityTransitions
      (viewAfter initial w row low k).authorityPublicKey.bytes := by
  rcases Nat.le_total low row.ceiling with hle | hle
  · exact ⟨_, h.transitionPath hle⟩
  · simp only [viewAfter, transitionsWithin_nil hle, List.map_nil]
    exact ⟨_, rfl⟩

/-- The rosters of the view stay below the epoch at which the device was revoked. -/
def Clamped (crypto : Crypto) (view : MembershipStateView) (epoch : Nat) : Prop :=
  ∀ encoded ∈ view.rosters, ∃ key m,
    decodeSignedWorkspaceRoster crypto encoded key = .ok m ∧ m.body.rosterEpoch.toNat ≤ epoch

theorem viewAfter_clamped (h : w.Chained crypto initial) {row : MemberRow} {low k : Nat}
    (hk : k ≤ row.ceiling - low) : Clamped crypto (viewAfter initial w row low k) row.ceiling := by
  intro encoded hencoded
  obtain ⟨r, hr, rfl⟩ := List.mem_map.mp hencoded
  have hnumbered := (h.rosters.epochs.drop low).take k
  have hbound := (hnumbered.bounds hr).2
  have hlength : ((w.rosters.rows.drop low).take k).length ≤ k := List.length_take_le _ _
  have hpos := List.length_pos_of_mem hr
  obtain ⟨m, hm⟩ := h.rosters.holds r (List.mem_of_mem_drop (List.mem_of_mem_take hr))
  refine ⟨_, m, hm.decodes, ?_⟩
  rw [hm.epoch]
  omega

/-- In one store the returned key ends the returned transitions, and a revoked device reads no later
roster. -/
theorem read_in_one_store (hall : ∀ w ∈ s.workspaces.rows, ∃ initial, w.Chained crypto initial)
    {view : MembershipStateView}
    (hview : (readMembershipState crypto input).eval (answerMembership crypto input s) =
      .ok view) :
    (∃ key, TransitionPath crypto key view.authorityTransitions view.authorityPublicKey.bytes) ∧
      ∀ w d epoch, s.find input.workspaceID = some w → w.devices.find input.deviceID = some d →
        d.revokedMembershipEpoch = some epoch → Clamped crypto view epoch := by
  rw [readMembershipState_eval] at hview
  split at hview
  · cases hview
  · rename_i hinput
    split at hview
    · cases hview
    · rename_i row hrow
      obtain ⟨w, d, hw, hd, -, -, rfl⟩ := memberRow_eq_some.mp hrow
      split at hview
      · cases hview
        refine ⟨⟨_, rfl⟩, ?_⟩
        rintro w' d' epoch - - - encoded hencoded
        cases hencoded
      · obtain ⟨initial, hchained⟩ := hall w (Table.find_eq_some.mp hw).1
        obtain ⟨low, k, hk, rfl⟩ :=
          memberView_ok hw hchained rfl (fun hneg => hinput (Or.inr hneg)) hview
        refine ⟨viewAfter_path hchained, fun w' d' epoch hw' hd' hepoch => ?_⟩
        rw [hw] at hw'
        cases hw'
        rw [hd] at hd'
        cases hd'
        have hclamped := viewAfter_clamped hchained hk
        simpa [MemberRow.ceiling, hepoch] using hclamped

end Chained

end SevenMirror.Admission
