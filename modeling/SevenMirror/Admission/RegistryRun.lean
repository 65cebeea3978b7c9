import SevenMirror.Admission.Steps

/-! What a committed call does to the registry, and the chains of every workspace in every registry
that calls lead to. -/

namespace SevenMirror.Admission

open Lib MembershipCodec

variable {crypto : Crypto} {s s' : Registry}

theorem Registry.find_eq_some {id : WorkspaceID} {w : Workspace} :
    s.find id = some w ↔ w ∈ s.workspaces.rows ∧ w.id = id :=
  Table.find_eq_some

theorem Registry.put_replaces {w w' : Workspace} (hw : w ∈ s.workspaces.rows)
    (hid : w'.id = w.id) : s.workspaces.Replaces (s.put w').workspaces w w' := by
  refine Table.update_replaces ?_ hw ?_ ?_
  · simp [eq_comm]
  · simp [hid]
  · simp [hid]

/-- Writing back the row that was read changes nothing. -/
theorem Registry.put_self {w : Workspace} (hw : w ∈ s.workspaces.rows) : s.put w = s := by
  have hrows : (s.put w).workspaces.rows = s.workspaces.rows := by
    refine (List.map_congr_left fun x hx => ?_).trans (List.map_id _)
    split
    · rename_i hid
      exact Table.eq_of_key hw hx (of_decide_eq_true hid).symm
    · rfl
  cases s with
  | mk workspaces pairingCodes rotationCodes =>
    cases workspaces
    simp_all [Registry.put, Table.update]

/-- The workspace that a call acts on in `s`, and what it does there. -/
def Call.action (crypto : Crypto) (s : Registry) : Call → Option (WorkspaceID × Action)
  | .createWorkspace .. | .issuePairingCode _ | .issueCredentialRotationCode _ => none
  | .registerPending input => do
    let secret ← decodeBase64URL input.pairingCode
    let code ← s.pairingCodes.find (crypto.sha256 secret)
    return (code.workspaceID, .register input.deviceID)
  | .completePendingIdentityProof input => some (input.workspaceID, .prove input.deviceID)
  | .approvePendingMembership input =>
    (resolved s input.workspaceID input.deviceReference).map (input.workspaceID, .approve ·)
  | .renameDevice input =>
    (resolved s input.workspaceID input.deviceReference).map (input.workspaceID, .rename ·)
  | .revokeDevice input =>
    (resolved s input.workspaceID input.deviceReference).map (input.workspaceID, .revoke ·)
  | .rotateWorkspaceAuthority input => some (input.workspaceID, .rotateAuthority)
  | .rotateCredential input => some (input.workspaceID, .rotateCredential input.deviceID)
where
  /-- The device that a reference names. -/
  resolved (s : Registry) (id : WorkspaceID) (reference : Bytes) : Option DeviceID := do
    let w ← s.find id
    (resolveDeviceReference crypto w reference).toOption


def newWorkspace (id : WorkspaceID) (authorityPublicKey : Block 32) (now : Time) : Workspace where
  id := id
  createdAtMs := unixMillis now
  authorityPublicKey := authorityPublicKey
  authorityEpoch := 1
  authorityTransitionDigest := zeroDigest
  devices := .empty
  rosters := .empty
  transitions := .empty

/-- The call takes no action in `s`, or revokes a device that is revoked already. -/
def Call.Idle (crypto : Crypto) (s : Registry) (call : Call) : Prop :=
  ∀ id action, call.action crypto s = some (id, action) →
    ∃ w d, s.find id = some w ∧ d ∈ w.devices.rows ∧ d.revokedAtMs.isSome ∧ action = .revoke d.id

/-- What a committed call does to the workspaces. -/
inductive RegistryStep (crypto : Crypto) (s : Registry) (call : Call) (s' : Registry) : Prop
  | unchanged : s'.workspaces = s.workspaces → call.Idle crypto s → RegistryStep crypto s call s'
  | created (key : Block 32) (now : Time) (id : WorkspaceID) :
      call = .createWorkspace key now id → (∀ w ∈ s.workspaces.rows, w.id ≠ id) →
      s'.workspaces.rows = s.workspaces.rows ++ [newWorkspace id key now] →
      RegistryStep crypto s call s'
  | acted (w w' : Workspace) (action : Action) : call.action crypto s = some (w.id, action) →
      WorkspaceStep crypto w action w' →
      (∀ initial, w.Chained crypto initial → w'.Chained crypto initial) →
      s.workspaces.Replaces s'.workspaces w w' → RegistryStep crypto s call s'

theorem Workspace.Chained.withDevices {w : Workspace} {initial : Block 32}
    (h : w.Chained crypto initial) (devices : Table Device.id) :
    { w with devices }.Chained crypto initial :=
  ⟨h.rosters, h.authority⟩

theorem WorkspaceStep.id_eq {w w' : Workspace} {action : Action}
    (h : WorkspaceStep crypto w action w') : w'.id = w.id := by
  cases h <;> rfl

theorem RegistryStep.put {call : Call} {id : WorkspaceID} {w w' : Workspace} {action : Action}
    (hfind : s.find id = some w) (haction : call.action crypto s = some (id, action))
    (hstep : WorkspaceStep crypto w action w')
    (hchained : ∀ initial, w.Chained crypto initial → w'.Chained crypto initial)
    (hput : s'.workspaces = (s.put w').workspaces) : RegistryStep crypto s call s' := by
  obtain ⟨hw, rfl⟩ := Registry.find_eq_some.mp hfind
  refine .acted w w' action haction hstep hchained ?_
  rw [hput]
  exact Registry.put_replaces hw hstep.id_eq

section Calls

variable (hall : ∀ w ∈ s.workspaces.rows, ∃ initial, w.Chained crypto initial)

theorem createWorkspace_step {key : Block 32} {now : Time} {id : WorkspaceID}
    (h : createWorkspace s key now id = .ok s') :
    RegistryStep crypto s (.createWorkspace key now id) s' := by
  simp only [createWorkspace, bind_eq_ok, exists_unit, reject_eq_ok, require_eq_ok,
    pure_eq_ok] at h
  obtain ⟨-, workspaces, hworkspaces, rfl⟩ := h
  obtain ⟨hfresh, hrows⟩ := Table.insert_eq_some.mp hworkspaces
  exact .created key now id rfl hfresh hrows

theorem issuePairingCode_step {input : IssuePairingCode} {code : Bytes}
    (h : issuePairingCode crypto s input = .ok (s', code)) :
    RegistryStep crypto s (.issuePairingCode input) s' := by
  refine .unchanged ?_ (fun _ _ h => by cases h)
  simp only [issuePairingCode, bind_eq_ok, require_eq_ok] at h
  obtain ⟨deviceType, -, h⟩ := h
  -- the name is checked in only one of the branches
  split at h <;>
    simp only [bind_eq_ok, exists_unit, reject_eq_ok, require_eq_ok, pure_eq_ok,
      Prod.mk.injEq] at h
  · obtain ⟨-, -, -, codes, -, rfl, -⟩ := h
    rfl
  · obtain ⟨-, -, codes, -, rfl, -⟩ := h
    rfl

theorem issueCredentialRotationCode_step {input : IssueRotationCode} {code : Bytes}
    (h : issueCredentialRotationCode crypto s input = .ok (s', code)) :
    RegistryStep crypto s (.issueCredentialRotationCode input) s' := by
  simp only [issueCredentialRotationCode, bind_eq_ok, exists_unit, reject_eq_ok, require_eq_ok,
    pure_eq_ok, Prod.mk.injEq] at h
  obtain ⟨-, w, -, id, -, -, codes, -, rfl, -⟩ := h
  exact .unchanged rfl (fun _ _ h => by cases h)

theorem registerPending_step {input : Registration} {registered : RegisteredDevice}
    (h : registerPending crypto s input = .ok (s', registered)) :
    RegistryStep crypto s (.registerPending input) s' := by
  simp only [registerPending, bind_eq_ok, exists_unit, reject_eq_ok, require_eq_ok, rethrow_eq_ok,
    pure_eq_ok, Prod.mk.injEq] at h
  obtain ⟨deviceType, -, hname, -, hcurve, secret, hsecret, -, code, hcode, -, -, challenge, -, -,
    digest, -, key, hkey, w, hw, -, devices, hdevices, rfl, -⟩ := h
  obtain ⟨hfresh, hrows⟩ := Table.insert_eq_some.mp hdevices
  rw [Bool.not_eq_true, Bool.not_eq_false, ← Block.check_eq_some.mp hkey] at hcurve
  refine .put hw ?_ (.register _ devices ⟨rfl, rfl, rfl, rfl, rfl, rfl, hname, hcurve⟩ hfresh hrows)
    (fun _ h => h.withDevices _) rfl
  simp [Call.action, hsecret, hcode]

theorem completePendingIdentityProof_step {input : PendingIdentityProof}
    (h : completePendingIdentityProof crypto s input = .ok s') :
    RegistryStep crypto s (.completePendingIdentityProof input) s' := by
  simp only [completePendingIdentityProof, bind_eq_ok, exists_unit, reject_eq_ok, require_eq_ok,
    pure_eq_ok, ne_eq, Decidable.not_not] at h
  obtain ⟨-, w, hw, haffected, rfl⟩ := h
  obtain ⟨d, hd, hproven⟩ := Table.exists_of_affected haffected
  have hstate : d.id = input.deviceID ∧ d.membershipState = .pendingProof ∧
      d.revokedAtMs = none := by
    simp only [decide_eq_true_eq] at hproven
    exact ⟨hproven.1, hproven.2.2.1, hproven.2.2.2.1⟩
  refine .put hw (by rw [hstate.1]; rfl) (.prove d input.now _ hstate.2.1 hstate.2.2 ?_)
    (fun _ h => h.withDevices _) rfl
  refine Table.update_replaces _ hd hproven fun x hx => ?_
  simp only [decide_eq_true_eq] at hx
  exact hx.1.trans hstate.1.symm

theorem rotateCredential_step {input : CredentialRotation} {version : Nat}
    (h : rotateCredential crypto s input = .ok (s', version)) :
    RegistryStep crypto s (.rotateCredential input) s' := by
  simp only [rotateCredential, bind_eq_ok, exists_unit, reject_eq_ok, require_eq_ok, pure_eq_ok,
    Prod.mk.injEq, ne_eq, Decidable.not_not] at h
  obtain ⟨-, secret, -, -, code, -, w, hw, device, -, hcode, -, -, haffected, rfl, -⟩ := h
  obtain ⟨d, hd, hchosen⟩ := Table.exists_of_affected haffected
  have hstate : d.id = input.deviceID ∧ d.membershipState = .approved ∧ d.revokedAtMs = none := by
    simp only [decide_eq_true_eq] at hchosen
    exact ⟨hchosen.1, hchosen.2.2.2.2, hchosen.2.2.2.1⟩
  have hworkspace : code.workspaceID = input.workspaceID := by
    simp only [not_or, Decidable.not_not] at hcode
    exact hcode.2.2.2.1
  refine .put hw (by rw [hworkspace, hstate.1]; rfl)
    (.rotateCredential d (crypto.sha256 input.pendingAuthToken) _ hstate.2.1 hstate.2.2 ?_)
    (fun _ h => h.withDevices _) rfl
  refine Table.update_replaces _ hd hchosen fun x hx => ?_
  simp only [decide_eq_true_eq] at hx
  exact hx.1.trans hstate.1.symm

theorem action_resolved {id : WorkspaceID} {w : Workspace} {reference : Bytes}
    {deviceID : DeviceID} (hw : s.find id = some w)
    (h : resolveDeviceReference crypto w reference = .ok deviceID) :
    Call.action.resolved crypto s id reference = some deviceID := by
  simp [Call.action.resolved, hw, h, Except.toOption]

include hall

theorem approvePendingMembership_step {input : ApprovePendingDevice} {change : MembershipChange}
    (h : approvePendingMembership crypto s input = .ok (s', change)) :
    RegistryStep crypto s (.approvePendingMembership input) s' := by
  simp only [approvePendingMembership, bind_eq_ok, exists_unit, reject_eq_ok, require_eq_ok,
    pure_eq_ok, Prod.mk.injEq] at h
  obtain ⟨-, w, hw, deviceID, hresolve, ⟨w', change'⟩, happrove, rfl, -⟩ := h
  obtain ⟨initial, hinitial⟩ := hall w (Registry.find_eq_some.mp hw).1
  refine .put hw ?_ (approveDevice_step hinitial happrove).1
    (fun _ h => (approveDevice_step h happrove).2) rfl
  simp [Call.action, action_resolved hw hresolve]

theorem renameDevice_step {input : RenameDeviceInput} {change : MembershipChange}
    (h : renameDevice crypto s input = .ok (s', change)) :
    RegistryStep crypto s (.renameDevice input) s' := by
  simp only [renameDevice, bind_eq_ok, exists_unit, require_eq_ok, pure_eq_ok,
    Prod.mk.injEq] at h
  obtain ⟨hname, w, hw, deviceID, hresolve, ⟨w', change'⟩, hrename, rfl, -⟩ := h
  obtain ⟨initial, hinitial⟩ := hall w (Registry.find_eq_some.mp hw).1
  refine .put hw ?_ (renameDeviceTo_step hinitial hname hrename).1
    (fun _ h => (renameDeviceTo_step h hname hrename).2) rfl
  simp [Call.action, action_resolved hw hresolve]

theorem revokeDevice_step {input : RevokeDeviceInput} {revoked : RevokedDevice}
    (h : revokeDevice crypto s input = .ok (s', revoked)) :
    RegistryStep crypto s (.revokeDevice input) s' := by
  simp only [revokeDevice, bind_eq_ok, require_eq_ok, pure_eq_ok, Prod.mk.injEq] at h
  obtain ⟨w, hw, deviceID, hresolve, ⟨w', revoked'⟩, hrevoke, rfl, -⟩ := h
  obtain ⟨initial, hinitial⟩ := hall w (Registry.find_eq_some.mp hw).1
  rcases revokeDeviceOf_step hinitial hrevoke with ⟨rfl, d, hd, rfl, hrevoked⟩ | ⟨hstep, -⟩
  · refine .unchanged (by rw [Registry.put_self (Registry.find_eq_some.mp hw).1]) ?_
    intro id action haction
    simp only [Call.action, action_resolved hw hresolve, Option.map_some, Option.some.injEq,
      Prod.mk.injEq] at haction
    obtain ⟨rfl, rfl⟩ := haction
    exact ⟨w', d, hw, hd, hrevoked, rfl⟩
  · refine .put hw ?_ hstep (fun _ h => ?_) rfl
    · simp [Call.action, action_resolved hw hresolve]
    · rcases revokeDeviceOf_step h hrevoke with ⟨rfl, -⟩ | ⟨-, hchained⟩
      · exact h
      · exact hchained

theorem rotateWorkspaceAuthority_step {input : RotateWorkspaceAuthorityInput}
    {rotated : RotatedWorkspaceAuthority}
    (h : rotateWorkspaceAuthority crypto s input = .ok (s', rotated)) :
    RegistryStep crypto s (.rotateWorkspaceAuthority input) s' := by
  simp only [rotateWorkspaceAuthority, bind_eq_ok, exists_unit, reject_eq_ok, require_eq_ok,
    pure_eq_ok, Prod.mk.injEq] at h
  obtain ⟨-, -, w, hw, ⟨w', rotated'⟩, hrotate, rfl, -⟩ := h
  obtain ⟨initial, hinitial⟩ := hall w (Registry.find_eq_some.mp hw).1
  exact .put hw rfl (rotateAuthority_step hinitial hrotate).1
    (fun _ h => (rotateAuthority_step h hrotate).2) rfl

/-- Every committed call takes one of these steps. -/
theorem commit_step {call : Call} (h : commit crypto s call = .ok s') :
    RegistryStep crypto s call s' := by
  cases call with
  | createWorkspace key now id => exact createWorkspace_step h
  | issuePairingCode input =>
    obtain ⟨⟨s', code⟩, hok, rfl⟩ := map_eq_ok.mp h
    exact issuePairingCode_step hok
  | registerPending input =>
    obtain ⟨⟨s', registered⟩, hok, rfl⟩ := map_eq_ok.mp h
    exact registerPending_step hok
  | completePendingIdentityProof input => exact completePendingIdentityProof_step h
  | approvePendingMembership input =>
    obtain ⟨⟨s', change⟩, hok, rfl⟩ := map_eq_ok.mp h
    exact approvePendingMembership_step hall hok
  | renameDevice input =>
    obtain ⟨⟨s', change⟩, hok, rfl⟩ := map_eq_ok.mp h
    exact renameDevice_step hall hok
  | revokeDevice input =>
    obtain ⟨⟨s', revoked⟩, hok, rfl⟩ := map_eq_ok.mp h
    exact revokeDevice_step hall hok
  | rotateWorkspaceAuthority input =>
    obtain ⟨⟨s', rotated⟩, hok, rfl⟩ := map_eq_ok.mp h
    exact rotateWorkspaceAuthority_step hall hok
  | issueCredentialRotationCode input =>
    obtain ⟨⟨s', code⟩, hok, rfl⟩ := map_eq_ok.mp h
    exact issueCredentialRotationCode_step hok
  | rotateCredential input =>
    obtain ⟨⟨s', version⟩, hok, rfl⟩ := map_eq_ok.mp h
    exact rotateCredential_step hok

end Calls


/-! ### Runs -/

theorem newWorkspace_chained (id : WorkspaceID) (key : Block 32) (now : Time) :
    (newWorkspace id key now).Chained crypto key where
  rosters := ⟨.nil, by simp [newWorkspace, Table.empty], by simp [newWorkspace, Table.empty], .nil⟩
  authority :=
    ⟨.nil, by simp [newWorkspace, Table.empty], by simp [newWorkspace, Table.empty], .nil,
      by simp [newWorkspace, Table.empty], rfl, rfl, rfl, (by decide : 1 ≤ maxInt64)⟩

/-- The workspace was created by a call of the history, with the key `initial`. -/
def CreatedWith (history : List (Call × Option RegistryError)) (w : Workspace)
    (initial : Block 32) : Prop :=
  ∃ now, (Call.createWorkspace initial now w.id, none) ∈ history

/-- Every workspace was created, has its chains, and has `P`. -/
def Registry.Keeps (crypto : Crypto) (P : Workspace → Prop) (s : Registry)
    (history : List (Call × Option RegistryError)) : Prop :=
  ∀ w ∈ s.workspaces.rows,
    (∃ initial, CreatedWith history w initial ∧ w.Chained crypto initial) ∧ P w

section Runs

variable {P : Workspace → Prop} (fresh : ∀ id key now, P (newWorkspace id key now))
  (keep : ∀ {w w' : Workspace} {action : Action} {initial : Block 32}, w.Chained crypto initial →
    P w → WorkspaceStep crypto w action w' → w'.Chained crypto initial → P w')

include fresh keep

theorem RegistryStep.keeps {history : List (Call × Option RegistryError)} {call : Call}
    (h : s.Keeps crypto P history) (hstep : RegistryStep crypto s call s') :
    s'.Keeps crypto P (history ++ [(call, none)]) := by
  have mono {w w' : Workspace} {initial : Block 32} (hid : w'.id = w.id)
      (hw : CreatedWith history w initial) :
      CreatedWith (history ++ [(call, none)]) w' initial := by
    obtain ⟨now, hcreated⟩ := hw
    exact ⟨now, List.mem_append_left _ (hid ▸ hcreated)⟩
  have old {w : Workspace} (hw : w ∈ s.workspaces.rows) :
      (∃ initial, CreatedWith (history ++ [(call, none)]) w initial ∧ w.Chained crypto initial) ∧
        P w := by
    obtain ⟨⟨initial, hcreated, hchained⟩, hP⟩ := h w hw
    exact ⟨⟨initial, mono rfl hcreated, hchained⟩, hP⟩
  intro x hx
  cases hstep with
  | unchanged hsame _ =>
    rw [hsame] at hx
    exact old hx
  | created key now id hcall _ hrows =>
    rw [hrows, List.mem_append, List.mem_singleton] at hx
    rcases hx with hx | rfl
    · exact old hx
    · refine ⟨⟨key, ⟨now, ?_⟩, newWorkspace_chained id key now⟩, fresh id key now⟩
      simp [hcall, newWorkspace]
  | acted w w' action _ hstep hchain hreplaces =>
    rcases (hreplaces.rows x).mp hx with rfl | ⟨hx, -⟩
    · obtain ⟨⟨initial, hcreated, hchained⟩, hP⟩ := h w hreplaces.mem
      exact ⟨⟨initial, mono hstep.id_eq hcreated, hchain initial hchained⟩,
        keep hchained hP hstep (hchain initial hchained)⟩
    · exact old hx

/-- The invariant rule of the store: what a fresh workspace has and what every action keeps holds of
every workspace after every run. -/
theorem store_keeps (calls : List Call) :
    ((store crypto).run .empty calls).Keeps crypto P ((store crypto).trace .empty calls) := by
  refine Machine.run_induction _ (fun w hw => absurd hw List.not_mem_nil) ?_ calls
  intro s history call h
  have hall : ∀ w ∈ s.workspaces.rows, ∃ initial, w.Chained crypto initial := fun w hw => by
    obtain ⟨⟨initial, -, hchained⟩, -⟩ := h w hw
    exact ⟨initial, hchained⟩
  simp only [store]
  split
  · rename_i s' hcommit
    exact (commit_step hall hcommit).keeps fresh keep h
  · intro w hw
    obtain ⟨⟨initial, ⟨now, hcreated⟩, hchained⟩, hP⟩ := h w hw
    exact ⟨⟨initial, ⟨now, List.mem_append_left _ hcreated⟩, hchained⟩, hP⟩

end Runs

theorem store_chained (calls : List Call) :
    ∀ w ∈ ((store crypto).run .empty calls).workspaces.rows, ∃ initial,
      CreatedWith ((store crypto).trace .empty calls) w initial ∧ w.Chained crypto initial :=
  fun w hw =>
    (store_keeps (P := fun _ => True) (fun _ _ _ => trivial) (fun _ _ _ _ => trivial) calls w hw).1

theorem store_all_chained (calls : List Call) :
    ∀ w ∈ ((store crypto).run .empty calls).workspaces.rows, ∃ initial, w.Chained crypto initial := by
  intro w hw
  obtain ⟨initial, -, hchained⟩ := store_chained calls w hw
  exact ⟨initial, hchained⟩

theorem store_ok {call : Call} (h : commit crypto s call = .ok s') :
    (store crypto).step s call = (s', none) := by
  simp [store, h]

theorem store_error {call : Call} {e : RegistryError} (h : commit crypto s call = .error e) :
    (store crypto).step s call = (s, some e) := by
  simp [store, h]

theorem run_ok {t : Registry} {calls : List Call} {call : Call}
    (h : commit crypto ((store crypto).run s calls) call = .ok t) :
    (store crypto).run s (calls ++ [call]) = t := by
  rw [Machine.run_concat, store_ok h]

theorem run_error {calls : List Call} {call : Call} {e : RegistryError}
    (h : commit crypto ((store crypto).run s calls) call = .error e) :
    (store crypto).run s (calls ++ [call]) = (store crypto).run s calls := by
  rw [Machine.run_concat, store_error h]

/-- Calls lead to the registry. -/
def Reachable (crypto : Crypto) (s : Registry) : Prop :=
  ∃ calls, s = (store crypto).run .empty calls

theorem Reachable.chained (h : Reachable crypto s) :
    ∀ w ∈ s.workspaces.rows, ∃ initial, w.Chained crypto initial := by
  obtain ⟨calls, rfl⟩ := h
  exact store_all_chained calls

theorem Reachable.step (h : Reachable crypto s) (call : Call) :
    Reachable crypto ((store crypto).step s call).1 := by
  obtain ⟨calls, rfl⟩ := h
  exact ⟨calls ++ [call], (Machine.run_concat _ _ _ _).symm⟩

theorem Reachable.commits (hs : Reachable crypto s) (call : Call)
    (h : commit crypto s call = .ok s') : Reachable crypto s' := by
  have hstep := hs.step call
  simpa only [store, h] using hstep

theorem Reachable.run (h : Reachable crypto s) (calls : List Call) :
    Reachable crypto ((store crypto).run s calls) := by
  induction calls generalizing s with
  | nil => exact h
  | cons call calls ih => exact ih (h.step call)

/-- What every committed call keeps of a reachable registry holds after every run from there. -/
theorem Reachable.run_keeps {I : Registry → Prop} (h : Reachable crypto s) (start : I s)
    (keep : ∀ {t t' call}, Reachable crypto t → I t → RegistryStep crypto t call t' → I t')
    (calls : List Call) : I ((store crypto).run s calls) := by
  induction calls generalizing s with
  | nil => exact start
  | cons call calls ih =>
    refine ih (h.step call) ?_
    simp only [store]
    split
    · rename_i s' hcommit
      exact keep h start (commit_step h.chained hcommit)
    · exact start

/-- What holds of the empty registry and what every committed call keeps holds of every reachable
registry. -/
theorem Reachable.invariant {I : Registry → Prop} (h : Reachable crypto s) (start : I .empty)
    (keep : ∀ {t t' call}, Reachable crypto t → I t → commit crypto t call = .ok t' → I t') :
    I s := by
  obtain ⟨calls, rfl⟩ := h
  induction calls using List.reverseRecOn with
  | nil => exact start
  | append_singleton calls call ih =>
    rw [Machine.run_concat]
    simp only [store]
    split
    · rename_i s' hcommit
      exact keep ⟨calls, rfl⟩ ih hcommit
    · exact ih

/-- In every registry that calls lead to, the rosters and the authority transitions of every
workspace are two chains, from the key that the workspace was created with. -/
theorem chains_well_formed (crypto : Crypto) (calls : List Call) (w : Workspace)
    (hw : w ∈ ((store crypto).run .empty calls).workspaces.rows) :
    ∃ initial, CreatedWith ((store crypto).trace .empty calls) w initial ∧
      w.Chained crypto initial :=
  store_chained calls w hw

/-! ### A sample run -/

/-- Zeros, and `n` at the end. -/
def numbered (zeros : Nat) (n : UInt8) : Block (zeros + 1) :=
  ⟨List.replicate zeros 0 ++ [n], by simp⟩

/-- The last bytes, the length, and the sum stand for the digest. -/
def sampleCrypto : Crypto where
  sha256 b := ⟨(List.replicate 12 0 ++ b).drop b.length ++
    [UInt8.ofNat b.length, UInt8.ofNat (b.length / 256), 1, b.foldl (· + ·) 0] ++
    List.replicate 16 0, by simp; omega⟩
  sign _ _ := ⟨List.replicate 64 0, rfl⟩
  verify _ _ _ := true
  onCurve _ := true

def sampleInstant : Time := ⟨1800000000000000000⟩

/-- A minute. -/
def sampleLifetime : Int := 60000000000

def sampleWorkspace : WorkspaceID := numbered 15 1

def samplePrivateKey (k : UInt8) : Bytes := List.replicate 32 0 ++ List.replicate 32 k

def sampleCreation : Call :=
  .createWorkspace ⟨List.replicate 32 1, rfl⟩ sampleInstant sampleWorkspace

def sampleReference (n : UInt8) : Bytes :=
  deviceReference sampleCrypto sampleWorkspace (numbered 15 n)

def sampleApproval (n : UInt8) : ApprovePendingDevice where
  workspaceID := sampleWorkspace
  deviceReference := sampleReference n
  roles := [deviceRoleSendNotifications]
  authorityPrivateKey := samplePrivateKey 1
  now := sampleInstant

def sampleRegistration (n : UInt8) : Registration where
  pairingCode := encodeBase64URL (numbered 23 n).bytes
  deviceType := some .android
  deviceName := [65]
  e2eePublicKey := 4 :: List.replicate 64 0
  now := sampleInstant
  createChallenge _ _ := some
    ⟨(numbered 31 n).bytes, (numbered 31 n).bytes, ⟨sampleInstant.nanos + sampleLifetime⟩⟩
  deviceID := numbered 15 n
  authToken := numbered 31 n

/-- The calls that make device `n` a member. -/
def enroll (n : UInt8) : List Call :=
  [.issuePairingCode
    ⟨sampleWorkspace, some .android, [], sampleInstant, sampleLifetime, numbered 23 n⟩,
   .registerPending (sampleRegistration n),
   .completePendingIdentityProof
    ⟨sampleWorkspace, numbered 15 n, (numbered 31 n).bytes, (numbered 31 n).bytes,
      (numbered 31 n).bytes, sampleInstant⟩,
   .approvePendingMembership (sampleApproval n)]

def sampleRotation : RotateWorkspaceAuthorityInput where
  workspaceID := sampleWorkspace
  previousAuthorityPrivateKey := samplePrivateKey 1
  newAuthorityPrivateKey := samplePrivateKey 2
  now := sampleInstant

/-- A device joins, and the authority passes to another key. -/
def sampleCalls : List Call :=
  sampleCreation :: enroll 1 ++ [.rotateWorkspaceAuthority sampleRotation]

theorem sampleCalls_find :
    (((store sampleCrypto).run .empty sampleCalls).find sampleWorkspace).map (fun w =>
      (w.devices.rows.length, w.rosters.rows.length, w.transitions.rows.length)) =
      some (1, 2, 1) := by
  decide +kernel

theorem sampleCalls_workspace :
    ∃ w ∈ ((store sampleCrypto).run .empty sampleCalls).workspaces.rows,
    w.devices.rows.length = 1 ∧ w.rosters.rows.length = 2 ∧ w.transitions.rows.length = 1 := by
  obtain ⟨w, hfind, hlengths⟩ := Option.map_eq_some_iff.mp sampleCalls_find
  simp only [Prod.mk.injEq] at hlengths
  exact ⟨w, (Registry.find_eq_some.mp hfind).1, hlengths⟩

theorem chains_well_formed_rotation :
    ∃ w ∈ ((store sampleCrypto).run .empty sampleCalls).workspaces.rows,
    w.rosters.rows.length = 2 ∧ w.transitions.rows.length = 1 ∧
    ∃ initial, CreatedWith ((store sampleCrypto).trace .empty sampleCalls) w initial ∧
      w.Chained sampleCrypto initial := by
  obtain ⟨w, hw, -, hrosters, htransitions⟩ := sampleCalls_workspace
  exact ⟨w, hw, hrosters, htransitions, chains_well_formed sampleCrypto sampleCalls w hw⟩

end SevenMirror.Admission
