import SevenMirror.Admission.Retries

/-! How a device became what it is.  A row forgets the challenge, its secret, and its expiry as the
device advances, so that what a member once showed can only be read off the calls that led to the
row: the registration that consumed a pairing code, the proof before the expiry of the challenge, and
the approval, with one token and one version of it in between. -/

namespace SevenMirror.Admission

open Lib MembershipCodec

/-- The moves of the membership of a device. -/
def MembershipState.advances : MembershipState → MembershipState → Bool
  | .pendingProof, .pendingApproval => true
  | .pendingApproval, .approved => true
  | .approved, .revoked => true
  | .pendingProof, .revoked => true
  | .pendingApproval, .revoked => true
  | _, _ => false

theorem Device.Moves.advances {d d' : Device} {action : Action} (h : d.Moves action d') :
    d'.membershipState = d.membershipState ∨
      d.membershipState.advances d'.membershipState = true := by
  cases h with
  | other => exact Or.inl rfl
  | prove now hstate =>
    rw [hstate]
    exact Or.inr rfl
  | rotateCredential => exact Or.inl rfl
  | approve id encoded now hstate =>
    rw [hstate]
    exact Or.inr rfl
  | rename => exact Or.inl rfl
  | revokePending now hstate =>
    cases hd : d.membershipState with
    | approved => exact absurd hd hstate
    | revoked => exact Or.inl rfl
    | pendingProof => exact Or.inr rfl
    | pendingApproval => exact Or.inr rfl
  | revoke epoch now hmember =>
    rw [hmember.1]
    exact Or.inr rfl
  | reissue _ hsame => exact Or.inl (congrArg (·.membershipState) hsame)

theorem Device.Moves.deviceType_eq {d d' : Device} {action : Action} (h : d.Moves action d') :
    d'.deviceType = d.deviceType := by
  cases h with
  | reissue _ hsame => exact congrArg (·.deviceType) hsame
  | _ => rfl

/-! ### What a proof takes -/

section Proofs

variable {crypto : Crypto} {s s' : Registry}

/-- What a proof finds in the row of the device. -/
structure ProofTakes (crypto : Crypto) (input : PendingIdentityProof) (d : Device) : Prop where
  authToken : input.authToken.length = authTokenBytes ∧
    d.authTokenHash = crypto.sha256 input.authToken
  secret : input.challengeSecret.length = 32 ∧
    d.proofSecretHash = some (crypto.sha256 input.challengeSecret)
  digest : d.proofChallengeDigest.map (·.bytes) = some input.challengeDigest
  unexpired : ∃ expiresAt, d.proofExpiresAtMs = some expiresAt ∧ unixMillis input.now < expiresAt

theorem completePendingIdentityProof_takes {input : PendingIdentityProof}
    (h : completePendingIdentityProof crypto s input = .ok s') :
    ∃ d, s.device input.workspaceID input.deviceID = some d ∧ ProofTakes crypto input d := by
  simp only [completePendingIdentityProof, bind_eq_ok, exists_unit, reject_eq_ok, require_eq_ok,
    pure_eq_ok, ne_eq, Decidable.not_not] at h
  obtain ⟨harguments, w, hw, haffected, -⟩ := h
  simp only [not_or, Decidable.not_not] at harguments
  obtain ⟨d, hd, hproven⟩ := Table.exists_of_affected haffected
  obtain ⟨hid, htoken, -, -, hexpires, hdigest, hsecret⟩ := of_decide_eq_true hproven
  refine ⟨d, Registry.device_eq_some.mpr ⟨w, hw, Table.find_eq_some.mpr ⟨hd, hid⟩⟩, ?_⟩
  refine ⟨⟨harguments.1, htoken⟩, ⟨harguments.2.2, hsecret⟩, hdigest, ?_⟩
  obtain ⟨expiresAt, hsome, hlater⟩ := (Option.any_eq_true _ _).mp hexpires
  exact ⟨expiresAt, hsome, of_decide_eq_true hlater⟩

end Proofs

/-! ### The calls behind a row -/

/-- The registration `j` made the row of the device, among the calls. -/
structure Joining.Registers (crypto : Crypto) (calls before since : List Call) (id : WorkspaceID)
    (deviceID : DeviceID) (j : Joining) : Prop where
  calls : calls = before ++ .registerPending j.input :: since
  takes : j.Takes crypto ((store crypto).run .empty before)
  workspace_eq : j.code.workspaceID = id
  device_eq : j.input.deviceID = deviceID
  absent : ((store crypto).run .empty before).device id deviceID = none
  registered : ((store crypto).run .empty (before ++ [.registerPending j.input])).device id deviceID =
    some (j.row crypto)
  consumed : j.code.consumed (unixMillis j.input.now) ∈
    ((store crypto).run .empty (before ++ [.registerPending j.input])).pairingCodes.rows

/-- The device has the token that the registration issued, in its first version. -/
def Joining.Keeps (crypto : Crypto) (j : Joining) (s : Registry) : Prop :=
  ∃ d, s.device j.code.workspaceID j.input.deviceID = some d ∧
    d.authTokenHash = crypto.sha256 j.input.authToken.bytes ∧ d.credentialVersion = 1

/-- A committed proof presents the token, the digest, and the secret of the registration, before the
challenge expires. -/
structure Joining.Proves (crypto : Crypto) (s : Registry) (proof : PendingIdentityProof)
    (j : Joining) : Prop where
  commits : (commit crypto s (.completePendingIdentityProof proof)).isOk
  workspaceID : proof.workspaceID = j.code.workspaceID
  deviceID : proof.deviceID = j.input.deviceID
  authToken : proof.authToken = j.input.authToken.bytes
  digest : proof.challengeDigest = j.challenge.digest
  secret : proof.challengeSecret = j.challenge.secret
  unexpired : unixMillis proof.now < unixMillis j.challenge.expiresAt

/-- What the calls since the registration say about the row `d` that they lead to. -/
inductive Joining.Stage (crypto : Crypto) (s : Registry) (since : List Call) (d : Device)
    (j : Joining) : Prop
  | pendingProof : d.membershipState = .pendingProof → d.proofChallengeDigest = some j.digest →
      d.proofSecretHash = some (crypto.sha256 j.challenge.secret) →
      d.proofExpiresAtMs = some (unixMillis j.challenge.expiresAt) →
      (store crypto).Always (j.Keeps crypto) s since → Stage crypto s since d j
  | pendingApproval (middle rest : List Call) (proof : PendingIdentityProof) :
      d.membershipState = .pendingApproval →
      since = middle ++ .completePendingIdentityProof proof :: rest →
      j.Proves crypto ((store crypto).run s middle) proof →
      (store crypto).Always (j.Keeps crypto) s since → Stage crypto s since d j
  | approved (middle rest later : List Call) (proof : PendingIdentityProof)
      (approval : ApprovePendingDevice) : d.membershipState = .approved →
      since = middle ++ .completePendingIdentityProof proof :: rest ++
        .approvePendingMembership approval :: later →
      j.Proves crypto ((store crypto).run s middle) proof →
      (Call.approvePendingMembership approval).commits crypto
        ((store crypto).run s (middle ++ .completePendingIdentityProof proof :: rest))
        j.code.workspaceID (.approve j.input.deviceID) = true →
      (store crypto).Always (j.Keeps crypto) s
        (middle ++ .completePendingIdentityProof proof :: rest ++
          [.approvePendingMembership approval]) → Stage crypto s since d j
  | revoked : d.membershipState = .revoked → Stage crypto s since d j

section Stages

variable {crypto : Crypto} {s : Registry} {since : List Call} {d d' : Device} {j : Joining}
  {call : Call}

/-- A pending device has the token of its registration. -/
theorem Joining.Keeps.row {t : Registry} (h : j.Keeps crypto t)
    (hd : t.device j.code.workspaceID j.input.deviceID = some d) :
    d.authTokenHash = crypto.sha256 j.input.authToken.bytes ∧ d.credentialVersion = 1 := by
  obtain ⟨x, hx, hkept⟩ := h
  rw [hd] at hx
  cases hx
  exact hkept

theorem Joining.always_concat (h : (store crypto).Always (j.Keeps crypto) s since)
    (hd : ((store crypto).run s since).device j.code.workspaceID j.input.deviceID = some d)
    (hd' : ((store crypto).run s (since ++ [call])).device j.code.workspaceID j.input.deviceID =
      some d')
    (htoken : d'.authTokenHash = d.authTokenHash)
    (hversion : d'.credentialVersion = d.credentialVersion) :
    (store crypto).Always (j.Keeps crypto) s (since ++ [call]) := by
  obtain ⟨hhash, hone⟩ := Joining.Keeps.row ((store crypto).always_last h) hd
  exact (store crypto).always_concat.mpr
    ⟨h, d', hd', htoken.trans hhash, hversion.trans hone⟩

/-- A call that leaves the columns of a pending device, and a member a member. -/
theorem Joining.Stage.stays (h : j.Stage crypto s since d)
    (hd : ((store crypto).run s since).device j.code.workspaceID j.input.deviceID = some d)
    (hd' : ((store crypto).run s (since ++ [call])).device j.code.workspaceID j.input.deviceID =
      some d')
    (hstate : d'.membershipState = d.membershipState)
    (hsame : d.membershipState ≠ .approved → d'.withoutCertificate = d.withoutCertificate) :
    j.Stage crypto s (since ++ [call]) d' := by
  cases h with
  | pendingProof hpending hdigest hsecret hexpires hkeeps =>
    have hcolumns := hsame (by rw [hpending]; decide)
    refine .pendingProof (hstate.trans hpending) ?_ ?_ ?_ ?_
    · exact (congrArg (·.proofChallengeDigest) hcolumns).trans hdigest
    · exact (congrArg (·.proofSecretHash) hcolumns).trans hsecret
    · exact (congrArg (·.proofExpiresAtMs) hcolumns).trans hexpires
    · exact Joining.always_concat hkeeps hd hd' (congrArg (·.authTokenHash) hcolumns)
        (congrArg (·.credentialVersion) hcolumns)
  | pendingApproval middle rest proof hpending hsince hproves hkeeps =>
    have hcolumns := hsame (by rw [hpending]; decide)
    refine .pendingApproval middle (rest ++ [call]) proof (hstate.trans hpending) ?_ hproves ?_
    · rw [hsince, List.append_assoc]
      rfl
    · exact Joining.always_concat hkeeps hd hd' (congrArg (·.authTokenHash) hcolumns)
        (congrArg (·.credentialVersion) hcolumns)
  | approved middle rest later proof approval happroved hsince hproves hcommits hkeeps =>
    refine .approved middle rest (later ++ [call]) proof approval (hstate.trans happroved) ?_ hproves
      hcommits hkeeps
    rw [hsince, List.append_assoc]
    rfl
  | revoked hrevoked => exact .revoked (hstate.trans hrevoked)

/-- The proof that a pending device shows is of the registration. -/
theorem Joining.Stage.proves (hdistinct : TokensDistinct crypto) (h : j.Stage crypto s since d)
    (hstate : d.membershipState = .pendingProof) (hjoined : j.challenge.secret.length = 32)
    (hdigest : j.digest.bytes = j.challenge.digest)
    (hd : ((store crypto).run s since).device j.code.workspaceID j.input.deviceID = some d)
    {proof : PendingIdentityProof} {t : Registry}
    (hcommit : commit crypto ((store crypto).run s since) (.completePendingIdentityProof proof) =
      .ok t)
    (hid : proof.workspaceID = j.code.workspaceID) (hdevice : proof.deviceID = j.input.deviceID) :
    j.Proves crypto ((store crypto).run s since) proof ∧
      (store crypto).Always (j.Keeps crypto) s since := by
  obtain ⟨x, hx, htakes⟩ := completePendingIdentityProof_takes hcommit
  rw [hid, hdevice, hd] at hx
  cases hx
  cases h with
  | pendingProof _ hdigest' hsecret hexpires hkeeps =>
    obtain ⟨hhash, -⟩ := Joining.Keeps.row ((store crypto).always_last hkeeps) hd
    obtain ⟨expiresAt, hexpires', hnow⟩ := htakes.unexpired
    refine ⟨⟨by rw [hcommit]; rfl, hid, hdevice, ?_, ?_, ?_, ?_⟩, hkeeps⟩
    · exact hdistinct _ _ htakes.authToken.1 j.input.authToken.size
        (htakes.authToken.2.symm.trans hhash)
    · have hshown := htakes.digest
      rw [hdigest'] at hshown
      exact (Option.some.inj hshown).symm.trans hdigest
    · have hshown := htakes.secret.2
      rw [hsecret] at hshown
      exact hdistinct _ _ htakes.secret.1 hjoined (Option.some.inj hshown).symm
    · rw [hexpires] at hexpires'
      cases hexpires'
      exact hnow
  | pendingApproval _ _ _ hother => rw [hstate] at hother; cases hother
  | approved _ _ _ _ _ hother => rw [hstate] at hother; cases hother
  | revoked hother => rw [hstate] at hother; cases hother

theorem action_prove {t : Registry} {id : WorkspaceID} {deviceID : DeviceID}
    (h : call.action crypto t = some (id, .prove deviceID)) :
    ∃ proof, call = .completePendingIdentityProof proof ∧ proof.workspaceID = id ∧
      proof.deviceID = deviceID := by
  cases call with
  | completePendingIdentityProof proof =>
    simp only [Call.action, Option.some.injEq, Prod.mk.injEq, Action.prove.injEq] at h
    exact ⟨proof, rfl, h⟩
  | _ => simp [Call.action, Option.bind_eq_some_iff] at h

theorem action_approve {t : Registry} {id : WorkspaceID} {deviceID : DeviceID}
    (h : call.action crypto t = some (id, .approve deviceID)) :
    ∃ approval, call = .approvePendingMembership approval := by
  cases call with
  | approvePendingMembership approval => exact ⟨approval, rfl⟩
  | _ => simp [Call.action, Option.bind_eq_some_iff] at h

/-- A device goes from stage to stage. -/
theorem Joining.Stage.moves (hdistinct : TokensDistinct crypto) (h : j.Stage crypto s since d)
    (hjoined : j.challenge.secret.length = 32) (hdigest : j.digest.bytes = j.challenge.digest)
    (hd : ((store crypto).run s since).device j.code.workspaceID j.input.deviceID = some d)
    (hd' : ((store crypto).run s (since ++ [call])).device j.code.workspaceID j.input.deviceID =
      some d') {t : Registry} (hcommit : commit crypto ((store crypto).run s since) call = .ok t)
    {action : Action}
    (haction : call.action crypto ((store crypto).run s since) =
      some (j.code.workspaceID, action)) (hmoves : d.Moves action d') :
    j.Stage crypto s (since ++ [call]) d' := by
  have hid := Registry.device_id hd
  cases hmoves with
  | other => exact h.stays hd hd' rfl fun _ => rfl
  | prove now hstate _ =>
    rw [hid] at haction
    obtain ⟨proof, rfl, hworkspace, hdevice⟩ := action_prove haction
    obtain ⟨hproves, hkeeps⟩ :=
      h.proves hdistinct hstate hjoined hdigest hd hcommit hworkspace hdevice
    exact .pendingApproval since [] proof rfl rfl hproves
      (Joining.always_concat hkeeps hd hd' rfl rfl)
  | rotateCredential hash hstate _ =>
    exact h.stays hd hd' rfl fun hother => absurd hstate hother
  | approve id encoded now hstate _ =>
    rw [hid] at haction
    obtain ⟨approval, rfl⟩ := action_approve haction
    cases h with
    | pendingApproval middle rest proof _ hsince hproves hkeeps =>
      subst hsince
      refine .approved middle rest [] proof approval rfl rfl hproves ?_
        (Joining.always_concat hkeeps hd hd' rfl rfl)
      rw [Call.commits_of_ok hcommit]
      exact decide_eq_true haction
    | pendingProof hother => rw [hstate] at hother; cases hother
    | approved _ _ _ _ _ hother => rw [hstate] at hother; cases hother
    | revoked hother => rw [hstate] at hother; cases hother
  | rename name id encoded hmember =>
    exact h.stays hd hd' rfl fun hother => absurd hmember.1 hother
  | revokePending => exact .revoked rfl
  | revoke => exact .revoked rfl
  | reissue _ hsame =>
    exact h.stays hd hd' (congrArg (·.membershipState) hsame) fun _ => hsame

end Stages

/-! ### Runs -/

section Runs

variable {crypto : Crypto}

/-- Every call keeps the row of a device, or moves it by the action that it commits. -/
theorem Reachable.step_moves {s : Registry} (hs : Reachable crypto s) {id : WorkspaceID}
    {deviceID : DeviceID} {d : Device} (hd : s.device id deviceID = some d) (call : Call) :
    ∃ d', ((store crypto).step s call).1.device id deviceID = some d' ∧
      (d' = d ∨ ∃ s' action, commit crypto s call = .ok s' ∧
        call.action crypto s = some (id, action) ∧ d.Moves action d') := by
  cases hcommit : commit crypto s call with
  | error e =>
    rw [store_error hcommit]
    exact ⟨d, hd, Or.inl rfl⟩
  | ok s' =>
    rw [store_ok hcommit]
    obtain ⟨d', hd', ⟨hsame, -⟩ | ⟨action, haction, hmoves⟩⟩ :=
      (commit_step hs.chained hcommit).moves hd
    · exact ⟨d', hd', Or.inl hsame⟩
    · exact ⟨d', hd', Or.inr ⟨s', action, rfl, haction, hmoves⟩⟩

/-- A row that a call makes is made by a registration. -/
theorem Reachable.step_registers {calls : List Call} {call : Call} {id : WorkspaceID}
    {deviceID : DeviceID} {d : Device}
    (hnone : ((store crypto).run .empty calls).device id deviceID = none)
    (hd : ((store crypto).run .empty (calls ++ [call])).device id deviceID = some d) :
    ∃ j : Joining, j.Registers crypto (calls ++ [call]) calls [] id deviceID ∧ d = j.row crypto := by
  have hs : Reachable crypto ((store crypto).run .empty calls) := ⟨calls, rfl⟩
  have hd' := hd
  cases hcommit : commit crypto ((store crypto).run .empty calls) call with
  | error e =>
    rw [run_error hcommit, hnone] at hd'
    cases hd'
  | ok s' =>
    have hrun := run_ok hcommit
    rw [hrun] at hd'
    have haction := (commit_step hs.chained hcommit).device_back hnone hd'
    cases call with
    | registerPending input =>
      obtain ⟨⟨s', registered⟩, hok, rfl⟩ := map_eq_ok.mp hcommit
      obtain ⟨j, w, devices, rfl, htakes, hwrites, -⟩ := registerPending_takes hok
      have hfind := Table.find_eq_some.mpr ⟨htakes.code, htakes.hash⟩
      simp only [Call.action, htakes.decodes, hfind, Option.bind_eq_bind, Option.bind_some,
        Option.pure_def, Option.some.injEq, Prod.mk.injEq, Action.register.injEq] at haction
      obtain ⟨rfl, rfl⟩ := haction
      have hrow : d = j.row crypto := Option.some.inj (hd'.symm.trans hwrites.device)
      refine ⟨j, ⟨rfl, htakes, rfl, rfl, hnone, hrow ▸ hd, ?_⟩, hrow⟩
      rw [hrun]
      exact (hwrites.consumed.rows _).mpr (Or.inl rfl)
    | _ => simp [Call.action] at haction

theorem run_registers {calls before since : List Call} {j : Joining} {id : WorkspaceID}
    {deviceID : DeviceID} (h : j.Registers crypto calls before since id deviceID) :
    (store crypto).run ((store crypto).run .empty (before ++ [.registerPending j.input])) since =
      (store crypto).run .empty calls := by
  rw [← Machine.run_append, h.calls, List.append_assoc]
  rfl

/-- Behind every row there are a registration and what its stage asks for. -/
theorem run_evidence (hdistinct : TokensDistinct crypto) {id : WorkspaceID} {deviceID : DeviceID}
    (calls : List Call) : ∀ d, ((store crypto).run .empty calls).device id deviceID = some d →
      ∃ (j : Joining) (before since : List Call), j.Registers crypto calls before since id deviceID ∧
        d.deviceType = j.code.deviceType ∧
        j.Stage crypto ((store crypto).run .empty (before ++ [.registerPending j.input])) since d := by
  induction calls using List.reverseRecOn with
  | nil => intro d hd; cases hd
  | append_singleton calls call ih =>
    intro d' hd'
    cases hd : ((store crypto).run .empty calls).device id deviceID with
    | none =>
      obtain ⟨j, hregisters, rfl⟩ := Reachable.step_registers hd hd'
      refine ⟨j, calls, [], hregisters, rfl, .pendingProof rfl rfl rfl rfl ?_⟩
      refine ⟨j.row crypto, ?_, rfl, rfl⟩
      rw [hregisters.workspace_eq, hregisters.device_eq]
      exact hregisters.registered
    | some d =>
      obtain ⟨j, before, since, hregisters, htype, hstage⟩ := ih d hd
      have hs : Reachable crypto ((store crypto).run .empty calls) := ⟨calls, rfl⟩
      have hlater : j.Registers crypto (calls ++ [call]) before (since ++ [call]) id deviceID := by
        refine ⟨?_, hregisters.takes, hregisters.workspace_eq, hregisters.device_eq,
          hregisters.absent, hregisters.registered, hregisters.consumed⟩
        rw [hregisters.calls, List.append_assoc]
        rfl
      obtain ⟨x, hx, hmove⟩ := hs.step_moves hd call
      obtain rfl : x = d' := by
        rw [Machine.run_concat, hx] at hd'
        exact Option.some.inj hd'
      rw [← run_registers hregisters, ← hregisters.workspace_eq, ← hregisters.device_eq] at hd
      rw [← run_registers hlater, ← hregisters.workspace_eq, ← hregisters.device_eq] at hd'
      rcases hmove with rfl | ⟨s', action, hcommit, haction, hmoves⟩
      · exact ⟨j, before, since ++ [call], hlater, htype, hstage.stays hd hd' rfl fun _ => rfl⟩
      · rw [← run_registers hregisters] at hcommit haction
        rw [← hregisters.workspace_eq] at haction
        exact ⟨j, before, since ++ [call], hlater, hmoves.deviceType_eq.trans htype,
          hstage.moves hdistinct hregisters.takes.valid.secret.1 hregisters.takes.digest hd hd'
            hcommit haction hmoves⟩

end Runs

/-- Membership is earned step by step.  A call leaves the state of a device or advances it.  Behind
every row there is a registration that consumed a pairing code of its workspace and type.  A member
showed the token, the digest, and the secret of its registration before the challenge expired, at most
ten minutes after the registration, was then approved, and had one token and one version from the
registration to the approval. -/
theorem membership_is_earned (crypto : Crypto) (hdistinct : TokensDistinct crypto)
    (calls : List Call) (id : WorkspaceID) (deviceID : DeviceID) (d : Device)
    (hd : ((store crypto).run .empty calls).device id deviceID = some d) :
    (∀ call, ∃ d', ((store crypto).run .empty (calls ++ [call])).device id deviceID = some d' ∧
      (d'.membershipState = d.membershipState ∨
        d.membershipState.advances d'.membershipState = true)) ∧
    ∃ (j : Joining) (before since : List Call), j.Registers crypto calls before since id deviceID ∧
      d.deviceType = j.code.deviceType ∧
      (d.membershipState = .approved →
        j.challenge.expiresAt.nanos - j.input.now.nanos ≤ 10 * 60 * 1000000000 ∧
        ∃ (middle rest later : List Call) (proof : PendingIdentityProof)
          (approval : ApprovePendingDevice),
          since = middle ++ .completePendingIdentityProof proof :: rest ++
            .approvePendingMembership approval :: later ∧
          j.Proves crypto ((store crypto).run .empty
            (before ++ [.registerPending j.input] ++ middle)) proof ∧
          (Call.approvePendingMembership approval).commits crypto
            ((store crypto).run .empty (before ++ [.registerPending j.input] ++
              (middle ++ .completePendingIdentityProof proof :: rest))) id (.approve deviceID) =
            true ∧
          (store crypto).Always (j.Keeps crypto)
            ((store crypto).run .empty (before ++ [.registerPending j.input]))
            (middle ++ .completePendingIdentityProof proof :: rest ++
              [.approvePendingMembership approval])) := by
  refine ⟨fun call => ?_, ?_⟩
  · have hs : Reachable crypto ((store crypto).run .empty calls) := ⟨calls, rfl⟩
    obtain ⟨d', hd', hmove⟩ := hs.step_moves hd call
    rw [Machine.run_concat]
    refine ⟨d', hd', ?_⟩
    rcases hmove with rfl | ⟨s', action, -, -, hmoves⟩
    · exact Or.inl rfl
    · exact hmoves.advances
  · obtain ⟨j, before, since, hregisters, htype, hstage⟩ := run_evidence hdistinct calls d hd
    refine ⟨j, before, since, hregisters, htype, fun happroved => ?_⟩
    cases hstage with
    | approved middle rest later proof approval _ hsince hproves hcommits hkeeps =>
      rw [hregisters.workspace_eq, hregisters.device_eq, ← Machine.run_append] at hcommits
      rw [← Machine.run_append] at hproves
      exact ⟨hregisters.takes.valid.expires.2, middle, rest, later, proof, approval, hsince, hproves,
        hcommits, hkeeps⟩
    | pendingProof hother => rw [happroved] at hother; cases hother
    | pendingApproval _ _ _ hother => rw [happroved] at hother; cases hother
    | revoked hother => rw [happroved] at hother; cases hother

theorem membership_is_earned_enrolled : ∃ d,
    ((store exactCrypto).run .empty (sampleCreation :: enroll 1)).device sampleWorkspace
      (numbered 15 1) = some d ∧ d.membershipState = .approved ∧
    ∃ (j : Joining) (before since : List Call), j.Registers exactCrypto
        (sampleCreation :: enroll 1) before since sampleWorkspace (numbered 15 1) ∧
      ∃ middle proof, j.Proves exactCrypto ((store exactCrypto).run .empty
        (before ++ [.registerPending j.input] ++ middle)) proof := by
  have hstate : (((store exactCrypto).run .empty (sampleCreation :: enroll 1)).device
      sampleWorkspace (numbered 15 1)).map (·.membershipState) = some .approved := by
    decide +kernel
  obtain ⟨d, hd, happroved⟩ := Option.map_eq_some_iff.mp hstate
  obtain ⟨j, before, since, hregisters, -, hproof⟩ :=
    (membership_is_earned exactCrypto exactCrypto_distinct _ _ _ d hd).2
  obtain ⟨-, middle, rest, later, proof, approval, -, hproves, -⟩ := hproof happroved
  exact ⟨d, hd, happroved, j, before, since, hregisters, middle, proof, hproves⟩

end SevenMirror.Admission
