import SevenMirror.Admission.AuthorityKeys
import SevenMirror.Admission.Codes
import SevenMirror.HttpApi.Handlers

/-! What the requests of the network do to the registry.  They register devices, complete proofs, and
rotate credentials; whatever is sent, in whatever order, no device becomes a member or stops being
one, and the authority, the rosters, and the certificates stay. -/

namespace SevenMirror.HttpApi

open Lib MembershipCodec Admission RateLimit

section Calls

variable {crypto : Crypto} {hpke : Hpke} {s s' : Registry} {now : Time}

/-- The calls that the handlers make. -/
inductive Networked : Call → Prop
  | register (input : Registration) : Networked (.registerPending input)
  | prove (input : Admission.PendingIdentityProof) : Networked (.completePendingIdentityProof input)
  | rotate (input : CredentialRotation) : Networked (.rotateCredential input)

/-- The registry is left, or one of these calls is committed. -/
def Commits (crypto : Crypto) (s s' : Registry) : Prop :=
  s' = s ∨ ∃ call, Networked call ∧ commit crypto s call = .ok s'

theorem register_commits {request : RegistrationRequest} {random : RegistrationRandom}
    {registered : Registered}
    (h : register crypto hpke s request now random = .ok (s', registered)) : Commits crypto s s' := by
  simp only [register, bind_eq_ok, require_eq_ok, rethrow_eq_ok, pure_eq_ok, Prod.mk.injEq] at h
  obtain ⟨_, -, ⟨s₁, device⟩, hregister, _, -, rfl, -⟩ := h
  exact Or.inr ⟨.registerPending _, .register _, map_eq_ok.mpr ⟨_, hregister, rfl⟩⟩

theorem prove_commits {request : MembershipProofRequest} {answer : Answer StateAnswer}
    (h : prove crypto s request now = .ok (s', answer)) : Commits crypto s s' := by
  simp only [prove, bind_eq_ok, exists_unit, require_eq_ok, reject_eq_ok, rethrow_eq_ok, pure_eq_ok,
    Prod.mk.injEq] at h
  obtain ⟨_, -, _, -, _, -, _, -, -, _, -, -, s₁, hprove, rfl, -⟩ := h
  exact Or.inr ⟨.completePendingIdentityProof _, .prove _, hprove⟩

theorem rotate_commits {request : CredentialRotationRequest} {answer : Answer StateAnswer}
    (h : rotate crypto s request now = .ok (s', answer)) : Commits crypto s s' := by
  simp only [rotate, bind_eq_ok, require_eq_ok, rethrow_eq_ok, pure_eq_ok, Prod.mk.injEq] at h
  obtain ⟨_, -, _, -, _, -, _, -, ⟨s₁, version⟩, hrotate, rfl, -⟩ := h
  exact Or.inr ⟨.rotateCredential _, .rotate _, map_eq_ok.mpr ⟨_, hrotate, rfl⟩⟩

/-- A handler that begins, and reads a body, and then may commit. -/
theorem settle_commits {α β : Type} {server : Server} {outcome : α → Outcome}
    {begun : Except Failure Unit} {body : Except Failure β}
    {handler : β → Except Failure (Registry × α)}
    (h : ∀ b s' a, handler b = .ok (s', a) → Commits crypto server.registry s') :
    Commits crypto server.registry
      (settle server outcome (do begun; let b ← body; handler b)).1.registry := by
  cases hresult : (do begun; let b ← body; handler b : Except Failure (Registry × α)) with
  | error failure => exact Or.inl rfl
  | ok result =>
    simp only [bind_eq_ok, exists_unit] at hresult
    obtain ⟨-, b, -, hhandler⟩ := hresult
    exact h b result.1 result.2 hhandler

/-- A request commits one call of the three, or leaves the registry. -/
theorem serve_commits (hpke : Hpke) (server : Server) (now : Time) (served : Served) :
    Commits crypto server.registry (serve crypto hpke server now served).1.registry := by
  cases served with
  | register request random =>
    rcases hbegun : beginLimited server.membership request now with ⟨membership, begun⟩
    simp only [serve, hbegun]
    exact settle_commits fun b s' a h => register_commits h
  | registered registered =>
    left
    simp only [serve, answered]
    split <;> rfl
  | prove request =>
    simp only [serve]
    exact settle_commits fun b s' a h => prove_commits h
  | state request =>
    left
    simp only [serve, answered]
    split <;> rfl
  | rotate request =>
    rcases hbegun : beginRotation server.rotation request now with ⟨rotation, begun⟩
    simp only [serve, hbegun]
    exact settle_commits fun b s' a h => rotate_commits h

theorem system_request (server : Server) (now : Time) (served : Served) :
    (system crypto hpke).step server (.request now served) =
      ((serve crypto hpke server now served).1, some (serve crypto hpke server now served).2) := rfl

/-- Every event takes a step of the store, or leaves the registry. -/
theorem system_registry (hpke : Hpke) (server : Server) (event : Event) :
    ((system crypto hpke).step server event).1.registry = server.registry ∨
      ∃ call, commit crypto server.registry call =
        .ok ((system crypto hpke).step server event).1.registry := by
  cases event with
  | request now served =>
    rcases serve_commits hpke server now served with hsame | ⟨call, -, hcommit⟩
    · exact Or.inl hsame
    · exact Or.inr ⟨call, hcommit⟩
  | call call =>
    cases hcommit : commit crypto server.registry call with
    | error e => exact Or.inl (by simp only [system, store_error hcommit])
    | ok s' => exact Or.inr ⟨call, by simp only [system, store_ok hcommit, hcommit]⟩

theorem system_reachable (hpke : Hpke) {server : Server} (hs : Reachable crypto server.registry)
    (event : Event) :
    Reachable crypto ((system crypto hpke).step server event).1.registry := by
  rcases system_registry hpke server event with hsame | ⟨call, hcommit⟩
  · rwa [hsame]
  · exact hs.commits call hcommit

end Calls

/-! ### What stays -/

/-- The columns that only the console writes in a row. -/
def managedColumns (d : Device) :=
  (d.id, d.deviceType, d.deviceName, d.e2eePublicKey, d.revokedAtMs, d.certificateID,
    d.signedCertificate, d.approvedAtMs, d.revokedMembershipEpoch)

/-- The columns of a workspace, with its rosters and its transitions. -/
def managedWorkspace (w : Workspace) :=
  (w.authorityPublicKey, w.authorityEpoch, w.authorityTransitionDigest, w.rosters, w.transitions)

/-- A proof may have been completed, and nothing that the console writes is different. -/
structure Unmanaged (d d' : Device) : Prop where
  columns : managedColumns d' = managedColumns d
  state : d'.membershipState = d.membershipState ∨
    d.membershipState = .pendingProof ∧ d'.membershipState = .pendingApproval

/-- A device that is no member and has no certificate. -/
structure Applicant (d : Device) : Prop where
  state : d.membershipState = .pendingProof ∨ d.membershipState = .pendingApproval
  columns : (d.revokedAtMs, d.certificateID, d.signedCertificate) = (none, none, none)

/-- The same workspaces, with the devices that they had, and applicants. -/
structure RegistryUnmanaged (s s' : Registry) : Prop where
  workspace : ∀ id, (s'.find id).map managedWorkspace = (s.find id).map managedWorkspace
  kept : ∀ id deviceID d, s.device id deviceID = some d →
    ∃ d', s'.device id deviceID = some d' ∧ Unmanaged d d'
  new : ∀ id deviceID d', s.device id deviceID = none → s'.device id deviceID = some d' → Applicant d'

/-- The actions of the handlers. -/
def Action.FromNetwork : Action → Prop
  | .register _ | .prove _ | .rotateCredential _ => True
  | _ => False

section Unmanaged

variable {crypto : Crypto} {d d' d'' : Device} {s s' s'' : Registry} {call : Call} {action : Action}

theorem Unmanaged.refl (d : Device) : Unmanaged d d := ⟨rfl, Or.inl rfl⟩

theorem Unmanaged.trans (h : Unmanaged d d') (h' : Unmanaged d' d'') : Unmanaged d d'' where
  columns := h'.columns.trans h.columns
  state := by
    rcases h.state with hsame | ⟨hproof, hproven⟩
    · rw [← hsame]
      exact h'.state
    · rcases h'.state with hsame | ⟨hagain, -⟩
      · exact Or.inr ⟨hproof, hsame.trans hproven⟩
      · rw [hproven] at hagain
        cases hagain

theorem Unmanaged.member (h : Unmanaged d d') : d'.Member ↔ d.Member := by
  have hrevoked : d'.revokedAtMs = d.revokedAtMs := congrArg (·.2.2.2.2.1) h.columns
  simp only [Device.Member, hrevoked]
  rcases h.state with hsame | ⟨hproof, hproven⟩
  · rw [hsame]
  · simp [hproof, hproven]

theorem Applicant.unmanaged (h : Applicant d) (h' : Unmanaged d d') : Applicant d' where
  state := by
    rcases h'.state with hsame | ⟨-, hproven⟩
    · rw [hsame]
      exact h.state
    · exact Or.inr hproven
  columns := by
    rw [← h.columns]
    exact congrArg (fun c => (c.2.2.2.2.1, c.2.2.2.2.2.1, c.2.2.2.2.2.2.1)) h'.columns

theorem Applicant.not_member (h : Applicant d) : ¬ d.Member := by
  rintro ⟨happroved, -⟩
  rcases h.state with hstate | hstate <;> rw [hstate] at happroved <;> cases happroved

theorem RegistryUnmanaged.refl (s : Registry) : RegistryUnmanaged s s where
  workspace _ := rfl
  kept _ _ d hd := ⟨d, hd, .refl d⟩
  new _ _ _ hnone hd := by
    rw [hnone] at hd
    cases hd

theorem RegistryUnmanaged.trans (h : RegistryUnmanaged s s') (h' : RegistryUnmanaged s' s'') :
    RegistryUnmanaged s s'' where
  workspace id := (h'.workspace id).trans (h.workspace id)
  kept id deviceID d hd := by
    obtain ⟨d', hd', hsame⟩ := h.kept id deviceID d hd
    obtain ⟨d'', hd'', hsame'⟩ := h'.kept id deviceID d' hd'
    exact ⟨d'', hd'', hsame.trans hsame'⟩
  new id deviceID d'' hnone hd'' := by
    cases hd' : s'.device id deviceID with
    | none => exact h'.new id deviceID d'' hd' hd''
    | some d' =>
      obtain ⟨x, hx, hsame⟩ := h'.kept id deviceID d' hd'
      rw [hd''] at hx
      cases hx
      exact (h.new id deviceID d' hnone hd').unmanaged hsame

theorem Networked.fromNetwork {id : WorkspaceID} (h : Networked call)
    (haction : call.action crypto s = some (id, action)) : Action.FromNetwork action := by
  cases h with
  | register input =>
    simp only [Call.action, Option.bind_eq_bind, Option.bind_eq_some_iff, Option.pure_def,
      Option.some.injEq, Prod.mk.injEq] at haction
    obtain ⟨_, -, _, -, -, rfl⟩ := haction
    trivial
  | prove input =>
    cases haction
    trivial
  | rotate input =>
    cases haction
    trivial

theorem moves_unmanaged (hmoves : d.Moves action d') (haction : Action.FromNetwork action) :
    Unmanaged d d' := by
  cases hmoves with
  | other => exact .refl d
  | prove now hstate => exact ⟨rfl, Or.inr ⟨hstate, rfl⟩⟩
  | rotateCredential => exact ⟨rfl, Or.inl rfl⟩
  | approve | rename | revokePending | revoke | reissue => exact haction.elim

theorem Commits.unmanaged (hs : Reachable crypto s) (h : Commits crypto s s') :
    RegistryUnmanaged s s' := by
  obtain rfl | ⟨call, h, hcommit⟩ := h
  · exact .refl _
  have hstep := commit_step hs.chained hcommit
  have hcreates {id : WorkspaceID} (hnone : s.find id = none) : s'.find id = none := by
    cases hw' : s'.find id with
    | none => rfl
    | some w' =>
      obtain ⟨key, now, rfl, -⟩ := hstep.find_back hnone hw'
      cases h
  refine ⟨fun id => ?_, fun id deviceID d hd => ?_, fun id deviceID d' hnone hd' => ?_⟩
  · cases hw : s.find id with
    | none => rw [hcreates hw]
    | some w =>
      obtain ⟨w', hw', ⟨rfl, -⟩ | ⟨action, haction, hacts⟩⟩ := hstep.workspace hw
      · rw [hw']
      · have hnetwork := h.fromNetwork haction
        rw [hw']
        cases hacts with
        | register | prove | rotateCredential => rfl
        | approve | rename | revokePending | revoke | rotateAuthority => exact hnetwork.elim
  · obtain ⟨d', hd', ⟨rfl, -⟩ | ⟨action, haction, hmoves⟩⟩ := hstep.moves hd
    · exact ⟨d', hd', .refl d'⟩
    · exact ⟨d', hd', moves_unmanaged hmoves (h.fromNetwork haction)⟩
  · have hregisters := hstep.device_back hnone hd'
    obtain ⟨w', hw', hfind⟩ := Registry.device_eq_some.mp hd'
    cases hw : s.find id with
    | none =>
      rw [hcreates hw] at hw'
      cases hw'
    | some w =>
      have hfresh (hold : w.devices.find deviceID = some d') : Applicant d' := by
        rw [Registry.device_eq_some.mpr ⟨w, hw, hold⟩] at hnone
        cases hnone
      obtain ⟨v, hv, ⟨rfl, -⟩ | ⟨action, haction, hacts⟩⟩ := hstep.workspace hw <;>
        obtain rfl := Option.some.inj (hw'.symm.trans hv)
      · exact hfresh hfind
      · obtain ⟨-, rfl⟩ := Prod.mk.inj (Option.some.inj (hregisters.symm.trans haction))
        obtain ⟨hmem, hid⟩ := Table.find_eq_some.mp hfind
        cases hacts with
        | register r devices hr _ hrows =>
          rw [hrows, List.mem_append, List.mem_singleton] at hmem
          rcases hmem with hmem | rfl
          · exact hfresh (Table.find_eq_some.mpr ⟨hmem, hid⟩)
          · refine ⟨Or.inl hr.state, ?_⟩
            rw [hr.revokedAt, hr.certificateID, hr.signedCertificate]

end Unmanaged

/-- No run of requests changes the membership.  Whatever the network sends, the workspaces are the
same, with their authority, their rosters, and their transitions; the members are the same devices,
with the names, the keys, and the certificates that they had; and the devices that came are no members
and have no certificate. -/
theorem requests_leave_membership (crypto : Crypto) (hpke : Hpke) (server : Server)
    (hs : Reachable crypto server.registry) (requests : List (Time × Served)) (after : Registry)
    (hafter : after = ((system crypto hpke).run server
      (requests.map fun request => .request request.1 request.2)).registry) :
    RegistryUnmanaged server.registry after ∧
    ∀ id deviceID, (∃ d, after.device id deviceID = some d ∧ d.Member) ↔
      ∃ d, server.registry.device id deviceID = some d ∧ d.Member := by
  have hunmanaged : RegistryUnmanaged server.registry after := by
    subst hafter
    induction requests generalizing server with
    | nil => exact .refl _
    | cons request requests ih =>
      refine .trans ?_ (ih _ (system_reachable hpke hs (.request request.1 request.2)))
      exact (serve_commits hpke server request.1 request.2).unmanaged hs
  refine ⟨hunmanaged, fun id deviceID => ⟨?_, ?_⟩⟩
  · rintro ⟨d', hd', hmember⟩
    cases hd : server.registry.device id deviceID with
    | none => exact absurd hmember (hunmanaged.new id deviceID d' hd hd').not_member
    | some d =>
      obtain ⟨x, hx, hrow⟩ := hunmanaged.kept id deviceID d hd
      rw [hd'] at hx
      cases hx
      exact ⟨d, rfl, hrow.member.mp hmember⟩
  · rintro ⟨d, hd, hmember⟩
    obtain ⟨d', hd', hrow⟩ := hunmanaged.kept id deviceID d hd
    exact ⟨d', hd', hrow.member.mpr hmember⟩

/-! A workspace with a member and an open pairing code, and a device that registers with it. -/

/-- What is sealed is the text itself. -/
def sampleHpke : Hpke where
  sealTo _ _ plaintext randomness := some (randomness, plaintext)
  openWith _ _ _ ciphertext := some ciphertext

def sampleIdentity : Bytes := UInt8.ofNat 4 :: List.replicate 64 (UInt8.ofNat 0)

def sampleRequest : RegistrationRequest where
  pairingCode := encodeBase64URL (numbered 23 2).bytes
  deviceType := "android".toUTF8.toList
  deviceName := [65]
  e2eePublicKey := encodeBase64URL sampleIdentity

def sampleRandom : RegistrationRandom :=
  ⟨numbered 15 2, numbered 31 2, ⟨some (numbered 31 2), []⟩⟩

def sampleHistory : List Call := sampleCreation :: enroll 1 ++ (enroll 2).take 1

def sampleRegistry : Registry := (store sampleCrypto).run .empty sampleHistory

theorem sampleRegistry_reachable : Reachable sampleCrypto sampleRegistry := ⟨sampleHistory, rfl⟩

def sampleServer : Server where
  registry := sampleRegistry
  membership := (newClientRateLimiter defaultAttemptLimits).get (by decide)
  rotation := (newClientRateLimiter defaultAttemptLimits).get (by decide)

def sampleRequests : List (Time × Served) :=
  [(sampleInstant, .register ⟨true, some [1], true, some sampleRequest⟩ sampleRandom)]

set_option maxRecDepth 10000 in
/-- The code is open, the values are new, and the request registers the device. -/
theorem sampleServer_open :
    ((((system sampleCrypto sampleHpke).run sampleServer
      (sampleRequests.map fun request => .request request.1 request.2)).registry.device
        sampleWorkspace (numbered 15 2)).isSome ∧
      sampleRegistry.device sampleWorkspace (numbered 15 2) = none) ∧
    (∃ code ∈ sampleRegistry.pairingCodes.rows,
      code.codeHash = sampleCrypto.sha256 (numbered 23 2).bytes ∧ code.consumedAtMs = none ∧
      some code.deviceType = parseDeviceType sampleRequest.deviceType ∧ code.boundName = none ∧
      code.workspaceID = sampleWorkspace ∧ unixMillis sampleInstant < code.expiresAtMs) ∧
    sampleRegistry.tokenTaken (sampleCrypto.sha256 (numbered 31 2).bytes) = false ∧
    (sampleServer.membership.allow [1] sampleInstant).2 = true ∧
    validateDeviceName sampleRequest.deviceName = .ok () ∧
    validateBinding sampleWorkspace.bytes (numbered 15 2).bytes
      (sampleCrypto.sha256 sampleIdentity).bytes = .ok () := by
  decide +kernel

set_option maxRecDepth 10000 in
/-- The new device is an applicant. -/
theorem requests_leave_membership_registered : ∃ after d,
    after = ((system sampleCrypto sampleHpke).run sampleServer
      (sampleRequests.map fun request => .request request.1 request.2)).registry ∧
    after.device sampleWorkspace (numbered 15 2) = some d ∧ Applicant d ∧ ¬ d.Member := by
  obtain ⟨⟨hnew, hnone⟩, -⟩ := sampleServer_open
  obtain ⟨hunmanaged, -⟩ := requests_leave_membership sampleCrypto sampleHpke sampleServer
    sampleRegistry_reachable sampleRequests _ rfl
  obtain ⟨d, hd⟩ := Option.isSome_iff_exists.mp hnew
  have happlicant : Applicant d := hunmanaged.new _ _ d hnone hd
  exact ⟨_, d, rfl, hd, happlicant, happlicant.not_member⟩

end SevenMirror.HttpApi
