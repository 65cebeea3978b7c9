import SevenMirror.Admission.Codes

/-! The rotation of a credential, retried.  A device holds its token and the token that it asked for,
and repeats the request until it learns which of them the server keeps.  Requests and answers may be
lost or arrive twice; one of the two tokens works in every state, the old one up to the commit and
the new one from there on. -/

namespace SevenMirror.Admission

open Lib MembershipCodec

/-- `Authenticate` accepts the login in `s`. -/
def authenticates (crypto : Crypto) (s : Registry) (login : Login) : Bool :=
  match (authenticate login).eval (answerLogin crypto login s) with
  | .ok _ => true
  | .error _ => false

/-- The digest tells the tokens apart. -/
def TokensDistinct (crypto : Crypto) : Prop :=
  ∀ a b : Bytes, a.length = authTokenBytes → b.length = authTokenBytes →
    crypto.sha256 a = crypto.sha256 b → a = b

deriving instance DecidableEq for CredentialRotation

namespace CredentialRotation

/-- A login with the token that the device has. -/
def current (request : CredentialRotation) : Login :=
  ⟨request.workspaceID, request.deviceID, request.currentAuthToken⟩

/-- A login with the token that it asks for. -/
def pending (request : CredentialRotation) : Login :=
  ⟨request.workspaceID, request.deviceID, request.pendingAuthToken⟩

end CredentialRotation

/-- The call is the request, at whatever time. -/
def Call.repeats (request : CredentialRotation) : Call → Bool
  | .rotateCredential input => input = { request with now := input.now }
  | _ => false

/-- The attempt commits the action in `s`. -/
def Attempt.commits (crypto : Crypto) (s : Registry) (a : Attempt) (id : WorkspaceID)
    (action : Action) : Bool :=
  ¬ a.aborted ∧ a.call.commits crypto s id action

/-- The attempt neither rotates the credential of the device nor revokes the device. -/
def Attempt.Spares (crypto : Crypto) (request : CredentialRotation) (s : Registry)
    (a : Attempt) : Prop :=
  ¬ a.commits crypto s request.workspaceID (.rotateCredential request.deviceID) ∧
    ¬ a.commits crypto s request.workspaceID (.revoke request.deviceID)

/-- An attempt of the request, or one that spares the device. -/
def Attempt.RepeatsOrSpares (crypto : Crypto) (request : CredentialRotation) (s : Registry)
    (a : Attempt) : Prop :=
  a.call.repeats request ∨ a.Spares crypto request s

/-- The attempt commits the request. -/
def succeeds (request : CredentialRotation) (e : Attempt × Outcome) : Bool :=
  e.2 = .committed ∧ e.1.call.repeats request

/-- The attempt commits a rotation with a text of the secret. -/
def rotatesWith (secret : Bytes) (e : Attempt × Outcome) : Bool :=
  match e.1.call with
  | .rotateCredential input => e.2 = .committed ∧ decodeBase64URL input.rotationCode = some secret
  | _ => false

/-- The code is one that the request may use. -/
structure RotationCode.For (crypto : Crypto) (request : CredentialRotation)
    (code : RotationCode) : Prop where
  workspaceID : code.workspaceID = request.workspaceID
  deviceID : code.deviceID = request.deviceID
  unconsumed : code.consumedAtMs = none
  secret : ∃ secret : Block 24, code.codeHash = crypto.sha256 secret.bytes ∧
    request.rotationCode = encodeBase64URL secret.bytes

section Logins

variable {crypto : Crypto} {s s' : Registry} {login : Login}

theorem authenticates_iff : authenticates crypto s login = true ↔
    login.authToken.length = authTokenBytes ∧ ∃ d, loginRow crypto login s = some d := by
  by_cases hlength : login.authToken.length = authTokenBytes
  · cases hrow : loginRow crypto login s <;>
      simp [authenticates, authenticate, Statements.eval, selectIdentity, answerLogin, hlength, hrow]
  · simp [authenticates, authenticate, Statements.eval, hlength]

/-- An action that is neither a rotation of the credential nor a revocation keeps the token of a
member. -/
theorem Device.Moves.keeps_token {d d' : Device} {action : Action} (h : d.Moves action d')
    (happroved : d.membershipState = .approved) (hrevoked : d.revokedAtMs = none)
    (hrotate : action ≠ .rotateCredential d.id) (hrevoke : action ≠ .revoke d.id) :
    d'.authTokenHash = d.authTokenHash ∧ d'.revokedAtMs = none ∧
      d'.membershipState = .approved := by
  cases h with
  | other => exact ⟨rfl, hrevoked, happroved⟩
  | prove now hstate => rw [happroved] at hstate; cases hstate
  | rotateCredential => exact absurd rfl hrotate
  | approve id encoded now hstate => rw [happroved] at hstate; cases hstate
  | rename => exact ⟨rfl, hrevoked, happroved⟩
  | revokePending => exact absurd rfl hrevoke
  | revoke => exact absurd rfl hrevoke
  | reissue _ hsame =>
    refine ⟨congrArg (·.authTokenHash) hsame, ?_, ?_⟩
    · exact (congrArg (·.revokedAtMs) hsame).trans hrevoked
    · exact (congrArg (·.membershipState) hsame).trans happroved

theorem RegistryStep.keeps_login {call : Call} (hstep : RegistryStep crypto s call s') {d : Device}
    (hrow : loginRow crypto login s = some d)
    (hrotate : call.action crypto s ≠ some (login.workspaceID, .rotateCredential login.deviceID))
    (hrevoke : call.action crypto s ≠ some (login.workspaceID, .revoke login.deviceID)) :
    ∃ d', loginRow crypto login s' = some d' := by
  obtain ⟨hd, hhash, hrevoked, happroved⟩ := loginRow_eq_some.mp hrow
  have hid := Registry.device_id hd
  obtain ⟨d', hd', ⟨rfl, -⟩ | ⟨action, haction, hmoves⟩⟩ := hstep.moves hd
  · exact ⟨d', loginRow_eq_some.mpr ⟨hd', hhash, hrevoked, happroved⟩⟩
  · obtain ⟨hsame, hkept⟩ := hmoves.keeps_token happroved hrevoked
      (fun h => hrotate (by rw [haction, h, hid])) (fun h => hrevoke (by rw [haction, h, hid]))
    exact ⟨d', loginRow_eq_some.mpr ⟨hd', hsame.trans hhash, hkept⟩⟩

end Logins

section Retries

variable {crypto : Crypto} {s : Registry} {request : CredentialRotation} {a : Attempt}

theorem Call.repeats_iff {call : Call} : call.repeats request = true ↔
    ∃ now, call = .rotateCredential { request with now } := by
  cases call with
  | rotateCredential input =>
    simp only [Call.repeats, decide_eq_true_eq, Call.rotateCredential.injEq]
    constructor
    · exact fun h => ⟨input.now, h⟩
    · rintro ⟨now, rfl⟩
      rfl
  | _ => simp [Call.repeats]

theorem Attempt.commits_of_ok {s' : Registry} {id : WorkspaceID} {action : Action}
    (hstep : (attempts crypto).step s a = (s', .committed)) :
    a.commits crypto s id action = true ↔ a.call.action crypto s = some (id, action) := by
  have hcommit := attempts_committed hstep
  have hrun : a.aborted = false := by
    cases haborted : a.aborted with
    | false => rfl
    | true => simp [attempts, haborted] at hstep
  simp [Attempt.commits, hrun, Call.commits_of_ok hcommit]

/-- A login survives an attempt that spares the device. -/
theorem Reachable.keeps_login (hs : Reachable crypto s) {login : Login} {d : Device}
    (hrow : loginRow crypto login s = some d) (hid : login.workspaceID = request.workspaceID)
    (hdevice : login.deviceID = request.deviceID) (hspares : a.Spares crypto request s) :
    ∃ d', loginRow crypto login ((attempts crypto).step s a).1 = some d' := by
  rcases attempts_cases crypto s a with ⟨s', hcommit, hstep⟩ | ⟨hsame, -⟩
  · rw [Attempt.Spares, Attempt.commits_of_ok hstep, Attempt.commits_of_ok hstep, ← hid,
      ← hdevice] at hspares
    rw [hstep]
    exact (commit_step hs.chained hcommit).keeps_login hrow hspares.1 hspares.2
  · rw [hsame]
    exact ⟨d, hrow⟩

/-- A code of the device survives an attempt that spares the device. -/
theorem keeps_code {code : RotationCode} (hcode : code ∈ s.rotationCodes.rows)
    (hid : code.workspaceID = request.workspaceID) (hdevice : code.deviceID = request.deviceID)
    (hspares : a.Spares crypto request s) :
    code ∈ ((attempts crypto).step s a).1.rotationCodes.rows := by
  rcases attempts_cases crypto s a with ⟨s', hcommit, hstep⟩ | ⟨hsame, -⟩
  · rw [Attempt.Spares, Attempt.commits_of_ok hstep] at hspares
    rw [hstep]
    have hchange := commit_changes hcommit
    refine hchange.rotationCodes.row hcode fun hspent => hspares.1 ?_
    -- the call that consumes the code names the device that the code is for
    generalize a.call = call at hchange hspent ⊢
    cases hchange with
    | none _ hnone => rw [hnone] at hspent; cases hspent
    | issuesPairing => cases hspent
    | registers => cases hspent
    | issuesRotation => cases hspent
    | rotates input secret other w d devices htakes hwrites =>
      rw [Call.rotationHash, htakes.decodes, Option.map_some, ← htakes.hash] at hspent
      obtain rfl := Table.eq_of_key htakes.issued hcode (Option.some.inj hspent)
      rw [Call.action, ← htakes.workspaceID, ← htakes.deviceID, hid, hdevice]
  · rw [hsame]
    exact hcode

/-- An attempt of the request that commits found the old token and leaves the new one. -/
theorem succeeds_takes (h : succeeds request (a, ((attempts crypto).step s a).2) = true) :
    request.currentAuthToken.length = authTokenBytes ∧
      request.pendingAuthToken.length = authTokenBytes ∧
      (∃ d, s.device request.workspaceID request.deviceID = some d ∧
        d.authTokenHash = crypto.sha256 request.currentAuthToken) ∧
      ∃ d, loginRow crypto request.pending ((attempts crypto).step s a).1 = some d := by
  obtain ⟨hcommitted, hrepeats⟩ := of_decide_eq_true h
  obtain ⟨now, hcall⟩ := Call.repeats_iff.mp hrepeats
  obtain ⟨s', hstep⟩ : ∃ s', (attempts crypto).step s a = (s', .committed) :=
    ⟨_, Prod.ext rfl hcommitted⟩
  have hcommit := attempts_committed hstep
  rw [hcall] at hcommit
  obtain ⟨⟨s', version⟩, hok, rfl⟩ := map_eq_ok.mp hcommit
  obtain ⟨secret, code, w, d, devices, htakes, hwrites⟩ := rotateCredential_takes hok
  refine ⟨htakes.currentAuthToken, htakes.pendingAuthToken, ⟨d, ?_, htakes.token⟩,
    d.rotatedTo (crypto.sha256 request.pendingAuthToken), ?_⟩
  · exact Registry.device_eq_some.mpr ⟨w, htakes.workspace, htakes.row⟩
  · rw [hstep]
    exact loginRow_eq_some.mpr ⟨hwrites.device htakes, rfl, htakes.member.2, htakes.member.1⟩

/-- Up to the commit, the old token works and the codes of the device are as they were. -/
structure Before (crypto : Crypto) (request : CredentialRotation) (codes : List RotationCode)
    (s : Registry) : Prop where
  reachable : Reachable crypto s
  login : ∃ d, loginRow crypto request.current s = some d
  codes : ∀ code ∈ codes, code.For crypto request → code ∈ s.rotationCodes.rows

/-- From there on, the new token works. -/
structure After (crypto : Crypto) (request : CredentialRotation) (s : Registry) : Prop where
  reachable : Reachable crypto s
  login : ∃ d, loginRow crypto request.pending s = some d

variable {codes : List RotationCode}

/-- An attempt of the request that does not commit changes nothing. -/
theorem repeats_idle (hrepeats : a.call.repeats request = true)
    (hcounts : succeeds request (a, ((attempts crypto).step s a).2) = false) :
    ((attempts crypto).step s a).1 = s := by
  refine attempts_failed fun hcommitted => ?_
  rw [succeeds, hcommitted, hrepeats] at hcounts
  cases hcounts

theorem Before.stays (h : Before crypto request codes s) (ha : a.RepeatsOrSpares crypto request s)
    (hcounts : succeeds request (a, ((attempts crypto).step s a).2) = false) :
    Before crypto request codes ((attempts crypto).step s a).1 := by
  rcases ha with hrepeats | hspares
  · rw [repeats_idle hrepeats hcounts]
    exact h
  · obtain ⟨d, hrow⟩ := h.login
    exact ⟨h.reachable.attempt a, h.reachable.keeps_login hrow rfl rfl hspares,
      fun code hcode hfor =>
        keeps_code (h.codes code hcode hfor) hfor.workspaceID hfor.deviceID hspares⟩

theorem Before.passes (h : Before crypto request codes s)
    (hcounts : succeeds request (a, ((attempts crypto).step s a).2) = true) :
    After crypto request ((attempts crypto).step s a).1 :=
  ⟨h.reachable.attempt a, (succeeds_takes hcounts).2.2.2⟩

/-- Once the request was committed, no attempt of it commits. -/
theorem After.stays (hdistinct : TokensDistinct crypto)
    (hother : request.pendingAuthToken ≠ request.currentAuthToken) (h : After crypto request s)
    (ha : a.RepeatsOrSpares crypto request s) :
    succeeds request (a, ((attempts crypto).step s a).2) = false ∧
      After crypto request ((attempts crypto).step s a).1 := by
  obtain ⟨d, hrow⟩ := h.login
  have hcounts : succeeds request (a, ((attempts crypto).step s a).2) = false := by
    by_contra hcounts
    obtain ⟨hcurrent, hpending, ⟨x, hx, htoken⟩, -⟩ :=
      succeeds_takes (Bool.eq_true_of_not_eq_false hcounts)
    obtain ⟨hd, hhash, -⟩ := loginRow_eq_some.mp hrow
    rw [show s.device request.workspaceID request.deviceID = some d from hd] at hx
    cases hx
    exact hother (hdistinct _ _ hpending hcurrent (hhash.symm.trans htoken))
  refine ⟨hcounts, h.reachable.attempt a, ?_⟩
  rcases ha with hrepeats | hspares
  · rw [repeats_idle hrepeats hcounts]
    exact ⟨d, hrow⟩
  · exact h.reachable.keeps_login hrow rfl rfl hspares

/-- With the token that the row has, no other token authenticates. -/
theorem not_authenticates (hdistinct : TokensDistinct crypto) {login other : Login} {d : Device}
    (hrow : loginRow crypto login s = some d) (hlength : login.authToken.length = authTokenBytes)
    (hid : other.workspaceID = login.workspaceID) (hdevice : other.deviceID = login.deviceID)
    (htoken : other.authToken ≠ login.authToken) : authenticates crypto s other = false := by
  by_contra h
  obtain ⟨hother, x, hx⟩ := authenticates_iff.mp (Bool.eq_true_of_not_eq_false h)
  obtain ⟨hd, hhash, -⟩ := loginRow_eq_some.mp hrow
  obtain ⟨hd', hhash', -⟩ := loginRow_eq_some.mp hx
  rw [hid, hdevice, hd] at hd'
  cases hd'
  exact htoken (hdistinct _ _ hother hlength (hhash'.symm.trans hhash))

/-- The request succeeds while its code is unexpired and the device has its old token. -/
theorem Reachable.rotates (hs : Reachable crypto s) {code : RotationCode} {now : Time} {d : Device}
    (hcode : code ∈ s.rotationCodes.rows) (hfor : code.For crypto request)
    (hrow : loginRow crypto request.current s = some d)
    (hcurrent : request.currentAuthToken.length = authTokenBytes)
    (hpending : request.pendingAuthToken.length = authTokenBytes)
    (hother : request.pendingAuthToken ≠ request.currentAuthToken)
    (hnow : unixMillis now < code.expiresAtMs)
    (htaken : s.tokenTakenBesides request.workspaceID request.deviceID
      (crypto.sha256 request.pendingAuthToken) = false) :
    ((attempts crypto).step s ⟨.rotateCredential { request with now }, false⟩).2 = .committed := by
  obtain ⟨secret, hhash, htext⟩ := hfor.secret
  obtain ⟨hd, htoken, hrevoked, happroved⟩ := loginRow_eq_some.mp hrow
  obtain ⟨w, hw, hfind⟩ := Registry.device_eq_some.mp hd
  obtain ⟨hmem, hid⟩ := Table.find_eq_some.mp hfind
  have hversion := (hs.device_sound hd).version
  have hok : ∃ result, rotateCredential crypto s { request with now } = .ok result := by
    simp only [rotateCredential, bind_eq_ok, exists_unit, reject_eq_ok, require_eq_ok, pure_eq_ok]
    refine ⟨_, ?_, secret.bytes, ?_, ?_, code, Table.find_eq_some.mpr ⟨hcode, hhash⟩, w, ?_, d, ?_, ?_,
      ?_, ?_, ?_, rfl⟩
    · simp [hcurrent, hpending, hother.symm]
    · rw [htext, decodeBase64URL_encodeBase64URL]
    · simp [secret.size, rotationSecretBytes, htext]
    · rw [hfor.workspaceID]
      exact hw
    · rw [hfor.deviceID]
      exact hfind
    · simp only [hfor.unconsumed, hrevoked, hfor.workspaceID, hfor.deviceID, htoken,
        CredentialRotation.current]
      simp
      omega
    · refine not_not.mpr (Table.affected_eq_one hcode ?_ fun x hx => ?_)
      · simp [hhash, hfor.unconsumed, hnow]
      · exact (of_decide_eq_true hx).1.trans hhash.symm
    · simp [htaken]
    · refine not_not.mpr (Table.affected_eq_one hmem ?_ fun x hx => ?_)
      · exact decide_eq_true ⟨hid, htoken, rfl, hrevoked, happroved⟩
      · exact (of_decide_eq_true hx).1.trans hid.symm
  obtain ⟨result, hok⟩ := hok
  simp [attempts, commit, hok, Except.map]

theorem usedHash_of_rotatesWith {secret : Bytes} {e : Attempt × Outcome}
    (h : rotatesWith secret e = true) :
    usedHash (·.rotationHash crypto) e = some (crypto.sha256 secret) := by
  unfold rotatesWith at h
  split at h
  · rename_i input hcall
    obtain ⟨hcommitted, hdecodes⟩ := of_decide_eq_true h
    rw [usedHash, if_pos hcommitted, hcall, Call.rotationHash, hdecodes]
    rfl
  · cases h

theorem rotatesWith_at_most_once (s : Registry) (events : List Attempt) (secret : Bytes) :
    ((attempts crypto).trace s events).countP (rotatesWith secret) ≤ 1 := by
  refine Nat.le_trans (List.countP_mono_left fun e _ h => ?_)
    (spends_at_most_once attempts_rotationCodes s events (crypto.sha256 secret))
  exact decide_eq_true (usedHash_of_rotatesWith h)

/-- The request was committed once or not at all, and the state is after or before its commit. -/
theorem Reachable.retried (hdistinct : TokensDistinct crypto) (hs : Reachable crypto s)
    (hcurrent : authenticates crypto s request.current = true)
    (hother : request.pendingAuthToken ≠ request.currentAuthToken) {events : List Attempt}
    (hevents : (attempts crypto).Allowed (fun s a => a.RepeatsOrSpares crypto request s) s events) :
    ((attempts crypto).trace s events).countP (succeeds request) = 0 ∧
        Before crypto request s.rotationCodes.rows ((attempts crypto).run s events) ∨
      ((attempts crypto).trace s events).countP (succeeds request) = 1 ∧
        After crypto request ((attempts crypto).run s events) := by
  refine ((attempts crypto).phases (fun t a ha ht => ht.stays ha) (fun t a _ ht => ht.passes)
    (fun t a ha ht => ht.stays hdistinct hother ha) hevents).1 ?_
  exact ⟨hs, (authenticates_iff.mp hcurrent).2, fun code hcode _ => hcode⟩

/-- A committed request had tokens of the right length. -/
theorem pending_length {events : List Attempt}
    (h : ((attempts crypto).trace s events).countP (succeeds request) = 1) :
    request.pendingAuthToken.length = authTokenBytes := by
  induction events generalizing s with
  | nil => cases h
  | cons a events ih =>
    rw [Machine.trace, List.countP_cons] at h
    cases hcounts : succeeds request (a, ((attempts crypto).step s a).2) with
    | true => exact (succeeds_takes hcounts).2.1
    | false => exact ih (by simpa [hcounts] using h)

end Retries

/-- A device that repeats the rotation of its credential is never locked out.  Among attempts of the
request and whatever else neither rotates nor revokes the device, at most one attempt commits.  The
old token authenticates before the commit and the new one after it, and never both.  An attempt that
does not commit changes nothing, so that up to the commit a code of the device stays usable until it
expires.  And a code serves one rotation, whatever tokens are asked for. -/
theorem rotation_retries_keep_one_token (crypto : Crypto) (hdistinct : TokensDistinct crypto)
    (s : Registry) (hs : Reachable crypto s) :
    (∀ request events, authenticates crypto s request.current = true →
      request.pendingAuthToken ≠ request.currentAuthToken →
      (attempts crypto).Allowed (fun s a => a.RepeatsOrSpares crypto request s) s events →
      ((attempts crypto).trace s events).countP (succeeds request) ≤ 1 ∧
      (authenticates crypto ((attempts crypto).run s events) request.current = true ↔
        ((attempts crypto).trace s events).countP (succeeds request) = 0) ∧
      (authenticates crypto ((attempts crypto).run s events) request.pending = true ↔
        ((attempts crypto).trace s events).countP (succeeds request) = 1) ∧
      (∀ a, ((attempts crypto).step ((attempts crypto).run s events) a).2 ≠ .committed →
        ((attempts crypto).step ((attempts crypto).run s events) a).1 =
          (attempts crypto).run s events) ∧
      (∀ code ∈ s.rotationCodes.rows, code.For crypto request →
        ((attempts crypto).trace s events).countP (succeeds request) = 0 →
        code ∈ ((attempts crypto).run s events).rotationCodes.rows ∧
        ∀ now, unixMillis now < code.expiresAtMs →
          request.pendingAuthToken.length = authTokenBytes →
          ((attempts crypto).run s events).tokenTakenBesides request.workspaceID request.deviceID
            (crypto.sha256 request.pendingAuthToken) = false →
          ((attempts crypto).step ((attempts crypto).run s events)
            ⟨.rotateCredential { request with now }, false⟩).2 = .committed)) ∧
    ∀ secret events, ((attempts crypto).trace s events).countP (rotatesWith secret) ≤ 1 := by
  refine ⟨fun request events hcurrent hother hevents => ?_,
    fun secret events => rotatesWith_at_most_once s events secret⟩
  have hlength := (authenticates_iff.mp hcurrent).1
  rcases hs.retried hdistinct hcurrent hother hevents with ⟨hcount, hbefore⟩ | ⟨hcount, hafter⟩
  · obtain ⟨d, hrow⟩ := hbefore.login
    have hpending : authenticates crypto ((attempts crypto).run s events) request.pending = false :=
      not_authenticates hdistinct hrow hlength rfl rfl hother
    have hcurrent' : authenticates crypto ((attempts crypto).run s events) request.current = true :=
      authenticates_iff.mpr ⟨hlength, d, hrow⟩
    rw [hcount, hpending, hcurrent']
    refine ⟨Nat.zero_le 1, by simp, by simp, fun a => attempts_failed, fun code hcode hfor _ => ?_⟩
    have hcode' := hbefore.codes code hcode hfor
    exact ⟨hcode', fun now hnow hpending htaken =>
      hbefore.reachable.rotates hcode' hfor hrow hlength hpending hother hnow htaken⟩
  · obtain ⟨d, hrow⟩ := hafter.login
    have hlength' := pending_length hcount
    have hcurrent' : authenticates crypto ((attempts crypto).run s events) request.current = false :=
      not_authenticates hdistinct hrow hlength' rfl rfl hother.symm
    have hpending : authenticates crypto ((attempts crypto).run s events) request.pending = true :=
      authenticates_iff.mpr ⟨hlength', d, hrow⟩
    rw [hcount, hpending, hcurrent']
    exact ⟨Nat.le_refl 1, by simp, by simp, fun a => attempts_failed, fun _ _ _ h => by cases h⟩

/-- A token of 32 bytes is its own digest. -/
def exactCrypto : Crypto :=
  { sampleCrypto with
    sha256 := fun b => if h : b.length = 32 then ⟨b, h⟩ else sampleCrypto.sha256 b }

theorem exactCrypto_distinct : TokensDistinct exactCrypto := by
  intro a b ha hb h
  simpa [exactCrypto, show a.length = 32 from ha, show b.length = 32 from hb] using h

def sampleRequest : CredentialRotation :=
  ⟨sampleWorkspace, numbered 15 1, (numbered 31 1).bytes, encodeBase64URL (numbered 23 9).bytes,
    (numbered 31 2).bytes, sampleInstant⟩

/-- The request is lost once, is committed, and arrives again after its answer was lost. -/
def sampleAttempts : List Attempt :=
  [⟨.rotateCredential sampleRequest, true⟩, ⟨.rotateCredential sampleRequest, false⟩,
    ⟨.rotateCredential sampleRequest, false⟩]

theorem rotation_retries_keep_one_token_lost :
    ((attempts exactCrypto).trace ((store exactCrypto).run .empty rotatableCalls)
      sampleAttempts).map (·.2) = [.aborted, .committed, .failed .invalidRotation] ∧
    authenticates exactCrypto ((attempts exactCrypto).run
      ((store exactCrypto).run .empty rotatableCalls) sampleAttempts) sampleRequest.pending = true := by
  have hevents : (attempts exactCrypto).Allowed
      (fun s a => a.RepeatsOrSpares exactCrypto sampleRequest s)
      ((store exactCrypto).run .empty rotatableCalls) sampleAttempts :=
    ⟨Or.inl (by decide +kernel), Or.inl (by decide +kernel), Or.inl (by decide +kernel), trivial⟩
  refine ⟨by decide +kernel, ?_⟩
  exact (((rotation_retries_keep_one_token exactCrypto exactCrypto_distinct _
    ⟨rotatableCalls, rfl⟩).1 sampleRequest sampleAttempts (by decide +kernel) (by decide +kernel)
    hevents).2.2.1).mpr (by decide +kernel)

end SevenMirror.Admission
