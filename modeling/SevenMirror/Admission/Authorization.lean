import SevenMirror.Admission.Later
import SevenMirror.Admission.Rows

/-! Who may act: `IsDeviceAuthorized`, `IsSessionAuthorized`, and `Authenticate` of
`internal/admission/store.go`.  `Authenticate` issues two statements outside a transaction, so other
calls may commit between them; what its `UPDATE` writes no statement reads. -/

namespace SevenMirror.Admission

open Lib MembershipCodec

def isDeviceAuthorized (s : Registry) (workspaceID : WorkspaceID) (deviceID : DeviceID) : Bool :=
  match s.device workspaceID deviceID with
  | none => false
  | some d => d.revokedAtMs = none ∧ d.membershipState = .approved

def isSessionAuthorized (s : Registry) (workspaceID : WorkspaceID) (deviceID : DeviceID)
    (credentialVersion : Int) : Bool :=
  if credentialVersion < 1 then false
  else
    match s.device workspaceID deviceID with
    | none => false
    | some d =>
      d.revokedAtMs = none ∧ d.credentialVersion = credentialVersion ∧ d.membershipState = .approved

/-! ### Authenticate -/

/-- The arguments of `Authenticate` that its conditions name. -/
structure Login where
  workspaceID : WorkspaceID
  deviceID : DeviceID
  authToken : Bytes

structure DeviceIdentity where
  workspaceID : WorkspaceID
  deviceID : DeviceID
  deviceType : DeviceType
  deviceName : Bytes
  credentialVersion : Nat
deriving DecidableEq, Repr

inductive LoginError
  | unauthorized
deriving DecidableEq, Repr

inductive LoginQuery
  | update
  | select
deriving DecidableEq, Repr

/-- The number of rows that the `UPDATE` affects, and what the `SELECT` reads. -/
def LoginQuery.Rows : LoginQuery → Type
  | .update => Nat
  | .select => Option (DeviceType × Bytes × Nat)

abbrev LoginSession := Session Registry LoginQuery LoginQuery.Rows (Except LoginError DeviceIdentity)

section Login

variable (crypto : Crypto) (input : Login)

/-- The row that meets the conditions of both statements. -/
def loginRow (s : Registry) : Option Device :=
  (s.device input.workspaceID input.deviceID).filter fun d =>
    d.authTokenHash = crypto.sha256 input.authToken ∧ d.revokedAtMs = none ∧
      d.membershipState = .approved

def answerLogin (s : Registry) : (q : LoginQuery) → q.Rows
  | .update => if (loginRow crypto input s).isSome then (1 : Nat) else (0 : Nat)
  | .select =>
    (loginRow crypto input s).map fun d => (d.deviceType, d.deviceName, d.credentialVersion)

/-- The `SELECT`, and what follows it. -/
def selectIdentity :
    Statements LoginQuery LoginQuery.Rows (Except LoginError DeviceIdentity) :=
  .query .select fun
    | none => .done (.error .unauthorized)
    | some (deviceType, deviceName, credentialVersion) =>
      .done (.ok ⟨input.workspaceID, input.deviceID, deviceType, deviceName, credentialVersion⟩)

def authenticate : Statements LoginQuery LoginQuery.Rows (Except LoginError DeviceIdentity) :=
  if input.authToken.length ≠ authTokenBytes then .done (.error .unauthorized)
  else .query .update fun (rows : Nat) =>
    if rows ≠ 1 then .done (.error .unauthorized) else selectIdentity input

/-- An `Authenticate` among the commits of others. -/
def logins : Machine LoginSession (SessionEvent Call) Unit :=
  sessions (answerLogin crypto input) (store crypto)

def startLogin (s : Registry) : LoginSession where
  state := s
  rest := authenticate input

end Login

section Rows

variable {crypto : Crypto} {s s' : Registry} {w w' : Workspace} {id : WorkspaceID}
  {deviceID : DeviceID} {d : Device}

/-- A revoked row never changes. -/
theorem Reachable.device_revoked (hs : Reachable crypto s) (hd : s.device id deviceID = some d)
    (hrevoked : d.revokedAtMs.isSome) (calls : List Call) :
    ((store crypto).run s calls).device id deviceID = some d := by
  obtain ⟨w, hw, hfind⟩ := Registry.device_eq_some.mp hd
  obtain ⟨hmem, rfl⟩ := Registry.find_eq_some.mp hw
  obtain ⟨hdmem, rfl⟩ := Table.find_eq_some.mp hfind
  obtain ⟨initial, h⟩ := hs.chained w hmem
  obtain ⟨w', hw', hext, -⟩ := store_later hs hmem h calls
  refine Registry.device_eq_some.mpr ⟨w', ?_, ?_⟩
  · exact Registry.find_eq_some.mpr ⟨hw', hext.id_eq⟩
  · exact Table.find_eq_some.mpr ⟨hext.revoked d hdmem hrevoked, rfl⟩

theorem loginRow_eq_some {input : Login} :
    loginRow crypto input s = some d ↔ s.device input.workspaceID input.deviceID = some d ∧
      d.authTokenHash = crypto.sha256 input.authToken ∧ d.revokedAtMs = none ∧
      d.membershipState = .approved := by
  simp [loginRow, Option.filter_eq_some_iff]

theorem Reachable.device_sound (hs : Reachable crypto s) (hd : s.device id deviceID = some d) :
    d.Sound crypto := by
  obtain ⟨w, hw, hfind⟩ := Registry.device_eq_some.mp hd
  exact hs.sound (Registry.find_eq_some.mp hw).1 d (Table.find_eq_some.mp hfind).1

theorem loginRow_revoked {input : Login} (hd : s.device input.workspaceID input.deviceID = some d)
    (hrevoked : d.revokedAtMs.isSome) : loginRow crypto input s = none := by
  obtain ⟨instant, hinstant⟩ := Option.isSome_iff_exists.mp hrevoked
  simp [loginRow, hd, hinstant]

end Rows

/-! ### The read of Authenticate -/

section Reads

variable {crypto : Crypto} {input : Login} {s : Registry}

/-- The identity that the `SELECT` makes of a row. -/
def Login.identity (input : Login) (d : Device) : DeviceIdentity :=
  ⟨input.workspaceID, input.deviceID, d.deviceType, d.deviceName, d.credentialVersion⟩

theorem advance_authenticate {c : LoginSession} (h : c.rest = authenticate input) :
    (c.advance (answerLogin crypto input)).rest = authenticate input ∨
      (c.advance (answerLogin crypto input)).rest = selectIdentity input ∨
      (c.advance (answerLogin crypto input)).rest = .done (.error .unauthorized) := by
  by_cases hlength : input.authToken.length = authTokenBytes
  · have hquery := h
    simp only [authenticate, hlength, ne_eq, not_true_eq_false, if_false] at hquery
    rw [Session.advance_query hquery]
    split
    · exact Or.inl h
    · dsimp only
      split
      · exact Or.inr (Or.inr rfl)
      · exact Or.inr (Or.inl rfl)
  · have hdone : c.rest = .done (.error .unauthorized) := by simp [h, authenticate, hlength]
    rw [Session.advance_done hdone]
    exact Or.inr (Or.inr hdone)

theorem advance_select (crypto : Crypto) {c : LoginSession} (h : c.rest = selectIdentity input) :
    (c.advance (answerLogin crypto input)).rest = selectIdentity input ∨
      (c.advance (answerLogin crypto input)).rest = .done (.error .unauthorized) ∨
      ∃ d, loginRow crypto input c.state = some d ∧
        (c.advance (answerLogin crypto input)).rest = .done (.ok (input.identity d)) := by
  rw [Session.advance_query h]
  split
  · exact Or.inl h
  · cases hrow : loginRow crypto input c.state with
    | none => exact Or.inr (Or.inl (by simp [answerLogin, hrow]))
    | some d => exact Or.inr (Or.inr ⟨d, rfl, by simp [answerLogin, hrow, Login.identity]⟩)

/-- The `SELECT` among the events read the row of `identity`. -/
def ReadAmong (crypto : Crypto) (input : Login) (s : Registry) (events : List (SessionEvent Call))
    (identity : DeviceIdentity) : Prop :=
  ∃ before after d, events = before ++ .statement :: after ∧
    ((logins crypto input).run (startLogin input s) before).rest.pending = some .select ∧
    loginRow crypto input ((store crypto).run s (commits before)) = some d ∧
    identity = input.identity d

theorem ReadAmong.concat {events : List (SessionEvent Call)} {identity : DeviceIdentity}
    (h : ReadAmong crypto input s events identity) (event : SessionEvent Call) :
    ReadAmong crypto input s (events ++ [event]) identity := by
  obtain ⟨before, after, d, rfl, hread⟩ := h
  exact ⟨before, after ++ [event], d, by simp, hread⟩

/-- An `Authenticate` among commits: it is at one of its statements, or failed, or read its
identity. -/
theorem logins_cases (crypto : Crypto) (input : Login) (s : Registry)
    (events : List (SessionEvent Call)) :
    ((logins crypto input).run (startLogin input s) events).rest = authenticate input ∨
      ((logins crypto input).run (startLogin input s) events).rest = selectIdentity input ∨
      ((logins crypto input).run (startLogin input s) events).rest =
        .done (.error .unauthorized) ∨
      ∃ identity, ((logins crypto input).run (startLogin input s) events).rest =
        .done (.ok identity) ∧ ReadAmong crypto input s events identity := by
  induction events using List.reverseRecOn with
  | nil => exact Or.inl rfl
  | append_singleton events event ih =>
    have hstate : ((logins crypto input).run (startLogin input s) events).state =
        (store crypto).run s (commits events) := sessions_state _ _ _
    rw [Machine.run_concat]
    cases event with
    | commit call =>
      refine ih.imp id (Or.imp id (Or.imp id ?_))
      rintro ⟨identity, hrest, hread⟩
      exact ⟨identity, hrest, hread.concat _⟩
    | statement =>
      rcases ih with hrest | hrest | hrest | ⟨identity, hrest, hread⟩
      · exact (advance_authenticate hrest).imp id (Or.imp id Or.inl)
      · rcases advance_select crypto hrest with h | h | ⟨d, hrow, h⟩
        · exact Or.inr (Or.inl h)
        · exact Or.inr (Or.inr (Or.inl h))
        · refine Or.inr (Or.inr (Or.inr ⟨_, h, events, [], d, rfl, ?_, hstate ▸ hrow, rfl⟩))
          rw [hrest]
          rfl
      · exact Or.inr (Or.inr (Or.inl ((congrArg (·.rest) (Session.advance_done hrest)).trans hrest)))
      · exact Or.inr (Or.inr (Or.inr ⟨identity,
          (congrArg (·.rest) (Session.advance_done hrest)).trans hrest, hread.concat _⟩))

theorem logins_read {events : List (SessionEvent Call)} {identity : DeviceIdentity}
    (h : ((logins crypto input).run (startLogin input s) events).rest = .done (.ok identity)) :
    ReadAmong crypto input s events identity := by
  rcases logins_cases crypto input s events with
    hrest | hrest | hrest | ⟨identity', hrest, hread⟩
  · rw [hrest] at h
    unfold authenticate at h
    split at h <;> cases h
  · rw [hrest] at h
    cases h
  · rw [hrest] at h
    cases h
  · rw [hrest] at h
    cases h
    exact hread

end Reads

/-- From its revocation on, a device is authorized in no store, and no `Authenticate` lets it in.  If
it had a certificate, then every roster from a certain epoch on lists the revocation and no
certificate of the device. -/
theorem revocation_is_permanent (crypto : Crypto) (s : Registry) (hs : Reachable crypto s)
    (id : WorkspaceID) (deviceID : DeviceID) (d : Device) (hd : s.device id deviceID = some d)
    (hrevoked : d.revokedAtMs.isSome) (calls : List Call) :
    isDeviceAuthorized ((store crypto).run s calls) id deviceID = false ∧
    (∀ version, isSessionAuthorized ((store crypto).run s calls) id deviceID version = false) ∧
    (∀ token events identity,
      ((logins crypto ⟨id, deviceID, token⟩).run
        (startLogin ⟨id, deviceID, token⟩ ((store crypto).run s calls)) events).rest ≠
          .done (.ok identity)) ∧
    (d.certificateID.isSome → ∃ epoch w initial, d.revokedMembershipEpoch = some epoch ∧
      ((store crypto).run s calls).find id = some w ∧ w.Chained crypto initial ∧
      RevokedAt crypto initial w d epoch) := by
  have hlater := hs.device_revoked hd hrevoked calls
  have hs' := hs.run calls
  have hnone : d.revokedAtMs ≠ none := fun h => by simp [h] at hrevoked
  refine ⟨?_, fun version => ?_, fun token events identity hrest => ?_, fun hcertificate => ?_⟩
  · simp [isDeviceAuthorized, hlater, hnone]
  · simp [isSessionAuthorized, hlater, hnone]
  · obtain ⟨before, after, d', -, -, hrow, -⟩ := logins_read hrest
    rw [loginRow_revoked (hs'.device_revoked hlater hrevoked (commits before)) hrevoked] at hrow
    cases hrow
  · obtain ⟨w, hw, hfind⟩ := Registry.device_eq_some.mp hlater
    have hmem := (Registry.find_eq_some.mp hw).1
    have hdmem := (Table.find_eq_some.mp hfind).1
    obtain ⟨initial, h⟩ := hs'.chained w hmem
    have hsound := hs'.sound hmem d hdmem
    have hstate : d.membershipState ≠ .approved := by simp [hsound.revoked.mp hrevoked]
    obtain ⟨epoch, hepoch⟩ := Option.isSome_iff_exists.mp
      ((hsound.certified.mp hcertificate).resolve_left hstate)
    exact ⟨epoch, w, initial, hepoch, hw, h, hs'.recorded hmem h d hdmem epoch hepoch⟩

/-- A device is revoked, and the authority rotates later. -/
theorem revocation_is_permanent_rotation :
    ∃ d, ((store sampleCrypto).run .empty revokedCalls).device sampleWorkspace (numbered 15 1) =
        some d ∧ d.certificateID.isSome ∧
    isDeviceAuthorized ((store sampleCrypto).run ((store sampleCrypto).run .empty revokedCalls)
      (enroll 2 ++ [.rotateWorkspaceAuthority sampleRotation])) sampleWorkspace (numbered 15 1) =
        false := by
  have hdevice : ((((store sampleCrypto).run .empty revokedCalls).device sampleWorkspace
      (numbered 15 1)).map fun d => (d.revokedAtMs.isSome, d.certificateID.isSome)) =
        some (true, true) := by
    decide +kernel
  obtain ⟨d, hd, hcolumns⟩ := Option.map_eq_some_iff.mp hdevice
  rw [Prod.mk.injEq] at hcolumns
  exact ⟨d, hd, hcolumns.2, (revocation_is_permanent sampleCrypto _ ⟨revokedCalls, rfl⟩ _ _ d hd
    hcolumns.1 _).1⟩

/-! ### Credentials -/

/-- The call commits the action in `s`. -/
def Call.commits (crypto : Crypto) (s : Registry) (call : Call) (id : WorkspaceID)
    (action : Action) : Bool :=
  (commit crypto s call).isOk ∧ call.action crypto s = some (id, action)

theorem Call.commits_of_ok {crypto : Crypto} {s s' : Registry} {call : Call} {id : WorkspaceID}
    {action : Action} (h : commit crypto s call = .ok s') :
    call.commits crypto s id action = decide (call.action crypto s = some (id, action)) := by
  simp [Call.commits, h, Except.isOk, Except.toBool]

theorem Call.commits_of_error {crypto : Crypto} {s : Registry} {call : Call} {id : WorkspaceID}
    {action : Action} {e : RegistryError} (h : commit crypto s call = .error e) :
    call.commits crypto s id action = false := by
  simp [Call.commits, h, Except.isOk, Except.toBool]

/-- How many of the calls commit the action. -/
def committed (crypto : Crypto) (id : WorkspaceID) (action : Action) : Registry → List Call → Nat
  | _, [] => 0
  | s, call :: calls =>
    (if call.commits crypto s id action then 1 else 0) +
      committed crypto id action ((store crypto).step s call).1 calls

/-- The row `d'`, later than `d`, after so many rotations of its credential, and revoked since if
`revoked`. -/
structure Follows (rotations : Nat) (revoked : Prop) (d d' : Device) : Prop where
  version : d'.credentialVersion = d.credentialVersion + rotations
  revoked_iff : d'.revokedAtMs.isSome ↔ d.revokedAtMs.isSome ∨ revoked
  approved : d.membershipState = .approved → d'.revokedAtMs = none → d'.membershipState = .approved

theorem Follows.same {revoked : Prop} {d : Device} (h : revoked → d.revokedAtMs.isSome) :
    Follows 0 revoked d d :=
  ⟨rfl, ⟨Or.inl, fun hd => hd.elim id h⟩, fun hd _ => hd⟩

theorem Follows.trans {m n : Nat} {p q : Prop} {d d' d'' : Device} (h : Follows m p d d')
    (h' : Follows n q d' d'') : Follows (m + n) (p ∨ q) d d'' := by
  refine ⟨?_, ?_, fun happroved hnone => h'.approved (h.approved happroved ?_) hnone⟩
  · rw [h'.version, h.version, Nat.add_assoc]
  · rw [h'.revoked_iff, h.revoked_iff, or_assoc]
  · have hnot : ¬ d''.revokedAtMs.isSome := by simp [hnone]
    rw [h'.revoked_iff] at hnot
    simpa using fun h => hnot (Or.inl h)

section Credentials

variable {crypto : Crypto} {w w' : Workspace} {deviceID : DeviceID} {d : Device} {action : Action}

theorem Device.Moves.follows {d' : Device} (h : d.Moves action d') :
    Follows (if action = .rotateCredential d.id then 1 else 0) (action = .revoke d.id) d d' := by
  cases h with
  | other hdevice _ =>
    have hrotate : action ≠ .rotateCredential d.id := by
      rintro rfl
      exact hdevice rfl
    rw [if_neg hrotate]
    refine .same ?_
    rintro rfl
    exact absurd rfl hdevice
  | prove now hstate _ => exact ⟨by simp, by simp, fun h => by simp [hstate] at h⟩
  | rotateCredential hash _ _ => exact ⟨by simp, by simp, fun h _ => h⟩
  | approve id encoded now _ _ =>
    exact ⟨by simp [Device.approvedWith], by simp [Device.approvedWith], fun _ _ => rfl⟩
  | rename name id encoded _ =>
    exact ⟨by simp [Device.renamedWith], by simp [Device.renamedWith], fun h _ => h⟩
  | revokePending now _ _ => exact ⟨by simp, by simp, fun _ h => by simp at h⟩
  | revoke epoch now _ =>
    exact ⟨by simp [Device.revokedWith], by simp [Device.revokedWith],
      fun _ h => by simp [Device.revokedWith] at h⟩
  | reissue d' hsame =>
    have hversion : d'.credentialVersion = d.credentialVersion :=
      congrArg (·.credentialVersion) hsame
    have hrevoked : d'.revokedAtMs = d.revokedAtMs := congrArg (·.revokedAtMs) hsame
    have hstate : d'.membershipState = d.membershipState := congrArg (·.membershipState) hsame
    exact ⟨by simp [hversion], by simp [hrevoked], fun h _ => hstate.trans h⟩

/-- What a committed call makes of the row of a device. -/
theorem RegistryStep.follows {s s' : Registry} {call : Call} {id : WorkspaceID}
    (hstep : RegistryStep crypto s call s') (hd : s.device id deviceID = some d) :
    ∃ d', s'.device id deviceID = some d' ∧
      Follows (if call.action crypto s = some (id, .rotateCredential deviceID) then 1 else 0)
        (call.action crypto s = some (id, .revoke deviceID)) d d' := by
  obtain ⟨d', hd', hmove⟩ := hstep.moves hd
  obtain rfl := Registry.device_id hd
  refine ⟨d', hd', ?_⟩
  rcases hmove with ⟨rfl, hidle⟩ | ⟨action, haction, hmove⟩
  · have hrotate : call.action crypto s ≠ some (id, .rotateCredential d'.id) := fun haction => by
      obtain ⟨x, heq, -⟩ := hidle _ haction
      cases heq
    rw [if_neg hrotate]
    refine .same fun haction => ?_
    obtain ⟨x, heq, hrevoked⟩ := hidle _ haction
    exact hrevoked (Action.revoke.inj heq).symm
  · simpa [haction] using hmove.follows

/-- One call, whether it commits or not. -/
theorem Reachable.step_follows {s : Registry} (hs : Reachable crypto s) {id : WorkspaceID}
    (hd : s.device id deviceID = some d) (call : Call) :
    ∃ d', ((store crypto).step s call).1.device id deviceID = some d' ∧
      Follows (if call.commits crypto s id (.rotateCredential deviceID) then 1 else 0)
        (call.commits crypto s id (.revoke deviceID) = true) d d' := by
  simp only [store]
  split
  · rename_i s' hcommit
    obtain ⟨d', hd', hfollows⟩ := (commit_step hs.chained hcommit).follows hd
    exact ⟨d', hd', by simpa [Call.commits_of_ok hcommit] using hfollows⟩
  · rename_i e hcommit
    simp only [Call.commits_of_error hcommit, Bool.false_eq_true, if_false]
    exact ⟨d, hd, .same False.elim⟩

theorem Reachable.run_follows {s : Registry} (hs : Reachable crypto s) {id : WorkspaceID}
    (hd : s.device id deviceID = some d) (calls : List Call) :
    ∃ d', ((store crypto).run s calls).device id deviceID = some d' ∧
      Follows (committed crypto id (.rotateCredential deviceID) s calls)
        (committed crypto id (.revoke deviceID) s calls ≠ 0) d d' := by
  induction calls generalizing s d with
  | nil => exact ⟨d, hd, .same (by simp [committed])⟩
  | cons call calls ih =>
    obtain ⟨d₁, hd₁, hfollows₁⟩ := hs.step_follows hd call
    obtain ⟨d', hd', hfollows⟩ := ih (hs.step call) hd₁
    refine ⟨d', hd', ?_⟩
    have hboth := hfollows₁.trans hfollows
    rw [committed, committed]
    refine ⟨hboth.version, ?_, hboth.approved⟩
    rw [hboth.revoked_iff]
    split <;> simp_all

/-- Whether the session of an approved row is authorized later. -/
theorem Follows.authorized_iff {s : Registry} {id : WorkspaceID} {d' : Device} {m n : Nat}
    (h : Follows m (n ≠ 0) d d') (hd' : s.device id deviceID = some d')
    (hnone : d.revokedAtMs = none) (happroved : d.membershipState = .approved)
    (hversion : 1 ≤ d.credentialVersion) :
    isSessionAuthorized s id deviceID d.credentialVersion = true ↔ m = 0 ∧ n = 0 := by
  have hpositive : ¬ (d.credentialVersion : Int) < 1 := by omega
  have hrevoked : d'.revokedAtMs = none ↔ n = 0 := by
    have := h.revoked_iff
    simp only [hnone, Option.isSome_none, Bool.false_eq_true, false_or] at this
    rw [← Option.not_isSome_iff_eq_none, this, not_not]
  simp only [isSessionAuthorized, hpositive, if_false, hd', decide_eq_true_eq, hrevoked, h.version]
  constructor
  · rintro ⟨hn, hm, -⟩
    exact ⟨by omega, hn⟩
  · rintro ⟨rfl, hn⟩
    exact ⟨hn, rfl, h.approved happroved (hrevoked.mpr hn)⟩

end Credentials

/-- The version of a credential counts its rotations.  A session that was opened with the version
that the `SELECT` of an `Authenticate` read is authorized, in whatever store follows, exactly if since
that `SELECT` the credential was not rotated and the device was not revoked. -/
theorem sessions_follow_credentials (crypto : Crypto) (s : Registry) (hs : Reachable crypto s) :
    (∀ id deviceID d calls, s.device id deviceID = some d →
      ∃ d', ((store crypto).run s calls).device id deviceID = some d' ∧
        d'.credentialVersion =
          d.credentialVersion + committed crypto id (.rotateCredential deviceID) s calls) ∧
    ∀ input events identity,
      ((logins crypto input).run (startLogin input s) events).rest = .done (.ok identity) →
      ∃ before after, events = before ++ .statement :: after ∧
        ((logins crypto input).run (startLogin input s) before).rest.pending = some .select ∧
        (isSessionAuthorized ((logins crypto input).run (startLogin input s) events).state
            input.workspaceID input.deviceID identity.credentialVersion = true ↔
          committed crypto input.workspaceID (.rotateCredential input.deviceID)
            ((logins crypto input).run (startLogin input s) before).state (commits after) = 0 ∧
          committed crypto input.workspaceID (.revoke input.deviceID)
            ((logins crypto input).run (startLogin input s) before).state (commits after) = 0) := by
  constructor
  · intro id deviceID d calls hd
    obtain ⟨d', hd', hfollows⟩ := hs.run_follows hd calls
    exact ⟨d', hd', hfollows.version⟩
  · intro input events identity hrest
    obtain ⟨before, after, d, rfl, hpending, hrow, rfl⟩ := logins_read hrest
    refine ⟨before, after, rfl, hpending, ?_⟩
    have hread : ((logins crypto input).run (startLogin input s) before).state =
        (store crypto).run s (commits before) := sessions_state _ _ _
    have hnow : ((logins crypto input).run (startLogin input s)
        (before ++ .statement :: after)).state =
          (store crypto).run ((store crypto).run s (commits before)) (commits after) := by
      refine (sessions_state _ _ _).trans ?_
      rw [← Machine.run_append, commits, List.filterMap_append]
      rfl
    rw [hread, hnow]
    obtain ⟨hd, -, hnone, happroved⟩ := loginRow_eq_some.mp hrow
    obtain ⟨d', hd', hfollows⟩ := (hs.run (commits before)).run_follows hd (commits after)
    exact hfollows.authorized_iff hd' hnone happroved ((hs.run _).device_sound hd).version

/-- A device joins, and may rotate its credential. -/
def rotatableCalls : List Call :=
  sampleCreation :: enroll 1 ++
    [.issueCredentialRotationCode
      ⟨sampleWorkspace, sampleReference 1, sampleInstant, sampleLifetime, numbered 23 9⟩]

def sampleLogin : Login := ⟨sampleWorkspace, numbered 15 1, (numbered 31 1).bytes⟩

/-- The device logs in, and then its credential is replaced. -/
def rotationAfterLogin : List (SessionEvent Call) :=
  [.statement, .statement, .commit (.rotateCredential
    ⟨sampleWorkspace, numbered 15 1, (numbered 31 1).bytes, encodeBase64URL (numbered 23 9).bytes,
      (numbered 31 2).bytes, sampleInstant⟩)]

theorem sessions_follow_credentials_rotation : ∃ before after,
    rotationAfterLogin = before ++ .statement :: after ∧
    (isSessionAuthorized ((logins sampleCrypto sampleLogin).run
        (startLogin sampleLogin ((store sampleCrypto).run .empty rotatableCalls))
        rotationAfterLogin).state sampleWorkspace (numbered 15 1) 1 = true ↔
      committed sampleCrypto sampleWorkspace (.rotateCredential (numbered 15 1))
        ((logins sampleCrypto sampleLogin).run
          (startLogin sampleLogin ((store sampleCrypto).run .empty rotatableCalls)) before).state
        (commits after) = 0 ∧
      committed sampleCrypto sampleWorkspace (.revoke (numbered 15 1))
        ((logins sampleCrypto sampleLogin).run
          (startLogin sampleLogin ((store sampleCrypto).run .empty rotatableCalls)) before).state
        (commits after) = 0) := by
  have hresult : ((logins sampleCrypto sampleLogin).run
      (startLogin sampleLogin ((store sampleCrypto).run .empty rotatableCalls))
      rotationAfterLogin).rest.result? =
        some (.ok ⟨sampleWorkspace, numbered 15 1, .android, [65], 1⟩) := by
    decide +kernel
  obtain ⟨before, after, hevents, -, hiff⟩ :=
    (sessions_follow_credentials sampleCrypto _ ⟨rotatableCalls, rfl⟩).2 sampleLogin _ _
      (Statements.result?_eq_some.mp hresult)
  exact ⟨before, after, hevents, hiff⟩

end SevenMirror.Admission
