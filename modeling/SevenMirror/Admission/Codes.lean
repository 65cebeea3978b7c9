import SevenMirror.Lib.SingleUse
import SevenMirror.Admission.Authorization
import SevenMirror.Admission.Enrolment

/-! Pairing codes and rotation codes.  A code is consumed inside a transaction that may still fail or
be aborted, and then its row is as it was.  A call that commits has consumed its code, and no other
call ever commits with that code. -/

namespace SevenMirror.Admission

open Lib MembershipCodec

/-! ### Calls that may be aborted -/

/-- A call, and whether it is aborted before it commits: its connection breaks, or the database
refuses a statement. -/
structure Attempt where
  call : Call
  aborted : Bool := false

inductive Outcome
  | committed
  | failed (error : RegistryError)
  | aborted
deriving DecidableEq, Repr

/-- The store under calls that may be aborted, which rolls back. -/
def attempts (crypto : Crypto) : Machine Registry Attempt Outcome where
  step s a :=
    if a.aborted then (s, .aborted)
    else
      match commit crypto s a.call with
      | .ok s' => (s', .committed)
      | .error e => (s, .failed e)

section Attempts

variable {crypto : Crypto} {s : Registry} {a : Attempt}

theorem attempts_cases (crypto : Crypto) (s : Registry) (a : Attempt) :
    (∃ s', commit crypto s a.call = .ok s' ∧ (attempts crypto).step s a = (s', .committed)) ∨
      ((attempts crypto).step s a).1 = s ∧ ((attempts crypto).step s a).2 ≠ .committed := by
  unfold attempts
  dsimp only
  split
  · exact Or.inr ⟨rfl, fun h => by cases h⟩
  · cases hcommit : commit crypto s a.call with
    | ok s' => exact Or.inl ⟨s', rfl, rfl⟩
    | error e => exact Or.inr ⟨rfl, fun h => by cases h⟩

theorem attempts_committed {s' : Registry} (h : (attempts crypto).step s a = (s', .committed)) :
    commit crypto s a.call = .ok s' := by
  rcases attempts_cases crypto s a with ⟨t, hcommit, hstep⟩ | ⟨-, hother⟩
  · rw [hstep] at h
    rw [hcommit, (Prod.mk.inj h).1]
  · rw [h] at hother
    exact absurd rfl hother

/-- A call that does not commit changes no row. -/
theorem attempts_failed (h : ((attempts crypto).step s a).2 ≠ .committed) :
    ((attempts crypto).step s a).1 = s := by
  rcases attempts_cases crypto s a with ⟨s', -, hstep⟩ | ⟨hsame, -⟩
  · rw [hstep] at h
    exact absurd rfl h
  · exact hsame

theorem Reachable.attempt (hs : Reachable crypto s) (a : Attempt) :
    Reachable crypto ((attempts crypto).step s a).1 := by
  rcases attempts_cases crypto s a with ⟨s', hcommit, hstep⟩ | ⟨hsame, -⟩
  · rw [hstep]
    exact hs.commits a.call hcommit
  · rw [hsame]
    exact hs

theorem Reachable.attempted (hs : Reachable crypto s) (events : List Attempt) :
    Reachable crypto ((attempts crypto).run s events) := by
  induction events generalizing s with
  | nil => exact hs
  | cons a events ih => exact ih (hs.attempt a)

end Attempts

/-! ### What a registration takes -/

/-- A registration: the code that it consumes, and the challenge that it stores. -/
structure Joining where
  input : Registration
  secret : Bytes
  code : PairingCode
  challenge : PendingChallenge
  digest : Block 32
  e2eePublicKey : Block 65

/-- The row that a registration inserts. -/
def Joining.row (crypto : Crypto) (j : Joining) : Device where
  id := j.input.deviceID
  deviceType := j.code.deviceType
  deviceName := j.input.deviceName
  authTokenHash := crypto.sha256 j.input.authToken.bytes
  e2eePublicKey := j.e2eePublicKey
  registeredAtMs := unixMillis j.input.now
  membershipState := .pendingProof
  proofChallengeDigest := some j.digest
  proofSecretHash := some (crypto.sha256 j.challenge.secret)
  proofExpiresAtMs := some (unixMillis j.challenge.expiresAt)

def PairingCode.consumed (code : PairingCode) (nowMillis : Int) : PairingCode :=
  { code with consumedAtMs := some nowMillis }

/-- What a registration finds in the registry. -/
structure Joining.Takes (crypto : Crypto) (s : Registry) (j : Joining) : Prop where
  decodes : decodeBase64URL j.input.pairingCode = some j.secret
  code : j.code ∈ s.pairingCodes.rows
  hash : j.code.codeHash = crypto.sha256 j.secret
  unconsumed : j.code.consumedAtMs = none
  unexpired : unixMillis j.input.now < j.code.expiresAtMs
  deviceType : j.input.deviceType = some j.code.deviceType
  name : ∀ name, j.code.boundName = some name → j.input.deviceName = name
  challenge : j.input.createChallenge j.code.workspaceID j.input.deviceID = some j.challenge
  valid : j.challenge.Valid j.input.now
  digest : j.digest.bytes = j.challenge.digest

/-- What a registration writes. -/
structure Joining.Writes (crypto : Crypto) (s s' : Registry) (w : Workspace)
    (devices : Table Device.id) (j : Joining) : Prop where
  workspace : s.find j.code.workspaceID = some w
  fresh : ∀ x ∈ w.devices.rows, x.id ≠ j.input.deviceID
  rows : devices.rows = w.devices.rows ++ [j.row crypto]
  workspaces : s'.workspaces = (s.put { w with devices }).workspaces
  consumed : s.pairingCodes.Replaces s'.pairingCodes j.code
    (j.code.consumed (unixMillis j.input.now))
  rotationCodes : s'.rotationCodes = s.rotationCodes

section Registrations

variable {crypto : Crypto} {s s' : Registry}

theorem registerPending_takes {input : Registration} {registered : RegisteredDevice}
    (h : registerPending crypto s input = .ok (s', registered)) :
    ∃ (j : Joining) (w : Workspace) (devices : Table Device.id), j.input = input ∧
      j.Takes crypto s ∧ j.Writes crypto s s' w devices ∧
      registered = ⟨j.code.workspaceID, input.deviceID, input.authToken⟩ := by
  simp only [registerPending, bind_eq_ok, exists_unit, reject_eq_ok, require_eq_ok, rethrow_eq_ok,
    pure_eq_ok, Prod.mk.injEq] at h
  obtain ⟨deviceType, htype, -, -, -, secret, hsecret, -, code, hcode, husable, -, challenge,
    hchallenge, hvalid, digest, hdigest, key, -, w, hw, -, devices, hdevices, rfl, rfl⟩ := h
  obtain ⟨hmem, hhash⟩ := Table.find_eq_some.mp hcode
  obtain ⟨hfresh, hrows⟩ := Table.insert_eq_some.mp hdevices
  obtain ⟨hconsumed, hexpired, hdevice, hbound⟩ : code.consumedAtMs = none ∧
      unixMillis input.now < code.expiresAtMs ∧ code.deviceType = deviceType ∧
      ¬ (code.boundName.isSome ∧ code.boundName ≠ some input.deviceName) := by
    simpa [not_or] using husable
  subst hdevice
  refine ⟨⟨input, secret, code, challenge, digest, key⟩, w, devices, rfl, ?_, ?_, rfl⟩
  · refine ⟨hsecret, hmem, hhash, hconsumed, hexpired, htype, fun name hname => ?_, hchallenge, ?_,
      Block.check_eq_some.mp hdigest⟩
    · by_contra hne
      exact hbound ⟨by rw [hname]; rfl, by rw [hname]; exact fun h => hne (Option.some.inj h).symm⟩
    · obtain ⟨hdigest, hdigest', hsecret, hsecret', hafter, hlate⟩ : challenge.digest.length = 32 ∧
          allZero challenge.digest = false ∧ challenge.secret.length = 32 ∧
          allZero challenge.secret = false ∧ challenge.expiresAt.after input.now = true ∧
          challenge.expiresAt.nanos - input.now.nanos ≤ 10 * 60 * 1000000000 := by
        simpa [not_or] using hvalid
      exact ⟨⟨hdigest, hdigest'⟩, ⟨hsecret, hsecret'⟩, hafter, hlate⟩
  · refine ⟨hw, hfresh, hrows, rfl, ?_, rfl⟩
    refine Table.update_replaces (f := (·.consumed (unixMillis input.now))) (fun _ _ => rfl) hmem
      ?_ fun x hx => ?_
    · simp [hhash, PairingCode.usable, hconsumed, hexpired]
    · exact (of_decide_eq_true hx).1.trans hhash.symm

/-- The device that a registration creates. -/
theorem Joining.Writes.device {j : Joining} {w : Workspace} {devices : Table Device.id}
    (h : j.Writes crypto s s' w devices) :
    s'.device j.code.workspaceID j.input.deviceID = some (j.row crypto) := by
  obtain ⟨hmem, hid⟩ := Registry.find_eq_some.mp h.workspace
  refine Registry.device_eq_some.mpr ⟨{ w with devices }, ?_, ?_⟩
  · refine Registry.find_eq_some.mpr ⟨?_, hid⟩
    have hreplaces : s.workspaces.Replaces (s.put { w with devices }).workspaces w
      { w with devices } := Registry.put_replaces hmem rfl
    rw [h.workspaces]
    exact (hreplaces.rows _).mpr (Or.inl rfl)
  · refine Table.find_eq_some.mpr ⟨?_, rfl⟩
    rw [h.rows]
    exact List.mem_concat_self

theorem Joining.Writes.absent {j : Joining} {w : Workspace} {devices : Table Device.id}
    (h : j.Writes crypto s s' w devices) : s.device j.code.workspaceID j.input.deviceID = none := by
  cases hd : s.device j.code.workspaceID j.input.deviceID with
  | none => rfl
  | some d =>
    obtain ⟨v, hv, hd⟩ := Registry.device_eq_some.mp hd
    rw [h.workspace] at hv
    cases hv
    obtain ⟨hmem, hid⟩ := Table.find_eq_some.mp hd
    exact absurd hid (h.fresh d hmem)

end Registrations

/-! ### What a rotation of a credential takes -/

def RotationCode.consumed (code : RotationCode) (nowMillis : Int) : RotationCode :=
  { code with consumedAtMs := some nowMillis }

/-- The row of a device with another token. -/
def Device.rotatedTo (d : Device) (hash : Block 32) : Device :=
  { d with authTokenHash := hash, credentialVersion := d.credentialVersion + 1 }

/-- What a rotation of a credential finds in the registry. -/
structure RotationTakes (crypto : Crypto) (s : Registry) (input : CredentialRotation)
    (secret : Bytes) (code : RotationCode) (w : Workspace) (d : Device) : Prop where
  currentAuthToken : input.currentAuthToken.length = authTokenBytes
  pendingAuthToken : input.pendingAuthToken.length = authTokenBytes
  decodes : decodeBase64URL input.rotationCode = some secret
  issued : code ∈ s.rotationCodes.rows
  hash : code.codeHash = crypto.sha256 secret
  unconsumed : code.consumedAtMs = none
  unexpired : unixMillis input.now < code.expiresAtMs
  workspaceID : code.workspaceID = input.workspaceID
  deviceID : code.deviceID = input.deviceID
  workspace : s.find input.workspaceID = some w
  row : w.devices.find input.deviceID = some d
  token : d.authTokenHash = crypto.sha256 input.currentAuthToken
  member : d.membershipState = .approved ∧ d.revokedAtMs = none

/-- What it writes. -/
structure RotationWrites (crypto : Crypto) (s s' : Registry) (input : CredentialRotation)
    (code : RotationCode) (w : Workspace) (d : Device) (devices : Table Device.id) : Prop where
  rows : w.devices.Replaces devices d (d.rotatedTo (crypto.sha256 input.pendingAuthToken))
  workspaces : s'.workspaces = (s.put { w with devices }).workspaces
  consumed : s.rotationCodes.Replaces s'.rotationCodes code (code.consumed (unixMillis input.now))
  pairingCodes : s'.pairingCodes = s.pairingCodes

section Rotations

variable {crypto : Crypto} {s s' : Registry} {input : CredentialRotation}

theorem rotateCredential_takes {version : Nat}
    (h : rotateCredential crypto s input = .ok (s', version)) :
    ∃ (secret : Bytes) (code : RotationCode) (w : Workspace) (d : Device)
        (devices : Table Device.id), RotationTakes crypto s input secret code w d ∧
      RotationWrites crypto s s' input code w d devices := by
  simp only [rotateCredential, bind_eq_ok, exists_unit, reject_eq_ok, require_eq_ok, pure_eq_ok,
    Prod.mk.injEq, ne_eq, Decidable.not_not] at h
  obtain ⟨harguments, secret, hsecret, -, code, hcode, w, hw, d, hd, hconditions, -, -, haffected,
    rfl, -⟩ := h
  simp only [not_or, Decidable.not_not] at harguments
  obtain ⟨hmem, hhash⟩ := Table.find_eq_some.mp hcode
  obtain ⟨hconsumed, -, hexpired, hworkspace, hdevice, htoken, -⟩ : code.consumedAtMs = none ∧
      d.revokedAtMs = none ∧ unixMillis input.now < code.expiresAtMs ∧
      code.workspaceID = input.workspaceID ∧ code.deviceID = input.deviceID ∧
      d.authTokenHash = crypto.sha256 input.currentAuthToken ∧ ¬ d.credentialVersion < 1 := by
    simpa [not_or] using hconditions
  rw [hworkspace] at hw
  rw [hdevice] at hd
  obtain ⟨hdmem, hid⟩ := Table.find_eq_some.mp hd
  -- the row that the `UPDATE` affects is the one that was read
  obtain ⟨x, hx, hchosen⟩ := Table.exists_of_affected haffected
  obtain rfl : x = d := Table.eq_of_key hx hdmem ((of_decide_eq_true hchosen).1.trans hid.symm)
  have hmember := (of_decide_eq_true hchosen).2.2.2
  refine ⟨secret, code, w, x, _, ⟨harguments.1, harguments.2.1, hsecret, hmem, hhash, hconsumed,
    hexpired, hworkspace, hdevice, hw, hd, htoken, hmember.2, hmember.1⟩, ⟨?_, rfl, ?_, rfl⟩⟩
  · exact Table.update_replaces _ hdmem hchosen
      fun y hy => (of_decide_eq_true hy).1.trans hid.symm
  · refine Table.update_replaces (f := (·.consumed (unixMillis input.now))) (fun _ _ => rfl) hmem
      ?_ fun y hy => ?_
    · simp [hhash, hconsumed, hexpired]
    · exact (of_decide_eq_true hy).1.trans hhash.symm

/-- The row of the device after the rotation. -/
theorem RotationWrites.device {secret : Bytes} {code : RotationCode} {w : Workspace} {d : Device}
    {devices : Table Device.id} (h : RotationWrites crypto s s' input code w d devices)
    (ht : RotationTakes crypto s input secret code w d) :
    s'.device input.workspaceID input.deviceID =
      some (d.rotatedTo (crypto.sha256 input.pendingAuthToken)) := by
  obtain ⟨hmem, hid⟩ := Registry.find_eq_some.mp ht.workspace
  refine Registry.device_eq_some.mpr ⟨{ w with devices }, ?_, ?_⟩
  · have hreplaces : s.workspaces.Replaces (s.put { w with devices }).workspaces w
      { w with devices } := Registry.put_replaces hmem rfl
    refine Registry.find_eq_some.mpr ⟨?_, hid⟩
    rw [h.workspaces]
    exact (hreplaces.rows _).mpr (Or.inl rfl)
  · refine Table.find_eq_some.mpr ⟨(h.rows.rows _).mpr (Or.inl rfl), ?_⟩
    exact (Table.find_eq_some.mp ht.row).2

end Rotations

/-! ### Codes are used once -/

def PairingCode.spent (code : PairingCode) : Bool := code.consumedAtMs.isSome

def RotationCode.spent (code : RotationCode) : Bool := code.consumedAtMs.isSome

/-- The hash of the pairing code that a call presents, in whatever text. -/
def Call.pairingHash (crypto : Crypto) : Call → Option (Block 32)
  | .registerPending input => (decodeBase64URL input.pairingCode).map crypto.sha256
  | _ => none

/-- The hash of the rotation code that a call presents. -/
def Call.rotationHash (crypto : Crypto) : Call → Option (Block 32)
  | .rotateCredential input => (decodeBase64URL input.rotationCode).map crypto.sha256
  | _ => none

section Codes

variable {crypto : Crypto} {s s' : Registry}

/-- What a committed call does to the codes. -/
inductive CodesChange (crypto : Crypto) (s : Registry) (s' : Registry) : Call → Prop
  | none {call : Call} : call.pairingHash crypto = .none → call.rotationHash crypto = .none →
      s'.pairingCodes = s.pairingCodes → s'.rotationCodes = s.rotationCodes →
      CodesChange crypto s s' call
  | issuesPairing (input : IssuePairingCode) (code : PairingCode) :
      s'.pairingCodes.rows = s.pairingCodes.rows ++ [code] → code.consumedAtMs = .none →
      s.find code.workspaceID ≠ .none → s'.rotationCodes = s.rotationCodes →
      CodesChange crypto s s' (.issuePairingCode input)
  | registers (j : Joining) (w : Workspace) (devices : Table Device.id) : j.Takes crypto s →
      j.Writes crypto s s' w devices → CodesChange crypto s s' (.registerPending j.input)
  | issuesRotation (input : IssueRotationCode) (code : RotationCode) :
      s'.rotationCodes.rows = s.rotationCodes.rows ++ [code] → code.consumedAtMs = .none →
      s'.pairingCodes = s.pairingCodes →
      CodesChange crypto s s' (.issueCredentialRotationCode input)
  | rotates (input : CredentialRotation) (secret : Bytes) (code : RotationCode) (w : Workspace)
      (d : Device) (devices : Table Device.id) : RotationTakes crypto s input secret code w d →
      RotationWrites crypto s s' input code w d devices →
      CodesChange crypto s s' (.rotateCredential input)

theorem commit_changes {call : Call} (h : commit crypto s call = .ok s') :
    CodesChange crypto s s' call := by
  cases call with
  | createWorkspace key now id =>
    simp only [commit, createWorkspace, bind_eq_ok, exists_unit, reject_eq_ok, require_eq_ok,
      pure_eq_ok] at h
    obtain ⟨-, workspaces, -, rfl⟩ := h
    exact .none rfl rfl rfl rfl
  | issuePairingCode input =>
    obtain ⟨⟨s', text⟩, hok, rfl⟩ := map_eq_ok.mp h
    simp only [issuePairingCode, bind_eq_ok, require_eq_ok] at hok
    obtain ⟨deviceType, -, hok⟩ := hok
    -- the name is checked in only one of the branches
    split at hok <;>
      simp only [bind_eq_ok, exists_unit, reject_eq_ok, require_eq_ok, pure_eq_ok,
        Prod.mk.injEq, Option.isNone_iff_eq_none] at hok
    · obtain ⟨-, -, hfound, codes, hcodes, rfl, -⟩ := hok
      exact .issuesPairing input _ (Table.insert_eq_some.mp hcodes).2 rfl hfound rfl
    · obtain ⟨-, hfound, codes, hcodes, rfl, -⟩ := hok
      exact .issuesPairing input _ (Table.insert_eq_some.mp hcodes).2 rfl hfound rfl
  | registerPending input =>
    obtain ⟨⟨s', registered⟩, hok, rfl⟩ := map_eq_ok.mp h
    obtain ⟨j, w, devices, rfl, htakes, hwrites, -⟩ := registerPending_takes hok
    exact .registers j w devices htakes hwrites
  | completePendingIdentityProof input =>
    simp only [commit, completePendingIdentityProof, bind_eq_ok, exists_unit, reject_eq_ok,
      require_eq_ok, pure_eq_ok] at h
    obtain ⟨-, w, -, -, rfl⟩ := h
    exact .none rfl rfl rfl rfl
  | approvePendingMembership input =>
    obtain ⟨⟨s', change⟩, hok, rfl⟩ := map_eq_ok.mp h
    simp only [approvePendingMembership, bind_eq_ok, exists_unit, reject_eq_ok, require_eq_ok,
      pure_eq_ok, Prod.mk.injEq] at hok
    obtain ⟨-, w, -, deviceID, -, ⟨w', change'⟩, -, rfl, -⟩ := hok
    exact .none rfl rfl rfl rfl
  | renameDevice input =>
    obtain ⟨⟨s', change⟩, hok, rfl⟩ := map_eq_ok.mp h
    simp only [renameDevice, bind_eq_ok, exists_unit, require_eq_ok, pure_eq_ok,
      Prod.mk.injEq] at hok
    obtain ⟨-, w, -, deviceID, -, ⟨w', change'⟩, -, rfl, -⟩ := hok
    exact .none rfl rfl rfl rfl
  | revokeDevice input =>
    obtain ⟨⟨s', revoked⟩, hok, rfl⟩ := map_eq_ok.mp h
    simp only [revokeDevice, bind_eq_ok, require_eq_ok, pure_eq_ok, Prod.mk.injEq] at hok
    obtain ⟨w, -, deviceID, -, ⟨w', revoked'⟩, -, rfl, -⟩ := hok
    exact .none rfl rfl rfl rfl
  | rotateWorkspaceAuthority input =>
    obtain ⟨⟨s', rotated⟩, hok, rfl⟩ := map_eq_ok.mp h
    simp only [rotateWorkspaceAuthority, bind_eq_ok, exists_unit, reject_eq_ok, require_eq_ok,
      pure_eq_ok, Prod.mk.injEq] at hok
    obtain ⟨-, -, w, -, ⟨w', rotated'⟩, -, rfl, -⟩ := hok
    exact .none rfl rfl rfl rfl
  | issueCredentialRotationCode input =>
    obtain ⟨⟨s', text⟩, hok, rfl⟩ := map_eq_ok.mp h
    simp only [issueCredentialRotationCode, bind_eq_ok, exists_unit, reject_eq_ok, require_eq_ok,
      pure_eq_ok, Prod.mk.injEq] at hok
    obtain ⟨-, w, -, id, -, -, codes, hcodes, rfl, -⟩ := hok
    exact .issuesRotation input _ (Table.insert_eq_some.mp hcodes).2 rfl rfl
  | rotateCredential input =>
    obtain ⟨⟨s', version⟩, hok, rfl⟩ := map_eq_ok.mp h
    obtain ⟨secret, code, w, d, devices, htakes, hwrites⟩ := rotateCredential_takes hok
    exact .rotates input secret code w d devices htakes hwrites

theorem CodesChange.pairingCodes {call : Call} (h : CodesChange crypto s s' call) :
    CodeStep PairingCode.spent s.pairingCodes s'.pairingCodes (call.pairingHash crypto) := by
  cases h with
  | none hpairing _ hsame _ =>
    rw [hpairing]
    exact .same hsame
  | issuesPairing _ code hrows hunused =>
    exact .issued code (by simp [PairingCode.spent, hunused]) hrows
  | registers j w devices htakes hwrites =>
    have hspent : CodeStep PairingCode.spent s.pairingCodes s'.pairingCodes (some j.code.codeHash) :=
      .spent j.code (j.code.consumed (unixMillis j.input.now))
        (by simp [PairingCode.spent, htakes.unconsumed]) rfl hwrites.consumed
    simpa only [Call.pairingHash, htakes.decodes, Option.map_some, ← htakes.hash] using hspent
  | issuesRotation _ _ _ _ hsame => exact .same hsame
  | rotates _ _ _ _ _ _ _ hwrites => exact .same hwrites.pairingCodes

theorem CodesChange.rotationCodes {call : Call} (h : CodesChange crypto s s' call) :
    CodeStep RotationCode.spent s.rotationCodes s'.rotationCodes (call.rotationHash crypto) := by
  cases h with
  | none _ hrotation _ hsame =>
    rw [hrotation]
    exact .same hsame
  | issuesPairing _ _ _ _ _ hsame => exact .same hsame
  | registers _ _ _ _ hwrites => exact .same hwrites.rotationCodes
  | issuesRotation _ code hrows hunused =>
    exact .issued code (by simp [RotationCode.spent, hunused]) hrows
  | rotates input secret code w d devices htakes hwrites =>
    have hspent : CodeStep RotationCode.spent s.rotationCodes s'.rotationCodes (some code.codeHash) :=
      .spent code (code.consumed (unixMillis input.now))
        (by simp [RotationCode.spent, htakes.unconsumed]) rfl hwrites.consumed
    simpa only [Call.rotationHash, htakes.decodes, Option.map_some, ← htakes.hash] using hspent

/-- The workspace of every pairing code is one of the registry. -/
theorem Reachable.pairingCode_workspace (hs : Reachable crypto s) {code : PairingCode}
    (hcode : code ∈ s.pairingCodes.rows) : ∃ w, s.find code.workspaceID = some w := by
  refine hs.invariant (I := fun s => ∀ code ∈ s.pairingCodes.rows,
    ∃ w, s.find code.workspaceID = some w) (fun _ h => absurd h List.not_mem_nil) ?_ code hcode
  intro t t' call ht hcodes hcommit x hx
  have hfound {id : WorkspaceID} (h : ∃ w, t.find id = some w) : ∃ w, t'.find id = some w := by
    obtain ⟨w, hw⟩ := h
    obtain ⟨w', hw', -⟩ := (commit_step ht.chained hcommit).workspace hw
    exact ⟨w', hw'⟩
  cases commit_changes hcommit with
  | none _ _ hsame _ => exact hfound (hcodes x (hsame ▸ hx))
  | issuesPairing _ code hrows _ hworkspace =>
    rw [hrows, List.mem_append, List.mem_singleton] at hx
    rcases hx with hx | rfl
    · exact hfound (hcodes x hx)
    · exact hfound (Option.ne_none_iff_exists'.mp hworkspace)
  | registers j w devices htakes hwrites =>
    rcases (hwrites.consumed.rows x).mp hx with rfl | ⟨hx, -⟩
    · exact hfound (hcodes j.code htakes.code)
    · exact hfound (hcodes x hx)
  | issuesRotation _ _ _ _ hsame => exact hfound (hcodes x (hsame ▸ hx))
  | rotates _ _ _ _ _ _ _ hwrites => exact hfound (hcodes x (hwrites.pairingCodes ▸ hx))

/-- The hash of the code that an attempt used. -/
def usedHash (hash : Call → Option (Block 32)) (e : Attempt × Outcome) : Option (Block 32) :=
  if e.2 = .committed then hash e.1.call else none

theorem attempts_pairingCodes (s : Registry) (a : Attempt) :
    CodeStep PairingCode.spent s.pairingCodes ((attempts crypto).step s a).1.pairingCodes
      (usedHash (·.pairingHash crypto) (a, ((attempts crypto).step s a).2)) := by
  rcases attempts_cases crypto s a with ⟨s', hcommit, hstep⟩ | ⟨hsame, hother⟩
  · rw [hstep, usedHash, if_pos rfl]
    exact (commit_changes hcommit).pairingCodes
  · rw [hsame, usedHash, if_neg hother]
    exact .same rfl

theorem attempts_rotationCodes (s : Registry) (a : Attempt) :
    CodeStep RotationCode.spent s.rotationCodes ((attempts crypto).step s a).1.rotationCodes
      (usedHash (·.rotationHash crypto) (a, ((attempts crypto).step s a).2)) := by
  rcases attempts_cases crypto s a with ⟨s', hcommit, hstep⟩ | ⟨hsame, hother⟩
  · rw [hstep, usedHash, if_pos rfl]
    exact (commit_changes hcommit).rotationCodes
  · rw [hsame, usedHash, if_neg hother]
    exact .same rfl

end Codes

/-! ### Pairing codes -/

/-- The attempt commits a registration, with a text of the secret. -/
def registersWith (secret : Bytes) (e : Attempt × Outcome) : Bool :=
  match e.1.call with
  | .registerPending input =>
    e.2 = .committed ∧ decodeBase64URL input.pairingCode = some secret
  | _ => false

/-- What a registration with the code asks of everything but the code: the values that the device
sends, the challenge that the factory makes, and the values that the server draws. -/
structure Registration.Acceptable (crypto : Crypto) (s : Registry) (code : PairingCode)
    (input : Registration) : Prop where
  deviceType : input.deviceType = some code.deviceType
  boundName : ∀ name, code.boundName = some name → input.deviceName = name
  deviceName : validateDeviceName input.deviceName = .ok ()
  e2eePublicKey : input.e2eePublicKey.length = 65 ∧ input.e2eePublicKey.head? = some 0x04 ∧
    crypto.onCurve input.e2eePublicKey = true
  challenge : ∃ challenge, input.createChallenge code.workspaceID input.deviceID = some challenge ∧
    challenge.Valid input.now
  authToken : s.tokenTaken (crypto.sha256 input.authToken.bytes) = false
  deviceID : s.device code.workspaceID input.deviceID = none

section Pairing

variable {crypto : Crypto} {s s' : Registry}

theorem usedHash_of_registersWith {secret : Bytes} {e : Attempt × Outcome}
    (h : registersWith secret e = true) :
    usedHash (·.pairingHash crypto) e = some (crypto.sha256 secret) := by
  unfold registersWith at h
  split at h
  · rename_i input hcall
    obtain ⟨hcommitted, hdecodes⟩ := of_decide_eq_true h
    rw [usedHash, if_pos hcommitted, hcall, Call.pairingHash, hdecodes]
    rfl
  · cases h

theorem registersWith_at_most_once (s : Registry) (events : List Attempt) (secret : Bytes) :
    ((attempts crypto).trace s events).countP (registersWith secret) ≤ 1 := by
  refine Nat.le_trans (List.countP_mono_left fun e _ h => ?_)
    (spends_at_most_once attempts_pairingCodes s events (crypto.sha256 secret))
  exact decide_eq_true (usedHash_of_registersWith h)

/-- A code that is not consumed registers a device, up to its expiry. -/
theorem Reachable.registers (hs : Reachable crypto s) {code : PairingCode} {secret : Block 24}
    {input : Registration} (hcode : code ∈ s.pairingCodes.rows) (hunused : code.consumedAtMs = none)
    (hhash : code.codeHash = crypto.sha256 secret.bytes)
    (hsecret : decodeBase64URL input.pairingCode = some secret.bytes)
    (hnow : unixMillis input.now < code.expiresAtMs) (hinput : input.Acceptable crypto s code) :
    ((attempts crypto).step s ⟨.registerPending input, false⟩).2 = .committed := by
  obtain ⟨w, hw⟩ := hs.pairingCode_workspace hcode
  obtain ⟨challenge, hchallenge, hvalid⟩ := hinput.challenge
  have hfresh : ∀ x ∈ w.devices.rows, x.id ≠ input.deviceID := by
    intro x hx hid
    have hrow : s.device code.workspaceID input.deviceID = some x :=
      Registry.device_eq_some.mpr ⟨w, hw, Table.find_eq_some.mpr ⟨hx, hid⟩⟩
    rw [hinput.deviceID] at hrow
    cases hrow
  obtain ⟨s', registered, -, -, hok, -⟩ := registerPending_succeeds input code secret challenge hcode
    hhash hsecret hinput.deviceType hinput.boundName ⟨hunused, hnow⟩ hinput.deviceName
    hinput.e2eePublicKey hchallenge hvalid hw hinput.authToken hfresh
  simp [attempts, commit, hok, Except.map]

end Pairing

/-- A pairing code registers at most one device, in whatever text it is presented.  The device is of
the workspace and the type of the code, has the name that the code is bound to, and joins before the
code expires.  A registration that does not commit changes nothing, so that a code that nobody used
registers a device until it expires. -/
theorem pairing_code_registers_one_device (crypto : Crypto) (s : Registry) (hs : Reachable crypto s)
    (events : List Attempt) :
    (∀ secret, ((attempts crypto).trace s events).countP (registersWith secret) ≤ 1) ∧
    (∀ input aborted, ((attempts crypto).step ((attempts crypto).run s events)
        ⟨.registerPending input, aborted⟩).2 = .committed →
      ∃ secret, ∃ code ∈ ((attempts crypto).run s events).pairingCodes.rows,
        decodeBase64URL input.pairingCode = some secret ∧ code.codeHash = crypto.sha256 secret ∧
        code.consumedAtMs = none ∧
        ((attempts crypto).run s events).device code.workspaceID input.deviceID = none ∧
        ∃ d, ((attempts crypto).step ((attempts crypto).run s events)
            ⟨.registerPending input, aborted⟩).1.device code.workspaceID input.deviceID = some d ∧
          d.deviceType = code.deviceType ∧
          (∀ name, code.boundName = some name → d.deviceName = name) ∧
          d.registeredAtMs = unixMillis input.now ∧ d.registeredAtMs < code.expiresAtMs) ∧
    (∀ a, ((attempts crypto).step ((attempts crypto).run s events) a).2 ≠ .committed →
      ((attempts crypto).step ((attempts crypto).run s events) a).1 =
        (attempts crypto).run s events) ∧
    (∀ code ∈ s.pairingCodes.rows, code.consumedAtMs = none →
      ∀ secret : Block 24, code.codeHash = crypto.sha256 secret.bytes →
      (∀ e ∈ (attempts crypto).trace s events,
        usedHash (·.pairingHash crypto) e ≠ some code.codeHash) →
      code ∈ ((attempts crypto).run s events).pairingCodes.rows ∧
      ∀ input, decodeBase64URL input.pairingCode = some secret.bytes →
        unixMillis input.now < code.expiresAtMs →
        input.Acceptable crypto ((attempts crypto).run s events) code →
        ((attempts crypto).step ((attempts crypto).run s events)
          ⟨.registerPending input, false⟩).2 = .committed) := by
  refine ⟨registersWith_at_most_once s events, fun input aborted hcommitted => ?_,
    fun a => attempts_failed, fun code hcode hunused secret hhash hother => ?_⟩
  · obtain ⟨t', hstep⟩ : ∃ t', (attempts crypto).step ((attempts crypto).run s events)
        ⟨.registerPending input, aborted⟩ = (t', .committed) := ⟨_, Prod.ext rfl hcommitted⟩
    obtain ⟨⟨t'', registered⟩, hok, rfl⟩ := map_eq_ok.mp (attempts_committed hstep)
    obtain ⟨j, w, devices, rfl, htakes, hwrites, -⟩ := registerPending_takes hok
    rw [hstep]
    refine ⟨j.secret, j.code, htakes.code, htakes.decodes, htakes.hash, htakes.unconsumed, ?_,
      j.row crypto, hwrites.device, rfl, htakes.name, rfl, htakes.unexpired⟩
    exact hwrites.absent
  · have hrow := unspent_row attempts_pairingCodes s events hcode hother
    exact ⟨hrow, fun input hsecret hnow hinput =>
      (hs.attempted events).registers hrow hunused hhash hsecret hnow hinput⟩

/-- A workspace with a pairing code. -/
def pairedRegistry : Registry :=
  (store sampleCrypto).run .empty (sampleCreation :: (enroll 1).take 1)

/-- A registration whose factory fails, and one that is aborted. -/
def failedAttempts : List Attempt :=
  [⟨.registerPending { sampleRegistration 1 with createChallenge := fun _ _ => none }, false⟩,
   ⟨.registerPending (sampleRegistration 1), true⟩]

theorem pairing_code_registers_one_device_failed :
    ((attempts sampleCrypto).trace pairedRegistry failedAttempts).map (·.2) =
      [.failed .challenge, .aborted] ∧
    ((attempts sampleCrypto).step ((attempts sampleCrypto).run pairedRegistry failedAttempts)
      ⟨.registerPending (sampleRegistration 1), false⟩).2 = .committed := by
  obtain ⟨code, hcode, hhash, hunused, htype, hname, hid, hexpires⟩ :
      ∃ code ∈ pairedRegistry.pairingCodes.rows,
        code.codeHash = sampleCrypto.sha256 (numbered 23 1).bytes ∧ code.consumedAtMs = none ∧
        code.deviceType = .android ∧ code.boundName = none ∧ code.workspaceID = sampleWorkspace ∧
        unixMillis sampleInstant < code.expiresAtMs := by
    decide +kernel
  have hinput : (sampleRegistration 1).Acceptable sampleCrypto
      ((attempts sampleCrypto).run pairedRegistry failedAttempts) code := by
    refine ⟨?_, ?_, by decide +kernel, by decide +kernel, ⟨_, rfl, ?_⟩, by decide +kernel, ?_⟩
    · rw [htype]
      rfl
    · rw [hname]
      intro name h
      cases h
    · exact ⟨by decide +kernel, by decide +kernel, by decide +kernel, by decide +kernel⟩
    · rw [hid]
      decide +kernel
  have hother : ∀ e ∈ (attempts sampleCrypto).trace pairedRegistry failedAttempts,
      usedHash (·.pairingHash sampleCrypto) e ≠ some code.codeHash := by
    rw [hhash]
    decide +kernel
  exact ⟨by decide +kernel, ((pairing_code_registers_one_device sampleCrypto pairedRegistry ⟨_, rfl⟩
    failedAttempts).2.2.2 code hcode hunused (numbered 23 1) hhash hother).2
    (sampleRegistration 1) (by decide +kernel) hexpires hinput⟩

end SevenMirror.Admission
