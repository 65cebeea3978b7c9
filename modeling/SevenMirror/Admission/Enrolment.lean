import SevenMirror.Admission.Succession

/-! Joining succeeds, and a registry grows by any number of devices: the calls that lead a device to
its approval can be repeated, with new codes, tokens, and identifiers, up to the limits of a roster. -/

namespace SevenMirror.Admission

open Lib MembershipCodec

/-! ### Joining -/

section Joining

variable {crypto : Crypto} {s s' : Registry} {w : Workspace} {d : Device}

theorem createWorkspace_succeeds (key : Block 32) (now : Time) (id : WorkspaceID)
    (hkey : allZero key.bytes = false) (hfresh : ∀ w ∈ s.workspaces.rows, w.id ≠ id) :
    ∃ s', createWorkspace s key now id = .ok s' ∧
      s'.workspaces.rows = s.workspaces.rows ++ [newWorkspace id key now] ∧
      s'.pairingCodes = s.pairingCodes := by
  obtain ⟨workspaces, hinsert, hrows⟩ :=
    Table.insert_of_fresh (t := s.workspaces) (r := newWorkspace id key now) hfresh
  refine ⟨{ s with workspaces }, ?_, hrows, rfl⟩
  simp only [createWorkspace, bind_eq_ok, exists_unit, reject_eq_ok, require_eq_ok, pure_eq_ok, hkey]
  exact ⟨Bool.false_ne_true, workspaces, hinsert, rfl⟩

/-- The row of a code for any name. -/
def IssuePairingCode.row (crypto : Crypto) (input : IssuePairingCode) (deviceType : DeviceType) :
    PairingCode where
  codeHash := crypto.sha256 input.secret.bytes
  workspaceID := input.workspaceID
  deviceType := deviceType
  boundName := none
  createdAtMs := unixMillis input.now
  expiresAtMs := unixMillis ⟨input.now.nanos + input.ttl⟩

variable (crypto) in
theorem issuePairingCode_succeeds (input : IssuePairingCode) {deviceType : DeviceType}
    (hw : s.find input.workspaceID = some w) (htype : input.deviceType = some deviceType)
    (hname : input.boundName = []) (httl : 0 < input.ttl ∧ input.ttl ≤ day)
    (hfresh : ∀ c ∈ s.pairingCodes.rows, c.codeHash ≠ crypto.sha256 input.secret.bytes) :
    ∃ pairingCodes, issuePairingCode crypto s input =
        .ok ({ s with pairingCodes }, encodeBase64URL input.secret.bytes) ∧
      pairingCodes.rows = s.pairingCodes.rows ++ [input.row crypto deviceType] := by
  obtain ⟨pairingCodes, hinsert, hrows⟩ :=
    Table.insert_of_fresh (t := s.pairingCodes) (r := input.row crypto deviceType) hfresh
  refine ⟨pairingCodes, ?_, hrows⟩
  rw [IssuePairingCode.row] at hinsert
  have hlifetime : ¬ (input.ttl ≤ 0 ∨ input.ttl > day) := by omega
  simp only [issuePairingCode, htype, hname, hw, hinsert, reject, if_neg hlifetime, require, ne_eq,
    not_true_eq_false, if_false, if_true, ok_bind, Option.isNone_some, Bool.false_eq_true]
  rfl

/-- What `registerPending` requires of a challenge. -/
structure PendingChallenge.Valid (c : PendingChallenge) (now : Time) : Prop where
  digest : c.digest.length = 32 ∧ allZero c.digest = false
  secret : c.secret.length = 32 ∧ allZero c.secret = false
  expires : c.expiresAt.after now = true ∧
    c.expiresAt.nanos - now.nanos ≤ 10 * 60 * 1000000000

/-- The row of a device that is to prove its identity with the challenge. -/
structure Device.Challenged (crypto : Crypto) (d : Device) (input : Registration)
    (challenge : PendingChallenge) : Prop where
  id : d.id = input.deviceID
  token : d.authTokenHash = crypto.sha256 input.authToken.bytes
  state : d.membershipState = .pendingProof
  unrevoked : d.revokedAtMs = none
  expires : d.proofExpiresAtMs = some (unixMillis challenge.expiresAt)
  digest : d.proofChallengeDigest.map (·.bytes) = some challenge.digest
  secret : d.proofSecretHash = some (crypto.sha256 challenge.secret)

/-- A device registers with a code that is not consumed and not expired. -/
theorem registerPending_succeeds (input : Registration) (code : PairingCode) (secret : Block 24)
    (challenge : PendingChallenge) (hcode : code ∈ s.pairingCodes.rows)
    (hhash : code.codeHash = crypto.sha256 secret.bytes)
    (hsecret : decodeBase64URL input.pairingCode = some secret.bytes)
    (htype : input.deviceType = some code.deviceType)
    (hbound : ∀ name, code.boundName = some name → input.deviceName = name)
    (husable : code.consumedAtMs = none ∧ unixMillis input.now < code.expiresAtMs)
    (hname : validateDeviceName input.deviceName = .ok ())
    (hkey : input.e2eePublicKey.length = 65 ∧ input.e2eePublicKey.head? = some 0x04 ∧
      crypto.onCurve input.e2eePublicKey = true)
    (hchallenge : input.createChallenge code.workspaceID input.deviceID = some challenge)
    (hvalid : challenge.Valid input.now) (hw : s.find code.workspaceID = some w)
    (htoken : s.tokenTaken (crypto.sha256 input.authToken.bytes) = false)
    (hid : ∀ x ∈ w.devices.rows, x.id ≠ input.deviceID) :
    ∃ s' registered d devices, registerPending crypto s input = .ok (s', registered) ∧
      s'.workspaces = (s.put { w with devices }).workspaces ∧
      devices.rows = w.devices.rows ++ [d] ∧ d.Challenged crypto input challenge ∧
      s'.pairingCodes.rows.map (·.codeHash) = s.pairingCodes.rows.map (·.codeHash) := by
  obtain ⟨digest, hdigest⟩ := Block.check_of_size hvalid.digest.1
  obtain ⟨key, hpoint⟩ := Block.check_of_size hkey.1
  obtain ⟨devices, hinsert, hrows⟩ := Table.insert_of_fresh (t := w.devices) (r :=
    { id := input.deviceID, deviceType := code.deviceType, deviceName := input.deviceName
      authTokenHash := crypto.sha256 input.authToken.bytes, e2eePublicKey := key
      registeredAtMs := unixMillis input.now, membershipState := .pendingProof
      proofChallengeDigest := some digest
      proofSecretHash := some (crypto.sha256 challenge.secret)
      proofExpiresAtMs := some (unixMillis challenge.expiresAt) }) hid
  have hfind : s.pairingCodes.find (crypto.sha256 secret.bytes) = some code :=
    Table.find_eq_some.mpr ⟨hcode, hhash⟩
  obtain ⟨pairingCodes, hconsumed⟩ : ∃ pairingCodes, pairingCodes = s.pairingCodes.update
      (fun c => c.codeHash = crypto.sha256 secret.bytes ∧ c.usable (unixMillis input.now))
      (fun c => { c with consumedAtMs := some (unixMillis input.now) }) (fun _ _ => rfl) := ⟨_, rfl⟩
  refine ⟨{ s with pairingCodes }.put { w with devices },
    ⟨code.workspaceID, input.deviceID, input.authToken⟩, _, devices, ?_, rfl, hrows,
    ⟨rfl, rfl, rfl, rfl, rfl, ?_, rfl⟩, ?_⟩
  case refine_1 =>
    simp only [registerPending, bind_eq_ok, exists_unit, reject_eq_ok, require_eq_ok, rethrow_eq_ok,
      pure_eq_ok, hconsumed]
    refine ⟨code.deviceType, htype, hname, by simp [hkey.1, hkey.2.1], by simp [hkey.2.2],
      secret.bytes, hsecret, by simp [secret.size, pairingSecretBytes], code, hfind, ?_, ?_,
      challenge, hchallenge, ?_, digest, hdigest, key, hpoint, w, hw, by simp [htoken], devices,
      hinsert, rfl⟩
    · refine not_or.mpr ⟨by simp [husable.1], not_or.mpr ⟨by omega, not_or.mpr ⟨by simp, ?_⟩⟩⟩
      rintro ⟨hsome, hother⟩
      obtain ⟨name, hname⟩ := Option.isSome_iff_exists.mp hsome
      exact hother (by rw [hname, hbound name hname])
    · simp only [ne_eq, not_not]
      refine Table.affected_eq_one hcode ?_ fun x hx => ?_
      · simp [hhash, PairingCode.usable, husable]
      · exact (of_decide_eq_true hx).1.trans hhash.symm
    · have hlate := hvalid.expires.2
      simp only [hvalid.digest, hvalid.secret, hvalid.expires.1, not_or, not_true_eq_false, ne_eq,
        Bool.false_eq_true, not_false_eq_true, true_and]
      omega
  case refine_2 => simp [Block.check_eq_some.mp hdigest]
  case refine_3 =>
    simp only [Registry.put, hconsumed, Table.update, List.map_map]
    refine List.map_congr_left fun x _ => ?_
    simp only [Function.comp_apply]
    split <;> rfl

/-- The row of a device after its proof. -/
def Device.provenAt (d : Device) (now : Time) : Device :=
  { d with
    membershipState := .pendingApproval, proofCompletedAtMs := some (unixMillis now)
    proofSecretHash := none }

theorem completePendingIdentityProof_succeeds {input : Registration} {challenge : PendingChallenge}
    (now : Time) (hw : s.find w.id = some w) (hd : d ∈ w.devices.rows)
    (hchallenged : d.Challenged crypto input challenge) (hvalid : challenge.Valid input.now)
    (hnow : unixMillis now < unixMillis challenge.expiresAt) :
    ∃ devices, completePendingIdentityProof crypto s
        ⟨w.id, d.id, input.authToken.bytes, challenge.digest, challenge.secret, now⟩ =
          .ok (s.put { w with devices }) ∧
      w.devices.Replaces devices d (d.provenAt now) := by
  have hproven : decide (d.id = d.id ∧ d.authTokenHash = crypto.sha256 input.authToken.bytes ∧
      d.membershipState = .pendingProof ∧ d.revokedAtMs = none ∧
      (d.proofExpiresAtMs.any fun expiresAt => expiresAt > unixMillis now) ∧
      d.proofChallengeDigest.map (·.bytes) = some challenge.digest ∧
      d.proofSecretHash = some (crypto.sha256 challenge.secret)) = true := by
    simp [hchallenged.token, hchallenged.state, hchallenged.unrevoked, hchallenged.expires,
      hchallenged.digest, hchallenged.secret, hnow]
  refine ⟨_, ?_, Table.update_replaces (p := fun x => decide (x.id = d.id ∧
    x.authTokenHash = crypto.sha256 input.authToken.bytes ∧ x.membershipState = .pendingProof ∧
    x.revokedAtMs = none ∧ (x.proofExpiresAtMs.any fun expiresAt => expiresAt > unixMillis now) ∧
    x.proofChallengeDigest.map (·.bytes) = some challenge.digest ∧
    x.proofSecretHash = some (crypto.sha256 challenge.secret))) (f := (·.provenAt now))
    (fun _ _ => rfl) hd hproven fun x hx => (of_decide_eq_true hx).1⟩
  simp only [completePendingIdentityProof, bind_eq_ok, exists_unit, reject_eq_ok, require_eq_ok,
    pure_eq_ok]
  refine ⟨?_, w, hw, ?_, rfl⟩
  · simp [input.authToken.size, hvalid.digest.1, hvalid.secret.1, authTokenBytes]
  · simp only [ne_eq, not_not]
    exact Table.affected_eq_one hd hproven fun x hx => (of_decide_eq_true hx).1

end Joining

/-! ### Numbered identifiers -/

/-- Ones, and the number in the last two bytes. -/
def counted (ones n : Nat) : Block (ones + 2) :=
  ⟨List.replicate ones (UInt8.ofNat 1) ++ toBigEndian 2 n, by simp⟩

theorem counted_inj {ones a b : Nat} (ha : a < byteSpan 2) (hb : b < byteSpan 2)
    (h : (counted ones a).bytes = (counted ones b).bytes) : a = b :=
  toBigEndian_inj ha hb (List.append_cancel_left h)

theorem counted_nonzero (ones n : Nat) : allZero (counted (ones + 1) n).bytes = false := by
  simp [counted, allZero, List.replicate_succ]

/-- The last twelve bytes. -/
theorem drop_counted (ones n : Nat) :
    (counted (ones + 10) n).bytes =
      List.replicate ones (UInt8.ofNat 1) ++ (counted 10 n).bytes := by
  simp only [counted, ← List.append_assoc, List.replicate_append_replicate]

/-- A text under no domain is told apart by its last bytes. -/
theorem digestContent_tail {front tail : Bytes} (htail : tail.length = 12)
    (hcertificate : inDomain certificateIDDomain (front ++ tail) = false)
    (hroster : inDomain rosterDigestDomain (front ++ tail) = false)
    (htransition : inDomain authorityTransitionDigestDomain (front ++ tail) = false) :
    digestContent (front ++ tail) = tail := by
  rw [digestContent, hcertificate, hroster, htransition]
  simp only [Bool.false_eq_true, if_false, List.length_append, htail, Nat.add_sub_cancel,
    List.drop_left]

theorem sha256_counted {ones : Nat} (h : ones ≤ 20) (n : Nat) :
    idealCrypto.sha256 (counted (ones + 10) n).bytes = digestOf (counted 10 n).bytes := by
  have hshort {domain : Bytes} (hdomain : 32 < domain.length) :
      inDomain domain (List.replicate ones (UInt8.ofNat 1) ++ (counted 10 n).bytes) = false := by
    refine inDomain_of_length ?_
    rw [List.length_append, List.length_replicate, (counted 10 n).size]
    omega
  rw [drop_counted]
  exact congrArg digestOf (digestContent_tail (counted 10 n).size (hshort (by decide +kernel))
    (hshort (by decide +kernel)) (hshort (by decide +kernel)))

theorem sha256_counted_inj {ones a b : Nat} (hones : ones ≤ 20) (ha : a < byteSpan 2)
    (hb : b < byteSpan 2) (h : idealCrypto.sha256 (counted (ones + 10) a).bytes =
      idealCrypto.sha256 (counted (ones + 10) b).bytes) : a = b := by
  rw [sha256_counted hones, sha256_counted hones] at h
  have hlength (n : Nat) : (counted 10 n).bytes.length = 12 := (counted 10 n).size
  exact counted_inj ha hb (digestOf_inj (by rw [hlength]; decide) (by rw [hlength, hlength]) h)

/-- References show the last bytes of the identifier. -/
theorem deviceReference_counted (id : WorkspaceID) (n : Nat) :
    deviceReference idealCrypto id (counted 14 n) = encodeBase64URL (counted 10 n).bytes := by
  have hother {domain : Bytes} (hdomain :
      domain.take "SyncNotifications-admin-device-ref-v1".toUTF8.toList.length ≠
        "SyncNotifications-admin-device-ref-v1".toUTF8.toList.take domain.length) :
      inDomain domain ("SyncNotifications-admin-device-ref-v1".toUTF8.toList ++
        ([0] ++ id.bytes ++ List.replicate 4 (UInt8.ofNat 1)) ++ (counted 10 n).bytes) = false := by
    rw [List.append_assoc]
    exact inDomain_of_start _ hdomain
  have htext : "SyncNotifications-admin-device-ref-v1".toUTF8.toList ++ [0] ++ id.bytes ++
      (counted 14 n).bytes = "SyncNotifications-admin-device-ref-v1".toUTF8.toList ++
        ([0] ++ id.bytes ++ List.replicate 4 (UInt8.ofNat 1)) ++ (counted 10 n).bytes := by
    rw [drop_counted 4]
    simp only [List.append_assoc]
  have hcontent := digestContent_tail (counted 10 n).size (hother (by decide +kernel))
    (hother (by decide +kernel)) (hother (by decide +kernel))
  simp only [deviceReference, idealCrypto, htext, hcontent, digestOf, fitted]
  rw [List.take_append_of_le_length (by simp), List.take_take,
    List.take_append_of_le_length (by simp [(counted 10 n).size]), List.take_of_length_le]
  simp [(counted 10 n).size]

theorem deviceReference_counted_inj {id : WorkspaceID} {a b : Nat} (ha : a < byteSpan 2)
    (hb : b < byteSpan 2) (h : deviceReference idealCrypto id (counted 14 a) =
      deviceReference idealCrypto id (counted 14 b)) : a = b := by
  rw [deviceReference_counted, deviceReference_counted] at h
  have hbytes := congrArg decodeBase64URL h
  rw [decodeBase64URL_encodeBase64URL, decodeBase64URL_encodeBase64URL] at hbytes
  exact counted_inj ha hb (Option.some.inj hbytes)

end SevenMirror.Admission
