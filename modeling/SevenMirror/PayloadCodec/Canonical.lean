import SevenMirror.PayloadCodec.Validity

/-! Payloads have one encoding, and a body has one schema version.  The decoder accepts in addition the
action messages of the first version, which the encoder does not write any more. -/

namespace SevenMirror.PayloadCodec

open Lib Wire

open MembershipCodec (Crypto)

variable {crypto : Crypto}

/-! ### Unknown records -/

theorem media_plain {m : NotificationMedia} (h : MediaValid crypto m) : mediaCodec.Plain m := by
  refine ⟨h.unknown, ?_⟩
  simp [mediaCodec, Kind.field, uint32, enum, scalar, bytes, blob]

theorem upsert_plain {m : NotificationUpsert} (h : UpsertValid crypto m) : upsertCodec.Plain m := by
  have hicon : (message mediaCodec).plain m.appIcon := fun x hx => media_plain (h.appIcon x hx)
  have havatar : (message mediaCodec).plain m.avatar := fun x hx => media_plain (h.avatar x hx)
  have hactions : (repeated actionDescriptorCodec).plain m.actions := by
    intro a ha
    refine ⟨(h.actions a ha).unknown, ?_⟩
    simp [actionDescriptorCodec, Kind.field, boolean, scalar, bytes, string, blob]
  refine ⟨h.unknown, ?_⟩
  simp only [upsertCodec, List.forall_mem_cons]
  exact ⟨trivial, trivial, trivial, trivial, hicon, havatar, trivial, hactions, trivial, trivial,
    by simp⟩

theorem manifest_plain {m : NotificationSnapshotManifest} (h : ManifestValid m) :
    snapshotManifestCodec.Plain m := by
  have hentries : (repeated snapshotEntryCodec).plain m.activeNotifications := by
    intro e he
    refine ⟨(h.entries e he).unknown, ?_⟩
    simp [snapshotEntryCodec, Kind.field, uint64, scalar, string, blob]
  refine ⟨h.unknown, ?_⟩
  simp only [snapshotManifestCodec, List.forall_mem_cons]
  exact ⟨trivial, hentries, trivial, by simp⟩

/-- The message of a body has no unknown records. -/
def Body.Plain : Body → Prop
  | .actionInvoke m => actionInvokeCodec.Plain m
  | .actionResult m => actionResultCodec.Plain m
  | .actionResultAck m => actionResultAckCodec.Plain m
  | .identityKeyTransition m => identityKeyTransitionCodec.Plain m
  | .identityKeyTransitionAck m => identityKeyTransitionAckCodec.Plain m
  | .identityKeyTransitionCommit m => identityKeyTransitionCommitCodec.Plain m
  | .notificationUpsert m => upsertCodec.Plain m
  | .notificationRemoved m => removedCodec.Plain m
  | .notificationSnapshotManifest m => snapshotManifestCodec.Plain m
  | .notificationSnapshotRequest m => snapshotRequestCodec.Plain m

/-- The validator of a body. -/
def validateBody (crypto : Crypto) : Body → Except PayloadError Unit
  | .actionInvoke m => validateActionInvoke m
  | .actionResult m => validateActionResult m
  | .actionResultAck m => validateActionResultAck m
  | .identityKeyTransition m => validateIdentityKeyTransition crypto m
  | .identityKeyTransitionAck m => validateIdentityKeyTransitionAck m
  | .identityKeyTransitionCommit m => validateIdentityKeyTransitionCommit m
  | .notificationUpsert m => validateNotificationUpsert crypto m
  | .notificationRemoved m => validateNotificationRemoved m
  | .notificationSnapshotManifest m => validateNotificationSnapshotManifest m
  | .notificationSnapshotRequest m => validateNotificationSnapshotRequest m

theorem body_plain {body : Body} (h : validateBody crypto body = .ok ()) : body.Plain := by
  cases body with
  | actionInvoke m =>
    refine ⟨(validateActionInvoke_ok h).unknown, ?_⟩
    simp [actionInvokeCodec, Kind.field, uint64, boolean, scalar, bytes, string, blob, optionalString,
      optionalBlob]
  | actionResult m =>
    refine ⟨(validateActionResult_ok h).unknown, ?_⟩
    simp [actionResultCodec, Kind.field, enum, scalar, bytes, blob, optionalString, optionalBlob]
  | actionResultAck m =>
    refine ⟨(validateActionResultAck_ok h).1, ?_⟩
    simp [actionResultAckCodec, Kind.field, bytes, blob]
  | identityKeyTransition m =>
    refine ⟨(validateIdentityKeyTransition_ok h).1, ?_⟩
    simp [identityKeyTransitionCodec, Kind.field, bytes, blob]
  | identityKeyTransitionAck m =>
    refine ⟨(validateIdentityKeyTransitionAck_ok h).1, ?_⟩
    simp [identityKeyTransitionAckCodec, Kind.field, bytes, blob]
  | identityKeyTransitionCommit m =>
    refine ⟨(validateIdentityKeyTransitionCommit_ok h).1, ?_⟩
    simp [identityKeyTransitionCommitCodec, Kind.field, bytes, blob]
  | notificationUpsert m => exact upsert_plain (validateNotificationUpsert_ok h)
  | notificationRemoved m =>
    refine ⟨(validateNotificationRemoved_ok h).1, ?_⟩
    simp [removedCodec, Kind.field, uint64, scalar, string, blob]
  | notificationSnapshotManifest m =>
    exact manifest_plain (validateNotificationSnapshotManifest_ok h)
  | notificationSnapshotRequest m =>
    refine ⟨(validateNotificationSnapshotRequest_ok h).1, ?_⟩
    simp [snapshotRequestCodec, Kind.field, uint64, scalar, bytes, blob]

theorem payload_plain_of_body {p : EncryptedPayload} {body : Body} (hunknown : p.unknown = [])
    (hbody : p.body = some body) (h : body.Plain) : payloadCodec.Plain p := by
  refine ⟨hunknown, ?_⟩
  simp only [payloadCodec, List.forall_mem_cons]
  have hmember {V : Type} {get : Body → Option V} {wrap : V → Body} {c : Codec V} {n : Nat}
      (hget : ∀ v, get body = some v → c.Plain v) :
      ((bodyMember get wrap).field n c).plain p := by
    intro v hv
    simp only [bodyMember, hbody, Option.bind_some] at hv
    exact hget v hv
  refine ⟨trivial, hmember ?_, hmember ?_, hmember ?_, hmember ?_, hmember ?_, hmember ?_,
    hmember ?_, hmember ?_, hmember ?_, hmember ?_, by simp⟩
  all_goals
    intro v hv
    cases body <;> cases hv
    exact h

/-! ### Schema versions -/

def Body.isNotification : Body → Bool
  | .notificationUpsert _ | .notificationRemoved _ | .notificationSnapshotManifest _
  | .notificationSnapshotRequest _ => true
  | _ => false

/-- The bodies that the decoder accepts under the first version too. -/
def Body.isLegacyAction : Body → Bool
  | .actionInvoke m => !m.dismissNotification
  | .actionResult _ | .actionResultAck _ => true
  | _ => false

/-- The version that goes with a body. -/
def Body.schema (body : Body) : UInt32 := if body.isNotification then 7 else 2

/-- A payload of the first version with an action. -/
def LegacyAction (p : EncryptedPayload) : Prop :=
  p.schemaVersion = 1 ∧ ∃ body, p.body = some body ∧ body.isLegacyAction = true

theorem validateActionSchema_ok {p : EncryptedPayload} {legacy dismiss : Bool}
    {r : Except PayloadError Unit} : validateActionSchema p legacy dismiss r = .ok () ↔
      r = .ok () ∧ (p.schemaVersion = currentSchemaVersion ∨
        legacy = true ∧ p.schemaVersion = 1 ∧ (!dismiss) = true) := by
  unfold validateActionSchema
  by_cases hcurrent : p.schemaVersion = currentSchemaVersion
  · simp [hcurrent]
  · by_cases hlegacy : legacy = true ∧ p.schemaVersion = 1 ∧ ¬ dismiss = true
    · rw [if_neg hcurrent, if_pos hlegacy]
      simp [hlegacy]
    · simp only [hcurrent, if_false, if_neg hlegacy, throw_eq_ok, false_or, false_iff, not_and]
      intro _ hallowed hone hdismiss
      exact hlegacy ⟨hallowed, hone, by simpa using hdismiss⟩

theorem validateSchema_ok {p : EncryptedPayload} {expected : UInt32}
    {r : Except PayloadError Unit} : validateSchema p expected r = .ok () ↔
      r = .ok () ∧ p.schemaVersion = expected := by
  unfold validateSchema
  by_cases hexpected : p.schemaVersion = expected
  · simp [hexpected]
  · simp [hexpected]

/-- A payload is accepted if its body is, under the version of the body, or under the first one where
that is allowed. -/
theorem validatePayload_ok {p : EncryptedPayload} {legacy : Bool} :
    validatePayload crypto p legacy = .ok () ↔ p.unknown = [] ∧ ∃ body, p.body = some body ∧
      validateBody crypto body = .ok () ∧ (p.schemaVersion = body.schema ∨
        legacy = true ∧ p.schemaVersion = 1 ∧ body.isLegacyAction = true) := by
  simp only [validatePayload, bind_eq_ok, exists_unit, reject_eq_ok, ne_eq, Decidable.not_not]
  refine and_congr_right fun _ => ?_
  cases hbody : p.body with
  | none => simp
  | some body =>
    cases body <;>
      simp [validateActionSchema_ok, validateSchema_ok, validateBody, Body.schema,
        Body.isNotification, Body.isLegacyAction, currentSchemaVersion,
        identityLifecycleSchemaVersion, notificationSchemaVersion]

theorem payload_plain {p : EncryptedPayload} {legacy : Bool}
    (h : validatePayload crypto p legacy = .ok ()) : payloadCodec.Plain p := by
  obtain ⟨hunknown, body, hbody, hvalid, -⟩ := validatePayload_ok.mp h
  exact payload_plain_of_body hunknown hbody (body_plain hvalid)

/-- What the decoder accepts is what the encoder accepts, and the actions of the first version. -/
theorem validatePayload_legacy {p : EncryptedPayload} :
    validatePayload crypto p true = .ok () ↔ validatePayload crypto p false = .ok () ∨
      LegacyAction p ∧ validatePayload crypto p true = .ok () := by
  constructor
  · intro h
    obtain ⟨hunknown, body, hbody, hvalid, hversion⟩ := validatePayload_ok.mp h
    rcases hversion with hschema | ⟨-, hone, haction⟩
    · exact Or.inl (validatePayload_ok.mpr ⟨hunknown, body, hbody, hvalid, Or.inl hschema⟩)
    · exact Or.inr ⟨⟨hone, body, hbody, haction⟩, h⟩
  · rintro (h | ⟨-, h⟩)
    · obtain ⟨hunknown, body, hbody, hvalid, hversion⟩ := validatePayload_ok.mp h
      rcases hversion with hschema | ⟨hfalse, -⟩
      · exact validatePayload_ok.mpr ⟨hunknown, body, hbody, hvalid, Or.inl hschema⟩
      · cases hfalse
    · exact h

theorem LegacyAction.rejected {p : EncryptedPayload} (h : LegacyAction p) :
    ∃ e, encode crypto p = .error e := by
  obtain ⟨hone, body, hbody, haction⟩ := h
  cases hencode : encode crypto p with
  | error e => exact ⟨e, rfl⟩
  | ok b =>
    simp only [encode, validate, bind_eq_ok, exists_unit] at hencode
    obtain ⟨-, body', hbody', -, hversion⟩ := validatePayload_ok.mp hencode.1
    rcases hversion with hschema | ⟨hfalse, -⟩
    · rw [hone, Body.schema] at hschema
      split at hschema <;> cases hschema
    · cases hfalse

/-! ### Encoding -/

theorem encode_ok {p : EncryptedPayload} {b : Bytes} : encode crypto p = .ok b ↔
    validate crypto p = .ok () ∧ payloadCodec.marshal p = some b ∧ b.length ≠ 0 ∧
      b.length ≤ maxPlaintextSize := by
  simp only [encode, bind_eq_ok, exists_unit, require_eq_ok, reject_eq_ok, pure_eq_ok, not_or,
    gt_iff_lt, Nat.not_lt]
  constructor
  · rintro ⟨hvalid, _, hmarshal, hsize, rfl⟩
    exact ⟨hvalid, hmarshal, hsize⟩
  · rintro ⟨hvalid, hmarshal, hsize⟩
    exact ⟨hvalid, b, hmarshal, hsize, rfl⟩

theorem decode_ok {b : Bytes} {p : EncryptedPayload} : decode crypto b = .ok p ↔
    validatePayload crypto p true = .ok () ∧ payloadCodec.marshal p = some b ∧ b.length ≠ 0 ∧
      b.length ≤ maxPlaintextSize := by
  simp only [decode, bind_eq_ok, exists_unit, require_eq_ok, reject_eq_ok, pure_eq_ok, not_or,
    gt_iff_lt, Nat.not_lt, ne_eq, Decidable.not_not]
  constructor
  · rintro ⟨hsize, q, -, hvalid, _, hmarshal, rfl, rfl⟩
    exact ⟨hvalid, hmarshal, hsize⟩
  · rintro ⟨hvalid, hmarshal, hsize⟩
    have hsmall : b.length < textLimit := Nat.lt_of_le_of_lt hsize.2 (by decide)
    exact ⟨hsize, p, Codec.unmarshal_marshal (payload_plain hvalid) hmarshal hsmall, hvalid, b,
      hmarshal, rfl, rfl⟩

/-- Payloads have one form.  What is encoded is decoded to what it was; what is decoded is plain, is
encoded deterministically as it was, and is accepted by the encoder but for actions of the first
version; and the encoder binds each body to its schema version. -/
theorem payloads_canonical (crypto : Crypto) :
    (∀ p b, encode crypto p = .ok b → decode crypto b = .ok p) ∧
    (∀ b p, decode crypto b = .ok p → payloadCodec.Plain p ∧ payloadCodec.marshal p = some b ∧
      (encode crypto p = .ok b ∨ LegacyAction p ∧ ∃ e, encode crypto p = .error e)) ∧
    (∀ p b, encode crypto p = .ok b → ∃ body, p.body = some body ∧
      p.schemaVersion = if body.isNotification then 7 else 2) := by
  refine ⟨fun p b h => ?_, fun b p h => ?_, fun p b h => ?_⟩
  · obtain ⟨hvalid, hrest⟩ := encode_ok.mp h
    exact decode_ok.mpr ⟨validatePayload_legacy.mpr (Or.inl hvalid), hrest⟩
  · obtain ⟨hvalid, hmarshal, hsize⟩ := decode_ok.mp h
    refine ⟨payload_plain hvalid, hmarshal, ?_⟩
    rcases validatePayload_legacy.mp hvalid with hcurrent | ⟨hlegacy, -⟩
    · exact Or.inl (encode_ok.mpr ⟨hcurrent, hmarshal, hsize⟩)
    · exact Or.inr ⟨hlegacy, hlegacy.rejected⟩
  · obtain ⟨-, body, hbody, -, hversion⟩ := validatePayload_ok.mp (encode_ok.mp h).1
    rcases hversion with hschema | ⟨hfalse, -⟩
    · exact ⟨body, hbody, hschema⟩
    · cases hfalse

end SevenMirror.PayloadCodec
