import SevenMirror.MembershipCodec.Sizes
import SevenMirror.PayloadCodec.Canonical

/-! Accepted payloads fit their size limit.  The largest are upserts with two pictures of 128 KiB. -/

namespace SevenMirror.PayloadCodec

open Lib Wire

open MembershipCodec (Crypto)

variable {crypto : Crypto}

/-! ### Fields -/

section Fields

variable {number : Nat}

theorem within_text {v : Bytes} {high k : Nat} (hn : number < 16) (hv : TextWithin high v)
    (hdigits : high < varintSpan (k + 1)) :
    Within (string.emit number v) 0 (high + k + 2) :=
  (within_blob hn hv.1 hv.2.1 (Nat.zero_le _) hv.2.2 hdigits).weaken (Nat.zero_le _) (Nat.le_refl _)

theorem within_optionalText {v : Option Bytes} {high k : Nat} (hn : number < 16)
    (hv : ∀ t, v = some t → TextWithin high t) (hdigits : high < varintSpan (k + 1)) :
    Within (optionalString.emit number v) 0 (high + k + 2) :=
  within_optional hn (fun t ht => ⟨(hv t ht).1, (hv t ht).2.2⟩) hdigits

/-- Revisions have 63 bits. -/
theorem within_revision {v : UInt64} (hn : number < 16) (hv : v ≤ maxNotificationRevision) :
    Within (uint64.emit number v) 0 10 := by
  refine within_scalar (k := 8) hn (Nat.lt_of_le_of_lt (UInt64.le_iff_toNat_le.mp hv) ?_)
  decide

theorem within_boolean {v : Bool} (hn : number < 16) : Within (boolean.emit number v) 0 2 :=
  within_scalar (k := 0) hn (by cases v <;> decide)

/-- A byte string that may be empty. -/
theorem within_bytes {v : Bytes} {high k : Nat} (hn : number < 16) (hv : v.length ≤ high)
    (hdigits : high < varintSpan (k + 1)) : Within (bytes.emit number v) 0 (high + k + 2) := by
  by_cases hnil : v = []
  · exact ⟨[], by simp [bytes, blob, hnil], Nat.zero_le _, Nat.zero_le _⟩
  · have hblob : Within (bytes.emit number v) (0 + 2) (high + k + 2) :=
      within_blob hn rfl hnil (Nat.zero_le _) hv hdigits
    exact hblob.weaken (Nat.zero_le _) (Nat.le_refl _)

theorem within_identifier {size : Nat} {v : Bytes} (hn : number < 16) (hv : v.length = size)
    (hsize : size < 0x80) : Within (bytes.emit number v) 0 (size + 2) :=
  within_bytes (k := 0) hn (Nat.le_of_eq hv) hsize

/-- The dimensions of a picture. -/
theorem within_dimension {v : UInt32} (hn : number < 16) (hv : v ≤ maxNotificationMediaDimension) :
    Within (uint32.emit number v) 0 3 := by
  refine within_scalar (k := 1) hn (Nat.lt_of_le_of_lt (UInt32.le_iff_toNat_le.mp hv) ?_)
  decide

/-- Enumerations with few values. -/
theorem within_enum {v : Int32} (hn : number < 16) (hlow : 0 ≤ v.toInt) (hhigh : v.toInt < 128) :
    Within (enum.emit number v) 0 2 := by
  refine within_scalar (k := 0) hn ?_
  simp only [enumVarint, varintSpan]
  omega

end Fields

/-! ### Messages -/

theorem MediaValid.within {m : NotificationMedia} (h : MediaValid crypto m) :
    Within (mediaCodec.marshal m) 0 131118 := by
  have hdigest : m.contentSha256.length ≤ sha256Size := by
    rw [h.digest, (crypto.sha256 _).size]
    exact Nat.le_refl _
  have hmime : Within (enum.emit 2 m.mimeType) 0 2 := by
    rcases h.mimeType with hmime | hmime
    · rw [hmime]
      exact within_enum (by decide) (by decide) (by decide)
    · rw [hmime]
      exact within_enum (by decide) (by decide) (by decide)
  have hfields : Within (Codec.emitAll m mediaCodec.fields) _ _ :=
    within_emitAll_cons (within_bytes (k := 0) (by decide) hdigest (by decide)) <|
    within_emitAll_cons hmime <|
    within_emitAll_cons (within_dimension (by decide) h.width.2) <|
    within_emitAll_cons (within_dimension (by decide) h.height.2) <|
    within_emitAll_cons (within_bytes (k := 2) (by decide) h.bytes.2 (by decide)) within_emitAll_nil
  exact (within_marshal h.unknown hfields).weaken (by decide) (by decide)

theorem within_optionalMedia {number : Nat} {media : Option NotificationMedia} (hn : number < 16)
    (h : ∀ m, media = some m → MediaValid crypto m) :
    Within ((message mediaCodec).emit number media) 0 131122 := by
  cases media with
  | none => exact within_message_none.weaken (Nat.le_refl _) (Nat.zero_le _)
  | some m =>
    exact (within_message (k := 2) hn (h m rfl).within (by decide)).weaken (by decide) (by decide)

theorem ActionValid.within {a : NotificationActionDescriptor} (h : ActionValid a) :
    Within (actionDescriptorCodec.marshal a) 0 281 := by
  have hfields : Within (Codec.emitAll a actionDescriptorCodec.fields) _ _ :=
    within_emitAll_cons (within_identifier (by decide) h.actionId (by decide)) <|
    within_emitAll_cons (within_text (k := 1) (by decide) h.title (by decide)) <|
    within_emitAll_cons (within_boolean (by decide)) <|
    within_emitAll_cons (within_boolean (by decide)) within_emitAll_nil
  exact (within_marshal h.unknown hfields).weaken (by decide) (by decide)

theorem UpsertValid.within {m : NotificationUpsert} (h : UpsertValid crypto m) :
    Within (upsertCodec.marshal m) 0 272606 := by
  have hactions : Within ((repeated actionDescriptorCodec).emit 8 m.actions) (m.actions.length * 2)
      (m.actions.length * 284) :=
    within_repeated (k := 1) (by decide) (fun a ha => (h.actions a ha).within) (by decide)
  have hcount : m.actions.length ≤ 16 := h.actions_count
  have hfields : Within (Codec.emitAll m upsertCodec.fields) _ _ :=
    within_emitAll_cons (within_text (k := 1) (by decide) h.notificationId (by decide)) <|
    within_emitAll_cons (within_revision (by decide) h.revision.2) <|
    within_emitAll_cons (within_optionalText (k := 1) (by decide) h.title (by decide)) <|
    within_emitAll_cons (within_optionalText (k := 1) (by decide) h.body (by decide)) <|
    within_emitAll_cons (within_optionalMedia (by decide) h.appIcon) <|
    within_emitAll_cons (within_optionalMedia (by decide) h.avatar) <|
    within_emitAll_cons (within_boolean (by decide)) <|
    within_emitAll_cons hactions <|
    within_emitAll_cons (within_text (k := 1) (by decide) h.applicationId (by decide)) <|
    within_emitAll_cons (within_text (k := 1) (by decide) h.applicationName (by decide))
      within_emitAll_nil
  refine (within_marshal h.unknown hfields).weaken (Nat.zero_le _) ?_
  simp only [maxNotificationIDBytes, maxNotificationTitleBytes, maxNotificationBodyBytes,
    maxNotificationAppIDBytes, maxNotificationAppNameBytes]
  omega

theorem EntryValid.within {e : NotificationSnapshotEntry} (h : EntryValid e) :
    Within (snapshotEntryCodec.marshal e) 0 525 := by
  have hfields : Within (Codec.emitAll e snapshotEntryCodec.fields) _ _ :=
    within_emitAll_cons (within_text (k := 1) (by decide) h.notificationId (by decide)) <|
    within_emitAll_cons (within_revision (by decide) h.revision.2) within_emitAll_nil
  exact (within_marshal h.unknown hfields).weaken (by decide) (by decide)

theorem ManifestValid.within {m : NotificationSnapshotManifest} (h : ManifestValid m) :
    Within (snapshotManifestCodec.marshal m) 0 105628 := by
  have hentries : Within ((repeated snapshotEntryCodec).emit 2 m.activeNotifications)
      (m.activeNotifications.length * 2) (m.activeNotifications.length * 528) :=
    within_repeated (k := 1) (by decide) (fun e he => (h.entries e he).within) (by decide)
  have hrecovery : Within (optionalBytes.emit 3 m.recoveryRequestId) 0 18 :=
    within_optional (k := 0) (by decide)
      (fun b hb => ⟨rfl, Nat.le_of_eq (h.recoveryRequestId b hb).1⟩) (by decide)
  have hcount : m.activeNotifications.length ≤ 200 := h.count
  have hfields : Within (Codec.emitAll m snapshotManifestCodec.fields) _ _ :=
    within_emitAll_cons (within_revision (by decide) h.highWater) <|
    within_emitAll_cons hentries <|
    within_emitAll_cons hrecovery within_emitAll_nil
  refine (within_marshal h.unknown hfields).weaken (Nat.zero_le _) ?_
  omega

theorem InvokeValid.within {m : ActionInvoke} (h : InvokeValid m) :
    Within (actionInvokeCodec.marshal m) 0 4566 := by
  have hfields : Within (Codec.emitAll m actionInvokeCodec.fields) _ _ :=
    within_emitAll_cons (within_text (k := 1) (by decide) h.notificationId (by decide)) <|
    within_emitAll_cons (within_revision (by decide) h.revision.2) <|
    within_emitAll_cons (within_bytes (k := 0) (by decide) h.actionId (by decide)) <|
    within_emitAll_cons (within_identifier (by decide) h.idempotencyKey.1 (by decide)) <|
    within_emitAll_cons (within_optionalText (k := 1) (by decide) h.replyText (by decide)) <|
    within_emitAll_cons (within_boolean (by decide)) within_emitAll_nil
  exact (within_marshal h.unknown hfields).weaken (by decide) (by decide)

theorem ResultValid.within {m : ActionResult} (h : ResultValid m) :
    Within (actionResultCodec.marshal m) 0 279 := by
  have hstatus : Within (enum.emit 2 m.status) 0 2 := by
    have hlow := Int32.le_iff_toInt_le.mp h.status.1
    have hhigh := Int32.le_iff_toInt_le.mp h.status.2
    have hone : statusSucceeded.toInt = 1 := by decide
    have hnine : statusOutcomeUnknown.toInt = 9 := by decide
    exact within_enum (by decide) (by omega) (by omega)
  have hfields : Within (Codec.emitAll m actionResultCodec.fields) _ _ :=
    within_emitAll_cons (within_identifier (by decide) h.idempotencyKey.1 (by decide)) <|
    within_emitAll_cons hstatus <|
    within_emitAll_cons (within_optionalText (k := 1) (by decide) h.detail (by decide))
      within_emitAll_nil
  exact (within_marshal h.unknown hfields).weaken (by decide) (by decide)

/-! ### Payloads -/

/-- The text of a body, at the number of its member. -/
def Body.emit : Body → Option Bytes
  | .actionInvoke m => (message actionInvokeCodec).emit 10 (some m)
  | .actionResult m => (message actionResultCodec).emit 11 (some m)
  | .actionResultAck m => (message actionResultAckCodec).emit 12 (some m)
  | .identityKeyTransition m => (message identityKeyTransitionCodec).emit 13 (some m)
  | .identityKeyTransitionAck m => (message identityKeyTransitionAckCodec).emit 14 (some m)
  | .identityKeyTransitionCommit m => (message identityKeyTransitionCommitCodec).emit 15 (some m)
  | .notificationUpsert m => (message upsertCodec).emit 16 (some m)
  | .notificationRemoved m => (message removedCodec).emit 17 (some m)
  | .notificationSnapshotManifest m => (message snapshotManifestCodec).emit 18 (some m)
  | .notificationSnapshotRequest m => (message snapshotRequestCodec).emit 19 (some m)

theorem emit_bodyMember {V : Type} {get : Body → Option V} {wrap : V → Body} {c : Codec V}
    {number : Nat} {p : EncryptedPayload} {body : Body} (hbody : p.body = some body) :
    ((bodyMember get wrap).field number c).emit p = (message c).emit number (get body) := by
  simp only [Member.field, bodyMember, hbody, Option.bind_some]

theorem emit_message_none {V : Type} {c : Codec V} {number : Nat} :
    (message c).emit number none = some [] := rfl

/-- The version comes first, and the members that are not set write nothing. -/
theorem emitAll_payload {p : EncryptedPayload} {body : Body} {version text : Bytes}
    (hversion : uint32.emit 1 p.schemaVersion = some version) (hbody : p.body = some body)
    (htext : body.emit = some text) :
    Codec.emitAll p payloadCodec.fields = some (version ++ text) := by
  simp only [payloadCodec, Codec.emitAll, emit_bodyMember hbody, Kind.field, hversion]
  cases body <;>
    simp only [Body.emit] at htext <;>
    simp only [Body.getActionInvoke, Body.getActionResult, Body.getActionResultAck,
      Body.getIdentityKeyTransition, Body.getIdentityKeyTransitionAck,
      Body.getIdentityKeyTransitionCommit, Body.getNotificationUpsert, Body.getNotificationRemoved,
      Body.getNotificationSnapshotManifest, Body.getNotificationSnapshotRequest, emit_message_none,
      htext, Option.bind_eq_bind, Option.bind_some, Option.pure_def, List.nil_append, List.append_nil]

/-- The text of a body that is accepted. -/
theorem body_within {body : Body} (h : validateBody crypto body = .ok ()) :
    Within body.emit 0 272611 := by
  have hnumber {V : Type} {c : Codec V} {m : V} {number high : Nat} (hn : number < 2048)
      (hm : Within (c.marshal m) 0 high) (hhigh : high ≤ 272606) :
      Within ((message c).emit number (some m)) 0 272611 :=
    (within_message_le (k := 2) hn (hm.weaken (Nat.le_refl _) hhigh) (by decide)).weaken
      (Nat.zero_le _) (Nat.le_refl _)
  cases body with
  | actionInvoke m => exact hnumber (by decide) (validateActionInvoke_ok h).within (by decide)
  | actionResult m => exact hnumber (by decide) (validateActionResult_ok h).within (by decide)
  | actionResultAck m =>
    obtain ⟨hunknown, hkey, hresult⟩ := validateActionResultAck_ok h
    have hfields : Within (Codec.emitAll m actionResultAckCodec.fields) _ _ :=
      within_emitAll_cons (within_identifier (by decide) hkey.1 (by decide)) <|
      within_emitAll_cons (within_identifier (by decide) hresult.1 (by decide)) within_emitAll_nil
    exact hnumber (by decide) (within_marshal hunknown hfields) (by decide)
  | identityKeyTransition m =>
    obtain ⟨hunknown, hid, hprevious, hnew, hkey⟩ := validateIdentityKeyTransition_ok h
    have hfields : Within (Codec.emitAll m identityKeyTransitionCodec.fields) _ _ :=
      within_emitAll_cons (within_identifier (by decide) hid.1 (by decide)) <|
      within_emitAll_cons (within_identifier (by decide) hprevious.1 (by decide)) <|
      within_emitAll_cons (within_identifier (by decide) hkey (by decide)) <|
      within_emitAll_cons (within_identifier (by decide) hnew.1 (by decide)) within_emitAll_nil
    exact hnumber (by decide) (within_marshal hunknown hfields) (by decide)
  | identityKeyTransitionAck m =>
    obtain ⟨hunknown, hid, hprevious, hnew, htransition⟩ := validateIdentityKeyTransitionAck_ok h
    have hfields : Within (Codec.emitAll m identityKeyTransitionAckCodec.fields) _ _ :=
      within_emitAll_cons (within_identifier (by decide) hid.1 (by decide)) <|
      within_emitAll_cons (within_identifier (by decide) hprevious.1 (by decide)) <|
      within_emitAll_cons (within_identifier (by decide) hnew.1 (by decide)) <|
      within_emitAll_cons (within_identifier (by decide) htransition.1 (by decide))
        within_emitAll_nil
    exact hnumber (by decide) (within_marshal hunknown hfields) (by decide)
  | identityKeyTransitionCommit m =>
    obtain ⟨hunknown, hid, hprevious, hnew, htransition, hack⟩ :=
      validateIdentityKeyTransitionCommit_ok h
    have hfields : Within (Codec.emitAll m identityKeyTransitionCommitCodec.fields) _ _ :=
      within_emitAll_cons (within_identifier (by decide) hid.1 (by decide)) <|
      within_emitAll_cons (within_identifier (by decide) hprevious.1 (by decide)) <|
      within_emitAll_cons (within_identifier (by decide) hnew.1 (by decide)) <|
      within_emitAll_cons (within_identifier (by decide) htransition.1 (by decide)) <|
      within_emitAll_cons (within_identifier (by decide) hack.1 (by decide)) within_emitAll_nil
    exact hnumber (by decide) (within_marshal hunknown hfields) (by decide)
  | notificationUpsert m =>
    exact hnumber (by decide) (validateNotificationUpsert_ok h).within (by decide)
  | notificationRemoved m =>
    obtain ⟨hunknown, hid, hrevision⟩ := validateNotificationRemoved_ok h
    have hfields : Within (Codec.emitAll m removedCodec.fields) _ _ :=
      within_emitAll_cons (within_text (k := 1) (by decide) hid (by decide)) <|
      within_emitAll_cons (within_revision (by decide) hrevision.2) within_emitAll_nil
    exact hnumber (by decide) (within_marshal hunknown hfields) (by decide)
  | notificationSnapshotManifest m =>
    exact hnumber (by decide) (validateNotificationSnapshotManifest_ok h).within (by decide)
  | notificationSnapshotRequest m =>
    obtain ⟨hunknown, hid, hreset⟩ := validateNotificationSnapshotRequest_ok h
    have hfields : Within (Codec.emitAll m snapshotRequestCodec.fields) _ _ :=
      within_emitAll_cons (within_identifier (by decide) hid.1 (by decide)) <|
      within_emitAll_cons (within_revision (by decide) hreset) within_emitAll_nil
    exact hnumber (by decide) (within_marshal hunknown hfields) (by decide)

/-- The version alone takes two bytes. -/
theorem payload_within {p : EncryptedPayload} (h : validate crypto p = .ok ()) :
    Within (payloadCodec.marshal p) 2 272613 := by
  obtain ⟨hunknown, body, hbody, hvalid, hschema⟩ := validatePayload_ok.mp h
  have hversion : Within (uint32.emit 1 p.schemaVersion) 2 2 := by
    have hschema : p.schemaVersion = body.schema :=
      hschema.resolve_right fun hlegacy => (by cases hlegacy.1)
    rw [hschema, Body.schema]
    split
    · exact within_scalar_nonzero (k := 0) (by decide) (by decide) (by decide)
    · exact within_scalar_nonzero (k := 0) (by decide) (by decide) (by decide)
  obtain ⟨version, hversion, hlow, hhigh⟩ := hversion
  obtain ⟨text, htext, -, hsize⟩ := body_within hvalid
  refine within_marshal hunknown ⟨_, emitAll_payload hversion hbody htext, ?_⟩
  rw [List.length_append]
  omega

/-! ### The size error -/

theorem validateActions_ne_size {seen : List Bytes} {actions : List NotificationActionDescriptor} :
    validateActions seen actions ≠ .error .size := by
  induction actions generalizing seen with
  | nil => exact pure_ne_error
  | cons a rest ih =>
    simp [validateActions, validateNotificationActionDescriptor, bind_eq_error, reject_eq_error, ih]

theorem validateEntries_ne_size {high : UInt64} {previous : Bytes}
    {entries : List NotificationSnapshotEntry} :
    validateEntries high previous entries ≠ .error .size := by
  induction entries generalizing previous with
  | nil => exact pure_ne_error
  | cons e rest ih =>
    simp [validateEntries, validateNotificationBinding, bind_eq_error, reject_eq_error, ih]

theorem validateOptionalMedia_ne_size {field : MediaField} {media : Option NotificationMedia} :
    validateOptionalMedia crypto field media ≠ .error .size := by
  cases media with
  | none => exact pure_ne_error
  | some m => simp [validateOptionalMedia, rethrow_eq_error]

theorem validateBody_ne_size {body : Body} : validateBody crypto body ≠ .error .size := by
  cases body with
  | actionInvoke m =>
    simp only [validateBody, validateActionInvoke, validateNotificationBinding]
    split <;> simp [bind_eq_error, reject_eq_error]
  | _ =>
    simp [validateBody, validateActionResult, validateActionResultAck,
      validateIdentityKeyTransition, validateIdentityKeyTransitionAck,
      validateIdentityKeyTransitionCommit, validateTransitionBinding, validateNotificationUpsert,
      validateRequiredText, validateNotificationRemoved, validateNotificationSnapshotManifest,
      validateNotificationSnapshotRequest, validateNotificationBinding, bind_eq_error,
      reject_eq_error, validateOptionalMedia_ne_size, validateActions_ne_size,
      validateEntries_ne_size]

theorem validateActionSchema_ne_size {p : EncryptedPayload} {legacy dismiss : Bool}
    {r : Except PayloadError Unit} (h : r ≠ .error .size) :
    validateActionSchema p legacy dismiss r ≠ .error .size := by
  unfold validateActionSchema
  split
  · exact h
  · split
    · exact h
    · exact fun herror => (by cases herror)

theorem validateSchema_ne_size {p : EncryptedPayload} {expected : UInt32}
    {r : Except PayloadError Unit} (h : r ≠ .error .size) :
    validateSchema p expected r ≠ .error .size := by
  unfold validateSchema
  split
  · exact fun herror => (by cases herror)
  · exact h

theorem validate_ne_size {p : EncryptedPayload} : validate crypto p ≠ .error .size := by
  intro h
  simp only [validate, validatePayload, bind_eq_error, reject_eq_error, reduceCtorEq, and_false,
    false_or, exists_unit] at h
  obtain ⟨-, h⟩ := h
  have hbodies := fun body => @validateBody_ne_size crypto body
  cases hbody : p.body with
  | none =>
    rw [hbody] at h
    cases h
  | some body =>
    rw [hbody] at h
    cases body with
    | actionInvoke m => exact validateActionSchema_ne_size (hbodies (.actionInvoke m)) h
    | actionResult m => exact validateActionSchema_ne_size (hbodies (.actionResult m)) h
    | actionResultAck m => exact validateActionSchema_ne_size (hbodies (.actionResultAck m)) h
    | identityKeyTransition m =>
      exact validateSchema_ne_size (hbodies (.identityKeyTransition m)) h
    | identityKeyTransitionAck m =>
      exact validateSchema_ne_size (hbodies (.identityKeyTransitionAck m)) h
    | identityKeyTransitionCommit m =>
      exact validateSchema_ne_size (hbodies (.identityKeyTransitionCommit m)) h
    | notificationUpsert m => exact validateSchema_ne_size (hbodies (.notificationUpsert m)) h
    | notificationRemoved m => exact validateSchema_ne_size (hbodies (.notificationRemoved m)) h
    | notificationSnapshotManifest m =>
      exact validateSchema_ne_size (hbodies (.notificationSnapshotManifest m)) h
    | notificationSnapshotRequest m =>
      exact validateSchema_ne_size (hbodies (.notificationSnapshotRequest m)) h

theorem encode_ne_size {p : EncryptedPayload} : encode crypto p ≠ .error .size := by
  intro h
  simp only [encode, bind_eq_error, validate_ne_size, require_eq_error, require_eq_ok, reject_eq_error,
    pure_ne_error, exists_unit, reduceCtorEq, and_false, and_true, false_or, or_false,
    exists_false] at h
  obtain ⟨hvalid, encoded, hmarshal, hsize⟩ := h
  obtain ⟨text, htext, hlow, hhigh⟩ := payload_within hvalid
  obtain rfl : text = encoded := Option.some.inj (htext.symm.trans hmarshal)
  unfold maxPlaintextSize at hsize
  omega

/-- The texts of accepted rosters, of their signed form, and of accepted payloads fit the limits of
their encoders, so that the size errors after validation cannot occur. -/
theorem validated_messages_fit (crypto : Crypto) :
    (∀ roster key, MembershipCodec.validateWorkspaceRoster crypto roster key = .ok () →
      Within (MembershipCodec.rosterCodec.marshal roster) 1 1048576 ∧
      ∀ signed : MembershipCodec.SignedWorkspaceRoster, signed.roster = some roster →
        signed.unknown = [] → signed.rosterDigest.length = MembershipCodec.digestSize →
        signed.authoritySignature.length = MembershipCodec.ed25519SignatureSize →
        Within (MembershipCodec.signedRosterCodec.marshal signed) 1 1048576) ∧
    (∀ roster privateKey,
      MembershipCodec.signWorkspaceRoster crypto roster privateKey ≠ .error .size) ∧
    (∀ signed key, MembershipCodec.encodeSignedWorkspaceRoster crypto signed key ≠ .error .size) ∧
    (∀ payload, validate crypto payload = .ok () →
      Within (payloadCodec.marshal payload) 1 524272) ∧
    (∀ payload, encode crypto payload ≠ .error .size) := by
  refine ⟨fun roster key h => ?_, fun roster privateKey => MembershipCodec.signWorkspaceRoster_ne_size,
    fun signed key => MembershipCodec.encodeSignedWorkspaceRoster_ne_size,
    fun payload h => (payload_within h).weaken (by decide) (by decide),
    fun payload => encode_ne_size⟩
  have hvalid := MembershipCodec.validateWorkspaceRoster_iff.mp h
  refine ⟨hvalid.within.weaken (Nat.succ_le_of_lt (Nat.succ_pos _)) (by decide),
    fun signed hroster hunknown hdigest hsignature => ?_⟩
  exact (hvalid.signed_within hroster hunknown hdigest hsignature).weaken
    (Nat.succ_le_of_lt (Nat.succ_pos _)) (by decide)

-- the smallest notification: the version, the tag of the member in two bytes, and ten bytes in all
example (crypto : Crypto) :
    encode crypto
      { schemaVersion := 7
        body := some (.notificationRemoved { notificationId := [0x6e], notificationRevision := 1 }) } =
      .ok [0x08, 0x07, 0x8a, 0x01, 0x05, 0x0a, 0x01, 0x6e, 0x10, 0x01] :=
  rfl

end SevenMirror.PayloadCodec
