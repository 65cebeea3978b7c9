import SevenMirror.PayloadCodec.Codec

/-! What the validators of the payload codec accept.  Each lemma says of one kind of message which
fields are bounded and that it has no unknown records. -/

namespace SevenMirror.PayloadCodec

open Lib Wire

open MembershipCodec (Crypto)

variable {crypto : Crypto}

/-! ### Texts and identifiers -/

/-- A text in UTF-8 of 1 to `high` bytes. -/
def TextWithin (high : Nat) (v : Bytes) : Prop :=
  validUtf8 v = true ∧ v ≠ [] ∧ v.length ≤ high

/-- An identifier of `size` bytes, not all of them zero. -/
def Identifier (size : Nat) (v : Bytes) : Prop := v.length = size ∧ allZero v = false

@[simp] theorem not_badText {high : Nat} {v : Bytes} :
    ¬ badText high v = true ↔ TextWithin high v := by
  rw [badText, TextWithin, Bool.not_eq_true, Bool.or_eq_false_iff, Bool.or_eq_false_iff,
    Bool.not_eq_false', decide_eq_false_iff_not, decide_eq_false_iff_not, and_assoc]
  simp

@[simp] theorem not_any_badText {high : Nat} {v : Option Bytes} :
    ¬ v.any (badText high) = true ↔ ∀ t, v = some t → TextWithin high t := by
  cases v with
  | none => simp
  | some t => simp [← not_badText]

@[simp] theorem not_badIdentifier {size : Nat} {v : Bytes} :
    ¬ badIdentifier size v = true ↔ Identifier size v := by
  simp [badIdentifier, Identifier]

@[simp] theorem not_any_badIdentifier {size : Nat} {v : Option Bytes} :
    ¬ v.any (badIdentifier size) = true ↔ ∀ b, v = some b → Identifier size b := by
  cases v with
  | none => simp
  | some b => simp [← not_badIdentifier]

/-! ### Notifications -/

/-- A revision is a positive number of 63 bits. -/
def Revision (n : UInt64) : Prop := 1 ≤ n ∧ n ≤ maxNotificationRevision

@[simp] theorem validateNotificationBinding_ok {id : Bytes} {revision : UInt64} :
    validateNotificationBinding id revision = .ok () ↔
      TextWithin maxNotificationIDBytes id ∧ Revision revision := by
  simp only [validateNotificationBinding, bind_eq_ok, exists_unit, reject_eq_ok, not_badText, not_or,
    UInt64.not_lt, gt_iff_lt, Revision]

/-- What is accepted as media. -/
structure MediaValid (crypto : Crypto) (m : NotificationMedia) : Prop where
  unknown : m.unknown = []
  bytes : m.encodedBytes ≠ [] ∧ m.encodedBytes.length ≤ maxNotificationMediaBytes
  width : 1 ≤ m.width ∧ m.width ≤ maxNotificationMediaDimension
  height : 1 ≤ m.height ∧ m.height ≤ maxNotificationMediaDimension
  digest : m.contentSha256 = (crypto.sha256 m.encodedBytes).bytes
  mimeType : m.mimeType = mimeTypePNG ∨ m.mimeType = mimeTypeWebP

theorem validateNotificationMedia_ok {m : NotificationMedia}
    (h : validateNotificationMedia crypto m = .ok ()) : MediaValid crypto m := by
  simp only [validateNotificationMedia, bind_eq_ok, exists_unit, reject_eq_ok, not_or, ne_eq,
    Decidable.not_not, gt_iff_lt, UInt32.not_lt, Nat.not_lt] at h
  obtain ⟨hunknown, ⟨hpos, hbytes⟩, ⟨hwidth, hwidthMax, hheight, hheightMax⟩, hdigest, hmime⟩ := h
  refine ⟨hunknown, ⟨List.ne_nil_of_length_pos hpos, hbytes⟩, ⟨hwidth, hwidthMax⟩,
    ⟨hheight, hheightMax⟩, hdigest, ?_⟩
  split at hmime
  · exact Or.inl ‹_›
  · split at hmime
    · exact Or.inr ‹_›
    · cases hmime

theorem validateOptionalMedia_ok {field : MediaField} {media : Option NotificationMedia}
    (h : validateOptionalMedia crypto field media = .ok ()) :
    ∀ m, media = some m → MediaValid crypto m := by
  rintro m rfl
  rw [validateOptionalMedia, rethrow_eq_ok] at h
  exact validateNotificationMedia_ok h

/-- What is accepted as an action. -/
structure ActionValid (a : NotificationActionDescriptor) : Prop where
  unknown : a.unknown = []
  actionId : a.actionId.length = identifierSize
  title : TextWithin maxNotificationActionTitleBytes a.title

theorem validateNotificationActionDescriptor_ok {a : NotificationActionDescriptor}
    (h : validateNotificationActionDescriptor a = .ok ()) : ActionValid a := by
  simp only [validateNotificationActionDescriptor, bind_eq_ok, exists_unit, reject_eq_ok, ne_eq,
    Decidable.not_not, not_badText] at h
  exact ⟨h.1, h.2.1, h.2.2.1⟩

theorem validateActions_ok {seen : List Bytes} {actions : List NotificationActionDescriptor}
    (h : validateActions seen actions = .ok ()) : ∀ a ∈ actions, ActionValid a := by
  induction actions generalizing seen with
  | nil => simp
  | cons a rest ih =>
    simp only [validateActions, bind_eq_ok, exists_unit] at h
    obtain ⟨haction, -, hrest⟩ := h
    rw [List.forall_mem_cons]
    exact ⟨validateNotificationActionDescriptor_ok haction, ih hrest⟩

/-- What is accepted as an upsert. -/
structure UpsertValid (crypto : Crypto) (m : NotificationUpsert) : Prop where
  unknown : m.unknown = []
  notificationId : TextWithin maxNotificationIDBytes m.notificationId
  revision : Revision m.notificationRevision
  applicationId : TextWithin maxNotificationAppIDBytes m.sourceApplicationId
  applicationName : TextWithin maxNotificationAppNameBytes m.sourceApplicationName
  title : ∀ t, m.title = some t → TextWithin maxNotificationTitleBytes t
  body : ∀ t, m.body = some t → TextWithin maxNotificationBodyBytes t
  appIcon : ∀ x, m.appIcon = some x → MediaValid crypto x
  avatar : ∀ x, m.avatar = some x → MediaValid crypto x
  actions_count : m.actions.length ≤ maxNotificationActions
  actions : ∀ a ∈ m.actions, ActionValid a

theorem validateNotificationUpsert_ok {m : NotificationUpsert}
    (h : validateNotificationUpsert crypto m = .ok ()) : UpsertValid crypto m := by
  simp only [validateNotificationUpsert, validateRequiredText, bind_eq_ok, exists_unit, reject_eq_ok,
    ne_eq, Decidable.not_not, not_badText, not_any_badText, validateNotificationBinding_ok,
    gt_iff_lt, Nat.not_lt] at h
  obtain ⟨hunknown, ⟨hid, hrevision⟩, happID, happName, -, htitle, hbody, -, hicon, havatar, hcount,
    hactions⟩ := h
  exact ⟨hunknown, hid, hrevision, happID, happName, htitle, hbody, validateOptionalMedia_ok hicon,
    validateOptionalMedia_ok havatar, hcount, validateActions_ok hactions⟩

theorem validateNotificationRemoved_ok {m : NotificationRemoved}
    (h : validateNotificationRemoved m = .ok ()) :
    m.unknown = [] ∧ TextWithin maxNotificationIDBytes m.notificationId ∧
      Revision m.notificationRevision := by
  simpa only [validateNotificationRemoved, bind_eq_ok, exists_unit, reject_eq_ok, ne_eq,
    Decidable.not_not, validateNotificationBinding_ok] using h

/-- What is accepted as an entry of a snapshot. -/
structure EntryValid (e : NotificationSnapshotEntry) : Prop where
  unknown : e.unknown = []
  notificationId : TextWithin maxNotificationIDBytes e.notificationId
  revision : Revision e.notificationRevision

theorem validateEntries_ok {high : UInt64} {previous : Bytes}
    {entries : List NotificationSnapshotEntry}
    (h : validateEntries high previous entries = .ok ()) : ∀ e ∈ entries, EntryValid e := by
  induction entries generalizing previous with
  | nil => simp
  | cons e rest ih =>
    simp only [validateEntries, bind_eq_ok, exists_unit, reject_eq_ok, ne_eq, Decidable.not_not,
      validateNotificationBinding_ok] at h
    obtain ⟨hunknown, ⟨hid, hrevision⟩, -, -, hrest⟩ := h
    rw [List.forall_mem_cons]
    exact ⟨⟨hunknown, hid, hrevision⟩, ih hrest⟩

/-- What is accepted as the manifest of a snapshot. -/
structure ManifestValid (m : NotificationSnapshotManifest) : Prop where
  unknown : m.unknown = []
  recoveryRequestId : ∀ b, m.recoveryRequestId = some b → Identifier identifierSize b
  highWater : m.highWaterRevision ≤ maxNotificationRevision
  count : m.activeNotifications.length ≤ maxSnapshotEntries
  entries : ∀ e ∈ m.activeNotifications, EntryValid e

theorem validateNotificationSnapshotManifest_ok {m : NotificationSnapshotManifest}
    (h : validateNotificationSnapshotManifest m = .ok ()) : ManifestValid m := by
  simp only [validateNotificationSnapshotManifest, bind_eq_ok, exists_unit, reject_eq_ok, ne_eq,
    Decidable.not_not, not_any_badIdentifier, gt_iff_lt, UInt64.not_lt, Nat.not_lt] at h
  obtain ⟨hunknown, hrecovery, hhigh, hcount, hentries⟩ := h
  exact ⟨hunknown, hrecovery, hhigh, hcount, validateEntries_ok hentries⟩

theorem validateNotificationSnapshotRequest_ok {m : NotificationSnapshotRequest}
    (h : validateNotificationSnapshotRequest m = .ok ()) :
    m.unknown = [] ∧ Identifier identifierSize m.recoveryRequestId ∧
      m.resetHighWaterDeliveryId ≤ maxNotificationRevision := by
  simpa only [validateNotificationSnapshotRequest, bind_eq_ok, exists_unit, reject_eq_ok, ne_eq,
    Decidable.not_not, not_badIdentifier, gt_iff_lt, UInt64.not_lt] using h

/-! ### Actions -/

/-- What is accepted as an invocation. -/
structure InvokeValid (m : ActionInvoke) : Prop where
  unknown : m.unknown = []
  notificationId : TextWithin maxNotificationIDBytes m.notificationId
  revision : Revision m.notificationRevision
  idempotencyKey : Identifier identifierSize m.idempotencyKey
  actionId : m.actionId.length ≤ identifierSize
  replyText : ∀ t, m.replyText = some t → TextWithin maxReplyTextBytes t

theorem validateActionInvoke_ok {m : ActionInvoke} (h : validateActionInvoke m = .ok ()) :
    InvokeValid m := by
  simp only [validateActionInvoke, bind_eq_ok, exists_unit, reject_eq_ok, ne_eq, Decidable.not_not,
    not_badIdentifier, validateNotificationBinding_ok] at h
  obtain ⟨hunknown, ⟨hid, hrevision⟩, hkey, hrest⟩ := h
  refine ⟨hunknown, hid, hrevision, hkey, ?_, ?_⟩
  · split at hrest
    · simp only [reject_eq_ok, not_or, Decidable.not_not] at hrest
      rw [hrest.1]
      exact Nat.zero_le _
    · simp only [bind_eq_ok, exists_unit, reject_eq_ok, Decidable.not_not] at hrest
      exact Nat.le_of_eq hrest.1
  · split at hrest
    · simp only [reject_eq_ok, not_or, Decidable.not_not] at hrest
      simp [hrest.2]
    · simp only [bind_eq_ok, exists_unit, reject_eq_ok, not_any_badText] at hrest
      exact hrest.2

/-- What is accepted as a result. -/
structure ResultValid (m : ActionResult) : Prop where
  unknown : m.unknown = []
  idempotencyKey : Identifier identifierSize m.idempotencyKey
  status : statusSucceeded ≤ m.status ∧ m.status ≤ statusOutcomeUnknown
  detail : ∀ t, m.detail = some t → TextWithin maxResultDetailBytes t

theorem validateActionResult_ok {m : ActionResult} (h : validateActionResult m = .ok ()) :
    ResultValid m := by
  simp only [validateActionResult, bind_eq_ok, exists_unit, reject_eq_ok, ne_eq, Decidable.not_not,
    not_badIdentifier, not_any_badText, not_or, gt_iff_lt, Int32.not_lt] at h
  exact ⟨h.1, h.2.1, h.2.2.1, h.2.2.2⟩

theorem validateActionResultAck_ok {m : ActionResultAck} (h : validateActionResultAck m = .ok ()) :
    m.unknown = [] ∧ Identifier identifierSize m.idempotencyKey ∧
      Identifier sha256Size m.resultSha256 := by
  simpa only [validateActionResultAck, bind_eq_ok, exists_unit, reject_eq_ok, ne_eq,
    Decidable.not_not, not_badIdentifier] using h

/-! ### Identity keys -/

@[simp] theorem validateTransitionBinding_ok {transitionID previousKeyID newKeyID : Bytes} :
    validateTransitionBinding transitionID previousKeyID newKeyID = .ok () ↔
      Identifier identifierSize transitionID ∧ Identifier sha256Size previousKeyID ∧
      Identifier sha256Size newKeyID ∧ previousKeyID ≠ newKeyID := by
  simp only [validateTransitionBinding, bind_eq_ok, exists_unit, reject_eq_ok, not_badIdentifier,
    ne_eq]

theorem validateIdentityKeyTransition_ok {m : IdentityKeyTransition}
    (h : validateIdentityKeyTransition crypto m = .ok ()) :
    m.unknown = [] ∧ Identifier identifierSize m.transitionId ∧
      Identifier sha256Size m.previousKeyId ∧ Identifier sha256Size m.newKeyId ∧
      m.newPublicKey.length = p256PublicKeySize := by
  simp only [validateIdentityKeyTransition, bind_eq_ok, exists_unit, reject_eq_ok, ne_eq,
    Decidable.not_not, validateTransitionBinding_ok] at h
  obtain ⟨hunknown, ⟨hid, hprevious, hnew, -⟩, hkey, -⟩ := h
  exact ⟨hunknown, hid, hprevious, hnew, hkey⟩

theorem validateIdentityKeyTransitionAck_ok {m : IdentityKeyTransitionAck}
    (h : validateIdentityKeyTransitionAck m = .ok ()) :
    m.unknown = [] ∧ Identifier identifierSize m.transitionId ∧
      Identifier sha256Size m.previousKeyId ∧ Identifier sha256Size m.newKeyId ∧
      Identifier sha256Size m.transitionSha256 := by
  simp only [validateIdentityKeyTransitionAck, bind_eq_ok, exists_unit, reject_eq_ok, ne_eq,
    Decidable.not_not, validateTransitionBinding_ok, not_badIdentifier] at h
  obtain ⟨hunknown, ⟨hid, hprevious, hnew, -⟩, htransition⟩ := h
  exact ⟨hunknown, hid, hprevious, hnew, htransition⟩

theorem validateIdentityKeyTransitionCommit_ok {m : IdentityKeyTransitionCommit}
    (h : validateIdentityKeyTransitionCommit m = .ok ()) :
    m.unknown = [] ∧ Identifier identifierSize m.transitionId ∧
      Identifier sha256Size m.previousKeyId ∧ Identifier sha256Size m.newKeyId ∧
      Identifier sha256Size m.transitionSha256 ∧ Identifier sha256Size m.ackSha256 := by
  simp only [validateIdentityKeyTransitionCommit, bind_eq_ok, exists_unit, reject_eq_ok, ne_eq,
    Decidable.not_not, validateTransitionBinding_ok, not_badIdentifier] at h
  obtain ⟨hunknown, ⟨hid, hprevious, hnew, -⟩, htransition, hack⟩ := h
  exact ⟨hunknown, hid, hprevious, hnew, htransition, hack⟩

end SevenMirror.PayloadCodec
