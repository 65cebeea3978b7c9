import Mathlib.Data.List.Infix
import SevenMirror.Lib.Reject
import SevenMirror.MembershipCodec.Codec
import SevenMirror.PayloadCodec.Messages

/-! The payload codec of `protocol/payloadcodec/payload.go`. -/

namespace SevenMirror.PayloadCodec

open Lib Wire

open MembershipCodec (Crypto)

def currentSchemaVersion : UInt32 := 2

def identityLifecycleSchemaVersion : UInt32 := 2

def notificationSchemaVersion : UInt32 := 7

def maxPlaintextSize : Nat := 524272

def maxNotificationIDBytes : Nat := 512

def maxNotificationAppIDBytes : Nat := 255

def maxNotificationAppNameBytes : Nat := 512

def maxNotificationTitleBytes : Nat := 512

def maxNotificationBodyBytes : Nat := 4000

def maxNotificationActions : Nat := 16

def maxNotificationActionTitleBytes : Nat := 256

def maxNotificationMediaBytes : Nat := 128 * 1024

def maxNotificationMediaDimension : UInt32 := 256

def maxSnapshotEntries : Nat := 200

def maxReplyTextBytes : Nat := 4000

def maxResultDetailBytes : Nat := 256

def identifierSize : Nat := 16

def sha256Size : Nat := 32

def p256PublicKeySize : Nat := 65

def maxNotificationRevision : UInt64 := 0x7fffffffffffffff

/-- What the media of a notification is of. -/
inductive MediaField
  | appIcon
  | avatar
deriving DecidableEq, Repr

inductive MediaError
  | unknown | bytes | dimensions | digest | notPNG | notWebP | mimeType
deriving DecidableEq, Repr

/-- The errors, one for each message of the source. -/
inductive PayloadError
  | size | encoding | decoding | reencoding | notCanonical
  | unknown | noBody | schemaVersion
  | upsertUnknown | upsertText | title | body | contentImage | tooManyActions | actionIDs
  | requiredText (field : String)
  | media (field : MediaField) (error : MediaError)
  | actionUnknown | actionID | actionTitle | actionText
  | removedUnknown
  | manifestUnknown | recoveryRequestID | highWaterRevision | tooManyEntries | entryUnknown
  | entryRevision | entryOrder
  | requestUnknown | resetHighWater
  | notificationID | notificationRevision
  | invokeUnknown | idempotencyKey | dismiss | invokeActionID | replyText
  | resultUnknown | resultStatus | resultDetail
  | ackUnknown | resultSHA256
  | transitionUnknown | newPublicKeySize | newPublicKeyPoint | newKeyIDDigest
  | transitionAckUnknown | transitionSHA256
  | commitUnknown | ackSHA256
  | transitionID | previousKeyID | newKeyID | sameKey
deriving DecidableEq, Repr

/-- `!utf8.ValidString(value) || len(value) < 1 || len(value) > maxBytes`. -/
def badText (maxBytes : Nat) (value : Bytes) : Bool :=
  !validUtf8 value || decide (value.length < 1) || decide (value.length > maxBytes)

/-- `len(value) != size || allZero(value)`. -/
def badIdentifier (size : Nat) (value : Bytes) : Bool := decide (value.length ≠ size) || allZero value

/-! ### Notifications -/

def validateNotificationBinding (notificationID : Bytes) (revision : UInt64) :
    Except PayloadError Unit := do
  reject (badText maxNotificationIDBytes notificationID) .notificationID
  reject (revision < 1 ∨ revision > maxNotificationRevision) .notificationRevision

def validateRequiredText (value : Bytes) (maxBytes : Nat) (field : String) :
    Except PayloadError Unit :=
  reject (badText maxBytes value) (.requiredText field)

def pngSignature : Bytes := [0x89, 0x50, 0x4e, 0x47, 0x0d, 0x0a, 0x1a, 0x0a]

def validateNotificationMedia (crypto : Crypto) (media : NotificationMedia) :
    Except MediaError Unit := do
  reject (media.unknown ≠ []) .unknown
  let encoded := media.encodedBytes
  reject (encoded.length < 1 ∨ encoded.length > maxNotificationMediaBytes) .bytes
  reject (media.width < 1 ∨ media.width > maxNotificationMediaDimension ∨
    media.height < 1 ∨ media.height > maxNotificationMediaDimension) .dimensions
  reject (media.contentSha256 ≠ (crypto.sha256 encoded).bytes) .digest
  if media.mimeType = mimeTypePNG then
    reject (encoded.length < pngSignature.length ∨ encoded.take pngSignature.length ≠ pngSignature)
      .notPNG
  else if media.mimeType = mimeTypeWebP then
    reject (encoded.length < 12 ∨ slice encoded 0 4 ≠ "RIFF".toUTF8.toList ∨
      slice encoded 8 4 ≠ "WEBP".toUTF8.toList) .notWebP
  else throw .mimeType

/-- The media, if there is any. -/
def validateOptionalMedia (crypto : Crypto) (field : MediaField) (media : Option NotificationMedia) :
    Except PayloadError Unit :=
  match media with
  | none => return ()
  | some media => rethrow (.media field) (validateNotificationMedia crypto media)

def validateNotificationActionDescriptor (action : NotificationActionDescriptor) :
    Except PayloadError Unit := do
  reject (action.unknown ≠ []) .actionUnknown
  reject (action.actionId.length ≠ identifierSize) .actionID
  reject (badText maxNotificationActionTitleBytes action.title) .actionTitle
  reject (action.allowsFreeFormInput ∧ ¬ action.requiresTextInput) .actionText

/-- The loop over the actions, after those with the identifiers `seen`. -/
def validateActions (seen : List Bytes) : List NotificationActionDescriptor →
    Except PayloadError Unit
  | [] => return ()
  | action :: rest => do
    validateNotificationActionDescriptor action
    reject (seen.contains action.actionId) .actionIDs
    validateActions (action.actionId :: seen) rest

/-- `[图片]`. -/
def imagePlaceholder : Bytes := "[图片]".toUTF8.toList

def validateNotificationUpsert (crypto : Crypto) (notification : NotificationUpsert) :
    Except PayloadError Unit := do
  reject (notification.unknown ≠ []) .upsertUnknown
  validateNotificationBinding notification.notificationId notification.notificationRevision
  validateRequiredText notification.sourceApplicationId maxNotificationAppIDBytes
    "notification source application id"
  validateRequiredText notification.sourceApplicationName maxNotificationAppNameBytes
    "notification source application name"
  reject (notification.title = none ∧ notification.body = none) .upsertText
  reject (notification.title.any (badText maxNotificationTitleBytes)) .title
  reject (notification.body.any (badText maxNotificationBodyBytes)) .body
  reject (notification.containsContentImage ∧
    ¬ notification.body.any fun body => decide (imagePlaceholder <:+: body)) .contentImage
  validateOptionalMedia crypto .appIcon notification.appIcon
  validateOptionalMedia crypto .avatar notification.avatar
  reject (notification.actions.length > maxNotificationActions) .tooManyActions
  validateActions [] notification.actions

def validateNotificationRemoved (notification : NotificationRemoved) : Except PayloadError Unit := do
  reject (notification.unknown ≠ []) .removedUnknown
  validateNotificationBinding notification.notificationId notification.notificationRevision

/-- The loop over the entries, after the one with the identifier `previousID`, which is empty before
the first. -/
def validateEntries (highWaterRevision : UInt64) (previousID : Bytes) :
    List NotificationSnapshotEntry → Except PayloadError Unit
  | [] => return ()
  | entry :: rest => do
    reject (entry.unknown ≠ []) .entryUnknown
    validateNotificationBinding entry.notificationId entry.notificationRevision
    reject (entry.notificationRevision > highWaterRevision) .entryRevision
    reject (previousID ≠ [] ∧ entry.notificationId ≤ previousID) .entryOrder
    validateEntries highWaterRevision entry.notificationId rest

def validateNotificationSnapshotManifest (manifest : NotificationSnapshotManifest) :
    Except PayloadError Unit := do
  reject (manifest.unknown ≠ []) .manifestUnknown
  reject (manifest.recoveryRequestId.any (badIdentifier identifierSize)) .recoveryRequestID
  reject (manifest.highWaterRevision > maxNotificationRevision) .highWaterRevision
  reject (manifest.activeNotifications.length > maxSnapshotEntries) .tooManyEntries
  validateEntries manifest.highWaterRevision [] manifest.activeNotifications

def validateNotificationSnapshotRequest (request : NotificationSnapshotRequest) :
    Except PayloadError Unit := do
  reject (request.unknown ≠ []) .requestUnknown
  reject (badIdentifier identifierSize request.recoveryRequestId) .recoveryRequestID
  reject (request.resetHighWaterDeliveryId > maxNotificationRevision) .resetHighWater

/-! ### Actions -/

def validateActionInvoke (action : ActionInvoke) : Except PayloadError Unit := do
  reject (action.unknown ≠ []) .invokeUnknown
  validateNotificationBinding action.notificationId action.notificationRevision
  reject (badIdentifier identifierSize action.idempotencyKey) .idempotencyKey
  if action.dismissNotification then
    reject (action.actionId.length ≠ 0 ∨ action.replyText ≠ none) .dismiss
  else
    reject (action.actionId.length ≠ identifierSize) .invokeActionID
    reject (action.replyText.any (badText maxReplyTextBytes)) .replyText

def validateActionResult (result : ActionResult) : Except PayloadError Unit := do
  reject (result.unknown ≠ []) .resultUnknown
  reject (badIdentifier identifierSize result.idempotencyKey) .idempotencyKey
  reject (result.status < statusSucceeded ∨ result.status > statusOutcomeUnknown) .resultStatus
  reject (result.detail.any (badText maxResultDetailBytes)) .resultDetail

def validateActionResultAck (ack : ActionResultAck) : Except PayloadError Unit := do
  reject (ack.unknown ≠ []) .ackUnknown
  reject (badIdentifier identifierSize ack.idempotencyKey) .idempotencyKey
  reject (badIdentifier sha256Size ack.resultSha256) .resultSHA256

/-! ### Identity keys -/

def validateTransitionBinding (transitionID previousKeyID newKeyID : Bytes) :
    Except PayloadError Unit := do
  reject (badIdentifier identifierSize transitionID) .transitionID
  reject (badIdentifier sha256Size previousKeyID) .previousKeyID
  reject (badIdentifier sha256Size newKeyID) .newKeyID
  reject (previousKeyID = newKeyID) .sameKey

def validateIdentityKeyTransition (crypto : Crypto) (transition : IdentityKeyTransition) :
    Except PayloadError Unit := do
  reject (transition.unknown ≠ []) .transitionUnknown
  validateTransitionBinding transition.transitionId transition.previousKeyId transition.newKeyId
  reject (transition.newPublicKey.length ≠ p256PublicKeySize) .newPublicKeySize
  reject (¬ crypto.onCurve transition.newPublicKey) .newPublicKeyPoint
  reject ((crypto.sha256 transition.newPublicKey).bytes ≠ transition.newKeyId) .newKeyIDDigest

def validateIdentityKeyTransitionAck (ack : IdentityKeyTransitionAck) :
    Except PayloadError Unit := do
  reject (ack.unknown ≠ []) .transitionAckUnknown
  validateTransitionBinding ack.transitionId ack.previousKeyId ack.newKeyId
  reject (badIdentifier sha256Size ack.transitionSha256) .transitionSHA256

def validateIdentityKeyTransitionCommit (commit : IdentityKeyTransitionCommit) :
    Except PayloadError Unit := do
  reject (commit.unknown ≠ []) .commitUnknown
  validateTransitionBinding commit.transitionId commit.previousKeyId commit.newKeyId
  reject (badIdentifier sha256Size commit.transitionSha256) .transitionSHA256
  reject (badIdentifier sha256Size commit.ackSha256) .ackSHA256

/-! ### Payloads -/

def validateActionSchema (payload : EncryptedPayload) (allowLegacy dismissNotification : Bool)
    (bodyError : Except PayloadError Unit) : Except PayloadError Unit :=
  if payload.schemaVersion = currentSchemaVersion then bodyError
  else if allowLegacy ∧ payload.schemaVersion = 1 ∧ ¬ dismissNotification then bodyError
  else throw .schemaVersion

def validateSchema (payload : EncryptedPayload) (expected : UInt32)
    (bodyError : Except PayloadError Unit) : Except PayloadError Unit :=
  if payload.schemaVersion ≠ expected then throw .schemaVersion else bodyError

variable (crypto : Crypto)

/-- `validate`, for a payload that is there. -/
def validatePayload (payload : EncryptedPayload) (allowLegacyActionSchema : Bool) :
    Except PayloadError Unit := do
  reject (payload.unknown ≠ []) .unknown
  match payload.body with
  | some (.actionInvoke m) =>
    validateActionSchema payload allowLegacyActionSchema m.dismissNotification
      (validateActionInvoke m)
  | some (.actionResult m) =>
    validateActionSchema payload allowLegacyActionSchema false (validateActionResult m)
  | some (.actionResultAck m) =>
    validateActionSchema payload allowLegacyActionSchema false (validateActionResultAck m)
  | some (.identityKeyTransition m) =>
    validateSchema payload identityLifecycleSchemaVersion (validateIdentityKeyTransition crypto m)
  | some (.identityKeyTransitionAck m) =>
    validateSchema payload identityLifecycleSchemaVersion (validateIdentityKeyTransitionAck m)
  | some (.identityKeyTransitionCommit m) =>
    validateSchema payload identityLifecycleSchemaVersion (validateIdentityKeyTransitionCommit m)
  | some (.notificationUpsert m) =>
    validateSchema payload notificationSchemaVersion (validateNotificationUpsert crypto m)
  | some (.notificationRemoved m) =>
    validateSchema payload notificationSchemaVersion (validateNotificationRemoved m)
  | some (.notificationSnapshotManifest m) =>
    validateSchema payload notificationSchemaVersion (validateNotificationSnapshotManifest m)
  | some (.notificationSnapshotRequest m) =>
    validateSchema payload notificationSchemaVersion (validateNotificationSnapshotRequest m)
  | none => throw .noBody

/-- `Validate`. -/
def validate (payload : EncryptedPayload) : Except PayloadError Unit :=
  validatePayload crypto payload false

def encode (payload : EncryptedPayload) : Except PayloadError Bytes := do
  validate crypto payload
  let encoded ← require (payloadCodec.marshal payload) .encoding
  reject (encoded.length = 0 ∨ encoded.length > maxPlaintextSize) .size
  return encoded

def decode (encoded : Bytes) : Except PayloadError EncryptedPayload := do
  reject (encoded.length = 0 ∨ encoded.length > maxPlaintextSize) .size
  let payload ← require (payloadCodec.unmarshal encoded) .decoding
  validatePayload crypto payload true
  let canonical ← require (payloadCodec.marshal payload) .reencoding
  reject (canonical ≠ encoded) .notCanonical
  return payload

end SevenMirror.PayloadCodec
