import SevenMirror.Basic
import SevenMirror.Lib.Presence

/-! The messages of `protocol/proto/notification/v1/payload.proto`.  A field that a Go literal does not
set has its zero value; `unknown` holds the records that a reader did not know. -/

namespace SevenMirror.PayloadCodec

open Lib Wire

abbrev ActionResultStatus := Int32

def statusSucceeded : ActionResultStatus := 1

def statusOutcomeUnknown : ActionResultStatus := 9

abbrev NotificationMediaMimeType := Int32

def mimeTypePNG : NotificationMediaMimeType := 1

def mimeTypeWebP : NotificationMediaMimeType := 2

structure ActionInvoke where
  notificationId : Bytes := []
  notificationRevision : UInt64 := 0
  actionId : Bytes := []
  idempotencyKey : Bytes := []
  replyText : Option Bytes := none
  dismissNotification : Bool := false
  unknown : Bytes := []
deriving DecidableEq, Repr

structure ActionResult where
  idempotencyKey : Bytes := []
  status : ActionResultStatus := 0
  detail : Option Bytes := none
  unknown : Bytes := []
deriving DecidableEq, Repr

structure ActionResultAck where
  idempotencyKey : Bytes := []
  resultSha256 : Bytes := []
  unknown : Bytes := []
deriving DecidableEq, Repr

structure IdentityKeyTransition where
  transitionId : Bytes := []
  previousKeyId : Bytes := []
  newPublicKey : Bytes := []
  newKeyId : Bytes := []
  unknown : Bytes := []
deriving DecidableEq, Repr

structure IdentityKeyTransitionAck where
  transitionId : Bytes := []
  previousKeyId : Bytes := []
  newKeyId : Bytes := []
  transitionSha256 : Bytes := []
  unknown : Bytes := []
deriving DecidableEq, Repr

structure IdentityKeyTransitionCommit where
  transitionId : Bytes := []
  previousKeyId : Bytes := []
  newKeyId : Bytes := []
  transitionSha256 : Bytes := []
  ackSha256 : Bytes := []
  unknown : Bytes := []
deriving DecidableEq, Repr

structure NotificationMedia where
  contentSha256 : Bytes := []
  mimeType : NotificationMediaMimeType := 0
  width : UInt32 := 0
  height : UInt32 := 0
  encodedBytes : Bytes := []
  unknown : Bytes := []
deriving DecidableEq, Repr

structure NotificationActionDescriptor where
  actionId : Bytes := []
  title : Bytes := []
  requiresTextInput : Bool := false
  allowsFreeFormInput : Bool := false
  unknown : Bytes := []
deriving DecidableEq, Repr

structure NotificationUpsert where
  notificationId : Bytes := []
  notificationRevision : UInt64 := 0
  title : Option Bytes := none
  body : Option Bytes := none
  appIcon : Option NotificationMedia := none
  avatar : Option NotificationMedia := none
  containsContentImage : Bool := false
  actions : List NotificationActionDescriptor := []
  sourceApplicationId : Bytes := []
  sourceApplicationName : Bytes := []
  unknown : Bytes := []
deriving DecidableEq, Repr

structure NotificationRemoved where
  notificationId : Bytes := []
  notificationRevision : UInt64 := 0
  unknown : Bytes := []
deriving DecidableEq, Repr

structure NotificationSnapshotEntry where
  notificationId : Bytes := []
  notificationRevision : UInt64 := 0
  unknown : Bytes := []
deriving DecidableEq, Repr

structure NotificationSnapshotManifest where
  highWaterRevision : UInt64 := 0
  activeNotifications : List NotificationSnapshotEntry := []
  recoveryRequestId : Option Bytes := none
  unknown : Bytes := []
deriving DecidableEq, Repr

structure NotificationSnapshotRequest where
  recoveryRequestId : Bytes := []
  resetHighWaterDeliveryId : UInt64 := 0
  unknown : Bytes := []
deriving DecidableEq, Repr

/-- The members of the oneof `body`. -/
inductive Body
  | actionInvoke (m : ActionInvoke)
  | actionResult (m : ActionResult)
  | actionResultAck (m : ActionResultAck)
  | identityKeyTransition (m : IdentityKeyTransition)
  | identityKeyTransitionAck (m : IdentityKeyTransitionAck)
  | identityKeyTransitionCommit (m : IdentityKeyTransitionCommit)
  | notificationUpsert (m : NotificationUpsert)
  | notificationRemoved (m : NotificationRemoved)
  | notificationSnapshotManifest (m : NotificationSnapshotManifest)
  | notificationSnapshotRequest (m : NotificationSnapshotRequest)
deriving DecidableEq, Repr

structure EncryptedPayload where
  schemaVersion : UInt32 := 0
  body : Option Body := none
  unknown : Bytes := []
deriving DecidableEq, Repr

/-! ### Codecs -/

def actionInvokeCodec : Codec ActionInvoke where
  fields :=
    [string.field 1 { get := (·.notificationId), set := fun v m => { m with notificationId := v } },
      uint64.field 2 { get := (·.notificationRevision),
                       set := fun v m => { m with notificationRevision := v } },
      bytes.field 3 { get := (·.actionId), set := fun v m => { m with actionId := v } },
      bytes.field 4 { get := (·.idempotencyKey), set := fun v m => { m with idempotencyKey := v } },
      optionalString.field 5 { get := (·.replyText), set := fun v m => { m with replyText := v } },
      boolean.field 6 { get := (·.dismissNotification),
                        set := fun v m => { m with dismissNotification := v } }]
  empty := {}
  unknown := { get := (·.unknown), set := fun v m => { m with unknown := v } }
  ascending := by decide
  valid := by decide
  builds := fun ⟨_, _, _, _, _, _, _⟩ h => ⟨rfl, rfl, rfl, rfl, rfl, rfl, by cases h; rfl⟩

def actionResultCodec : Codec ActionResult where
  fields :=
    [bytes.field 1 { get := (·.idempotencyKey), set := fun v m => { m with idempotencyKey := v } },
      enum.field 2 { get := (·.status), set := fun v m => { m with status := v } },
      optionalString.field 3 { get := (·.detail), set := fun v m => { m with detail := v } }]
  empty := {}
  unknown := { get := (·.unknown), set := fun v m => { m with unknown := v } }
  ascending := by decide
  valid := by decide
  builds := fun ⟨_, _, _, _⟩ h => ⟨rfl, rfl, rfl, by cases h; rfl⟩

def actionResultAckCodec : Codec ActionResultAck where
  fields :=
    [bytes.field 1 { get := (·.idempotencyKey), set := fun v m => { m with idempotencyKey := v } },
      bytes.field 2 { get := (·.resultSha256), set := fun v m => { m with resultSha256 := v } }]
  empty := {}
  unknown := { get := (·.unknown), set := fun v m => { m with unknown := v } }
  ascending := by decide
  valid := by decide
  builds := fun ⟨_, _, _⟩ h => ⟨rfl, rfl, by cases h; rfl⟩

def identityKeyTransitionCodec : Codec IdentityKeyTransition where
  fields :=
    [bytes.field 1 { get := (·.transitionId), set := fun v m => { m with transitionId := v } },
      bytes.field 2 { get := (·.previousKeyId), set := fun v m => { m with previousKeyId := v } },
      bytes.field 3 { get := (·.newPublicKey), set := fun v m => { m with newPublicKey := v } },
      bytes.field 4 { get := (·.newKeyId), set := fun v m => { m with newKeyId := v } }]
  empty := {}
  unknown := { get := (·.unknown), set := fun v m => { m with unknown := v } }
  ascending := by decide
  valid := by decide
  builds := fun ⟨_, _, _, _, _⟩ h => ⟨rfl, rfl, rfl, rfl, by cases h; rfl⟩

def identityKeyTransitionAckCodec : Codec IdentityKeyTransitionAck where
  fields :=
    [bytes.field 1 { get := (·.transitionId), set := fun v m => { m with transitionId := v } },
      bytes.field 2 { get := (·.previousKeyId), set := fun v m => { m with previousKeyId := v } },
      bytes.field 3 { get := (·.newKeyId), set := fun v m => { m with newKeyId := v } },
      bytes.field 4 { get := (·.transitionSha256),
                      set := fun v m => { m with transitionSha256 := v } }]
  empty := {}
  unknown := { get := (·.unknown), set := fun v m => { m with unknown := v } }
  ascending := by decide
  valid := by decide
  builds := fun ⟨_, _, _, _, _⟩ h => ⟨rfl, rfl, rfl, rfl, by cases h; rfl⟩

def identityKeyTransitionCommitCodec : Codec IdentityKeyTransitionCommit where
  fields :=
    [bytes.field 1 { get := (·.transitionId), set := fun v m => { m with transitionId := v } },
      bytes.field 2 { get := (·.previousKeyId), set := fun v m => { m with previousKeyId := v } },
      bytes.field 3 { get := (·.newKeyId), set := fun v m => { m with newKeyId := v } },
      bytes.field 4 { get := (·.transitionSha256),
                      set := fun v m => { m with transitionSha256 := v } },
      bytes.field 5 { get := (·.ackSha256), set := fun v m => { m with ackSha256 := v } }]
  empty := {}
  unknown := { get := (·.unknown), set := fun v m => { m with unknown := v } }
  ascending := by decide
  valid := by decide
  builds := fun ⟨_, _, _, _, _, _⟩ h => ⟨rfl, rfl, rfl, rfl, rfl, by cases h; rfl⟩

def mediaCodec : Codec NotificationMedia where
  fields :=
    [bytes.field 1 { get := (·.contentSha256), set := fun v m => { m with contentSha256 := v } },
      enum.field 2 { get := (·.mimeType), set := fun v m => { m with mimeType := v } },
      uint32.field 3 { get := (·.width), set := fun v m => { m with width := v } },
      uint32.field 4 { get := (·.height), set := fun v m => { m with height := v } },
      bytes.field 5 { get := (·.encodedBytes), set := fun v m => { m with encodedBytes := v } }]
  empty := {}
  unknown := { get := (·.unknown), set := fun v m => { m with unknown := v } }
  ascending := by decide
  valid := by decide
  builds := fun ⟨_, _, _, _, _, _⟩ h => ⟨rfl, rfl, rfl, rfl, rfl, by cases h; rfl⟩

def actionDescriptorCodec : Codec NotificationActionDescriptor where
  fields :=
    [bytes.field 1 { get := (·.actionId), set := fun v m => { m with actionId := v } },
      string.field 2 { get := (·.title), set := fun v m => { m with title := v } },
      boolean.field 3 { get := (·.requiresTextInput),
                        set := fun v m => { m with requiresTextInput := v } },
      boolean.field 4 { get := (·.allowsFreeFormInput),
                        set := fun v m => { m with allowsFreeFormInput := v } }]
  empty := {}
  unknown := { get := (·.unknown), set := fun v m => { m with unknown := v } }
  ascending := by decide
  valid := by decide
  builds := fun ⟨_, _, _, _, _⟩ h => ⟨rfl, rfl, rfl, rfl, by cases h; rfl⟩

def upsertCodec : Codec NotificationUpsert where
  fields :=
    [string.field 1 { get := (·.notificationId), set := fun v m => { m with notificationId := v } },
      uint64.field 2 { get := (·.notificationRevision),
                       set := fun v m => { m with notificationRevision := v } },
      optionalString.field 3 { get := (·.title), set := fun v m => { m with title := v } },
      optionalString.field 4 { get := (·.body), set := fun v m => { m with body := v } },
      (message mediaCodec).field 5 { get := (·.appIcon), set := fun v m => { m with appIcon := v } },
      (message mediaCodec).field 6 { get := (·.avatar), set := fun v m => { m with avatar := v } },
      boolean.field 7 { get := (·.containsContentImage),
                        set := fun v m => { m with containsContentImage := v } },
      (repeated actionDescriptorCodec).field 8 { get := (·.actions),
                                                 set := fun v m => { m with actions := v } },
      string.field 9 { get := (·.sourceApplicationId),
                       set := fun v m => { m with sourceApplicationId := v } },
      string.field 10 { get := (·.sourceApplicationName),
                        set := fun v m => { m with sourceApplicationName := v } }]
  empty := {}
  unknown := { get := (·.unknown), set := fun v m => { m with unknown := v } }
  ascending := by decide
  valid := by decide
  builds := fun ⟨_, _, _, _, _, _, _, _, _, _, _⟩ h =>
    ⟨rfl, rfl, rfl, rfl, rfl, rfl, rfl, rfl, rfl, rfl, by cases h; rfl⟩

def removedCodec : Codec NotificationRemoved where
  fields :=
    [string.field 1 { get := (·.notificationId), set := fun v m => { m with notificationId := v } },
      uint64.field 2 { get := (·.notificationRevision),
                       set := fun v m => { m with notificationRevision := v } }]
  empty := {}
  unknown := { get := (·.unknown), set := fun v m => { m with unknown := v } }
  ascending := by decide
  valid := by decide
  builds := fun ⟨_, _, _⟩ h => ⟨rfl, rfl, by cases h; rfl⟩

def snapshotEntryCodec : Codec NotificationSnapshotEntry where
  fields :=
    [string.field 1 { get := (·.notificationId), set := fun v m => { m with notificationId := v } },
      uint64.field 2 { get := (·.notificationRevision),
                       set := fun v m => { m with notificationRevision := v } }]
  empty := {}
  unknown := { get := (·.unknown), set := fun v m => { m with unknown := v } }
  ascending := by decide
  valid := by decide
  builds := fun ⟨_, _, _⟩ h => ⟨rfl, rfl, by cases h; rfl⟩

def snapshotManifestCodec : Codec NotificationSnapshotManifest where
  fields :=
    [uint64.field 1 { get := (·.highWaterRevision),
                      set := fun v m => { m with highWaterRevision := v } },
      (repeated snapshotEntryCodec).field 2 { get := (·.activeNotifications),
                                              set := fun v m => { m with activeNotifications := v } },
      optionalBytes.field 3 { get := (·.recoveryRequestId),
                              set := fun v m => { m with recoveryRequestId := v } }]
  empty := {}
  unknown := { get := (·.unknown), set := fun v m => { m with unknown := v } }
  ascending := by decide
  valid := by decide
  builds := fun ⟨_, _, _, _⟩ h => ⟨rfl, rfl, rfl, by cases h; rfl⟩

def snapshotRequestCodec : Codec NotificationSnapshotRequest where
  fields :=
    [bytes.field 1 { get := (·.recoveryRequestId),
                     set := fun v m => { m with recoveryRequestId := v } },
      uint64.field 2 { get := (·.resetHighWaterDeliveryId),
                       set := fun v m => { m with resetHighWaterDeliveryId := v } }]
  empty := {}
  unknown := { get := (·.unknown), set := fun v m => { m with unknown := v } }
  ascending := by decide
  valid := by decide
  builds := fun ⟨_, _, _⟩ h => ⟨rfl, rfl, by cases h; rfl⟩

/-! ### The payload -/

namespace Body

def getActionInvoke : Body → Option ActionInvoke
  | actionInvoke m => some m
  | _ => none

def getActionResult : Body → Option ActionResult
  | actionResult m => some m
  | _ => none

def getActionResultAck : Body → Option ActionResultAck
  | actionResultAck m => some m
  | _ => none

def getIdentityKeyTransition : Body → Option IdentityKeyTransition
  | identityKeyTransition m => some m
  | _ => none

def getIdentityKeyTransitionAck : Body → Option IdentityKeyTransitionAck
  | identityKeyTransitionAck m => some m
  | _ => none

def getIdentityKeyTransitionCommit : Body → Option IdentityKeyTransitionCommit
  | identityKeyTransitionCommit m => some m
  | _ => none

def getNotificationUpsert : Body → Option NotificationUpsert
  | notificationUpsert m => some m
  | _ => none

def getNotificationRemoved : Body → Option NotificationRemoved
  | notificationRemoved m => some m
  | _ => none

def getNotificationSnapshotManifest : Body → Option NotificationSnapshotManifest
  | notificationSnapshotManifest m => some m
  | _ => none

def getNotificationSnapshotRequest : Body → Option NotificationSnapshotRequest
  | notificationSnapshotRequest m => some m
  | _ => none

end Body

/-- A member of the oneof. -/
def bodyMember {V : Type} (get : Body → Option V) (wrap : V → Body) : Member EncryptedPayload V where
  get m := m.body.bind get
  set v m := { m with body := some (wrap v) }

def payloadCodec : Codec EncryptedPayload where
  fields :=
    [uint32.field 1 { get := (·.schemaVersion), set := fun v m => { m with schemaVersion := v } },
      (bodyMember Body.getActionInvoke .actionInvoke).field 10 actionInvokeCodec,
      (bodyMember Body.getActionResult .actionResult).field 11 actionResultCodec,
      (bodyMember Body.getActionResultAck .actionResultAck).field 12 actionResultAckCodec,
      (bodyMember Body.getIdentityKeyTransition .identityKeyTransition).field 13
        identityKeyTransitionCodec,
      (bodyMember Body.getIdentityKeyTransitionAck .identityKeyTransitionAck).field 14
        identityKeyTransitionAckCodec,
      (bodyMember Body.getIdentityKeyTransitionCommit .identityKeyTransitionCommit).field 15
        identityKeyTransitionCommitCodec,
      (bodyMember Body.getNotificationUpsert .notificationUpsert).field 16 upsertCodec,
      (bodyMember Body.getNotificationRemoved .notificationRemoved).field 17 removedCodec,
      (bodyMember Body.getNotificationSnapshotManifest .notificationSnapshotManifest).field 18
        snapshotManifestCodec,
      (bodyMember Body.getNotificationSnapshotRequest .notificationSnapshotRequest).field 19
        snapshotRequestCodec]
  empty := {}
  unknown := { get := (·.unknown), set := fun v m => { m with unknown := v } }
  ascending := by decide
  valid := by decide
  builds := by
    rintro ⟨version, body, unknown⟩ h
    cases h
    cases body with
    | none => exact ⟨rfl, rfl, rfl, rfl, rfl, rfl, rfl, rfl, rfl, rfl, rfl, rfl⟩
    | some body =>
      cases body <;> exact ⟨rfl, rfl, rfl, rfl, rfl, rfl, rfl, rfl, rfl, rfl, rfl, rfl⟩

end SevenMirror.PayloadCodec
