import SevenMirror.Basic
import SevenMirror.Lib.FieldKinds

/-! The messages of `protocol/proto/membership/v1/membership.proto`.  A field that a Go literal does
not set has its zero value; `unknown` holds the records that a reader did not know. -/

namespace SevenMirror.MembershipCodec

open Lib Wire

abbrev DeviceType := Int32

def deviceTypeUnspecified : DeviceType := 0

def deviceTypeAndroid : DeviceType := 1

def deviceTypeChrome : DeviceType := 2

abbrev DeviceRole := Int32

def deviceRoleUnspecified : DeviceRole := 0

def deviceRoleSendNotifications : DeviceRole := 1

def deviceRoleManageDevices : DeviceRole := 4

abbrev DeviceCertificateTransitionReason := Int32

def reasonDisplayName : DeviceCertificateTransitionReason := 1

structure DeviceCertificate where
  protocolVersion : UInt32 := 0
  workspaceId : Bytes := []
  deviceId : Bytes := []
  deviceType : DeviceType := 0
  displayName : Bytes := []
  roles : List DeviceRole := []
  identityPublicKey : Bytes := []
  identityKeyId : Bytes := []
  issuedAtUnixMs : UInt64 := 0
  expiresAtUnixMs : UInt64 := 0
  membershipEpoch : UInt64 := 0
  unknown : Bytes := []
deriving DecidableEq, Repr

structure SignedDeviceCertificate where
  certificate : Option DeviceCertificate := none
  certificateId : Bytes := []
  authoritySignature : Bytes := []
  unknown : Bytes := []
deriving DecidableEq, Repr

structure RevokedCertificate where
  certificateId : Bytes := []
  deviceId : Bytes := []
  revokedAtUnixMs : UInt64 := 0
  unknown : Bytes := []
deriving DecidableEq, Repr

structure DeviceCertificateTransition where
  protocolVersion : UInt32 := 0
  workspaceId : Bytes := []
  deviceId : Bytes := []
  previousCertificateId : Bytes := []
  newCertificateId : Bytes := []
  activationRosterEpoch : UInt64 := 0
  previousRosterDigest : Bytes := []
  reason : DeviceCertificateTransitionReason := 0
  issuedAtUnixMs : UInt64 := 0
  unknown : Bytes := []
deriving DecidableEq, Repr

structure WorkspaceRoster where
  protocolVersion : UInt32 := 0
  workspaceId : Bytes := []
  rosterEpoch : UInt64 := 0
  previousRosterDigest : Bytes := []
  activeCertificates : List SignedDeviceCertificate := []
  revocations : List RevokedCertificate := []
  certificateTransitions : List DeviceCertificateTransition := []
  unknown : Bytes := []
deriving DecidableEq, Repr

structure SignedWorkspaceRoster where
  roster : Option WorkspaceRoster := none
  rosterDigest : Bytes := []
  authoritySignature : Bytes := []
  unknown : Bytes := []
deriving DecidableEq, Repr

structure AuthorityKeyTransition where
  protocolVersion : UInt32 := 0
  workspaceId : Bytes := []
  transitionEpoch : UInt64 := 0
  previousTransitionDigest : Bytes := []
  previousAuthorityPublicKey : Bytes := []
  newAuthorityPublicKey : Bytes := []
  activationRosterEpoch : UInt64 := 0
  previousRosterDigest : Bytes := []
  issuedAtUnixMs : UInt64 := 0
  unknown : Bytes := []
deriving DecidableEq, Repr

structure SignedAuthorityKeyTransition where
  transition : Option AuthorityKeyTransition := none
  transitionDigest : Bytes := []
  previousAuthoritySignature : Bytes := []
  newAuthoritySignature : Bytes := []
  unknown : Bytes := []
deriving DecidableEq, Repr

/-! ### Codecs -/

def certificateCodec : Codec DeviceCertificate where
  fields :=
    [uint32.field 1 { get := (·.protocolVersion), set := fun v m => { m with protocolVersion := v } },
      bytes.field 2 { get := (·.workspaceId), set := fun v m => { m with workspaceId := v } },
      bytes.field 3 { get := (·.deviceId), set := fun v m => { m with deviceId := v } },
      enum.field 4 { get := (·.deviceType), set := fun v m => { m with deviceType := v } },
      string.field 5 { get := (·.displayName), set := fun v m => { m with displayName := v } },
      packed.field 6 { get := (·.roles), set := fun v m => { m with roles := v } },
      bytes.field 7 { get := (·.identityPublicKey),
                      set := fun v m => { m with identityPublicKey := v } },
      bytes.field 8 { get := (·.identityKeyId), set := fun v m => { m with identityKeyId := v } },
      uint64.field 9 { get := (·.issuedAtUnixMs), set := fun v m => { m with issuedAtUnixMs := v } },
      uint64.field 10 { get := (·.expiresAtUnixMs),
                        set := fun v m => { m with expiresAtUnixMs := v } },
      uint64.field 11 { get := (·.membershipEpoch),
                        set := fun v m => { m with membershipEpoch := v } }]
  empty := {}
  unknown := { get := (·.unknown), set := fun v m => { m with unknown := v } }
  ascending := by decide
  valid := by decide
  builds := fun ⟨_, _, _, _, _, _, _, _, _, _, _, _⟩ h =>
    ⟨rfl, rfl, rfl, rfl, rfl, rfl, rfl, rfl, rfl, rfl, rfl, by cases h; rfl⟩

def signedCertificateCodec : Codec SignedDeviceCertificate where
  fields :=
    [(message certificateCodec).field 1 { get := (·.certificate),
                                          set := fun v m => { m with certificate := v } },
      bytes.field 2 { get := (·.certificateId), set := fun v m => { m with certificateId := v } },
      bytes.field 3 { get := (·.authoritySignature),
                      set := fun v m => { m with authoritySignature := v } }]
  empty := {}
  unknown := { get := (·.unknown), set := fun v m => { m with unknown := v } }
  ascending := by decide
  valid := by decide
  builds := fun ⟨_, _, _, _⟩ h => ⟨rfl, rfl, rfl, by cases h; rfl⟩

def revokedCertificateCodec : Codec RevokedCertificate where
  fields :=
    [bytes.field 1 { get := (·.certificateId), set := fun v m => { m with certificateId := v } },
      bytes.field 2 { get := (·.deviceId), set := fun v m => { m with deviceId := v } },
      uint64.field 3 { get := (·.revokedAtUnixMs),
                       set := fun v m => { m with revokedAtUnixMs := v } }]
  empty := {}
  unknown := { get := (·.unknown), set := fun v m => { m with unknown := v } }
  ascending := by decide
  valid := by decide
  builds := fun ⟨_, _, _, _⟩ h =>
    ⟨rfl, rfl, rfl, by cases h; rfl⟩

def certificateTransitionCodec : Codec DeviceCertificateTransition where
  fields :=
    [uint32.field 1 { get := (·.protocolVersion),
                      set := fun v m => { m with protocolVersion := v } },
      bytes.field 2 { get := (·.workspaceId), set := fun v m => { m with workspaceId := v } },
      bytes.field 3 { get := (·.deviceId), set := fun v m => { m with deviceId := v } },
      bytes.field 4 { get := (·.previousCertificateId),
                      set := fun v m => { m with previousCertificateId := v } },
      bytes.field 5 { get := (·.newCertificateId),
                      set := fun v m => { m with newCertificateId := v } },
      uint64.field 6 { get := (·.activationRosterEpoch),
                       set := fun v m => { m with activationRosterEpoch := v } },
      bytes.field 7 { get := (·.previousRosterDigest),
                      set := fun v m => { m with previousRosterDigest := v } },
      enum.field 8 { get := (·.reason), set := fun v m => { m with reason := v } },
      uint64.field 9 { get := (·.issuedAtUnixMs),
                       set := fun v m => { m with issuedAtUnixMs := v } }]
  empty := {}
  unknown := { get := (·.unknown), set := fun v m => { m with unknown := v } }
  ascending := by decide
  valid := by decide
  builds := fun ⟨_, _, _, _, _, _, _, _, _, _⟩ h =>
    ⟨rfl, rfl, rfl, rfl, rfl, rfl, rfl, rfl, rfl, by cases h; rfl⟩

def rosterCodec : Codec WorkspaceRoster where
  fields :=
    [uint32.field 1 { get := (·.protocolVersion),
                      set := fun v m => { m with protocolVersion := v } },
      bytes.field 2 { get := (·.workspaceId), set := fun v m => { m with workspaceId := v } },
      uint64.field 3 { get := (·.rosterEpoch), set := fun v m => { m with rosterEpoch := v } },
      bytes.field 4 { get := (·.previousRosterDigest),
                      set := fun v m => { m with previousRosterDigest := v } },
      (repeated signedCertificateCodec).field 5 { get := (·.activeCertificates),
                                                  set := fun v m => { m with activeCertificates := v } },
      (repeated revokedCertificateCodec).field 6 { get := (·.revocations),
                                                   set := fun v m => { m with revocations := v } },
      (repeated certificateTransitionCodec).field 7 { get := (·.certificateTransitions),
                                                      set := fun v m => { m with certificateTransitions := v } }]
  empty := {}
  unknown := { get := (·.unknown), set := fun v m => { m with unknown := v } }
  ascending := by decide
  valid := by decide
  builds := fun ⟨_, _, _, _, _, _, _, _⟩ h =>
    ⟨rfl, rfl, rfl, rfl, rfl, rfl, rfl, by cases h; rfl⟩

def signedRosterCodec : Codec SignedWorkspaceRoster where
  fields :=
    [(message rosterCodec).field 1 { get := (·.roster), set := fun v m => { m with roster := v } },
      bytes.field 2 { get := (·.rosterDigest), set := fun v m => { m with rosterDigest := v } },
      bytes.field 3 { get := (·.authoritySignature),
                      set := fun v m => { m with authoritySignature := v } }]
  empty := {}
  unknown := { get := (·.unknown), set := fun v m => { m with unknown := v } }
  ascending := by decide
  valid := by decide
  builds := fun ⟨_, _, _, _⟩ h =>
    ⟨rfl, rfl, rfl, by cases h; rfl⟩

def authorityTransitionCodec : Codec AuthorityKeyTransition where
  fields :=
    [uint32.field 1 { get := (·.protocolVersion),
                      set := fun v m => { m with protocolVersion := v } },
      bytes.field 2 { get := (·.workspaceId), set := fun v m => { m with workspaceId := v } },
      uint64.field 3 { get := (·.transitionEpoch),
                       set := fun v m => { m with transitionEpoch := v } },
      bytes.field 4 { get := (·.previousTransitionDigest),
                      set := fun v m => { m with previousTransitionDigest := v } },
      bytes.field 5 { get := (·.previousAuthorityPublicKey),
                      set := fun v m => { m with previousAuthorityPublicKey := v } },
      bytes.field 6 { get := (·.newAuthorityPublicKey),
                      set := fun v m => { m with newAuthorityPublicKey := v } },
      uint64.field 7 { get := (·.activationRosterEpoch),
                       set := fun v m => { m with activationRosterEpoch := v } },
      bytes.field 8 { get := (·.previousRosterDigest),
                      set := fun v m => { m with previousRosterDigest := v } },
      uint64.field 9 { get := (·.issuedAtUnixMs),
                       set := fun v m => { m with issuedAtUnixMs := v } }]
  empty := {}
  unknown := { get := (·.unknown), set := fun v m => { m with unknown := v } }
  ascending := by decide
  valid := by decide
  builds := fun ⟨_, _, _, _, _, _, _, _, _, _⟩ h =>
    ⟨rfl, rfl, rfl, rfl, rfl, rfl, rfl, rfl, rfl, by cases h; rfl⟩

def signedAuthorityTransitionCodec : Codec SignedAuthorityKeyTransition where
  fields :=
    [(message authorityTransitionCodec).field 1 { get := (·.transition),
                                                  set := fun v m => { m with transition := v } },
      bytes.field 2 { get := (·.transitionDigest),
                      set := fun v m => { m with transitionDigest := v } },
      bytes.field 3 { get := (·.previousAuthoritySignature),
                      set := fun v m => { m with previousAuthoritySignature := v } },
      bytes.field 4 { get := (·.newAuthoritySignature),
                      set := fun v m => { m with newAuthoritySignature := v } }]
  empty := {}
  unknown := { get := (·.unknown), set := fun v m => { m with unknown := v } }
  ascending := by decide
  valid := by decide
  builds := fun ⟨_, _, _, _, _⟩ h =>
    ⟨rfl, rfl, rfl, rfl, by cases h; rfl⟩

end SevenMirror.MembershipCodec
