import SevenMirror.Basic
import SevenMirror.Lib.Reject
import SevenMirror.Lib.Text

/-! The manifests of a backup: that of `internal/workspacebackup/backup.go`, and that of the authority
key in `internal/membership/authority_backup.go`. -/

namespace SevenMirror.WorkspaceBackup

open Lib

/-- The bytes of a Go string. -/
def text (s : String) : Bytes := s.toUTF8.toList

def manifestName : Bytes := text "manifest.txt"

def registryName : Bytes := text "registry.sqlite"

def authorityDirectory : Bytes := text "authority"

def manifestMagic : Bytes := text "SEVENMIRROR-WORKSPACE-BACKUP-V1"

def authorityBackupManifestName : Bytes := text "manifest.txt"

def authorityBackupMagic : Bytes := text "SEVENMIRROR-WORKSPACE-AUTHORITY-BACKUP-V1"

def workspaceIDSize : Nat := 16

def sha256Size : Nat := 32

def newline : UInt8 := 0x0a

/-- The lines, each with its end. -/
def joinLines (lines : List Bytes) : Bytes := lines.flatMap fun line => line ++ [newline]

/-- The line `name=value`. -/
def field (name : String) (value : Bytes) : Bytes := text name ++ text "=" ++ value

/-- What follows `name=` on the line. -/
def fieldValue (name : String) (line : Bytes) : Option Bytes :=
  if (field name []).isPrefixOf line then some (line.drop (field name []).length) else none

inductive ManifestError
  | notCanonical
  | invalidField (name : String)
  | invalidKeyID
  | invalidFileName
deriving DecidableEq, Repr

/-- Base 64 of `size` bytes, as the encoder writes it. -/
def decodeExact (size : Nat) (encoded : Bytes) : Option (Block size) := do
  let decoded ← decodeBase64URL encoded
  let block ← Block.check size decoded
  if encodeBase64URL decoded = encoded then some block else none

/-! ### The manifest of the workspace -/

structure Manifest where
  workspaceID : WorkspaceID
  registrySHA256 : Block 32
  authorityKeyID : Bytes
deriving DecidableEq

def encodeManifest (value : Manifest) : Bytes :=
  joinLines [manifestMagic,
    field "workspace_id" (encodeBase64URL value.workspaceID.bytes),
    field "registry_file" registryName,
    field "registry_sha256" (encodeBase64URL value.registrySHA256.bytes),
    field "authority_directory" authorityDirectory,
    field "authority_key_id" value.authorityKeyID]

def decodeValue (line : Bytes) (name : String) (size : Nat) : Except ManifestError (Block size) := do
  let encoded ← require (fieldValue name line) (.invalidField name)
  require (decodeExact size encoded) (.invalidField name)

def decodeManifest (encoded : Bytes) : Except ManifestError Manifest :=
  match splitOn newline encoded with
  | [line0, line1, line2, line3, line4, line5, line6] => do
    reject (line0 ≠ manifestMagic ∨ line6 ≠ [] ∨ line2 ≠ field "registry_file" registryName ∨
      line4 ≠ field "authority_directory" authorityDirectory) .notCanonical
    let workspaceID ← decodeValue line1 "workspace_id" workspaceIDSize
    let registrySHA256 ← decodeValue line3 "registry_sha256" sha256Size
    let authorityKeyID ← require (fieldValue "authority_key_id" line5) .invalidKeyID
    reject (decodeExact sha256Size authorityKeyID = none) .invalidKeyID
    let value : Manifest := ⟨workspaceID, registrySHA256, authorityKeyID⟩
    reject (encoded ≠ encodeManifest value) .notCanonical
    return value
  | _ => throw .notCanonical

/-! ### The manifest of the authority key -/

structure AuthorityBackupManifest where
  workspaceID : Block 16
  authorityPublicKey : Block 32
  authorityKeyID : Bytes
  privateKeyFile : Bytes
  privateKeySHA256 : Block 32
deriving DecidableEq

def encodeAuthorityBackupManifest (value : AuthorityBackupManifest) : Bytes :=
  joinLines [authorityBackupMagic,
    field "workspace_id" (encodeBase64URL value.workspaceID.bytes),
    field "authority_public_key" (encodeBase64URL value.authorityPublicKey.bytes),
    field "authority_key_id" value.authorityKeyID,
    field "private_key_file" value.privateKeyFile,
    field "private_key_sha256" (encodeBase64URL value.privateKeySHA256.bytes)]

def manifestTextValue (line : Bytes) (name : String) : Except ManifestError Bytes := do
  let value ← require (fieldValue name line) (.invalidField name)
  reject (value = []) (.invalidField name)
  return value

def decodeManifestValue (line : Bytes) (name : String) (size : Nat) :
    Except ManifestError (Block size) := do
  let value ← manifestTextValue line name
  require (decodeExact size value) (.invalidField name)

def separator : UInt8 := 0x2f

/-- `filepath.Base`. -/
def base (path : Bytes) : Bytes :=
  if path = [] then text "."
  else
    let last := ((path.reverse.dropWhile (· == separator)).takeWhile (· != separator)).reverse
    if last = [] then [separator] else last

def decodeAuthorityBackupManifest (encoded : Bytes) :
    Except ManifestError AuthorityBackupManifest :=
  match splitOn newline encoded with
  | [line0, line1, line2, line3, line4, line5, line6] => do
    reject (line0 ≠ authorityBackupMagic ∨ line6 ≠ []) .notCanonical
    let workspaceID ← decodeManifestValue line1 "workspace_id" workspaceIDSize
    let authorityPublicKey ← decodeManifestValue line2 "authority_public_key" 32
    let authorityKeyID ← manifestTextValue line3 "authority_key_id"
    reject (decodeExact sha256Size authorityKeyID = none) .invalidKeyID
    let privateKeyFile ← manifestTextValue line4 "private_key_file"
    reject (base privateKeyFile ≠ privateKeyFile) .invalidFileName
    let privateKeySHA256 ← decodeManifestValue line5 "private_key_sha256" sha256Size
    let value : AuthorityBackupManifest :=
      ⟨workspaceID, authorityPublicKey, authorityKeyID, privateKeyFile, privateKeySHA256⟩
    reject (encoded ≠ encodeAuthorityBackupManifest value) .notCanonical
    return value
  | _ => throw .notCanonical

end SevenMirror.WorkspaceBackup
