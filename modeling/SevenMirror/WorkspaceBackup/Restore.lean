import SevenMirror.MembershipCodec.Codec
import SevenMirror.WorkspaceBackup.Files

/-! `RestoreTo` and `Verify` of `internal/workspacebackup/backup.go`, `RestoreAuthorityBackup` and
`VerifyAuthorityBackup` of `internal/membership/authority_backup.go`, and what they call, on a
system that is not Windows. -/

namespace SevenMirror.WorkspaceBackup

open Lib Fallible MembershipCodec

abbrev AuthorityPublicKey := Block 32

/-- What the checks of `InspectRegistryBackup` ask of a database. -/
structure Snapshot where
  integrityOk : Bool
  foreignKeyViolation : Bool
  version : Nat
  authorityPublicKey : WorkspaceID → Option Bytes

/-- The formats of other libraries: SQLite, and private keys in PKCS #8, of which `some none` is one
that is not an Ed25519 key. -/
structure Formats where
  sqlite : Bytes → Option Snapshot
  pkcs8 : Bytes → Option (Option Bytes)

def currentSchemaVersion : Nat := 11

def maximumEntry : Nat := 4096

variable (crypto : Crypto) (formats : Formats)

/-! ### The authority key -/

def authorityKeyID (publicKey : AuthorityPublicKey) : Bytes :=
  encodeBase64URL (crypto.sha256
    (text "SyncNotifications-workspace-authority-key-id-v1" ++ [UInt8.ofNat 0] ++
      publicKey.bytes)).bytes

def authorityPrivateKeyFileName (keyID : Bytes) : Bytes :=
  text "workspace-authority-" ++ keyID ++ text ".pk8"

def parseAuthorityPrivateKey (encoded : Bytes) : Except RestoreError Bytes := do
  let parsed ← require (formats.pkcs8 encoded) .notPKCS8
  let privateKey ← require parsed .notEd25519
  reject (privateKey.length ≠ ed25519PrivateKeySize) .notEd25519
  return privateKey

def readProtectedRegularFile (path : Path) (maximumBytes : Nat) : FileProgram Bytes := do
  let _ ← lstat path
  openRead path
  match ← lstat path with
  | .directory _ => check (.error .notRegular)
  | .file _ mode => do
    check (reject (mode ≠ fileMode) .permissions)
    let content ← readAll path
    let encoded := content.take (maximumBytes + 1)
    check (reject (encoded.length > maximumBytes) .tooLarge)
    return encoded

def loadAuthorityPrivateKeyFile (path : Path) (expected : AuthorityPublicKey) :
    FileProgram (Bytes × Bytes) := do
  let encoded ← readProtectedRegularFile path maximumEntry
  let privateKey ← check (parseAuthorityPrivateKey formats encoded)
  check (reject (publicKey privateKey ≠ expected.bytes) .privateKeyMismatch)
  return (privateKey, encoded)

structure AuthorityBackup where
  directory : Path
  manifestPath : Path
  privateKeyPath : Path
  keyID : Bytes
deriving DecidableEq

def validateProtectedDirectory (path : Path) : FileProgram Unit := do
  match ← lstat path with
  | .file .. => check (.error .notDirectory)
  | .directory mode => check (reject (mode ≠ directoryMode) .permissions)

def verifyAuthorityBackup (directory : Path) (workspaceID : WorkspaceID)
    (expectedPublicKey : AuthorityPublicKey) : FileProgram AuthorityBackup := do
  check (reject (allZero expectedPublicKey.bytes) .zeroAuthorityKey)
  validateProtectedDirectory directory
  let manifestPath := directory ++ [authorityBackupManifestName]
  let manifestBytes ← readProtectedRegularFile manifestPath maximumEntry
  let manifest ← check (rethrow .manifest (decodeAuthorityBackupManifest manifestBytes))
  check (reject (manifest.workspaceID ≠ workspaceID) .authorityWorkspace)
  check (reject (manifest.authorityPublicKey ≠ expectedPublicKey) .authorityPublicKey)
  let expectedKeyID := authorityKeyID crypto expectedPublicKey
  check (reject (manifest.authorityKeyID ≠ expectedKeyID ∨
    manifest.privateKeyFile ≠ authorityPrivateKeyFileName expectedKeyID) .keyIDBinding)
  let keyPath := directory ++ [manifest.privateKeyFile]
  let (_, encoded) ← loadAuthorityPrivateKeyFile formats keyPath expectedPublicKey
  check (reject (crypto.sha256 encoded ≠ manifest.privateKeySHA256) .privateKeyDigest)
  return ⟨directory, manifestPath, keyPath, expectedKeyID⟩

/-- A query of a database that is opened read-only. -/
def queryRegistry {α : Type} (path : Path) (query : Snapshot → α) : FileProgram α :=
  .look (.file .failed) fun fs => do
    let content ← fs.read path
    let snapshot ← require (formats.sqlite content) .notDatabase
    return query snapshot

def inspectRegistryBackup (path : Path) (workspaceID : WorkspaceID) :
    FileProgram AuthorityPublicKey := do
  let integrityOk ← queryRegistry formats path (·.integrityOk)
  check (reject (integrityOk = false) .integrity)
  let violation ← queryRegistry formats path (·.foreignKeyViolation)
  check (reject (violation = true) .foreignKeys)
  let version ← queryRegistry formats path (·.version)
  check (reject (version ≠ currentSchemaVersion) .schemaVersion)
  let stored ← queryRegistry formats path (·.authorityPublicKey workspaceID)
  let encoded ← check (require stored .noAuthority)
  check (require (Block.check 32 encoded) .invalidAuthority)

/-! ### The backup -/

structure Backup where
  directory : Path
  manifestPath : Path
  registryPath : Path
  authorityBackup : AuthorityBackup
  authorityKeyID : Bytes
  registrySHA256 : Block 32
deriving DecidableEq

/-- `validateDirectory`, for a path that is not empty. -/
def validateDirectory (path : Path) : FileProgram Unit := validateProtectedDirectory path

def validateProtectedFile (path : Path) : FileProgram Unit := do
  match ← lstat path with
  | .directory _ => check (.error .notRegular)
  | .file _ mode => check (reject (mode ≠ fileMode) .permissions)

def readProtectedFile (path : Path) (maximum : Nat) : FileProgram Bytes := do
  validateProtectedFile path
  openRead path
  let content ← readAll path
  let encoded := content.take (maximum + 1)
  check (reject (encoded.length > maximum) .tooLarge)
  return encoded

def fileSHA256 (path : Path) : FileProgram (Block 32) := do
  openRead path
  let content ← readAll path
  return crypto.sha256 content

/-- The directory has the names, and no other. -/
def exactEntries (path : Path) (expected : Finset Bytes) : FileProgram Unit := do
  let entries ← readDir path
  check (reject (¬ entries ⊆ expected) .unexpectedEntry)
  check (reject (¬ expected ⊆ entries) .missingEntry)

def validateExactEntries (directory : Path) (authorityBackup : AuthorityBackup) :
    FileProgram Unit := do
  exactEntries directory {manifestName, registryName, authorityDirectory}
  exactEntries (directory ++ [authorityDirectory])
    {authorityBackup.manifestPath.getLastD [], authorityBackup.privateKeyPath.getLastD []}

/-- `Verify`, of a path that is not empty. -/
def verifyDirectory (directory : Path) (workspaceID : WorkspaceID) : FileProgram Backup := do
  validateDirectory directory
  let manifestPath := directory ++ [manifestName]
  let encoded ← readProtectedFile manifestPath maximumEntry
  let manifest ← check (rethrow .manifest (decodeManifest encoded))
  check (reject (manifest.workspaceID ≠ workspaceID) .wrongWorkspace)
  let registryPath := directory ++ [registryName]
  validateProtectedFile registryPath
  let digest ← fileSHA256 crypto registryPath
  check (reject (digest ≠ manifest.registrySHA256) .registryDigest)
  let publicKey ← inspectRegistryBackup formats registryPath workspaceID
  check (reject (authorityKeyID crypto publicKey ≠ manifest.authorityKeyID) .authorityMismatch)
  let authorityBackup ← verifyAuthorityBackup crypto formats (directory ++ [authorityDirectory])
    workspaceID publicKey
  validateExactEntries directory authorityBackup
  return ⟨directory, manifestPath, registryPath, authorityBackup, manifest.authorityKeyID,
    manifest.registrySHA256⟩

/-- `Verify`; the empty path is none. -/
def verify (directory : Option Path) (workspaceID : WorkspaceID) : FileProgram Backup := do
  let directory ← check (require directory .directoryRequired)
  verifyDirectory crypto formats directory workspaceID

end SevenMirror.WorkspaceBackup
