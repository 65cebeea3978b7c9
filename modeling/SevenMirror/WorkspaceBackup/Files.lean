import SevenMirror.Lib.Faults
import SevenMirror.WorkspaceBackup.Manifest
import Mathlib.Data.Finmap

/-! File systems, and the operations that a restore makes on them.  A path has no symbolic links.  An
operation may fail: a write then leaves a part of what was to be written, and `MkdirAll` a part of
the directories. -/

namespace SevenMirror.WorkspaceBackup

open Lib

/-- The names from the root. -/
abbrev Path := List Bytes

inductive Node
  | file (content : Bytes) (mode : Nat)
  | directory (mode : Nat)
deriving DecidableEq

abbrev FileSystem := Finmap fun _ : Path => Node

/-- `failed` is the error of an operation that the faults let fail. -/
inductive FileError
  | failed
  | notExist
  | exist
  | notDirectory
  | isDirectory
deriving DecidableEq, Repr

/-- The errors of a restore. -/
inductive RestoreError
  | file (error : FileError)
  | manifest (error : ManifestError)
  | destinationsRequired | destinationWithin | directoryRequired
  | notDirectory | notRegular | permissions | tooLarge | shortWrite
  | wrongWorkspace | registryDigest | authorityMismatch | restoredDigest
  | notDatabase | integrity | foreignKeys | schemaVersion | noAuthority | invalidAuthority
  | zeroAuthorityKey | authorityWorkspace | authorityPublicKey | keyIDBinding | privateKeyDigest
  | notPKCS8 | notEd25519 | privateKeyMismatch
  | unexpectedEntry | missingEntry
  | differentKey
deriving DecidableEq, Repr

/-- `0o600`. -/
def fileMode : Nat := 0x180

/-- `0o700`. -/
def directoryMode : Nat := 0x1c0

namespace FileSystem

variable (fs : FileSystem) (path : Path)

def IsFile : Prop := ∃ content mode, fs.lookup path = some (.file content mode)

def IsDirectory : Prop := ∃ mode, fs.lookup path = some (.directory mode)

/-- The content of a file. -/
def read : Except RestoreError Bytes :=
  match fs.lookup path with
  | none => .error (.file .notExist)
  | some (.directory _) => .error (.file .isDirectory)
  | some (.file content _) => .ok content

/-- The file system with another content of a file. -/
def write (content : Bytes) : FileSystem :=
  match fs.lookup path with
  | some (.file _ mode) => fs.insert path (.file content mode)
  | _ => fs

/-- The names in a directory. -/
def entries : Finset Bytes :=
  (fs.keys.filter fun p => p ≠ [] ∧ p.dropLast = path).image fun p => p.getLastD []

/-- The directories that lead to the path, and the path itself, without the root. -/
def steps : List Path := path.inits.filter (· ≠ [])

def missing : List Path := (steps path).filter fun p => fs.lookup p = none

end FileSystem

/-! ### Operations -/

abbrev FileProgram := Fallible FileSystem RestoreError

/-- `os.Lstat`, and `Stat` of a file that is open. -/
def lstat (path : Path) : FileProgram Node :=
  .look (.file .failed) fun fs => require (fs.lookup path) (.file .notExist)

/-- `os.Open`. -/
def openRead (path : Path) : FileProgram Unit :=
  .look (.file .failed) fun fs => reject (fs.lookup path = none) (.file .notExist)

/-- `io.ReadAll` and `io.Copy` from a file. -/
def readAll (path : Path) : FileProgram Bytes :=
  .look (.file .failed) fun fs => fs.read path

/-- `os.ReadDir`. -/
def readDir (path : Path) : FileProgram (Finset Bytes) :=
  .look (.file .failed) fun fs =>
    match fs.lookup path with
    | none => .error (.file .notExist)
    | some (.file ..) => .error (.file .notDirectory)
    | some (.directory _) => .ok (fs.entries path)

/-- `Sync` and `Close`. -/
def flush : FileProgram Unit := .look (.file .failed) fun _ => .ok ()

/-- `os.Remove` of a file that the restore created. -/
def remove (path : Path) : FileProgram Unit := .change fun fs => fs.erase path

end SevenMirror.WorkspaceBackup
