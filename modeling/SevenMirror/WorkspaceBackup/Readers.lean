import SevenMirror.WorkspaceBackup.Restore

/-! What the parts of a restore read: which paths, and what there is at them when they succeed. -/

namespace SevenMirror.WorkspaceBackup

open Lib Fallible MembershipCodec

section Readers

variable {crypto : Crypto} {formats : Formats} {S : Path → Prop} {path : Path}

end Readers

/-! ### What there is when a reader succeeds -/

section Quiet

variable {crypto : Crypto} {formats : Formats} {fs : FileSystem} {path : Path} {id : WorkspaceID}
  {key : AuthorityPublicKey}

/-- The bytes are a database that the inspection accepts, with the key of the workspace. -/
def Inspects (formats : Formats) (content : Bytes) (id : WorkspaceID) (key : AuthorityPublicKey) :
    Prop :=
  ∃ snapshot, formats.sqlite content = some snapshot ∧ snapshot.integrityOk = true ∧
    snapshot.foreignKeyViolation = false ∧ snapshot.version = currentSchemaVersion ∧
    snapshot.authorityPublicKey id = some key.bytes

end Quiet

end SevenMirror.WorkspaceBackup
