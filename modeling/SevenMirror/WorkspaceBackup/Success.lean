import SevenMirror.WorkspaceBackup.Changes

/-! What the parts of a restore do when nothing fails. -/

namespace SevenMirror.WorkspaceBackup

open Lib Fallible MembershipCodec

variable {crypto : Crypto} {formats : Formats} {fs fs' : FileSystem} {path : Path}
  {files : List Path} {id : WorkspaceID} {key : AuthorityPublicKey}

/-- The directory and those above it are there or can be made: no file is in the place of one, and
none of `files` is to be. -/
def Usable (fs : FileSystem) (files : List Path) (path : Path) : Prop := ∀ p, p <+: path →
  p ∉ files ∧ (fs.IsDirectory p ∨ fs.lookup p = none ∧ p ≠ [])

/-- Directories may be made meanwhile, and files that were to be. -/
theorem Usable.left {D : Path → Prop} {K : Path → Bytes → Prop} (h : Usable fs files path)
    (hleft : Left D K fs fs') (hK : ∀ p content, K p content → p ∈ files) :
    Usable fs' files path := by
  intro p hp
  obtain ⟨hfiles, hbefore⟩ := h p hp
  refine ⟨hfiles, ?_⟩
  rcases hleft p with (heq | ⟨-, -, hdirectory⟩) | ⟨content, hcontent, -⟩
  · rwa [FileSystem.IsDirectory, heq]
  · exact Or.inl hdirectory
  · exact absurd (hK p content hcontent) hfiles

/-- A new file of those that were to be. -/
theorem Usable.insert {p : Path} {node : Node} (h : Usable fs files path) (hp : p ∈ files) :
    Usable (fs.insert p node) files path := by
  intro q hq
  obtain ⟨hfiles, hbefore⟩ := h q hq
  have hne : q ≠ p := by
    rintro rfl
    exact hfiles hp
  rw [FileSystem.IsDirectory, Finmap.lookup_insert_of_ne _ hne]
  exact ⟨hfiles, hbefore⟩

end SevenMirror.WorkspaceBackup
