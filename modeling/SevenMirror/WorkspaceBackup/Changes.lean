import SevenMirror.WorkspaceBackup.Readers

/-! What the parts of a restore change, whatever fails: directories on the way to a destination, and
one new file, which is whole or is gone. -/

namespace SevenMirror.WorkspaceBackup

open Lib Fallible MembershipCodec

section FileSystems

variable {fs fs' fs'' : FileSystem} {path : Path} {D D' : Path → Prop}

/-- Nothing has changed at the path, or it is a directory of `D` that is new or has another mode. -/
def GrownAt (D : Path → Prop) (fs fs' : FileSystem) (p : Path) : Prop :=
  fs'.lookup p = fs.lookup p ∨
    D p ∧ (fs.lookup p = none ∧ p ≠ [] ∨ fs.IsDirectory p) ∧ fs'.IsDirectory p

def Grown (D : Path → Prop) (fs fs' : FileSystem) : Prop := ∀ p, GrownAt D fs fs' p

theorem GrownAt.trans {p : Path} (h : GrownAt D fs fs' p) (h' : GrownAt D fs' fs'' p) :
    GrownAt D fs fs'' p := by
  rcases h with heq | ⟨hD, hbefore, hafter⟩ <;> rcases h' with heq' | ⟨hD', hbefore', hafter'⟩
  · exact Or.inl (heq'.trans heq)
  · rw [FileSystem.IsDirectory, heq] at hbefore'
    exact Or.inr ⟨hD', hbefore', hafter'⟩
  · refine Or.inr ⟨hD, hbefore, ?_⟩
    rwa [FileSystem.IsDirectory, heq']
  · exact Or.inr ⟨hD, hbefore, hafter'⟩

theorem GrownAt.mono {p : Path} (h : GrownAt D fs fs' p) (hD : D p → D' p) : GrownAt D' fs fs' p :=
  h.imp_right fun ⟨hp, hrest⟩ => ⟨hD hp, hrest⟩

theorem GrownAt.file {p : Path} (h : GrownAt D fs fs' p) {content : Bytes} {mode : Nat} :
    fs'.lookup p = some (.file content mode) ↔ fs.lookup p = some (.file content mode) := by
  rcases h with heq | ⟨-, hbefore, mode', hafter⟩
  · rw [heq]
  · rw [hafter]
    rcases hbefore with ⟨hnone, -⟩ | ⟨mode'', hdirectory⟩
    · simp [hnone]
    · simp [hdirectory]

theorem GrownAt.absent {p : Path} (h : GrownAt D fs fs' p) (hp : fs'.lookup p = none) :
    fs.lookup p = none := by
  rcases h with heq | ⟨-, -, mode, hafter⟩
  · rw [← heq, hp]
  · rw [hp] at hafter
    cases hafter

theorem Grown.refl (D : Path → Prop) (fs : FileSystem) : Grown D fs fs := fun _ => Or.inl rfl

theorem Grown.trans (h : Grown D fs fs') (h' : Grown D fs' fs'') : Grown D fs fs'' :=
  fun p => (h p).trans (h' p)

end FileSystems

section Programs

variable {crypto : Crypto} {formats : Formats} {fs : FileSystem} {path : Path}

theorem flush_ends : Ends flush fs (fun _ fs' => fs' = fs) fun _ fs' => fs' = fs :=
  ((ReadOnly.look _ _).ends fs).mono (fun _ _ h => h.1) fun _ _ h => h

/-- An operation on an open file, which is closed when it fails. -/
theorem Ends.closing {α : Type} {m : FileProgram α} {Q : α → FileSystem → Prop}
    {E : FileSystem → Prop} (h : Ends m fs Q fun _ => E) :
    Ends (onFailure m flush) fs Q fun _ => E := by
  refine h.onFailure fun e fs' hE => flush_ends.mono (fun _ fs'' heq => ?_) fun _ fs'' heq => ?_
  · rwa [heq]
  · rwa [heq]

/-- Nothing has changed but directories of `D`, and a new file that `K` allows. -/
def Left (D : Path → Prop) (K : Path → Bytes → Prop) (fs fs' : FileSystem) : Prop := ∀ p,
  GrownAt D fs fs' p ∨
    ∃ content, K p content ∧ fs.lookup p = none ∧ fs'.lookup p = some (.file content fileMode)

section Left

variable {D : Path → Prop} {K : Path → Bytes → Prop} {fs' fs'' : FileSystem}

theorem Grown.left (h : Grown D fs fs') : Left D K fs fs' := fun p => Or.inl (h p)

/-- A file is still there. -/
theorem Left.file (h : Left D K fs fs') {p : Path} {content : Bytes} {mode : Nat}
    (hfile : fs.lookup p = some (.file content mode)) :
    fs'.lookup p = some (.file content mode) := by
  rcases h p with hp | ⟨_, -, hnone, -⟩
  · exact hp.file.mpr hfile
  · rw [hfile] at hnone
    cases hnone

end Left

variable {key : AuthorityPublicKey}

/-- The name of the key file. -/
def keyName (crypto : Crypto) (key : AuthorityPublicKey) : Bytes :=
  authorityPrivateKeyFileName (authorityKeyID crypto key)

end Programs

end SevenMirror.WorkspaceBackup
