import Mathlib.Data.List.Basic

/-! A reader and writer lock, as the set of its holders. -/

namespace SevenMirror.Lib

structure RWLock where
  readers : List Nat
  writer : Option Nat
  exclusive : writer ≠ none → readers = []

namespace RWLock

def free : RWLock := ⟨[], none, fun _ => rfl⟩

/-- Thread `t` joins the readers of a lock without a writer. -/
def rLock (l : RWLock) (t : Nat) (h : l.writer = none) : RWLock :=
  ⟨t :: l.readers, l.writer, fun hw => absurd h hw⟩

def rUnlock (l : RWLock) (t : Nat) : RWLock :=
  ⟨l.readers.erase t, l.writer, fun hw => by rw [l.exclusive hw]; rfl⟩

/-- Thread `t` becomes the writer of a lock without readers. -/
def lock (l : RWLock) (t : Nat) (h : l.readers = []) : RWLock := ⟨l.readers, some t, fun _ => h⟩

def unlock (l : RWLock) : RWLock := ⟨l.readers, none, fun h => absurd rfl h⟩

theorem not_mem_readers {l : RWLock} {t u : Nat} (hw : l.writer = some t) : u ∉ l.readers := by
  rw [l.exclusive (by simp [hw])]
  exact List.not_mem_nil

theorem mem_rUnlock {l : RWLock} {t u : Nat} (hne : u ≠ t) (h : u ∈ l.readers) :
    u ∈ (l.rUnlock t).readers :=
  (List.mem_erase_of_ne hne).mpr h

end RWLock

end SevenMirror.Lib
