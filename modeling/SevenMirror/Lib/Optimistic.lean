import SevenMirror.Lib.Machine
import SevenMirror.Lib.Numbered

/-! Optimistic writes.  A value is stored with a revision, and a write names the revision that it
replaces.  If a step of a machine that succeeds in writing meets the revision that it names and
stores the next one, and no other step changes the value, then the revisions of the writes of a run
are numbered without a gap and the stored value is that of the last write. -/

namespace SevenMirror.Lib

/-- A value with its revision. -/
structure Versioned (α : Type) where
  revision : Nat
  value : α
deriving DecidableEq, Repr

/-- A write that succeeded: the revision that it named, and the value with the one that it got. -/
structure VersionedWrite (α : Type) where
  expected : Nat
  stored : Versioned α
deriving DecidableEq, Repr

/-- The revision of a value; there is none before the first write. -/
def revisionOf {α : Type} (stored : Option (Versioned α)) : Nat :=
  (stored.map (·.revision)).getD 0

variable {σ ι ο α : Type}

/-- What each step of the machine does to the value. -/
structure Optimistic (m : Machine σ ι ο) (stored : σ → Option (Versioned α))
    (wrote : ι × ο → Option (VersionedWrite α)) : Prop where
  write : ∀ s call w, wrote (call, (m.step s call).2) = some w →
    revisionOf (stored s) = w.expected ∧ w.stored.revision = w.expected + 1 ∧
      stored (m.step s call).1 = some w.stored
  other : ∀ s call, wrote (call, (m.step s call).2) = none →
    stored (m.step s call).1 = stored s

theorem Numbered.countP_le_one {ρ : Type} {number : ρ → Nat} {start n : Nat} {rows : List ρ}
    {p : ρ → Bool} (h : Numbered number start rows)
    (hp : ∀ r ∈ rows, p r = true → number r = n) : rows.countP p ≤ 1 := by
  have hcount : rows.countP p ≤ (rows.map number).count n := by
    rw [List.count, List.countP_map]
    exact List.countP_mono_left fun r hr hpr => by simp [hp r hr hpr]
  rw [h] at hcount
  exact Nat.le_trans hcount (List.nodup_iff_count.mp List.nodup_range' n)

namespace Optimistic

variable {m : Machine σ ι ο} {stored : σ → Option (Versioned α)}
  {wrote : ι × ο → Option (VersionedWrite α)}

/-- The writes get the revisions `1, 2, 3, …`, each the one after that which it named, and the value
is that of the last write. -/
theorem run (h : Optimistic m stored wrote) {s : σ} (hs : stored s = none) (calls : List ι) :
    Numbered (·.stored.revision) 1 ((m.trace s calls).filterMap wrote) ∧
      (∀ w ∈ (m.trace s calls).filterMap wrote, w.stored.revision = w.expected + 1) ∧
      stored (m.run s calls) = ((m.trace s calls).filterMap wrote).getLast?.map (·.stored) := by
  refine m.run_induction (R := fun t history =>
    Numbered (·.stored.revision) 1 (history.filterMap wrote) ∧
      (∀ w ∈ history.filterMap wrote, w.stored.revision = w.expected + 1) ∧
      stored t = (history.filterMap wrote).getLast?.map (·.stored)) ⟨.nil, by simp, hs⟩ ?_ calls
  rintro t history call ⟨hnumbered, hnext, hlast⟩
  rw [List.filterMap_append]
  cases hwrote : wrote (call, (m.step t call).2) with
  | none =>
    rw [List.filterMap_cons_none hwrote, List.filterMap_nil, List.append_nil, h.other t call hwrote]
    exact ⟨hnumbered, hnext, hlast⟩
  | some w =>
    obtain ⟨hexpected, hrevision, hstored⟩ := h.write t call w hwrote
    rw [List.filterMap_cons_some hwrote, List.filterMap_nil, List.getLast?_concat]
    refine ⟨hnumbered.concat ?_, fun x hx => ?_, hstored⟩
    · -- the revision that the write names is that of the last one
      rw [hrevision, ← hexpected, hlast, Nat.add_comm]
      cases hwrites : ((history.filterMap wrote).getLast?) with
      | none => simp [revisionOf, List.getLast?_eq_none_iff.mp hwrites]
      | some last =>
        have := hnumbered.last hwrites
        simp only [revisionOf, Option.map_some, Option.getD_some]
        omega
    · rcases List.mem_append.mp hx with hx | hx
      · exact hnext x hx
      · rw [List.mem_singleton.mp hx]
        exact hrevision

/-- Of the writes that name the same revision at most one succeeds. -/
theorem expected_at_most_once (h : Optimistic m stored wrote) {s : σ} (hs : stored s = none)
    (calls : List ι) (n : Nat) :
    ((m.trace s calls).filterMap wrote).countP (·.expected = n) ≤ 1 := by
  obtain ⟨hnumbered, hnext, -⟩ := h.run hs calls
  refine hnumbered.countP_le_one (n := n + 1) fun w hw hn => ?_
  rw [hnext w hw, of_decide_eq_true hn]

end Optimistic

end SevenMirror.Lib
