import Mathlib.Data.Set.Basic
import Mathlib.Data.List.Basic
import Mathlib.Order.Lattice

/-! A numbered log whose entries disappear in three ways: the reader acknowledges a whole stretch
from the start, the keeper drops entries in any order, and the keeper reports how far it has
dropped.  The structure carries the facts that make the report honest: an entry past both marks is
still retained. -/

namespace SevenMirror.Lib

/-- Entry `n`, counted from 1, is `written[n - 1]`.  `retained` holds the numbers still stored,
`acked` the mark through which the reader acknowledged, and `lost` the mark through which entries
may have been dropped. -/
structure Log (α : Type*) where
  written : List α
  retained : Set ℕ
  acked : ℕ
  lost : ℕ
  acked_le : acked ≤ written.length
  lost_le : lost ≤ written.length
  bounds : ∀ n ∈ retained, acked < n ∧ n ≤ written.length
  covered : ∀ n, acked < n → lost < n → n ≤ written.length → n ∈ retained

namespace Log

variable {α : Type*}

/-- The log with nothing written. -/
def empty : Log α where
  written := []
  retained := ∅
  acked := 0
  lost := 0
  acked_le := Nat.le_refl 0
  lost_le := Nat.le_refl 0
  bounds := by simp
  covered := by intro n h _ hn; simp at hn; omega

/-- Writing an entry gives it the next number. -/
def push (l : Log α) (a : α) : Log α where
  written := l.written ++ [a]
  retained := insert (l.written.length + 1) l.retained
  acked := l.acked
  lost := l.lost
  acked_le := by simpa using Nat.le_succ_of_le l.acked_le
  lost_le := by simpa using Nat.le_succ_of_le l.lost_le
  bounds := by
    rintro n (rfl | hn)
    · have := l.acked_le
      simp only [List.length_append, List.length_cons, List.length_nil]
      omega
    · have := l.bounds n hn
      simp only [List.length_append, List.length_cons, List.length_nil]
      omega
  covered := by
    intro n ha hl hn
    simp only [List.length_append, List.length_cons, List.length_nil] at hn
    by_cases h : n = l.written.length + 1
    · exact Or.inl h
    · exact Or.inr (l.covered n ha hl (by omega))

/-- Dropping the entries `gone`, all numbered at most `through`, moves the mark of losses to
`through`. -/
def drop (l : Log α) (gone : Set ℕ) (through : ℕ) (hgone : ∀ n ∈ gone, n ≤ through)
    (hthrough : through ≤ l.written.length) : Log α where
  written := l.written
  retained := l.retained \ gone
  acked := l.acked
  lost := max l.lost through
  acked_le := l.acked_le
  lost_le := Nat.max_le.mpr ⟨l.lost_le, hthrough⟩
  bounds := fun n hn => l.bounds n hn.1
  covered := by
    intro n ha hl hn
    refine ⟨l.covered n ha (by omega) hn, fun hg => ?_⟩
    have := hgone n hg
    omega

/-- Acknowledging through `c` releases every entry up to `c`. -/
def ack (l : Log α) (c : ℕ) (hc : c ≤ l.written.length) : Log α where
  written := l.written
  retained := {n ∈ l.retained | c < n}
  acked := max l.acked c
  lost := l.lost
  acked_le := Nat.max_le.mpr ⟨l.acked_le, hc⟩
  lost_le := l.lost_le
  bounds := by
    rintro n ⟨hn, hc⟩
    have := l.bounds n hn
    omega
  covered := by
    intro n ha hl hn
    exact ⟨l.covered n (by omega) hl hn, by omega⟩

@[simp] theorem push_written (l : Log α) (a : α) : (l.push a).written = l.written ++ [a] := rfl

@[simp] theorem push_acked (l : Log α) (a : α) : (l.push a).acked = l.acked := rfl

/-- A number past the mark of losses that is not retained was acknowledged. -/
theorem acked_of_missing (l : Log α) {n : ℕ} (hl : l.lost < n) (hn : n ≤ l.written.length)
    (hmiss : n ∉ l.retained) : n ≤ l.acked := by
  by_contra h
  exact hmiss (l.covered n (by omega) hl hn)

/-- Past both marks the retained numbers are exactly those written. -/
theorem retained_iff (l : Log α) {c n : ℕ} (ha : l.acked ≤ c) (hl : l.lost ≤ c) (hc : c < n) :
    n ∈ l.retained ↔ n ≤ l.written.length :=
  ⟨fun h => (l.bounds n h).2, fun h => l.covered n (by omega) (by omega) h⟩

end Log

end SevenMirror.Lib
