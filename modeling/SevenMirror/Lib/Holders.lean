import SevenMirror.Lib.Threads
import Mathlib.Data.Set.Card

/-! Counting the threads that hold something.  A counter of the shared state, such as the length of a
channel that is used as a semaphore, counts the threads in the states that hold it, in every
interleaving, if each step moves both together. -/

namespace SevenMirror.Lib.Threads

variable {σ γ : Type*} {holds : γ → Prop} {thread : Nat → γ} {t : Nat} {g : γ}

/-- The threads that hold. -/
def holders (holds : γ → Prop) (thread : Nat → γ) : Set Nat := {t | holds (thread t)}

theorem holders_none (h : ∀ t, ¬ holds (thread t)) : holders holds thread = ∅ :=
  Set.eq_empty_of_forall_notMem h

theorem holders_keep (hsame : holds g ↔ holds (thread t)) :
    holders holds (Function.update thread t g) = holders holds thread := by
  ext u
  by_cases hu : u = t <;> simp [holders, hu, hsame]

theorem holders_acquire (hfree : ¬ holds (thread t)) (hg : holds g) :
    (holders holds (Function.update thread t g)).encard = (holders holds thread).encard + 1 := by
  have hinsert : holders holds (Function.update thread t g) = insert t (holders holds thread) := by
    ext u
    by_cases hu : u = t <;> simp [holders, hu, hg]
  rw [hinsert, Set.encard_insert_of_notMem (show t ∉ holders holds thread from hfree)]

theorem holders_release (hheld : holds (thread t)) (hg : ¬ holds g) :
    (holders holds (Function.update thread t g)).encard = (holders holds thread).encard - 1 := by
  have hdiff : holders holds (Function.update thread t g) = holders holds thread \ {t} := by
    ext u
    by_cases hu : u = t <;> simp [holders, hu, hg]
  rw [hdiff, Set.encard_sdiff_singleton_of_mem (show t ∈ holders holds thread from hheld)]

theorem holders_pos {count : Nat} (h : (holders holds thread).encard = count)
    (ht : holds (thread t)) : count ≠ 0 := by
  rintro rfl
  have hnone : holders holds thread = ∅ := Set.encard_eq_zero.mp h
  exact Set.notMem_empty t (hnone ▸ ht)

/-- What a step of a thread does to the counter, from `n` to `n'`, and to what it holds. -/
inductive Counted (holds : γ → Prop) (n n' : Nat) (g g' : γ) : Prop
  | keep (hcount : n' = n) (hsame : holds g' ↔ holds g)
  | acquire (hcount : n' = n + 1) (hfree : ¬ holds g) (hheld : holds g')
  | release (hcount : n = n' + 1) (hheld : holds g) (hfree : ¬ holds g')

/-- The counter counts the holders in every interleaving. -/
theorem Reaches.holders {step : Nat → σ → γ → σ → γ → Prop} {counter : σ → Nat}
    (hstep : ∀ t s g s' g', step t s g s' g' → Counted holds (counter s) (counter s') g g')
    {c c' : Threads σ γ} (h : Reaches step c c')
    (start : (Threads.holders holds c.thread).encard = counter c.shared) :
    (Threads.holders holds c'.thread).encard = counter c'.shared := by
  induction h with
  | refl => exact start
  | tail _ hnext ih =>
    cases hnext with
    | of t hof =>
      cases hstep _ _ _ _ _ hof with
      | keep hcount hsame => rw [holders_keep hsame, hcount, ih]
      | acquire hcount hfree hheld => rw [holders_acquire hfree hheld, ih, hcount, Nat.cast_succ]
      | release hcount hheld hfree =>
        rw [holders_release hheld hfree, ih, hcount, Nat.cast_succ]
        rfl

end SevenMirror.Lib.Threads
