import Mathlib.Data.List.Induction

/-! Deterministic machines that answer calls: the state after a list of calls, the calls with
their answers, and the rule that carries a relation between state and history along every run. -/

namespace SevenMirror.Lib

/-- A machine with states `σ`, calls `ι`, and answers `ο`. -/
structure Machine (σ ι ο : Type*) where
  step : σ → ι → σ × ο

namespace Machine

variable {σ ι ο : Type*} (m : Machine σ ι ο)

/-- The state after the calls, from `s`. -/
def run (s : σ) : List ι → σ
  | [] => s
  | call :: calls => run (m.step s call).1 calls

/-- The calls with their answers, from `s`. -/
def trace (s : σ) : List ι → List (ι × ο)
  | [] => []
  | call :: calls => (call, (m.step s call).2) :: trace (m.step s call).1 calls

@[simp] theorem run_nil (s : σ) : m.run s [] = s := rfl

@[simp] theorem trace_nil (s : σ) : m.trace s [] = [] := rfl

theorem run_concat (s : σ) (calls : List ι) (call : ι) :
    m.run s (calls ++ [call]) = (m.step (m.run s calls) call).1 := by
  induction calls generalizing s with
  | nil => rfl
  | cons first rest ih => exact ih _

theorem run_append (s : σ) (calls later : List ι) :
    m.run s (calls ++ later) = m.run (m.run s calls) later := by
  induction calls generalizing s with
  | nil => rfl
  | cons first rest ih => exact ih _

theorem trace_concat (s : σ) (calls : List ι) (call : ι) :
    m.trace s (calls ++ [call]) =
      m.trace s calls ++ [(call, (m.step (m.run s calls) call).2)] := by
  induction calls generalizing s with
  | nil => rfl
  | cons first rest ih => simp [trace, run, ih]

/-- A relation between state and history that holds at the start and that every step keeps holds
after every run. -/
theorem run_induction {R : σ → List (ι × ο) → Prop} {s : σ} (start : R s [])
    (keep : ∀ t history call, R t history →
      R (m.step t call).1 (history ++ [(call, (m.step t call).2)])) (calls : List ι) :
    R (m.run s calls) (m.trace s calls) := by
  induction calls using List.reverseRecOn with
  | nil => exact start
  | append_singleton calls call ih =>
    rw [run_concat, trace_concat]
    exact keep _ _ _ ih

/-- Each call is one that `allowed` admits in the state that it meets. -/
def Allowed (allowed : σ → ι → Prop) (s : σ) : List ι → Prop
  | [] => True
  | call :: calls => allowed s call ∧ Allowed allowed (m.step s call).1 calls

instance decidableAllowed (allowed : σ → ι → Prop) [∀ s call, Decidable (allowed s call)] (s : σ) :
    (calls : List ι) → Decidable (m.Allowed allowed s calls)
  | [] => .isTrue trivial
  | call :: calls =>
    have := decidableAllowed allowed (m.step s call).1 calls
    inferInstanceAs (Decidable (_ ∧ _))

/-- What every allowed call keeps holds after a run of allowed calls. -/
theorem run_invariant {allowed : σ → ι → Prop} {I : σ → Prop}
    (keep : ∀ s call, I s → allowed s call → I (m.step s call).1) {s : σ} (start : I s)
    {calls : List ι} (hcalls : m.Allowed allowed s calls) : I (m.run s calls) := by
  induction calls generalizing s with
  | nil => exact start
  | cons call calls ih => exact ih (keep s call start hcalls.1) hcalls.2

theorem allowed_of_forall {allowed : σ → ι → Prop} (h : ∀ s call, allowed s call) (s : σ)
    (calls : List ι) : m.Allowed allowed s calls := by
  induction calls generalizing s with
  | nil => trivial
  | cons call calls ih => exact ⟨h s call, ih _⟩

/-- What every allowed call keeps may be assumed of the states that the calls meet. -/
theorem allowed_and_invariant {allowed : σ → ι → Prop} {I : σ → Prop}
    (keep : ∀ s call, I s → allowed s call → I (m.step s call).1) {s : σ} (start : I s)
    {calls : List ι} (hcalls : m.Allowed allowed s calls) :
    m.Allowed (fun s call => I s ∧ allowed s call) s calls := by
  induction calls generalizing s with
  | nil => trivial
  | cons call calls ih => exact ⟨⟨start, hcalls.1⟩, ih (keep s call start hcalls.1) hcalls.2⟩

/-- `P` holds in every state of the run. -/
def Always (P : σ → Prop) (s : σ) : List ι → Prop
  | [] => P s
  | call :: calls => P s ∧ Always P (m.step s call).1 calls

theorem always_concat {P : σ → Prop} {s : σ} {calls : List ι} {call : ι} :
    m.Always P s (calls ++ [call]) ↔ m.Always P s calls ∧ P (m.run s (calls ++ [call])) := by
  induction calls generalizing s with
  | nil => rfl
  | cons first rest ih =>
    rw [List.cons_append, Always, Always, ih, and_assoc]
    rfl

theorem always_last {P : σ → Prop} {s : σ} {calls : List ι} (h : m.Always P s calls) :
    P (m.run s calls) := by
  induction calls generalizing s with
  | nil => exact h
  | cons first rest ih => exact ih h.2

/-- Calls that count need the mark to be absent and set it, and no call takes it away: at most one
of them counts, and none after the mark was set. -/
theorem counts_at_most_once (allowed : σ → ι → Prop) (counts : ι × ο → Bool) (marked : σ → Prop)
    (spend : ∀ s call, allowed s call → counts (call, (m.step s call).2) = true →
      ¬ marked s ∧ marked (m.step s call).1)
    (keep : ∀ s call, allowed s call → marked s → marked (m.step s call).1) {s : σ}
    {calls : List ι} (hcalls : m.Allowed allowed s calls) :
    (m.trace s calls).countP counts ≤ 1 ∧
      (marked s → (m.trace s calls).countP counts = 0) := by
  induction calls generalizing s with
  | nil => exact ⟨Nat.zero_le 1, fun _ => rfl⟩
  | cons call calls ih =>
    obtain ⟨hcall, hrest⟩ := hcalls
    obtain ⟨hone, hnone⟩ := ih hrest
    rw [trace, List.countP_cons]
    by_cases hcounts : counts (call, (m.step s call).2) = true
    · obtain ⟨hfresh, hset⟩ := spend s call hcall hcounts
      rw [hnone hset, if_pos hcounts]
      exact ⟨Nat.le_refl 1, fun hmarked => absurd hmarked hfresh⟩
    · rw [if_neg hcounts]
      exact ⟨hone, fun hmarked => hnone (keep s call hcall hmarked)⟩

/-- A run in two phases.  A call that counts leads from the first to the second, where no call
counts, and every other call stays in its phase. -/
theorem phases {allowed : σ → ι → Prop} {counts : ι × ο → Bool} {before after : σ → Prop}
    (hstay : ∀ s call, allowed s call → before s → counts (call, (m.step s call).2) = false →
      before (m.step s call).1)
    (hpass : ∀ s call, allowed s call → before s → counts (call, (m.step s call).2) = true →
      after (m.step s call).1)
    (hafter : ∀ s call, allowed s call → after s →
      counts (call, (m.step s call).2) = false ∧ after (m.step s call).1) {s : σ} {calls : List ι}
    (hcalls : m.Allowed allowed s calls) :
    (before s → (m.trace s calls).countP counts = 0 ∧ before (m.run s calls) ∨
        (m.trace s calls).countP counts = 1 ∧ after (m.run s calls)) ∧
      (after s → (m.trace s calls).countP counts = 0 ∧ after (m.run s calls)) := by
  induction calls generalizing s with
  | nil => exact ⟨fun h => Or.inl ⟨rfl, h⟩, fun h => ⟨rfl, h⟩⟩
  | cons call calls ih =>
    obtain ⟨hcall, hrest⟩ := hcalls
    obtain ⟨hbefore', hafter'⟩ := ih hrest
    rw [trace, List.countP_cons]
    constructor
    · intro hs
      cases hcounts : counts (call, (m.step s call).2) with
      | false => exact hbefore' (hstay s call hcall hs hcounts)
      | true =>
        obtain ⟨hnone, hrun⟩ := hafter' (hpass s call hcall hs hcounts)
        rw [hnone]
        exact Or.inr ⟨rfl, hrun⟩
    · intro hs
      obtain ⟨hcounts, hnext⟩ := hafter s call hcall hs
      rw [hcounts]
      exact hafter' hnext

end Machine

end SevenMirror.Lib
