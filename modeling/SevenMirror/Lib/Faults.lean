import SevenMirror.Lib.Reject

/-! Programs whose operations may fail.  What a program does is said twice: how it ends whatever
fails, with one condition on its results and one on its errors, and what it returns when nothing
does.  A program that only reads returns what it returns when nothing fails, or an error. -/

namespace SevenMirror.Lib

/-- A state, with the faults of the operations to come: `some n` stands for one that fails after it
did `n` parts of its work.  The operations after the list do not fail. -/
structure Faulty (σ : Type) where
  state : σ
  faults : List (Option Nat)

/-- A program on states `σ`, with results in `α` and errors in `ε`. -/
def Fallible (σ ε α : Type) : Type := Faulty σ → Except ε α × Faulty σ

namespace Fallible

variable {σ ε α β : Type}

instance : Monad (Fallible σ ε) where
  pure a := fun w => (.ok a, w)
  bind m f := fun w =>
    match m w with
    | (.ok a, w') => f a w'
    | (.error e, w') => (.error e, w')

/-- A computation on values. -/
def check (r : Except ε α) : Fallible σ ε α := fun w => (r, w)

/-- An operation: what it leaves when it fails, with `failure`, and what it does when it does not. -/
def operation (failure : ε) (broken : Nat → σ → σ) (step : σ → Except ε (α × σ)) :
    Fallible σ ε α := fun w =>
  match w.faults.headD none with
  | some n => (.error failure, ⟨broken n w.state, w.faults.tail⟩)
  | none =>
    match step w.state with
    | .ok (a, s) => (.ok a, ⟨s, w.faults.tail⟩)
    | .error e => (.error e, ⟨w.state, w.faults.tail⟩)

/-- An operation that reads. -/
def look (failure : ε) (f : σ → Except ε α) : Fallible σ ε α :=
  operation failure (fun _ s => s) fun s => (f s).map (·, s)

/-- A change that does not fail. -/
def change (f : σ → σ) : Fallible σ ε Unit := fun w => (.ok (), ⟨f w.state, w.faults⟩)

/-- Runs `cleanup` after an error, whose result plays no part. -/
def onFailure (m : Fallible σ ε α) (cleanup : Fallible σ ε Unit) : Fallible σ ε α := fun w =>
  match m w with
  | (.ok a, w') => (.ok a, w')
  | (.error e, w') => (.error e, (cleanup w').2)

/-- The result or the error, to be looked at. -/
def tried (m : Fallible σ ε α) : Fallible σ ε (Except ε α) := fun w => (.ok (m w).1, (m w).2)

/-- The result and the state that a program leaves. -/
def run (m : Fallible σ ε α) (s : σ) (faults : List (Option Nat)) : Except ε α × σ :=
  ((m ⟨s, faults⟩).1, (m ⟨s, faults⟩).2.state)

/-- The result when nothing fails. -/
def quiet (m : Fallible σ ε α) (s : σ) : Except ε α := (m ⟨s, []⟩).1

/-! ### Programs that read -/

/-- Leaves the state, and returns nothing else than when nothing fails. -/
structure ReadOnly (m : Fallible σ ε α) : Prop where
  state : ∀ s faults, (m ⟨s, faults⟩).2.state = s
  result : ∀ s faults a, (m ⟨s, faults⟩).1 = .ok a → m.quiet s = .ok a
  faults : ∀ s, (m ⟨s, []⟩).2.faults = []

section ReadOnly

variable {m : Fallible σ ε α} {f : α → Fallible σ ε β} {s : σ}

theorem bind_ok {w w' : Faulty σ} {a : α} (h : m w = (.ok a, w')) : (m >>= f) w = f a w' := by
  simp only [bind, h]

theorem bind_error {w w' : Faulty σ} {e : ε} (h : m w = (.error e, w')) :
    (m >>= f) w = (.error e, w') := by
  simp only [bind, h]

theorem ReadOnly.apply (h : ReadOnly m) {r : Except ε α} (hr : m.quiet s = r) :
    m ⟨s, []⟩ = (r, ⟨s, []⟩) := by
  have hstate := h.state s []
  have hfaults := h.faults s
  cases hm : m ⟨s, []⟩ with
  | mk r w =>
    rw [hm] at hstate hfaults
    cases w
    cases hstate
    cases hfaults
    rw [← hr, quiet, hm]

theorem quiet_bind (h : ReadOnly m) : (m >>= f).quiet s = m.quiet s >>= fun a => (f a).quiet s := by
  cases hq : m.quiet s with
  | ok a =>
    rw [quiet, bind_ok (h.apply hq)]
    rfl
  | error e =>
    rw [quiet, bind_error (h.apply hq)]
    rfl

@[simp] theorem quiet_look (failure : ε) (g : σ → Except ε α) (s : σ) :
    (look failure g).quiet s = g s := by
  simp only [quiet, look, operation, List.headD_nil, List.tail_nil]
  cases g s <;> rfl

@[simp] theorem ReadOnly.pure (a : α) : ReadOnly (pure a : Fallible σ ε α) :=
  ⟨fun _ _ => rfl, fun _ _ _ h => h, fun _ => rfl⟩

@[simp] theorem ReadOnly.check (r : Except ε α) : ReadOnly (check r : Fallible σ ε α) :=
  ⟨fun _ _ => rfl, fun _ _ _ h => h, fun _ => rfl⟩

@[simp] theorem ReadOnly.look (failure : ε) (g : σ → Except ε α) : ReadOnly (look failure g) := by
  refine ⟨fun s faults => ?_, fun s faults a h => ?_, fun s => ?_⟩
  · simp only [Fallible.look, operation]
    split
    · rfl
    · cases g s <;> rfl
  · rw [quiet_look]
    simp only [Fallible.look, operation] at h
    split at h
    · cases h
    · cases hg : g s with
      | ok b =>
        rw [hg] at h
        exact h
      | error e =>
        rw [hg] at h
        cases h
  · simp only [Fallible.look, operation, List.headD_nil, List.tail_nil]
    cases g s <;> rfl

theorem ReadOnly.bind (h : ReadOnly m) (hf : ∀ a, ReadOnly (f a)) : ReadOnly (m >>= f) := by
  refine ⟨fun s faults => ?_, fun s faults b hb => ?_, fun s => ?_⟩
  · have hstate := h.state s faults
    rcases hm : m ⟨s, faults⟩ with ⟨a | a, w⟩
    · rw [bind_error hm]
      rwa [hm] at hstate
    · rw [bind_ok hm]
      rw [hm] at hstate
      exact ((hf a).state w.state w.faults).trans hstate
  · have hstate := h.state s faults
    rw [quiet_bind h]
    rcases hm : m ⟨s, faults⟩ with ⟨a | a, w⟩
    · rw [bind_error hm] at hb
      cases hb
    · rw [bind_ok hm] at hb
      rw [h.result s faults a (by rw [hm]), ok_bind]
      rw [hm] at hstate
      cases hstate
      exact (hf a).result w.state w.faults b hb
  · rcases hq : m.quiet s with e | a
    · rw [bind_error (h.apply hq)]
    · rw [bind_ok (h.apply hq)]
      exact (hf a).faults s

/-- Reads nothing that related states differ in. -/
structure Reads (r : σ → σ → Prop) (m : Fallible σ ε α) : Prop extends ReadOnly m where
  respects : ∀ s s', r s s' → m.quiet s = m.quiet s'

variable {r : σ → σ → Prop}

theorem Reads.pure (a : α) : Reads r (pure a : Fallible σ ε α) := ⟨.pure a, fun _ _ _ => rfl⟩

theorem Reads.check (x : Except ε α) : Reads r (check x : Fallible σ ε α) :=
  ⟨.check x, fun _ _ _ => rfl⟩

theorem Reads.look {failure : ε} {g : σ → Except ε α} (h : ∀ s s', r s s' → g s = g s') :
    Reads r (look failure g) :=
  ⟨.look failure g, fun s s' hs => by rw [quiet_look, quiet_look, h s s' hs]⟩

theorem Reads.bind (h : Reads r m) (hf : ∀ a, Reads r (f a)) : Reads r (m >>= f) := by
  refine ⟨h.toReadOnly.bind fun a => (hf a).toReadOnly, fun s s' hs => ?_⟩
  rw [quiet_bind h.toReadOnly, quiet_bind h.toReadOnly, h.respects s s' hs]
  cases m.quiet s' with
  | ok a => exact (hf a).respects s s' hs
  | error e => rfl

end ReadOnly

/-! ### How a program ends -/

/-- From `s`, whatever fails, the program returns with `Q` or stops with `E`. -/
def Ends (m : Fallible σ ε α) (s : σ) (Q : α → σ → Prop) (E : ε → σ → Prop) : Prop :=
  ∀ faults, (∀ a w, m ⟨s, faults⟩ = (.ok a, w) → Q a w.state) ∧
    ∀ e w, m ⟨s, faults⟩ = (.error e, w) → E e w.state

/-- From `s`, if nothing fails, the program returns `a` and leaves `s'`. -/
def Succeeds (m : Fallible σ ε α) (s : σ) (a : α) (s' : σ) : Prop :=
  m ⟨s, []⟩ = (.ok a, ⟨s', []⟩)

section Ends

variable {m : Fallible σ ε α} {f : α → Fallible σ ε β} {s s' s'' : σ} {a : α} {b : β}
  {Q Q' : α → σ → Prop} {E E' : ε → σ → Prop} {R : β → σ → Prop}

theorem Ends.mono (h : Ends m s Q E) (hQ : ∀ a s', Q a s' → Q' a s')
    (hE : ∀ e s', E e s' → E' e s') : Ends m s Q' E' :=
  fun faults => ⟨fun a w hm => hQ a _ ((h faults).1 a w hm),
    fun e w hm => hE e _ ((h faults).2 e w hm)⟩

theorem Ends.pure (h : Q a s) : Ends (pure a) s Q E := by
  refine fun faults => ⟨fun b w hm => ?_, fun e w hm => ?_⟩
  · cases hm
    exact h
  · cases hm

theorem Ends.error {e : ε} (h : E e s) : Ends (check (.error e)) s Q E := by
  refine fun faults => ⟨fun b w hm => ?_, fun e' w hm => ?_⟩
  · cases hm
  · cases hm
    exact h

theorem Ends.bind (h : Ends m s Q E) (hf : ∀ a s', Q a s' → Ends (f a) s' R E) :
    Ends (m >>= f) s R E := by
  intro faults
  rcases hm : m ⟨s, faults⟩ with ⟨e | a, w⟩
  · rw [bind_error hm]
    refine ⟨fun b w' hb => ?_, fun e' w' he => ?_⟩
    · cases hb
    · cases he
      exact (h faults).2 e w hm
  · rw [bind_ok hm]
    exact hf a w.state ((h faults).1 a w hm) w.faults

theorem ReadOnly.ends (h : ReadOnly m) (s : σ) :
    Ends m s (fun a s' => s' = s ∧ m.quiet s = .ok a) fun _ s' => s' = s := by
  intro faults
  have hstate := h.state s faults
  refine ⟨fun a w hm => ?_, fun e w hm => ?_⟩
  · rw [hm] at hstate
    exact ⟨hstate, h.result s faults a (by rw [hm])⟩
  · rwa [hm] at hstate

/-- A program that reads, before another. -/
theorem Ends.read (h : ReadOnly m) (hf : ∀ a, m.quiet s = .ok a → Ends (f a) s R E)
    (hE : ∀ e, E e s) : Ends (m >>= f) s R E := by
  refine ((h.ends s).mono (fun _ _ ha => ha) fun e s' hs => ?_).bind ?_
  · rw [hs]
    exact hE e
  · rintro a _ ⟨rfl, ha⟩
    exact hf a ha

theorem Ends.operation {failure : ε} {broken : Nat → σ → σ} {step : σ → Except ε (α × σ)}
    (hbroken : ∀ n, E failure (broken n s)) (hok : ∀ a s', step s = .ok (a, s') → Q a s')
    (herror : ∀ e, step s = .error e → E e s) : Ends (operation failure broken step) s Q E := by
  intro faults
  simp only [Fallible.operation]
  split
  · rename_i n _
    refine ⟨fun a w hm => ?_, fun e w hm => ?_⟩
    · cases hm
    · cases hm
      exact hbroken n
  · cases hstep : step s with
    | ok out =>
      refine ⟨fun a w hm => ?_, fun e w hm => ?_⟩
      · cases hm
        exact hok _ _ hstep
      · cases hm
    | error e =>
      refine ⟨fun a w hm => ?_, fun e w hm => ?_⟩
      · cases hm
      · cases hm
        exact herror e hstep

theorem Ends.change {g : σ → σ} {Q : Unit → σ → Prop} (h : Q () (g s)) :
    Ends (change g) s Q E := by
  refine fun faults => ⟨fun b w hm => ?_, fun e w hm => ?_⟩
  · cases hm
    exact h
  · cases hm

theorem Ends.onFailure {cleanup : Fallible σ ε Unit} (h : Ends m s Q E)
    (hcleanup : ∀ e s', E e s' → Ends cleanup s' (fun _ => E' e) fun _ => E' e) :
    Ends (onFailure m cleanup) s Q E' := by
  intro faults
  simp only [Fallible.onFailure]
  rcases hm : m ⟨s, faults⟩ with ⟨e | a, w⟩
  · refine ⟨fun a w' h' => ?_, fun e' w' h' => ?_⟩
    · cases h'
    · cases h'
      have hends := hcleanup e w.state ((h faults).2 e w hm) w.faults
      rcases hc : cleanup w with ⟨e' | u, w'⟩
      · exact hends.2 e' w' hc
      · exact hends.1 u w' hc
  · refine ⟨fun a w' h' => ?_, fun e' w' h' => ?_⟩
    · cases h'
      exact (h faults).1 a w hm
    · cases h'

theorem Ends.tried (h : Ends m s Q E) : Ends (tried m) s
    (fun r s' => (∀ a, r = .ok a → Q a s') ∧ ∀ e, r = .error e → E e s') E' := by
  refine fun faults => ⟨fun r w hm => ?_, fun e w hm => ?_⟩
  · cases hm
    exact ⟨fun a ha => (h faults).1 a _ (Prod.ext ha rfl),
      fun e he => (h faults).2 e _ (Prod.ext he rfl)⟩
  · cases hm

theorem Ends.run_ok {faults : List (Option Nat)} (h : Ends m s Q E)
    (hrun : m.run s faults = (.ok a, s')) : Q a s' := by
  rw [Fallible.run, Prod.mk.injEq] at hrun
  obtain ⟨hresult, rfl⟩ := hrun
  exact (h faults).1 a _ (Prod.ext hresult rfl)

theorem Ends.run_error {faults : List (Option Nat)} {e : ε} (h : Ends m s Q E)
    (hrun : m.run s faults = (.error e, s')) : E e s' := by
  rw [Fallible.run, Prod.mk.injEq] at hrun
  obtain ⟨hresult, rfl⟩ := hrun
  exact (h faults).2 e _ (Prod.ext hresult rfl)

theorem Succeeds.pure (a : α) (s : σ) : Succeeds (pure a : Fallible σ ε α) s a s := rfl

theorem Succeeds.bind (h : Succeeds m s a s') (hf : Succeeds (f a) s' b s'') :
    Succeeds (m >>= f) s b s'' :=
  (bind_ok h).trans hf

theorem Succeeds.read (h : ReadOnly m) (hm : m.quiet s = .ok a) (hf : Succeeds (f a) s b s') :
    Succeeds (m >>= f) s b s' :=
  (bind_ok (h.apply hm)).trans hf

theorem Succeeds.operation {failure : ε} {broken : Nat → σ → σ} {step : σ → Except ε (α × σ)}
    (h : step s = .ok (a, s')) : Succeeds (operation failure broken step) s a s' := by
  simp only [Succeeds, Fallible.operation, List.headD_nil, List.tail_nil, h]

theorem Succeeds.onFailure {cleanup : Fallible σ ε Unit} (h : Succeeds m s a s') :
    Succeeds (onFailure m cleanup) s a s' := by
  have hm : m ⟨s, []⟩ = (.ok a, ⟨s', []⟩) := h
  simp only [Succeeds, Fallible.onFailure, hm]

theorem Succeeds.tried (h : Succeeds m s a s') : Succeeds (tried m) s (.ok a) s' := by
  have hm : m ⟨s, []⟩ = (.ok a, ⟨s', []⟩) := h
  simp only [Succeeds, Fallible.tried, hm]

/-- What holds whatever fails holds when nothing does. -/
theorem Succeeds.ends (h : Succeeds m s a s') (hends : Ends m s Q E) : Q a s' :=
  (hends []).1 a ⟨s', []⟩ h

theorem Succeeds.run (h : Succeeds m s a s') : m.run s [] = (.ok a, s') := by
  have hm : m ⟨s, []⟩ = (.ok a, ⟨s', []⟩) := h
  simp only [Fallible.run, hm]

end Ends

end Fallible

end SevenMirror.Lib
