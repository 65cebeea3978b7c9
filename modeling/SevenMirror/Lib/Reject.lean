import Mathlib.Logic.Basic

/-! Computations that may fail: the guard `reject`, which is Go's `if bad { return err }`, and the
rules that take a successful computation apart. -/

universe u

namespace SevenMirror.Lib

variable {ε : Type*} {α β : Type u}

/-- Fails with `e` when `bad` holds. -/
def reject (bad : Prop) [Decidable bad] (e : ε) : Except ε Unit :=
  if bad then .error e else .ok ()

@[simp] theorem reject_eq_ok {bad : Prop} [Decidable bad] {e : ε} {u : Unit} :
    reject bad e = .ok u ↔ ¬bad := by
  unfold reject
  split <;> simp_all

theorem reject_eq_error {bad : Prop} [Decidable bad] {e e' : ε} :
    reject bad e = .error e' ↔ bad ∧ e = e' := by
  unfold reject
  split <;> simp_all

theorem reject_pos {bad : Prop} [Decidable bad] {e : ε} (h : bad) : reject bad e = .error e :=
  if_pos h

theorem reject_neg {bad : Prop} [Decidable bad] {e : ε} (h : ¬ bad) : reject bad e = .ok () :=
  if_neg h

/-- Fails with `e` when there is no value. -/
def require (x : Option α) (e : ε) : Except ε α :=
  match x with
  | none => .error e
  | some a => .ok a

@[simp] theorem require_eq_ok {x : Option α} {e : ε} {a : α} :
    require x e = .ok a ↔ x = some a := by
  cases x <;> simp [require]

theorem require_eq_error {x : Option α} {e e' : ε} :
    require x e = .error e' ↔ x = none ∧ e = e' := by
  cases x <;> simp [require]

/-- Replaces the error by `f` of it. -/
def rethrow {δ : Type*} (f : δ → ε) : Except δ α → Except ε α
  | .error e => .error (f e)
  | .ok a => .ok a

@[simp] theorem rethrow_eq_ok {δ : Type*} {f : δ → ε} {x : Except δ α} {a : α} :
    rethrow f x = .ok a ↔ x = .ok a := by
  cases x <;> simp [rethrow]

theorem rethrow_eq_error {δ : Type*} {f : δ → ε} {x : Except δ α} {e : ε} :
    rethrow f x = .error e ↔ ∃ d, x = .error d ∧ f d = e := by
  cases x <;> simp [rethrow]

@[simp] theorem bind_eq_ok {x : Except ε α} {f : α → Except ε β} {b : β} :
    (x >>= f) = .ok b ↔ ∃ a, x = .ok a ∧ f a = .ok b := by
  cases x <;> simp [bind, Except.bind]

theorem bind_eq_error {x : Except ε α} {f : α → Except ε β} {e : ε} :
    (x >>= f) = .error e ↔ x = .error e ∨ ∃ a, x = .ok a ∧ f a = .error e := by
  cases x <;> simp [bind, Except.bind]

@[simp] theorem ok_bind {a : α} {f : α → Except ε β} : (.ok a >>= f) = f a := rfl

@[simp] theorem error_bind {e : ε} {f : α → Except ε β} : (.error e >>= f) = .error e := rfl

@[simp] theorem map_eq_ok {x : Except ε α} {f : α → β} {b : β} :
    x.map f = .ok b ↔ ∃ a, x = .ok a ∧ f a = b := by
  cases x <;> simp [Except.map]

theorem isOk_iff {x : Except ε α} : x.isOk ↔ ∃ a, x = .ok a := by
  cases x <;> simp [Except.isOk, Except.toBool]

theorem exists_unit {p : Unit → Prop} : (∃ u, p u) ↔ p () := ⟨fun ⟨_, h⟩ => h, fun h => ⟨(), h⟩⟩

@[simp] theorem pure_eq_ok {a b : α} : (pure a : Except ε α) = .ok b ↔ a = b := by
  simp [pure, Except.pure]

theorem pure_ne_error {a : α} {e : ε} : (pure a : Except ε α) ≠ .error e := by
  simp [pure, Except.pure]

@[simp] theorem throw_eq_ok {e : ε} {b : α} : (throw e : Except ε α) = .ok b ↔ False := by
  simp [throw, throwThe, MonadExceptOf.throw]

end SevenMirror.Lib
