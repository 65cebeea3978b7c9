import Mathlib.Logic.Function.Basic
import Mathlib.Logic.Relation

/-! Threads over a shared state.  The system takes one step of one thread at a time, in any order,
and an invariant of all interleavings follows from what a step does to its own thread and what it
leaves of the others. -/

namespace SevenMirror.Lib

structure Threads (σ γ : Type*) where
  shared : σ
  thread : Nat → γ

namespace Threads

variable {σ γ : Type*}

/-- One step of one thread: `step t s g s' g'` takes thread `t` from `g` to `g'` and the shared
state from `s` to `s'`. -/
inductive Step (step : Nat → σ → γ → σ → γ → Prop) : Threads σ γ → Threads σ γ → Prop
  | of (c : Threads σ γ) (t : Nat) {s' : σ} {g' : γ} (h : step t c.shared (c.thread t) s' g') :
      Step step c ⟨s', Function.update c.thread t g'⟩

/-- An interleaving of the threads leads from one system state to the other. -/
def Reaches (step : Nat → σ → γ → σ → γ → Prop) : Threads σ γ → Threads σ γ → Prop :=
  Relation.ReflTransGen (Step step)

variable {step : Nat → σ → γ → σ → γ → Prop}

theorem Reaches.mono {step' : Nat → σ → γ → σ → γ → Prop} {c c' : Threads σ γ}
    (h : Reaches step c c') (hsub : ∀ t s g s' g', step t s g s' g' → step' t s g s' g') :
    Reaches step' c c' := by
  refine Relation.ReflTransGen.mono (fun a b hab => ?_) _ _ h
  cases hab with
  | of t h => exact .of a t (hsub _ _ _ _ _ h)

/-- The rule of non-interference: a step keeps the invariant of the shared state and the assertion
of its own thread, and does not disturb the assertion of another thread. -/
theorem Reaches.invariant {I : σ → Prop} {P : σ → Nat → γ → Prop}
    (own : ∀ t s g s' g', step t s g s' g' → I s → P s t g → I s' ∧ P s' t g')
    (other : ∀ t s g s' g', step t s g s' g' → I s → P s t g →
      ∀ u k, u ≠ t → P s u k → P s' u k)
    {c c' : Threads σ γ} (h : Reaches step c c')
    (start : I c.shared ∧ ∀ t, P c.shared t (c.thread t)) :
    I c'.shared ∧ ∀ t, P c'.shared t (c'.thread t) := by
  induction h with
  | refl => exact start
  | tail _ hstep ih =>
    obtain ⟨hI, hP⟩ := ih
    cases hstep with
    | of t h =>
      refine ⟨(own _ _ _ _ _ h hI (hP t)).1, fun u => ?_⟩
      by_cases hu : u = t
      · subst hu
        simpa using (own _ _ _ _ _ h hI (hP u)).2
      · simpa [hu] using other _ _ _ _ _ h hI (hP t) u _ hu (hP u)

/-- A step of a thread that the state of the whole system allows. -/
inductive StepWhen (may : Threads σ γ → Nat → Prop) (step : Nat → σ → γ → σ → γ → Prop) :
    Threads σ γ → Threads σ γ → Prop
  | of (c : Threads σ γ) (t : Nat) {s' : σ} {g' : γ} (hmay : may c t)
      (h : step t c.shared (c.thread t) s' g') :
      StepWhen may step c ⟨s', Function.update c.thread t g'⟩

def ReachesWhen (may : Threads σ γ → Nat → Prop) (step : Nat → σ → γ → σ → γ → Prop) :
    Threads σ γ → Threads σ γ → Prop :=
  Relation.ReflTransGen (StepWhen may step)

/-- A run of steps that are allowed wherever they are possible. -/
theorem Reaches.allowed {may : Threads σ γ → Nat → Prop} {step' : Nat → σ → γ → σ → γ → Prop}
    {c c' : Threads σ γ} (h : Reaches step' c c')
    (hsub : ∀ t s g s' g', step' t s g s' g' → step t s g s' g')
    (hmay : ∀ c t s' g', step' t c.shared (c.thread t) s' g' → may c t) :
    ReachesWhen may step c c' := by
  refine Relation.ReflTransGen.mono (fun a b hab => ?_) _ _ h
  cases hab with
  | of t h => exact .of a t (hmay a t _ _ h) (hsub _ _ _ _ _ h)

/-- Follows a schedule: each entry names a thread and the choice it makes. -/
def follow {ι : Type*} (next : ι → Nat → σ → γ → Option (σ × γ)) :
    Threads σ γ → List (Nat × ι) → Option (Threads σ γ)
  | c, [] => some c
  | c, (t, choice) :: rest =>
    match next choice t c.shared (c.thread t) with
    | none => none
    | some (s, g) => follow next ⟨s, Function.update c.thread t g⟩ rest

theorem reaches_of_follow {ι : Type*} {next : ι → Nat → σ → γ → Option (σ × γ)}
    (hnext : ∀ choice t s g s' g', next choice t s g = some (s', g') → step t s g s' g')
    {schedule : List (Nat × ι)} {c c' : Threads σ γ} (h : follow next c schedule = some c') :
    Reaches step c c' := by
  induction schedule generalizing c with
  | nil =>
    cases h
    exact .refl
  | cons entry rest ih =>
    obtain ⟨t, choice⟩ := entry
    simp only [follow] at h
    split at h
    · cases h
    · rename_i s g hstep
      exact .head (.of c t (hnext _ _ _ _ _ _ hstep)) (ih h)

theorem follow_thread {ι : Type*} {next : ι → Nat → σ → γ → Option (σ × γ)}
    {schedule : List (Nat × ι)} {c c' : Threads σ γ} (h : follow next c schedule = some c')
    {t : Nat} (ht : t ∉ schedule.map (·.1)) : c'.thread t = c.thread t := by
  induction schedule generalizing c with
  | nil =>
    cases h
    rfl
  | cons entry rest ih =>
    obtain ⟨u, choice⟩ := entry
    simp only [List.map_cons, List.mem_cons, not_or] at ht
    simp only [follow] at h
    split at h
    · cases h
    · rw [ih h ht.2]
      exact Function.update_of_ne ht.1 _ _

/-- The state that a schedule leads to. -/
def scheduled {ι : Type*} (next : ι → Nat → σ → γ → Option (σ × γ)) (c : Threads σ γ)
    (schedule : List (Nat × ι)) : Threads σ γ :=
  (follow next c schedule).getD c

theorem reaches_scheduled {ι : Type*} {next : ι → Nat → σ → γ → Option (σ × γ)}
    (hnext : ∀ choice t s g s' g', next choice t s g = some (s', g') → step t s g s' g')
    {schedule : List (Nat × ι)} {c : Threads σ γ} (h : (follow next c schedule).isSome = true) :
    Reaches step c (scheduled next c schedule) := by
  obtain ⟨c', hc'⟩ := Option.isSome_iff_exists.mp h
  have hscheduled : scheduled next c schedule = c' := by rw [scheduled, hc', Option.getD_some]
  rw [hscheduled]
  exact reaches_of_follow hnext hc'

theorem scheduled_thread {ι : Type*} {next : ι → Nat → σ → γ → Option (σ × γ)}
    {schedule : List (Nat × ι)} {c : Threads σ γ} {t : Nat} (ht : t ∉ schedule.map (·.1)) :
    (scheduled next c schedule).thread t = c.thread t := by
  rw [scheduled]
  cases hfollow : follow next c schedule with
  | none => rfl
  | some c' => exact follow_thread hfollow ht

theorem stepWhen_scheduled {ι : Type*} {may : Threads σ γ → Nat → Prop}
    {next : ι → Nat → σ → γ → Option (σ × γ)}
    (hnext : ∀ choice t s g s' g', next choice t s g = some (s', g') → step t s g s' g')
    {c : Threads σ γ} {t : Nat} {choice : ι} (hmay : may c t)
    (h : (follow next c [(t, choice)]).isSome = true) :
    StepWhen may step c (scheduled next c [(t, choice)]) := by
  cases hstep : next choice t c.shared (c.thread t) with
  | none => simp [follow, hstep] at h
  | some out =>
    simp only [scheduled, follow, hstep, Option.getD_some]
    exact .of c t hmay (hnext _ _ _ _ _ _ hstep)

/-- The step of a schedule that is not to pass through what `bad` describes. -/
def guarded {ι : Type*} (bad : σ → γ → Bool) (next : ι → Nat → σ → γ → Option (σ × γ))
    (choice : ι) (t : Nat) (s : σ) (g : γ) : Option (σ × γ) :=
  if bad s g then none else next choice t s g

theorem guarded_some {ι : Type*} {bad : σ → γ → Bool} {next : ι → Nat → σ → γ → Option (σ × γ)}
    {choice : ι} {t : Nat} {s s' : σ} {g g' : γ}
    (h : guarded bad next choice t s g = some (s', g')) :
    next choice t s g = some (s', g') ∧ bad s g = false := by
  unfold guarded at h
  split at h
  · cases h
  · rename_i hbad
    exact ⟨h, by simpa using hbad⟩

end Threads

end SevenMirror.Lib
