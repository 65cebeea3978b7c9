import Mathlib.Data.Set.Card
import SevenMirror.Lib.Machine

/-! A limiter with fixed windows, for keys of any type.  It keeps for each key the window that the
first admission of the key started, admits a bounded number of calls in it, and lets a bounded number
of keys have a window that is live.  Any span of the length of a window then holds less than twice
the limit of admissions of one key. -/

namespace SevenMirror.Lib

/-- The limit of a window, the number of keys with a live window, and the length of a window. -/
structure WindowBounds where
  limit : Nat
  keys : Nat
  length : Int
  limit_pos : 1 ≤ limit
  length_pos : 0 < length

/-- A window and the admissions in it. -/
structure Window where
  start : Int
  admitted : Nat

namespace WindowBounds

variable {κ : Type*} (b : WindowBounds)

/-- `now` is in the window. -/
def Live (w : Window) (now : Int) : Prop := now < w.start + b.length

instance (w : Window) (now : Int) : Decidable (b.Live w now) :=
  inferInstanceAs (Decidable (now < _))

/-- The other keys that have a live window. -/
def others (windows : κ → Option Window) (key : κ) (now : Int) : Set κ :=
  {k | k ≠ key ∧ ∃ w, windows k = some w ∧ b.Live w now}

/-- The window of the key, if it is live. -/
def live (windows : κ → Option Window) (key : κ) (now : Int) : Option Window :=
  (windows key).filter fun w => b.Live w now

theorem live_eq_some {b : WindowBounds} {windows : κ → Option Window} {key : κ} {now : Int} {w : Window} :
    b.live windows key now = some w ↔ windows key = some w ∧ b.Live w now := by
  rw [live, Option.filter_eq_some_iff, decide_eq_true_eq]

variable [DecidableEq κ]

open Classical in
/-- One call of the limiter. -/
noncomputable def grant (windows : κ → Option Window) (key : κ) (now : Int) :
    (κ → Option Window) × Bool :=
  match b.live windows key now with
  | some w =>
    if w.admitted < b.limit then
      (Function.update windows key (some { w with admitted := w.admitted + 1 }), true)
    else (windows, false)
  | none =>
    if (b.others windows key now).ncard < b.keys then
      (Function.update windows key (some ⟨now, 1⟩), true)
    else (windows, false)

noncomputable def limiter : Machine (κ → Option Window) (κ × Int) Bool :=
  ⟨fun windows call => b.grant windows call.1 call.2⟩

/-- The moments at which a history admits the key. -/
def admissions (key : κ) (history : List ((κ × Int) × Bool)) : List Int :=
  (history.filter fun e => e.2 && (e.1.1 == key)).map (·.1.2)

/-- The moment is in the span from `a` on. -/
def InSpan (a t : Int) : Prop := a ≤ t ∧ t < a + b.length

instance (a t : Int) : Decidable (b.InSpan a t) := inferInstanceAs (Decidable (_ ∧ _))

/-- The admissions of a key split into those of its last window and the older ones. -/
structure Splits (w : Window) (older current : List Int) : Prop where
  count : current.length = w.admitted
  limit : w.admitted ≤ b.limit
  first : current.head? = some w.start
  current_ge : ∀ t ∈ current, w.start ≤ t
  older_le : ∀ t ∈ older, t ≤ w.start
  older_near : older.countP (fun t => w.start - b.length < t) ≤ b.limit - 1
  older_span : ∀ a, older.countP (fun t => b.InSpan a t) ≤ 2 * b.limit - 1

/-- What the window of a key says about the admissions of the key. -/
def Accounts (window : Option Window) (times : List Int) : Prop :=
  match window with
  | none => times = []
  | some w => ∃ older current, times = older ++ current ∧ b.Splits w older current

variable {b}

theorem Accounts.span {window : Option Window} {times : List Int} (h : b.Accounts window times)
    (a : Int) : times.countP (fun t => b.InSpan a t) ≤ 2 * b.limit - 1 := by
  cases window with
  | none =>
    rw [show times = [] from h]
    exact Nat.zero_le _
  | some w =>
    obtain ⟨older, current, rfl, hsplit⟩ := h
    have hlimit := b.limit_pos
    have hcurrent : current.countP (fun t => b.InSpan a t) ≤ b.limit :=
      Nat.le_trans List.countP_le_length (hsplit.count ▸ hsplit.limit)
    rw [List.countP_append]
    by_cases hreach : a + b.length ≤ w.start
    · -- the span ends before the last window
      have hnone : current.countP (fun t => b.InSpan a t) = 0 := by
        refine List.countP_eq_zero.mpr fun t ht hspan => ?_
        have hge := hsplit.current_ge t ht
        have hlt := (of_decide_eq_true hspan).2
        omega
      have holder := hsplit.older_span a
      omega
    · have holder : older.countP (fun t => b.InSpan a t) ≤ b.limit - 1 := by
        refine Nat.le_trans (List.countP_mono_left fun t _ ht => ?_) hsplit.older_near
        have hle := (of_decide_eq_true ht).1
        exact decide_eq_true (by omega)
      omega

/-- An admission in the last window. -/
theorem Accounts.again {w : Window} {times : List Int} {now : Int}
    (h : b.Accounts (some w) times) (hlimit : w.admitted < b.limit) (hnow : ∀ t ∈ times, t ≤ now) :
    b.Accounts (some { w with admitted := w.admitted + 1 }) (times ++ [now]) := by
  obtain ⟨older, current, rfl, hsplit⟩ := h
  refine ⟨older, current ++ [now], by rw [List.append_assoc], ?_, hlimit, ?_, ?_,
    hsplit.older_le, hsplit.older_near, hsplit.older_span⟩
  · rw [List.length_append, hsplit.count, List.length_singleton]
  · rw [List.head?_append, hsplit.first]
    rfl
  · intro t ht
    rcases List.mem_append.mp ht with ht | ht
    · exact hsplit.current_ge t ht
    · rw [List.mem_singleton.mp ht]
      exact hnow _ (List.mem_append_right _ (List.mem_of_head? hsplit.first))

/-- The first admission of a new window.  The one before it has ended, and of its admissions the
first is a whole length away. -/
theorem Accounts.anew {window : Option Window} {times : List Int} {now : Int}
    (h : b.Accounts window times) (hended : ∀ w, window = some w → ¬ b.Live w now)
    (hnow : ∀ t ∈ times, t ≤ now) : b.Accounts (some ⟨now, 1⟩) (times ++ [now]) := by
  refine ⟨times, [now], rfl, rfl, b.limit_pos, rfl, ?_, hnow, ?_, h.span⟩
  · intro t ht
    exact Int.le_of_eq (List.mem_singleton.mp ht).symm
  · cases window with
    | none =>
      rw [show times = [] from h]
      exact Nat.zero_le _
    | some w =>
      have hover : w.start + b.length ≤ now := Int.not_lt.mp (hended w rfl)
      obtain ⟨older, current, rfl, hsplit⟩ := h
      have holder : older.countP (fun t => now - b.length < t) = 0 := by
        refine List.countP_eq_zero.mpr fun t ht hlater => ?_
        have hle := hsplit.older_le t ht
        have hlt := of_decide_eq_true hlater
        omega
      obtain ⟨rest, hrest⟩ := List.head?_eq_some_iff.mp hsplit.first
      have hcurrent : current.countP (fun t => now - b.length < t) ≤ rest.length := by
        rw [hrest, List.countP_cons_of_neg]
        · exact List.countP_le_length
        · intro hlater
          have hlt := of_decide_eq_true hlater
          omega
      have hcount := hsplit.count
      have hlimit := hsplit.limit
      rw [hrest, List.length_cons] at hcount
      rw [List.countP_append, holder]
      dsimp only
      omega

/-- What one call can do. -/
theorem grant_cases (b : WindowBounds) (windows : κ → Option Window) (key : κ) (now : Int) :
    (∃ w, b.live windows key now = some w ∧ w.admitted < b.limit ∧ b.grant windows key now =
      (Function.update windows key (some { w with admitted := w.admitted + 1 }), true)) ∨
    (b.live windows key now = none ∧ (b.others windows key now).ncard < b.keys ∧
      b.grant windows key now = (Function.update windows key (some ⟨now, 1⟩), true)) ∨
    ((∃ w, b.live windows key now = some w ∧ ¬ w.admitted < b.limit) ∨
        b.live windows key now = none ∧ ¬ (b.others windows key now).ncard < b.keys) ∧
      b.grant windows key now = (windows, false) := by
  unfold grant
  cases b.live windows key now with
  | some w =>
    dsimp only
    split
    · rename_i hlimit
      exact Or.inl ⟨w, rfl, hlimit, rfl⟩
    · rename_i hlimit
      exact Or.inr (Or.inr ⟨Or.inl ⟨w, rfl, hlimit⟩, rfl⟩)
  | none =>
    dsimp only
    split
    · rename_i hkeys
      exact Or.inr (Or.inl ⟨rfl, hkeys, rfl⟩)
    · rename_i hkeys
      exact Or.inr (Or.inr ⟨Or.inr ⟨rfl, hkeys⟩, rfl⟩)

/-- One call: the window of its key goes with the admission, and other keys keep theirs. -/
theorem grant_accounts {windows : κ → Option Window} {key k : κ} {now : Int} {times : List Int}
    (h : b.Accounts (windows k) times) (hnow : ∀ t ∈ times, t ≤ now) :
    b.Accounts ((b.grant windows key now).1 k)
      (if (b.grant windows key now).2 = true ∧ key = k then times ++ [now] else times) := by
  rcases b.grant_cases windows key now with ⟨w, hlive, hlimit, heq⟩ | ⟨hlive, -, heq⟩ | ⟨-, heq⟩
  · rw [heq]
    by_cases hk : key = k
    · subst hk
      rw [(live_eq_some.mp hlive).1] at h
      simpa using h.again hlimit hnow
    · simpa [hk, Ne.symm hk] using h
  · rw [heq]
    by_cases hk : key = k
    · subst hk
      have hended : ∀ w, windows key = some w → ¬ b.Live w now := by
        intro w hw hwlive
        rw [live_eq_some.mpr ⟨hw, hwlive⟩] at hlive
        cases hlive
      simpa using h.anew hended hnow
    · simpa [hk, Ne.symm hk] using h
  · rw [heq]
    simpa using h

theorem admissions_concat (key : κ) (history : List ((κ × Int) × Bool)) (call : κ × Int)
    (answer : Bool) :
    admissions key (history ++ [(call, answer)]) =
      if answer = true ∧ call.1 = key then admissions key history ++ [call.2]
      else admissions key history := by
  rw [admissions, List.filter_append, List.map_append]
  split
  · rename_i h
    simp [admissions, h]
  · rename_i h
    have hnot : (answer && (call.1 == key)) = false := by
      simpa [Bool.and_eq_false_iff, ← not_and_or] using h
    simp [admissions, hnot]

theorem mem_admissions {key : κ} {history : List ((κ × Int) × Bool)} {t : Int}
    (h : t ∈ admissions key history) : ∃ e ∈ history, e.1.2 = t := by
  obtain ⟨e, he, rfl⟩ := List.mem_map.mp h
  exact ⟨e, (List.mem_filter.mp he).1, rfl⟩

theorem trace_calls {calls : List (κ × Int)} {windows : κ → Option Window}
    {e : (κ × Int) × Bool} (h : e ∈ b.limiter.trace windows calls) : e.1 ∈ calls := by
  induction calls generalizing windows with
  | nil => cases h
  | cons call calls ih =>
    rcases List.mem_cons.mp h with rfl | h
    · exact List.mem_cons_self
    · exact List.mem_cons_of_mem _ (ih h)

/-- After a run whose clock does not go back, every key's window accounts for its admissions. -/
theorem run_accounts {calls : List (κ × Int)} (hcalls : calls.Pairwise fun c d => c.2 ≤ d.2)
    (key : κ) :
    b.Accounts (b.limiter.run (fun _ => none) calls key)
      (admissions key (b.limiter.trace (fun _ => none) calls)) := by
  induction calls using List.reverseRecOn with
  | nil => rfl
  | append_singleton calls call ih =>
    obtain ⟨hearlier, -, hlast⟩ := List.pairwise_append.mp hcalls
    rw [Machine.run_concat, Machine.trace_concat, admissions_concat]
    refine grant_accounts (ih hearlier) fun t ht => ?_
    obtain ⟨e, he, rfl⟩ := mem_admissions ht
    exact hlast e.1 (trace_calls he) call (List.mem_singleton.mpr rfl)

/-- A span of the length of a window holds less than twice the limit of admissions of a key. -/
theorem limiter_span {calls : List (κ × Int)} (hcalls : calls.Pairwise fun c d => c.2 ≤ d.2)
    (key : κ) (a : Int) :
    (admissions key (b.limiter.trace (fun _ => none) calls)).countP (fun t => b.InSpan a t) ≤
      2 * b.limit - 1 :=
  (run_accounts hcalls key).span a

end WindowBounds

end SevenMirror.Lib
