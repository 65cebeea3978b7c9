import Mathlib.Data.List.Induction

/-! Histories of events: laws that say which event may follow which past, and the stretch of a
history since its latest mark. -/

namespace SevenMirror.Lib

variable {ε μ : Type*}

/-- Each event of the history is one that `allowed` admits after the events before it. -/
def Lawful (allowed : List ε → ε → Prop) (history : List ε) : Prop :=
  ∀ earlier e later, history = earlier ++ e :: later → allowed earlier e

section Lawful

variable {allowed : List ε → ε → Prop}

theorem lawful_nil : Lawful allowed [] := by
  intro earlier e later h
  simp at h

theorem Lawful.concat {history : List ε} {e : ε} (h : Lawful allowed history)
    (he : allowed history e) : Lawful allowed (history ++ [e]) := by
  intro earlier x later heq
  rcases List.eq_nil_or_concat later with rfl | ⟨later, last, rfl⟩
  · obtain ⟨rfl, hx⟩ := List.append_inj' heq rfl
    rwa [← List.singleton_inj.mp hx]
  · rw [List.concat_eq_append, ← List.cons_append, ← List.append_assoc] at heq
    exact h earlier x later (List.append_inj' heq rfl).1

theorem Lawful.left {first second : List ε} (h : Lawful allowed (first ++ second)) :
    Lawful allowed first := by
  rintro earlier e later rfl
  exact h earlier e (later ++ second) (by simp)

theorem Lawful.last {history : List ε} {e : ε} (h : Lawful allowed (history ++ [e])) :
    allowed history e :=
  h history e [] rfl

end Lawful

/-- The latest mark of the history, with the events after it. -/
def since (mark : ε → Option μ) (history : List ε) : Option (μ × List ε) :=
  history.foldl (fun current e =>
    match mark e with
    | some m => some (m, [])
    | none => current.map fun p => (p.1, p.2 ++ [e])) none

section Since

variable (mark : ε → Option μ)

theorem since_concat_mark (history : List ε) {e : ε} {m : μ} (h : mark e = some m) :
    since mark (history ++ [e]) = some (m, []) := by
  simp [since, h]

theorem since_concat (history : List ε) {e : ε} (h : mark e = none) :
    since mark (history ++ [e]) = (since mark history).map fun p => (p.1, p.2 ++ [e]) := by
  simp [since, h]

/-- After a mark, and as long as no other follows, the stretch is what follows it. -/
theorem since_of_mark (history : List ε) {e : ε} {m : μ} (h : mark e = some m) {stretch : List ε}
    (hs : ∀ x ∈ stretch, mark x = none) :
    since mark (history ++ e :: stretch) = some (m, stretch) := by
  induction stretch using List.reverseRecOn with
  | nil => exact since_concat_mark mark history h
  | append_singleton stretch x ih =>
    rw [← List.cons_append, ← List.append_assoc, since_concat mark _ (hs x (by simp)),
      ih fun y hy => hs y (List.mem_append_left _ hy)]
    rfl

end Since

section Forward

variable {α : Type*}

theorem sublist_dropWhile {p : α → Bool} {b : α} {l m : List α} (h : (b :: l).Sublist m)
    (hb : p b = false) : (b :: l).Sublist (m.dropWhile p) := by
  induction m with
  | nil => cases h
  | cons a m ih =>
    rw [List.dropWhile_cons]
    split
    · rename_i ha
      cases h with
      | cons _ h => exact ih h
      | cons_cons _ h =>
        rw [hb] at ha
        cases ha
    · exact h

variable [DecidableEq α]

/-- No value comes again after another one. -/
def Forward : List α → Prop
  | [] => True
  | a :: rest => a ∉ rest.dropWhile (· = a) ∧ Forward rest

instance decidableForward : (l : List α) → Decidable (Forward l)
  | [] => .isTrue trivial
  | _ :: rest =>
    have := decidableForward rest
    inferInstanceAs (Decidable (_ ∧ _))

/-- What is taken of such a list without immediate repetitions has no value twice. -/
theorem Forward.nodup {l m : List α} (hm : Forward m) (h : l.Sublist m)
    (hl : l.IsChain (· ≠ ·)) : l.Nodup := by
  induction h with
  | slnil => exact List.nodup_nil
  | cons a _ ih => exact ih hm.2 hl
  | @cons_cons l m a h ih =>
    cases l with
    | nil => simp
    | cons b l =>
      obtain ⟨hne, hl⟩ := List.isChain_cons_cons.mp hl
      refine List.nodup_cons.mpr ⟨fun ha => ?_, ih hm.2 hl⟩
      exact hm.1 ((sublist_dropWhile h (by simpa using hne.symm)).subset ha)

end Forward

end SevenMirror.Lib
