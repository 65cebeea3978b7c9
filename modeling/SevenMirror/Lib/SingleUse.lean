import SevenMirror.Lib.Machine
import SevenMirror.Lib.Table

/-! Codes that are used once.  A table of codes gains rows that are unused, and an unused row is
replaced by one that is used; a row that is used stays so.  In a run whose steps do no more than this
to the table, at most one step uses a given code, and a code that no step uses keeps its row. -/

namespace SevenMirror.Lib

variable {ρ κ : Type} {key : ρ → κ} {used : ρ → Bool} {t t' : Table key}

/-- What a step does to a table of codes, and the code that it uses. -/
inductive CodeStep (used : ρ → Bool) (t t' : Table key) : Option κ → Prop
  | same : t' = t → CodeStep used t t' none
  | issued (r : ρ) : used r = false → t'.rows = t.rows ++ [r] → CodeStep used t t' none
  | spent (r r' : ρ) : used r = false → used r' = true → t.Replaces t' r r' →
      CodeStep used t t' (some (key r))

/-- The code with the key was used. -/
def Spent (used : ρ → Bool) (t : Table key) (k : κ) : Prop :=
  ∃ r ∈ t.rows, key r = k ∧ used r = true

theorem CodeStep.keeps {spends : Option κ} (h : CodeStep used t t' spends) {k : κ}
    (hspent : Spent used t k) : Spent used t' k := by
  obtain ⟨x, hx, hkey, hused⟩ := hspent
  cases h with
  | same heq => exact ⟨x, heq ▸ hx, hkey, hused⟩
  | issued r _ hrows =>
    refine ⟨x, ?_, hkey, hused⟩
    rw [hrows]
    exact List.mem_append_left _ hx
  | spent r r' hunused _ hreplaces =>
    refine ⟨x, (hreplaces.rows x).mpr (Or.inr ⟨hx, fun heq => ?_⟩), hkey, hused⟩
    -- the row that is replaced is unused
    rw [Table.eq_of_key hx hreplaces.mem heq, hunused] at hused
    cases hused

theorem CodeStep.spends {k : κ} (h : CodeStep used t t' (some k)) :
    ¬ Spent used t k ∧ Spent used t' k := by
  cases h with
  | spent r r' hunused hused hreplaces =>
    refine ⟨?_, r', (hreplaces.rows r').mpr (Or.inl rfl), hreplaces.key_eq, hused⟩
    rintro ⟨x, hx, hkey, hx'⟩
    rw [Table.eq_of_key hx hreplaces.mem hkey, hunused] at hx'
    cases hx'

/-- A code that the step does not use keeps its row. -/
theorem CodeStep.row {spends : Option κ} (h : CodeStep used t t' spends) {r : ρ}
    (hr : r ∈ t.rows) (hother : spends ≠ some (key r)) : r ∈ t'.rows := by
  cases h with
  | same heq => exact heq ▸ hr
  | issued x _ hrows =>
    rw [hrows]
    exact List.mem_append_left _ hr
  | spent x x' _ _ hreplaces =>
    exact (hreplaces.rows r).mpr (Or.inr ⟨hr, fun heq => hother (congrArg some heq.symm)⟩)

section Runs

variable {σ ι ο : Type*} {m : Machine σ ι ο} {table : σ → Table key} {spends : ι × ο → Option κ}
  (step : ∀ s call, CodeStep used (table s) (table (m.step s call).1)
    (spends (call, (m.step s call).2)))

include step

/-- At most one step of a run uses a code. -/
theorem spends_at_most_once [DecidableEq κ] (s : σ) (calls : List ι) (k : κ) :
    (m.trace s calls).countP (fun e => spends e = some k) ≤ 1 := by
  refine (m.counts_at_most_once (fun _ _ => True) _ (fun s => Spent used (table s) k) ?_ ?_
    (m.allowed_of_forall (fun _ _ => trivial) s calls)).1
  · intro s call _ hcounts
    have hstep := step s call
    rw [of_decide_eq_true hcounts] at hstep
    exact hstep.spends
  · exact fun s call _ hspent => (step s call).keeps hspent

/-- A code that no step of the run uses keeps its row. -/
theorem unspent_row (s : σ) (calls : List ι) {r : ρ} (hr : r ∈ (table s).rows)
    (hother : ∀ e ∈ m.trace s calls, spends e ≠ some (key r)) :
    r ∈ (table (m.run s calls)).rows := by
  induction calls generalizing s with
  | nil => exact hr
  | cons call calls ih =>
    have hfirst := hother (call, (m.step s call).2) List.mem_cons_self
    exact ih _ ((step s call).row hr hfirst) fun e he => hother e (List.mem_cons_of_mem _ he)

end Runs

end SevenMirror.Lib
