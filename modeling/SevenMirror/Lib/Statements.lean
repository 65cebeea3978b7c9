import SevenMirror.Lib.Machine

/-! Calls that issue several statements outside a transaction.  A statement asks a question of the
store as it is at that moment.  Rows stay open until they are exhausted or closed, and they hold the
connection of the call: a call that has one connection waits for itself when it asks while its own
rows are open. -/

namespace SevenMirror.Lib

/-- What is left of a call.  A `query` reads one row and gives the connection back; `rows` keeps it
until `close`, or until the call is `done`. -/
inductive Statements (ι : Type) (ρ : ι → Type) (α : Type)
  | done (result : α)
  | query (q : ι) (next : ρ q → Statements ι ρ α)
  | rows (q : ι) (next : ρ q → Statements ι ρ α)
  | close (next : Statements ι ρ α)

namespace Statements

variable {ι : Type} {ρ : ι → Type} {α : Type}

/-- The result, when one store answers every statement. -/
def eval (answer : (q : ι) → ρ q) : Statements ι ρ α → α
  | done result => result
  | query q next => eval answer (next (answer q))
  | rows q next => eval answer (next (answer q))
  | close next => eval answer next

/-- The result with one connection, which open rows of the call hold if `held`.  There is none if
the call waits for itself. -/
def alone (answer : (q : ι) → ρ q) : Bool → Statements ι ρ α → Option α
  | _, done result => some result
  | held, query q next => if held then none else alone answer false (next (answer q))
  | held, rows q next => if held then none else alone answer true (next (answer q))
  | _, close next => alone answer false next

/-- A call that does not wait for itself has the result of its statements. -/
theorem alone_eq_some {answer : (q : ι) → ρ q} {held : Bool} {p : Statements ι ρ α} {r : α}
    (h : p.alone answer held = some r) : p.eval answer = r := by
  induction p generalizing held with
  | done result => exact Option.some.inj h
  | query q next ih =>
    simp only [alone, Option.ite_none_left_eq_some] at h
    exact ih _ h.2
  | rows q next ih =>
    simp only [alone, Option.ite_none_left_eq_some] at h
    exact ih _ h.2
  | close next ih => exact ih h

/-- The statement that the call issues next. -/
def pending : Statements ι ρ α → Option ι
  | done _ => none
  | query q _ => some q
  | rows q _ => some q
  | close next => pending next

def result? : Statements ι ρ α → Option α
  | done result => some result
  | _ => none

theorem result?_eq_some {p : Statements ι ρ α} {r : α} : p.result? = some r ↔ p = done r := by
  cases p <;> simp [result?]

/-- What is left of `p` after the statements `asked`. -/
inductive Reached (answer : (q : ι) → ρ q) (p : Statements ι ρ α) :
    List ι → Statements ι ρ α → Prop
  | start : Reached answer p [] p
  | query {asked : List ι} {q : ι} {next : ρ q → Statements ι ρ α} :
      Reached answer p asked (.query q next) → Reached answer p (asked ++ [q]) (next (answer q))
  | rows {asked : List ι} {q : ι} {next : ρ q → Statements ι ρ α} :
      Reached answer p asked (.rows q next) → Reached answer p (asked ++ [q]) (next (answer q))
  | close {asked : List ι} {next : Statements ι ρ α} :
      Reached answer p asked (.close next) → Reached answer p asked next

theorem Reached.eval_eq {answer : (q : ι) → ρ q} {p rest : Statements ι ρ α} {asked : List ι}
    (h : Reached answer p asked rest) : rest.eval answer = p.eval answer := by
  induction h with
  | start => rfl
  | query _ ih => exact ih
  | rows _ ih => exact ih
  | close _ ih => exact ih

/-- A store that answers what was asked in the same way leads to the same rest. -/
theorem Reached.congr {answer answer' : (q : ι) → ρ q} {p rest : Statements ι ρ α}
    {asked : List ι} (h : Reached answer p asked rest)
    (hsame : ∀ q ∈ asked, answer' q = answer q) : Reached answer' p asked rest := by
  induction h with
  | start => exact .start
  | query _ ih =>
    rw [← hsame _ (by simp)]
    exact .query (ih fun q hq => hsame q (List.mem_append_left _ hq))
  | rows _ ih =>
    rw [← hsame _ (by simp)]
    exact .rows (ih fun q hq => hsame q (List.mem_append_left _ hq))
  | close _ ih => exact .close (ih hsame)

/-- The statements come in the order of their ranks, from `n` on. -/
def Ranked (rank : ι → Nat) : Nat → Statements ι ρ α → Prop
  | _, done _ => True
  | n, query q next => n ≤ rank q ∧ ∀ a, Ranked rank (rank q + 1) (next a)
  | n, rows q next => n ≤ rank q ∧ ∀ a, Ranked rank (rank q + 1) (next a)
  | n, close next => Ranked rank n next

theorem Ranked.mono {rank : ι → Nat} {m n : Nat} {p : Statements ι ρ α} (h : Ranked rank n p)
    (hle : m ≤ n) : Ranked rank m p := by
  induction p with
  | done => trivial
  | query q next => exact ⟨Nat.le_trans hle h.1, h.2⟩
  | rows q next => exact ⟨Nat.le_trans hle h.1, h.2⟩
  | close next ih => exact ih h

theorem Ranked.le_pending {rank : ι → Nat} {n : Nat} {p : Statements ι ρ α} (h : Ranked rank n p)
    {q : ι} (hq : p.pending = some q) : n ≤ rank q := by
  induction p with
  | done => cases hq
  | query q' next =>
    cases hq
    exact h.1
  | rows q' next =>
    cases hq
    exact h.1
  | close next ih => exact ih h hq

theorem Reached.ranked {rank : ι → Nat} {answer : (q : ι) → ρ q} {p rest : Statements ι ρ α}
    {asked : List ι} (hp : Ranked rank 0 p) (h : Reached answer p asked rest) :
    ∃ n, Ranked rank n rest ∧ ∀ q ∈ asked, rank q < n := by
  induction h with
  | start => exact ⟨0, hp, by simp⟩
  | query _ ih =>
    obtain ⟨n, ⟨hle, hnext⟩, hasked⟩ := ih
    refine ⟨_, hnext _, fun q' hq' => ?_⟩
    rcases List.mem_append.mp hq' with hq' | hq'
    · have := hasked q' hq'
      omega
    · rw [List.mem_singleton.mp hq']
      omega
  | rows _ ih =>
    obtain ⟨n, ⟨hle, hnext⟩, hasked⟩ := ih
    refine ⟨_, hnext _, fun q' hq' => ?_⟩
    rcases List.mem_append.mp hq' with hq' | hq'
    · have := hasked q' hq'
      omega
    · rw [List.mem_singleton.mp hq']
      omega
  | close _ ih => exact ih

/-- What was asked ranks below what is asked next. -/
theorem Reached.rank_lt {rank : ι → Nat} {answer : (q : ι) → ρ q} {p rest : Statements ι ρ α}
    {asked : List ι} (hp : Ranked rank 0 p) (h : Reached answer p asked rest) {q q' : ι}
    (hq : q ∈ asked) (hq' : rest.pending = some q') : rank q < rank q' := by
  obtain ⟨n, hranked, hasked⟩ := h.ranked hp
  exact Nat.lt_of_lt_of_le (hasked q hq) (hranked.le_pending hq')

end Statements

/-! ### Interleaving -/

/-- A call in progress, and the store that others change meanwhile. -/
structure Session (σ ι : Type) (ρ : ι → Type) (α : Type) where
  state : σ
  held : Bool := false
  rest : Statements ι ρ α

/-- The call takes its next step, or another connection commits. -/
inductive SessionEvent (κ : Type)
  | statement
  | commit (call : κ)

section Sessions

variable {σ κ ο ι : Type} {ρ : ι → Type} {α : Type} (answer : σ → (q : ι) → ρ q)
  (m : Machine σ κ ο)

/-- The next step of the call.  A statement waits while rows of the call are open. -/
def Session.advance (c : Session σ ι ρ α) : Session σ ι ρ α :=
  match c.rest with
  | .done _ => c
  | .query q next => if c.held then c else { c with rest := next (answer c.state q) }
  | .rows q next =>
    if c.held then c else { c with held := true, rest := next (answer c.state q) }
  | .close next => { c with held := false, rest := next }

def sessions : Machine (Session σ ι ρ α) (SessionEvent κ) Unit where
  step c
    | .statement => (c.advance answer, ())
    | .commit call => ({ c with state := (m.step c.state call).1 }, ())

/-- The commits among the events. -/
def commits : List (SessionEvent κ) → List κ :=
  List.filterMap fun
    | .statement => none
    | .commit call => some call

/-- What is left of the call is what the present store would have led to. -/
def Session.Consistent (p : Statements ι ρ α) (c : Session σ ι ρ α) : Prop :=
  ∃ asked, p.Reached (answer c.state) asked c.rest

variable {answer}

@[simp] theorem Session.advance_state (c : Session σ ι ρ α) :
    (c.advance answer).state = c.state := by
  unfold Session.advance
  split
  · rfl
  · split <;> rfl
  · split <;> rfl
  · rfl

theorem Session.advance_done {c : Session σ ι ρ α} {r : α} (h : c.rest = .done r) :
    c.advance answer = c := by
  simp only [Session.advance, h]

theorem Session.advance_query {c : Session σ ι ρ α} {q : ι} {next : ρ q → Statements ι ρ α}
    (h : c.rest = .query q next) :
    c.advance answer = if c.held then c else { c with rest := next (answer c.state q) } := by
  simp only [Session.advance, h]

/-- Only the commits change the store. -/
theorem sessions_state (c : Session σ ι ρ α) (events : List (SessionEvent κ)) :
    ((sessions answer m).run c events).state = m.run c.state (commits events) := by
  induction events generalizing c with
  | nil => rfl
  | cons event events ih =>
    cases event with
    | statement => exact (ih _).trans (congrArg (m.run · _) (Session.advance_state c))
    | commit call => exact ih _

theorem Session.Consistent.advance {p : Statements ι ρ α} {c : Session σ ι ρ α}
    (h : c.Consistent answer p) : (c.advance answer).Consistent answer p := by
  obtain ⟨asked, hreached⟩ := h
  unfold Session.advance
  split
  · exact ⟨asked, hreached⟩
  · rename_i q next hrest
    rw [hrest] at hreached
    split
    · exact ⟨asked, hrest ▸ hreached⟩
    · exact ⟨_, hreached.query⟩
  · rename_i q next hrest
    rw [hrest] at hreached
    split
    · exact ⟨asked, hrest ▸ hreached⟩
    · exact ⟨_, hreached.rows⟩
  · rename_i next hrest
    rw [hrest] at hreached
    exact ⟨asked, hreached.close⟩

theorem Session.Consistent.result {p : Statements ι ρ α} {c : Session σ ι ρ α} {r : α}
    (h : c.Consistent answer p) (hdone : c.rest = .done r) : p.eval (answer c.state) = r := by
  obtain ⟨asked, hreached⟩ := h
  rw [← hreached.eval_eq, hdone]
  rfl

end Sessions

end SevenMirror.Lib
