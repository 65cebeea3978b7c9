import Mathlib.Data.List.Chain

/-! Rows that are numbered without a gap, and how a row at the end extends them. -/

namespace SevenMirror.Lib

variable {ρ : Type} {number : ρ → Nat} {start : Nat} {rows : List ρ}

/-- The rows have the numbers `start, start + 1, …`. -/
def Numbered (number : ρ → Nat) (start : Nat) (rows : List ρ) : Prop :=
  rows.map number = List.range' start rows.length

namespace Numbered

theorem nil : Numbered number start [] := rfl

theorem concat (h : Numbered number start rows) {r : ρ} (hr : number r = start + rows.length) :
    Numbered number start (rows ++ [r]) := by
  rw [Numbered, List.map_append, h, List.map_singleton, hr, List.length_append,
    List.length_singleton, ← List.range'_append_1]
  rfl

theorem bounds (h : Numbered number start rows) {r : ρ} (hr : r ∈ rows) :
    start ≤ number r ∧ number r < start + rows.length := by
  have hmem := List.mem_map_of_mem (f := number) hr
  rw [h, List.mem_range'_1] at hmem
  exact hmem

theorem exists_number (h : Numbered number start rows) {n : Nat} (hlow : start ≤ n)
    (hhigh : n < start + rows.length) : ∃ r ∈ rows, number r = n := by
  have hmem : n ∈ List.range' start rows.length := List.mem_range'_1.mpr ⟨hlow, hhigh⟩
  rwa [← h, List.mem_map] at hmem

theorem getElem? (h : Numbered number start rows) {i : Nat} {r : ρ} (hr : rows[i]? = some r) :
    number r = start + i := by
  obtain ⟨hi, -⟩ := List.getElem?_eq_some_iff.mp hr
  have hnumber : (rows.map number)[i]? = some (number r) := by rw [List.getElem?_map, hr, Option.map_some]
  rw [h, List.getElem?_range' hi] at hnumber
  simpa using (Option.some.inj hnumber).symm

/-- A row stands where its number says. -/
theorem getElem?_of_mem (h : Numbered number start rows) {r : ρ} (hr : r ∈ rows) :
    rows[number r - start]? = some r := by
  obtain ⟨i, hi⟩ := List.mem_iff_getElem?.mp hr
  rw [h.getElem? hi, Nat.add_sub_cancel_left]
  exact hi

theorem of_concat {r : ρ} (h : Numbered number start (rows ++ [r])) :
    Numbered number start rows ∧ number r = start + rows.length := by
  rw [Numbered, List.map_append, List.length_append, ← List.range'_append_1] at h
  obtain ⟨hbefore, hlast⟩ := List.append_inj h (by simp)
  exact ⟨hbefore, by simpa using hlast⟩

theorem last (h : Numbered number start rows) {r : ρ} (hr : r ∈ rows.getLast?) :
    number r + 1 = start + rows.length := by
  rcases List.eq_nil_or_concat' rows with rfl | ⟨before, x, rfl⟩
  · cases hr
  · rw [List.getLast?_concat] at hr
    cases hr
    rw [h.of_concat.2, List.length_append, List.length_singleton, Nat.add_assoc]

theorem ascending (h : Numbered number start rows) :
    rows.Pairwise fun a b => number a < number b := by
  have hrange : (List.range' start rows.length).Pairwise (· < ·) := List.pairwise_lt_range' 1
  rw [← h] at hrange
  exact List.pairwise_map.mp hrange

theorem of_cons {r : ρ} (h : Numbered number start (r :: rows)) :
    number r = start ∧ Numbered number (start + 1) rows := by
  rw [Numbered, List.map_cons, List.length_cons, List.range'_succ] at h
  exact ⟨(List.cons.inj h).1, (List.cons.inj h).2⟩

theorem drop (h : Numbered number start rows) (n : Nat) :
    Numbered number (start + n) (rows.drop n) := by
  induction n generalizing start rows with
  | zero => exact h
  | succ n ih =>
    cases rows with
    | nil => rfl
    | cons r rest =>
      rw [List.drop_succ_cons, Nat.add_comm n 1, ← Nat.add_assoc]
      exact ih h.of_cons.2

theorem take (h : Numbered number start rows) (n : Nat) : Numbered number start (rows.take n) := by
  induction n generalizing start rows with
  | zero => rfl
  | succ n ih =>
    cases rows with
    | nil => rfl
    | cons r rest =>
      rw [List.take_succ_cons, Numbered, List.map_cons, List.length_cons, List.range'_succ,
        h.of_cons.1, ih h.of_cons.2]

theorem filter_le (h : Numbered number start rows) (high : Nat) :
    rows.filter (fun r => number r ≤ high) = rows.take (high + 1 - start) := by
  induction rows generalizing start with
  | nil => simp
  | cons r rest ih =>
    obtain ⟨hr, hrest⟩ := h.of_cons
    by_cases hle : start ≤ high
    · rw [List.filter_cons_of_pos (by simp [hr, hle]), ih hrest,
        show high + 1 - start = high + 1 - (start + 1) + 1 by omega, List.take_succ_cons]
    · rw [show high + 1 - start = 0 by omega, List.take_zero, List.filter_eq_nil_iff]
      intro x hx
      have := (h.bounds hx).1
      simp only [decide_eq_true_eq]
      omega

/-- The rows whose numbers are above `low` and at most `high`. -/
theorem filter_within (h : Numbered number start rows) {low high : Nat} (hlow : start ≤ low + 1) :
    rows.filter (fun r => low < number r ∧ number r ≤ high) =
      (rows.drop (low + 1 - start)).take (high - low) := by
  induction rows generalizing start with
  | nil => simp
  | cons r rest ih =>
    obtain ⟨hr, hrest⟩ := h.of_cons
    by_cases hle : start ≤ low
    · rw [List.filter_cons_of_neg (by simp [hr]; omega), ih hrest (by omega),
        show low + 1 - start = low + 1 - (start + 1) + 1 by omega, List.drop_succ_cons]
    · obtain rfl : start = low + 1 := by omega
      rw [Nat.sub_self, List.drop_zero, show high - low = high + 1 - (low + 1) by omega,
        ← h.filter_le high]
      refine List.filter_congr fun x hx => ?_
      have := (h.bounds hx).1
      simp only [decide_eq_decide]
      omega

end Numbered

theorem head?_concat {P : ρ → Prop} {r : ρ} (h : ∀ x ∈ rows.head?, P x) (hr : rows = [] → P r) :
    ∀ x ∈ (rows ++ [r]).head?, P x := by
  cases rows with
  | nil => simpa using hr rfl
  | cons y rest => simpa using h

theorem isChain_concat {R : ρ → ρ → Prop} {r : ρ} (h : rows.IsChain R)
    (hr : ∀ x ∈ rows.getLast?, R x r) : (rows ++ [r]).IsChain R := by
  rw [List.isChain_append]
  exact ⟨h, List.isChain_singleton r, by simpa using hr⟩

theorem exists_of_forall₂ {α β : Type*} {R : α → β → Prop} {as : List α} {bs : List β}
    (h : List.Forall₂ R as bs) {b : β} (hb : b ∈ bs) : ∃ a ∈ as, R a b := by
  induction h with
  | nil => cases hb
  | @cons a b' as bs hab _ ih =>
    rcases List.mem_cons.mp hb with rfl | hb
    · exact ⟨a, List.mem_cons_self, hab⟩
    · obtain ⟨x, hx, hR⟩ := ih hb
      exact ⟨x, List.mem_cons_of_mem _ hx, hR⟩

end SevenMirror.Lib
