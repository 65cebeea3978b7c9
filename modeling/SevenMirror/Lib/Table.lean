import Mathlib.Data.List.Basic

/-! Tables of rows with a primary key: insertion, which fails on a key that is taken, and update,
which keeps the keys. -/

namespace SevenMirror.Lib

/-- The rows of a table, no two with the same key. -/
structure Table {ρ κ : Type} (key : ρ → κ) where
  rows : List ρ
  distinct : rows.Pairwise (fun a b => key a ≠ key b)

namespace Table

variable {ρ κ : Type} {key : ρ → κ}

def empty : Table key := ⟨[], .nil⟩

/-- `INSERT`, for a key that no row has. -/
def insert [DecidableEq κ] (t : Table key) (r : ρ) : Option (Table key) :=
  if h : ∀ x ∈ t.rows, key x ≠ key r then
    some ⟨t.rows ++ [r], List.pairwise_append.mpr ⟨t.distinct, List.pairwise_singleton _ _,
      fun x hx _ hy => List.mem_singleton.mp hy ▸ h x hx⟩⟩
  else none

theorem map_distinct {rows : List ρ} {f : ρ → ρ} (hf : ∀ r, key (f r) = key r)
    (h : rows.Pairwise (fun a b => key a ≠ key b)) :
    (rows.map f).Pairwise (fun a b => key a ≠ key b) := by
  rw [List.pairwise_map]
  simpa only [hf] using h

/-- `UPDATE` of the rows that `p` selects. -/
def update (t : Table key) (p : ρ → Bool) (f : ρ → ρ) (hf : ∀ r, p r = true → key (f r) = key r) :
    Table key where
  rows := t.rows.map fun r => if p r then f r else r
  distinct := map_distinct (fun r => by split <;> simp_all) t.distinct

/-- `UPDATE` of every row. -/
def map (t : Table key) (f : ρ → ρ) (hf : ∀ r, key (f r) = key r) : Table key :=
  ⟨t.rows.map f, map_distinct hf t.distinct⟩

/-- The rows that `keep` selects. -/
def retain (t : Table key) (keep : ρ → Bool) : Table key :=
  ⟨t.rows.filter keep, t.distinct.filter keep⟩

/-- The table with `r` as the row of its key. -/
def assign [DecidableEq κ] (t : Table key) (r : ρ) : Table key where
  rows := r :: t.rows.filter fun x => key x ≠ key r
  distinct := List.pairwise_cons.mpr ⟨fun x hx => by
    have hne := (List.mem_filter.mp hx).2
    exact fun heq => of_decide_eq_true hne heq.symm, t.distinct.filter _⟩

/-- The rows that an `UPDATE` of what `p` selects affects. -/
def affected (t : Table key) (p : ρ → Bool) : Nat := t.rows.countP p

/-- The row with the key. -/
def find [DecidableEq κ] (t : Table key) (k : κ) : Option ρ := t.rows.find? fun r => key r = k

theorem eq_of_key {t : Table key} {a b : ρ} (ha : a ∈ t.rows) (hb : b ∈ t.rows)
    (h : key a = key b) : a = b := by
  have hdistinct := t.distinct
  generalize t.rows = rows at ha hb hdistinct
  induction rows with
  | nil => cases ha
  | cons x rest ih =>
    obtain ⟨hx, hrest⟩ := List.pairwise_cons.mp hdistinct
    rcases List.mem_cons.mp ha with hax | ha <;> rcases List.mem_cons.mp hb with hbx | hb
    · rw [hax, hbx]
    · exact absurd h (hax ▸ hx b hb)
    · exact absurd h.symm (hbx ▸ hx a ha)
    · exact ih ha hb hrest

theorem find_eq_some [DecidableEq κ] {t : Table key} {k : κ} {r : ρ} :
    t.find k = some r ↔ r ∈ t.rows ∧ key r = k := by
  constructor
  · intro h
    exact ⟨List.mem_of_find?_eq_some h, by simpa using List.find?_some h⟩
  · rintro ⟨hr, rfl⟩
    cases hfind : t.find (key r) with
    | none => simpa using List.find?_eq_none.mp hfind r hr
    | some x =>
      have hx := List.mem_of_find?_eq_some hfind
      have hk : key x = key r := by simpa using List.find?_some hfind
      rw [eq_of_key hx hr hk]

theorem find_map [DecidableEq κ] (t : Table key) (f : ρ → ρ) (hf : ∀ r, key (f r) = key r) (k : κ) :
    (t.map f hf).find k = (t.find k).map f := by
  simp only [find, map, List.find?_map, Function.comp_def, hf]

/-- Tables with the same rows for a key find the same there. -/
theorem find_congr [DecidableEq κ] {t t' : Table key} {k : κ}
    (h : ∀ x, key x = k → (x ∈ t'.rows ↔ x ∈ t.rows)) : t'.find k = t.find k := by
  refine Option.ext fun x => ?_
  rw [find_eq_some, find_eq_some]
  constructor
  · rintro ⟨hx, hk⟩
    exact ⟨(h x hk).mp hx, hk⟩
  · rintro ⟨hx, hk⟩
    exact ⟨(h x hk).mpr hx, hk⟩

theorem insert_eq_some [DecidableEq κ] {t t' : Table key} {r : ρ} :
    t.insert r = some t' ↔ (∀ x ∈ t.rows, key x ≠ key r) ∧ t'.rows = t.rows ++ [r] := by
  unfold insert
  split
  · rename_i h
    constructor
    · intro heq
      cases heq
      exact ⟨h, rfl⟩
    · rintro ⟨-, hrows⟩
      cases t'
      cases hrows
      rfl
  · rename_i h
    simp only [reduceCtorEq, false_iff, not_and]
    exact fun h' => absurd h' h

theorem insert_of_fresh [DecidableEq κ] {t : Table key} {r : ρ}
    (h : ∀ x ∈ t.rows, key x ≠ key r) : ∃ t', t.insert r = some t' ∧ t'.rows = t.rows ++ [r] := by
  rw [insert, dif_pos h]
  exact ⟨_, rfl, rfl⟩

theorem mem_update {t : Table key} {p : ρ → Bool} {f : ρ → ρ}
    {hf : ∀ r, p r = true → key (f r) = key r} {x : ρ} :
    x ∈ (t.update p f hf).rows ↔ ∃ y ∈ t.rows, x = if p y then f y else y := by
  simp only [update, List.mem_map, eq_comm]

/-- `t'` is `t` with `r'` in the place of `r`. -/
structure Replaces (t t' : Table key) (r r' : ρ) : Prop where
  mem : r ∈ t.rows
  key_eq : key r' = key r
  rows : ∀ x, x ∈ t'.rows ↔ x = r' ∨ x ∈ t.rows ∧ key x ≠ key r

theorem update_replaces {t : Table key} {p : ρ → Bool} {f : ρ → ρ}
    (hf : ∀ r, p r = true → key (f r) = key r) {r : ρ} (hr : r ∈ t.rows) (hp : p r = true)
    (hk : ∀ x, p x = true → key x = key r) : Replaces t (t.update p f hf) r (f r) where
  mem := hr
  key_eq := hf r hp
  rows x := by
    rw [mem_update]
    constructor
    · rintro ⟨y, hy, rfl⟩
      by_cases hpy : p y = true
      · rw [if_pos hpy, eq_of_key hy hr (hk y hpy)]
        exact Or.inl rfl
      · rw [if_neg hpy]
        refine Or.inr ⟨hy, fun hkey => hpy ?_⟩
        rw [eq_of_key hy hr hkey]
        exact hp
    · rintro (rfl | ⟨hx, hne⟩)
      · exact ⟨r, hr, by rw [if_pos hp]⟩
      · exact ⟨x, hx, by rw [if_neg fun hpx => hne (hk x hpx)]⟩

theorem Replaces.find_ne [DecidableEq κ] {t t' : Table key} {r r' : ρ} (h : Replaces t t' r r')
    {k : κ} (hk : key r ≠ k) : t'.find k = t.find k := by
  refine find_congr fun x hx => ?_
  rw [h.rows x]
  constructor
  · rintro (rfl | ⟨hmem, -⟩)
    · exact absurd (h.key_eq.symm.trans hx) hk
    · exact hmem
  · exact fun hmem => Or.inr ⟨hmem, fun heq => hk (heq.symm.trans hx)⟩

theorem exists_of_affected {t : Table key} {p : ρ → Bool} (h : t.affected p = 1) :
    ∃ r ∈ t.rows, p r = true := by
  have hpos : 0 < t.rows.countP p := by
    unfold affected at h
    omega
  exact List.countP_pos_iff.mp hpos

/-- The rows that are selected by the key of one row are that row. -/
theorem filter_eq_singleton {t : Table key} {p : ρ → Bool} {r : ρ} (hr : r ∈ t.rows)
    (hp : ∀ x ∈ t.rows, p x = true ↔ key x = key r) : t.rows.filter p = [r] := by
  have hdistinct := t.distinct
  generalize t.rows = rows at hr hp hdistinct
  induction rows with
  | nil => cases hr
  | cons x rest ih =>
    obtain ⟨hx, hrest⟩ := List.pairwise_cons.mp hdistinct
    by_cases hkey : key x = key r
    · have hxr : x = r := by
        rcases List.mem_cons.mp hr with hrx | hr
        · exact hrx.symm
        · exact absurd hkey (hx r hr)
      have hothers : rest.filter p = [] := by
        rw [List.filter_eq_nil_iff]
        intro y hy hpy
        exact hx y hy (hkey.trans ((hp y (List.mem_cons_of_mem _ hy)).mp hpy).symm)
      rw [List.filter_cons_of_pos ((hp x List.mem_cons_self).mpr hkey), hothers, hxr]
    · have hne : r ∈ rest := (List.mem_cons.mp hr).resolve_left fun h => hkey (by rw [h])
      have hpx : ¬ p x = true := fun h => hkey ((hp x List.mem_cons_self).mp h)
      rw [List.filter_cons_of_neg hpx]
      exact ih hne (fun y hy => hp y (List.mem_cons_of_mem _ hy)) hrest

theorem affected_eq_one {t : Table key} {p : ρ → Bool} {r : ρ} (hr : r ∈ t.rows) (hpr : p r = true)
    (hp : ∀ x, p x = true → key x = key r) : t.affected p = 1 := by
  have hfilter : t.rows.filter p = [r] := by
    refine filter_eq_singleton hr fun x hx => ⟨hp x, fun hkey => ?_⟩
    rw [eq_of_key hx hr hkey]
    exact hpr
  rw [affected, List.countP_eq_length_filter, hfilter]
  rfl

end Table

end SevenMirror.Lib
