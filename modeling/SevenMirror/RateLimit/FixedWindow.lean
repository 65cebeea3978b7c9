import SevenMirror.Basic
import SevenMirror.Lib.Table
import SevenMirror.Lib.Windows

/-! The limiter of `internal/ratelimit/fixed_window.go`.  Its table keeps entries that are over until
their key returns or the table is full, and it still answers as the limiter that keeps live windows
only. -/

namespace SevenMirror

/-- `t.Sub(u)`, which stops at the ends of `time.Duration`. -/
def Time.sub (t u : Time) : Int :=
  if t.nanos - u.nanos > maxInt64 then maxInt64
  else if t.nanos - u.nanos < -maxInt64 - 1 then -maxInt64 - 1
  else t.nanos - u.nanos

end SevenMirror

namespace SevenMirror.RateLimit

open Lib

structure Entry where
  startedAt : Time
  attempts : Nat
deriving DecidableEq, Repr

/-- A limiter for keys of type `κ`; its limits are those that `NewFixedWindow` accepts. -/
structure FixedWindow (κ : Type) where
  entries : Table (fun row : κ × Entry => row.1)
  limit : Nat
  maxEntries : Nat
  window : Int
  limit_pos : 1 ≤ limit
  maxEntries_pos : 1 ≤ maxEntries
  window_pos : 0 < window
  window_le : window ≤ maxInt64

variable {κ : Type}

def newFixedWindow (limit maxEntries window : Int64) : Option (FixedWindow κ) :=
  if h : limit < 1 ∨ maxEntries < 1 ∨ window ≤ 0 then none
  else some
    { entries := .empty
      limit := limit.toInt.toNat
      maxEntries := maxEntries.toInt.toNat
      window := window.toInt
      limit_pos := by
        simp only [not_or, Int64.lt_iff_toInt_lt, Int64.toInt_one] at h
        omega
      maxEntries_pos := by
        simp only [not_or, Int64.lt_iff_toInt_lt, Int64.toInt_one] at h
        omega
      window_pos := by
        simp only [not_or, Int64.le_iff_toInt_le, Int64.toInt_zero] at h
        omega
      window_le := by
        have hlt := window.toInt_lt
        unfold maxInt64
        omega }

namespace FixedWindow

variable [DecidableEq κ]

/-- The window that the entry started is over. -/
def isOver (l : FixedWindow κ) (now : Time) (e : Entry) : Bool := now.sub e.startedAt ≥ l.window

/-- The first statements of `Allow`: the entry of the key, if it is not over, and the table without it
if it is. -/
def current (l : FixedWindow κ) (key : κ) (now : Time) : FixedWindow κ × Option Entry :=
  match l.entries.find key with
  | none => (l, none)
  | some (_, e) =>
    if l.isOver now e then ({ l with entries := l.entries.retain (·.1 ≠ key) }, none) else (l, some e)

/-- Deletes the entries that are over, if the table is full. -/
def sweep (l : FixedWindow κ) (now : Time) : FixedWindow κ :=
  if l.entries.rows.length ≥ l.maxEntries then
    { l with entries := l.entries.retain fun row => !l.isOver now row.2 }
  else l

def allow (l : FixedWindow κ) (key : κ) (now : Time) : FixedWindow κ × Bool :=
  match l.current key now with
  | (l, none) =>
    let l := l.sweep now
    if l.entries.rows.length ≥ l.maxEntries then (l, false)
    else ({ l with entries := l.entries.assign (key, ⟨now, 1⟩) }, true)
  | (l, some e) =>
    if e.attempts ≥ l.limit then (l, false)
    else ({ l with entries := l.entries.assign (key, { e with attempts := e.attempts + 1 }) }, true)

end FixedWindow

/-- The limiter as a machine that answers calls of `Allow`. -/
def limiter (κ : Type) [DecidableEq κ] : Machine (FixedWindow κ) (κ × Time) Bool :=
  ⟨fun l call => l.allow call.1 call.2⟩

/-! ### The limiter that keeps live windows only -/

/-- The window that an entry stands for. -/
def Entry.window (e : Entry) : Window := ⟨e.startedAt.nanos, e.attempts⟩

namespace FixedWindow

def bounds (l : FixedWindow κ) : WindowBounds :=
  ⟨l.limit, l.maxEntries, l.window, l.limit_pos, l.window_pos⟩

/-- An entry is over when its window is, also where the subtraction stops at an end. -/
theorem isOver_eq_false {l : FixedWindow κ} {now : Time} {e : Entry} :
    l.isOver now e = false ↔ l.bounds.Live e.window now.nanos := by
  have hpos := l.window_pos
  have hle := l.window_le
  simp only [isOver, ge_iff_le, decide_eq_false_iff_not, Int.not_le, WindowBounds.Live, Entry.window,
    bounds, Time.sub]
  unfold maxInt64 at hle ⊢
  split
  · omega
  · split <;> omega

/-- The windows that are live at `t` are those of the table, which is not too large. -/
structure Simulates (l : FixedWindow κ) (windows : κ → Option Window) (t : Int) : Prop where
  size : l.entries.rows.length ≤ l.maxEntries
  live : ∀ k w, l.bounds.Live w t → ((∃ e, (k, e) ∈ l.entries.rows ∧ e.window = w) ↔ windows k = some w)

theorem Simulates.mono {l : FixedWindow κ} {windows : κ → Option Window} {t t' : Int}
    (h : l.Simulates windows t) (hle : t ≤ t') : l.Simulates windows t' :=
  ⟨h.size, fun k w hw => h.live k w (Int.lt_of_le_of_lt hle hw)⟩

/-- The live window of a key is that of its entry. -/
theorem Simulates.live_some {l : FixedWindow κ} {windows : κ → Option Window} {key : κ} {now : Time}
    (h : l.Simulates windows now.nanos) {e : Entry} (he : (key, e) ∈ l.entries.rows)
    (hover : l.isOver now e = false) : l.bounds.live windows key now.nanos = some e.window := by
  have hlive := isOver_eq_false.mp hover
  exact WindowBounds.live_eq_some.mpr ⟨(h.live key _ hlive).mp ⟨e, he, rfl⟩, hlive⟩

theorem Simulates.live_none {l : FixedWindow κ} {windows : κ → Option Window} {key : κ} {now : Time}
    (h : l.Simulates windows now.nanos)
    (hover : ∀ e, (key, e) ∈ l.entries.rows → l.isOver now e = true) :
    l.bounds.live windows key now.nanos = none := by
  cases hlive : l.bounds.live windows key now.nanos with
  | none => rfl
  | some w =>
    obtain ⟨hw, hwlive⟩ := WindowBounds.live_eq_some.mp hlive
    obtain ⟨e, he, rfl⟩ := (h.live key w hwlive).mpr hw
    have hover := hover e he
    rw [isOver_eq_false.mpr hwlive] at hover
    cases hover

/-- A new limiter has no entries. -/
theorem newFixedWindow_simulates {limit maxEntries window : Int64} {l : FixedWindow κ}
    (h : newFixedWindow limit maxEntries window = some l) (t : Int) :
    l.Simulates (fun _ => none) t := by
  unfold newFixedWindow at h
  split at h
  · cases h
  · cases h
    refine ⟨Nat.zero_le _, fun k w _ => ⟨?_, ?_⟩⟩
    · rintro ⟨e, he, -⟩
      cases he
    · intro hw
      cases hw

variable [DecidableEq κ] {l : FixedWindow κ} {windows : κ → Option Window} {key : κ} {now : Time}

/-- The rows of other keys that are not over. -/
def liveOthers (l : FixedWindow κ) (key : κ) (now : Time) : List (κ × Entry) :=
  l.entries.rows.filter fun row => row.1 ≠ key ∧ l.isOver now row.2 = false

theorem Simulates.ncard_others (h : l.Simulates windows now.nanos) (key : κ) :
    (l.bounds.others windows key now.nanos).ncard = (l.liveOthers key now).length := by
  have hset : l.bounds.others windows key now.nanos =
      (((l.liveOthers key now).map (·.1)).toFinset : Set κ) := by
    ext k
    simp only [WindowBounds.others, Set.mem_ofPred_eq, List.coe_toFinset, List.mem_map, liveOthers,
      List.mem_filter, decide_eq_true_eq]
    constructor
    · rintro ⟨hk, w, hw, hlive⟩
      obtain ⟨e, he, rfl⟩ := (h.live k w hlive).mpr hw
      exact ⟨(k, e), ⟨he, hk, isOver_eq_false.mpr hlive⟩, rfl⟩
    · rintro ⟨⟨k', e⟩, ⟨he, hk, hover⟩, rfl⟩
      have hlive := isOver_eq_false.mp hover
      exact ⟨hk, e.window, (h.live k' _ hlive).mp ⟨e, he, rfl⟩, hlive⟩
  have hnodup : ((l.liveOthers key now).map (·.1)).Nodup :=
    List.pairwise_map.mpr (l.entries.distinct.filter _)
  rw [hset, Set.ncard_coe_finset, List.toFinset_card_of_nodup hnodup, List.length_map]

/-- The entry of the key counts, or it is gone and the others are left. -/
theorem current_cases (l : FixedWindow κ) (key : κ) (now : Time) :
    (∃ e, (key, e) ∈ l.entries.rows ∧ l.isOver now e = false ∧ l.current key now = (l, some e)) ∨
    ∃ entries, l.current key now = ({ l with entries }, none) ∧
      entries.rows = l.entries.rows.filter (·.1 ≠ key) ∧
      ∀ e, (key, e) ∈ l.entries.rows → l.isOver now e = true := by
  unfold current
  cases hfind : l.entries.find key with
  | none =>
    have hnone : ∀ row ∈ l.entries.rows, row.1 ≠ key := by
      intro row hrow heq
      rw [Table.find_eq_some.mpr ⟨hrow, heq⟩] at hfind
      cases hfind
    refine Or.inr ⟨l.entries, rfl, ?_, fun e he => absurd rfl (hnone _ he)⟩
    exact (List.filter_eq_self.mpr fun row hrow => decide_eq_true (hnone row hrow)).symm
  | some row =>
    obtain ⟨k, e⟩ := row
    obtain ⟨hmem, rfl⟩ := Table.find_eq_some.mp hfind
    dsimp only
    split
    · rename_i hover
      refine Or.inr ⟨_, rfl, rfl, fun e' he' => ?_⟩
      have heq := Table.eq_of_key he' hmem rfl
      cases heq
      exact hover
    · rename_i hover
      exact Or.inl ⟨e, hmem, Bool.eq_false_iff.mpr hover, rfl⟩

/-- The table after a sweep: nothing of another key that counts is gone, and if the table is still
full, nothing else is left. -/
theorem sweep_cases (l : FixedWindow κ) (key : κ) (now : Time) {entries : Table (·.1)}
    (hentries : entries.rows = l.entries.rows.filter (·.1 ≠ key)) :
    ∃ swept, ({ l with entries } : FixedWindow κ).sweep now = { l with entries := swept } ∧
      (l.liveOthers key now).Sublist swept.rows ∧ swept.rows.Sublist entries.rows ∧
      (l.maxEntries ≤ swept.rows.length → swept.rows = l.liveOthers key now) := by
  have hlive : entries.rows.filter (fun row => !l.isOver now row.2) = l.liveOthers key now := by
    rw [hentries, List.filter_filter, liveOthers]
    refine List.filter_congr fun row _ => ?_
    simp [Bool.and_comm]
  unfold sweep
  split
  · refine ⟨entries.retain fun row => !l.isOver now row.2, rfl, ?_, List.filter_sublist, fun _ => hlive⟩
    exact hlive ▸ List.Sublist.refl _
  · rename_i hroom
    refine ⟨entries, rfl, hlive ▸ List.filter_sublist, .refl _, fun hfull => absurd hfull hroom⟩

/-- What one call of `Allow` can do. -/
inductive Allows (l : FixedWindow κ) (key : κ) (now : Time) : FixedWindow κ × Bool → Prop
  | spent (e : Entry) : (key, e) ∈ l.entries.rows → l.isOver now e = false → l.limit ≤ e.attempts →
      Allows l key now (l, false)
  | again (e : Entry) : (key, e) ∈ l.entries.rows → l.isOver now e = false → e.attempts < l.limit →
      Allows l key now
        ({ l with entries := l.entries.assign (key, { e with attempts := e.attempts + 1 }) }, true)
  | full (entries : Table (·.1)) : (∀ e, (key, e) ∈ l.entries.rows → l.isOver now e = true) →
      entries.rows = l.liveOthers key now → l.maxEntries ≤ entries.rows.length →
      Allows l key now ({ l with entries }, false)
  | anew (entries : Table (·.1)) : (∀ e, (key, e) ∈ l.entries.rows → l.isOver now e = true) →
      (l.liveOthers key now).Sublist entries.rows → entries.rows.Sublist l.entries.rows →
      entries.rows.length < l.maxEntries →
      Allows l key now ({ l with entries := entries.assign (key, ⟨now, 1⟩) }, true)

theorem allow_allows (l : FixedWindow κ) (key : κ) (now : Time) :
    Allows l key now (l.allow key now) := by
  unfold allow
  rcases l.current_cases key now with ⟨e, he, hover, heq⟩ | ⟨entries, heq, hentries, hover⟩
  · rw [heq]
    dsimp only
    split
    · rename_i hspent
      exact .spent e he hover hspent
    · rename_i hspent
      exact .again e he hover (Nat.not_le.mp hspent)
  · rw [heq]
    obtain ⟨swept, hswept, hlive, hsub, hfull⟩ := l.sweep_cases key now hentries
    dsimp only
    rw [hswept]
    dsimp only
    split
    · rename_i hlength
      exact .full swept hover (hfull hlength) hlength
    · rename_i hlength
      have hrows : swept.rows.Sublist l.entries.rows :=
        hsub.trans (by rw [hentries]; exact List.filter_sublist)
      exact .anew swept hover hlive hrows (Nat.not_le.mp hlength)

theorem mem_liveOthers {k : κ} {e : Entry} : (k, e) ∈ l.liveOthers key now ↔
    (k, e) ∈ l.entries.rows ∧ k ≠ key ∧ l.isOver now e = false := by
  simp only [liveOthers, List.mem_filter, decide_eq_true_eq]

/-- The tables agree again after the key is given a window in both. -/
theorem Simulates.assign (h : l.Simulates windows now.nanos) {entries : Table (·.1)} {e : Entry}
    (hlive : (l.liveOthers key now).Sublist entries.rows)
    (hrows : ∀ row ∈ entries.rows, row ∈ l.entries.rows)
    (hsize : (entries.rows.filter (·.1 ≠ key)).length < l.maxEntries) :
    ({ l with entries := entries.assign (key, e) } : FixedWindow κ).Simulates
      (Function.update windows key (some e.window)) now.nanos := by
  refine ⟨hsize, fun k w hw => ?_⟩
  simp only [Table.assign, List.mem_cons, Prod.mk.injEq, List.mem_filter, decide_eq_true_eq]
  by_cases hk : k = key
  · subst hk
    simp
  · rw [Function.update_of_ne hk, ← h.live k w hw]
    constructor
    · rintro ⟨e', ⟨heq, -⟩ | ⟨he', -⟩, rfl⟩
      · exact absurd heq hk
      · exact ⟨e', hrows _ he', rfl⟩
    · rintro ⟨e', he', rfl⟩
      have hmem := mem_liveOthers.mpr ⟨he', hk, isOver_eq_false.mpr hw⟩
      exact ⟨e', Or.inr ⟨hlive.subset hmem, hk⟩, rfl⟩

/-- The tables still agree when only the live entries are left and the key has none. -/
theorem Simulates.swept (h : l.Simulates windows now.nanos) {entries : Table (·.1)}
    (hrows : entries.rows = l.liveOthers key now)
    (hover : ∀ e, (key, e) ∈ l.entries.rows → l.isOver now e = true) :
    ({ l with entries } : FixedWindow κ).Simulates windows now.nanos := by
  refine ⟨Nat.le_trans (hrows ▸ List.length_filter_le _ _) h.size, fun k w hw => ?_⟩
  dsimp only
  rw [← h.live k w hw, hrows]
  constructor
  · rintro ⟨e, he, rfl⟩
    exact ⟨e, (mem_liveOthers.mp he).1, rfl⟩
  · rintro ⟨e, he, rfl⟩
    have hcounts : l.isOver now e = false := isOver_eq_false.mpr hw
    refine ⟨e, mem_liveOthers.mpr ⟨he, ?_, hcounts⟩, rfl⟩
    rintro rfl
    rw [hover e he] at hcounts
    cases hcounts

/-- A call answers as the limiter that keeps live windows only, and the tables agree again. -/
theorem Simulates.allow (h : l.Simulates windows now.nanos) (key : κ) :
    (l.allow key now).1.Simulates (l.bounds.grant windows key now.nanos).1 now.nanos ∧
      (l.allow key now).2 = (l.bounds.grant windows key now.nanos).2 ∧
      (l.allow key now).1.bounds = l.bounds := by
  have hcount := h.ncard_others key
  have hallows := l.allow_allows key now
  generalize l.allow key now = out at hallows
  rcases l.bounds.grant_cases windows key now.nanos with
    ⟨w, hlive, hlimit, heq⟩ | ⟨hlive, hkeys, heq⟩ | ⟨hrefused, heq⟩ <;> rw [heq]
  · cases hallows with
    | spent e he hover hspent =>
      rw [h.live_some he hover] at hlive
      cases hlive
      exact absurd hspent (Nat.not_le.mpr hlimit)
    | again e he hover hattempts =>
      rw [h.live_some he hover] at hlive
      cases hlive
      refine ⟨h.assign List.filter_sublist (fun _ hrow => hrow) ?_, rfl, rfl⟩
      have hfewer : (l.entries.rows.filter (·.1 ≠ key)).length < l.entries.rows.length :=
        List.length_filter_lt_length_iff_exists.mpr ⟨(key, e), he, by simp⟩
      exact Nat.lt_of_lt_of_le hfewer h.size
    | full entries hover => rw [h.live_none hover] at hlive; cases hlive
    | anew entries hover => rw [h.live_none hover] at hlive; cases hlive
  · cases hallows with
    | spent e he hover => rw [h.live_some he hover] at hlive; cases hlive
    | again e he hover => rw [h.live_some he hover] at hlive; cases hlive
    | full entries hover hrows hlength =>
      rw [hcount, ← hrows] at hkeys
      exact absurd hlength (Nat.not_le.mpr hkeys)
    | anew entries hover hothers hrows hlength =>
      refine ⟨h.assign hothers (fun _ hrow => hrows.subset hrow) ?_, rfl, rfl⟩
      exact Nat.lt_of_le_of_lt (List.length_filter_le _ _) hlength
  · cases hallows with
    | spent => exact ⟨h, rfl, rfl⟩
    | again e he hover hattempts =>
      rcases hrefused with ⟨w, hlive, hlimit⟩ | ⟨hlive, -⟩
      · rw [h.live_some he hover] at hlive
        cases hlive
        exact absurd hattempts hlimit
      · rw [h.live_some he hover] at hlive
        cases hlive
    | full entries hover hrows hlength => exact ⟨h.swept hrows hover, rfl, rfl⟩
    | anew entries hover hothers hrows hlength =>
      rcases hrefused with ⟨w, hlive, -⟩ | ⟨-, hkeys⟩
      · rw [h.live_none hover] at hlive
        cases hlive
      · rw [hcount] at hkeys
        exact absurd (Nat.lt_of_le_of_lt hothers.length_le hlength) hkeys

/-- A history with the moments of its calls as integers. -/
def moments (history : List ((κ × Time) × Bool)) : List ((κ × Int) × Bool) :=
  history.map fun e => ((e.1.1, e.1.2.nanos), e.2)

/-- A run answers as the limiter that keeps live windows only, and its table stays within its size. -/
theorem Simulates.run {t : Int} (h : l.Simulates windows t) (calls : List (κ × Time))
    (hstart : ∀ c ∈ calls, t ≤ c.2.nanos)
    (hcalls : calls.Pairwise fun c d => c.2.nanos ≤ d.2.nanos) :
    ((limiter κ).run l calls).entries.rows.length ≤ l.maxEntries ∧
      moments ((limiter κ).trace l calls) =
        l.bounds.limiter.trace windows (calls.map fun c => (c.1, c.2.nanos)) := by
  induction calls generalizing l windows t with
  | nil => exact ⟨h.size, rfl⟩
  | cons call calls ih =>
    obtain ⟨hfirst, hrest⟩ := List.pairwise_cons.mp hcalls
    have hnow := h.mono (hstart call List.mem_cons_self)
    obtain ⟨hnext, hanswer, hbounds⟩ := hnow.allow call.1
    obtain ⟨hsize, htrace⟩ := ih hnext hfirst hrest
    have hmax : (l.allow call.1 call.2).1.maxEntries = l.maxEntries :=
      congrArg WindowBounds.keys hbounds
    refine ⟨hmax ▸ hsize, ?_⟩
    rw [hbounds] at htrace
    calc moments ((limiter κ).trace l (call :: calls))
      _ = ((call.1, call.2.nanos), (l.allow call.1 call.2).2) ::
          moments ((limiter κ).trace (l.allow call.1 call.2).1 calls) := rfl
      _ = l.bounds.limiter.trace windows ((call :: calls).map fun c => (c.1, c.2.nanos)) := by
        rw [htrace, hanswer]
        rfl

end FixedWindow

open FixedWindow in
/-- For calls whose clock does not go back, the limiter never holds more than `maxEntries` keys and
answers as the one that keeps the live windows only; a span of the length of the window holds at most
`2 * limit - 1` admissions of one key. -/
theorem fixed_window_ideal [DecidableEq κ] {limit maxEntries window : Int64} {l : FixedWindow κ}
    (hnew : newFixedWindow limit maxEntries window = some l) (calls : List (κ × Time))
    (hcalls : calls.Pairwise fun c d => c.2.nanos ≤ d.2.nanos) :
    ((limiter κ).run l calls).entries.rows.length ≤ l.maxEntries ∧
      moments ((limiter κ).trace l calls) =
        l.bounds.limiter.trace (fun _ => none) (calls.map fun c => (c.1, c.2.nanos)) ∧
      ∀ key a, (WindowBounds.admissions key (moments ((limiter κ).trace l calls))).countP
        (fun t => l.bounds.InSpan a t) ≤ 2 * l.limit - 1 := by
  have hrun : ((limiter κ).run l calls).entries.rows.length ≤ l.maxEntries ∧
      moments ((limiter κ).trace l calls) =
        l.bounds.limiter.trace (fun _ => none) (calls.map fun c => (c.1, c.2.nanos)) := by
    cases calls with
    | nil => exact ⟨(newFixedWindow_simulates hnew 0).size, rfl⟩
    | cons call calls =>
      refine (newFixedWindow_simulates hnew call.2.nanos).run _ (fun c hc => ?_) hcalls
      rcases List.mem_cons.mp hc with rfl | hc
      · exact Int.le_refl _
      · exact (List.pairwise_cons.mp hcalls).1 c hc
  refine ⟨hrun.1, hrun.2, fun key a => ?_⟩
  rw [hrun.2]
  exact WindowBounds.limiter_span (List.pairwise_map.mpr hcalls) key a

/-- Two attempts a minute, by at most two keys. -/
def sampleLimiter : FixedWindow String := (newFixedWindow 2 2 60000000000).get (by decide)

def sampleAllows : List (String × Time) :=
  [("a", ⟨0⟩), ("a", ⟨0⟩), ("a", ⟨0⟩), ("b", ⟨5⟩), ("c", ⟨9⟩), ("c", ⟨60000000000⟩)]

theorem fixed_window_ideal_minute :
    ((limiter String).trace sampleLimiter sampleAllows).map (·.2) =
        [true, true, false, true, false, true] ∧
      ((limiter String).run sampleLimiter sampleAllows).entries.rows.length ≤ sampleLimiter.maxEntries ∧
      FixedWindow.moments ((limiter String).trace sampleLimiter sampleAllows) =
        sampleLimiter.bounds.limiter.trace (fun _ => none)
          (sampleAllows.map fun c => (c.1, c.2.nanos)) := by
  have hnew : newFixedWindow 2 2 60000000000 = some sampleLimiter := (Option.some_get _).symm
  obtain ⟨hsize, htrace, -⟩ := fixed_window_ideal hnew sampleAllows (by decide)
  exact ⟨by decide +kernel, hsize, htrace⟩

end SevenMirror.RateLimit
