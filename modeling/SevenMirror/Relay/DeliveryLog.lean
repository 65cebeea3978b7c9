import SevenMirror.Relay.DeliveryStore
import SevenMirror.Lib.Log

/-! A queue represents a log: its numbers are the positions of everything ever appended, its two
marks are those of the log, and its rows are the retained entries with their original envelopes.
Each statement of the store moves the queue as an operation of the log does. -/

namespace SevenMirror.Relay

open Lib

/-- The primary key: two rows of one number are one row. -/
theorem Queue.row_unique (q : Queue) {d e : Delivery} (hd : d ∈ q.rows) (he : e ∈ q.rows)
    (h : d.id = e.id) : d = e := by
  have hpair := q.ordered
  generalize q.rows = rows at hd he hpair
  induction rows with
  | nil => simp at hd
  | cons first rest ih =>
    obtain ⟨hfirst, hrest⟩ := List.pairwise_cons.mp hpair
    rcases List.mem_cons.mp hd with hd' | hd' <;> rcases List.mem_cons.mp he with he' | he'
    · rw [hd', he']
    · have := hfirst e he'
      rw [hd'] at h
      omega
    · have := hfirst d hd'
      rw [he'] at h
      omega
    · exact ih hd' he' hrest

/-- Eviction removes the rows numbered at most `through`, and moves the mark of losses there. -/
theorem evict_eq {rows : List Delivery} (hrows : rows.Pairwise fun a b => a.id < b.id)
    (hpos : ∀ d ∈ rows, 0 < d.id) (unavailable : Nat) :
    ∃ through, (through = 0 ∨ ∃ d ∈ rows, d.id = through) ∧
      evict rows unavailable = (rows.filter (through < ·.id), max unavailable through) := by
  induction rows generalizing unavailable with
  | nil => exact ⟨0, Or.inl rfl, by simp [evict]⟩
  | cons oldest rest ih =>
    obtain ⟨hold, hrest⟩ := List.pairwise_cons.mp hrows
    rw [evict]
    split
    · refine ⟨0, Or.inl rfl, ?_⟩
      rw [List.filter_eq_self.mpr fun d hd => by simpa using hpos d hd, Nat.max_zero]
    · obtain ⟨through, hthrough, heq⟩ :=
        ih hrest (fun d hd => hpos d (List.mem_cons_of_mem _ hd)) (max unavailable oldest.id)
      refine ⟨max oldest.id through, Or.inr ?_, ?_⟩
      · rcases hthrough with rfl | ⟨d, hd, rfl⟩
        · exact ⟨oldest, List.mem_cons_self, by simp⟩
        · have := hold d hd
          exact ⟨d, List.mem_cons_of_mem _ hd, by omega⟩
      · rw [heq, List.filter_cons_of_neg (by simp), ← Nat.max_assoc]
        congr 1
        refine List.filter_congr fun d hd => ?_
        have := hold d hd
        simp only [decide_eq_decide]
        omega

/-- The queue `q` holds the log `l` of envelopes. -/
structure Queue.Represents (q : Queue) (l : Log Bytes) : Prop where
  next : q.next = l.written.length + 1
  acknowledged : q.acknowledged = l.acked
  unavailable : q.unavailable = l.lost
  retained : ∀ n, n ∈ l.retained ↔ ∃ d ∈ q.rows, d.id = n
  written : ∀ d ∈ q.rows, l.written[d.id - 1]? = some d.envelope

namespace Queue.Represents

variable {q : Queue} {l : Log Bytes}

theorem fresh : Queue.fresh.Represents Log.empty where
  next := rfl
  acknowledged := rfl
  unavailable := rfl
  retained := by simp [Log.empty, Queue.fresh]
  written := by simp [Queue.fresh]

/-- A stored number lies between the acknowledged mark and the next number. -/
theorem bounds (h : q.Represents l) {d : Delivery} (hd : d ∈ q.rows) :
    l.acked < d.id ∧ d.id ≤ l.written.length :=
  l.bounds d.id ((h.retained d.id).mpr ⟨d, hd, rfl⟩)

/-- Dropping rows numbered at most `through`, with the mark of losses moved there. -/
theorem drop (h : q.Represents l) (keep : Delivery → Bool) {through : Nat}
    (hgone : ∀ d ∈ q.rows, keep d = false → d.id ≤ through) (hthrough : through < q.next) :
    ∃ l', (markUnavailableThrough (q.retain keep) through).Represents l' ∧
      l'.written = l.written ∧ l'.acked = l.acked := by
  let gone : Set ℕ := {n | ∃ d ∈ q.rows, keep d = false ∧ d.id = n}
  have hgone' : ∀ n ∈ gone, n ≤ through := by
    rintro n ⟨d, hd, hk, rfl⟩
    exact hgone d hd hk
  have hle : through ≤ l.written.length := by
    have := h.next
    omega
  refine ⟨l.drop gone through hgone' hle, ⟨h.next, h.acknowledged, ?_, ?_, ?_⟩, rfl, rfl⟩
  · simp [markUnavailableThrough, Queue.retain, Log.drop, h.unavailable]
  · intro n
    constructor
    · rintro ⟨hn, hng⟩
      obtain ⟨d, hd, rfl⟩ := (h.retained n).mp hn
      have hk : keep d = true := by
        by_contra hk
        exact hng ⟨d, hd, by simpa using hk, rfl⟩
      exact ⟨d, List.mem_filter.mpr ⟨hd, hk⟩, rfl⟩
    · rintro ⟨d, hd, rfl⟩
      obtain ⟨hd, hk⟩ := List.mem_filter.mp hd
      refine ⟨(h.retained d.id).mpr ⟨d, hd, rfl⟩, ?_⟩
      rintro ⟨e, he, hke, heq⟩
      rw [q.row_unique he hd heq, hk] at hke
      exact Bool.noConfusion hke
  · intro d hd
    exact h.written d (List.mem_filter.mp hd).1

theorem ack (h : q.Represents l) {cursor : Nat} (hc : cursor < q.next) :
    ∃ l', (acknowledgeThrough q cursor).Represents l' ∧ l'.written = l.written ∧
      l'.acked = max l.acked cursor ∧ l'.lost = l.lost := by
  have hle : cursor ≤ l.written.length := by
    have := h.next
    omega
  refine ⟨l.ack cursor hle, ⟨h.next, ?_, h.unavailable, ?_, ?_⟩, rfl, rfl, rfl⟩
  · simp [acknowledgeThrough, Log.ack, h.acknowledged]
  · intro n
    constructor
    · rintro ⟨hn, hcn⟩
      obtain ⟨d, hd, rfl⟩ := (h.retained n).mp hn
      exact ⟨d, List.mem_filter.mpr ⟨hd, by simpa using hcn⟩, rfl⟩
    · rintro ⟨d, hd, rfl⟩
      obtain ⟨hd, hk⟩ := List.mem_filter.mp hd
      exact ⟨(h.retained d.id).mpr ⟨d, hd, rfl⟩, by simpa using hk⟩
  · intro d hd
    exact h.written d (List.mem_filter.mp hd).1

theorem push (h : q.Represents l) {d : Delivery} (hid : d.id = q.next)
    (hd : ∀ e ∈ q.rows, e.id ≠ d.id) :
    ({ q.insert d hd with next := q.next + 1 } : Queue).Represents (l.push d.envelope) where
  next := by simp [Log.push, h.next]
  acknowledged := h.acknowledged
  unavailable := h.unavailable
  retained := by
    intro n
    have hnext := h.next
    constructor
    · rintro (rfl | hn)
      · exact ⟨d, (List.mem_orderedInsert _).mpr (Or.inl rfl), by omega⟩
      · obtain ⟨e, he, rfl⟩ := (h.retained n).mp hn
        exact ⟨e, (List.mem_orderedInsert _).mpr (Or.inr he), rfl⟩
    · rintro ⟨e, he, rfl⟩
      rcases (List.mem_orderedInsert _).mp he with rfl | he
      · exact Or.inl (by omega)
      · exact Or.inr ((h.retained e.id).mpr ⟨e, he, rfl⟩)
  written := by
    intro e he
    have hnext := h.next
    rcases (List.mem_orderedInsert _).mp he with rfl | he
    · simp [Log.push, hid, hnext]
    · have hb := h.bounds he
      rw [Log.push, List.getElem?_append_left (by omega)]
      exact h.written e he

/-- Expired rows go, and the mark of losses moves to the greatest of them. -/
theorem compact (h : q.Represents l) (nowUnixMs : Int) :
    ∃ l', (compactExpiredDeliveries q nowUnixMs).Represents l' ∧ l'.written = l.written ∧
      l'.acked = l.acked := by
  unfold compactExpiredDeliveries
  split
  · exact ⟨l, h, rfl, rfl⟩
  · rename_i through hmax
    obtain ⟨hmem, hle⟩ := List.max?_eq_some_iff.mp hmax
    obtain ⟨d, hd, rfl⟩ := List.mem_map.mp hmem
    have hb := h.bounds (List.mem_filter.mp hd).1
    have hnext := h.next
    refine h.drop _ (fun e he hk => ?_) (by omega)
    refine hle e.id (List.mem_map.mpr ⟨e, List.mem_filter.mpr ⟨he, ?_⟩, rfl⟩)
    simpa using hk

/-- Evicted rows go, and the mark of losses moves to the last of them. -/
theorem enforce (h : q.Represents l) :
    ∃ l', (enforceDeliveryCapacity q).Represents l' ∧ l'.written = l.written ∧
      l'.acked = l.acked := by
  obtain ⟨through, hthrough, heq⟩ := evict_eq q.ordered
    (fun d hd => Nat.zero_lt_of_lt (h.bounds hd).1) q.unavailable
  have hq : enforceDeliveryCapacity q =
      markUnavailableThrough (q.retain (through < ·.id)) through := by
    simp [enforceDeliveryCapacity, markUnavailableThrough, Queue.retain, heq]
  rw [hq]
  refine h.drop _ (fun d _ hk => by simpa using hk) ?_
  have hnext := h.next
  rcases hthrough with rfl | ⟨d, hd, rfl⟩
  · omega
  · have := h.bounds hd
    omega

/-- What `select` returns is stored, past `after`, in order, and unchanged. -/
theorem mem_select (h : q.Represents l) {after limit : Nat} {d : StoredDelivery}
    (hd : d ∈ q.select after limit) :
    after < d.id ∧ d.id ≤ l.written.length ∧ l.written[d.id - 1]? = some d.envelope := by
  obtain ⟨e, he, rfl⟩ := List.mem_map.mp hd
  obtain ⟨he, hafter⟩ := List.mem_filter.mp (List.mem_of_mem_take he)
  exact ⟨by simpa using hafter, (h.bounds he).2, h.written e he⟩

end Queue.Represents

theorem Queue.select_ids (q : Queue) (after limit : Nat) :
    (q.select after limit).map (·.id) = ((q.rows.filter (after < ·.id)).map (·.id)).take limit := by
  simp [Queue.select, List.map_take, Function.comp_def]

theorem Queue.ids_ordered (q : Queue) (after : Nat) :
    ((q.rows.filter (after < ·.id)).map (·.id)).Pairwise (· < ·) :=
  List.pairwise_map.mpr (q.ordered.filter _)

theorem Queue.select_ordered (q : Queue) (after limit : Nat) :
    ((q.select after limit).map (·.id)).Pairwise (· < ·) := by
  rw [q.select_ids]
  exact (q.ids_ordered after).sublist (List.take_sublist _ _)

/-- The mark up to which `select` has looked: the last number returned when it returned `limit` of
them, and the high-water otherwise. -/
def scanned (deliveries : List StoredDelivery) (limit highWater : Nat) : Nat :=
  if deliveries.length < limit then highWater
  else ((deliveries.map (·.id)).getLast?).getD highWater

/-- A prefix of an ordered list holds every member up to its last element. -/
theorem mem_take_of_le {ids : List Nat} (hids : ids.Pairwise (· < ·)) {k n last : Nat}
    (hn : n ∈ ids) (hlast : (ids.take k).getLast? = some last) (hle : n ≤ last) :
    n ∈ ids.take k := by
  rw [← List.take_append_drop k ids] at hn
  rcases List.mem_append.mp hn with hn | hn
  · exact hn
  · rw [← List.take_append_drop k ids] at hids
    have := (List.pairwise_append.mp hids).2.2 last (List.mem_of_getLast? hlast) n hn
    omega

namespace Queue.Represents

variable {q : Queue} {l : Log Bytes}

/-- Every retained number that `select` looked past is among those it returns. -/
theorem select_complete (h : q.Represents l) {after limit n : Nat} (hlimit : 0 < limit)
    (hn : n ∈ l.retained) (hafter : after < n)
    (hscanned : n ≤ scanned (q.select after limit) limit l.written.length) :
    n ∈ (q.select after limit).map (·.id) := by
  obtain ⟨d, hd, rfl⟩ := (h.retained n).mp hn
  have hmem : d.id ∈ (q.rows.filter (after < ·.id)).map (·.id) :=
    List.mem_map.mpr ⟨d, List.mem_filter.mpr ⟨hd, by simpa using hafter⟩, rfl⟩
  have hlen : (q.select after limit).length =
      min limit ((q.rows.filter (after < ·.id)).map (·.id)).length := by
    simp [Queue.select]
  unfold scanned at hscanned
  rw [q.select_ids] at hscanned ⊢
  split at hscanned
  · rw [List.take_of_length_le (by omega)]
    exact hmem
  · cases hlast : (((q.rows.filter (after < ·.id)).map (·.id)).take limit).getLast? with
    | none =>
      rw [List.getLast?_eq_none_iff] at hlast
      have := congrArg List.length hlast
      simp only [List.length_take, List.length_nil] at this
      have := List.length_pos_of_mem hmem
      omega
    | some last =>
      rw [hlast] at hscanned
      exact mem_take_of_le (q.ids_ordered after) hmem hlast (by simpa using hscanned)

theorem scanned_le (h : q.Represents l) {after limit : Nat} :
    scanned (q.select after limit) limit l.written.length ≤ l.written.length := by
  unfold scanned
  split
  · exact Nat.le_refl _
  · cases hlast : ((q.select after limit).map (·.id)).getLast? with
    | none => simp
    | some last =>
      obtain ⟨d, hd, rfl⟩ := List.mem_map.mp (List.mem_of_getLast? hlast)
      exact (h.mem_select hd).2.1

/-- Every number returned is within the mark. -/
theorem le_scanned (h : q.Represents l) {after limit : Nat} {d : StoredDelivery}
    (hd : d ∈ q.select after limit) :
    d.id ≤ scanned (q.select after limit) limit l.written.length := by
  unfold scanned
  split
  · exact (h.mem_select hd).2.1
  · have hmem : d.id ∈ (q.select after limit).map (·.id) := List.mem_map_of_mem hd
    have hordered := q.select_ordered after limit
    obtain ⟨init, last, heq⟩ :=
      (List.eq_nil_or_concat' _).resolve_left (List.ne_nil_of_mem hmem)
    rw [heq] at hmem hordered ⊢
    simp only [List.getLast?_append, List.getLast?_singleton, Option.some_or, Option.getD_some]
    rcases List.mem_append.mp hmem with hmem | hmem
    · exact Nat.le_of_lt ((List.pairwise_append.mp hordered).2.2 _ hmem _ (by simp))
    · exact Nat.le_of_eq (List.mem_singleton.mp hmem)

/-- Past both marks `select` returns consecutive numbers. -/
theorem select_range (h : q.Represents l) {c : Nat} (limit : Nat) (hack : l.acked ≤ c)
    (hlost : l.lost ≤ c) :
    (q.select c limit).map (·.id) = List.range' (c + 1) (min limit (l.written.length - c)) := by
  have hall : (q.rows.filter (c < ·.id)).map (·.id) =
      List.range' (c + 1) (l.written.length - c) := by
    refine List.Pairwise.eq_of_mem_iff (q.ids_ordered c) List.pairwise_lt_range' fun n => ?_
    rw [List.mem_range'_1]
    constructor
    · intro hn
      obtain ⟨d, hd, rfl⟩ := List.mem_map.mp hn
      obtain ⟨hd, hc⟩ := List.mem_filter.mp hd
      have := h.bounds hd
      simp only [decide_eq_true_eq] at hc
      omega
    · rintro ⟨hlow, hhigh⟩
      obtain ⟨d, hd, rfl⟩ := (h.retained n).mp ((l.retained_iff hack hlost hlow).mpr (by omega))
      exact List.mem_map.mpr ⟨d, List.mem_filter.mpr ⟨hd, by simpa using Nat.lt_of_succ_le hlow⟩, rfl⟩
  rw [q.select_ids, hall]
  rcases Nat.le_total limit (l.written.length - c) with hle | hle
  · rw [List.take_range'_of_length_ge hle, Nat.min_eq_left hle]
  · rw [List.take_range'_of_length_le hle, Nat.min_eq_right hle]

end Queue.Represents

end SevenMirror.Relay
