import SevenMirror.Protocol.EnvelopeFrame
import SevenMirror.Relay.DeliveryRun

/-! The eviction loop of `enforceDeliveryCapacity`.  It measures and removes one row at a time, ends
with the queue that the definition gives, and removes no more rows than the two bounds ask for. -/

namespace SevenMirror.Relay

open Lib Protocol

/-- The two bounds of a queue. -/
def WithinCapacity (rows : List Delivery) : Prop :=
  rows.length ≤ maxQueuedDeliveriesPerRecipient ∧
    totalBytes rows ≤ maxQueuedDeliveryBytesPerRecipient

instance (rows : List Delivery) : Decidable (WithinCapacity rows) :=
  inferInstanceAs (Decidable (_ ∧ _))

/-- Why the loop has no queue to return: it has not ended, or there is no row to evict. -/
inductive LoopEnd
  | running
  | noOldest
deriving DecidableEq, Repr

/-- At most `fuel` passes of the loop, each with its three statements. -/
def capacityLoop : Nat → Queue → Except LoopEnd Queue
  | 0, _ => .error .running
  | fuel + 1, q =>
    if WithinCapacity q.rows then .ok q
    else
      match q.rows.head? with
      | none => .error .noOldest
      | some oldest =>
        capacityLoop fuel (markUnavailableThrough (q.retain (·.id ≠ oldest.id)) oldest.id)

/-- The primary key is that of the first row only. -/
theorem filter_ne_head {oldest : Delivery} {rest : List Delivery}
    (h : (oldest :: rest).Pairwise fun a b => a.id < b.id) :
    (oldest :: rest).filter (·.id ≠ oldest.id) = rest := by
  obtain ⟨hoverall, -⟩ := List.pairwise_cons.mp h
  rw [List.filter_cons_of_neg (by simp), List.filter_eq_self]
  intro d hd
  have hlt := hoverall d hd
  simp only [ne_eq, decide_not, Bool.not_eq_true', decide_eq_false_iff_not]
  omega

theorem evict_within {rows : List Delivery} (h : WithinCapacity rows) (unavailable : Nat) :
    evict rows unavailable = (rows, unavailable) := by
  cases rows with
  | nil => rfl
  | cons oldest rest => exact if_pos h

theorem evict_cons {oldest : Delivery} {rest : List Delivery} (h : ¬ WithinCapacity (oldest :: rest))
    (unavailable : Nat) :
    evict (oldest :: rest) unavailable = evict rest (max unavailable oldest.id) := if_neg h

/-- A loop with a pass for each row, and one more, ends. -/
theorem capacityLoop_eq {fuel : Nat} {q : Queue} (h : q.rows.length < fuel) :
    capacityLoop fuel q = .ok (enforceDeliveryCapacity q) := by
  induction fuel generalizing q with
  | zero => omega
  | succ fuel ih =>
    rw [capacityLoop]
    split
    · rename_i hwithin
      have hevict := evict_within hwithin q.unavailable
      exact congrArg Except.ok (Queue.ext rfl rfl (congrArg Prod.snd hevict).symm
        (congrArg Prod.fst hevict).symm)
    · rename_i hwithin
      have hordered := q.ordered
      cases hrows : q.rows with
      | nil =>
        rw [hrows] at hwithin
        exact absurd hwithin (by decide)
      | cons oldest rest =>
        rw [hrows] at h hordered hwithin
        -- one pass takes the oldest row, as the definition does
        let passed := markUnavailableThrough (q.retain (·.id ≠ oldest.id)) oldest.id
        have hrest : passed.rows = rest := by
          change q.rows.filter (·.id ≠ oldest.id) = rest
          rw [hrows, filter_ne_head hordered]
        have hevict : evict passed.rows passed.unavailable = evict q.rows q.unavailable := by
          rw [hrest, hrows, evict_cons hwithin]
          rfl
        have hpassed : enforceDeliveryCapacity passed = enforceDeliveryCapacity q :=
          Queue.ext rfl rfl (congrArg Prod.snd hevict) (congrArg Prod.fst hevict)
        rw [List.head?_cons, ← hpassed]
        exact ih (by rw [hrest]; exact Nat.lt_of_succ_lt_succ h)

/-- The greatest number of rows that stand in order. -/
def lastID (rows : List Delivery) : Nat := ((rows.getLast?).map (·.id)).getD 0

theorem lastID_cons {oldest : Delivery} {rows : List Delivery}
    (h : ∀ d ∈ rows, oldest.id < d.id) : lastID (oldest :: rows) = max oldest.id (lastID rows) := by
  unfold lastID
  rw [List.getLast?_cons]
  cases hlast : rows.getLast? with
  | none => simp
  | some last =>
    have hlt := h last (List.mem_of_getLast? hlast)
    simp only [Option.getD_some, Option.map_some]
    omega

/-- The loop removes the shortest run of oldest rows whose removal meets both bounds. -/
theorem evict_drop {rows : List Delivery} (hrows : rows.Pairwise fun a b => a.id < b.id)
    (unavailable : Nat) :
    ∃ k, WithinCapacity (rows.drop k) ∧ (∀ j, j < k → ¬ WithinCapacity (rows.drop j)) ∧
      evict rows unavailable = (rows.drop k, max unavailable (lastID (rows.take k))) := by
  induction rows generalizing unavailable with
  | nil =>
    refine ⟨0, by decide, fun j hj => by omega, ?_⟩
    simp [evict, lastID]
  | cons oldest rest ih =>
    obtain ⟨hoverall, hrest⟩ := List.pairwise_cons.mp hrows
    by_cases hwithin : WithinCapacity (oldest :: rest)
    · refine ⟨0, hwithin, fun j hj => by omega, ?_⟩
      rw [evict_within hwithin]
      simp [lastID]
    · rw [evict_cons hwithin]
      obtain ⟨k, hk, hshortest, heq⟩ := ih hrest (max unavailable oldest.id)
      refine ⟨k + 1, hk, fun j hj => ?_, ?_⟩
      · cases j with
        | zero => exact hwithin
        | succ j => exact hshortest j (Nat.lt_of_succ_lt_succ hj)
      · rw [heq, List.drop_succ_cons, List.take_succ_cons,
          lastID_cons fun d hd => hoverall d (List.mem_of_mem_take hd), Nat.max_assoc]

/-- A row of one frame alone meets both bounds. -/
theorem withinCapacity_singleton {d : Delivery}
    (h : d.envelope.length ≤ EnvelopeFrame.maxFrameSize) : WithinCapacity [d] := by
  have hone : 1 ≤ maxQueuedDeliveriesPerRecipient := by decide
  refine ⟨hone, ?_⟩
  have hsize : EnvelopeFrame.maxFrameSize ≤ maxQueuedDeliveryBytesPerRecipient := by decide
  simp only [totalBytes, List.foldl_cons, List.foldl_nil, Nat.zero_add]
  exact Nat.le_trans h hsize

/-- The next number stands after every row. -/
theorem orderedInsert_last {rows : List Delivery} {d : Delivery} (h : ∀ e ∈ rows, e.id < d.id) :
    rows.orderedInsert (fun a b => a.id ≤ b.id) d = rows ++ [d] := by
  induction rows with
  | nil => rfl
  | cons e rest ih =>
    have hlt := h e List.mem_cons_self
    rw [List.orderedInsert_cons, if_neg (Nat.not_le.mpr hlt),
      ih fun x hx => h x (List.mem_cons_of_mem _ hx), List.cons_append]

/-- After any run, an append of a frame: the eviction loop ends, both bounds hold, the rows that went
are the shortest run of oldest rows whose removal meets them, the appended row is stored, and the
mark of losses moves to the last row that went. -/
theorem capacity_exact (calls : List Call) (r : PeerIdentity) (envelope : Bytes)
    (expiresAt now : Time) (id : Nat) (s' : DeliveryStore)
    (hsize : envelope.length ≤ EnvelopeFrame.maxFrameSize)
    (happend : appendDelivery (store.run .empty calls) r envelope expiresAt now = .ok (id, s')) :
    ∃ initial stored q k,
      ensureDeliveryState (store.run .empty calls) r = .ok initial ∧
      stored.rows = (compactExpiredDeliveries initial now.unixMilli).rows ++
        [⟨id, envelope, expiresAt.unixMilli, now.unixMilli⟩] ∧
      stored.unavailable = (compactExpiredDeliveries initial now.unixMilli).unavailable ∧
      (∀ fuel, stored.rows.length < fuel → capacityLoop fuel stored = .ok q) ∧
      s' = (store.run .empty calls).put r q ∧ WithinCapacity q.rows ∧
      q.rows = stored.rows.drop k ∧ (∀ j, j < k → ¬ WithinCapacity (stored.rows.drop j)) ∧
      ⟨id, envelope, expiresAt.unixMilli, now.unixMilli⟩ ∈ q.rows ∧
      q.unavailable = max stored.unavailable (lastID (stored.rows.take k)) := by
  obtain ⟨l, hl, -⟩ := run_tracks calls r
  simp only [appendDelivery, bind_eq_ok, exists_unit, reject_eq_ok] at happend
  obtain ⟨-, initial, hinitial, -, happend⟩ := happend
  obtain ⟨lc, hcompact, -⟩ := (ensureDeliveryState_ok hinitial hl).compact now.unixMilli
  split at happend
  · rename_i hfresh
    simp only [pure_eq_ok, Prod.mk.injEq] at happend
    obtain ⟨rfl, rfl⟩ := happend
    let compacted := compactExpiredDeliveries initial now.unixMilli
    have hbelow : ∀ e ∈ compacted.rows, e.id < compacted.next := by
      intro e he
      have hbounds := (hcompact.bounds he).2
      exact Nat.lt_of_le_of_lt hbounds (by rw [hcompact.next]; exact Nat.lt_succ_self _)
    let d : Delivery := ⟨compacted.next, envelope, expiresAt.unixMilli, now.unixMilli⟩
    let stored : Queue := { compacted.insert d hfresh with next := compacted.next + 1 }
    have hrows : stored.rows = compacted.rows ++ [d] := orderedInsert_last hbelow
    obtain ⟨k, hwithin, hshortest, hevict⟩ := evict_drop stored.ordered stored.unavailable
    -- the last row alone meets the bounds, so the loop stops before it
    have hk : k ≤ compacted.rows.length := by
      by_contra hlt
      refine hshortest compacted.rows.length (Nat.not_le.mp hlt) ?_
      rw [hrows, List.drop_left]
      exact withinCapacity_singleton hsize
    have hevicted : (enforceDeliveryCapacity stored).rows = stored.rows.drop k :=
      congrArg Prod.fst hevict
    refine ⟨initial, stored, enforceDeliveryCapacity stored, k, hinitial, hrows, rfl,
      fun fuel => capacityLoop_eq, rfl, hevicted ▸ hwithin, hevicted, hshortest, ?_,
      congrArg Prod.snd hevict⟩
    rw [hevicted, hrows, List.drop_append_of_le_length hk]
    exact List.mem_append_right _ (List.mem_singleton.mpr rfl)
  · simp only [throw_eq_ok] at happend

theorem capacity_exact_first : ∃ id s' q,
    appendDelivery (store.run .empty [.register sampleDevice]) sampleDevice [7] ⟨2000000⟩ ⟨1⟩ =
      .ok (id, s') ∧
    s'.queues sampleDevice = some q ∧ WithinCapacity q.rows ∧ ⟨id, [7], 2, 0⟩ ∈ q.rows := by
  have hok : (appendDelivery (store.run .empty [.register sampleDevice]) sampleDevice [7] ⟨2000000⟩
      ⟨1⟩).isOk = true := by decide
  obtain ⟨⟨id, s'⟩, happend⟩ := isOk_iff.mp hok
  obtain ⟨initial, stored, q, k, -, -, -, -, rfl, hwithin, -, -, hmem, -⟩ :=
    capacity_exact [.register sampleDevice] sampleDevice [7] ⟨2000000⟩ ⟨1⟩ id s' (by decide) happend
  exact ⟨id, _, q, happend, DeliveryStore.put_queues_self _ _ _, hwithin, hmem⟩

end SevenMirror.Relay
