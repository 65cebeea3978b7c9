import SevenMirror.Relay.DeliveryLog
import SevenMirror.Lib.Machine

/-! Runs of the delivery store.  After any calls, with any clock, each recipient's queue represents
the log of what was appended for that recipient, and so what a resume or a read returns leaves no
silent gap. -/

namespace SevenMirror.Relay

open Lib

/-- The queue of `r` represents `l`; a recipient without rows has the empty log. -/
def DeliveryStore.Holds (s : DeliveryStore) (r : PeerIdentity) (l : Log Bytes) : Prop :=
  match s.queues r with
  | some q => q.Represents l
  | none => l = Log.empty

@[simp] theorem DeliveryStore.put_queues_self (s : DeliveryStore) (r : PeerIdentity) (q : Queue) :
    (s.put r q).queues r = some q := by
  simp [DeliveryStore.put]

theorem DeliveryStore.put_queues_ne (s : DeliveryStore) {r r' : PeerIdentity} (q : Queue)
    (h : r' ≠ r) : (s.put r q).queues r' = s.queues r' := by
  simp [DeliveryStore.put, h]

theorem DeliveryStore.holds_put {s : DeliveryStore} {r : PeerIdentity} {q : Queue} {l : Log Bytes}
    (h : q.Represents l) : (s.put r q).Holds r l := by
  simpa [DeliveryStore.Holds] using h

theorem ensureDeliveryState_ok {s : DeliveryStore} {r : PeerIdentity} {q : Queue} {l : Log Bytes}
    (h : ensureDeliveryState s r = .ok q) (hl : s.Holds r l) : q.Represents l := by
  unfold ensureDeliveryState at h
  unfold DeliveryStore.Holds at hl
  split at h
  · rename_i q' hq
    rw [hq] at hl
    cases h
    exact hl
  · rename_i hq
    rw [hq] at hl
    split at h
    · cases h
      subst hl
      exact Queue.Represents.fresh
    · cases h

/-- What a committed append does: the envelope takes the next number. -/
theorem appendDelivery_ok {s s' : DeliveryStore} {r : PeerIdentity} {envelope : Bytes}
    {expiresAt now : Time} {id : Nat} {l : Log Bytes} (hl : s.Holds r l)
    (h : appendDelivery s r envelope expiresAt now = .ok (id, s')) :
    ∃ q l', s' = s.put r q ∧ q.Represents l' ∧ id = l.written.length + 1 ∧
      l'.written = l.written ++ [envelope] ∧ l'.acked = l.acked := by
  simp only [appendDelivery, bind_eq_ok, reject_eq_ok] at h
  obtain ⟨-, -, initial, hq, -, -, h⟩ := h
  obtain ⟨lc, hc, hcw, hca⟩ := (ensureDeliveryState_ok hq hl).compact now.unixMilli
  split at h
  · rename_i hd
    cases h
    obtain ⟨le, he, hew, hea⟩ := (hc.push (d := ⟨_, envelope, _, _⟩) rfl hd).enforce
    refine ⟨_, le, rfl, he, ?_, ?_, ?_⟩
    · rw [hc.next, hcw]
    · rw [hew, Log.push_written, hcw]
    · rw [hea, Log.push_acked, hca]
  · cases h

/-- The acknowledged mark after a cursor that is below the next number. -/
theorem Queue.Represents.ackIfPast {q : Queue} {l : Log Bytes} (h : q.Represents l) (cursor : Nat)
    (hc : cursor < q.next) :
    ∃ l', (if cursor > q.acknowledged then acknowledgeThrough q cursor else q).Represents l' ∧
      l'.written = l.written ∧ l'.acked = max l.acked cursor ∧ l'.lost = l.lost := by
  split
  · exact h.ack hc
  · have := h.acknowledged
    exact ⟨l, h, rfl, by omega, rfl⟩

/-- What a committed resume does: it reports a reset, or acknowledges through the cursor and
returns what the queue holds past it. -/
theorem resumeDeliveries_ok {s s' : DeliveryStore} {r : PeerIdentity} {cursor : Nat} {now : Time}
    {limit : Int} {batch : DeliveryBatch} {l : Log Bytes} (hl : s.Holds r l)
    (h : resumeDeliveries s r cursor now limit = .ok (batch, s')) :
    ∃ q l', s' = s.put r q ∧ q.Represents l' ∧ l'.written = l.written ∧
      batch.highWater = l.written.length ∧ cursor ≤ l.written.length ∧ 0 < limit.toNat ∧
      (batch.resetRequired = true ∧ batch.deliveries = [] ∧ l'.acked = l.acked ∨
        batch.resetRequired = false ∧ batch.deliveries = q.select cursor limit.toNat ∧
          l'.acked = cursor ∧ l'.lost ≤ cursor ∧ l.acked ≤ cursor) := by
  simp only [resumeDeliveries, bind_eq_ok, reject_eq_ok] at h
  obtain ⟨-, harg, initial, hq, -, hahead, h⟩ := h
  obtain ⟨lc, hc, hcw, hca⟩ := (ensureDeliveryState_ok hq hl).compact now.unixMilli
  have hnext := hc.next
  rw [hcw] at hnext
  have hlimit : 0 < limit.toNat := by omega
  split at h
  · cases h
    exact ⟨_, lc, rfl, hc, hcw, by simp [hnext], by omega, hlimit, Or.inl ⟨rfl, rfl, hca⟩⟩
  · rename_i hfloor
    cases h
    obtain ⟨la, ha, haw, haa, hal⟩ := hc.ackIfPast cursor (by omega)
    have hack := hc.acknowledged
    have hlost := hc.unavailable
    refine ⟨_, la, rfl, ha, haw.trans hcw, by simp [hnext], by omega, hlimit, Or.inr ?_⟩
    exact ⟨rfl, rfl, by omega, by omega, by omega⟩

/-- What a committed read does: it reports a reset, or returns what the queue holds past
`after`. -/
theorem readDeliveries_ok {s s' : DeliveryStore} {r : PeerIdentity} {after : Nat} {now : Time}
    {limit : Int} {batch : DeliveryBatch} {l : Log Bytes} (hl : s.Holds r l)
    (h : readDeliveries s r after now limit = .ok (batch, s')) :
    ∃ q l', s' = s.put r q ∧ q.Represents l' ∧ l'.written = l.written ∧ l'.acked = l.acked ∧
      batch.highWater = l.written.length ∧ 0 < limit.toNat ∧
      (batch.resetRequired = true ∧ batch.deliveries = [] ∨
        batch.resetRequired = false ∧ batch.deliveries = q.select after limit.toNat ∧
          l'.lost ≤ after) := by
  simp only [readDeliveries, bind_eq_ok, reject_eq_ok] at h
  obtain ⟨-, harg, h⟩ := h
  unfold DeliveryStore.Holds at hl
  split at h
  · simp at h
  · rename_i initial hq
    rw [hq] at hl
    obtain ⟨lc, hc, hcw, hca⟩ := Queue.Represents.compact hl now.unixMilli
    have hnext := hc.next
    rw [hcw] at hnext
    have hlimit : 0 < limit.toNat := by omega
    split at h
    · cases h
      exact ⟨_, lc, rfl, hc, hcw, hca, by simp [hnext], hlimit, Or.inl ⟨rfl, rfl⟩⟩
    · rename_i hafter
      cases h
      have hlost := hc.unavailable
      exact ⟨_, lc, rfl, hc, hcw, hca, by simp [hnext], hlimit, Or.inr ⟨rfl, rfl, by omega⟩⟩

theorem acknowledgeDelivery_ok {s s' : DeliveryStore} {r : PeerIdentity} {cursor : Nat}
    {l : Log Bytes} (hl : s.Holds r l) (h : acknowledgeDelivery s r cursor = .ok s') :
    ∃ q l', s' = s.put r q ∧ q.Represents l' ∧ l'.written = l.written ∧
      l'.acked = max l.acked cursor ∧ cursor ≤ l.written.length := by
  simp only [acknowledgeDelivery, bind_eq_ok, reject_eq_ok] at h
  obtain ⟨-, -, q, hq, -, hahead, h⟩ := h
  have hrep := ensureDeliveryState_ok hq hl
  have hnext := hrep.next
  obtain ⟨la, ha, haw, haa, -⟩ := hrep.ackIfPast cursor (by omega)
  cases h
  exact ⟨_, la, rfl, ha, haw, haa, by omega⟩

/-! ### Runs -/

/-- A call of the store, or the registration of a device. -/
inductive Call
  | register (device : PeerIdentity)
  | append (recipient : PeerIdentity) (envelope : Bytes) (expiresAt now : Time)
  | resume (recipient : PeerIdentity) (cursor : Nat) (now : Time) (limit : Int)
  | read (recipient : PeerIdentity) (after : Nat) (now : Time) (limit : Int)
  | acknowledge (recipient : PeerIdentity) (cursor : Nat)
deriving DecidableEq

inductive Answer
  | registered
  | appended (id : Nat)
  | batch (batch : DeliveryBatch)
  | acknowledged
  | failed (error : DeliveryError)
deriving DecidableEq

/-- A failed call leaves the store as it was. -/
def perform (s : DeliveryStore) : Call → DeliveryStore × Answer
  | .register device => ({ s with devices := device :: s.devices }, .registered)
  | .append recipient envelope expiresAt now =>
    match appendDelivery s recipient envelope expiresAt now with
    | .ok (id, s') => (s', .appended id)
    | .error e => (s, .failed e)
  | .resume recipient cursor now limit =>
    match resumeDeliveries s recipient cursor now limit with
    | .ok (batch, s') => (s', .batch batch)
    | .error e => (s, .failed e)
  | .read recipient after now limit =>
    match readDeliveries s recipient after now limit with
    | .ok (batch, s') => (s', .batch batch)
    | .error e => (s, .failed e)
  | .acknowledge recipient cursor =>
    match acknowledgeDelivery s recipient cursor with
    | .ok s' => (s', .acknowledged)
    | .error e => (s, .failed e)

def store : Machine DeliveryStore Call Answer := ⟨perform⟩

/-- The recipient whose queue a call reads and writes. -/
def Call.recipient : Call → Option PeerIdentity
  | register _ => none
  | append recipient _ _ _ | resume recipient _ _ _ | read recipient _ _ _
  | acknowledge recipient _ => some recipient

/-- A call leaves the queues of every other recipient. -/
theorem perform_queues_ne {s : DeliveryStore} {call : Call} {r : PeerIdentity}
    (h : call.recipient ≠ some r) : (perform s call).1.queues r = s.queues r := by
  have hput : ∀ {recipient : PeerIdentity} (q : Queue), some recipient ≠ some r →
      (s.put recipient q).queues r = s.queues r := fun q hr =>
    s.put_queues_ne q fun heq => hr (congrArg some heq.symm)
  cases call with
  | register device => rfl
  | append recipient envelope expiresAt now =>
    simp only [perform]
    cases hcall : appendDelivery s recipient envelope expiresAt now with
    | error e => rfl
    | ok result =>
      simp only [appendDelivery, bind_eq_ok] at hcall
      obtain ⟨-, -, initial, -, -, -, hcall⟩ := hcall
      split at hcall
      · cases hcall
        exact hput _ h
      · cases hcall
  | resume recipient cursor now limit =>
    simp only [perform]
    cases hcall : resumeDeliveries s recipient cursor now limit with
    | error e => rfl
    | ok result =>
      simp only [resumeDeliveries, bind_eq_ok] at hcall
      obtain ⟨-, -, initial, -, -, -, hcall⟩ := hcall
      split at hcall <;> cases hcall <;> exact hput _ h
  | read recipient after now limit =>
    simp only [perform]
    cases hcall : readDeliveries s recipient after now limit with
    | error e => rfl
    | ok result =>
      simp only [readDeliveries, bind_eq_ok] at hcall
      obtain ⟨-, -, hcall⟩ := hcall
      split at hcall
      · cases hcall
      · split at hcall <;> cases hcall <;> exact hput _ h
  | acknowledge recipient cursor =>
    simp only [perform]
    cases hcall : acknowledgeDelivery s recipient cursor with
    | error e => rfl
    | ok s' =>
      simp only [acknowledgeDelivery, bind_eq_ok] at hcall
      obtain ⟨-, -, initial, -, -, -, hcall⟩ := hcall
      cases hcall
      exact hput _ h

/-! ### Rows -/

/-- `q'` has no row that `q` lacks, and goes on with the same number. -/
structure Queue.Shrinks (q q' : Queue) : Prop where
  next : q'.next = q.next
  rows : q'.rows ⊆ q.rows

theorem Queue.Shrinks.refl (q : Queue) : q.Shrinks q := ⟨rfl, fun _ h => h⟩

theorem Queue.Shrinks.trans {q₁ q₂ q₃ : Queue} (h : q₁.Shrinks q₂) (h' : q₂.Shrinks q₃) :
    q₁.Shrinks q₃ :=
  ⟨h'.next.trans h.next, fun _ hd => h.rows (h'.rows hd)⟩

theorem compact_shrinks (q : Queue) (nowUnixMs : Int) :
    q.Shrinks (compactExpiredDeliveries q nowUnixMs) := by
  unfold compactExpiredDeliveries
  split
  · exact .refl q
  · exact ⟨rfl, fun _ hd => (List.mem_filter.mp hd).1⟩

theorem ackIfPast_shrinks (q : Queue) (cursor : Nat) :
    q.Shrinks (if cursor > q.acknowledged then acknowledgeThrough q cursor else q) := by
  split
  · exact ⟨rfl, fun _ hd => (List.mem_filter.mp hd).1⟩
  · exact .refl q

theorem Queue.mem_rows_of_select {q : Queue} {after limit : Nat} {e : StoredDelivery}
    (he : e ∈ q.select after limit) : ∃ d ∈ q.rows, e = ⟨d.id, d.envelope⟩ := by
  obtain ⟨d, hd, rfl⟩ := List.mem_map.mp he
  exact ⟨d, (List.mem_filter.mp (List.mem_of_mem_take hd)).1, rfl⟩

/-- The queue that a transaction starts from: the stored one, or a fresh one. -/
def DeliveryStore.Initial (s : DeliveryStore) (r : PeerIdentity) (q : Queue) : Prop :=
  s.queues r = some q ∨ q = .fresh

theorem ensureDeliveryState_initial {s : DeliveryStore} {r : PeerIdentity} {q : Queue}
    (h : ensureDeliveryState s r = .ok q) : s.Initial r q := by
  unfold ensureDeliveryState at h
  split at h
  · rename_i q' hq
    cases h
    exact Or.inl hq
  · split at h
    · cases h
      exact Or.inr rfl
    · cases h

/-- A resume returns rows that have not expired. -/
theorem resumeDeliveries_compacted {s s' : DeliveryStore} {r : PeerIdentity} {cursor : Nat}
    {now : Time} {limit : Int} {batch : DeliveryBatch}
    (h : resumeDeliveries s r cursor now limit = .ok (batch, s')) :
    ∃ q q', s.Initial r q ∧ (compactExpiredDeliveries q now.unixMilli).Shrinks q' ∧
      s' = s.put r q' ∧ ∀ e ∈ batch.deliveries, ∃ d ∈ q'.rows, e = ⟨d.id, d.envelope⟩ := by
  simp only [resumeDeliveries, bind_eq_ok, reject_eq_ok] at h
  obtain ⟨-, -, q, hq, -, -, h⟩ := h
  refine ⟨q, ?_⟩
  split at h
  · cases h
    exact ⟨_, ensureDeliveryState_initial hq, .refl _, rfl, fun _ he => absurd he List.not_mem_nil⟩
  · cases h
    exact ⟨_, ensureDeliveryState_initial hq, ackIfPast_shrinks _ cursor, rfl,
      fun _ he => Queue.mem_rows_of_select he⟩

theorem resumeDeliveries_rows {s s' : DeliveryStore} {r : PeerIdentity} {cursor : Nat} {now : Time}
    {limit : Int} {batch : DeliveryBatch}
    (h : resumeDeliveries s r cursor now limit = .ok (batch, s')) :
    ∃ q q', s.Initial r q ∧ q.Shrinks q' ∧ s' = s.put r q' ∧
      ∀ e ∈ batch.deliveries, ∃ d ∈ q'.rows, e = ⟨d.id, d.envelope⟩ := by
  obtain ⟨q, q', hq, hshrinks, hrest⟩ := resumeDeliveries_compacted h
  exact ⟨q, q', hq, (compact_shrinks q _).trans hshrinks, hrest⟩

/-- A read returns rows that have not expired. -/
theorem readDeliveries_compacted {s s' : DeliveryStore} {r : PeerIdentity} {after : Nat} {now : Time}
    {limit : Int} {batch : DeliveryBatch}
    (h : readDeliveries s r after now limit = .ok (batch, s')) :
    ∃ q q', s.Initial r q ∧ (compactExpiredDeliveries q now.unixMilli).Shrinks q' ∧
      s' = s.put r q' ∧ ∀ e ∈ batch.deliveries, ∃ d ∈ q'.rows, e = ⟨d.id, d.envelope⟩ := by
  simp only [readDeliveries, bind_eq_ok, reject_eq_ok] at h
  obtain ⟨-, -, h⟩ := h
  split at h
  · cases h
  · rename_i q hq
    refine ⟨q, ?_⟩
    split at h
    · cases h
      exact ⟨_, Or.inl hq, .refl _, rfl, fun _ he => absurd he List.not_mem_nil⟩
    · cases h
      exact ⟨_, Or.inl hq, .refl _, rfl, fun _ he => Queue.mem_rows_of_select he⟩

theorem readDeliveries_rows {s s' : DeliveryStore} {r : PeerIdentity} {after : Nat} {now : Time}
    {limit : Int} {batch : DeliveryBatch}
    (h : readDeliveries s r after now limit = .ok (batch, s')) :
    ∃ q q', s.Initial r q ∧ q.Shrinks q' ∧ s' = s.put r q' ∧
      ∀ e ∈ batch.deliveries, ∃ d ∈ q'.rows, e = ⟨d.id, d.envelope⟩ := by
  obtain ⟨q, q', hq, hshrinks, hrest⟩ := readDeliveries_compacted h
  exact ⟨q, q', hq, (compact_shrinks q _).trans hshrinks, hrest⟩

theorem acknowledgeDelivery_rows {s s' : DeliveryStore} {r : PeerIdentity} {cursor : Nat}
    (h : acknowledgeDelivery s r cursor = .ok s') :
    ∃ q q', s.Initial r q ∧ q.Shrinks q' ∧ s' = s.put r q' := by
  simp only [acknowledgeDelivery, bind_eq_ok, reject_eq_ok] at h
  obtain ⟨-, -, q, hq, -, -, h⟩ := h
  cases h
  exact ⟨q, _, ensureDeliveryState_initial hq, ackIfPast_shrinks q cursor, rfl⟩

/-- An append adds the row of the next number, and may take others away. -/
theorem appendDelivery_rows {s s' : DeliveryStore} {r : PeerIdentity} {envelope : Bytes}
    {expiresAt now : Time} {id : Nat}
    (h : appendDelivery s r envelope expiresAt now = .ok (id, s')) :
    ∃ q q', s.Initial r q ∧ s' = s.put r q' ∧ 1 ≤ q.next ∧ q.next ≠ maxInt64 ∧
      q'.next = q.next + 1 ∧
      ∀ d ∈ q'.rows, d ∈ q.rows ∨ d = ⟨q.next, envelope, expiresAt.unixMilli, now.unixMilli⟩ := by
  simp only [appendDelivery, bind_eq_ok, reject_eq_ok] at h
  obtain ⟨-, -, q, hq, -, hnext, h⟩ := h
  have hcompact := compact_shrinks q now.unixMilli
  rw [not_or, Nat.not_lt, hcompact.next] at hnext
  split at h
  · cases h
    refine ⟨q, _, ensureDeliveryState_initial hq, rfl, hnext.1, hnext.2, ?_, fun d hd => ?_⟩
    · exact congrArg (· + 1) hcompact.next
    · rcases (List.mem_orderedInsert _).mp ((evict_suffix _ _).subset hd) with rfl | hd
      · exact Or.inr (by rw [hcompact.next])
      · exact Or.inl (hcompact.rows hd)
  · cases h

/-- The store before any delivery. -/
def DeliveryStore.empty : DeliveryStore := ⟨[], fun _ => none⟩

/-- The number and the envelope of a successful append for `r`. -/
def appendedBy (r : PeerIdentity) : Call × Answer → Option (Nat × Bytes)
  | (.append recipient envelope _ _, .appended id) =>
    if recipient = r then some (id, envelope) else none
  | _ => none

/-- The appends for `r` in the order of the run, each with its number. -/
def appended (r : PeerIdentity) (history : List (Call × Answer)) : List (Nat × Bytes) :=
  history.filterMap (appendedBy r)

/-- The cursor that a call of `r` acknowledges: that of a successful acknowledgement, or of a
resume that did not report a reset. -/
def acknowledgedBy (r : PeerIdentity) : Call × Answer → Nat
  | (.acknowledge recipient cursor, .acknowledged) => if recipient = r then cursor else 0
  | (.resume recipient cursor _ _, .batch batch) =>
    if recipient = r ∧ batch.resetRequired = false then cursor else 0
  | _ => 0

/-- The greatest cursor that `r` acknowledged. -/
def acknowledgedThrough (r : PeerIdentity) (history : List (Call × Answer)) : Nat :=
  (history.map (acknowledgedBy r)).foldl max 0

theorem appendedBy_other {r : PeerIdentity} {call : Call} (h : call.recipient ≠ some r)
    (answer : Answer) : appendedBy r (call, answer) = none := by
  cases call with
  | append recipient envelope expiresAt now =>
    have hr : recipient ≠ r := fun heq => h (congrArg some heq)
    cases answer <;> simp [appendedBy, hr]
  | _ => rfl

theorem acknowledgedBy_other {r : PeerIdentity} {call : Call} (h : call.recipient ≠ some r)
    (answer : Answer) : acknowledgedBy r (call, answer) = 0 := by
  cases call with
  | resume recipient cursor now limit =>
    have hr : recipient ≠ r := fun heq => h (congrArg some heq)
    cases answer <;> simp [acknowledgedBy, hr]
  | acknowledge recipient cursor =>
    have hr : recipient ≠ r := fun heq => h (congrArg some heq)
    cases answer <;> simp [acknowledgedBy, hr]
  | _ => rfl

/-- The queue of `r` represents the log of the history. -/
def Tracks (r : PeerIdentity) (s : DeliveryStore) (history : List (Call × Answer)) : Prop :=
  ∃ l, s.Holds r l ∧ l.written = (appended r history).map (·.2) ∧
    (appended r history).map (·.1) = List.range' 1 l.written.length ∧
    l.acked = acknowledgedThrough r history

theorem appended_concat (r : PeerIdentity) (history : List (Call × Answer)) (e : Call × Answer) :
    appended r (history ++ [e]) = appended r history ++ (appendedBy r e).toList := by
  unfold appended
  rw [List.filterMap_append]
  cases h : appendedBy r e <;> simp [h]

theorem acknowledgedThrough_concat (r : PeerIdentity) (history : List (Call × Answer))
    (e : Call × Answer) :
    acknowledgedThrough r (history ++ [e]) =
      max (acknowledgedThrough r history) (acknowledgedBy r e) := by
  simp [acknowledgedThrough]

/-- An event that neither appends nor acknowledges for `r` and leaves the queue of `r` holding the
same log. -/
theorem Tracks.keep {r : PeerIdentity} {s s' : DeliveryStore} {history : List (Call × Answer)}
    {e : Call × Answer} (h : Tracks r s history) (happ : appendedBy r e = none)
    (hack : acknowledgedBy r e = 0)
    (hs : ∀ l, s.Holds r l → ∃ l', s'.Holds r l' ∧ l'.written = l.written ∧ l'.acked = l.acked) :
    Tracks r s' (history ++ [e]) := by
  obtain ⟨l, hl, hw, hn, ha⟩ := h
  obtain ⟨l', hl', hw', ha'⟩ := hs l hl
  refine ⟨l', hl', ?_, ?_, ?_⟩
  · simp [appended_concat, happ, hw', hw]
  · simp [appended_concat, happ, hw', hn]
  · simp [acknowledgedThrough_concat, hack, ha', ha]

/-- A call that failed, and a commit to another recipient. -/
theorem Tracks.other {r : PeerIdentity} {s s' : DeliveryStore} {history : List (Call × Answer)}
    {e : Call × Answer} (h : Tracks r s history) (happ : appendedBy r e = none)
    (hack : acknowledgedBy r e = 0) (hs : s'.queues r = s.queues r) :
    Tracks r s' (history ++ [e]) :=
  h.keep happ hack fun l hl => ⟨l, by rw [DeliveryStore.Holds, hs]; exact hl, rfl, rfl⟩

/-- One call keeps every queue on the log of its history. -/
theorem perform_tracks {s : DeliveryStore} {history : List (Call × Answer)} {r : PeerIdentity}
    (h : Tracks r s history) (call : Call) :
    Tracks r (perform s call).1 (history ++ [(call, (perform s call).2)]) := by
  by_cases hr : call.recipient = some r
  · cases call with
    | register device => cases hr
    | append recipient envelope expiresAt now =>
      cases hr
      simp only [perform]
      cases hcall : appendDelivery s r envelope expiresAt now with
      | error e => exact h.other rfl rfl rfl
      | ok result =>
        obtain ⟨id, s'⟩ := result
        obtain ⟨l, hl, hw, hn, ha⟩ := h
        obtain ⟨q, l', rfl, hq, rfl, hw', ha'⟩ := appendDelivery_ok hl hcall
        refine ⟨l', DeliveryStore.holds_put hq, ?_, ?_, ?_⟩
        · simp [appended_concat, appendedBy, hw', hw]
        · simp [appended_concat, appendedBy, hw', hn, List.range'_concat, Nat.add_comm]
        · simp [acknowledgedThrough_concat, acknowledgedBy, ha', ha]
    | resume recipient cursor now limit =>
      cases hr
      simp only [perform]
      cases hcall : resumeDeliveries s r cursor now limit with
      | error e => exact h.other rfl rfl rfl
      | ok result =>
        obtain ⟨batch, s'⟩ := result
        obtain ⟨l, hl, hw, hn, ha⟩ := h
        obtain ⟨q, l', rfl, hq, hw', -, -, -, hcase⟩ := resumeDeliveries_ok hl hcall
        refine ⟨l', DeliveryStore.holds_put hq, ?_, ?_, ?_⟩
        · simp [appended_concat, appendedBy, hw', hw]
        · simp [appended_concat, appendedBy, hw', hn]
        · rw [acknowledgedThrough_concat, ← ha]
          rcases hcase with ⟨hreset, -, hack⟩ | ⟨hreset, -, hack, -, hle⟩
          · simp [acknowledgedBy, hreset, hack]
          · simp [acknowledgedBy, hreset, hack, hle]
    | read recipient after now limit =>
      cases hr
      simp only [perform]
      cases hcall : readDeliveries s r after now limit with
      | error e => exact h.other rfl rfl rfl
      | ok result =>
        obtain ⟨batch, s'⟩ := result
        refine h.keep rfl rfl fun l hl => ?_
        obtain ⟨q, l', rfl, hq, hw, ha, -⟩ := readDeliveries_ok hl hcall
        exact ⟨l', DeliveryStore.holds_put hq, hw, ha⟩
    | acknowledge recipient cursor =>
      cases hr
      simp only [perform]
      cases hcall : acknowledgeDelivery s r cursor with
      | error e => exact h.other rfl rfl rfl
      | ok s' =>
        obtain ⟨l, hl, hw, hn, ha⟩ := h
        obtain ⟨q, l', rfl, hq, hw', ha', -⟩ := acknowledgeDelivery_ok hl hcall
        refine ⟨l', DeliveryStore.holds_put hq, ?_, ?_, ?_⟩
        · simp [appended_concat, appendedBy, hw', hw]
        · simp [appended_concat, appendedBy, hw', hn]
        · simp [acknowledgedThrough_concat, acknowledgedBy, ha', ha]
  · exact h.other (appendedBy_other hr _) (acknowledgedBy_other hr _) (perform_queues_ne hr)

/-- After every run each queue represents the log of the run's history. -/
theorem run_tracks (calls : List Call) (r : PeerIdentity) :
    Tracks r (store.run .empty calls) (store.trace .empty calls) := by
  have start : Tracks r DeliveryStore.empty [] := ⟨Log.empty, rfl, rfl, rfl, rfl⟩
  exact store.run_induction start (fun s history call h => perform_tracks h call) calls

/-- Nothing between the marks and the next number is missing. -/
structure Queue.Gapless (q : Queue) : Prop where
  acknowledged_lt : q.acknowledged < q.next
  unavailable_lt : q.unavailable < q.next
  stored : ∀ d ∈ q.rows, q.acknowledged < d.id ∧ d.id < q.next
  covered : ∀ n, max q.acknowledged q.unavailable < n → n < q.next → ∃ d ∈ q.rows, d.id = n

theorem Queue.Represents.gapless {q : Queue} {l : Log Bytes} (h : q.Represents l) :
    q.Gapless where
  acknowledged_lt := by
    rw [h.acknowledged, h.next]
    exact Nat.lt_succ_of_le l.acked_le
  unavailable_lt := by
    rw [h.unavailable, h.next]
    exact Nat.lt_succ_of_le l.lost_le
  stored := by
    intro d hd
    have := h.bounds hd
    rw [h.acknowledged, h.next]
    omega
  covered := by
    intro n hn hnext
    rw [h.acknowledged, h.unavailable] at hn
    rw [h.next] at hnext
    exact (h.retained n).mp (l.covered n (by omega) (by omega) (by omega))

/-- A written entry with its number is one of the numbered appends. -/
theorem mem_appended_of_written {entries : List (Nat × Bytes)} {written : List Bytes}
    (hw : written = entries.map (·.2)) (hn : entries.map (·.1) = List.range' 1 written.length)
    {n : Nat} {envelope : Bytes} (hpos : 0 < n) (h : written[n - 1]? = some envelope) :
    (n, envelope) ∈ entries := by
  subst hw
  rw [List.getElem?_map] at h
  cases hentry : entries[n - 1]? with
  | none => simp [hentry] at h
  | some entry =>
    have hlt : n - 1 < entries.length := (List.getElem?_eq_some_iff.mp hentry).1
    have hnum := congrArg (fun ids : List Nat => ids[n - 1]?) hn
    simp only [List.getElem?_map, hentry, Option.map_some, List.length_map,
      List.getElem?_range' hlt] at hnum h
    have hid : entry.1 = n := by
      have := Option.some.inj hnum
      omega
    rw [← hid, ← Option.some.inj h]
    exact List.mem_of_getElem? hentry

/-- No silent gap.  After any run, for every recipient: the queue has no gap past its marks; the
appends returned 1, 2, 3, and so on; a resume that reports no reset returns the consecutive numbers
past its cursor with the envelopes appended under them; and a read that reports no reset returns
increasing numbers, with those envelopes, and leaves out only numbers that were acknowledged. -/
theorem no_silent_gap (calls : List Call) (r : PeerIdentity) :
    let s := store.run .empty calls
    let entries := appended r (store.trace .empty calls)
    (∀ q, s.queues r = some q → q.Gapless) ∧
    entries.map (·.1) = List.range' 1 entries.length ∧
    (∀ cursor now limit batch s', resumeDeliveries s r cursor now limit = .ok (batch, s') →
      batch.highWater = entries.length ∧ (batch.resetRequired = false →
        batch.deliveries.map (·.id) =
          List.range' (cursor + 1) (min limit.toNat (batch.highWater - cursor)) ∧
        ∀ d ∈ batch.deliveries, (d.id, d.envelope) ∈ entries)) ∧
    (∀ after now limit batch s', readDeliveries s r after now limit = .ok (batch, s') →
      batch.highWater = entries.length ∧ (batch.resetRequired = false →
        (batch.deliveries.map (·.id)).Pairwise (· < ·) ∧
        (∀ d ∈ batch.deliveries, after < d.id ∧ (d.id, d.envelope) ∈ entries) ∧
        ∀ n, after < n → n ≤ scanned batch.deliveries limit.toNat batch.highWater →
          n ∈ batch.deliveries.map (·.id) ∨
            n ≤ acknowledgedThrough r (store.trace .empty calls))) := by
  intro s entries
  obtain ⟨l, hl, hw, hn, ha⟩ := run_tracks calls r
  have hlen : l.written.length = entries.length := by rw [hw, List.length_map]
  refine ⟨?_, ?_, ?_, ?_⟩
  · intro q hq
    rw [DeliveryStore.Holds, hq] at hl
    exact hl.gapless
  · rw [← hlen]
    exact hn
  · intro cursor now limit batch s' h
    obtain ⟨q, l', -, hq, hw', hhigh, -, -, hcase⟩ := resumeDeliveries_ok hl h
    refine ⟨hhigh.trans hlen, fun hreset => ?_⟩
    rcases hcase with ⟨htrue, -⟩ | ⟨-, hdeliveries, hack, hlost, -⟩
    · rw [hreset] at htrue
      exact Bool.noConfusion htrue
    · rw [hdeliveries, hhigh, ← hw']
      refine ⟨hq.select_range _ (Nat.le_of_eq hack) hlost, fun d hd => ?_⟩
      obtain ⟨hpos, -, hwritten⟩ := hq.mem_select hd
      rw [hw'] at hwritten
      exact mem_appended_of_written hw hn (by omega) hwritten
  · intro after now limit batch s' h
    obtain ⟨q, l', -, hq, hw', ha', hhigh, hlimit, hcase⟩ := readDeliveries_ok hl h
    refine ⟨hhigh.trans hlen, fun hreset => ?_⟩
    rcases hcase with ⟨htrue, -⟩ | ⟨-, hdeliveries, hlost⟩
    · rw [hreset] at htrue
      exact Bool.noConfusion htrue
    · rw [hdeliveries, hhigh, ← hw']
      refine ⟨q.select_ordered _ _, fun d hd => ?_, fun n hafter hscanned => ?_⟩
      · obtain ⟨hpos, -, hwritten⟩ := hq.mem_select hd
        rw [hw'] at hwritten
        exact ⟨hpos, mem_appended_of_written hw hn (by omega) hwritten⟩
      · by_cases hn' : n ∈ l'.retained
        · exact Or.inl (hq.select_complete hlimit hn' hafter hscanned)
        · refine Or.inr ?_
          have := l'.acked_of_missing (by omega) (hscanned.trans hq.scanned_le) hn'
          omega

end SevenMirror.Relay
