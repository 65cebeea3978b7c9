import SevenMirror.Relay.Provenance
import SevenMirror.Relay.WriterRun

/-! The writer and the clock.  The writer of `websocket.go` looks at the clock when it reads a batch,
and the store then leaves out what has expired; the entries of the batch are written one after the
other, however long that takes.  What expires in the meantime is still written. -/

namespace SevenMirror.Relay

open Lib Protocol MembershipCodec

/-! ### The expiry of an envelope -/

/-- The routing header of an envelope. -/
def routingHeaderOf (envelope : Bytes) : Option RoutingHeader.Header := do
  let frame ← (EnvelopeFrame.decode envelope).toOption
  (RoutingHeader.decode frame.routingHeader.bytes).toOption

/-- The envelope expires, and it has not expired at `t`. -/
def LiveAt (envelope : Bytes) (t : Time) : Prop :=
  ∃ header, routingHeaderOf envelope = some header ∧ t.unixMilli < header.expiresAtUnixMs

/-- The envelope has expired at `t`. -/
def ExpiredAt (envelope : Bytes) (t : Time) : Prop :=
  ∃ header, routingHeaderOf envelope = some header ∧ (header.expiresAtUnixMs : Int) ≤ t.unixMilli

/-- The row has the expiry of the header of its envelope, as `RouteDurable` stores it. -/
def Delivery.Routed (d : Delivery) : Prop :=
  ∃ header, routingHeaderOf d.envelope = some header ∧
    d.expiresAtMs = (RelayState.expiry header).unixMilli

def DeliveryStore.Routed (s : DeliveryStore) (r : PeerIdentity) : Prop :=
  ∀ q, s.queues r = some q → ∀ d ∈ q.rows, d.Routed

theorem routingHeaderOf_eq_some {envelope : Bytes} {header : RoutingHeader.Header} :
    routingHeaderOf envelope = some header ↔ ∃ frame, EnvelopeFrame.decode envelope = .ok frame ∧
      RoutingHeader.decode frame.routingHeader.bytes = .ok header := by
  unfold routingHeaderOf
  cases EnvelopeFrame.decode envelope with
  | error e => simp [Except.toOption]
  | ok frame =>
    cases hheader : RoutingHeader.decode frame.routingHeader.bytes <;>
      simp [Except.toOption, hheader]

theorem Delivery.Routed.live {d : Delivery} (h : d.Routed) {t : Time}
    (hlive : ¬ d.expiresAtMs ≤ t.unixMilli) : LiveAt d.envelope t := by
  obtain ⟨header, hheader, hexpires⟩ := h
  obtain ⟨frame, -, hdecode⟩ := routingHeaderOf_eq_some.mp hheader
  rw [hexpires, header_unixMilli hdecode] at hlive
  exact ⟨header, hheader, Int.not_le.mp hlive⟩

/-- The rows of the relay are such rows. -/
theorem RelayState.Sound.routed {crypto : Crypto} {c : RelayState} (hc : c.Sound crypto)
    (r : PeerIdentity) : c.deliveries.Routed r := by
  intro q hq d hd
  obtain ⟨s, hs⟩ := hc.rows r q hq d hd
  have haddressed := hs.received.addressed
  refine ⟨s.header, routingHeaderOf_eq_some.mpr ?_, ?_⟩
  · rw [← hs.envelope]
    exact haddressed.frame
  · rw [hs.expiry, expiry_unixMilli haddressed]

/-! ### What a read returns -/

theorem compact_live {q : Queue} {nowUnixMs : Int} {d : Delivery}
    (hd : d ∈ (compactExpiredDeliveries q nowUnixMs).rows) : ¬ d.expiresAtMs ≤ nowUnixMs := by
  unfold compactExpiredDeliveries at hd
  split at hd
  · rename_i hnone
    intro hexpired
    have hmem : d.id ∈ (q.rows.filter (·.expiresAtMs ≤ nowUnixMs)).map (·.id) :=
      List.mem_map_of_mem (List.mem_filter.mpr ⟨hd, decide_eq_true hexpired⟩)
    rw [List.max?_eq_none_iff.mp hnone] at hmem
    cases hmem
  · simpa using (List.mem_filter.mp hd).2

/-- The read of the writer: of a resume, or after the last delivery that it sent. -/
def Connection.read (r : PeerIdentity) (now : Time) (c : Connection) :
    Except DeliveryError (DeliveryBatch × DeliveryStore) :=
  match c.position with
  | .resuming cursor => resumeDeliveries c.store r cursor now deliveryBatchSize
  | _ => readDeliveries c.store r c.sentCursor now deliveryBatchSize

theorem Connection.read_compacted {r : PeerIdentity} {now : Time} {c : Connection}
    {batch : DeliveryBatch} {store : DeliveryStore} (h : c.read r now = .ok (batch, store)) :
    ∃ q q', c.store.Initial r q ∧ (compactExpiredDeliveries q now.unixMilli).Shrinks q' ∧
      store = c.store.put r q' ∧ ∀ e ∈ batch.deliveries, ∃ d ∈ q'.rows, e = ⟨d.id, d.envelope⟩ := by
  unfold Connection.read at h
  split at h
  · exact resumeDeliveries_compacted h
  · exact readDeliveries_compacted h

/-- A queue that a transaction starts from has stored rows only. -/
theorem DeliveryStore.Initial.stored {s : DeliveryStore} {r : PeerIdentity} {q : Queue}
    (h : s.Initial r q) {d : Delivery} (hd : d ∈ q.rows) :
    ∃ q, s.queues r = some q ∧ d ∈ q.rows := by
  rcases h with hq | rfl
  · exact ⟨q, hq, hd⟩
  · cases hd

/-- The deliveries of a batch are rows that have not expired at the clock reading of the call. -/
theorem Connection.read_live {r : PeerIdentity} {now : Time} {c : Connection} {batch : DeliveryBatch}
    {store : DeliveryStore} (h : c.read r now = .ok (batch, store)) {e : StoredDelivery}
    (he : e ∈ batch.deliveries) : ∃ q, c.store.queues r = some q ∧ ∃ d ∈ q.rows,
      e = ⟨d.id, d.envelope⟩ ∧ ¬ d.expiresAtMs ≤ now.unixMilli := by
  obtain ⟨q, q', hinitial, hshrinks, -, hbatch⟩ := Connection.read_compacted h
  obtain ⟨d, hd, rfl⟩ := hbatch e he
  have hcompacted := hshrinks.rows hd
  obtain ⟨q, hq, hd⟩ := hinitial.stored ((compact_shrinks q _).rows hcompacted)
  exact ⟨q, hq, d, hd, rfl, compact_live hcompacted⟩

/-- A read stores nothing. -/
theorem Connection.read_routed {r : PeerIdentity} {now : Time} {c : Connection} {batch : DeliveryBatch}
    {store : DeliveryStore} (h : c.read r now = .ok (batch, store)) (hrouted : c.store.Routed r) :
    store.Routed r := by
  obtain ⟨q, q', hinitial, hshrinks, rfl, -⟩ := Connection.read_compacted h
  intro q'' hq'' d hd
  simp only [DeliveryStore.put, Function.update_self, Option.some.injEq] at hq''
  subst hq''
  obtain ⟨q, hq, hd⟩ := hinitial.stored ((compact_shrinks q _).rows (hshrinks.rows hd))
  exact hrouted q hq d hd

/-! ### The writer with a clock -/

/-- A connection with the clock of the relay.  `asked` is the clock reading that the writer gives to
its next read, and `begun` are the deliveries with the moments at which their writes began. -/
structure TimedConnection where
  connection : Connection
  clock : Time
  asked : Option Time
  begun : List (Time × StoredDelivery)

/-- The deliveries of the batch that are still to be written. -/
def Position.pending : Position → List StoredDelivery
  | .draining _ pending => pending
  | _ => []

/-- The writer is about to read a batch. -/
def Connection.Reading (c : Connection) : Prop :=
  match c.position with
  | .resuming _ | .waking => True
  | .draining batch pending =>
    pending = [] ∧ batch.resetRequired = false ∧ c.sentCursor < batch.highWater
  | _ => False

/-- One step of the connection of `r` with the clock.  The steps of the connection are those of
`Step`; between any two of them time may pass, so a write takes the time that passes after it began. -/
inductive TimedStep (r : PeerIdentity) (s : TimedConnection) : TimedConnection → Prop
  | pass (later : Time) : s.clock.nanos ≤ later.nanos → TimedStep r s { s with clock := later }
  -- `time.Now()` before the read
  | ask : s.connection.Reading → s.asked = none → TimedStep r s { s with asked := some s.clock }
  | read (now : Time) (batch : DeliveryBatch) (c : Connection) : s.asked = some now →
      s.connection.Reading → Step r s.connection c →
      s.connection.read r now = .ok (batch, c.store) → c.position = .draining batch batch.deliveries →
      TimedStep r s { s with connection := c, asked := none }
  | deliver (batch : DeliveryBatch) (delivery : StoredDelivery) (pending : List StoredDelivery)
      (encoded : Bytes) : s.connection.position = .draining batch (delivery :: pending) →
      batch.resetRequired = false →
      RelayDelivery.encodeDelivery delivery.id delivery.envelope = .ok encoded →
      TimedStep r s { s with
        connection := { s.connection with
          sentCursor := delivery.id, position := .draining batch pending }.send
            (.delivery delivery.id delivery.envelope)
        begun := s.begun ++ [(s.clock, delivery)] }
  -- the transaction of a `RouteDurable` to this device
  | append (envelope : Bytes) (header : RoutingHeader.Header) (now : Time) (c : Connection) :
      routingHeaderOf envelope = some header →
      c = { s.connection with store :=
        (perform s.connection.store (.append r envelope (RelayState.expiry header) now)).1 } →
      TimedStep r s { s with connection := c }
  -- every other step: it begins no batch, writes no delivery, and appends nothing for this device
  | act (c : Connection) : Step r s.connection c →
      (∀ batch pending, c.position = .draining batch pending →
        s.connection.position = .draining batch pending) →
      (∀ q, c.store.queues r = some q → ∀ d ∈ q.rows,
        ∃ q, s.connection.store.queues r = some q ∧ d ∈ q.rows) →
      TimedStep r s { s with connection := c }

/-- The steps of the writer are those of `Step`. -/
theorem TimedStep.step {r : PeerIdentity} {s s' : TimedConnection} (h : TimedStep r s s') :
    s'.connection = s.connection ∨ Step r s.connection s'.connection := by
  cases h with
  | pass | ask => exact Or.inl rfl
  | read now batch c _ _ hstep => exact Or.inr hstep
  | deliver batch delivery pending encoded hposition hreset hencode =>
    exact Or.inr (.deliver _ batch delivery pending encoded hposition hreset hencode)
  | append envelope header now c _ hc =>
    subst hc
    exact Or.inr (.other _ _ fun h => h)
  | act c hstep => exact Or.inr hstep

/-- A connection that has just sent `SNO1`, at the moment `clock`. -/
def TimedConnection.start (store : DeliveryStore) (clock : Time) : TimedConnection :=
  ⟨.start store, clock, none, []⟩

/-- What the delays of a step leave: time passes the expiry of no delivery that was read and is still
to be written, and of no row between the clock reading of a read and its transaction. -/
structure Timely (r : PeerIdentity) (s s' : TimedConnection) : Prop where
  writes : s'.clock ≠ s.clock → ∀ d ∈ s.connection.position.pending, ¬ ExpiredAt d.envelope s'.clock
  reads : ∀ now, s.asked = some now → s'.asked = none → ∀ q, s.connection.store.queues r = some q →
    ∀ d ∈ q.rows, d.expiresAtMs ≤ s.clock.unixMilli → d.expiresAtMs ≤ now.unixMilli

/-- Every row has its header's expiry, and what is to be written or was written is live. -/
structure TimedConnection.Fresh (r : PeerIdentity) (s : TimedConnection) : Prop where
  rows : s.connection.store.Routed r
  pending : ∀ d ∈ s.connection.position.pending, LiveAt d.envelope s.clock
  begun : ∀ e ∈ s.begun, LiveAt e.2.envelope e.1

section Fresh

variable {r : PeerIdentity} {s s' : TimedConnection}

theorem LiveAt.of_not_expired {envelope : Bytes} {t t' : Time} (h : LiveAt envelope t)
    (hlive : ¬ ExpiredAt envelope t') : LiveAt envelope t' := by
  obtain ⟨header, hheader, -⟩ := h
  exact ⟨header, hheader, Int.not_le.mp fun hle => hlive ⟨header, hheader, hle⟩⟩

/-- A row that an append leaves was there, or is the new one. -/
theorem append_routed {store : DeliveryStore} {envelope : Bytes} {header : RoutingHeader.Header}
    {now : Time} (h : store.Routed r) (hheader : routingHeaderOf envelope = some header) :
    (perform store (.append r envelope (RelayState.expiry header) now)).1.Routed r := by
  simp only [perform]
  split
  · rename_i id store' happend
    obtain ⟨q, q', hinitial, rfl, -, -, -, hrows⟩ := appendDelivery_rows happend
    intro q'' hq'' d hd
    simp only [DeliveryStore.put, Function.update_self, Option.some.injEq] at hq''
    subst hq''
    rcases hrows d hd with hd | rfl
    · obtain ⟨q, hq, hd⟩ := hinitial.stored hd
      exact h q hq d hd
    · refine ⟨header, hheader, ?_⟩
      dsimp only
  · exact h

theorem TimedStep.fresh (hstep : TimedStep r s s') (htimely : Timely r s s') (h : s.Fresh r) :
    s'.Fresh r := by
  cases hstep with
  | pass later hlater =>
    refine ⟨h.rows, fun d hd => ?_, h.begun⟩
    by_cases hclock : later = s.clock
    · rw [hclock]
      exact h.pending d hd
    · exact (h.pending d hd).of_not_expired (htimely.writes hclock d hd)
  | ask => exact ⟨h.rows, h.pending, h.begun⟩
  | read now batch c hasked _ _ hread hposition =>
    refine ⟨Connection.read_routed hread h.rows, fun e he => ?_, h.begun⟩
    dsimp only at he
    rw [hposition] at he
    obtain ⟨q, hq, d, hd, rfl, hlive⟩ := Connection.read_live hread he
    exact (h.rows q hq d hd).live fun hexpired =>
      hlive (htimely.reads now hasked rfl q hq d hd hexpired)
  | deliver batch delivery pending encoded hposition =>
    have hpending := h.pending
    rw [hposition] at hpending
    refine ⟨h.rows, fun d hd => hpending d (List.mem_cons_of_mem _ hd), fun e he => ?_⟩
    rcases List.mem_append.mp he with he | he
    · exact h.begun e he
    · rw [List.mem_singleton.mp he]
      exact hpending delivery List.mem_cons_self
  | append envelope header now c hheader hc =>
    subst hc
    exact ⟨append_routed h.rows hheader, h.pending, h.begun⟩
  | act c _ hkept hrows =>
    refine ⟨fun q hq d hd => ?_, fun d hd => ?_, h.begun⟩
    · obtain ⟨q, hq, hd⟩ := hrows q hq d hd
      exact h.rows q hq d hd
    · cases hposition : c.position with
      | draining batch pending =>
        dsimp only at hd
        rw [hposition] at hd
        refine h.pending d ?_
        rw [hkept batch pending hposition]
        exact hd
      | _ =>
        dsimp only at hd
        rw [hposition] at hd
        cases hd

/-- A run of the connection of `r` whose steps all meet the condition. -/
def TimedConnection.Reaches (r : PeerIdentity) (condition : TimedConnection → TimedConnection → Prop) :
    TimedConnection → TimedConnection → Prop :=
  Relation.ReflTransGen fun s s' => TimedStep r s s' ∧ condition s s'

end Fresh

/-- In a run in which nothing expires between the clock reading of its batch and the beginning of its
own write, every delivery is live when its write begins. -/
theorem nothing_expired_written {r : PeerIdentity} {store : DeliveryStore} (hstore : store.Routed r)
    {clock : Time} {s : TimedConnection}
    (hrun : TimedConnection.Reaches r (Timely r) (.start store clock) s) :
    ∀ e ∈ s.begun, ∃ header, routingHeaderOf e.2.envelope = some header ∧
      e.1.unixMilli < header.expiresAtUnixMs := by
  have hfresh : s.Fresh r := by
    induction hrun with
    | refl =>
      exact ⟨hstore, fun d hd => absurd hd List.not_mem_nil, fun e he => absurd he List.not_mem_nil⟩
    | tail _ hstep ih => exact hstep.1.fresh hstep.2 ih
  exact hfresh.begun

/-! ### A run -/

/-- The header of the envelope, which expires one millisecond after the epoch. -/
def hurriedHeader : RoutingHeader.Header := (routingHeaderOf sampleEnvelope).get (by decide +kernel)

theorem hurriedHeader_eq : routingHeaderOf sampleEnvelope = some hurriedHeader :=
  (Option.some_get _).symm

def hurriedAppend (s : DeliveryStore) : DeliveryStore :=
  (perform s (.append sampleDevice sampleEnvelope (RelayState.expiry hurriedHeader) ⟨0⟩)).1

/-- A device is registered, and the envelope is queued for it twice. -/
def hurriedStore : DeliveryStore :=
  hurriedAppend (hurriedAppend (perform .empty (.register sampleDevice)).1)

theorem hurriedAppend_routed {s : DeliveryStore} (h : s.Routed sampleDevice) :
    (hurriedAppend s).Routed sampleDevice :=
  append_routed h hurriedHeader_eq

theorem hurriedStore_routed : hurriedStore.Routed sampleDevice := by
  refine hurriedAppend_routed (hurriedAppend_routed ?_)
  intro q hq
  cases hq

set_option maxRecDepth 8000 in
theorem hurried_resumed : ∃ st, resumeDeliveries hurriedStore sampleDevice 0 ⟨0⟩ deliveryBatchSize =
    .ok (⟨2, false, [⟨1, sampleEnvelope⟩, ⟨2, sampleEnvelope⟩]⟩, st) :=
  ⟨_, rfl⟩

theorem hurried_encoded : RelayDelivery.encodeDelivery 2 sampleEnvelope =
    .ok (RelayDelivery.deliveryMagic ++ toBigEndian 8 2 ++ sampleEnvelope) := by
  decide +kernel

set_option maxRecDepth 8000 in
/-- The writer has read both deliveries and writes the first, without delay. -/
theorem hurried_first : ∃ s, TimedConnection.Reaches sampleDevice (Timely sampleDevice)
      (.start hurriedStore ⟨0⟩) s ∧ s.clock = ⟨0⟩ ∧ s.begun = [(⟨0⟩, ⟨1, sampleEnvelope⟩)] ∧
    ∃ highWater, s.connection.position = .draining
      ⟨highWater, false, [⟨1, sampleEnvelope⟩, ⟨2, sampleEnvelope⟩]⟩ [⟨2, sampleEnvelope⟩] := by
  obtain ⟨st, hresume⟩ := hurried_resumed
  have quiet {s s' : TimedConnection} (hclock : s'.clock = s.clock) (hasked : s.asked = none) :
      Timely sampleDevice s s' := by
    refine ⟨fun hne => absurd hclock hne, fun now hsome => ?_⟩
    rw [hasked] at hsome
    cases hsome
  have same {s s' : TimedConnection} (hstep : TimedStep sampleDevice s s')
      (hclock : s'.clock = s.clock) (hasked : s.asked = none) :
      TimedStep sampleDevice s s' ∧ Timely sampleDevice s s' := ⟨hstep, quiet hclock hasked⟩
  have started : TimedConnection.Reaches sampleDevice (Timely sampleDevice)
    (.start hurriedStore ⟨0⟩) (.start hurriedStore ⟨0⟩) := .refl
  have requested := started.tail (same (.act _ (.requestResume _ 0 rfl) (fun _ _ h => h)
    (fun q hq d hd => ⟨q, hq, hd⟩)) rfl rfl)
  have takenUp := requested.tail (same (.act _ (.takeUp _ 0 rfl rfl) (fun _ _ h => by cases h)
    (fun q hq d hd => ⟨q, hq, hd⟩)) rfl rfl)
  have asked := takenUp.tail (same (.ask trivial rfl) rfl rfl)
  have drained := asked.tail ⟨.read ⟨0⟩ _ _ rfl trivial (.resume _ 0 ⟨0⟩ _ st rfl hresume) hresume rfl,
    fun hne => absurd rfl hne, fun now hnow _ q hq d hd hexpired => by cases hnow; exact hexpired⟩
  have delivered := drained.tail (same (.deliver _ _ _ _ rfl rfl sample_encoded) rfl rfl)
  exact ⟨_, delivered, rfl, rfl, 2, rfl⟩

/-- The first write takes two seconds, and the second delivery has expired when its write begins. -/
theorem expired_delivery_written :
    hurriedStore.Routed sampleDevice ∧
      ∃ s, TimedConnection.Reaches sampleDevice (fun _ _ => True) (.start hurriedStore ⟨0⟩) s ∧
        ∃ e ∈ s.begun, ExpiredAt e.2.envelope e.1 := by
  obtain ⟨s, hrun, hclock, hbegun, highWater, hposition⟩ := hurried_first
  refine ⟨hurriedStore_routed, ?_⟩
  have hrun : TimedConnection.Reaches sampleDevice (fun _ _ => True) (.start hurriedStore ⟨0⟩) s :=
    Relation.ReflTransGen.mono (fun _ _ h => ⟨h.1, trivial⟩) _ _ hrun
  have stalled := hrun.tail ⟨.pass ⟨2000000000⟩ (by rw [hclock]; decide), trivial⟩
  have written := stalled.tail ⟨.deliver _ _ _ _ hposition rfl hurried_encoded, trivial⟩
  refine ⟨_, written, (⟨2000000000⟩, ⟨2, sampleEnvelope⟩), ?_, hurriedHeader, hurriedHeader_eq, ?_⟩
  · exact List.mem_append_right _ (List.mem_singleton_self _)
  · decide +kernel

set_option maxRecDepth 8000 in
theorem nothing_expired_written_prompt : ∃ s, s.begun = [(⟨0⟩, ⟨1, sampleEnvelope⟩)] ∧
    TimedConnection.Reaches sampleDevice (Timely sampleDevice) (.start hurriedStore ⟨0⟩) s ∧
    ∃ header, routingHeaderOf sampleEnvelope = some header ∧
      (⟨0⟩ : Time).unixMilli < header.expiresAtUnixMs := by
  obtain ⟨s, hrun, -, hbegun, -⟩ := hurried_first
  have hlive := nothing_expired_written hurriedStore_routed hrun
  rw [hbegun] at hlive
  exact ⟨s, hbegun, hrun, hlive _ (List.mem_singleton_self _)⟩

end SevenMirror.Relay
