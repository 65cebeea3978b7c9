import SevenMirror.Relay.WriterHistory

/-! Every interleaving of the writer with the rest of the relay keeps the history of the connection
lawful: no hole in the durable stream is hidden from the client. -/

namespace SevenMirror.Relay

open Lib Protocol

/-- What the writer's variables say about the events since the resume cursor `c`, with the store's
acknowledged mark at `acked`. -/
def Position.Consistent (initialized : Bool) (sent c : Nat) (stretch : List Event) (acked : Nat) :
    Position → Prop
  | selecting => initialized = true → Covers c stretch sent ∧ MarkExplained c stretch acked
  | resuming cursor => cursor = c ∧ written stretch = [] ∧ StreamOpen stretch
  | waking => Covers c stretch sent ∧ MarkExplained c stretch acked
  | draining batch pending => Covers c stretch sent ∧ (batch.resetRequired = false →
      MarkExplained c stretch acked ∧ PendingAfter stretch sent pending)
  | returned => True

/-- The history is lawful, and the writer's variables agree with it and with the store. -/
structure Connection.Sound (r : PeerIdentity) (s : Connection) : Prop where
  lawful : Lawful AllowedAfter s.events
  consistent : ∃ l, s.store.Holds r l ∧
    ∀ c stretch, since Event.cursor? s.events = some (c, stretch) →
      s.position.Consistent s.cursorInitialized s.sentCursor c stretch l.acked

section Consistent

variable {initialized : Bool} {sent c acked : Nat} {stretch : List Event} {e : Event}
  {p : Position}

theorem Position.Consistent.quiet (h : p.Consistent initialized sent c stretch acked)
    (he : e.Quiet) : p.Consistent initialized sent c (stretch ++ [e]) acked := by
  cases p with
  | selecting =>
    intro hi
    exact ⟨(h hi).1.quiet he, (h hi).2.concat e⟩
  | resuming cursor =>
    obtain ⟨rfl, hw, ho⟩ := h
    exact ⟨rfl, (written_concat_quiet he).trans hw, ho.concat he.ne_reset⟩
  | waking => exact ⟨h.1.quiet he, h.2.concat e⟩
  | draining batch pending =>
    exact ⟨h.1.quiet he, fun hr => ⟨(h.2 hr).1.concat e, (h.2 hr).2.concat e⟩⟩
  | returned => trivial

theorem Position.Consistent.acknowledge (h : p.Consistent initialized sent c stretch acked)
    (k : Nat) :
    p.Consistent initialized sent c (stretch ++ [.acknowledged k]) (max acked k) := by
  have he : (Event.acknowledged k).Quiet := by
    intro m hm
    cases hm
  cases p with
  | selecting =>
    intro hi
    exact ⟨(h hi).1.quiet he, (h hi).2.acknowledge k⟩
  | resuming cursor => exact h.quiet he
  | waking => exact ⟨h.1.quiet he, h.2.acknowledge k⟩
  | draining batch pending =>
    exact ⟨h.1.quiet he, fun hr => ⟨(h.2 hr).1.acknowledge k, (h.2 hr).2.concat _⟩⟩
  | returned => trivial

end Consistent

/-- A step that leaves the history as it is. -/
theorem Connection.Sound.silent {r : PeerIdentity} {s s' : Connection} (h : s.Sound r)
    (hevents : s'.events = s.events)
    (hstep : ∀ l, s.store.Holds r l → ∃ l', s'.store.Holds r l' ∧ ∀ c stretch,
      s.position.Consistent s.cursorInitialized s.sentCursor c stretch l.acked →
      s'.position.Consistent s'.cursorInitialized s'.sentCursor c stretch l'.acked) :
    s'.Sound r := by
  obtain ⟨l, hl, hc⟩ := h.consistent
  obtain ⟨l', hl', hkeep⟩ := hstep l hl
  refine ⟨hevents ▸ h.lawful, l', hl', fun c stretch hs => ?_⟩
  rw [hevents] at hs
  exact hkeep c stretch (hc c stretch hs)

/-- A step that adds an event other than a resume cursor. -/
theorem Connection.Sound.event {r : PeerIdentity} {s s' : Connection} {e : Event} (h : s.Sound r)
    (hevents : s'.events = s.events ++ [e]) (he : e.cursor? = none)
    (hstep : ∀ l, s.store.Holds r l → ∃ l', s'.store.Holds r l' ∧ ∀ c stretch,
      s.position.Consistent s.cursorInitialized s.sentCursor c stretch l.acked →
      Allowed c stretch e ∧ s'.position.Consistent s'.cursorInitialized s'.sentCursor c
        (stretch ++ [e]) l'.acked) :
    s'.Sound r := by
  obtain ⟨l, hl, hc⟩ := h.consistent
  obtain ⟨l', hl', hkeep⟩ := hstep l hl
  refine ⟨?_, l', hl', fun c stretch hs => ?_⟩
  · rw [hevents]
    exact h.lawful.concat fun c stretch hs => (hkeep c stretch (hc c stretch hs)).1
  · rw [hevents, since_concat Event.cursor? _ he] at hs
    obtain ⟨⟨c', stretch'⟩, hs', heq⟩ := Option.map_eq_some_iff.mp hs
    cases heq
    exact (hkeep c' stretch' (hc c' stretch' hs')).2

/-- A write beside the durable stream. -/
theorem Connection.Sound.quiet {r : PeerIdentity} {s s' : Connection} {m : ServerMessage}
    (h : s.Sound r) (hm : m.durable = false) (hevents : s'.events = s.events ++ [.wrote m])
    (hstore : s'.store = s.store) (hposition : s'.position = s.position)
    (hinit : s'.cursorInitialized = s.cursorInitialized) (hsent : s'.sentCursor = s.sentCursor) :
    s'.Sound r := by
  have he : (Event.wrote m).Quiet := by
    intro m' hm'
    cases hm'
    exact hm
  refine h.event hevents rfl fun l hl => ⟨l, hstore ▸ hl, fun c stretch hc => ?_⟩
  rw [hposition, hinit, hsent]
  exact ⟨he.allowed (by simp) c stretch, hc.quiet he⟩

/-- A call that is not of this connection leaves the acknowledged mark of `r`. -/
theorem perform_other {s : DeliveryStore} {r : PeerIdentity} {call : Call} {l : Log Bytes}
    (hcall : ¬ call.ofConnection r) (hl : s.Holds r l) :
    ∃ l', (perform s call).1.Holds r l' ∧ l'.acked = l.acked := by
  by_cases hr : call.recipient = some r
  · cases call with
    | register device => cases hr
    | append recipient envelope expiresAt now =>
      cases hr
      simp only [perform]
      cases happ : appendDelivery s r envelope expiresAt now with
      | error e => exact ⟨l, hl, rfl⟩
      | ok result =>
        obtain ⟨id, s'⟩ := result
        obtain ⟨q, l', rfl, hq, -, -, ha⟩ := appendDelivery_ok hl happ
        exact ⟨l', DeliveryStore.holds_put hq, ha⟩
    | resume => exact absurd (Option.some.inj hr) hcall
    | read => exact absurd (Option.some.inj hr) hcall
    | acknowledge => exact absurd (Option.some.inj hr) hcall
  · refine ⟨l, ?_, rfl⟩
    rw [DeliveryStore.Holds, perform_queues_ne hr]
    exact hl

/-- What a queue holds past `sent` follows it without a hidden hole. -/
theorem PendingAfter.select {q : Queue} {l : Log Bytes} {c sent limit : Nat} {stretch : List Event}
    (hq : q.Represents l) (hlimit : 0 < limit) (hlost : l.lost ≤ sent) (hc : c ≤ sent)
    (hmark : MarkExplained c stretch l.acked) :
    PendingAfter stretch sent (q.select sent limit) := by
  refine ⟨q.select_ordered _ _, fun d hd => (hq.mem_select hd).1, fun d hd n hs hn => ?_⟩
  by_cases hret : n ∈ l.retained
  · exact Or.inl (hq.select_complete hlimit hret hs (by have := hq.le_scanned hd; omega))
  · have hle := (hq.mem_select hd).2.1
    exact Or.inr (hmark n (by omega) (l.acked_of_missing (by omega) (by omega) hret))

/-- After a committed read the writer drains a batch that follows `sent`. -/
theorem Consistent.read {r : PeerIdentity} {st st' : DeliveryStore} {l : Log Bytes} {sent : Nat}
    {now : Time} {batch : DeliveryBatch} (hl : st.Holds r l)
    (h : readDeliveries st r sent now deliveryBatchSize = .ok (batch, st')) :
    ∃ l', st'.Holds r l' ∧ ∀ c stretch initialized,
      Covers c stretch sent → MarkExplained c stretch l.acked →
      (Position.draining batch batch.deliveries).Consistent initialized sent c stretch l'.acked := by
  obtain ⟨q, l', rfl, hq, -, hack, -, hlimit, hcase⟩ := readDeliveries_ok hl h
  refine ⟨l', DeliveryStore.holds_put hq, fun c stretch initialized hcov hmark => ⟨hcov, ?_⟩⟩
  intro hreset
  rcases hcase with ⟨htrue, -⟩ | ⟨-, hdeliveries, hlost⟩
  · rw [hreset] at htrue
    cases htrue
  · rw [hack, hdeliveries]
    exact ⟨hmark, PendingAfter.select hq hlimit hlost hcov.le (hack ▸ hmark)⟩

/-- A batch with nothing past the cursor, short of the high-water and without a reset, means that
the client acknowledged a number it was not sent. -/
theorem acknowledged_of_gap {r : PeerIdentity} {st st' : DeliveryStore} {l : Log Bytes}
    {sent c : Nat} {now : Time} {next : DeliveryBatch} {stretch : List Event} (hl : st.Holds r l)
    (h : readDeliveries st r sent now deliveryBatchSize = .ok (next, st'))
    (hgap : next.unreportedGap sent) (hcov : Covers c stretch sent)
    (hmark : MarkExplained c stretch l.acked) :
    ∃ k, .acknowledged k ∈ stretch ∧ k ∉ written stretch := by
  obtain ⟨q, l', -, hq, hw, hack, hhigh, hlimit, hcase⟩ := readDeliveries_ok hl h
  obtain ⟨hempty, hpast, hreset⟩ := hgap
  rcases hcase with ⟨htrue, -⟩ | ⟨-, hdeliveries, hlost⟩
  · rw [hreset] at htrue
    cases htrue
  · have hnil : q.select sent deliveryBatchSize = [] :=
      List.eq_nil_of_length_eq_zero (hdeliveries ▸ hempty)
    have hmiss : sent + 1 ∉ l'.retained := by
      intro hret
      have hmem := hq.select_complete hlimit hret (Nat.lt_succ_self sent) (by
        simp only [Int.toNat_natCast, hnil, scanned, hw, ← hhigh]
        exact hpast)
      simp [hnil] at hmem
    have hacked := l'.acked_of_missing (by omega) (by rw [hw, ← hhigh]; exact hpast) hmiss
    obtain ⟨k, hk, hle⟩ := hmark (sent + 1) (by have := hcov.le; omega) (hack ▸ hacked)
    refine ⟨k, hk, fun hwritten => ?_⟩
    have := hcov.written_le k hwritten
    omega

/-- After a committed resume the writer drains a batch that follows its cursor. -/
theorem Consistent.resume {r : PeerIdentity} {st st' : DeliveryStore} {l : Log Bytes}
    {cursor : Nat} {now : Time} {batch : DeliveryBatch} (hl : st.Holds r l)
    (h : resumeDeliveries st r cursor now deliveryBatchSize = .ok (batch, st')) :
    ∃ l', st'.Holds r l' ∧ ∀ stretch initialized, written stretch = [] → StreamOpen stretch →
      (Position.draining batch batch.deliveries).Consistent initialized cursor cursor stretch
        l'.acked := by
  obtain ⟨q, l', rfl, hq, -, -, -, hlimit, hcase⟩ := resumeDeliveries_ok hl h
  refine ⟨l', DeliveryStore.holds_put hq, fun stretch initialized hw ho => ⟨.start hw ho, ?_⟩⟩
  intro hreset
  rcases hcase with ⟨htrue, -⟩ | ⟨-, hdeliveries, hack, hlost, -⟩
  · rw [hreset] at htrue
    cases htrue
  · have hmark : MarkExplained cursor stretch l'.acked := by
      intro n hc hn
      omega
    rw [hdeliveries]
    exact ⟨hmark, PendingAfter.select hq hlimit hlost (Nat.le_refl _) hmark⟩

/-- Every step keeps the connection sound. -/
theorem Step.sound {r : PeerIdentity} {s s' : Connection} (hstep : Step r s s') (h : s.Sound r) :
    s'.Sound r := by
  cases hstep with
  | ping hp => exact h.quiet rfl rfl rfl rfl rfl rfl
  | heartbeat hp hb => exact h.quiet rfl rfl rfl rfl rfl rfl
  | immediate frame rest hp hi => exact h.quiet rfl rfl rfl rfl rfl rfl
  | takeUp cursor hp hr =>
    obtain ⟨l, hl, -⟩ := h.consistent
    refine ⟨h.lawful.concat fun c stretch _ => trivial, l, hl, fun c stretch hs => ?_⟩
    have hmark := since_concat_mark Event.cursor? s.events (e := .tookUp cursor) rfl
    cases hs.symm.trans hmark
    exact ⟨rfl, rfl, by simp [StreamOpen]⟩
  | resume cursor now batch store hp hcall =>
    refine h.silent rfl fun l hl => ?_
    obtain ⟨l', hl', hdrain⟩ := Consistent.resume hl hcall
    refine ⟨l', hl', fun c stretch hc => ?_⟩
    rw [hp] at hc
    obtain ⟨rfl, hw, ho⟩ := hc
    exact hdrain stretch true hw ho
  | wake hp hd =>
    refine h.silent rfl fun l hl => ⟨l, hl, fun c stretch hc => ?_⟩
    rw [hp] at hc
    cases hi : s.cursorInitialized with
    | true => exact hc hi
    | false => simp [Position.Consistent]
  | readWoken now batch store hp hcall =>
    refine h.silent rfl fun l hl => ?_
    obtain ⟨l', hl', hdrain⟩ := Consistent.read hl hcall
    refine ⟨l', hl', fun c stretch hc => ?_⟩
    rw [hp] at hc
    exact hdrain c stretch _ hc.1 hc.2
  | reset batch pending encoded hp hr he =>
    refine h.event rfl rfl fun l hl => ⟨l, hl, fun c stretch hc => ?_⟩
    rw [hp] at hc
    exact ⟨hc.1.streamOpen, by simp [Connection.send, Position.Consistent]⟩
  | deliver batch delivery pending encoded hp hr he =>
    refine h.event rfl rfl fun l hl => ⟨l, hl, fun c stretch hc => ?_⟩
    rw [hp] at hc
    obtain ⟨hcov, hrest⟩ := hc
    obtain ⟨hmark, hpending⟩ := hrest hr
    obtain ⟨hallowed, hcov'⟩ := hcov.deliver hpending
    exact ⟨hallowed, hcov', fun _ => ⟨hmark.concat _, hpending.deliver _⟩⟩
  | caughtUp batch encoded hp hr hs he =>
    refine h.event rfl rfl fun l hl => ⟨l, hl, fun c stretch hc => ?_⟩
    rw [hp] at hc
    obtain ⟨hcov, hrest⟩ := hc
    have hle : batch.highWater ≤ s.sentCursor := hs
    have hallowed : Allowed c stretch (.wrote (.caughtUp batch.highWater)) :=
      ⟨hcov.streamOpen, fun n hc hn => hcov.accounted n hc (hn.trans hle)⟩
    refine ⟨hallowed, fun _ => ⟨hcov.caughtUp _, (hrest hr).1.concat _⟩⟩
  | readNext batch next now store hp hr hs hcall hgap =>
    refine h.silent rfl fun l hl => ?_
    obtain ⟨l', hl', hdrain⟩ := Consistent.read hl hcall
    refine ⟨l', hl', fun c stretch hc => ?_⟩
    rw [hp] at hc
    exact hdrain c stretch _ hc.1 (hc.2 hr).1
  | gap batch next now store hp hr hs hcall hgap =>
    refine h.event rfl rfl fun l hl => ?_
    obtain ⟨l', hl', -⟩ := Consistent.read hl hcall
    refine ⟨l', hl', fun c stretch hc => ⟨?_, trivial⟩⟩
    rw [hp] at hc
    exact acknowledged_of_gap hl hcall hgap hc.1 (hc.2 hr).1
  | fail => exact h.silent rfl fun l hl => ⟨l, hl, fun _ _ _ => trivial⟩
  | requestResume cursor hr => exact h.silent rfl fun l hl => ⟨l, hl, fun _ _ hc => hc⟩
  | requestHeartbeat hb => exact h.silent rfl fun l hl => ⟨l, hl, fun _ _ hc => hc⟩
  | acknowledge cursor store hcall =>
    refine h.event rfl rfl fun l hl => ?_
    obtain ⟨q, l', rfl, hq, -, hack, -⟩ := acknowledgeDelivery_ok hl hcall
    refine ⟨l', DeliveryStore.holds_put hq, fun c stretch hc => ⟨trivial, ?_⟩⟩
    rw [hack]
    exact hc.acknowledge cursor
  | other call hcall =>
    refine h.silent rfl fun l hl => ?_
    obtain ⟨l', hl', hack⟩ := perform_other hcall hl
    refine ⟨l', hl', fun c stretch hc => ?_⟩
    rw [hack]
    exact hc
  | signal => exact h.silent rfl fun l hl => ⟨l, hl, fun _ _ hc => hc⟩
  | route frame hr => exact h.silent rfl fun l hl => ⟨l, hl, fun _ _ hc => hc⟩

theorem Connection.Reaches.sound {calls : List Call} {r : PeerIdentity} {s : Connection}
    (h : s.Reaches calls r) : s.Sound r := by
  induction h with
  | refl =>
    obtain ⟨l, hl, -⟩ := run_tracks calls r
    exact ⟨lawful_nil, l, hl, fun c stretch hs => by cases hs⟩
  | tail _ hstep ih => exact hstep.sound ih

/-- The stretch of a lawful history after a resume cursor, up to the next one, is lawful for that
cursor. -/
theorem stretch_lawful {history before stretch rest : List Event} {c : Nat}
    (h : Lawful AllowedAfter history) (heq : history = before ++ .tookUp c :: (stretch ++ rest))
    (hs : ∀ c', .tookUp c' ∉ stretch) : Lawful (Allowed c) stretch := by
  rintro earlier e later rfl
  refine h (before ++ .tookUp c :: earlier) e (later ++ rest) (by simp [heq]) c earlier ?_
  refine since_of_mark Event.cursor? before rfl fun x hx => ?_
  cases x with
  | tookUp c' => exact absurd (List.mem_append_left _ hx) (hs c')
  | _ => rfl

theorem written_ordered {stretch : List Event} {c : Nat}
    (h : Lawful (Allowed c) stretch) :
    (written stretch).Pairwise (· < ·) ∧ ∀ id ∈ written stretch, c < id := by
  induction stretch using List.reverseRecOn with
  | nil => simp [written]
  | append_singleton stretch e ih =>
    obtain ⟨hordered, hpast⟩ := ih h.left
    cases hid : e.delivery? with
    | none =>
      have hsame : written (stretch ++ [e]) = written stretch := by simp [written, hid]
      rw [hsame]
      exact ⟨hordered, hpast⟩
    | some id =>
      have hadd : written (stretch ++ [e]) = written stretch ++ [id] := by simp [written, hid]
      have he : ∃ envelope, e = .wrote (.delivery id envelope) := by
        unfold Event.delivery? at hid
        split at hid
        · cases hid
          exact ⟨_, rfl⟩
        · cases hid
      obtain ⟨envelope, rfl⟩ := he
      obtain ⟨-, hc, hlt, -⟩ := h.last
      rw [hadd, List.pairwise_append]
      refine ⟨⟨hordered, by simp, fun m hm n hn => ?_⟩, fun m hm => ?_⟩
      · rw [List.mem_singleton.mp hn]
        exact hlt m hm
      · rcases List.mem_append.mp hm with hm | hm
        · exact hpast m hm
        · rw [List.mem_singleton.mp hm]
          exact hc

/-- What the client may conclude from the events between the resume cursor `c` and the next one.
An event is judged by the events before it. -/
structure HidesNoHole (c : Nat) (stretch : List Event) : Prop where
  increasing : (written stretch).Pairwise (· < ·)
  past_cursor : ∀ id ∈ written stretch, c < id
  delivery : ∀ earlier id envelope later,
    stretch = earlier ++ .wrote (.delivery id envelope) :: later →
    ∀ n, c < n → n < id → n ∈ written earlier ∨ AcknowledgedIn earlier n
  caughtUp : ∀ earlier highWater later,
    stretch = earlier ++ .wrote (.caughtUp highWater) :: later →
    ∀ n, c < n → n ≤ highWater → n ∈ written earlier ∨ AcknowledgedIn earlier n
  reset_ends : ∀ earlier highWater later,
    stretch = earlier ++ .wrote (.resetRequired highWater) :: later →
    ∀ m, .wrote m ∈ later → m.durable = false
  gap_acknowledged : ∀ earlier later, stretch = earlier ++ .unreportedGap :: later →
    ∃ k, .acknowledged k ∈ earlier ∧ k ∉ written earlier

/-- Nothing of the durable stream follows an `SNR1`. -/
theorem not_durable_after_reset {stretch earlier later : List Event} {c highWater : Nat}
    (h : Lawful (Allowed c) stretch)
    (heq : stretch = earlier ++ .wrote (.resetRequired highWater) :: later) {m : ServerMessage}
    (hm : .wrote m ∈ later) : m.durable = false := by
  obtain ⟨first, second, rfl⟩ := List.append_of_mem hm
  have hallowed := h (earlier ++ .wrote (.resetRequired highWater) :: first) (.wrote m) second
    (by simp [heq])
  have hclosed : ¬ StreamOpen (earlier ++ .wrote (.resetRequired highWater) :: first) :=
    fun hopen => hopen highWater (by simp)
  cases m with
  | delivery id envelope => exact absurd hallowed.1 hclosed
  | caughtUp high => exact absurd hallowed.1 hclosed
  | resetRequired high => exact absurd hallowed hclosed
  | _ => rfl

/-- In every interleaving, whatever the store held before: between a resume cursor and the next one
the writer hides no hole from the client. -/
theorem writer_hides_no_hole {calls : List Call} {r : PeerIdentity} {s : Connection}
    (h : s.Reaches calls r) {before stretch rest : List Event} {c : Nat}
    (hevents : s.events = before ++ .tookUp c :: (stretch ++ rest))
    (hnext : ∀ c', .tookUp c' ∉ stretch) : HidesNoHole c stretch := by
  have hlawful := stretch_lawful h.sound.lawful hevents hnext
  obtain ⟨hordered, hpast⟩ := written_ordered hlawful
  refine ⟨hordered, hpast, ?_, ?_, ?_, ?_⟩
  · intro earlier id envelope later heq
    exact (hlawful _ _ _ heq).2.2.2
  · intro earlier highWater later heq
    exact (hlawful _ _ _ heq).2
  · intro earlier highWater later heq m hm
    exact not_durable_after_reset hlawful heq hm
  · intro earlier later heq
    exact hlawful _ _ _ heq

/-- An envelope of the least size. -/
def sampleEnvelope : Bytes :=
  [0x53, 0x4e, 0x45, 0x31, 0x53, 0x4e, 0x48, 0x31, 0, 1, 0, 0] ++ List.replicate 128 1 ++
    [0, 0, 0, 0, 0, 0, 0, 1] ++ List.replicate 15 0 ++ [1] ++ List.replicate 65 4 ++
    [0, 0, 0, 16] ++ List.replicate 16 0

/-- A device is registered, and one envelope is queued for it. -/
def sampleCalls : List Call :=
  [.register sampleDevice, .append sampleDevice sampleEnvelope ⟨1000000000⟩ ⟨0⟩]

theorem sample_encoded : RelayDelivery.encodeDelivery 1 sampleEnvelope =
    .ok (RelayDelivery.deliveryMagic ++ toBigEndian 8 1 ++ sampleEnvelope) := by
  decide +kernel

set_option maxRecDepth 8000 in
theorem sample_resumed : ∃ st, resumeDeliveries (store.run .empty sampleCalls) sampleDevice 0 ⟨0⟩
    deliveryBatchSize = .ok (⟨1, false, [⟨1, sampleEnvelope⟩]⟩, st) :=
  ⟨_, rfl⟩

set_option maxRecDepth 8000 in
theorem sample_reached : ∃ s : Connection, s.Reaches sampleCalls sampleDevice ∧
    s.events = [.tookUp 0, .wrote (.delivery 1 sampleEnvelope), .wrote (.caughtUp 1)] := by
  obtain ⟨st, hresume⟩ := sample_resumed
  let start : Connection := .start (store.run .empty sampleCalls)
  have started : start.Reaches sampleCalls sampleDevice := .refl
  have resumed := ((started.tail (.requestResume _ 0 rfl)).tail (.takeUp _ 0 rfl rfl)).tail
    (.resume _ 0 ⟨0⟩ _ st rfl hresume)
  have delivered := resumed.tail (.deliver _ _ _ _ _ rfl rfl sample_encoded)
  exact ⟨_, delivered.tail (.caughtUp _ _ _ rfl rfl (Nat.le_refl 1) rfl), rfl⟩

/-- A client that resumes from 0 is sent the queued envelope and the caught-up marker. -/
theorem writer_hides_no_hole_sample : ∃ s : Connection, s.Reaches sampleCalls sampleDevice ∧
    s.events = [.tookUp 0, .wrote (.delivery 1 sampleEnvelope), .wrote (.caughtUp 1)] ∧
    HidesNoHole 0 [.wrote (.delivery 1 sampleEnvelope), .wrote (.caughtUp 1)] := by
  obtain ⟨s, hreach, hevents⟩ := sample_reached
  have hsplit : s.events = [] ++ .tookUp 0 ::
      ([.wrote (.delivery 1 sampleEnvelope), .wrote (.caughtUp 1)] ++ []) := hevents
  exact ⟨s, hreach, hevents, writer_hides_no_hole hreach hsplit (by simp)⟩

end SevenMirror.Relay
