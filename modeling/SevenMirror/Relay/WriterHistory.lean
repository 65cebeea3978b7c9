import SevenMirror.Relay.Writer
import SevenMirror.Lib.History

/-! What the history of a connection shows.  Since the latest resume cursor the writer has accounted
for every number up to `sentCursor`: it wrote the number, or the client acknowledged it. -/

namespace SevenMirror.Relay

open Lib

def Event.cursor? : Event → Option Nat
  | tookUp cursor => some cursor
  | _ => none

/-- The number of an `SND1`. -/
def Event.delivery? : Event → Option Nat
  | wrote (.delivery id _) => some id
  | _ => none

/-- The numbers of the `SND1` messages, in the order they were written. -/
def written (events : List Event) : List Nat := events.filterMap Event.delivery?

/-- The client acknowledged `n`. -/
def AcknowledgedIn (events : List Event) (n : Nat) : Prop :=
  ∃ k, .acknowledged k ∈ events ∧ n ≤ k

def Accounted (events : List Event) (n : Nat) : Prop :=
  n ∈ written events ∨ AcknowledgedIn events n

/-- No `SNR1` has ended the durable stream. -/
def StreamOpen (events : List Event) : Prop := ∀ h, .wrote (.resetRequired h) ∉ events

/-- The event is no message of the durable stream. -/
def Event.Quiet (e : Event) : Prop := ∀ m, e = .wrote m → m.durable = false

section Events

variable {events : List Event} {e : Event} {n : Nat}

theorem mem_written : n ∈ written events ↔ ∃ envelope, .wrote (.delivery n envelope) ∈ events := by
  unfold written
  rw [List.mem_filterMap]
  constructor
  · rintro ⟨e, he, hid⟩
    unfold Event.delivery? at hid
    split at hid
    · cases hid
      exact ⟨_, he⟩
    · cases hid
  · rintro ⟨envelope, he⟩
    exact ⟨_, he, rfl⟩

theorem written_concat_quiet (he : e.Quiet) : written (events ++ [e]) = written events := by
  have hnone : e.delivery? = none := by
    unfold Event.delivery?
    split
    · exact absurd (he _ rfl) (by simp [ServerMessage.durable])
    · rfl
  simp [written, hnone]

theorem written_concat_delivery (id : Nat) (envelope : Bytes) :
    written (events ++ [.wrote (.delivery id envelope)]) = written events ++ [id] := by
  simp [written, Event.delivery?]

theorem AcknowledgedIn.concat (h : AcknowledgedIn events n) (e : Event) :
    AcknowledgedIn (events ++ [e]) n := by
  obtain ⟨k, hk, hn⟩ := h
  exact ⟨k, List.mem_append_left _ hk, hn⟩

theorem Accounted.concat (h : Accounted events n) (e : Event) : Accounted (events ++ [e]) n := by
  rcases h with hw | ha
  · obtain ⟨envelope, hm⟩ := mem_written.mp hw
    exact Or.inl (mem_written.mpr ⟨envelope, List.mem_append_left _ hm⟩)
  · exact Or.inr (ha.concat e)

theorem StreamOpen.concat (h : StreamOpen events) (he : ∀ h, e ≠ .wrote (.resetRequired h)) :
    StreamOpen (events ++ [e]) := by
  intro high hm
  rcases List.mem_append.mp hm with hm | hm
  · exact h high hm
  · exact he high (List.mem_singleton.mp hm).symm

theorem Event.Quiet.ne_reset (he : e.Quiet) : ∀ h, e ≠ .wrote (.resetRequired h) := by
  rintro h rfl
  exact absurd (he _ rfl) (by simp [ServerMessage.durable])

end Events

/-- What may follow the events `earlier` since the resume cursor `c`. -/
def Allowed (c : Nat) (earlier : List Event) : Event → Prop
  | .wrote (.delivery id _) =>
    StreamOpen earlier ∧ c < id ∧ (∀ m ∈ written earlier, m < id) ∧
      ∀ n, c < n → n < id → Accounted earlier n
  | .wrote (.caughtUp highWater) =>
    StreamOpen earlier ∧ ∀ n, c < n → n ≤ highWater → Accounted earlier n
  | .wrote (.resetRequired _) => StreamOpen earlier
  | .unreportedGap => ∃ k, .acknowledged k ∈ earlier ∧ k ∉ written earlier
  | _ => True

/-- What may follow a history: what its latest resume cursor allows. -/
def AllowedAfter (history : List Event) (e : Event) : Prop :=
  ∀ c stretch, since Event.cursor? history = some (c, stretch) → Allowed c stretch e

theorem Event.Quiet.allowed {e : Event} (he : e.Quiet) (hgap : e ≠ .unreportedGap) (c : Nat)
    (earlier : List Event) : Allowed c earlier e := by
  unfold Allowed
  split
  · exact absurd (he _ rfl) (by simp [ServerMessage.durable])
  · exact absurd (he _ rfl) (by simp [ServerMessage.durable])
  · exact absurd (he _ rfl) (by simp [ServerMessage.durable])
  · exact absurd rfl hgap
  · trivial

/-- The stream since `c` has come to `sent`. -/
structure Covers (c : Nat) (stretch : List Event) (sent : Nat) : Prop where
  streamOpen : StreamOpen stretch
  le : c ≤ sent
  written_le : ∀ m ∈ written stretch, m ≤ sent
  accounted : ∀ n, c < n → n ≤ sent → Accounted stretch n

/-- The store's acknowledged mark is past `c` only as far as the client has moved it since. -/
def MarkExplained (c : Nat) (stretch : List Event) (acked : Nat) : Prop :=
  ∀ n, c < n → n ≤ acked → AcknowledgedIn stretch n

/-- The deliveries still to write follow `sent` without a hole the client did not make. -/
structure PendingAfter (stretch : List Event) (sent : Nat) (pending : List StoredDelivery) :
    Prop where
  ordered : (pending.map (·.id)).Pairwise (· < ·)
  past : ∀ d ∈ pending, sent < d.id
  missing : ∀ d ∈ pending, ∀ n, sent < n → n < d.id →
    n ∈ pending.map (·.id) ∨ AcknowledgedIn stretch n

section Stretch

variable {c sent acked : Nat} {stretch : List Event} {e : Event}

theorem Covers.start (hw : written stretch = []) (ho : StreamOpen stretch) : Covers c stretch c where
  streamOpen := ho
  le := Nat.le_refl c
  written_le := by simp [hw]
  accounted := by intros; omega

theorem Covers.quiet (h : Covers c stretch sent) (he : e.Quiet) : Covers c (stretch ++ [e]) sent where
  streamOpen := h.streamOpen.concat he.ne_reset
  le := h.le
  written_le := by
    rw [written_concat_quiet he]
    exact h.written_le
  accounted := fun n hc hn => (h.accounted n hc hn).concat e

theorem MarkExplained.concat (h : MarkExplained c stretch acked) (e : Event) :
    MarkExplained c (stretch ++ [e]) acked :=
  fun n hc hn => (h n hc hn).concat e

/-- An acknowledgement explains the mark that it moves. -/
theorem MarkExplained.acknowledge (h : MarkExplained c stretch acked) (k : Nat) :
    MarkExplained c (stretch ++ [.acknowledged k]) (max acked k) := by
  intro n hc hn
  by_cases hk : n ≤ k
  · exact ⟨k, by simp, hk⟩
  · exact (h n hc (by omega)).concat _

theorem PendingAfter.concat {pending : List StoredDelivery} (h : PendingAfter stretch sent pending)
    (e : Event) : PendingAfter (stretch ++ [e]) sent pending where
  ordered := h.ordered
  past := h.past
  missing := fun d hd n hs hn => (h.missing d hd n hs hn).imp_right (·.concat e)

/-- Everything between `sent` and the first delivery still to write was acknowledged. -/
theorem PendingAfter.before_first {d : StoredDelivery} {pending : List StoredDelivery}
    (h : PendingAfter stretch sent (d :: pending)) {n : Nat} (hs : sent < n) (hn : n < d.id) :
    AcknowledgedIn stretch n := by
  rcases h.missing d List.mem_cons_self n hs hn with hmem | hack
  · have hfirst := h.ordered
    simp only [List.map_cons, List.pairwise_cons, List.mem_cons] at hfirst hmem
    rcases hmem with heq | hmem
    · omega
    · have := hfirst.1 n hmem
      omega
  · exact hack

/-- An `SND1` extends the stream to its number. -/
theorem Covers.deliver {d : StoredDelivery} {pending : List StoredDelivery}
    (h : Covers c stretch sent) (hp : PendingAfter stretch sent (d :: pending)) :
    Allowed c stretch (.wrote (.delivery d.id d.envelope)) ∧
      Covers c (stretch ++ [.wrote (.delivery d.id d.envelope)]) d.id := by
  have hpast := hp.past d List.mem_cons_self
  have hle := h.le
  have hacc : ∀ n, c < n → n < d.id → Accounted stretch n := by
    intro n hc hn
    by_cases hs : n ≤ sent
    · exact h.accounted n hc hs
    · exact Or.inr (hp.before_first (by omega) hn)
  have hlt : ∀ m ∈ written stretch, m < d.id := by
    intro m hm
    have := h.written_le m hm
    omega
  refine ⟨⟨h.streamOpen, by omega, hlt, hacc⟩, ?_, by omega, ?_, ?_⟩
  · exact h.streamOpen.concat (by simp)
  · intro m hm
    rw [written_concat_delivery] at hm
    rcases List.mem_append.mp hm with hm | hm
    · exact Nat.le_of_lt (hlt m hm)
    · exact Nat.le_of_eq (List.mem_singleton.mp hm)
  · intro n hc hn
    by_cases hlast : n = d.id
    · left
      rw [written_concat_delivery, hlast]
      simp
    · exact (hacc n hc (by omega)).concat _

theorem Covers.caughtUp (h : Covers c stretch sent) (highWater : Nat) :
    Covers c (stretch ++ [.wrote (.caughtUp highWater)]) sent where
  streamOpen := h.streamOpen.concat (by simp)
  le := h.le
  written_le := by simpa [written, Event.delivery?] using h.written_le
  accounted := fun n hc hn => (h.accounted n hc hn).concat _

theorem PendingAfter.deliver {d : StoredDelivery} {pending : List StoredDelivery} (e : Event)
    (h : PendingAfter stretch sent (d :: pending)) :
    PendingAfter (stretch ++ [e]) d.id pending := by
  have hordered := h.ordered
  rw [List.map_cons, List.pairwise_cons] at hordered
  obtain ⟨hfirst, hrest⟩ := hordered
  have hpast := h.past d List.mem_cons_self
  refine ⟨hrest, fun x hx => hfirst x.id (List.mem_map_of_mem hx), fun x hx n hd hn => ?_⟩
  rcases h.missing x (List.mem_cons_of_mem _ hx) n (by omega) hn with hmem | hack
  · rw [List.map_cons, List.mem_cons] at hmem
    rcases hmem with heq | hmem
    · omega
    · exact Or.inl hmem
  · exact Or.inr (hack.concat e)

end Stretch

end SevenMirror.Relay
