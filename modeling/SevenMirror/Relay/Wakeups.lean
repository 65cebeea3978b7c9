import SevenMirror.Relay.WriterRun
import SevenMirror.Relay.HubRun

/-! `RouteDurable` of `internal/relay/hub.go` beside the connections of its recipient.  A call
commits its append, and later looks up the slot of the recipient and wakes the instance there.  In
between the slot may change hands, and the writers may resume, drain, and reset. -/

namespace SevenMirror.Relay

open Lib

/-- The number of the last delivery that was appended for a recipient. -/
def DeliveryStore.highWater (s : DeliveryStore) (r : PeerIdentity) : Nat :=
  ((s.queues r).map (·.next - 1)).getD 0

/-- Where a call of `RouteDurable` stands: before its append, between the commit and the wake, or
past both. -/
inductive Route
  | calling
  | appended
  | returned
deriving DecidableEq, Repr

/-- The hub with the goroutines that change its slots, the store, the goroutines of each instance,
and the calls of `RouteDurable` to one recipient.  A connection finds the store of the relay, not
the one in its record. -/
structure Relaying where
  hub : Threads Hub Goroutine
  store : DeliveryStore
  connections : Nat → Connection
  routes : Nat → Route

def Relaying.start (store : DeliveryStore) : Relaying where
  hub := Hub.start
  store := store
  connections := fun _ => .start store
  routes := fun _ => .calling

/-- What the goroutines of instance `x` find. -/
def Relaying.connection (s : Relaying) (x : Nat) : Connection :=
  { s.connections x with store := s.store }

def Relaying.setConnection (s : Relaying) (x : Nat) (c : Connection) : Relaying :=
  { s with store := c.store, connections := Function.update s.connections x c }

/-- The lookup and the wake, under the lock of the hub.  A token that is there already stays. -/
def Relaying.wake (s : Relaying) (r : PeerIdentity) : Relaying :=
  match s.hub.shared.devices r with
  | none => s
  | some x =>
    if (s.hub.shared.sessions x).cancelled then s
    else s.setConnection x { s.connection x with durableWake := true }

/-- The goroutines of an instance serve `r` once its `Register` has returned, and they neither wake
themselves nor append. -/
inductive RelayStep (r : PeerIdentity) : Relaying → Relaying → Prop
  | hub (s : Relaying) (hub' : Threads Hub Goroutine) : Threads.Step HubStep s.hub hub' →
      RelayStep r s { s with hub := hub' }
  | serve (s : Relaying) (t x : Nat) (credentialVersion : Int) (c : Connection) :
      s.hub.thread t = .registered ⟨r, credentialVersion, some x⟩ → x < s.hub.shared.made →
      Step r (s.connection x) c →
      (c.durableWake = true → (s.connection x).durableWake = true) →
      c.store.highWater r = s.store.highWater r → RelayStep r s (s.setConnection x c)
  | append (s : Relaying) (t id : Nat) (envelope : Bytes) (expiresAt now : Time)
      (store : DeliveryStore) : s.routes t = .calling →
      appendDelivery s.store r envelope expiresAt now = .ok (id, store) →
      RelayStep r s { s with store, routes := Function.update s.routes t .appended }
  | fail (s : Relaying) (t : Nat) : s.routes t = .calling →
      RelayStep r s { s with routes := Function.update s.routes t .returned }
  | wake (s : Relaying) (t : Nat) : s.routes t = .appended →
      RelayStep r s { s.wake r with routes := Function.update s.routes t .returned }

/-- The relay may come to `s`, from the store that `calls` left. -/
def Relaying.Reaches (calls : List Call) (r : PeerIdentity) (s : Relaying) : Prop :=
  Relation.ReflTransGen (RelayStep r) (.start (Relay.store.run .empty calls)) s

/-! ### What the writer has seen -/

/-- The writer has sent all deliveries through `high`, or is to read them yet, or reports a
reset. -/
def Connection.Attends (c : Connection) (high : Nat) : Prop :=
  match c.position with
  | .selecting => c.cursorInitialized = true → high ≤ c.sentCursor
  | .draining batch _ => batch.resetRequired = false → high ≤ batch.highWater
  | .resuming _ | .waking | .returned => True

theorem DeliveryStore.Holds.highWater {s : DeliveryStore} {r : PeerIdentity} {l : Log Bytes}
    (h : s.Holds r l) : s.highWater r = l.written.length := by
  unfold DeliveryStore.Holds at h
  unfold DeliveryStore.highWater
  split at h
  · rename_i q hq
    simp [hq, h.next]
  · rename_i hq
    simp [hq, h, Log.empty]

section Steps

variable {r : PeerIdentity} {c c' : Connection}

theorem Step.holds (hstep : Step r c c') (h : ∃ l, c.store.Holds r l) :
    ∃ l, c'.store.Holds r l := by
  obtain ⟨l, hl⟩ := h
  cases hstep with
  | resume cursor now batch store _ hcall =>
    obtain ⟨q, l', rfl, hq, -⟩ := resumeDeliveries_ok hl hcall
    exact ⟨l', DeliveryStore.holds_put hq⟩
  | readWoken now batch store _ hcall =>
    obtain ⟨q, l', rfl, hq, -⟩ := readDeliveries_ok hl hcall
    exact ⟨l', DeliveryStore.holds_put hq⟩
  | readNext batch next now store _ _ _ hcall =>
    obtain ⟨q, l', rfl, hq, -⟩ := readDeliveries_ok hl hcall
    exact ⟨l', DeliveryStore.holds_put hq⟩
  | gap batch next now store _ _ _ hcall =>
    obtain ⟨q, l', rfl, hq, -⟩ := readDeliveries_ok hl hcall
    exact ⟨l', DeliveryStore.holds_put hq⟩
  | acknowledge cursor store hcall =>
    obtain ⟨q, l', rfl, hq, -⟩ := acknowledgeDelivery_ok hl hcall
    exact ⟨l', DeliveryStore.holds_put hq⟩
  | other call hcall =>
    obtain ⟨l', hl', -⟩ := perform_other hcall hl
    exact ⟨l', hl'⟩
  | _ => exact ⟨l, hl⟩

/-- A step of the connection itself: what it has not seen, it is still to be woken for. -/
theorem Step.attends {high : Nat} (hstep : Step r c c') (hholds : ∃ l, c.store.Holds r l)
    (hhigh : c.store.highWater r = high)
    (h : c.Attends high ∨ c.durableWake = true) : c'.Attends high ∨ c'.durableWake = true := by
  obtain ⟨l, hl⟩ := hholds
  rw [hl.highWater] at hhigh
  have drains {batch : DeliveryBatch} (hbatch : batch.highWater = l.written.length) :
      high ≤ batch.highWater := by omega
  cases hstep with
  | takeUp cursor _ _ => exact Or.inl trivial
  | resume cursor now batch store _ hcall =>
    obtain ⟨-, -, -, -, -, hbatch, -⟩ := resumeDeliveries_ok hl hcall
    exact Or.inl fun _ => drains hbatch
  | wake _ _ =>
    refine Or.inl ?_
    cases c.cursorInitialized <;> simp [Connection.Attends]
  | readWoken now batch store _ hcall =>
    obtain ⟨-, -, -, -, -, -, hbatch, -⟩ := readDeliveries_ok hl hcall
    exact Or.inl fun _ => drains hbatch
  | reset batch pending encoded _ _ _ => exact Or.inl nofun
  | deliver batch delivery pending encoded hposition hreset _ =>
    refine h.imp (fun h => ?_) id
    simp only [Connection.Attends, hposition] at h
    exact h
  | caughtUp batch encoded hposition hreset hsent _ =>
    refine h.imp (fun h _ => ?_) id
    simp only [Connection.Attends, hposition] at h
    exact Nat.le_trans (h hreset) hsent
  | readNext batch next now store _ _ _ hcall _ =>
    obtain ⟨-, -, -, -, -, -, hbatch, -⟩ := readDeliveries_ok hl hcall
    exact Or.inl fun _ => drains hbatch
  | gap => exact Or.inl trivial
  | fail => exact Or.inl trivial
  | signal => exact Or.inr rfl
  | _ => exact h

end Steps

/-! ### Slots -/

theorem retire_live {s : DeviceSession} {reason : SessionRetirement}
    (h : (s.retire reason).1.cancelled = false) : s.cancelled = false := by
  have hretired := (s.retire reason).1.retired (retire_retireOnce s reason)
  rw [h] at hretired
  cases hretired.1

theorem Hub.modify_live {h : Hub} {x y : Nat} {change : DeviceSession → DeviceSession}
    (hchange : ∀ s, (change s).cancelled = false → s.cancelled = false)
    (hlive : ((h.modify x change).sessions y).cancelled = false) :
    (h.sessions y).cancelled = false := by
  by_cases hy : y = x
  · subst hy
    rw [Hub.modify_sessions_self] at hlive
    exact hchange _ hlive
  · rwa [Hub.modify_sessions_ne hy] at hlive

/-- An instance that is live in its slot was so before, or is new. -/
theorem HubStep.live {t : Nat} {h h' : Hub} {g g' : Goroutine} (hstep : HubStep t h g h' g')
    {p : PeerIdentity} {x : Nat} (hslot : h'.devices p = some x)
    (hlive : (h'.sessions x).cancelled = false) :
    h.devices p = some x ∧ (h.sessions x).cancelled = false ∨ x = h.made := by
  cases hstep with
  | register | release | timeout | disconnect | operate | check => exact Or.inl ⟨hslot, hlive⟩
  | attempt identity version n =>
    unfold Hub.attempt at hslot hlive
    split at hslot
    · rename_i hfree
      simp only [hfree] at hlive
      by_cases hx : x = h.made
      · exact Or.inr hx
      · have hp : p ≠ identity := by
          rintro rfl
          simp only [Hub.install, Function.update_self, Option.some.injEq] at hslot
          exact hx hslot.symm
        simp only [Hub.install, Function.update_of_ne hp] at hslot
        simp only [Hub.install, Function.update_of_ne hx] at hlive
        exact Or.inl ⟨hslot, hlive⟩
    · rename_i existing hheld
      simp only [hheld] at hlive
      split at hslot
      · rename_i hstale
        rw [if_pos hstale] at hlive
        exact Or.inl ⟨hslot, hlive⟩
      · rename_i hstale
        rw [if_neg hstale] at hlive
        exact Or.inl ⟨hslot, Hub.modify_live (fun _ => retire_live) hlive⟩
  | observe observed =>
    unfold Hub.observe at hslot hlive
    split at hslot
    · rename_i hfree
      simp only [hfree] at hlive
      exact Or.inl ⟨hslot, hlive⟩
    · rename_i session hheld
      simp only [hheld] at hlive
      split at hslot
      · rename_i hother
        rw [if_pos hother] at hlive
        exact Or.inl ⟨hslot, hlive⟩
      · rename_i hother
        rw [if_neg hother] at hlive
        exact Or.inl ⟨hslot, Hub.modify_live (fun _ => retire_live) hlive⟩
  | delete peer session initiated =>
    rw [Hub.delete_sessions] at hlive
    exact Or.inl ⟨(Hub.delete_devices.mp hslot).1, hlive⟩
  | lock | markReleased | unlock | rLock | refuse | finish =>
    refine Or.inl ⟨hslot, Hub.modify_live ?_ hlive⟩
    exact fun _ hs => hs

theorem HubStep.made_le {t : Nat} {h h' : Hub} {g g' : Goroutine} (hstep : HubStep t h g h' g') :
    h.made ≤ h'.made := by
  cases hstep with
  | attempt identity version n =>
    unfold Hub.attempt
    split
    · exact Nat.le_succ _
    · split <;> exact Nat.le_refl _
  | observe observed =>
    unfold Hub.observe
    split
    · exact Nat.le_refl _
    · split <;> exact Nat.le_refl _
  | delete peer session initiated => rw [Hub.delete_made]
  | _ => exact Nat.le_refl _

/-! ### Every interleaving -/

/-- A live instance has seen what is stored, or is woken, or is to be; an instance that is still to be
made has no cursor. -/
structure Relaying.Sound (r : PeerIdentity) (s : Relaying) : Prop where
  holds : ∃ l, s.store.Holds r l
  unmade : ∀ x, s.hub.shared.made ≤ x →
    (s.connections x).position = .selecting ∧ (s.connections x).cursorInitialized = false
  attends : ∀ x, s.hub.shared.devices r = some x → (s.hub.shared.sessions x).cancelled = false →
    ((s.connections x).Attends (s.store.highWater r) ∨ (s.connections x).durableWake = true) ∨
      ∃ t, s.routes t = .appended

section Sound

variable {r : PeerIdentity} {s s' : Relaying}

theorem Relaying.start_sound (calls : List Call) :
    (Relaying.start (Relay.store.run .empty calls)).Sound r where
  holds := by
    obtain ⟨l, hl, -⟩ := run_tracks calls r
    exact ⟨l, hl⟩
  unmade := fun _ _ => ⟨rfl, rfl⟩
  attends := nofun

/-- An instance that was not served. -/
theorem Relaying.setConnection_ne {x y : Nat} {c : Connection} (hne : y ≠ x) :
    (s.setConnection x c).connections y = s.connections y :=
  Function.update_of_ne hne _ _

/-- The wake of a call leaves its token with the live instance. -/
theorem Relaying.Sound.wake (h : s.Sound r) (t : Nat) :
    { s.wake r with routes := Function.update s.routes t .returned }.Sound r := by
  unfold Relaying.wake
  split
  · rename_i hfree
    refine ⟨h.holds, h.unmade, fun x hslot => ?_⟩
    rw [hfree] at hslot
    cases hslot
  · rename_i x hheld
    split
    · rename_i hcancelled
      refine ⟨h.holds, h.unmade, fun y hslot hlive => ?_⟩
      rw [hheld] at hslot
      cases hslot
      rw [hcancelled] at hlive
      cases hlive
    · refine ⟨h.holds, fun y hy => ?_, fun y hslot hlive => ?_⟩
      · by_cases hyx : y = x
        · subst hyx
          have hself := h.unmade y hy
          simpa [Relaying.setConnection, Relaying.connection] using hself
        · simp only [Relaying.setConnection_ne hyx]
          exact h.unmade y hy
      · obtain rfl : x = y := Option.some.inj (hheld.symm.trans hslot)
        exact Or.inl (Or.inr (by simp [Relaying.setConnection]))

theorem RelayStep.sound (hstep : RelayStep r s s') (h : s.Sound r) : s'.Sound r := by
  cases hstep with
  | hub hub' hstep =>
    cases hstep with
    | of t hstep =>
      refine ⟨h.holds, fun x hx => h.unmade x (Nat.le_trans hstep.made_le hx), ?_⟩
      intro x hslot hlive
      rcases hstep.live hslot hlive with ⟨hslot, hlive⟩ | rfl
      · exact h.attends x hslot hlive
      · obtain ⟨hposition, hinitialized⟩ := h.unmade _ (Nat.le_refl _)
        refine Or.inl (Or.inl ?_)
        simp only [Connection.Attends, hposition, hinitialized]
        intro hserving
        cases hserving
  | serve t x version c _ hmade hstep hwake hhigh =>
    have hconnection : s.store.highWater r = (s.connection x).store.highWater r := rfl
    refine ⟨hstep.holds h.holds, fun y hy => ?_, fun y hslot hlive => ?_⟩
    · rw [Relaying.setConnection_ne (Nat.ne_of_gt (Nat.lt_of_lt_of_le hmade hy))]
      exact h.unmade y hy
    · refine (h.attends y hslot hlive).imp (fun hattends => ?_) id
      have hsame : (s.setConnection x c).store.highWater r = s.store.highWater r := hhigh
      rw [hsame]
      by_cases hy : y = x
      · subst hy
        have hself : (s.setConnection y c).connections y = c := Function.update_self _ _ _
        rw [hself]
        exact hstep.attends h.holds hconnection.symm hattends
      · rw [Relaying.setConnection_ne hy]
        exact hattends
  | append t id envelope expiresAt now store hroute hcall =>
    obtain ⟨l, hl⟩ := h.holds
    obtain ⟨q, l', rfl, hq, -⟩ := appendDelivery_ok hl hcall
    refine ⟨⟨l', DeliveryStore.holds_put hq⟩, h.unmade, fun x _ _ => Or.inr ⟨t, ?_⟩⟩
    exact Function.update_self _ _ _
  | fail t hroute =>
    refine ⟨h.holds, h.unmade, fun x hslot hlive => (h.attends x hslot hlive).imp id ?_⟩
    rintro ⟨u, hu⟩
    refine ⟨u, ?_⟩
    have hne : u ≠ t := by
      rintro rfl
      rw [hroute] at hu
      cases hu
    exact (Function.update_of_ne hne _ _).trans hu
  | wake t hroute => exact h.wake t

theorem Relaying.Reaches.sound {calls : List Call} (h : s.Reaches calls r) : s.Sound r := by
  induction h with
  | refl => exact Relaying.start_sound calls
  | tail _ hstep ih => exact hstep.sound ih

end Sound

/-- No wake-up is lost: if the writer of the live instance in the slot is idle, with a cursor, and a
delivery past its cursor is stored, then a token is pending or a call that appended is still to leave
one. -/
theorem no_wakeup_lost (calls : List Call) (r : PeerIdentity) (s : Relaying)
    (h : s.Reaches calls r) (x : Nat) (hslot : s.hub.shared.devices r = some x)
    (hlive : (s.hub.shared.sessions x).retireOnce = false)
    (hinitialized : (s.connections x).cursorInitialized = true)
    (hidle : (s.connections x).position = .selecting) (q : Queue)
    (hq : s.store.queues r = some q) (d : Delivery) (hd : d ∈ q.rows)
    (hunsent : (s.connections x).sentCursor < d.id) :
    (s.connections x).durableWake = true ∨ ∃ t, s.routes t = .appended := by
  rcases h.sound.attends x hslot ((s.hub.shared.sessions x).active hlive).1 with
    (hattends | hwake) | hroute
  · obtain ⟨l, hl⟩ := h.sound.holds
    have hhigh := hl.highWater
    simp only [Connection.Attends, hidle] at hattends
    have hsent := hattends hinitialized
    unfold DeliveryStore.Holds at hl
    simp only [hq] at hl
    have := (hl.bounds hd).2
    omega
  · exact Or.inl hwake
  · exact Or.inr hroute

/-! ### A call between its commit and its wake -/

/-- The device is registered, and nothing is queued for it. -/
def emptyQueue : DeliveryStore := store.run .empty [.register sampleDevice]

theorem emptyQueue_resumed : ∃ st,
    resumeDeliveries emptyQueue sampleDevice 0 ⟨0⟩ deliveryBatchSize = .ok (⟨0, false, []⟩, st) ∧
    st.highWater sampleDevice = 0 ∧ ∃ st' q, appendDelivery st sampleDevice [65]
      ⟨1000000000⟩ ⟨0⟩ = .ok (1, st') ∧ st'.queues sampleDevice = some q ∧
      ∃ d ∈ q.rows, 0 < d.id :=
  ⟨_, rfl, rfl, _, _, rfl, rfl, _, List.mem_cons_self, Nat.one_pos⟩

/-- The device connects and resumes from 0, and a call appends. -/
theorem no_wakeup_lost_appended : ∃ s : Relaying,
    s.Reaches [.register sampleDevice] sampleDevice ∧ s.routes 0 = .appended ∧
    (s.connections 0).position = .selecting ∧ (s.connections 0).sentCursor = 0 ∧
    ((s.connections 0).durableWake = true ∨ ∃ t, s.routes t = .appended) := by
  obtain ⟨st, hresume, hhigh, st', q, happend, hq, d, hd, hpast⟩ := emptyQueue_resumed
  have started : (Relaying.start emptyQueue).Reaches [.register sampleDevice] sampleDevice := .refl
  have registered := (started.tail (.hub _ _ (.of _ 0 (.register _ sampleDevice 1 16)))).tail
    (.hub _ _ (.of _ 0 (.attempt _ sampleDevice 1 0)))
  have requested := registered.tail (.serve _ 0 0 1 _ rfl Nat.one_pos (.requestResume _ 0 rfl) id rfl)
  have resumed := (requested.tail (.serve _ 0 0 1 _ rfl Nat.one_pos (.takeUp _ 0 rfl rfl) id rfl)).tail
    (.serve _ 0 0 1 _ rfl Nat.one_pos (.resume _ 0 ⟨0⟩ _ st rfl hresume) id hhigh)
  have idle := resumed.tail (.serve _ 0 0 1 _ rfl Nat.one_pos
    (.caughtUp _ _ _ rfl rfl (Nat.le_refl 0) rfl) id rfl)
  have appended := idle.tail (.append _ 0 1 _ _ _ st' rfl happend)
  exact ⟨_, appended, rfl, rfl, rfl,
    no_wakeup_lost _ _ _ appended 0 rfl rfl rfl rfl q hq d hd hpast⟩

end SevenMirror.Relay
