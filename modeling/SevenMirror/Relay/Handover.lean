import SevenMirror.Relay.HubRun

/-! Replacements of one connection by several new ones.  A call of `Register` that waited for the
slot makes a second attempt, and when that attempt finds an instance that is not retired, it retires
it and gives up.  Runs without such an attempt leave one survivor in the slot. -/

namespace SevenMirror.Relay

open Lib

def Goroutine.inRegister : Goroutine → Bool
  | registering _ _ _ | awaiting _ _ _ _ _ => true
  | _ => false

/-- The goroutine is neither in `Register` or `Disconnect` nor refused by `Register`. -/
def Goroutine.calm : Goroutine → Bool
  | registering _ _ _ | awaiting _ _ _ _ _ | registerFailed _ _ | disconnecting _
  | draining _ _ _ | deleting _ _ _ | releasing _ _ _ | unlocking _ _ _ => false
  | _ => true

/-- A step of a handover for `p`: the calls of `Register` for `p` use one credential version, no
wait times out, and only superseded instances are disconnected. -/
structure HandoverStep (p : PeerIdentity) (version : Int) (t : Nat) (h : Hub) (g : Goroutine)
    (h' : Hub) (g' : Goroutine) : Prop where
  step : HubStep t h g h' g'
  same_version : ∀ v, g = .idle → g' = .registering p v 0 → v = version
  no_timeout : ∀ i, g' ≠ .registerFailed .handoverTimeout i
  superseded : ∀ observed, g = .idle → g' = .disconnecting observed →
    ∃ x, observed.session = some x ∧ (h.sessions x).superseded = true

/-- The goroutine is at its last attempt, and the slot holds an instance that is not retired. -/
def Hub.lateWinner (h : Hub) : Goroutine → Bool
  | .registering p _ n =>
    !decide (n + 1 < maxHandoverAttempts) &&
      match h.devices p with
      | none => false
      | some x => !(h.sessions x).retireOnce
  | _ => false

/-- A step of a handover in which no last attempt finds an instance that is not retired. -/
def TimelyStep (p : PeerIdentity) (version : Int) (t : Nat) (h : Hub) (g : Goroutine) (h' : Hub)
    (g' : Goroutine) : Prop :=
  HandoverStep p version t h g h' g' ∧ h.lateWinner g = false

/-- What a handover adds to what a goroutine can rely on. -/
def Goroutine.Orderly (h : Hub) : Goroutine → Prop
  | registering _ _ n => n ≤ 1
  | awaiting _ _ n _ i => n ≤ 1 ∧ (n = 1 → i = false)
  | registerFailed e i => e = .alreadyConnected → i = false
  | disconnecting observed => ∃ x, observed.session = some x ∧ (h.sessions x).retireOnce = true
  | _ => True

theorem Hub.retired_of_not_lateWinner {h : Hub} {p : PeerIdentity} {v : Int} {n x : Nat}
    (hlate : h.lateWinner (.registering p v n) = false) (hn : ¬ n + 1 < maxHandoverAttempts)
    (hslot : h.devices p = some x) : (h.sessions x).retireOnce = true := by
  simpa [lateWinner, hn, hslot] using hlate

theorem Goroutine.Orderly.evolves {h h' : Hub} {t u : Nat} {g : Goroutine} (hg : g.Orderly h)
    (hf : g.Fits h u) (he : Evolves t h h') : g.Orderly h' := by
  cases g with
  | disconnecting observed =>
    obtain ⟨x, hx, hr⟩ := hg
    exact ⟨x, hx, he.retired x (hf x hx) hr⟩
  | _ => exact hg

theorem TimelyStep.orderly {p : PeerIdentity} {version : Int} {t : Nat} {h h' : Hub}
    {g g' : Goroutine} (hstep : TimelyStep p version t h g h' g') (hg : g.Orderly h) :
    g'.Orderly h' := by
  obtain ⟨⟨hstep, -, -, hsuperseded⟩, hlate⟩ := hstep
  cases hstep with
  | register identity v queueSize =>
    split
    · nofun
    · split
      · nofun
      · exact Nat.zero_le 1
  | attempt identity v n =>
    unfold Hub.attempt
    split
    · trivial
    · rename_i existing hslot
      split
      · nofun
      · refine ⟨hg, fun hn => ?_⟩
        have hr := Hub.retired_of_not_lateWinner hlate (by simp [hn, maxHandoverAttempts]) hslot
        simp [retire_of_retired _ _ hr]
  | release identity v n existing i hr =>
    unfold afterRelease
    split
    · rename_i hn
      simp only [maxHandoverAttempts] at hn
      exact Nat.le_of_lt_succ hn
    · rename_i hn
      simp only [maxHandoverAttempts] at hn
      intro _
      exact hg.2 (by have := hg.1; omega)
  | timeout => nofun
  | disconnect observed hvalid =>
    obtain ⟨x, hx, hs⟩ := hsuperseded observed rfl rfl
    exact ⟨x, hx, (DeviceSession.retireOnce_iff _).mpr (Or.inr hs)⟩
  | observe observed =>
    unfold Hub.observe
    split
    · trivial
    · split <;> trivial
  | operate observed done hvalid =>
    unfold Hub.enter
    split
    · trivial
    · split <;> trivial
  | check q x => split <;> trivial
  | _ => trivial

/-- A retired instance in the slot has a first attempt waiting for its release, an empty slot has a
call that is to take it, and the instance in the slot is the first or one that a call installed. -/
structure Pursued (p : PeerIdentity) (first : Nat) (c : Threads Hub Goroutine) : Prop where
  retired : ∀ x, c.shared.devices p = some x → (c.shared.sessions x).retireOnce = true →
    ∃ t v i, c.thread t = .awaiting p v 0 x i
  empty : c.shared.devices p = none →
    ∃ t v, (∃ x i, c.thread t = .awaiting p v 0 x i) ∨ c.thread t = .registering p v 1
  owner : ∀ x, c.shared.devices p = some x →
    x = first ∨ ∃ t v, c.thread t = .registered ⟨p, v, some x⟩

section Pursued

variable {p : PeerIdentity} {version : Int} {first t : Nat} {c : Threads Hub Goroutine} {h' : Hub}
  {g' : Goroutine}

theorem update_of_ne_thread {u : Nat} {k : Goroutine} (hu : c.thread u = k) (hk : c.thread t ≠ k) :
    Function.update c.thread t g' u = k := by
  have hne : u ≠ t := by
    rintro rfl
    exact hk hu
  rw [Function.update_of_ne hne, hu]

/-- A step of a goroutine that is not in `Register` for `p`, and that leaves the slot of `p` and
whether its instance is retired. -/
theorem Pursued.frame (hp : Pursued p first c)
    (hregistering : ∀ v n, c.thread t ≠ .registering p v n)
    (hawaiting : ∀ v n x i, c.thread t ≠ .awaiting p v n x i)
    (hregistered : ∀ s, c.thread t ≠ .registered s)
    (hslot : h'.devices p = c.shared.devices p)
    (hretired : ∀ x, c.shared.devices p = some x → (h'.sessions x).retireOnce = true →
      (c.shared.sessions x).retireOnce = true) :
    Pursued p first ⟨h', Function.update c.thread t g'⟩ := by
  refine ⟨fun x hx hr => ?_, fun hx => ?_, fun x hx => ?_⟩
  · rw [hslot] at hx
    obtain ⟨u, v, i, hu⟩ := hp.retired x hx (hretired x hx hr)
    exact ⟨u, v, i, update_of_ne_thread hu (hawaiting _ _ _ _)⟩
  · rw [hslot] at hx
    obtain ⟨u, v, ⟨x, i, hu⟩ | hu⟩ := hp.empty hx
    · exact ⟨u, v, Or.inl ⟨x, i, update_of_ne_thread hu (hawaiting _ _ _ _)⟩⟩
    · exact ⟨u, v, Or.inr (update_of_ne_thread hu (hregistering _ _))⟩
  · rw [hslot] at hx
    rcases hp.owner x hx with hfirst | ⟨u, v, hu⟩
    · exact Or.inl hfirst
    · exact Or.inr ⟨u, v, update_of_ne_thread hu (hregistered _)⟩

/-- The critical section of an attempt for `p` itself. -/
theorem Pursued.attempt (hp : Pursued p first c) {v : Int} {n : Nat}
    (ht : c.thread t = .registering p v n) (hn : n ≤ 1)
    (hlate : c.shared.lateWinner (.registering p v n) = false) :
    Pursued p first ⟨(c.shared.attempt p v n).1,
      Function.update c.thread t (c.shared.attempt p v n).2⟩ := by
  have hother : ∀ {u k}, c.thread u = k → (∀ v n, k ≠ .registering p v n) →
      ∀ g', Function.update c.thread t g' u = k := by
    intro u k hu hk g'
    exact update_of_ne_thread hu (by rw [ht]; exact (hk v n).symm)
  unfold Hub.attempt
  split
  · rename_i hslot
    refine ⟨fun x hx hr => ?_, fun hx => ?_, fun x hx => ?_⟩
    · simp only [Hub.install, Function.update_self, Option.some.injEq] at hx
      subst hx
      simp [Hub.install, newDeviceSession] at hr
    · simp [Hub.install] at hx
    · simp only [Hub.install, Function.update_self, Option.some.injEq] at hx
      subst hx
      exact Or.inr ⟨t, v, by simp⟩
  · rename_i existing hslot
    split
    · refine ⟨fun x hx hr => ?_, fun hx => ?_, fun x hx => ?_⟩
      · obtain ⟨u, v', i, hu⟩ := hp.retired x hx hr
        exact ⟨u, v', i, hother hu (by simp) _⟩
      · rw [hslot] at hx
        cases hx
      · rcases hp.owner x hx with hfirst | ⟨u, v', hu⟩
        · exact Or.inl hfirst
        · exact Or.inr ⟨u, v', hother hu (by simp) _⟩
    · refine ⟨fun x hx hr => ?_, fun hx => ?_, fun x hx => ?_⟩
      · have hx : existing = x := Option.some.inj (hslot.symm.trans hx)
        subst hx
        cases hbefore : (c.shared.sessions existing).retireOnce with
        | true =>
          obtain ⟨u, v', i, hu⟩ := hp.retired existing hslot hbefore
          exact ⟨u, v', i, hother hu (by simp) _⟩
        | false =>
          -- the instance was not retired, so this is a first attempt, and it waits from now on
          have hfirst : n = 0 := by
            by_contra hne
            have hlast : ¬ n + 1 < maxHandoverAttempts := by
              simp only [maxHandoverAttempts]
              omega
            rw [Hub.retired_of_not_lateWinner hlate hlast hslot] at hbefore
            cases hbefore
          subst hfirst
          exact ⟨t, v, _, Function.update_self t _ c.thread⟩
      · exact absurd (hslot.symm.trans hx) (by simp)
      · rcases hp.owner x hx with hfirst | ⟨u, v', hu⟩
        · exact Or.inl hfirst
        · exact Or.inr ⟨u, v', hother hu (by simp) _⟩

/-- The end of a wait. -/
theorem Pursued.release (hp : Pursued p first c) (hs : c.shared.Sound) {q : PeerIdentity} {v : Int}
    {n existing : Nat} {i : Bool} (ht : c.thread t = .awaiting q v n existing i)
    (hr : (c.shared.sessions existing).released = true) :
    Pursued p first ⟨c.shared, Function.update c.thread t (afterRelease q v n i)⟩ := by
  refine ⟨fun x hx hret => ?_, fun hx => ?_, fun x hx => ?_⟩
  · obtain ⟨u, v', i', hu⟩ := hp.retired x hx hret
    refine ⟨u, v', i', update_of_ne_thread hu ?_⟩
    rw [ht]
    intro heq
    cases heq
    exact hs.released_absent p existing hr hx
  · obtain ⟨u, v', ⟨x, i', hu⟩ | hu⟩ := hp.empty hx
    · by_cases hut : u = t
      · subst hut
        cases ht.symm.trans hu
        exact ⟨u, v, Or.inr (by simp [afterRelease, maxHandoverAttempts])⟩
      · exact ⟨u, v', Or.inl ⟨x, i', (Function.update_of_ne hut _ c.thread).trans hu⟩⟩
    · exact ⟨u, v', Or.inr (update_of_ne_thread hu (by simp [ht]))⟩
  · rcases hp.owner x hx with hfirst | ⟨u, v', hu⟩
    · exact Or.inl hfirst
    · exact Or.inr ⟨u, v', update_of_ne_thread hu (by simp [ht])⟩

/-- A deletion: when it empties the slot of `p`, a first attempt is waiting for the instance. -/
theorem Pursued.delete (hp : Pursued p first c) {q : PeerIdentity} {y : Nat} {i : Bool}
    (ht : c.thread t = .deleting q y i) (hfits : (c.thread t).Fits c.shared t) :
    Pursued p first ⟨c.shared.delete q y, Function.update c.thread t (.releasing q y i)⟩ := by
  refine ⟨fun x hx hr => ?_, fun hx => ?_, fun x hx => ?_⟩
  · rw [Hub.delete_sessions] at hr
    obtain ⟨u, v, i', hu⟩ := hp.retired x (Hub.delete_devices.mp hx).1 hr
    exact ⟨u, v, i', update_of_ne_thread hu (by simp [ht])⟩
  · cases hbefore : c.shared.devices p with
    | none =>
      obtain ⟨u, v, ⟨x, i', hu⟩ | hu⟩ := hp.empty hbefore
      · exact ⟨u, v, Or.inl ⟨x, i', update_of_ne_thread hu (by simp [ht])⟩⟩
      · exact ⟨u, v, Or.inr (update_of_ne_thread hu (by simp [ht]))⟩
    | some x =>
      have hgone : p = q ∧ x = y := by
        by_contra hne
        have hkept := Hub.delete_devices.mpr ⟨hbefore, hne⟩
        rw [hx] at hkept
        cases hkept
      rw [ht] at hfits
      obtain ⟨u, v, i', hu⟩ := hp.retired x hbefore (hgone.2 ▸ hfits.1.2.1)
      exact ⟨u, v, Or.inl ⟨x, i', update_of_ne_thread hu (by simp [ht])⟩⟩
  · rcases hp.owner x (Hub.delete_devices.mp hx).1 with hfirst | ⟨u, v, hu⟩
    · exact Or.inl hfirst
    · exact Or.inr ⟨u, v, update_of_ne_thread hu (by simp [ht])⟩

/-- A step that changes no slot and no retirement. -/
theorem Pursued.quiet (hp : Pursued p first c)
    (hregister : (c.thread t).inRegister = false) (hregistered : ∀ s, c.thread t ≠ .registered s)
    (hslot : h'.devices p = c.shared.devices p)
    (hretired : ∀ x, (h'.sessions x).retireOnce = (c.shared.sessions x).retireOnce) :
    Pursued p first ⟨h', Function.update c.thread t g'⟩ := by
  refine hp.frame (fun v n ht => ?_) (fun v n x i ht => ?_) hregistered hslot
    fun x _ hr => (hretired x) ▸ hr
  · rw [ht] at hregister
    cases hregister
  · rw [ht] at hregister
    cases hregister

theorem modify_retireOnce {h : Hub} {x : Nat} {change : DeviceSession → DeviceSession}
    (hkeep : (change (h.sessions x)).retireOnce = (h.sessions x).retireOnce) (y : Nat) :
    ((h.modify x change).sessions y).retireOnce = (h.sessions y).retireOnce := by
  by_cases hy : y = x
  · rw [hy, Hub.modify_sessions_self, hkeep]
  · rw [Hub.modify_sessions_ne hy]

theorem Pursued.step (hp : Pursued p first c) (hs : c.shared.Sound)
    (hfits : (c.thread t).Fits c.shared t) (horderly : (c.thread t).Orderly c.shared)
    (hstep : TimelyStep p version t c.shared (c.thread t) h' g') :
    Pursued p first ⟨h', Function.update c.thread t g'⟩ := by
  obtain ⟨⟨hstep, -, htimeout, -⟩, hlate⟩ := hstep
  generalize hg : c.thread t = g at hstep hlate
  cases hstep with
  | attempt q v n =>
    rw [hg] at horderly
    by_cases hq : q = p
    · subst hq
      exact hp.attempt hg horderly hlate
    · refine hp.frame (by simp [hg, hq]) (by simp [hg]) (by simp [hg]) ?_ fun x hx hr => ?_
      · unfold Hub.attempt
        split
        · simp [Hub.install, Ne.symm hq]
        · split <;> rfl
      · unfold Hub.attempt at hr
        split at hr
        · simpa [Hub.install, Nat.ne_of_lt (hs.slot_made p x hx)] using hr
        · rename_i existing hslot
          split at hr
          · exact hr
          · have hne : x ≠ existing := by
              rintro rfl
              exact hq (hs.slot_unique q p x hslot hx)
            rwa [Hub.modify_sessions_ne hne] at hr
  | release q v n existing i hr => exact hp.release hs hg hr
  | timeout q v n existing i => exact absurd rfl (htimeout i)
  | observe observed =>
    rw [hg] at horderly
    obtain ⟨x, hx, hr⟩ := horderly
    refine hp.quiet (by simp [hg, Goroutine.inRegister]) (by simp [hg]) ?_ fun y => ?_
    · unfold Hub.observe
      split
      · rfl
      · split <;> rfl
    · unfold Hub.observe
      split
      · rfl
      · rename_i session hslot
        split
        · rfl
        · rename_i hsame
          -- the instance was superseded before, so `retire` leaves it
          have hsession : session = x := by simpa [hx] using hsame
          have hkeep : ((c.shared.sessions session).retire .revoked).1.retireOnce =
              (c.shared.sessions session).retireOnce := by
            rw [retire_retireOnce, hsession, hr]
          dsimp only
          exact modify_retireOnce hkeep y
  | delete q y i => exact hp.delete hg hfits
  | register | disconnect | operate | check =>
    exact hp.quiet (by simp [hg, Goroutine.inRegister]) (by simp [hg]) rfl fun _ => rfl
  | lock | markReleased | unlock | rLock | refuse | finish =>
    exact hp.quiet (by simp [hg, Goroutine.inRegister]) (by simp [hg]) rfl (modify_retireOnce rfl)

end Pursued

/-- What every run without a late winner keeps. -/
theorem handover_invariant {p : PeerIdentity} {version : Int} {first : Nat}
    {start c : Threads Hub Goroutine}
    (hrun : Threads.Reaches (TimelyStep p version) start c) (hs : start.shared.Sound)
    (hfits : ∀ t, (start.thread t).Fits start.shared t ∧ (start.thread t).Orderly start.shared)
    (hp : Pursued p first start) :
    (∀ t, (c.thread t).Orderly c.shared) ∧ Pursued p first c := by
  have hlocal : ∀ {c}, Threads.Reaches (TimelyStep p version) start c → c.shared.Sound ∧
      ∀ t, (c.thread t).Fits c.shared t ∧ (c.thread t).Orderly c.shared := by
    intro c hc
    refine hc.invariant (P := fun h t g => g.Fits h t ∧ g.Orderly h) ?_ ?_ ⟨hs, hfits⟩
    · rintro t h g h' g' hstep hsound ⟨hf, ho⟩
      obtain ⟨hsound', hf'⟩ := hstep.1.step.own hsound hf
      exact ⟨hsound', hf', hstep.orderly ho⟩
    · rintro t h g h' g' hstep hsound ⟨hf, -⟩ u k hu ⟨hkf, hko⟩
      have hevolves := hstep.1.step.evolves hf
      exact ⟨hkf.evolves hevolves hu, hko.evolves hkf hevolves⟩
  refine ⟨fun t => ((hlocal hrun).2 t).2, ?_⟩
  induction hrun with
  | refl => exact hp
  | tail hreach hstep ih =>
    obtain ⟨hsound, hthreads⟩ := hlocal hreach
    cases hstep with
    | of t hstep => exact ih.step hsound (hthreads t).1 (hthreads t).2 hstep

theorem Goroutine.calm_orderly {g : Goroutine} (h : Hub) (hg : g.calm = true) : g.Orderly h := by
  cases g <;> trivial

/-- One survivor.  Start from any hub whose slot for `p` holds an instance that is not retired, with
no call of `Register` or `Disconnect` under way.  After every handover in which no last attempt
finds an instance that is not retired, and once every call has returned, the slot holds an instance
that is not retired and whose call succeeded, and no call that gave up retired the winner. -/
theorem one_survivor {p : PeerIdentity} {version : Int} {first : Nat}
    {start c : Threads Hub Goroutine} (hstart : Threads.Reaches HubStep Hub.start start)
    (hslot : start.shared.devices p = some first)
    (hactive : (start.shared.sessions first).retireOnce = false)
    (hcalm : ∀ t, (start.thread t).calm = true)
    (hrun : Threads.Reaches (TimelyStep p version) start c)
    (hdone : ∀ t, (c.thread t).inRegister = false) :
    (∃ x, c.shared.devices p = some x ∧ (c.shared.sessions x).retireOnce = false ∧
      (x = first ∨ ∃ t v, c.thread t = .registered ⟨p, v, some x⟩)) ∧
    ∀ t i, c.thread t = .registerFailed .alreadyConnected i → i = false := by
  obtain ⟨hsound, hfits⟩ := hub_invariant hstart
  have hpursued : Pursued p first start := by
    refine ⟨fun x hx hr => ?_, fun hx => ?_, fun x hx => ?_⟩
    · rw [Option.some.inj (hx.symm.trans hslot), hactive] at hr
      cases hr
    · rw [hslot] at hx
      cases hx
    · exact Or.inl (Option.some.inj (hx.symm.trans hslot))
  obtain ⟨horderly, hp⟩ := handover_invariant hrun hsound
    (fun t => ⟨hfits t, (start.thread t).calm_orderly _ (hcalm t)⟩) hpursued
  have hno : ∀ t, (c.thread t).inRegister = true → False := fun t ht => by simp [hdone t] at ht
  refine ⟨?_, fun t i ht => ?_⟩
  · cases hx : c.shared.devices p with
    | none =>
      obtain ⟨t, v, ⟨x, i, ht⟩ | ht⟩ := hp.empty hx
      · exact (hno t (by rw [ht]; rfl)).elim
      · exact (hno t (by rw [ht]; rfl)).elim
    | some x =>
      refine ⟨x, rfl, ?_, hp.owner x hx⟩
      cases hr : (c.shared.sessions x).retireOnce with
      | false => rfl
      | true =>
        obtain ⟨t, v, i, ht⟩ := hp.retired x hx hr
        exact (hno t (by rw [ht]; rfl)).elim
  · have horder := horderly t
    rw [ht] at horder
    exact horder rfl

/-! ### Concrete handovers -/

/-- What a goroutine of a handover does next: it calls `Register`, or `Disconnect` for a superseded
instance, or goes on with its call. -/
inductive HandoverChoice
  | register
  | disconnect (session : Nat)
  | go

/-- Where a call leads without a timeout; `none` where the goroutine has to wait. -/
def Hub.advance (t : Nat) (h : Hub) : Goroutine → Option (Hub × Goroutine)
  | .registering p v n => some (h.attempt p v n)
  | .awaiting p v n x i =>
    if (h.sessions x).released = true then some (h, afterRelease p v n i) else none
  | .disconnecting observed => some (h.observe observed)
  | .draining p x i =>
    if hfree : (h.sessions x).operations.writer = none ∧ (h.sessions x).operations.readers = [] then
      some (h.modify x fun s => s.withLock ((h.sessions x).operations.lock t hfree.2),
        .deleting p x i)
    else none
  | .deleting p x i => some (h.delete p x, .releasing p x i)
  | .releasing p x i => some (h.modify x (·.markReleased), .unlocking p x i)
  | .unlocking _ x i => some (h.modify x fun s => s.withLock s.operations.unlock, .disconnected i)
  | _ => none

/-- The next step of a handover; `timely` refuses a late winner. -/
def Hub.handover (timely : Bool) (p : PeerIdentity) (version : Int) :
    HandoverChoice → Nat → Hub → Goroutine → Option (Hub × Goroutine)
  | .register, _, h, .idle => if version < 1 then none else some (h, .registering p version 0)
  | .disconnect x, _, h, .idle =>
    if x < h.made ∧ (h.sessions x).superseded = true then
      some (h, .disconnecting ⟨p, version, some x⟩)
    else none
  | .go, t, h, g => if timely && h.lateWinner g then none else h.advance t g
  | _, _, _, _ => none

theorem Hub.advance_step {t : Nat} {h h' : Hub} {g g' : Goroutine}
    (hnext : h.advance t g = some (h', g')) :
    HubStep t h g h' g' ∧ g ≠ .idle ∧ ∀ i, g' ≠ .registerFailed .handoverTimeout i := by
  unfold advance at hnext
  split at hnext
  · rename_i p v n
    have hpair := Option.some.inj hnext
    obtain rfl : (h.attempt p v n).1 = h' := congrArg Prod.fst hpair
    obtain rfl : (h.attempt p v n).2 = g' := congrArg Prod.snd hpair
    refine ⟨.attempt h p v n, nofun, fun i => ?_⟩
    unfold Hub.attempt
    split
    · nofun
    · split <;> nofun
  · rename_i p v n x i
    split at hnext
    · rename_i hr
      cases hnext
      refine ⟨.release h p v n x i hr, nofun, fun i => ?_⟩
      unfold afterRelease
      split <;> nofun
    · cases hnext
  · rename_i observed
    have hpair := Option.some.inj hnext
    obtain rfl : (h.observe observed).1 = h' := congrArg Prod.fst hpair
    obtain rfl : (h.observe observed).2 = g' := congrArg Prod.snd hpair
    refine ⟨.observe h observed, nofun, fun i => ?_⟩
    unfold Hub.observe
    split
    · nofun
    · split <;> nofun
  · rename_i p x i
    split at hnext
    · rename_i hfree
      cases hnext
      exact ⟨.lock h p x i hfree.1 hfree.2, nofun, nofun⟩
    · cases hnext
  · rename_i p x i
    cases hnext
    exact ⟨.delete h p x i, nofun, nofun⟩
  · rename_i p x i
    cases hnext
    exact ⟨.markReleased h p x i, nofun, nofun⟩
  · rename_i p x i
    cases hnext
    exact ⟨.unlock h p x i, nofun, nofun⟩
  · cases hnext

theorem Hub.handover_step {timely : Bool} {p : PeerIdentity} {version : Int}
    {choice : HandoverChoice} {t : Nat} {h h' : Hub} {g g' : Goroutine}
    (hnext : Hub.handover timely p version choice t h g = some (h', g')) :
    HandoverStep p version t h g h' g' ∧ (timely = true → h.lateWinner g = false) := by
  cases choice with
  | register =>
    cases g with
    | idle =>
      simp only [handover] at hnext
      split at hnext
      · cases hnext
      · rename_i hv
        cases hnext
        have hstep := HubStep.register (t := t) h p version 16
        rw [if_neg hv, if_neg (by decide)] at hstep
        exact ⟨⟨hstep, fun v _ hr => by cases hr; rfl, nofun, nofun⟩, fun _ => rfl⟩
    | _ => cases hnext
  | disconnect x =>
    cases g with
    | idle =>
      simp only [handover] at hnext
      split at hnext
      · rename_i hx
        cases hnext
        have hstep := HubStep.disconnect (t := t) h ⟨p, version, some x⟩ (by simpa using hx.1)
        refine ⟨⟨hstep, nofun, nofun, fun o _ ho => ?_⟩, fun _ => rfl⟩
        cases ho
        exact ⟨x, rfl, hx.2⟩
      · cases hnext
    | _ => cases hnext
  | go =>
    simp only [handover] at hnext
    split at hnext
    · cases hnext
    · rename_i hlate
      obtain ⟨hstep, hidle, htimeout⟩ := advance_step hnext
      refine ⟨⟨hstep, fun _ hg => absurd hg hidle, htimeout, fun _ hg => absurd hg hidle⟩, ?_⟩
      rintro rfl
      simpa using hlate

/-- `Disconnect` of an instance by goroutine `t`, from the call to the return. -/
def disconnectAll (t session : Nat) : List (Nat × HandoverChoice) :=
  (t, .disconnect session) :: List.replicate 5 (t, .go)

/-- The threads that a schedule of a handover leads to. -/
def scheduled (timely : Bool) (c : Threads Hub Goroutine) (schedule : List (Nat × HandoverChoice)) :
    Threads Hub Goroutine :=
  Threads.scheduled (Hub.handover timely sampleDevice 1) c schedule

/-- Goroutine 0 has taken the slot. -/
def occupied : Threads Hub Goroutine := scheduled true Hub.start [(0, .register), (0, .go)]

/-- Two calls wait for the first instance.  Once it is released one takes the slot, and the second
attempt of the other retires the instance that did. -/
def lateWinnerSchedule : List (Nat × HandoverChoice) :=
  [(1, .register), (1, .go), (2, .register), (2, .go)] ++ disconnectAll 3 0 ++
    [(1, .go), (1, .go), (2, .go), (2, .go)] ++ disconnectAll 4 1 ++ [(2, .go)]

/-- One call waits for the first instance and takes the slot. -/
def singleSchedule : List (Nat × HandoverChoice) :=
  [(1, .register), (1, .go)] ++ disconnectAll 3 0 ++ [(1, .go), (1, .go)]

theorem reaches_scheduled {timely : Bool} {c : Threads Hub Goroutine}
    {schedule : List (Nat × HandoverChoice)}
    (h : ((Threads.follow (Hub.handover timely sampleDevice 1) c schedule)).isSome = true) :
    Threads.Reaches (fun t h g h' g' => HandoverStep sampleDevice 1 t h g h' g' ∧
      (timely = true → h.lateWinner g = false)) c (scheduled timely c schedule) := by
  refine Threads.reaches_scheduled ?_ h
  intro choice t h g h' g' hnext
  exact Hub.handover_step hnext

/-- The goroutines that a schedule does not name make no call. -/
theorem scheduled_idle (timely : Bool) {c : Threads Hub Goroutine}
    {schedule : List (Nat × HandoverChoice)} (hs : ∀ t ∈ schedule.map (·.1), t < 5)
    (hc : ∀ t, ¬ t < 5 → c.thread t = .idle) (t : Nat) (ht : ¬ t < 5) :
    (scheduled timely c schedule).thread t = .idle := by
  have hkeep : (scheduled timely c schedule).thread t = c.thread t := by
    unfold scheduled Threads.scheduled
    cases h : Threads.follow (Hub.handover timely sampleDevice 1) c schedule with
    | none => rfl
    | some c' => exact Threads.follow_thread h fun hmem => ht (hs t hmem)
  rw [hkeep, hc t ht]

theorem forall_of_few {c : Threads Hub Goroutine} {value : Bool} {f : Goroutine → Bool}
    (hc : ∀ t, ¬ t < 5 → c.thread t = .idle) (hidle : f .idle = value)
    (hfew : ∀ t < 5, f (c.thread t) = value) (t : Nat) : f (c.thread t) = value := by
  by_cases ht : t < 5
  · exact hfew t ht
  · rw [hc t ht, hidle]

theorem occupied_run : (Threads.follow (Hub.handover true sampleDevice 1) Hub.start
      [(0, .register), (0, .go)]).isSome = true ∧ ∀ t < 5, (occupied.thread t).calm = true := by
  decide +kernel

theorem occupied_reached : Threads.Reaches HubStep Hub.start occupied :=
  (reaches_scheduled occupied_run.1).mono fun _ _ _ _ _ h => h.1.step

theorem occupied_idle : ∀ t, ¬ t < 5 → occupied.thread t = .idle :=
  scheduled_idle true (by decide) fun _ _ => rfl

theorem occupied_calm : ∀ t, (occupied.thread t).calm = true :=
  forall_of_few occupied_idle rfl occupied_run.2

/-- Two replacements of one instance leave the slot empty: the second attempt of the call that lost
retires the winner and returns `ErrAlreadyConnected`. -/
theorem late_winner_leaves_no_survivor :
    ∃ c, Threads.Reaches HubStep Hub.start occupied ∧
      occupied.shared.devices sampleDevice = some 0 ∧
      (occupied.shared.sessions 0).retireOnce = false ∧
      (∀ t, (occupied.thread t).calm = true) ∧
      Threads.Reaches (HandoverStep sampleDevice 1) occupied c ∧
      (∀ t, (c.thread t).inRegister = false) ∧
      c.shared.devices sampleDevice = none ∧
      c.thread 2 = .registerFailed .alreadyConnected true := by
  refine ⟨scheduled false occupied lateWinnerSchedule, occupied_reached, by decide +kernel,
    by decide +kernel, occupied_calm, ?_, ?_, by decide +kernel, by decide +kernel⟩
  · exact (reaches_scheduled (by decide +kernel)).mono fun _ _ _ _ _ h => h.1
  · exact forall_of_few (scheduled_idle false (by decide) occupied_idle) rfl (by decide +kernel)

/-- A single replacement leaves its own instance in the slot. -/
theorem one_survivor_single :
    let c := scheduled true occupied singleSchedule
    Threads.Reaches (TimelyStep sampleDevice 1) occupied c ∧ c.shared.devices sampleDevice = some 1 ∧
      ∃ x, c.shared.devices sampleDevice = some x ∧ (c.shared.sessions x).retireOnce = false ∧
        (x = 0 ∨ ∃ t v, c.thread t = .registered ⟨sampleDevice, v, some x⟩) := by
  intro c
  have hrun : Threads.Reaches (TimelyStep sampleDevice 1) occupied c :=
    (reaches_scheduled (by decide +kernel)).mono fun _ _ _ _ _ h => ⟨h.1, h.2 rfl⟩
  have hdone : ∀ t, (c.thread t).inRegister = false :=
    forall_of_few (scheduled_idle true (by decide) occupied_idle) rfl (by decide +kernel)
  refine ⟨hrun, by decide +kernel, ?_⟩
  exact (one_survivor occupied_reached (by decide +kernel) (by decide +kernel) occupied_calm hrun
    hdone).1

end SevenMirror.Relay
