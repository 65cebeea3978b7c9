import SevenMirror.Relay.Hub

/-! In every interleaving of goroutines over the hub, an unfinished operation holds the read lock of
the instance in the slot, and only a holder of the exclusive lock empties the slot. -/

namespace SevenMirror.Relay

open Lib

namespace Hub

variable {h : Hub} {x y : Nat} {change : DeviceSession → DeviceSession}

@[simp] theorem modify_devices : (h.modify x change).devices = h.devices := rfl

@[simp] theorem modify_made : (h.modify x change).made = h.made := rfl

@[simp] theorem modify_sessions_self : (h.modify x change).sessions x = change (h.sessions x) := by
  simp [modify]

theorem modify_sessions_ne (hne : y ≠ x) : (h.modify x change).sessions y = h.sessions y := by
  simp [modify, hne]

@[simp] theorem delete_sessions (p : PeerIdentity) : (h.delete p x).sessions = h.sessions := by
  unfold delete
  split <;> rfl

@[simp] theorem delete_made (p : PeerIdentity) : (h.delete p x).made = h.made := by
  unfold delete
  split <;> rfl

/-- A deletion empties the slot of `p` if it holds `x`, and no other. -/
theorem delete_devices {p q : PeerIdentity} :
    (h.delete p x).devices q = some y ↔ h.devices q = some y ∧ ¬ (q = p ∧ y = x) := by
  unfold delete
  split
  · rename_i hx
    by_cases hq : q = p
    · subst hq
      constructor
      · intro hy
        simp at hy
      · rintro ⟨hy, hne⟩
        exact absurd ⟨rfl, Option.some.inj (hy.symm.trans hx)⟩ hne
    · simp [hq]
  · rename_i hx
    refine ⟨fun hy => ⟨hy, ?_⟩, And.left⟩
    rintro ⟨rfl, rfl⟩
    exact hx hy

end Hub

section Retire

variable (s : DeviceSession) (reason : SessionRetirement)

@[simp] theorem retire_operations : (s.retire reason).1.operations = s.operations := by
  unfold DeviceSession.retire
  split
  · cases reason <;> rfl
  · rfl

@[simp] theorem retire_released : (s.retire reason).1.released = s.released := by
  unfold DeviceSession.retire
  split
  · cases reason <;> rfl
  · rfl

@[simp] theorem retire_retireOnce : (s.retire reason).1.retireOnce = true := by
  unfold DeviceSession.retire
  split
  · cases reason <;> rfl
  · simp_all

theorem retire_of_retired (h : s.retireOnce = true) : s.retire reason = (s, false) := by
  simp [DeviceSession.retire, h]

theorem retire_closed : (s.disconnected = true → (s.retire reason).1.disconnected = true) ∧
    (s.superseded = true → (s.retire reason).1.superseded = true) := by
  cases hr : s.retireOnce with
  | true =>
    rw [retire_of_retired s reason hr]
    exact ⟨id, id⟩
  | false =>
    obtain ⟨-, hd, hs⟩ := s.active hr
    simp [hd, hs]

theorem DeviceSession.not_both : ¬ (s.disconnected = true ∧ s.superseded = true) := by
  rintro ⟨hd, hs⟩
  cases hr : s.retireOnce with
  | true =>
    have hone := (s.retired hr).2
    rw [hd, hs] at hone
    cases hone
  | false =>
    have hopen := (s.active hr).2.1
    rw [hd] at hopen
    cases hopen

end Retire

/-- A slot holds an instance that was made and not released, and an instance has one slot. -/
structure Hub.Sound (h : Hub) : Prop where
  slot_made : ∀ p x, h.devices p = some x → x < h.made
  slot_unique : ∀ p q x, h.devices p = some x → h.devices q = some x → p = q
  released_absent : ∀ p x, (h.sessions x).released = true → h.devices p ≠ some x

/-- What goroutine `t` can rely on where it stands. -/
def Goroutine.Fits (h : Hub) (t : Nat) : Goroutine → Prop
  | awaiting _ _ _ x _ | beginning _ x => x < h.made
  | disconnecting observed => ∀ x, observed.session = some x → x < h.made
  | draining p x _ =>
    x < h.made ∧ (h.sessions x).retireOnce = true ∧ ∀ q, h.devices q = some x → q = p
  | deleting p x _ =>
    (x < h.made ∧ (h.sessions x).retireOnce = true ∧ ∀ q, h.devices q = some x → q = p) ∧
      (h.sessions x).operations.writer = some t
  | releasing _ x _ | unlocking _ x _ =>
    x < h.made ∧ (∀ q, h.devices q ≠ some x) ∧ (h.sessions x).operations.writer = some t
  | checking _ x | refused _ x => x < h.made ∧ t ∈ (h.sessions x).operations.readers
  | operating p x =>
    x < h.made ∧ t ∈ (h.sessions x).operations.readers ∧ h.devices p = some x
  | _ => True

/-- What a step of goroutine `t` leaves to the others. -/
structure Evolves (t : Nat) (h h' : Hub) : Prop where
  made_le : h.made ≤ h'.made
  retired : ∀ x < h.made, (h.sessions x).retireOnce = true → (h'.sessions x).retireOnce = true
  closed : ∀ x < h.made, ((h.sessions x).disconnected = true → (h'.sessions x).disconnected = true) ∧
    ((h.sessions x).superseded = true → (h'.sessions x).superseded = true)
  readers : ∀ u ≠ t, ∀ x < h.made, u ∈ (h.sessions x).operations.readers →
    u ∈ (h'.sessions x).operations.readers
  writer : ∀ u ≠ t, ∀ x < h.made, (h.sessions x).operations.writer = some u →
    (h'.sessions x).operations.writer = some u
  slots : ∀ p, ∀ x < h.made, h'.devices p = some x → h.devices p = some x
  kept : ∀ u ≠ t, ∀ p x, u ∈ (h.sessions x).operations.readers → h.devices p = some x →
    h'.devices p = some x

theorem Goroutine.Fits.evolves {h h' : Hub} {t u : Nat} {g : Goroutine} (hg : g.Fits h u)
    (he : Evolves t h h') (hu : u ≠ t) : g.Fits h' u := by
  have hmade := he.made_le
  cases g with
  | awaiting | beginning => exact Nat.lt_of_lt_of_le hg hmade
  | disconnecting observed => exact fun x hx => Nat.lt_of_lt_of_le (hg x hx) hmade
  | draining p x i =>
    obtain ⟨hx, hr, hslot⟩ := hg
    exact ⟨by omega, he.retired x hx hr, fun q hq => hslot q (he.slots q x hx hq)⟩
  | deleting p x i =>
    obtain ⟨⟨hx, hr, hslot⟩, hw⟩ := hg
    exact ⟨⟨by omega, he.retired x hx hr, fun q hq => hslot q (he.slots q x hx hq)⟩,
      he.writer u hu x hx hw⟩
  | releasing p x i | unlocking p x i =>
    obtain ⟨hx, hslot, hw⟩ := hg
    exact ⟨by omega, fun q hq => hslot q (he.slots q x hx hq), he.writer u hu x hx hw⟩
  | checking p x | refused p x =>
    obtain ⟨hx, hr⟩ := hg
    exact ⟨by omega, he.readers u hu x hx hr⟩
  | operating p x =>
    obtain ⟨hx, hr, hslot⟩ := hg
    exact ⟨by omega, he.readers u hu x hx hr, he.kept u hu p x hr hslot⟩
  | _ => trivial

theorem Evolves.refl (t : Nat) (h : Hub) : Evolves t h h :=
  ⟨Nat.le_refl _, fun _ _ hr => hr, fun _ _ => ⟨id, id⟩, fun _ _ _ _ hr => hr, fun _ _ _ _ hw => hw,
    fun _ _ _ hs => hs, fun _ _ _ _ _ hs => hs⟩

/-- A change to one instance that keeps its retirement and what the others hold of its lock. -/
theorem Evolves.modify {t x : Nat} {h : Hub} {change : DeviceSession → DeviceSession}
    (retired : (h.sessions x).retireOnce = true → (change (h.sessions x)).retireOnce = true)
    (closed : ((h.sessions x).disconnected = true → (change (h.sessions x)).disconnected = true) ∧
      ((h.sessions x).superseded = true → (change (h.sessions x)).superseded = true))
    (readers : ∀ u ≠ t, u ∈ (h.sessions x).operations.readers →
      u ∈ (change (h.sessions x)).operations.readers)
    (writer : ∀ u ≠ t, (h.sessions x).operations.writer = some u →
      (change (h.sessions x)).operations.writer = some u) :
    Evolves t h (h.modify x change) := by
  refine ⟨Nat.le_refl _, fun y _ hr => ?_, fun y _ => ?_, fun u hu y _ hr => ?_,
    fun u hu y _ hw => ?_, fun _ _ _ hs => hs, fun _ _ _ _ _ hs => hs⟩
  all_goals by_cases hy : y = x
  · subst hy
    rw [Hub.modify_sessions_self]
    exact retired hr
  · rwa [Hub.modify_sessions_ne hy]
  · subst hy
    rw [Hub.modify_sessions_self]
    exact closed
  · rw [Hub.modify_sessions_ne hy]
    exact ⟨id, id⟩
  · subst hy
    rw [Hub.modify_sessions_self]
    exact readers u hu hr
  · rwa [Hub.modify_sessions_ne hy]
  · subst hy
    rw [Hub.modify_sessions_self]
    exact writer u hu hw
  · rwa [Hub.modify_sessions_ne hy]

theorem Evolves.retire (t x : Nat) {h : Hub} (reason : SessionRetirement) :
    Evolves t h (h.modify x fun s => (s.retire reason).1) :=
  Evolves.modify (fun _ => retire_retireOnce _ _) (retire_closed _ _)
    (fun u _ hr => by simpa using hr) (fun u _ hw => by simpa using hw)

theorem Evolves.install {t : Nat} {h : Hub} {p : PeerIdentity} {version : Int}
    (hslot : h.devices p = none) : Evolves t h (h.install p version) := by
  have hold : ∀ x < h.made, (h.install p version).sessions x = h.sessions x := by
    intro x hx
    simp [Hub.install, Nat.ne_of_lt hx]
  refine ⟨Nat.le_succ _, fun x hx hr => ?_, fun x hx => ?_, fun u _ x hx hr => ?_,
    fun u _ x hx hw => ?_, fun q x hx hq => ?_, fun u _ q x _ hq => ?_⟩
  · rwa [hold x hx]
  · rw [hold x hx]
    exact ⟨id, id⟩
  · rwa [hold x hx]
  · rwa [hold x hx]
  · by_cases hp : q = p
    · subst hp
      simp only [Hub.install, Function.update_self, Option.some.injEq] at hq
      omega
    · simpa [Hub.install, hp] using hq
  · have hp : q ≠ p := by
      rintro rfl
      rw [hslot] at hq
      cases hq
    simpa [Hub.install, hp] using hq

/-- An instance that loses its slot has no readers, for the goroutine that deletes it is the
writer. -/
theorem Evolves.delete {t x : Nat} {h : Hub} {p : PeerIdentity}
    (hw : (h.sessions x).operations.writer = some t) : Evolves t h (h.delete p x) := by
  refine ⟨by simp, fun y _ hr => by simpa using hr, fun y _ => by simp,
    fun u _ y _ hr => by simpa using hr,
    fun u _ y _ hw => by simpa using hw, fun q y _ hq => (Hub.delete_devices.mp hq).1,
    fun u _ q y hr hq => Hub.delete_devices.mpr ⟨hq, ?_⟩⟩
  rintro ⟨-, rfl⟩
  exact RWLock.not_mem_readers hw hr

theorem HubStep.evolves {t : Nat} {h h' : Hub} {g g' : Goroutine} (hstep : HubStep t h g h' g')
    (hg : g.Fits h t) : Evolves t h h' := by
  cases hstep with
  | register | release | timeout | disconnect | operate | check => exact Evolves.refl t _
  | attempt identity version n =>
    unfold Hub.attempt
    split
    · rename_i hslot
      exact Evolves.install hslot
    · split
      · exact Evolves.refl t h
      · exact Evolves.retire t _ _
  | observe observed =>
    unfold Hub.observe
    split
    · exact Evolves.refl t h
    · split
      · exact Evolves.refl t h
      · exact Evolves.retire t _ _
  | lock p x i hw hr =>
    refine Evolves.modify id ⟨id, id⟩ (fun u _ hu => ?_) (fun u _ hu => ?_)
    · exact hu
    · rw [hw] at hu
      cases hu
  | delete p x i => exact Evolves.delete hg.2
  | markReleased p x i => exact Evolves.modify id ⟨id, id⟩ (fun _ _ hu => hu) (fun _ _ hu => hu)
  | unlock p x i =>
    refine Evolves.modify id ⟨id, id⟩ (fun _ _ hu => hu) (fun u hne hu => ?_)
    rw [hg.2.2] at hu
    exact absurd (Option.some.inj hu).symm hne
  | rLock p x hw =>
    exact Evolves.modify id ⟨id, id⟩ (fun _ _ hu => List.mem_cons_of_mem _ hu) (fun _ _ hu => hu)
  | refuse p x | finish p x =>
    exact Evolves.modify id ⟨id, id⟩ (fun _ hne hu => RWLock.mem_rUnlock hne hu) (fun _ _ hu => hu)

theorem Hub.Sound.modify {h : Hub} {x : Nat} {change : DeviceSession → DeviceSession}
    (hs : h.Sound) (hreleased : (change (h.sessions x)).released = true →
      (h.sessions x).released = true ∨ ∀ p, h.devices p ≠ some x) : (h.modify x change).Sound := by
  refine ⟨hs.slot_made, hs.slot_unique, fun p y hy => ?_⟩
  by_cases hyx : y = x
  · subst hyx
    rw [modify_sessions_self] at hy
    rcases hreleased hy with hr | habsent
    · exact hs.released_absent p y hr
    · exact habsent p
  · rw [modify_sessions_ne hyx] at hy
    exact hs.released_absent p y hy

theorem Hub.Sound.retire {h : Hub} (hs : h.Sound) (x : Nat) (reason : SessionRetirement) :
    (h.modify x fun s => (s.retire reason).1).Sound :=
  hs.modify fun hr => Or.inl (by simpa using hr)

theorem Hub.Sound.install {h : Hub} {p : PeerIdentity} (hs : h.Sound) (version : Int) :
    (h.install p version).Sound := by
  have hslot : ∀ q x, (h.install p version).devices q = some x →
      q = p ∧ x = h.made ∨ h.devices q = some x := by
    intro q x hq
    by_cases hp : q = p
    · subst hp
      simp only [Hub.install, Function.update_self, Option.some.injEq] at hq
      exact Or.inl ⟨rfl, hq.symm⟩
    · right
      simpa [Hub.install, hp] using hq
  refine ⟨fun q x hq => ?_, fun q q' x hq hq' => ?_, fun q x hr hq => ?_⟩
  · rcases hslot q x hq with ⟨-, rfl⟩ | hq
    · exact Nat.lt_succ_self _
    · exact Nat.lt_succ_of_lt (hs.slot_made q x hq)
  · rcases hslot q x hq with ⟨hp, hx⟩ | hold <;> rcases hslot q' x hq' with ⟨hp', hx'⟩ | hold'
    · rw [hp, hp']
    · exact absurd (hs.slot_made _ _ hold') (by omega)
    · exact absurd (hs.slot_made _ _ hold) (by omega)
    · exact hs.slot_unique q q' x hold hold'
  · rcases hslot q x hq with ⟨-, rfl⟩ | hq
    · simp [Hub.install, newDeviceSession] at hr
    · have hx := hs.slot_made q x hq
      simp only [Hub.install, ne_eq, Nat.ne_of_lt hx, not_false_eq_true,
        Function.update_of_ne] at hr
      exact hs.released_absent q x hr hq

theorem Hub.Sound.delete {h : Hub} {p : PeerIdentity} {x : Nat} (hs : h.Sound) :
    (h.delete p x).Sound := by
  refine ⟨fun q y hq => ?_, fun q q' y hq hq' => ?_, fun q y hr hq => ?_⟩
  · rw [delete_made]
    exact hs.slot_made q y (delete_devices.mp hq).1
  · exact hs.slot_unique q q' y (delete_devices.mp hq).1 (delete_devices.mp hq').1
  · rw [delete_sessions] at hr
    exact hs.released_absent q y hr (delete_devices.mp hq).1

/-- A step keeps the hub sound and takes its goroutine to where it can rely on the hub. -/
theorem HubStep.own {t : Nat} {h h' : Hub} {g g' : Goroutine} (hstep : HubStep t h g h' g')
    (hs : h.Sound) (hg : g.Fits h t) : h'.Sound ∧ g'.Fits h' t := by
  cases hstep with
  | register identity version queueSize =>
    refine ⟨hs, ?_⟩
    split
    · trivial
    · split <;> trivial
  | attempt identity version n =>
    unfold Hub.attempt
    split
    · exact ⟨hs.install version, trivial⟩
    · rename_i existing hslot
      split
      · exact ⟨hs, trivial⟩
      · exact ⟨hs.retire _ _, hs.slot_made _ _ hslot⟩
  | release identity version n existing i hr =>
    refine ⟨hs, ?_⟩
    unfold afterRelease
    split <;> trivial
  | timeout => exact ⟨hs, trivial⟩
  | disconnect observed hvalid => exact ⟨hs, hvalid⟩
  | observe observed =>
    unfold Hub.observe
    split
    · exact ⟨hs, trivial⟩
    · rename_i x hslot
      split
      · exact ⟨hs, trivial⟩
      · refine ⟨hs.retire _ _, hs.slot_made _ _ hslot, by simp, fun q hq => ?_⟩
        exact hs.slot_unique q _ x hq hslot
  | lock p x i hw hr =>
    refine ⟨hs.modify Or.inl, ⟨hg.1, ?_, hg.2.2⟩, ?_⟩
    · rw [Hub.modify_sessions_self]
      exact hg.2.1
    · rw [Hub.modify_sessions_self]
      rfl
  | delete p x i =>
    obtain ⟨⟨hx, hr, hslot⟩, hw⟩ := hg
    refine ⟨hs.delete, by simpa using hx, fun q hq => ?_, by simpa using hw⟩
    obtain ⟨hq, hne⟩ := Hub.delete_devices.mp hq
    exact hne ⟨hslot q hq, rfl⟩
  | markReleased p x i =>
    obtain ⟨hx, hslot, hw⟩ := hg
    refine ⟨hs.modify fun _ => Or.inr hslot, hx, hslot, ?_⟩
    rw [Hub.modify_sessions_self]
    exact hw
  | unlock p x i => exact ⟨hs.modify Or.inl, trivial⟩
  | operate observed done hvalid =>
    refine ⟨hs, ?_⟩
    unfold Hub.enter
    split
    · trivial
    · rename_i x hx
      split
      · trivial
      · exact hvalid x hx
  | rLock p x hw =>
    refine ⟨hs.modify Or.inl, hg, ?_⟩
    rw [Hub.modify_sessions_self]
    exact List.mem_cons_self
  | check p x =>
    refine ⟨hs, ?_⟩
    split
    · rename_i hactive
      exact ⟨hg.1, hg.2, hactive.1⟩
    · exact hg
  | refuse p x | finish p x => exact ⟨hs.modify Or.inl, trivial⟩

theorem Hub.start_sound : Hub.start.shared.Sound ∧ ∀ t, (Hub.start.thread t).Fits Hub.start.shared t :=
  ⟨⟨nofun, nofun, fun _ _ _ => nofun⟩, fun _ => trivial⟩

/-- In every interleaving the hub is sound and every goroutine fits it. -/
theorem hub_invariant {c : Threads Hub Goroutine} (hc : Threads.Reaches HubStep Hub.start c) :
    c.shared.Sound ∧ ∀ t, (c.thread t).Fits c.shared t :=
  hc.invariant (fun _ _ _ _ _ hstep hs hg => hstep.own hs hg)
    (fun _ _ _ _ _ hstep _ hg _ _ hu hk => hk.evolves (hstep.evolves hg) hu) Hub.start_sound

/-- A slot gains an instance only in `Register`, and only a slot that is empty. -/
theorem HubStep.installs {t : Nat} {h h' : Hub} {g g' : Goroutine} (hstep : HubStep t h g h' g')
    {p : PeerIdentity} {x : Nat} (hbefore : h.devices p ≠ some x) (hafter : h'.devices p = some x) :
    h.devices p = none := by
  cases hstep with
  | attempt identity version n =>
    unfold Hub.attempt at hafter
    split at hafter
    · rename_i hslot
      by_cases hp : p = identity
      · rw [hp, hslot]
      · simp [Hub.install, hp, hbefore] at hafter
    · split at hafter <;> exact absurd hafter hbefore
  | observe observed =>
    unfold Hub.observe at hafter
    split at hafter
    · exact absurd hafter hbefore
    · split at hafter <;> exact absurd hafter hbefore
  | delete q y i => exact absurd (Hub.delete_devices.mp hafter).1 hbefore
  | _ => exact absurd hafter hbefore

/-- A step returns a handle, of a new instance in an empty slot, or fills no slot. -/
theorem HubStep.handle {t : Nat} {h h' : Hub} {g g' : Goroutine} (hstep : HubStep t h g h' g') :
    (∃ p version n, g = .registering p version n ∧ h' = h.install p version ∧
      g' = .registered ⟨p, version, some h.made⟩) ∨
    (∀ s, g' ≠ .registered s) ∧ h'.made = h.made ∧
      ∀ p y, h'.devices p = some y → h.devices p = some y := by
  cases hstep with
  | register identity version queueSize =>
    refine Or.inr ⟨fun s => ?_, rfl, fun _ _ hy => hy⟩
    split
    · exact Goroutine.noConfusion
    · split <;> exact Goroutine.noConfusion
  | attempt identity version n =>
    unfold Hub.attempt
    split
    · exact Or.inl ⟨identity, version, n, rfl, rfl, rfl⟩
    · split
      · exact Or.inr ⟨fun _ => Goroutine.noConfusion, rfl, fun _ _ hy => hy⟩
      · exact Or.inr ⟨fun _ => Goroutine.noConfusion, rfl, fun _ _ hy => hy⟩
  | release identity version n existing initiated hreleased =>
    refine Or.inr ⟨fun s => ?_, rfl, fun _ _ hy => hy⟩
    unfold afterRelease
    split <;> exact Goroutine.noConfusion
  | observe observed =>
    unfold Hub.observe
    split
    · exact Or.inr ⟨fun _ => Goroutine.noConfusion, rfl, fun _ _ hy => hy⟩
    · split <;> exact Or.inr ⟨fun _ => Goroutine.noConfusion, rfl, fun _ _ hy => hy⟩
  | delete peer x initiated =>
    exact Or.inr ⟨fun _ => Goroutine.noConfusion, Hub.delete_made _,
      fun _ _ hy => (Hub.delete_devices.mp hy).1⟩
  | operate observed contextDone hvalid =>
    refine Or.inr ⟨fun s => ?_, rfl, fun _ _ hy => hy⟩
    unfold Hub.enter
    split
    · exact Goroutine.noConfusion
    · split <;> exact Goroutine.noConfusion
  | check peer x =>
    refine Or.inr ⟨fun s => ?_, rfl, fun _ _ hy => hy⟩
    split <;> exact Goroutine.noConfusion
  | _ => exact Or.inr ⟨fun _ => Goroutine.noConfusion, rfl, fun _ _ hy => hy⟩

theorem Hub.enter_cases (h : Hub) (observed : ConnectedSession) (contextDone : Bool) :
    h.enter observed contextDone = .finished ∨ ∃ x, observed.session = some x ∧
      h.enter observed contextDone = .beginning observed.peer x := by
  unfold Hub.enter
  split
  · exact Or.inl rfl
  · rename_i x hx
    split
    · exact Or.inl rfl
    · exact Or.inr ⟨x, hx, rfl⟩

/-- `Register` that has returned stays so. -/
theorem HubStep.registered_stays {t : Nat} {h h' : Hub} {g' : Goroutine} {s : ConnectedSession}
    (hstep : HubStep t h (.registered s) h' g') : False := by
  cases hstep

/-- The instance `y` was registered for `p`. -/
def InstanceOf (c : Threads Hub Goroutine) (y : Nat) (p : PeerIdentity) : Prop :=
  ∃ u s, c.thread u = .registered s ∧ s.peer = p ∧ s.session = some y

/-- Every handle is of an instance that was made, an instance was registered for one device only, and
a slot holds an instance of its own device. -/
structure Handles (c : Threads Hub Goroutine) : Prop where
  made : ∀ y p, InstanceOf c y p → y < c.shared.made
  peer : ∀ y p q, InstanceOf c y p → InstanceOf c y q → p = q
  slot : ∀ p y, c.shared.devices p = some y → InstanceOf c y p

theorem InstanceOf.step {c : Threads Hub Goroutine} {t y : Nat} {p : PeerIdentity} {h' : Hub}
    {g' : Goroutine} (hinstance : InstanceOf c y p)
    (hstep : HubStep t c.shared (c.thread t) h' g') :
    InstanceOf ⟨h', Function.update c.thread t g'⟩ y p := by
  obtain ⟨u, s, hu, hs⟩ := hinstance
  refine ⟨u, s, ?_, hs⟩
  have hne : u ≠ t := by
    rintro rfl
    rw [hu] at hstep
    exact hstep.registered_stays
  exact (Function.update_of_ne hne _ _).trans hu

/-- After a step an instance was registered before, or is the new one. -/
theorem InstanceOf.before {c : Threads Hub Goroutine} {t y : Nat} {q : PeerIdentity} {h' : Hub}
    {g' : Goroutine} (hinstance : InstanceOf ⟨h', Function.update c.thread t g'⟩ y q) :
    InstanceOf c y q ∨ ∃ s, g' = .registered s ∧ s.peer = q ∧ s.session = some y := by
  obtain ⟨u, s, hu, hs⟩ := hinstance
  by_cases hne : u = t
  · subst hne
    simp only [Function.update_self] at hu
    exact Or.inr ⟨s, hu, hs⟩
  · simp only [ne_eq, hne, not_false_eq_true, Function.update_of_ne] at hu
    exact Or.inl ⟨u, s, hu, hs⟩

theorem Handles.step {c : Threads Hub Goroutine} {t : Nat} {h' : Hub} {g' : Goroutine}
    (hc : Handles c) (hstep : HubStep t c.shared (c.thread t) h' g') :
    Handles ⟨h', Function.update c.thread t g'⟩ := by
  rcases hstep.handle with ⟨p, version, n, -, rfl, rfl⟩ | ⟨hnone, hmade, hslots⟩
  · -- the new instance is none of those before
    have hnew : InstanceOf ⟨c.shared.install p version, Function.update c.thread t
        (.registered ⟨p, version, some c.shared.made⟩)⟩ c.shared.made p :=
      ⟨t, _, Function.update_self _ _ _, rfl, rfl⟩
    refine ⟨fun y q hy => ?_, fun y q q' hq hq' => ?_, fun q y hy => ?_⟩
    · rcases hy.before with hold | ⟨s, hs, -, hsession⟩
      · exact Nat.lt_succ_of_lt (hc.made y q hold)
      · cases hs
        cases hsession
        exact Nat.lt_succ_self _
    · rcases hq.before with hold | ⟨s, hs, hpeer, hsession⟩ <;>
        rcases hq'.before with hold' | ⟨s', hs', hpeer', hsession'⟩
      · exact hc.peer y q q' hold hold'
      · cases hs'
        cases hsession'
        exact absurd (hc.made _ q hold) (Nat.lt_irrefl _)
      · cases hs
        cases hsession
        exact absurd (hc.made _ q' hold') (Nat.lt_irrefl _)
      · cases hs
        cases hs'
        exact hpeer.symm.trans hpeer'
    · by_cases hqp : q = p
      · subst hqp
        simp only [Hub.install, Function.update_self, Option.some.injEq] at hy
        exact hy ▸ hnew
      · simp only [Hub.install, Function.update_of_ne hqp] at hy
        exact (hc.slot q y hy).step hstep
  · have hbefore : ∀ y q, InstanceOf ⟨h', Function.update c.thread t g'⟩ y q → InstanceOf c y q := by
      intro y q hy
      rcases hy.before with hold | ⟨s, hs, -⟩
      · exact hold
      · exact absurd hs (hnone s)
    refine ⟨fun y q hy => ?_, fun y q q' hq hq' => ?_, fun q y hy => ?_⟩
    · exact hmade ▸ hc.made y q (hbefore y q hy)
    · exact hc.peer y q q' (hbefore y q hq) (hbefore y q' hq')
    · exact (hc.slot q y (hslots q y hy)).step hstep

theorem handles_of_reaches {c : Threads Hub Goroutine}
    (hc : Threads.Reaches HubStep Hub.start c) : Handles c := by
  induction hc with
  | refl =>
    have hnone : ∀ y p, ¬ InstanceOf Hub.start y p := by
      rintro y p ⟨u, s, hu, -⟩
      cases hu
    exact ⟨fun y p h => absurd h (hnone y p), fun y p _ h => absurd h (hnone y p),
      fun p y hy => by cases hy⟩
  | tail _ hstep ih =>
    cases hstep with
    | of t hstep => exact ih.step hstep

/-- `Disconnect` of one instance leaves every other instance, and its slot. -/
theorem HubStep.disconnects {t : Nat} {h h' : Hub} {g g' : Goroutine}
    (hstep : HubStep t h g h' g') {target : Option Nat} (hg : g.Disconnects target) {y : Nat}
    (hy : target ≠ some y) :
    h'.sessions y = h.sessions y ∧ ∀ p, h.devices p = some y → h'.devices p = some y := by
  have hne : ∀ {x : Nat}, some x = target → y ≠ x := by
    rintro x rfl rfl
    exact hy rfl
  cases hstep with
  | observe observed =>
    unfold Hub.observe
    split
    · exact ⟨rfl, fun _ hp => hp⟩
    · split
      · exact ⟨rfl, fun _ hp => hp⟩
      · rename_i x _ hsame
        rw [not_not] at hsame
        dsimp only
        exact ⟨Hub.modify_sessions_ne (hne (hsame.trans hg)), fun _ hp => hp⟩
  | delete p x i =>
    refine ⟨by simp, fun q hq => Hub.delete_devices.mpr ⟨hq, ?_⟩⟩
    rintro ⟨-, rfl⟩
    exact hne hg rfl
  | lock | markReleased | unlock => exact ⟨Hub.modify_sessions_ne (hne hg), fun _ hp => hp⟩
  | _ => exact hg.elim

/-- `Register` retires an instance of its own credential version or an older one. -/
theorem HubStep.supersedes {t n : Nat} {h h' : Hub} {g' : Goroutine} {p : PeerIdentity}
    {version : Int} (hstep : HubStep t h (.registering p version n) h' g') {x : Nat}
    (hx : x < h.made) (hbefore : (h.sessions x).retireOnce = false)
    (hafter : (h'.sessions x).retireOnce = true) : (h.sessions x).credentialVersion ≤ version := by
  cases hstep with
  | attempt =>
    unfold Hub.attempt at hafter
    split at hafter
    · simp [Hub.install, Nat.ne_of_lt hx, hbefore] at hafter
    · rename_i existing hslot
      split at hafter
      · rw [hbefore] at hafter
        cases hafter
      · rename_i hversion
        by_cases hsame : x = existing
        · subst hsame
          omega
        · rw [Hub.modify_sessions_ne hsame, hbefore] at hafter
          cases hafter

/-- A channel that was closed stays closed. -/
theorem closed_of_reaches {c c' : Threads Hub Goroutine}
    (hc : Threads.Reaches HubStep Hub.start c) (hc' : Threads.Reaches HubStep c c') {x : Nat}
    (hx : x < c.shared.made) :
    x < c'.shared.made ∧
      ((c.shared.sessions x).disconnected = true → (c'.shared.sessions x).disconnected = true) ∧
      ((c.shared.sessions x).superseded = true → (c'.shared.sessions x).superseded = true) := by
  induction hc' with
  | refl => exact ⟨hx, id, id⟩
  | tail hreach hstep ih =>
    obtain ⟨hmade, hd, hs⟩ := ih
    cases hstep with
    | of t hstep =>
      have hfits := (hub_invariant (hc.trans hreach)).2 t
      have hevolves := hstep.evolves hfits
      obtain ⟨hd', hs'⟩ := hevolves.closed x hmade
      exact ⟨Nat.lt_of_lt_of_le hmade hevolves.made_le, fun h => hd' (hd h), fun h => hs' (hs h)⟩

/-- What holds at every moment of every interleaving. -/
structure OneInstanceActs (c : Threads Hub Goroutine) : Prop where
  holds_slot : ∀ t p x, c.thread t = .operating p x → c.shared.devices p = some x
  no_overlap : ∀ t u p x y, c.thread t = .operating p x → c.thread u = .operating p y → x = y
  installed_after : ∀ t h' g', HubStep t c.shared (c.thread t) h' g' →
    ∀ p x, c.shared.devices p ≠ some x → h'.devices p = some x →
      ∀ u y, c.thread u ≠ .operating p y
  disconnects_own : ∀ t h' g', HubStep t c.shared (c.thread t) h' g' →
    ∀ target, (c.thread t).Disconnects target → ∀ y, target ≠ some y →
      h'.sessions y = c.shared.sessions y ∧
        ∀ p, c.shared.devices p = some y → h'.devices p = some y
  retired_once : ∀ x < c.shared.made,
    ((c.shared.sessions x).retireOnce = true ↔
      (c.shared.sessions x).disconnected = true ∨ (c.shared.sessions x).superseded = true) ∧
    ∀ c', Threads.Reaches HubStep c c' →
      ((c.shared.sessions x).disconnected = true →
        (c'.shared.sessions x).disconnected = true ∧ (c'.shared.sessions x).superseded = false) ∧
      ((c.shared.sessions x).superseded = true →
        (c'.shared.sessions x).superseded = true ∧ (c'.shared.sessions x).disconnected = false)
  supersedes_older : ∀ t h' g', HubStep t c.shared (c.thread t) h' g' →
    ∀ p version n, c.thread t = .registering p version n → ∀ x < c.shared.made,
      (c.shared.sessions x).retireOnce = false → (h'.sessions x).retireOnce = true →
      (c.shared.sessions x).credentialVersion ≤ version

/-- An instance is retired when exactly one of its channels is closed. -/
theorem DeviceSession.retireOnce_iff (s : DeviceSession) :
    s.retireOnce = true ↔ s.disconnected = true ∨ s.superseded = true := by
  constructor
  · intro hr
    rw [(s.retired hr).2]
    cases s.superseded <;> simp
  · intro hclosed
    by_contra hr
    obtain ⟨-, hd, hs⟩ := s.active (by simpa using hr)
    simp [hd, hs] at hclosed

theorem one_instance_acts {c : Threads Hub Goroutine}
    (hc : Threads.Reaches HubStep Hub.start c) : OneInstanceActs c := by
  obtain ⟨hsound, hfits⟩ := hub_invariant hc
  have hslot : ∀ t p x, c.thread t = .operating p x → c.shared.devices p = some x := by
    intro t p x ht
    have hfit := hfits t
    rw [ht] at hfit
    exact hfit.2.2
  refine ⟨hslot, ?_, ?_, ?_, ?_, ?_⟩
  · intro t u p x y ht hu
    exact Option.some.inj ((hslot t p x ht).symm.trans (hslot u p y hu))
  · intro t h' g' hstep p x hbefore hafter u y hu
    have hempty := hstep.installs hbefore hafter
    rw [hslot u p y hu] at hempty
    cases hempty
  · intro t h' g' hstep target htarget y hy
    exact hstep.disconnects htarget hy
  · intro x hx
    refine ⟨DeviceSession.retireOnce_iff _, fun c' hc' => ?_⟩
    obtain ⟨-, hd, hs⟩ := closed_of_reaches hc hc' hx
    have hone := (c'.shared.sessions x).not_both
    refine ⟨fun h => ⟨hd h, ?_⟩, fun h => ⟨hs h, ?_⟩⟩
    · have := hd h
      simp_all
    · have := hs h
      simp_all
  · intro t h' g' hstep p version n ht x hx hbefore hafter
    rw [ht] at hstep
    exact hstep.supersedes hx hbefore hafter

theorem operating_reached : ∃ c, Threads.Reaches HubStep Hub.start c ∧
    c.thread 1 = .operating sampleDevice 0 := by
  have started : Threads.Reaches HubStep Hub.start Hub.start := .refl
  have registered := (started.tail (.of _ 0 (.register _ sampleDevice 1 16))).tail
    (.of _ 0 (.attempt _ sampleDevice 1 0))
  have begun := registered.tail (.of _ 1 (.operate _ ⟨sampleDevice, 1, some 0⟩ false (by decide)))
  have locked := begun.tail (.of _ 1 (.rLock _ sampleDevice 0 rfl))
  exact ⟨_, locked.tail (.of _ 1 (.check _ sampleDevice 0)), rfl⟩

/-- A device registers, and a goroutine is inside an operation of its session. -/
theorem one_instance_acts_operating : ∃ c, Threads.Reaches HubStep Hub.start c ∧
    c.thread 1 = .operating sampleDevice 0 ∧ OneInstanceActs c := by
  obtain ⟨c, hc, ht⟩ := operating_reached
  exact ⟨c, hc, ht, one_instance_acts hc⟩

end SevenMirror.Relay
