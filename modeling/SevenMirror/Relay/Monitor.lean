import SevenMirror.Admission.Authorization
import SevenMirror.Relay.HubRun

/-! One pass of `RunAuthorizationMonitor` in `internal/relay/authorization_monitor.go`, run beside
everything else that uses the hub.  The pass takes a list of the sessions in the slots, and then
checks each of them and disconnects those that it may not leave. -/

namespace SevenMirror.Relay

open Lib Admission

/-! ### The pass -/

/-- `ConnectedSessions`: a handle for each slot, in any order. -/
structure Hub.ConnectedSessions (h : Hub) (sessions : List ConnectedSession) : Prop where
  nodup : sessions.Nodup
  handles : ∀ o, o ∈ sessions ↔ ∃ x, h.devices o.peer = some x ∧
    o = ⟨o.peer, (h.sessions x).credentialVersion, some x⟩

/-- The authorizer of `cmd/server/main.go`. -/
def sessionAuthorizer (s : Registry) (session : ConnectedSession) : Bool :=
  isSessionAuthorized s session.peer.workspaceID session.peer.deviceID session.credentialVersion

/-- Where the pass stands: before the list is taken, before the check of the first of the sessions
that are left, between a check that did not succeed and the call of `Disconnect`, or in that call,
which goroutine `t` makes. -/
inductive PassPosition
  | ticking
  | checking (left : List ConnectedSession)
  | denied (session : ConnectedSession) (left : List ConnectedSession)
  | disconnecting (t : Nat) (session : ConnectedSession) (left : List ConnectedSession)

/-- The hub, the database, and the pass with the sessions it listed and the checks it made. -/
structure Monitoring (δ : Type) where
  hub : Threads Hub Goroutine
  database : δ
  position : PassPosition
  listed : List ConnectedSession
  checked : List (ConnectedSession × Bool)

variable {δ : Type}

/-- The steps of the pass.  A check that fails counts like one that is denied. -/
inductive PassStep (authorize : δ → ConnectedSession → Bool) (s : Monitoring δ) :
    Monitoring δ → Prop
  | list (sessions : List ConnectedSession) : s.position = .ticking →
      s.hub.shared.ConnectedSessions sessions →
      PassStep authorize s { s with position := .checking sessions, listed := sessions }
  | authorized (session : ConnectedSession) (left : List ConnectedSession) :
      s.position = .checking (session :: left) → authorize s.database session = true →
      PassStep authorize s { s with
        position := .checking left, checked := s.checked ++ [(session, true)] }
  | denied (session : ConnectedSession) (left : List ConnectedSession) (failed : Bool) :
      s.position = .checking (session :: left) →
      failed = true ∨ authorize s.database session = false →
      PassStep authorize s { s with
        position := .denied session left, checked := s.checked ++ [(session, false)] }
  | call (t : Nat) (session : ConnectedSession) (left : List ConnectedSession) :
      s.position = .denied session left → s.hub.thread t = .idle →
      PassStep authorize s { s with
        hub := ⟨s.hub.shared, Function.update s.hub.thread t (.disconnecting session)⟩
        position := .disconnecting t session left }
  | run (t : Nat) (session : ConnectedSession) (left : List ConnectedSession) (h' : Hub)
      (g' : Goroutine) : s.position = .disconnecting t session left →
      HubStep t s.hub.shared (s.hub.thread t) h' g' →
      PassStep authorize s { s with hub := ⟨h', Function.update s.hub.thread t g'⟩ }
  | done (t : Nat) (session : ConnectedSession) (left : List ConnectedSession) (initiated : Bool) :
      s.position = .disconnecting t session left → s.hub.thread t = .disconnected initiated →
      PassStep authorize s { s with position := .checking left }

/-- The steps of everyone else. -/
inductive OtherStep (s : Monitoring δ) : Monitoring δ → Prop
  | hub (t : Nat) (h' : Hub) (g' : Goroutine) : HubStep t s.hub.shared (s.hub.thread t) h' g' →
      (∀ session left, s.position ≠ .disconnecting t session left) →
      OtherStep s { s with hub := ⟨h', Function.update s.hub.thread t g'⟩ }
  | commit (database : δ) : OtherStep s { s with database }

/-- The pass starts on the hub `c`. -/
def Monitoring.start (c : Threads Hub Goroutine) (database : δ) : Monitoring δ :=
  ⟨c, database, .ticking, [], []⟩

/-- The pass and everyone else may come to `s'`. -/
def Monitoring.Leads (authorize : δ → ConnectedSession → Bool) : Monitoring δ → Monitoring δ → Prop :=
  Relation.ReflTransGen fun s s' => PassStep authorize s s' ∨ OtherStep s s'

/-! ### An instance without a slot -/

/-- The instance was made and has no slot. -/
def Hub.Absent (h : Hub) (x : Nat) : Prop := x < h.made ∧ ∀ p, h.devices p ≠ some x

theorem Hub.Absent.evolves {h h' : Hub} {t x : Nat} (habsent : h.Absent x) (he : Evolves t h h') :
    h'.Absent x :=
  ⟨Nat.lt_of_lt_of_le habsent.1 he.made_le, fun p hp => habsent.2 p (he.slots p x habsent.1 hp)⟩

/-- An instance loses its slot only in `Disconnect`, which has retired it. -/
theorem HubStep.empties {t : Nat} {h h' : Hub} {g g' : Goroutine} (hstep : HubStep t h g h' g')
    (hg : g.Fits h t) {p : PeerIdentity} {x : Nat} (hbefore : h.devices p = some x)
    (hafter : h'.devices p ≠ some x) : (h.sessions x).retireOnce = true := by
  cases hstep with
  | attempt identity version n =>
    unfold Hub.attempt at hafter
    split at hafter
    · rename_i hslot
      have hp : p ≠ identity := by
        rintro rfl
        rw [hbefore] at hslot
        cases hslot
      simp [Hub.install, hp, hbefore] at hafter
    · split at hafter <;> exact absurd hbefore hafter
  | observe observed =>
    unfold Hub.observe at hafter
    split at hafter
    · exact absurd hbefore hafter
    · split at hafter <;> exact absurd hbefore hafter
  | delete q y i =>
    by_cases hsame : p = q ∧ x = y
    · rw [hsame.2]
      exact hg.1.2.1
    · exact absurd (Hub.delete_devices.mpr ⟨hbefore, hsame⟩) hafter
  | _ => exact absurd hbefore hafter

/-- An instance that was made has a slot or is retired. -/
theorem slot_or_retired {c : Threads Hub Goroutine} (hc : Threads.Reaches HubStep Hub.start c) :
    ∀ x < c.shared.made,
      (∃ p, c.shared.devices p = some x) ∨ (c.shared.sessions x).retireOnce = true := by
  induction hc with
  | refl => exact fun x hx => absurd hx (Nat.not_lt_zero x)
  | tail hreach hstep ih =>
    cases hstep with
    | @of t h' g' hstep =>
      rename_i c
      have hfits := (hub_invariant hreach).2 t
      intro x hx
      by_cases hold : x < c.shared.made
      · by_cases hretired : (c.shared.sessions x).retireOnce = true
        · exact Or.inr ((hstep.evolves hfits).retired x hold hretired)
        · obtain ⟨p, hp⟩ := (ih x hold).resolve_right hretired
          refine Or.inl ⟨p, ?_⟩
          by_contra hlost
          exact hretired (hstep.empties hfits hp hlost)
      · -- the new instance has the slot it was made for
        rcases hstep.handle with ⟨p, version, n, -, rfl, -⟩ | ⟨-, hmade, -⟩
        · have hx : x < c.shared.made + 1 := hx
          obtain rfl : x = c.shared.made := by omega
          exact Or.inl ⟨p, by simp [Hub.install]⟩
        · rw [hmade] at hx
          exact absurd hx hold

/-- What a pass leaves of an instance: it is retired, has no slot, and none of its operations is
unfinished. -/
structure Gone (c : Threads Hub Goroutine) (x : Nat) : Prop where
  retired : (c.shared.sessions x).retireOnce = true
  absent : ∀ p, c.shared.devices p ≠ some x
  drained : ∀ t p, c.thread t ≠ .operating p x

theorem Hub.Absent.gone {c : Threads Hub Goroutine} (hc : Threads.Reaches HubStep Hub.start c)
    {x : Nat} (habsent : c.shared.Absent x) : Gone c x where
  retired := (slot_or_retired hc x habsent.1).resolve_left fun ⟨p, hp⟩ => habsent.2 p hp
  absent := habsent.2
  drained := by
    intro t p ht
    have hfits := (hub_invariant hc).2 t
    rw [ht] at hfits
    exact habsent.2 p hfits.2.2

/-! ### One call of `Disconnect` -/

/-- The goroutine is in the call of `Disconnect` for the handle, or has returned from it. -/
def Goroutine.Serves (h : Hub) (session : ConnectedSession) : Goroutine → Prop
  | disconnecting observed => observed = session
  | draining _ x _ | deleting _ x _ | releasing _ x _ | unlocking _ x _ => session.session = some x
  | disconnected _ => ∃ x, session.session = some x ∧ h.Absent x
  | _ => False

/-- The handle is of an instance, and only the slot of its device may hold the instance. -/
structure Hub.Knows (h : Hub) (o : ConnectedSession) (x : Nat) : Prop where
  session : o.session = some x
  made : x < h.made
  peer : ∀ p, h.devices p = some x → p = o.peer

theorem Hub.Knows.evolves {h h' : Hub} {t x : Nat} {session : ConnectedSession}
    (hk : h.Knows session x) (he : Evolves t h h') : h'.Knows session x :=
  ⟨hk.session, Nat.lt_of_lt_of_le hk.made he.made_le,
    fun p hp => hk.peer p (he.slots p x hk.made hp)⟩

theorem Goroutine.Serves.evolves {h h' : Hub} {t : Nat} {session : ConnectedSession} {g : Goroutine}
    (hg : g.Serves h session) (he : Evolves t h h') : g.Serves h' session := by
  cases g with
  | disconnected initiated =>
    obtain ⟨x, hx, habsent⟩ := hg
    exact ⟨x, hx, habsent.evolves he⟩
  | _ => exact hg

/-- A step of the call: it goes on, or it returns and the instance has no slot. -/
theorem HubStep.serves {t x : Nat} {h h' : Hub} {g g' : Goroutine} {session : ConnectedSession}
    (hstep : HubStep t h g h' g') (hg : g.Fits h t) (hk : h.Knows session x)
    (hserves : g.Serves h session) : g'.Serves h' session := by
  cases hstep with
  | observe observed =>
    obtain rfl : observed = session := hserves
    have hother {y : Option Nat} (hy : h.devices observed.peer = y) (hne : y ≠ some x) :
        h.Absent x := by
      refine ⟨hk.made, fun p hp => hne ?_⟩
      rw [← hy, ← hk.peer p hp, hp]
    unfold Hub.observe
    split
    · rename_i hslot
      exact ⟨x, hk.session, hother hslot (Option.some_ne_none x).symm⟩
    · rename_i y hslot
      split
      · rename_i hne
        rw [hk.session] at hne
        exact ⟨x, hk.session, hother hslot hne⟩
      · rename_i hsame
        exact (not_not.mp hsame).symm
  | lock p y i => exact hserves
  | delete p y i => exact hserves
  | markReleased p y i => exact hserves
  | unlock p y i => exact ⟨y, hserves, hg.1, hg.2.1⟩
  | _ => exact hserves.elim

/-- A call that makes a step has not returned. -/
theorem Goroutine.Serves.disconnects {t : Nat} {h h' : Hub} {g g' : Goroutine}
    {session : ConnectedSession} (hserves : g.Serves h session) (hstep : HubStep t h g h' g') :
    g.Disconnects session.session := by
  cases g with
  | disconnecting observed =>
    obtain rfl : observed = session := hserves
    rfl
  | draining p x i | deleting p x i | releasing p x i | unlocking p x i => exact hserves.symm
  | disconnected i => cases hstep
  | _ => exact hserves.elim

/-! ### The invariant of the pass -/

/-- The sessions that the pass has not checked. -/
def PassPosition.left : PassPosition → List ConnectedSession
  | ticking => []
  | checking left | denied _ left | disconnecting _ _ left => left

/-- The session that the pass is about to disconnect or is disconnecting. -/
def PassPosition.current : PassPosition → Option ConnectedSession
  | ticking | checking _ => none
  | denied session _ | disconnecting _ session _ => some session

/-- What holds at every moment of a pass: the hub is in a state that goroutines can bring it to, the
list is in the order of the checks, and a session whose check did not succeed is the current one or
has left its slot. -/
structure Monitored (s : Monitoring δ) : Prop where
  reaches : Threads.Reaches HubStep Hub.start s.hub
  unlisted : s.position = .ticking → s.checked = []
  order : s.listed = s.checked.map Prod.fst ++ s.position.left
  nodup : s.listed.Nodup
  knows : ∀ o ∈ s.listed, ∃ x, s.hub.shared.Knows o x
  distinct : ∀ o ∈ s.listed, ∀ o' ∈ s.listed, o.session = o'.session → o = o'
  current : ∀ o, s.position.current = some o → (o, false) ∈ s.checked
  settled : ∀ o, (o, false) ∈ s.checked → s.position.current = some o ∨
    ∃ x, o.session = some x ∧ s.hub.shared.Absent x
  call : ∀ t o left, s.position = .disconnecting t o left →
    (s.hub.thread t).Serves s.hub.shared o

namespace Monitored

variable {authorize : δ → ConnectedSession → Bool} {s s' : Monitoring δ}

theorem mem_listed (hs : Monitored s) {o : ConnectedSession} {authorized : Bool}
    (ho : (o, authorized) ∈ s.checked) : o ∈ s.listed := by
  rw [hs.order]
  exact List.mem_append_left _ (List.mem_map_of_mem ho)

/-- A session is checked once. -/
theorem checked_once (hs : Monitored s) {o o' : ConnectedSession}
    (hdenied : (o, false) ∈ s.checked) (hauthorized : (o', true) ∈ s.checked) :
    o'.session ≠ o.session := by
  intro hsame
  obtain rfl := hs.distinct o' (hs.mem_listed hauthorized) o (hs.mem_listed hdenied) hsame
  have hnodup : (s.checked.map Prod.fst).Nodup := by
    have := hs.nodup
    rw [hs.order] at this
    exact this.of_append_left
  have hpair := List.inj_on_of_nodup_map hnodup hauthorized hdenied rfl
  cases hpair

/-- A step of the hub, in the pass's own call or elsewhere. -/
theorem hub (hs : Monitored s) {t : Nat} {h' : Hub} {g' : Goroutine}
    (hstep : HubStep t s.hub.shared (s.hub.thread t) h' g')
    (hcall : ∀ o left, s.position = .disconnecting t o left → g'.Serves h' o) :
    Monitored { s with hub := ⟨h', Function.update s.hub.thread t g'⟩ } := by
  have hevolves := hstep.evolves ((hub_invariant hs.reaches).2 t)
  refine ⟨hs.reaches.tail (.of s.hub t hstep), hs.unlisted, hs.order, hs.nodup, ?_, hs.distinct,
    hs.current, ?_, ?_⟩
  · intro o ho
    obtain ⟨x, hk⟩ := hs.knows o ho
    exact ⟨x, hk.evolves hevolves⟩
  · intro o ho
    refine (hs.settled o ho).imp_right ?_
    rintro ⟨x, hx, habsent⟩
    exact ⟨x, hx, habsent.evolves hevolves⟩
  · intro u o left hposition
    by_cases hu : u = t
    · subst hu
      simpa using hcall o left hposition
    · simpa [hu] using (hs.call u o left hposition).evolves hevolves

theorem list (hs : Monitored s) {sessions : List ConnectedSession}
    (hposition : s.position = .ticking) (hsessions : s.hub.shared.ConnectedSessions sessions) :
    Monitored { s with position := .checking sessions, listed := sessions } := by
  have hsound := (hub_invariant hs.reaches).1
  have hnone := hs.unlisted hposition
  refine ⟨hs.reaches, fun h => (by cases h), ?_, hsessions.nodup, ?_, ?_, fun o ho => (by cases ho), ?_,
    fun _ _ _ h => (by cases h)⟩
  · simp [hnone, PassPosition.left]
  · intro o ho
    obtain ⟨x, hslot, heq⟩ := (hsessions.handles o).mp ho
    exact ⟨x, congrArg ConnectedSession.session heq, hsound.slot_made o.peer x hslot,
      fun p hp => hsound.slot_unique p o.peer x hp hslot⟩
  · intro o ho o' ho' hsame
    obtain ⟨x, hslot, heq⟩ := (hsessions.handles o).mp ho
    obtain ⟨x', hslot', heq'⟩ := (hsessions.handles o').mp ho'
    rw [heq, heq'] at hsame
    cases hsame
    rw [heq, heq', hsound.slot_unique _ _ x hslot hslot']
  · intro o ho
    dsimp only at ho
    rw [hnone] at ho
    cases ho

theorem authorized (hs : Monitored s) {session : ConnectedSession} {left : List ConnectedSession}
    (hposition : s.position = .checking (session :: left)) :
    Monitored { s with position := .checking left, checked := s.checked ++ [(session, true)] } := by
  refine ⟨hs.reaches, fun h => (by cases h), ?_, hs.nodup, hs.knows, hs.distinct,
    fun o ho => (by cases ho), ?_, fun _ _ _ h => (by cases h)⟩
  · simp [hs.order, hposition, PassPosition.left]
  · intro o ho
    have ho : (o, false) ∈ s.checked := by simpa using ho
    exact Or.inr ((hs.settled o ho).resolve_left fun h => by rw [hposition] at h; cases h)

theorem denied (hs : Monitored s) {session : ConnectedSession} {left : List ConnectedSession}
    (hposition : s.position = .checking (session :: left)) :
    Monitored { s with
      position := .denied session left, checked := s.checked ++ [(session, false)] } := by
  refine ⟨hs.reaches, fun h => (by cases h), ?_, hs.nodup, hs.knows, hs.distinct, ?_, ?_,
    fun _ _ _ h => (by cases h)⟩
  · simp [hs.order, hposition, PassPosition.left]
  · intro o ho
    cases ho
    simp
  · intro o ho
    have ho : (o, false) ∈ s.checked ∨ o = session := by simpa using ho
    rcases ho with ho | rfl
    · exact Or.inr ((hs.settled o ho).resolve_left fun h => by rw [hposition] at h; cases h)
    · exact Or.inl rfl

theorem called (hs : Monitored s) {t : Nat} {session : ConnectedSession}
    {left : List ConnectedSession} (hposition : s.position = .denied session left)
    (hidle : s.hub.thread t = .idle) :
    Monitored { s with
      hub := ⟨s.hub.shared, Function.update s.hub.thread t (.disconnecting session)⟩
      position := .disconnecting t session left } := by
  have hcurrent := hs.current session (by rw [hposition]; rfl)
  obtain ⟨x, hk⟩ := hs.knows session (hs.mem_listed hcurrent)
  have hstep : HubStep t s.hub.shared (s.hub.thread t) s.hub.shared (.disconnecting session) := by
    rw [hidle]
    refine .disconnect _ session fun y hy => ?_
    rw [hk.session] at hy
    cases hy
    exact hk.made
  have h := hs.hub hstep fun o l ho => by rw [hposition] at ho; cases ho
  refine ⟨h.reaches, fun h => (by cases h), ?_, h.nodup, h.knows, h.distinct, ?_, ?_, ?_⟩
  · have := hs.order
    rw [hposition] at this
    exact this
  · intro o ho
    cases ho
    exact hcurrent
  · intro o ho
    have := hs.settled o ho
    rw [hposition] at this
    exact this
  · intro u o l ho
    cases ho
    simp [Goroutine.Serves]

theorem ran (hs : Monitored s) {t : Nat} {session : ConnectedSession}
    {left : List ConnectedSession} {h' : Hub} {g' : Goroutine}
    (hposition : s.position = .disconnecting t session left)
    (hstep : HubStep t s.hub.shared (s.hub.thread t) h' g') :
    Monitored { s with hub := ⟨h', Function.update s.hub.thread t g'⟩ } := by
  have hcurrent := hs.current session (by rw [hposition]; rfl)
  obtain ⟨x, hk⟩ := hs.knows session (hs.mem_listed hcurrent)
  refine hs.hub hstep fun o l ho => ?_
  rw [hposition] at ho
  cases ho
  exact hstep.serves ((hub_invariant hs.reaches).2 t) hk (hs.call t session left hposition)

theorem done (hs : Monitored s) {t : Nat} {session : ConnectedSession}
    {left : List ConnectedSession} {initiated : Bool}
    (hposition : s.position = .disconnecting t session left)
    (hreturned : s.hub.thread t = .disconnected initiated) :
    Monitored { s with position := .checking left } := by
  refine ⟨hs.reaches, fun h => (by cases h), ?_, hs.nodup, hs.knows, hs.distinct,
    fun o ho => (by cases ho), ?_, fun _ _ _ h => (by cases h)⟩
  · have := hs.order
    rw [hposition] at this
    exact this
  · intro o ho
    refine Or.inr ?_
    rcases hs.settled o ho with hcurrent | habsent
    · rw [hposition] at hcurrent
      cases hcurrent
      have hserves := hs.call t session left hposition
      rw [hreturned] at hserves
      exact hserves
    · exact habsent

theorem pass (hs : Monitored s) (hstep : PassStep authorize s s') : Monitored s' := by
  cases hstep with
  | list sessions hposition hsessions => exact hs.list hposition hsessions
  | authorized session left hposition => exact hs.authorized hposition
  | denied session left failed hposition => exact hs.denied hposition
  | call t session left hposition hidle => exact hs.called hposition hidle
  | run t session left h' g' hposition hstep => exact hs.ran hposition hstep
  | done t session left initiated hposition hreturned => exact hs.done hposition hreturned

theorem other (hs : Monitored s) (hstep : OtherStep s s') : Monitored s' := by
  cases hstep with
  | hub t h' g' hstep hfree => exact hs.hub hstep fun o left ho => absurd ho (hfree o left)
  | commit database => exact ⟨hs.reaches, hs.unlisted, hs.order, hs.nodup, hs.knows, hs.distinct,
      hs.current, hs.settled, hs.call⟩

theorem leads (hs : Monitored s) (hrun : Monitoring.Leads authorize s s') : Monitored s' := by
  induction hrun with
  | refl => exact hs
  | tail _ hstep ih => exact hstep.elim ih.pass ih.other

theorem start {c : Threads Hub Goroutine} (hc : Threads.Reaches HubStep Hub.start c)
    (database : δ) : Monitored (.start c database) :=
  ⟨hc, fun _ => rfl, rfl, List.nodup_nil, fun _ ho => (by cases ho), fun _ ho => (by cases ho),
    fun _ ho => (by cases ho), fun _ ho => (by cases ho), fun _ _ _ h => (by cases h)⟩

end Monitored

/-! ### What the pass does -/

section Pass

variable {authorize : δ → ConnectedSession → Bool} {s s' : Monitoring δ}

/-- The pass keeps the outcomes of its checks. -/
theorem Monitoring.Leads.checked (hrun : Monitoring.Leads authorize s s') :
    s.checked <+: s'.checked := by
  induction hrun with
  | refl => exact List.prefix_rfl
  | tail _ hstep ih =>
    refine ih.trans ?_
    rcases hstep with hstep | hstep <;> cases hstep <;>
      first | exact List.prefix_append _ _ | exact List.prefix_rfl

/-- An instance that a step of the pass retires is the one whose check did not succeed. -/
theorem Monitored.retires (hs : Monitored s) (hstep : PassStep authorize s s') {x : Nat}
    (hbefore : (s.hub.shared.sessions x).retireOnce = false)
    (hafter : (s'.hub.shared.sessions x).retireOnce = true) :
    ∃ o, (o, false) ∈ s.checked ∧ o.session = some x := by
  cases hstep with
  | run t session left h' g' hposition hstep =>
    refine ⟨session, hs.current session (by rw [hposition]; rfl), ?_⟩
    have hdisconnects := (hs.call t session left hposition).disconnects hstep
    by_contra hother
    rw [(hstep.disconnects hdisconnects hother).1, hbefore] at hafter
    cases hafter
  | _ =>
    rw [hbefore] at hafter
    cases hafter

/-- A pass is complete when it ends, and precise in each of its steps. -/
structure PassExact (authorize : δ → ConnectedSession → Bool) (s : Monitoring δ) : Prop where
  complete : s.position = .checking [] →
    (∀ o ∈ s.listed, ∃ authorized, (o, authorized) ∈ s.checked) ∧
    ∀ o, (o, false) ∈ s.checked → ∃ x, o.session = some x ∧ Gone s.hub x
  precise : ∀ s', PassStep authorize s s' → ∀ x,
    (s.hub.shared.sessions x).retireOnce = false → (s'.hub.shared.sessions x).retireOnce = true →
    (∃ o ∈ s.listed, o.session = some x ∧ (o, false) ∈ s.checked) ∧
    ∀ s'', Monitoring.Leads authorize s' s'' → ∀ o, (o, true) ∈ s''.checked → o.session ≠ some x

theorem monitor_pass_exact {c : Threads Hub Goroutine} {database : δ}
    (hc : Threads.Reaches HubStep Hub.start c)
    (hrun : Monitoring.Leads authorize (.start c database) s) : PassExact authorize s := by
  have hs := (Monitored.start hc database).leads hrun
  refine ⟨fun hended => ⟨fun o ho => ?_, fun o ho => ?_⟩, fun s' hstep x hbefore hafter => ?_⟩
  · have horder := hs.order
    simp only [hended, PassPosition.left, List.append_nil] at horder
    rw [horder] at ho
    obtain ⟨⟨_, authorized⟩, hmem, rfl⟩ := List.mem_map.mp ho
    exact ⟨authorized, hmem⟩
  · have hsettled := hs.settled o ho
    rw [hended] at hsettled
    obtain ⟨x, hx, habsent⟩ := hsettled.resolve_left fun h => by cases h
    exact ⟨x, hx, habsent.gone hs.reaches⟩
  · obtain ⟨o, ho, hx⟩ := hs.retires hstep hbefore hafter
    refine ⟨⟨o, hs.mem_listed ho, hx, ho⟩, fun s'' hlater o' ho' hsame => ?_⟩
    have hlater : Monitoring.Leads authorize s s'' := .head (Or.inl hstep) hlater
    exact (hs.leads hlater).checked_once (hlater.checked.subset ho) ho' (hsame.trans hx.symm)

end Pass

theorem first_registered : ∃ thread, Threads.Reaches HubStep Hub.start
    ⟨Hub.start.shared.install sampleDevice 1, thread⟩ ∧ thread 1 = .idle := by
  have started : Threads.Reaches HubStep Hub.start Hub.start := .refl
  have registered := (started.tail (.of _ 0 (.register _ sampleDevice 1 16))).tail
    (.of _ 0 (.attempt _ sampleDevice 1 0))
  exact ⟨_, registered, rfl⟩

theorem first_sessions (p : PeerIdentity) (version : Int) :
    (Hub.start.shared.install p version).ConnectedSessions [⟨p, version, some 0⟩] := by
  refine ⟨List.nodup_singleton _, fun o => ?_⟩
  rw [List.mem_singleton]
  constructor
  · rintro rfl
    exact ⟨0, Function.update_self _ _ _, rfl⟩
  · rintro ⟨x, hslot, heq⟩
    by_cases hp : o.peer = p
    · simp only [Hub.install, hp, Function.update_self] at hslot
      cases hslot
      rw [heq, hp]
      rfl
    · simp only [Hub.install, Function.update_of_ne hp] at hslot
      cases hslot

/-- The registry does not know the one connected device, and the pass disconnects it. -/
theorem monitor_pass_exact_unknown : ∃ c s, Threads.Reaches HubStep Hub.start c ∧
    Monitoring.Leads sessionAuthorizer (.start c Registry.empty) s ∧ s.position = .checking [] ∧
    (⟨sampleDevice, 1, some 0⟩, false) ∈ s.checked ∧ PassExact sessionAuthorizer s := by
  obtain ⟨thread, hc, hidle⟩ := first_registered
  have ticking : Monitoring.Leads sessionAuthorizer
    (.start ⟨Hub.start.shared.install sampleDevice 1, thread⟩ Registry.empty) _ := .refl
  have listed := ticking.tail (.inl (.list _ rfl (first_sessions sampleDevice 1)))
  have denied := listed.tail (.inl (.denied _ [] false rfl (Or.inr rfl)))
  have called := denied.tail (.inl (.call 1 _ [] rfl hidle))
  have observed := called.tail (.inl (.run 1 _ [] _ _ rfl (.observe _ _)))
  have drained := observed.tail (.inl (.run 1 _ [] _ _ rfl (.lock _ sampleDevice 0 true rfl rfl)))
  have deleted := drained.tail (.inl (.run 1 _ [] _ _ rfl (.delete _ sampleDevice 0 true)))
  have released := deleted.tail (.inl (.run 1 _ [] _ _ rfl (.markReleased _ sampleDevice 0 true)))
  have unlocked := released.tail (.inl (.run 1 _ [] _ _ rfl (.unlock _ sampleDevice 0 true)))
  have ended := unlocked.tail (.inl (.done 1 _ [] true rfl rfl))
  exact ⟨_, _, hc, ended, rfl, List.mem_singleton_self _, monitor_pass_exact hc ended⟩

end SevenMirror.Relay
