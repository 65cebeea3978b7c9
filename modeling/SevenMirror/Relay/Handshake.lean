import SevenMirror.Admission.Authorization
import SevenMirror.HttpApi.Requests
import SevenMirror.Lib.Holders
import SevenMirror.Lib.Slices

/-! How a connection becomes a session: `ServeHTTP` and the authentication frame of
`internal/relay/authenticated_handler.go`, with `AuthenticateConnection` of
`internal/admission/relay_authenticator.go`.  Many connections are in it at once, each a goroutine,
while the registry changes; a channel of `MaxConcurrent` slots bounds those that are not yet
authenticated. -/

namespace SevenMirror.Handshake

open Lib MembershipCodec Admission HttpApi RateLimit

/-! ### The frame -/

def authFrameSize : Nat := 68

def authMagic : Bytes := "SNA1".toUTF8.toList

inductive FrameError
  | tokenSize | notBinary | invalid
deriving DecidableEq, Repr

/-- The fields of a frame. -/
def frameFields (peer : PeerIdentity) (token : Bytes) : List Bytes :=
  [authMagic, peer.workspaceID.bytes, peer.deviceID.bytes, token]

def encodeAuthenticationFrame (peer : PeerIdentity) (token : Bytes) : Except FrameError Bytes := do
  reject (token.length ≠ 32) .tokenSize
  return (frameFields peer token).flatten

/-- `readAuthenticationFrame` of a message that arrives in time; longer ones exceed the read limit. -/
def readAuthenticationFrame (binary : Bool) (frame : Bytes) :
    Except FrameError (PeerIdentity × Bytes) := do
  reject (¬ binary) .notBinary
  if h : frame.length = authFrameSize then
    reject (slice frame 0 4 ≠ authMagic) .invalid
    let peer : PeerIdentity := ⟨.ofSlice frame 4 16 (by unfold authFrameSize at h; omega),
      .ofSlice frame 20 16 (by unfold authFrameSize at h; omega)⟩
    reject (allZero peer.workspaceID.bytes ∨ allZero peer.deviceID.bytes) .invalid
    return (peer, slice frame 36 32)
  else .error .invalid

/-- A frame that is accepted is that of a device whose identifiers are not zero. -/
theorem readAuthenticationFrame_ok {binary : Bool} {frame : Bytes} {peer : PeerIdentity}
    {token : Bytes} (h : readAuthenticationFrame binary frame = .ok (peer, token)) :
    binary = true ∧ allZero peer.workspaceID.bytes = false ∧ allZero peer.deviceID.bytes = false ∧
      encodeAuthenticationFrame peer token = .ok frame := by
  simp only [readAuthenticationFrame, bind_eq_ok, exists_unit, reject_eq_ok, Bool.not_eq_true,
    Bool.not_eq_false] at h
  obtain ⟨hbinary, h⟩ := h
  split at h
  · rename_i hsize
    simp only [bind_eq_ok, exists_unit, reject_eq_ok, pure_eq_ok, Prod.mk.injEq, not_or,
      Bool.not_eq_true, not_not] at h
    obtain ⟨hstart, ⟨hworkspace, hdevice⟩, rfl, rfl⟩ := h
    have hfields : (cutFields frame 0 [4, 16, 16, 32]).flatten = frame :=
      flatten_cutFields (by rw [hsize]; rfl)
    simp only [encodeAuthenticationFrame, bind_eq_ok, exists_unit, reject_eq_ok, pure_eq_ok]
    refine ⟨hbinary, hworkspace, hdevice, by simp [slice, hsize, authFrameSize], ?_⟩
    rw [frameFields, ← hstart]
    exact hfields
  · cases h

/-! ### The handler -/

/-- Those of `DefaultAuthenticationLimits`. -/
def defaultAuthenticationAttempts : AttemptLimits := ⟨20, 4096⟩

structure ConnectionRequest where
  /-- The method is `GET`. -/
  get : Bool
  /-- What the address resolver returns. -/
  client : Option Bytes

/-- What the connections share: the registry, the limiter, the length of the channel `authSlots`, and
the instants before which `RecordConnectionActivity` writes nothing. -/
structure Shared where
  registry : Registry
  attempts : Limiter
  authSlots : Nat
  nextActivity : PeerIdentity → Option Time

/-- The statements that are left of an `Authenticate`. -/
abbrev LoginRest := Statements LoginQuery LoginQuery.Rows (Except LoginError DeviceIdentity)

/-- Where a connection stands in `ServeHTTP`.  From `upgrading` on it holds a slot, until it gives it
back before it is served, or in the deferred function when it is not. -/
inductive Connection
  | idle
  | arrived (request : ConnectionRequest)
  | allowed
  | upgrading
  | reading
  | authenticating (peer : PeerIdentity) (token : Bytes) (now : Time) (rest : LoginRest)
  | authenticated (peer : PeerIdentity) (token : Bytes) (version : Nat)
  | serving (peer : PeerIdentity) (token : Bytes) (version : Nat)
  | failed
  | refused (failure : Failure)
  | closed

/-- What the goroutine meets: a request, what the upgrade and the client give, a statement that is
executed or fails, and the end of the session.  Other goroutines call the store. -/
inductive Choice
  | arrive (request : ConnectionRequest)
  | call (call : Call)
  | proceed (now : Time)
  | upgrade (ok : Bool)
  | message (binary : Bool) (payload : Bytes) (now : Time)
  | fail
  | finish

def methodNotAllowed : Failure := ⟨405, "method not allowed", [("Allow", "GET")]⟩

def capacityUnavailable : Failure := ⟨503, "authentication capacity unavailable", []⟩

def login (peer : PeerIdentity) (token : Bytes) : Login := ⟨peer.workspaceID, peer.deviceID, token⟩

section Handler

variable (crypto : Crypto) (maxConcurrent : Nat)

/-- One statement of `Authenticate`, or what follows its result. -/
def advanceLogin (s : Shared) (peer : PeerIdentity) (token : Bytes) (now : Time) :
    LoginRest → Shared × Connection
  | .done (.error _) => (s, .failed)
  | .done (.ok identity) =>
    ({ s with nextActivity := Function.update s.nextActivity peer (some ⟨now.nanos + 60000000000⟩) },
      if identity.credentialVersion < 1 then .failed
      else .authenticated peer token identity.credentialVersion)
  | .query q next | .rows q next =>
    (s, .authenticating peer token now (next (answerLogin crypto (login peer token) s.registry q)))
  | .close next => (s, .authenticating peer token now next)

/-- The first statements, up to the slots. -/
def enter (s : Shared) (request : ConnectionRequest) (now : Time) : Shared × Connection :=
  if ¬ request.get then (s, .refused methodNotAllowed)
  else
    match allow s.attempts request.client now with
    | (attempts, none) => ({ s with attempts }, .refused invalidClientAddress)
    | (attempts, some false) =>
      ({ s with attempts }, .refused (tooMany "too many connection attempts"))
    | (attempts, some true) => ({ s with attempts }, .allowed)

/-- A receive from the channel, which blocks while it is empty. -/
def release (s : Shared) (after : Connection) : Option (Shared × Connection) :=
  if s.authSlots = 0 then none else some ({ s with authSlots := s.authSlots - 1 }, after)

/-- The next step of a goroutine. -/
def next (choice : Choice) (s : Shared) (g : Connection) : Option (Shared × Connection) :=
  match g, choice with
  | .idle, .arrive request => some (s, .arrived request)
  | .idle, .call call => some ({ s with registry := ((store crypto).step s.registry call).1 }, .idle)
  | .arrived request, .proceed now => some (enter s request now)
  | .allowed, .proceed _ =>
    if s.authSlots < maxConcurrent then some ({ s with authSlots := s.authSlots + 1 }, .upgrading)
    else some (s, .refused capacityUnavailable)
  | .upgrading, .upgrade ok => some (s, if ok then .reading else .failed)
  | .reading, .message binary payload now =>
    match readAuthenticationFrame binary payload with
    | .error _ => some (s, .failed)
    | .ok (peer, token) => some (s, .authenticating peer token now (authenticate (login peer token)))
  | .reading, .fail => some (s, .failed)
  | .authenticating peer token now rest, .proceed _ => some (advanceLogin crypto s peer token now rest)
  | .authenticating _ _ _ _, .fail => some (s, .failed)
  | .authenticated peer token version, .proceed _ => release s (.serving peer token version)
  | .failed, .proceed _ => release s .closed
  | .serving _ _ _, .finish => some (s, .closed)
  | _, _ => none

def Steps (_ : Nat) (s : Shared) (g : Connection) (s' : Shared) (g' : Connection) : Prop :=
  ∃ choice, next crypto maxConcurrent choice s g = some (s', g')

end Handler

/-- The connection holds a slot. -/
def Connection.holds : Connection → Prop
  | .upgrading | .reading | .authenticating .. | .authenticated .. | .failed => True
  | _ => False

/-- A handler that nobody has connected to. -/
def start (registry : Registry) (attempts : Limiter) : Threads Shared Connection where
  shared := ⟨registry, attempts, 0, fun _ => none⟩
  thread _ := .idle

section Transitions

variable (crypto : Crypto) (maxConcurrent : Nat) (s : Shared)

/-- What a goroutine can do. -/
inductive Transition : Connection → Shared → Connection → Prop
  | arrive (request : ConnectionRequest) : Transition .idle s (.arrived request)
  | call (call : Call) :
      Transition .idle { s with registry := ((store crypto).step s.registry call).1 } .idle
  | refuse (request : ConnectionRequest) (attempts : Limiter) (failure : Failure) :
      Transition (.arrived request) { s with attempts } (.refused failure)
  | allow (request : ConnectionRequest) (attempts : Limiter) :
      Transition (.arrived request) { s with attempts } .allowed
  | acquire : s.authSlots < maxConcurrent →
      Transition .allowed { s with authSlots := s.authSlots + 1 } .upgrading
  | full : Transition .allowed s (.refused capacityUnavailable)
  | upgraded : Transition .upgrading s .reading
  | framed (binary : Bool) (payload : Bytes) (peer : PeerIdentity) (token : Bytes) (now : Time) :
      readAuthenticationFrame binary payload = .ok (peer, token) →
      Transition .reading s (.authenticating peer token now (authenticate (login peer token)))
  | login (peer : PeerIdentity) (token : Bytes) (now : Time) (rest : LoginRest) :
      Transition (.authenticating peer token now rest)
        (advanceLogin crypto s peer token now rest).1 (advanceLogin crypto s peer token now rest).2
  | fail (g : Connection) : g.holds → Transition g s .failed
  | serve (peer : PeerIdentity) (token : Bytes) (version : Nat) : s.authSlots ≠ 0 →
      Transition (.authenticated peer token version) { s with authSlots := s.authSlots - 1 }
        (.serving peer token version)
  | close : s.authSlots ≠ 0 → Transition .failed { s with authSlots := s.authSlots - 1 } .closed
  | finish (peer : PeerIdentity) (token : Bytes) (version : Nat) :
      Transition (.serving peer token version) s .closed

end Transitions

section Slots

variable {crypto : Crypto} {maxConcurrent : Nat} {s s' : Shared} {g g' : Connection} {choice : Choice}

open Threads

theorem release_eq_some {after : Connection} (h : release s after = some (s', g')) :
    s.authSlots ≠ 0 ∧ s' = { s with authSlots := s.authSlots - 1 } ∧ g' = after := by
  simp only [release, Option.ite_none_left_eq_some, Option.some.injEq, Prod.mk.injEq] at h
  exact ⟨h.1, h.2.1.symm, h.2.2.symm⟩

theorem next_transition (h : next crypto maxConcurrent choice s g = some (s', g')) :
    Transition crypto maxConcurrent s g s' g' := by
  unfold next at h
  split at h
  case h_1 request =>
    cases h
    exact .arrive request
  case h_2 call =>
    cases h
    exact .call call
  case h_3 request now =>
    unfold enter at h
    split at h
    · cases h
      exact .refuse request s.attempts _
    · split at h <;> cases h
      · exact .refuse request _ _
      · exact .refuse request _ _
      · exact .allow request _
  case h_4 =>
    split at h
    · rename_i hslots
      cases h
      exact .acquire hslots
    · cases h
      exact .full
  case h_5 ok =>
    cases h
    cases ok with
    | true => exact .upgraded
    | false => exact .fail _ trivial
  case h_6 binary payload now =>
    split at h
    · cases h
      exact .fail _ trivial
    · rename_i peer token hframe
      cases h
      exact .framed binary payload peer token now hframe
  case h_7 | h_9 =>
    cases h
    exact .fail _ trivial
  case h_8 peer token now rest _ =>
    obtain ⟨rfl, rfl⟩ := Prod.mk.inj (Option.some.inj h)
    exact .login peer token now rest
  case h_10 peer token version _ =>
    obtain ⟨hslots, rfl, rfl⟩ := release_eq_some h
    exact .serve peer token version hslots
  case h_11 =>
    obtain ⟨hslots, rfl, rfl⟩ := release_eq_some h
    exact .close hslots
  case h_12 peer token version =>
    cases h
    exact .finish peer token version
  case h_13 => cases h

theorem advanceLogin_keeps {peer : PeerIdentity} {token : Bytes} {now : Time} (rest : LoginRest) :
    (advanceLogin crypto s peer token now rest).1.authSlots = s.authSlots ∧
      (advanceLogin crypto s peer token now rest).1.registry = s.registry ∧
      (advanceLogin crypto s peer token now rest).2.holds := by
  cases rest with
  | done result =>
    cases result with
    | error e => exact ⟨rfl, rfl, trivial⟩
    | ok identity =>
      simp only [advanceLogin, true_and]
      split <;> trivial
  | query | rows | close => exact ⟨rfl, rfl, trivial⟩

/-- A step takes a slot and then holds it, or held one and gives it back, or does neither. -/
theorem Transition.counted (h : Transition crypto maxConcurrent s g s' g') :
    Counted Connection.holds s.authSlots s'.authSlots g g' := by
  cases h with
  | arrive | call | refuse | allow | full | upgraded | framed | finish => exact .keep rfl Iff.rfl
  | acquire => exact .acquire rfl id trivial
  | login peer token now rest =>
    obtain ⟨hslots, -, hheld⟩ := advanceLogin_keeps rest
    exact .keep hslots ⟨fun _ => trivial, fun _ => hheld⟩
  | fail _ hheld => exact .keep rfl ⟨fun _ => hheld, fun _ => trivial⟩
  | serve _ _ _ hslots => exact .release (by simp only; omega) trivial id
  | close hslots => exact .release (by simp only; omega) trivial id

theorem Transition.bound (h : Transition crypto maxConcurrent s g s' g')
    (hs : s.authSlots ≤ maxConcurrent) : s'.authSlots ≤ maxConcurrent := by
  cases h with
  | arrive | call | refuse | allow | full | upgraded | framed | finish | fail => exact hs
  | acquire hslots => exact hslots
  | login peer token now rest => rwa [(advanceLogin_keeps rest).1]
  | serve | close => exact Nat.le_trans (Nat.sub_le _ _) hs

end Slots

/-- The slots count the connections that are being authenticated.  In every interleaving there are at
most `MaxConcurrent`; no connection waits for the channel when it gives its slot back; one is turned
away only when all slots are held; and when nobody is being authenticated, all are free. -/
theorem handshake_slots (crypto : Crypto) (maxConcurrent : Nat) (registry : Registry)
    (attempts : Limiter) (c : Threads Shared Connection)
    (h : Threads.Reaches (Steps crypto maxConcurrent) (start registry attempts) c) :
    (Threads.holders Connection.holds c.thread).encard = c.shared.authSlots ∧
    c.shared.authSlots ≤ maxConcurrent ∧
    (∀ t now, (c.thread t = .failed ∨
        ∃ peer token version, c.thread t = .authenticated peer token version) →
      (next crypto maxConcurrent (.proceed now) c.shared (c.thread t)).isSome) ∧
    (∀ t now s', c.thread t = .allowed →
      next crypto maxConcurrent (.proceed now) c.shared (c.thread t) =
        some (s', .refused capacityUnavailable) → c.shared.authSlots = maxConcurrent) ∧
    ((∀ t, ¬ (c.thread t).holds) → c.shared.authSlots = 0) := by
  have hholders : (Threads.holders Connection.holds c.thread).encard = c.shared.authSlots := by
    refine h.holders (fun t s g s' g' hstep => ?_) Set.encard_empty
    obtain ⟨choice, hnext⟩ := hstep
    exact (next_transition hnext).counted
  have hbound : c.shared.authSlots ≤ maxConcurrent := by
    refine (h.invariant (I := fun s => s.authSlots ≤ maxConcurrent) (P := fun _ _ _ => True)
      (fun t s g s' g' hstep hs _ => ?_) (fun _ _ _ _ _ _ _ _ _ _ _ _ => trivial)
      ⟨Nat.zero_le _, fun _ => trivial⟩).1
    obtain ⟨choice, hnext⟩ := hstep
    exact ⟨(next_transition hnext).bound hs, trivial⟩
  refine ⟨hholders, hbound, fun t now hthread => ?_, fun t now s' hthread hrefused => ?_,
    fun hnone => ?_⟩
  · have hslots : c.shared.authSlots ≠ 0 := by
      refine Threads.holders_pos (t := t) hholders ?_
      rcases hthread with hfailed | ⟨peer, token, version, hauthenticated⟩
      · rw [hfailed]
        trivial
      · rw [hauthenticated]
        trivial
    rcases hthread with hfailed | ⟨peer, token, version, hauthenticated⟩
    · simp only [hfailed, next, release, if_neg hslots, Option.isSome_some]
    · simp only [hauthenticated, next, release, if_neg hslots, Option.isSome_some]
  · rw [hthread] at hrefused
    simp only [next] at hrefused
    split at hrefused
    · cases hrefused
    · omega
  · rw [Threads.holders_none hnone, Set.encard_empty] at hholders
    exact_mod_cast hholders.symm

/-! One slot, which the first of two connections holds. -/

/-- The handler of the sample registry. -/
def sampleStart : Threads Shared Connection :=
  start sampleRegistry ((newClientRateLimiter defaultAuthenticationAttempts).get (by decide))

def samplePeer : PeerIdentity := ⟨sampleWorkspace, numbered 15 1⟩

def sampleFrame : Bytes := (frameFields samplePeer (numbered 31 1).bytes).flatten

/-- The first connection has sent its frame, and the second is before the slots. -/
def crowded : List (Nat × Choice) :=
  [(0, .arrive ⟨true, some [1]⟩), (1, .arrive ⟨true, some [2]⟩), (0, .proceed sampleInstant),
   (0, .proceed sampleInstant), (1, .proceed sampleInstant), (0, .upgrade true),
   (0, .message true sampleFrame sampleInstant)]

/-- Where a schedule leads, with one slot. -/
def reached (schedule : List (Nat × Choice)) : Threads Shared Connection :=
  Threads.scheduled (fun choice _ => next sampleCrypto 1 choice) sampleStart schedule

theorem reaches_reached {schedule : List (Nat × Choice)}
    (h : (Threads.follow (fun choice _ => next sampleCrypto 1 choice) sampleStart
      schedule).isSome = true) :
    Threads.Reaches (Steps sampleCrypto 1) sampleStart (reached schedule) :=
  Threads.reaches_scheduled (fun choice _ _ _ _ _ hnext => ⟨choice, hnext⟩) h

/-- The first connection goes on, and is served. -/
def connected : List (Nat × Choice) := crowded ++ List.replicate 4 (0, .proceed sampleInstant)

/-- The session of a connection that is served. -/
def Connection.session : Connection → Option (PeerIdentity × Bytes × Nat)
  | .serving peer token version => some (peer, token, version)
  | _ => none

set_option maxRecDepth 10000 in
/-- Where the two schedules lead. -/
theorem reached_samples :
    ((Threads.follow (fun choice _ => next sampleCrypto 1 choice) sampleStart crowded).isSome = true ∧
      (reached crowded).shared.authSlots = 1) ∧
    (Threads.follow (fun choice _ => next sampleCrypto 1 choice) sampleStart
      connected).isSome = true ∧
    ((reached connected).thread 0).session = some (samplePeer, (numbered 31 1).bytes, 1) ∧
    ((reached connected).shared.registry.device sampleWorkspace (numbered 15 1)).map
      (fun d => (d.revokedAtMs, d.credentialVersion)) = some (none, 1) := by
  decide +kernel

theorem handshake_slots_crowded : ∃ c, Threads.Reaches (Steps sampleCrypto 1) sampleStart c ∧
    (Threads.holders Connection.holds c.thread).encard = 1 := by
  obtain ⟨⟨hfollow, hslots⟩, -⟩ := reached_samples
  obtain ⟨hholders, -⟩ := handshake_slots sampleCrypto 1 _ _ _ (reaches_reached hfollow)
  rw [hslots] at hholders
  exact ⟨_, reaches_reached hfollow, hholders⟩

/-! ### Who is served -/

/-- The registry gave this credential to the device: its row is that of a member, or of one that has
been revoked; the version is not later than that of the row; and while it is that of the row, the row
has the hash of the token. -/
structure Issued (crypto : Crypto) (s : Registry) (peer : PeerIdentity) (token : Bytes) (version : Nat)
    (d : Device) : Prop where
  row : s.device peer.workspaceID peer.deviceID = some d
  joined : d.membershipState = .approved ∨ d.revokedAtMs.isSome
  version_le : version ≤ d.credentialVersion
  token : d.credentialVersion = version → d.authTokenHash = crypto.sha256 token

section Credentials

variable {crypto : Crypto} {maxConcurrent : Nat} {peer : PeerIdentity} {token : Bytes} {version : Nat}
  {d d' : Device}

theorem Issued.moves {s s' : Registry} {action : Action} (h : Issued crypto s peer token version d)
    (hrow : s'.device peer.workspaceID peer.deviceID = some d') (hmoves : d.Moves action d') :
    Issued crypto s' peer token version d' := by
  have hpending {state : MembershipState} (hstate : d.membershipState = state)
      (hunrevoked : d.revokedAtMs = none) : state = .approved := by
    rcases h.joined with happroved | hrevoked
    · exact hstate.symm.trans happroved
    · rw [hunrevoked] at hrevoked
      cases hrevoked
  cases hmoves with
  | other => exact ⟨hrow, h.joined, h.version_le, h.token⟩
  | prove now hstate hunrevoked => cases hpending hstate hunrevoked
  | rotateCredential hash happroved _ =>
    refine ⟨hrow, Or.inl happroved, Nat.le_succ_of_le h.version_le, fun hsame => ?_⟩
    have hle := h.version_le
    simp only at hsame
    omega
  | approve id encoded now hstate hunrevoked => cases hpending hstate hunrevoked
  | rename name id encoded hmember => exact ⟨hrow, Or.inl hmember.1, h.version_le, h.token⟩
  | revokePending | revoke => exact ⟨hrow, Or.inr rfl, h.version_le, h.token⟩
  | reissue d' hsame =>
    have hversion : d'.credentialVersion = d.credentialVersion := congrArg (·.credentialVersion) hsame
    have hstate : d'.membershipState = d.membershipState := congrArg (·.membershipState) hsame
    have hrevoked : d'.revokedAtMs = d.revokedAtMs := congrArg (·.revokedAtMs) hsame
    refine ⟨hrow, ?_, hversion ▸ h.version_le, fun hcurrent => ?_⟩
    · rw [hstate, hrevoked]
      exact h.joined
    · exact (congrArg (·.authTokenHash) hsame).trans (h.token (hversion.symm.trans hcurrent))

theorem Issued.call {s : Registry} (hs : Reachable crypto s)
    (h : Issued crypto s peer token version d) (call : Call) :
    ∃ d', Issued crypto ((store crypto).step s call).1 peer token version d' := by
  cases hcommit : commit crypto s call with
  | error e =>
    rw [store_error hcommit]
    exact ⟨d, h⟩
  | ok s' =>
    rw [store_ok hcommit]
    obtain ⟨d', hrow, ⟨rfl, -⟩ | ⟨action, -, hmoves⟩⟩ := (commit_step hs.chained hcommit).moves h.row
    · exact ⟨d', hrow, h.joined, h.version_le, h.token⟩
    · exact ⟨d', h.moves hrow hmoves⟩

/-- The client sent a frame of the device and the token. -/
def Framed (peer : PeerIdentity) (token : Bytes) : Prop :=
  ∃ frame, readAuthenticationFrame true frame = .ok (peer, token)

/-- What is known of a connection in each of its states. -/
def Connection.Vouched (crypto : Crypto) (s : Shared) : Connection → Prop
  | .authenticating peer token _ rest => Framed peer token ∧
      (rest = authenticate (login peer token) ∨ rest = selectIdentity (login peer token) ∨
        rest = .done (.error .unauthorized) ∨ ∃ identity d, rest = .done (.ok identity) ∧
          Issued crypto s.registry peer token identity.credentialVersion d)
  | .authenticated peer token version | .serving peer token version =>
    Framed peer token ∧ 1 ≤ version ∧ ∃ d, Issued crypto s.registry peer token version d
  | _ => True

/-- Only calls change the registry. -/
theorem Transition.registry {s s' : Shared} {g g' : Connection}
    (h : Transition crypto maxConcurrent s g s' g') :
    s'.registry = s.registry ∨ ∃ call, s'.registry = ((store crypto).step s.registry call).1 := by
  cases h with
  | call call => exact Or.inr ⟨call, rfl⟩
  | login peer token now rest => exact Or.inl (advanceLogin_keeps rest).2.1
  | _ => exact Or.inl rfl

theorem Transition.reachable {s s' : Shared} {g g' : Connection} (hs : Reachable crypto s.registry)
    (h : Transition crypto maxConcurrent s g s' g') : Reachable crypto s'.registry := by
  rcases h.registry with hsame | ⟨call, hcall⟩
  · rwa [hsame]
  · rw [hcall]
    exact hs.step call

theorem Transition.issued {s s' : Shared} {g g' : Connection} (hs : Reachable crypto s.registry)
    (h : Transition crypto maxConcurrent s g s' g')
    (hd : Issued crypto s.registry peer token version d) :
    ∃ d', Issued crypto s'.registry peer token version d' := by
  rcases h.registry with hsame | ⟨call, hcall⟩
  · rw [hsame]
    exact ⟨d, hd⟩
  · rw [hcall]
    exact hd.call hs call

/-- What is known of a connection stays known when others take their steps. -/
theorem Connection.Vouched.other {s s' : Shared} {g g' k : Connection}
    (hs : Reachable crypto s.registry) (hstep : Transition crypto maxConcurrent s g s' g')
    (h : k.Vouched crypto s) : k.Vouched crypto s' := by
  cases k with
  | authenticating peer token now rest =>
    obtain ⟨hframed, hrest⟩ := h
    refine ⟨hframed, hrest.imp id (Or.imp id (Or.imp id ?_))⟩
    rintro ⟨identity, d, hdone, hd⟩
    obtain ⟨d', hd'⟩ := hstep.issued hs hd
    exact ⟨identity, d', hdone, hd'⟩
  | authenticated peer token version | serving peer token version =>
    obtain ⟨hframed, hversion, d, hd⟩ := h
    exact ⟨hframed, hversion, hstep.issued hs hd⟩
  | _ => trivial

/-- The row that a login reads is that of the credential. -/
theorem issued_loginRow {s : Registry} (h : loginRow crypto (login peer token) s = some d) :
    Issued crypto s peer token d.credentialVersion d := by
  obtain ⟨hrow, htoken, -, happroved⟩ := loginRow_eq_some.mp h
  exact ⟨hrow, Or.inl happroved, Nat.le_refl _, fun _ => htoken⟩

/-- The statements of a login: the update leads to the read, and the read to the row. -/
theorem advanceLogin_vouched {s : Shared} {now : Time} {rest : LoginRest}
    (h : (Connection.authenticating peer token now rest).Vouched crypto s) :
    (advanceLogin crypto s peer token now rest).2.Vouched crypto
      (advanceLogin crypto s peer token now rest).1 := by
  obtain ⟨hframed, rfl | rfl | rfl | ⟨identity, d, rfl, hd⟩⟩ := h
  · unfold authenticate
    split
    · trivial
    · refine ⟨hframed, ?_⟩
      dsimp only
      split
      · exact Or.inr (Or.inr (Or.inl rfl))
      · exact Or.inr (Or.inl rfl)
  · refine ⟨hframed, Or.inr (Or.inr ?_)⟩
    cases hrow : loginRow crypto (login peer token) s.registry with
    | none => exact Or.inl (by simp [answerLogin, hrow])
    | some d => exact Or.inr ⟨(login peer token).identity d, d, by simp [answerLogin, hrow, Login.identity],
        issued_loginRow hrow⟩
  · trivial
  · simp only [advanceLogin]
    split
    · trivial
    · rename_i hversion
      exact ⟨hframed, by omega, d, hd⟩

theorem Transition.vouched {s s' : Shared} {g g' : Connection}
    (h : Transition crypto maxConcurrent s g s' g') (hg : g.Vouched crypto s) :
    g'.Vouched crypto s' := by
  cases h with
  | framed binary payload peer token now hframe =>
    have hbinary : binary = true := (readAuthenticationFrame_ok hframe).1
    subst hbinary
    exact ⟨⟨payload, hframe⟩, Or.inl rfl⟩
  | login peer token now rest => exact advanceLogin_vouched hg
  | serve peer token version hslots => exact hg
  | _ => trivial

end Credentials

/-- A connection that is served has presented, in its frame, a credential that the registry issued to
the device: in every interleaving with the calls of others, the version is one the row has had, and
the token is that of the row while the version is the current one.  The session is authorized exactly
until the device is revoked or its credential rotated. -/
theorem served_connections_authenticated (crypto : Crypto) (maxConcurrent : Nat) (registry : Registry)
    (hregistry : Reachable crypto registry) (attempts : Limiter) (c : Threads Shared Connection)
    (h : Threads.Reaches (Steps crypto maxConcurrent) (start registry attempts) c) (t : Nat)
    (peer : PeerIdentity) (token : Bytes) (version : Nat)
    (hserving : c.thread t = .serving peer token version) :
    (∃ frame, encodeAuthenticationFrame peer token = .ok frame) ∧
    allZero peer.workspaceID.bytes = false ∧ allZero peer.deviceID.bytes = false ∧
    ∃ d, c.shared.registry.device peer.workspaceID peer.deviceID = some d ∧
      1 ≤ version ∧ version ≤ d.credentialVersion ∧
      (d.credentialVersion = version → d.authTokenHash = crypto.sha256 token) ∧
      (isSessionAuthorized c.shared.registry peer.workspaceID peer.deviceID version = true ↔
        d.revokedAtMs = none ∧ d.credentialVersion = version) := by
  have hvouched := (h.invariant (I := fun s => Reachable crypto s.registry)
    (P := fun s _ g => g.Vouched crypto s)
    (fun t s g s' g' hstep hs hg => by
      obtain ⟨choice, hnext⟩ := hstep
      exact ⟨(next_transition hnext).reachable hs, (next_transition hnext).vouched hg⟩)
    (fun t s g s' g' hstep hs _ u k _ hk => by
      obtain ⟨choice, hnext⟩ := hstep
      exact hk.other hs (next_transition hnext))
    ⟨hregistry, fun _ => trivial⟩).2 t
  rw [hserving] at hvouched
  obtain ⟨⟨frame, hframe⟩, hversion, d, hd⟩ := hvouched
  obtain ⟨-, hworkspace, hdevice, hencode⟩ := readAuthenticationFrame_ok hframe
  refine ⟨⟨frame, hencode⟩, hworkspace, hdevice, d, hd.row, hversion, hd.version_le, hd.token, ?_⟩
  have hpositive : ¬ (version : Int) < 1 := by omega
  simp only [isSessionAuthorized, if_neg hpositive, hd.row, decide_eq_true_eq, Nat.cast_inj]
  constructor
  · rintro ⟨hunrevoked, hsame, -⟩
    exact ⟨hunrevoked, hsame⟩
  · rintro ⟨hunrevoked, hsame⟩
    exact ⟨hunrevoked, hsame, hd.joined.resolve_right (by simp [hunrevoked])⟩

theorem Connection.session_eq_some {g : Connection} {peer : PeerIdentity} {token : Bytes}
    {version : Nat} (h : g.session = some (peer, token, version)) : g = .serving peer token version := by
  cases g with
  | serving =>
    cases h
    rfl
  | _ => cases h

theorem served_connections_authenticated_first : ∃ c,
    Threads.Reaches (Steps sampleCrypto 1) sampleStart c ∧
    c.thread 0 = .serving samplePeer (numbered 31 1).bytes 1 ∧
    isSessionAuthorized c.shared.registry sampleWorkspace (numbered 15 1) 1 = true := by
  obtain ⟨-, hfollow, hsession, hrow⟩ := reached_samples
  have hserving := Connection.session_eq_some hsession
  obtain ⟨-, -, -, d, hd, -, -, -, hauthorized⟩ := served_connections_authenticated sampleCrypto 1 _
    sampleRegistry_reachable _ _ (reaches_reached hfollow) 0 _ _ _ hserving
  refine ⟨_, reaches_reached hfollow, hserving, hauthorized.mpr ?_⟩
  obtain ⟨d', hd', hcolumns⟩ := Option.map_eq_some_iff.mp hrow
  obtain rfl : d' = d := Option.some.inj (hd'.symm.trans hd)
  simpa using hcolumns

end SevenMirror.Handshake
