import SevenMirror.Basic
import SevenMirror.Lib.RWLock
import SevenMirror.Lib.Threads

/-! The connection slots of `internal/relay/hub.go`.  A critical section of the hub lock is one step
of its goroutine; the lock of a session's operations is held across steps. -/

namespace SevenMirror.Relay

open Lib

def maxHandoverAttempts : Nat := 2

inductive SessionRetirement
  | revoked
  | superseded
deriving DecidableEq, Repr

/-- A connection instance.  The channels `disconnected`, `superseded` and `released` are closed or
not, and `cancelled` is the state of the instance's context.  Whether `retireOnce` has run decides
which channels can be closed. -/
structure DeviceSession where
  operations : RWLock
  credentialVersion : Int
  cancelled : Bool
  disconnected : Bool
  superseded : Bool
  released : Bool
  retireOnce : Bool
  active : retireOnce = false → cancelled = false ∧ disconnected = false ∧ superseded = false
  retired : retireOnce = true → cancelled = true ∧ disconnected = !superseded

def newDeviceSession (credentialVersion : Int) : DeviceSession where
  operations := .free
  credentialVersion := credentialVersion
  cancelled := false
  disconnected := false
  superseded := false
  released := false
  retireOnce := false
  active := fun _ => ⟨rfl, rfl, rfl⟩
  retired := nofun

namespace DeviceSession

/-- Retires the instance, and tells whether this call did. -/
def retire (s : DeviceSession) (reason : SessionRetirement) : DeviceSession × Bool :=
  if h : s.retireOnce = false then
    match reason with
    | .superseded =>
      ({ s with
          cancelled := true, superseded := true, retireOnce := true
          active := nofun, retired := fun _ => ⟨rfl, (s.active h).2.1⟩ }, true)
    | .revoked =>
      ({ s with
          cancelled := true, disconnected := true, retireOnce := true
          active := nofun, retired := fun _ => ⟨rfl, by rw [(s.active h).2.2]; rfl⟩ }, true)
  else (s, false)

def markReleased (s : DeviceSession) : DeviceSession := { s with released := true }

def withLock (s : DeviceSession) (operations : RWLock) : DeviceSession := { s with operations }

end DeviceSession

/-- The handle of an instance; the zero handle has no session. -/
structure ConnectedSession where
  peer : PeerIdentity
  credentialVersion : Int
  session : Option Nat
deriving DecidableEq

/-- The slots, and the instances ever made, numbered in the order they were. -/
structure Hub where
  devices : PeerIdentity → Option Nat
  sessions : Nat → DeviceSession
  made : Nat

namespace Hub

/-- The hub after a change to one instance. -/
def modify (h : Hub) (x : Nat) (change : DeviceSession → DeviceSession) : Hub :=
  { h with sessions := Function.update h.sessions x (change (h.sessions x)) }

/-- The hub with a new instance in the slot. -/
def install (h : Hub) (identity : PeerIdentity) (credentialVersion : Int) : Hub where
  devices := Function.update h.devices identity (some h.made)
  sessions := Function.update h.sessions h.made (newDeviceSession credentialVersion)
  made := h.made + 1

/-- `delete(h.devices, peer)`, when the slot holds `session`. -/
def delete (h : Hub) (peer : PeerIdentity) (session : Nat) : Hub :=
  if h.devices peer = some session then
    { h with devices := Function.update h.devices peer none }
  else h

end Hub

inductive RegisterError
  | credentialVersion
  | queueSize
  | staleCredential
  | handoverTimeout
  | alreadyConnected
deriving DecidableEq, Repr

/-- Where a goroutine stands in the call it makes.  In `Register`: before the critical section of an
attempt, or in `awaitRelease`; `initiated` is what `retire` returned in the latest attempt.  In
`Disconnect`: before the instance check, before the operation lock, and then, with that lock held,
before the deletion, the release and the unlock.  In `beginOperation`: before the read lock, and
then, with that lock held, before the check, refused, or admitted and not finished. -/
inductive Goroutine
  | idle
  | registering (identity : PeerIdentity) (credentialVersion : Int) (attempt : Nat)
  | awaiting (identity : PeerIdentity) (credentialVersion : Int) (attempt existing : Nat)
      (initiated : Bool)
  | registered (session : ConnectedSession)
  | registerFailed (error : RegisterError) (initiated : Bool)
  | disconnecting (observed : ConnectedSession)
  | draining (peer : PeerIdentity) (session : Nat) (initiated : Bool)
  | deleting (peer : PeerIdentity) (session : Nat) (initiated : Bool)
  | releasing (peer : PeerIdentity) (session : Nat) (initiated : Bool)
  | unlocking (peer : PeerIdentity) (session : Nat) (initiated : Bool)
  | disconnected (initiated : Bool)
  | beginning (peer : PeerIdentity) (session : Nat)
  | checking (peer : PeerIdentity) (session : Nat)
  | refused (peer : PeerIdentity) (session : Nat)
  | operating (peer : PeerIdentity) (session : Nat)
  | finished
deriving DecidableEq

/-- The goroutine is in `Disconnect` of the instance `target`. -/
def Goroutine.Disconnects (target : Option Nat) : Goroutine → Prop
  | disconnecting observed => observed.session = target
  | draining _ session _ | deleting _ session _ | releasing _ session _
  | unlocking _ session _ => some session = target
  | _ => False

/-- The critical section of one attempt of `Register`. -/
def Hub.attempt (h : Hub) (identity : PeerIdentity) (credentialVersion : Int) (attempt : Nat) :
    Hub × Goroutine :=
  match h.devices identity with
  | none =>
    (h.install identity credentialVersion,
      .registered ⟨identity, credentialVersion, some h.made⟩)
  | some existing =>
    if credentialVersion < (h.sessions existing).credentialVersion then
      (h, .registerFailed .staleCredential false)
    else
      (h.modify existing fun s => (s.retire .superseded).1,
        .awaiting identity credentialVersion attempt existing
          ((h.sessions existing).retire .superseded).2)

/-- What `Register` does after `awaitRelease` saw the release. -/
def afterRelease (identity : PeerIdentity) (credentialVersion : Int) (attempt : Nat)
    (initiated : Bool) : Goroutine :=
  if attempt + 1 < maxHandoverAttempts then .registering identity credentialVersion (attempt + 1)
  else .registerFailed .alreadyConnected initiated

/-- The first critical section of `Disconnect`. -/
def Hub.observe (h : Hub) (observed : ConnectedSession) : Hub × Goroutine :=
  match h.devices observed.peer with
  | none => (h, .disconnected false)
  | some session =>
    if some session ≠ observed.session then (h, .disconnected false)
    else
      (h.modify session fun s => (s.retire .revoked).1,
        .draining observed.peer session ((h.sessions session).retire .revoked).2)

/-- The checks of `beginOperation` before it takes the lock. -/
def Hub.enter (h : Hub) (observed : ConnectedSession) (contextDone : Bool) : Goroutine :=
  match observed.session with
  | none => .finished
  | some session =>
    if (h.sessions session).cancelled ∨ contextDone then .finished
    else .beginning observed.peer session

/-- One step of goroutine `t`.  A read lock is granted whenever no writer holds the lock, which
includes the grants of `sync.RWMutex`, where a waiting writer comes first. -/
inductive HubStep (t : Nat) : Hub → Goroutine → Hub → Goroutine → Prop
  | register (h : Hub) (identity : PeerIdentity) (credentialVersion : Int) (queueSize : Int) :
      HubStep t h .idle h
        (if credentialVersion < 1 then .registerFailed .credentialVersion false
        else if queueSize < 1 then .registerFailed .queueSize false
        else .registering identity credentialVersion 0)
  | attempt (h : Hub) (identity : PeerIdentity) (credentialVersion : Int) (attempt : Nat) :
      HubStep t h (.registering identity credentialVersion attempt)
        (h.attempt identity credentialVersion attempt).1
        (h.attempt identity credentialVersion attempt).2
  | release (h : Hub) (identity : PeerIdentity) (credentialVersion : Int) (attempt existing : Nat)
      (initiated : Bool) : (h.sessions existing).released = true →
      HubStep t h (.awaiting identity credentialVersion attempt existing initiated) h
        (afterRelease identity credentialVersion attempt initiated)
  | timeout (h : Hub) (identity : PeerIdentity) (credentialVersion : Int)
      (attempt existing : Nat) (initiated : Bool) :
      HubStep t h (.awaiting identity credentialVersion attempt existing initiated) h
        (.registerFailed .handoverTimeout initiated)
  | disconnect (h : Hub) (observed : ConnectedSession) :
      (∀ x, observed.session = some x → x < h.made) →
      HubStep t h .idle h (.disconnecting observed)
  | observe (h : Hub) (observed : ConnectedSession) :
      HubStep t h (.disconnecting observed) (h.observe observed).1 (h.observe observed).2
  | lock (h : Hub) (peer : PeerIdentity) (x : Nat) (initiated : Bool)
      (hw : (h.sessions x).operations.writer = none)
      (hr : (h.sessions x).operations.readers = []) :
      HubStep t h (.draining peer x initiated)
        (h.modify x fun s => s.withLock ((h.sessions x).operations.lock t hr))
        (.deleting peer x initiated)
  | delete (h : Hub) (peer : PeerIdentity) (x : Nat) (initiated : Bool) :
      HubStep t h (.deleting peer x initiated) (h.delete peer x) (.releasing peer x initiated)
  | markReleased (h : Hub) (peer : PeerIdentity) (x : Nat) (initiated : Bool) :
      HubStep t h (.releasing peer x initiated) (h.modify x (·.markReleased))
        (.unlocking peer x initiated)
  | unlock (h : Hub) (peer : PeerIdentity) (x : Nat) (initiated : Bool) :
      HubStep t h (.unlocking peer x initiated)
        (h.modify x fun s => s.withLock s.operations.unlock) (.disconnected initiated)
  | operate (h : Hub) (observed : ConnectedSession) (contextDone : Bool) :
      (∀ x, observed.session = some x → x < h.made) →
      HubStep t h .idle h (h.enter observed contextDone)
  | rLock (h : Hub) (peer : PeerIdentity) (x : Nat)
      (hw : (h.sessions x).operations.writer = none) :
      HubStep t h (.beginning peer x)
        (h.modify x fun s => s.withLock ((h.sessions x).operations.rLock t hw)) (.checking peer x)
  | check (h : Hub) (peer : PeerIdentity) (x : Nat) :
      HubStep t h (.checking peer x) h
        (if h.devices peer = some x ∧ (h.sessions x).cancelled = false then .operating peer x
        else .refused peer x)
  | refuse (h : Hub) (peer : PeerIdentity) (x : Nat) :
      HubStep t h (.refused peer x) (h.modify x fun s => s.withLock (s.operations.rUnlock t))
        .finished
  | finish (h : Hub) (peer : PeerIdentity) (x : Nat) :
      HubStep t h (.operating peer x) (h.modify x fun s => s.withLock (s.operations.rUnlock t))
        .finished

/-- A new hub, with every goroutine before its call. -/
def Hub.start : Threads Hub Goroutine :=
  ⟨⟨fun _ => none, fun _ => newDeviceSession 1, 0⟩, fun _ => .idle⟩

end SevenMirror.Relay
