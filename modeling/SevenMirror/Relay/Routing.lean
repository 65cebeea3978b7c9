import SevenMirror.Admission.Authorization
import SevenMirror.Protocol.RelayDelivery
import SevenMirror.Relay.DeliveryRun
import SevenMirror.Relay.HubRun

/-! `RouteOnline` and `RouteDurable` of `internal/relay/hub.go` in the relay they are part of: a
connection authenticates against the registry and registers with the hub, its reader decodes what the
client sends, and a route checks the envelope, enters an operation of its session, and then puts the
envelope in the queue of a live recipient or in the delivery store.  Each statement, each critical
section, and each transaction is one step. -/

namespace SevenMirror.Relay

open Lib Protocol Admission MembershipCodec

/-- `SNH1`, which asks for a heartbeat. -/
def heartbeatRequest : Bytes := [0x53, 0x4e, 0x48, 0x31]

/-- The size that `ServeAuthenticatedConnection` gives the queue of an instance. -/
def immediateQueueSize : Nat := 16

inductive RouteError
  | message (error : RelayDelivery.ClientError)
  | envelope (error : EnvelopeFrame.FrameError)
  | header (error : RoutingHeader.HeaderError)
  | senderMismatch
  | sessionOffline
  | recipientOffline
  | recipientBusy
  | recipientUnauthorized
  | expired
  | delivery (error : DeliveryError)
  | interrupted
deriving DecidableEq, Repr

/-- The sender is compared in the bytes of the header, before the header is decoded. -/
def validateRoutedEnvelope (authenticatedSender : PeerIdentity) (encodedFrame : Bytes) :
    Except RouteError (PeerIdentity × RoutingHeader.Header) := do
  let frame ← rethrow .envelope (EnvelopeFrame.decode encodedFrame)
  reject (slice frame.routingHeader.bytes 8 16 ≠ authenticatedSender.workspaceID.bytes ∨
    slice frame.routingHeader.bytes 24 16 ≠ authenticatedSender.deviceID.bytes) .senderMismatch
  let header ← rethrow .header (RoutingHeader.decode frame.routingHeader.bytes)
  return (⟨header.workspaceID, header.recipientDeviceID⟩, header)

/-- A message of a client that has an envelope to route, and what `validateRoutedEnvelope` returned
for it.  `now` is the clock of the reader. -/
structure Submission where
  sender : ConnectedSession
  message : Bytes
  durable : Bool
  envelope : Bytes
  recipient : PeerIdentity
  header : RoutingHeader.Header
  now : Time

def Submission.of (sender : ConnectedSession) (message : Bytes) (now : Time) (durable : Bool)
    (envelope : Bytes) : Except RouteError Submission := do
  let (recipient, header) ← validateRoutedEnvelope sender.peer envelope
  return { sender, message, durable, envelope, recipient, header, now }

/-- What the reader makes of a binary message; heartbeats and cursors are not routed. -/
def receive (sender : ConnectedSession) (message : Bytes) (now : Time) :
    Except RouteError (Option Submission) :=
  if message = heartbeatRequest then .ok none
  else
    match RelayDelivery.decodeClientMessage message with
    | .error e => .error (.message e)
    | .ok (.envelopeOnline envelope) => (Submission.of sender message now false envelope).map some
    | .ok (.envelopeDurable envelope) => (Submission.of sender message now true envelope).map some
    | .ok (.resume _) | .ok (.acknowledge _) => .ok none

abbrev LoginStatements := Statements LoginQuery LoginQuery.Rows (Except LoginError DeviceIdentity)

/-- What a goroutine does besides its call of the hub: `authenticating` a connection, `connecting` one
that was authenticated, or routing a submission.  A route is `beginning` its operation, `admitted` to
it, `authorized` to append, past its append, or `finishing` the operation. -/
inductive Activity
  | idle
  | authenticating (input : Login) (rest : LoginStatements)
  | connecting
  | beginning (s : Submission)
  | admitted (s : Submission)
  | authorized (s : Submission)
  | appended (s : Submission)
  | finishing (s : Submission) (result : Except RouteError Unit)
  | returned (result : Except RouteError Unit)

/-- The registry, the deliveries, the hub with its goroutines, and the two channels of each
instance. -/
structure RelayState where
  registry : Registry
  deliveries : DeliveryStore
  hub : Threads Hub Goroutine
  activity : Nat → Activity
  immediate : Nat → List Bytes
  durableWake : Nat → Bool

namespace RelayState

/-- A new process over what is stored. -/
def boot (registry : Registry) (deliveries : DeliveryStore) : RelayState where
  registry
  deliveries
  hub := Hub.start
  activity := fun _ => .idle
  immediate := fun _ => []
  durableWake := fun _ => false

def start : RelayState := boot .empty .empty

def set (c : RelayState) (t : Nat) (a : Activity) : RelayState :=
  { c with activity := Function.update c.activity t a }

/-- Goroutine `t` took a step of its call. -/
def withHub (c : RelayState) (t : Nat) (h : Hub) (g : Goroutine) : RelayState :=
  { c with hub := ⟨h, Function.update c.hub.thread t g⟩ }

/-- The instance of a recipient that is connected. -/
def live (c : RelayState) (recipient : PeerIdentity) : Option Nat :=
  (c.hub.shared.devices recipient).filter fun y => !(c.hub.shared.sessions y).cancelled

/-- The critical section of `RouteOnline`. -/
def routeOnline (c : RelayState) (s : Submission) : RelayState × Except RouteError Unit :=
  match c.live s.recipient with
  | none => (c, .error .recipientOffline)
  | some y =>
    if (c.immediate y).length < immediateQueueSize then
      ({ c with immediate := Function.update c.immediate y (c.immediate y ++ [s.envelope]) }, .ok ())
    else (c, .error .recipientBusy)

theorem routeOnline_cases (c : RelayState) (s : Submission) :
    (∃ e, c.routeOnline s = (c, .error e)) ∨ ∃ y, c.live s.recipient = some y ∧
      c.routeOnline s =
        ({ c with immediate := Function.update c.immediate y (c.immediate y ++ [s.envelope]) },
          .ok ()) := by
  unfold routeOnline
  split
  · exact Or.inl ⟨_, rfl⟩
  · rename_i y hlive
    split
    · exact Or.inr ⟨y, hlive, rfl⟩
    · exact Or.inl ⟨_, rfl⟩

/-- `time.UnixMilli(int64(header.ExpiresAtUnixMs))`. -/
def expiry (header : RoutingHeader.Header) : Time :=
  .ofUnixMilli ((header.expiresAtUnixMs : Int).bmod 0x10000000000000000)

def authorize (c : RelayState) (s : Submission) : Activity :=
  if isDeviceAuthorized c.registry s.recipient.workspaceID s.recipient.deviceID then .authorized s
  else .finishing s (.error .recipientUnauthorized)

theorem authorize_cases (c : RelayState) (s : Submission) :
    isDeviceAuthorized c.registry s.recipient.workspaceID s.recipient.deviceID = true ∧
      c.authorize s = .authorized s ∨ ∃ e, c.authorize s = .finishing s (.error e) := by
  unfold authorize
  split
  · rename_i happroved
    exact Or.inl ⟨happroved, rfl⟩
  · exact Or.inr ⟨_, rfl⟩

/-- The transaction of `RouteDurable`, and the check before it. -/
def append (c : RelayState) (s : Submission) : RelayState × Activity :=
  if (expiry s.header).after s.now then
    match appendDelivery c.deliveries s.recipient s.envelope (expiry s.header) s.now with
    | .error e => (c, .finishing s (.error (.delivery e)))
    | .ok (_, deliveries) => ({ c with deliveries }, .appended s)
  else (c, .finishing s (.error .expired))

theorem append_cases (c : RelayState) (s : Submission) :
    (∃ e, c.append s = (c, .finishing s (.error e))) ∨ ∃ id deliveries,
      appendDelivery c.deliveries s.recipient s.envelope (expiry s.header) s.now =
        .ok (id, deliveries) ∧
      c.append s = ({ c with deliveries }, .appended s) := by
  unfold append
  split
  · split
    · exact Or.inl ⟨_, rfl⟩
    · rename_i id deliveries happend
      exact Or.inr ⟨id, deliveries, happend, rfl⟩
  · exact Or.inl ⟨_, rfl⟩

/-- The last critical section of `RouteDurable`. -/
def wake (c : RelayState) (s : Submission) : RelayState :=
  match c.live s.recipient with
  | none => c
  | some y => { c with durableWake := Function.update c.durableWake y true }

theorem wake_eq (c : RelayState) (s : Submission) :
    ∃ durableWake, c.wake s = { c with durableWake } := by
  unfold wake
  split
  · exact ⟨c.durableWake, rfl⟩
  · exact ⟨_, rfl⟩

end RelayState

/-- What happens next: a commit to the registry, a call of the delivery store by a session or the
foreign key's table, a step of a connection or of a route as goroutine `t`, the receipt of a channel
by the writer of instance `y`, or a new process. -/
inductive Act
  | commit (call : Admission.Call)
  | deliveries (call : Call)
  | dial (t : Nat) (input : Login)
  | statement (t : Nat)
  | register (t : Nat)
  | submit (t u : Nat) (message : Bytes) (now : Time)
  | enter (t : Nat) (contextDone : Bool)
  | rLock (t : Nat)
  | check (t : Nat)
  | refuse (t : Nat)
  | offline (t : Nat)
  | route (t : Nat)
  | authorize (t : Nat)
  | append (t : Nat)
  | wake (t : Nat)
  | interrupt (t : Nat)
  | finish (t : Nat)
  | take (y : Nat)
  | takeWake (y : Nat)
  | restart

/-- The calls that only a route makes. -/
def Call.appends : Call → Bool
  | append _ _ _ _ => true
  | _ => false

def RelayState.act (crypto : Crypto) (c : RelayState) : Act → Option RelayState
  | .commit call => some { c with registry := ((Admission.store crypto).step c.registry call).1 }
  | .deliveries call =>
    if call.appends then none else some { c with deliveries := (perform c.deliveries call).1 }
  | .dial t input =>
    match c.activity t, c.hub.thread t with
    | .idle, .idle => some (c.set t (.authenticating input (authenticate input)))
    | _, _ => none
  | .statement t =>
    match c.activity t with
    | .authenticating input (.query q next) =>
      some (c.set t (.authenticating input (next (answerLogin crypto input c.registry q))))
    | _ => none
  | .register t =>
    match c.activity t, c.hub.thread t with
    | .authenticating input (.done (.ok identity)), .idle =>
      if identity.credentialVersion < 1 then none
      else some ((c.set t .connecting).withHub t c.hub.shared
        (.registering ⟨input.workspaceID, input.deviceID⟩ identity.credentialVersion 0))
    | _, _ => none
  | .submit t u message now =>
    match c.activity t, c.hub.thread t, c.hub.thread u with
    | .idle, .idle, .registered sender =>
      match receive sender message now with
      | .error e => some (c.set t (.returned (.error e)))
      | .ok none => none
      | .ok (some s) => some (c.set t (.beginning s))
    | _, _, _ => none
  | .enter t contextDone =>
    match c.activity t, c.hub.thread t with
    | .beginning s, .idle =>
      some (c.withHub t c.hub.shared (c.hub.shared.enter s.sender contextDone))
    | _, _ => none
  | .rLock t =>
    match c.activity t, c.hub.thread t with
    | .beginning _, .beginning p x =>
      if hw : (c.hub.shared.sessions x).operations.writer = none then
        some (c.withHub t
          (c.hub.shared.modify x fun s =>
            s.withLock ((c.hub.shared.sessions x).operations.rLock t hw)) (.checking p x))
      else none
    | _, _ => none
  | .check t =>
    match c.activity t, c.hub.thread t with
    | .beginning s, .checking p x =>
      if c.hub.shared.devices p = some x ∧ (c.hub.shared.sessions x).cancelled = false then
        some ((c.withHub t c.hub.shared (.operating p x)).set t (.admitted s))
      else some (c.withHub t c.hub.shared (.refused p x))
    | _, _ => none
  | .refuse t =>
    match c.activity t, c.hub.thread t with
    | .beginning _, .refused _ x =>
      some (c.withHub t (c.hub.shared.modify x fun s => s.withLock (s.operations.rUnlock t))
        .finished)
    | _, _ => none
  | .offline t =>
    match c.activity t, c.hub.thread t with
    | .beginning _, .finished => some (c.set t (.returned (.error .sessionOffline)))
    | _, _ => none
  | .route t =>
    match c.activity t with
    | .admitted s =>
      if s.durable then none
      else some ((c.routeOnline s).1.set t (.finishing s (c.routeOnline s).2))
    | _ => none
  | .authorize t =>
    match c.activity t with
    | .admitted s => if s.durable then some (c.set t (c.authorize s)) else none
    | _ => none
  | .append t =>
    match c.activity t with
    | .authorized s => some ((c.append s).1.set t (c.append s).2)
    | _ => none
  | .wake t =>
    match c.activity t with
    | .appended s => some ((c.wake s).set t (.finishing s (.ok ())))
    | _ => none
  | .interrupt t =>
    -- the context of the operation ended; an append may have committed and not say so
    match c.activity t with
    | .admitted s | .authorized s | .appended s =>
      some (c.set t (.finishing s (.error .interrupted)))
    | _ => none
  | .finish t =>
    match c.activity t, c.hub.thread t with
    | .finishing _ result, .operating _ x =>
      some ((c.withHub t (c.hub.shared.modify x fun s => s.withLock (s.operations.rUnlock t))
        .finished).set t (.returned result))
    | _, _ => none
  | .take y =>
    match c.immediate y with
    | [] => none
    | _ :: rest => some { c with immediate := Function.update c.immediate y rest }
  | .takeWake y =>
    if c.durableWake y then some { c with durableWake := Function.update c.durableWake y false }
    else none
  | .restart => some (.boot c.registry c.deliveries)

/-- A goroutine that does nothing else may take a step of its call; only a connection that was
authenticated starts to register. -/
inductive RoutingStep (crypto : Crypto) : RelayState → RelayState → Prop
  | act (c : RelayState) (a : Act) (c' : RelayState) : c.act crypto a = some c' →
      RoutingStep crypto c c'
  | hub (c : RelayState) (t : Nat) (h : Hub) (g : Goroutine) :
      c.activity t = .idle ∨ c.activity t = .connecting →
      (∀ p version n, c.hub.thread t = .idle → g ≠ .registering p version n) →
      HubStep t c.hub.shared (c.hub.thread t) h g → RoutingStep crypto c (c.withHub t h g)

/-- A run leads from one state to the other. -/
def Leads (crypto : Crypto) : RelayState → RelayState → Prop :=
  Relation.ReflTransGen (RoutingStep crypto)

end SevenMirror.Relay
