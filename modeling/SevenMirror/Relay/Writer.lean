import SevenMirror.Relay.DeliveryRun
import SevenMirror.Protocol.RelayDelivery
import Mathlib.Logic.Relation

/-! The writer goroutine of `ServeAuthenticatedConnection` in `internal/relay/websocket.go`, run
beside the reader goroutine of the same connection and everything else that uses the delivery
store.  A step is one store transaction, one write, or one channel operation. -/

namespace SevenMirror.Relay

open Protocol

def deliveryBatchSize : Nat := 64

/-- What the writer puts on the connection after `SNO1`. -/
inductive ServerMessage
  | delivery (id : Nat) (envelope : Bytes)
  | caughtUp (highWater : Nat)
  | resetRequired (highWater : Nat)
  | immediate (frame : Bytes)
  | heartbeatResponse
  | ping
deriving DecidableEq, Repr

/-- The messages of the durable stream: `SND1`, `SND2` and `SNR1`. -/
def ServerMessage.durable : ServerMessage → Bool
  | delivery _ _ | caughtUp _ | resetRequired _ => true
  | immediate _ | heartbeatResponse | ping => false

/-- The history of a connection.  `tookUp` is the receipt of a resume cursor by the writer, and
`acknowledged` a cumulative acknowledgement of the client that the store accepted. -/
inductive Event
  | tookUp (cursor : Nat)
  | wrote (message : ServerMessage)
  | acknowledged (cursor : Nat)
  | unreportedGap
deriving DecidableEq, Repr

/-- Where the writer stands: in its `select`, before the transaction of a resume or of a wake-up,
inside `drainBatch` with the deliveries of the batch still to write, or returned. -/
inductive Position
  | selecting
  | resuming (cursor : Nat)
  | waking
  | draining (batch : DeliveryBatch) (pending : List StoredDelivery)
  | returned

structure Connection where
  store : DeliveryStore
  resumeRequests : Option Nat
  durableWake : Bool
  immediate : List Bytes
  heartbeats : Bool
  cursorInitialized : Bool
  sentCursor : Nat
  position : Position
  events : List Event

/-- A connection that has just sent `SNO1`. -/
def Connection.start (store : DeliveryStore) : Connection :=
  ⟨store, none, false, [], false, false, 0, .selecting, []⟩

/-- Writes a message. -/
def Connection.send (s : Connection) (message : ServerMessage) : Connection :=
  { s with events := s.events ++ [.wrote message] }

/-- The loop of `drainBatch` starts on a batch. -/
def Connection.drain (s : Connection) (batch : DeliveryBatch) : Connection :=
  { s with position := .draining batch batch.deliveries }

/-- The calls that reach the queue of `r` only through the connection of `r`. -/
def Call.ofConnection (r : PeerIdentity) : Call → Prop
  | .resume recipient _ _ _ | .read recipient _ _ _ | .acknowledge recipient _ => recipient = r
  | .register _ | .append _ _ _ _ => False

/-- The check of `drainBatch` on the batch it reads next. -/
def DeliveryBatch.unreportedGap (next : DeliveryBatch) (sentCursor : Nat) : Prop :=
  next.deliveries.length = 0 ∧ next.highWater > sentCursor ∧ next.resetRequired = false

/-- One step of the connection of `r` and of what runs beside it.  Every failure of the writer (a
retired instance, a failed transaction, an encoding error, a failed write) is a `fail` step; a
write that fails after the bytes left is a write followed by `fail`. -/
inductive Step (r : PeerIdentity) : Connection → Connection → Prop
  -- the writer
  | ping (s : Connection) : s.position = .selecting → Step r s (s.send .ping)
  | heartbeat (s : Connection) : s.position = .selecting → s.heartbeats = true →
      Step r s ({ s with heartbeats := false }.send .heartbeatResponse)
  | immediate (s : Connection) (frame : Bytes) (rest : List Bytes) : s.position = .selecting →
      s.immediate = frame :: rest → Step r s ({ s with immediate := rest }.send (.immediate frame))
  | takeUp (s : Connection) (cursor : Nat) : s.position = .selecting →
      s.resumeRequests = some cursor →
      Step r s { s with
        resumeRequests := none
        position := .resuming cursor
        events := s.events ++ [.tookUp cursor] }
  | resume (s : Connection) (cursor : Nat) (now : Time) (batch : DeliveryBatch)
      (store : DeliveryStore) : s.position = .resuming cursor →
      resumeDeliveries s.store r cursor now deliveryBatchSize = .ok (batch, store) →
      Step r s ({ s with store, cursorInitialized := true, sentCursor := cursor }.drain batch)
  | wake (s : Connection) : s.position = .selecting → s.durableWake = true →
      Step r s { s with
        durableWake := false
        position := if s.cursorInitialized then .waking else .selecting }
  | readWoken (s : Connection) (now : Time) (batch : DeliveryBatch) (store : DeliveryStore) :
      s.position = .waking →
      readDeliveries s.store r s.sentCursor now deliveryBatchSize = .ok (batch, store) →
      Step r s ({ s with store }.drain batch)
  | reset (s : Connection) (batch : DeliveryBatch) (pending : List StoredDelivery)
      (encoded : Bytes) : s.position = .draining batch pending → batch.resetRequired = true →
      RelayDelivery.encodeResetRequired batch.highWater = .ok encoded →
      Step r s ({ s with cursorInitialized := false, position := .selecting }.send
        (.resetRequired batch.highWater))
  | deliver (s : Connection) (batch : DeliveryBatch) (delivery : StoredDelivery)
      (pending : List StoredDelivery) (encoded : Bytes) :
      s.position = .draining batch (delivery :: pending) → batch.resetRequired = false →
      RelayDelivery.encodeDelivery delivery.id delivery.envelope = .ok encoded →
      Step r s ({ s with sentCursor := delivery.id, position := .draining batch pending }.send
        (.delivery delivery.id delivery.envelope))
  | caughtUp (s : Connection) (batch : DeliveryBatch) (encoded : Bytes) :
      s.position = .draining batch [] → batch.resetRequired = false →
      s.sentCursor ≥ batch.highWater →
      RelayDelivery.encodeCaughtUp batch.highWater = .ok encoded →
      Step r s ({ s with position := .selecting }.send (.caughtUp batch.highWater))
  | readNext (s : Connection) (batch next : DeliveryBatch) (now : Time) (store : DeliveryStore) :
      s.position = .draining batch [] → batch.resetRequired = false →
      ¬ s.sentCursor ≥ batch.highWater →
      readDeliveries s.store r s.sentCursor now deliveryBatchSize = .ok (next, store) →
      ¬ next.unreportedGap s.sentCursor → Step r s ({ s with store }.drain next)
  | gap (s : Connection) (batch next : DeliveryBatch) (now : Time) (store : DeliveryStore) :
      s.position = .draining batch [] → batch.resetRequired = false →
      ¬ s.sentCursor ≥ batch.highWater →
      readDeliveries s.store r s.sentCursor now deliveryBatchSize = .ok (next, store) →
      next.unreportedGap s.sentCursor →
      Step r s { s with
        store
        position := .returned
        events := s.events ++ [.unreportedGap] }
  | fail (s : Connection) : Step r s { s with position := .returned }
  -- the reader of this connection
  | requestResume (s : Connection) (cursor : Nat) : s.resumeRequests = none →
      Step r s { s with resumeRequests := some cursor }
  | requestHeartbeat (s : Connection) : s.heartbeats = false →
      Step r s { s with heartbeats := true }
  | acknowledge (s : Connection) (cursor : Nat) (store : DeliveryStore) :
      acknowledgeDelivery s.store r cursor = .ok store →
      Step r s { s with store, events := s.events ++ [.acknowledged cursor] }
  -- everyone else
  | other (s : Connection) (call : Call) : ¬ call.ofConnection r →
      Step r s { s with store := (perform s.store call).1 }
  | signal (s : Connection) : Step r s { s with durableWake := true }
  | route (s : Connection) (frame : Bytes) : s.immediate.length < 16 →
      Step r s { s with immediate := s.immediate ++ [frame] }

/-- The connection of `r`, opened on the store that `calls` left, may come to `s`. -/
def Connection.Reaches (calls : List Call) (r : PeerIdentity) (s : Connection) : Prop :=
  Relation.ReflTransGen (Step r) (.start (Relay.store.run .empty calls)) s

end SevenMirror.Relay
