import SevenMirror.Basic
import SevenMirror.Lib.Reject
import Mathlib.Data.List.Sort

/-! The durable delivery queues of `internal/admission/relay_delivery_store.go`.  Each function is
one transaction: it answers with an error and changes nothing, or commits the store it returns.
Every statement of a transaction names one recipient, so the two tables are kept as one queue per
recipient: its row of `relay_delivery_state` and its rows of `relay_deliveries`. -/

namespace SevenMirror.Relay

open Lib

def maxQueuedDeliveriesPerRecipient : Nat := 4096

def maxQueuedDeliveryBytesPerRecipient : Nat := 64 * 1024 * 1024

/-- A row of `relay_deliveries`, without the recipient. -/
structure Delivery where
  id : Nat
  envelope : Bytes
  expiresAtMs : Int
  createdAtMs : Int
deriving DecidableEq, Repr

/-- The rows of one recipient.  The primary key orders the deliveries and admits no number
twice. -/
@[ext] structure Queue where
  next : Nat
  acknowledged : Nat
  unavailable : Nat
  rows : List Delivery
  ordered : rows.Pairwise (fun a b => a.id < b.id)
deriving DecidableEq

/-- The row that `ensureDeliveryState` inserts. -/
def Queue.fresh : Queue := ⟨1, 0, 0, [], List.Pairwise.nil⟩

/-- `SELECT COALESCE(SUM(length(envelope)), 0)`. -/
def totalBytes (rows : List Delivery) : Nat :=
  rows.foldl (fun bytes d => bytes + d.envelope.length) 0

theorem orderedInsert_ordered {rows : List Delivery} {d : Delivery}
    (h : rows.Pairwise (fun a b => a.id < b.id)) (hd : ∀ e ∈ rows, e.id ≠ d.id) :
    (rows.orderedInsert (fun a b => a.id ≤ b.id) d).Pairwise (fun a b => a.id < b.id) := by
  induction rows with
  | nil => simp
  | cons e rest ih =>
    obtain ⟨he, hrest⟩ := List.pairwise_cons.mp h
    have hne := hd e List.mem_cons_self
    simp only [List.orderedInsert_cons]
    split
    · refine List.pairwise_cons.mpr ⟨fun x hx => ?_, h⟩
      rcases List.mem_cons.mp hx with rfl | hx
      · omega
      · have := he x hx
        omega
    · refine List.pairwise_cons.mpr ⟨fun x hx => ?_, ih hrest fun x hx => hd x (by simp [hx])⟩
      rcases (List.mem_orderedInsert _).mp hx with rfl | hx
      · omega
      · exact he x hx

/-- `INSERT INTO relay_deliveries`, for a number that no row has. -/
def Queue.insert (q : Queue) (d : Delivery) (hd : ∀ e ∈ q.rows, e.id ≠ d.id) : Queue :=
  { q with
    rows := q.rows.orderedInsert (fun a b => a.id ≤ b.id) d
    ordered := orderedInsert_ordered q.ordered hd }

/-- `DELETE FROM relay_deliveries` of the rows that `keep` refuses. -/
def Queue.retain (q : Queue) (keep : Delivery → Bool) : Queue :=
  { q with rows := q.rows.filter keep, ordered := q.ordered.filter _ }

def markUnavailableThrough (q : Queue) (cursor : Nat) : Queue :=
  { q with unavailable := max q.unavailable cursor }

def acknowledgeThrough (q : Queue) (cursor : Nat) : Queue :=
  { q.retain (fun d => cursor < d.id) with acknowledged := max q.acknowledged cursor }

def compactExpiredDeliveries (q : Queue) (nowUnixMs : Int) : Queue :=
  match ((q.rows.filter (·.expiresAtMs ≤ nowUnixMs)).map (·.id)).max? with
  | none => q
  | some expiredThrough =>
    markUnavailableThrough (q.retain fun d => ¬ d.expiresAtMs ≤ nowUnixMs) expiredThrough

/-- The loop of `enforceDeliveryCapacity`: the oldest row goes until both bounds hold.  With no row
left both hold. -/
def evict : List Delivery → Nat → List Delivery × Nat
  | [], unavailable => ([], unavailable)
  | oldest :: rest, unavailable =>
    if (oldest :: rest).length ≤ maxQueuedDeliveriesPerRecipient ∧
        totalBytes (oldest :: rest) ≤ maxQueuedDeliveryBytesPerRecipient then
      (oldest :: rest, unavailable)
    else evict rest (max unavailable oldest.id)

theorem evict_suffix (rows : List Delivery) (unavailable : Nat) :
    (evict rows unavailable).1 <:+ rows := by
  induction rows generalizing unavailable with
  | nil => exact List.suffix_refl _
  | cons oldest rest ih =>
    rw [evict]
    split
    · exact List.suffix_refl _
    · exact (ih _).trans (List.suffix_cons oldest rest)

def enforceDeliveryCapacity (q : Queue) : Queue :=
  { q with
    rows := (evict q.rows q.unavailable).1
    unavailable := (evict q.rows q.unavailable).2
    ordered := q.ordered.sublist (evict_suffix _ _).sublist }

/-- The queues of every recipient, and the devices that the foreign key of `relay_delivery_state`
requires. -/
structure DeliveryStore where
  devices : List PeerIdentity
  queues : PeerIdentity → Option Queue

/-- The store after a commit to one recipient. -/
def DeliveryStore.put (s : DeliveryStore) (recipient : PeerIdentity) (q : Queue) : DeliveryStore :=
  { s with queues := Function.update s.queues recipient (some q) }

inductive DeliveryError
  | invalidAppend | invalidResume | invalidRead | invalidAcknowledgement
  | initializeState
  | sequenceUnavailable
  | storeDelivery
  | readHighWater
  | cursorAhead
deriving DecidableEq, Repr

structure StoredDelivery where
  id : Nat
  envelope : Bytes
deriving DecidableEq, Repr

structure DeliveryBatch where
  highWater : Nat
  resetRequired : Bool
  deliveries : List StoredDelivery
deriving DecidableEq, Repr

/-- `INSERT OR IGNORE`: an absent row is inserted, which the foreign key allows for a device of the
registry only. -/
def ensureDeliveryState (s : DeliveryStore) (recipient : PeerIdentity) :
    Except DeliveryError Queue :=
  match s.queues recipient with
  | some q => .ok q
  | none => if recipient ∈ s.devices then .ok .fresh else .error .initializeState

/-- `SELECT delivery_id, envelope ... WHERE delivery_id > ? ORDER BY delivery_id LIMIT ?`. -/
def Queue.select (q : Queue) (after limit : Nat) : List StoredDelivery :=
  ((q.rows.filter (after < ·.id)).take limit).map fun d => ⟨d.id, d.envelope⟩

def appendDelivery (s : DeliveryStore) (recipient : PeerIdentity) (envelope : Bytes)
    (expiresAt now : Time) : Except DeliveryError (Nat × DeliveryStore) := do
  reject (envelope.length = 0 ∨ expiresAt.isZero ∨ now.isZero ∨ ¬ expiresAt.after now)
    .invalidAppend
  let initial ← ensureDeliveryState s recipient
  let q := compactExpiredDeliveries initial now.unixMilli
  reject (q.next < 1 ∨ q.next = maxInt64) .sequenceUnavailable
  if hd : ∀ e ∈ q.rows, e.id ≠ q.next then
    let stored := q.insert ⟨q.next, envelope, expiresAt.unixMilli, now.unixMilli⟩ hd
    return (q.next, s.put recipient (enforceDeliveryCapacity { stored with next := q.next + 1 }))
  else
    throw .storeDelivery

def resumeDeliveries (s : DeliveryStore) (recipient : PeerIdentity) (cursor : Nat) (now : Time)
    (limit : Int) : Except DeliveryError (DeliveryBatch × DeliveryStore) := do
  reject (cursor > maxInt64 ∨ now.isZero ∨ limit < 1 ∨ limit > 256) .invalidResume
  let initial ← ensureDeliveryState s recipient
  let q := compactExpiredDeliveries initial now.unixMilli
  let highWater := q.next - 1
  reject (cursor > highWater) .cursorAhead
  if cursor < max q.acknowledged q.unavailable then
    return (⟨highWater, true, []⟩, s.put recipient q)
  else
    let q := if cursor > q.acknowledged then acknowledgeThrough q cursor else q
    return (⟨highWater, false, q.select cursor limit.toNat⟩, s.put recipient q)

/-- Unlike the other three, this transaction does not insert the state row, and without it there is
no high-water to read. -/
def readDeliveries (s : DeliveryStore) (recipient : PeerIdentity) (after : Nat) (now : Time)
    (limit : Int) : Except DeliveryError (DeliveryBatch × DeliveryStore) := do
  reject (after > maxInt64 ∨ now.isZero ∨ limit < 1 ∨ limit > 256) .invalidRead
  match s.queues recipient with
  | none => throw .readHighWater
  | some initial =>
    let q := compactExpiredDeliveries initial now.unixMilli
    if after < q.unavailable then
      return (⟨q.next - 1, true, []⟩, s.put recipient q)
    else
      return (⟨q.next - 1, false, q.select after limit.toNat⟩, s.put recipient q)

def acknowledgeDelivery (s : DeliveryStore) (recipient : PeerIdentity) (cursor : Nat) :
    Except DeliveryError DeliveryStore := do
  reject (cursor = 0 ∨ cursor > maxInt64) .invalidAcknowledgement
  let q ← ensureDeliveryState s recipient
  reject (cursor ≥ q.next) .cursorAhead
  let q := if cursor > q.acknowledged then acknowledgeThrough q cursor else q
  return s.put recipient q

end SevenMirror.Relay
