import SevenMirror.Protocol.SliceSafety
import SevenMirror.Relay.Routing

/-! What a client can send: `readBoundedClientMessage` of `internal/relay/websocket.go` over the
codecs.  Each message has one encoding, and each byte string stands for one message. -/

namespace SevenMirror.Relay

open Lib Protocol
open RelayDelivery (ClientMessage ClientError decodeClientMessage)

inductive ReadError
  | notBinary
  | message (error : ClientError)
deriving DecidableEq, Repr

/-- What is read from a message of the connection; `none` is a heartbeat. -/
def readBoundedClientMessage (binary : Bool) (encoded : Bytes) :
    Except ReadError (Option ClientMessage) := do
  reject (binary = false) .notBinary
  if encoded.length = heartbeatRequest.length ∧ encoded = heartbeatRequest then return none
  else
    let message ← rethrow .message (decodeClientMessage encoded)
    return some message

/-! ### Classes -/

/-- The heartbeat and the kinds of `DecodeClientMessage`. -/
inductive MessageClass
  | heartbeat
  | envelopeOnline
  | envelopeDurable
  | resume
  | acknowledge
deriving DecidableEq, Repr

/-- The test of each branch, whatever was tested before. -/
def MessageClass.Test (encoded : Bytes) : MessageClass → Prop
  | .heartbeat => encoded = heartbeatRequest
  | .envelopeOnline =>
    encoded.length ≥ EnvelopeFrame.minFrameSize ∧ slice encoded 0 4 = EnvelopeFrame.magic
  | .envelopeDurable =>
    encoded.length ≥ RelayDelivery.submissionPrefixSize + EnvelopeFrame.minFrameSize ∧
      slice encoded 0 4 = RelayDelivery.durableSubmissionMagic
  | .resume =>
    encoded.length = RelayDelivery.controlSize ∧ slice encoded 0 4 = RelayDelivery.resumeMagic
  | .acknowledge =>
    encoded.length = RelayDelivery.controlSize ∧ slice encoded 0 4 = RelayDelivery.ackMagic

/-- The class of what was read. -/
def MessageClass.of : Option ClientMessage → MessageClass
  | none => .heartbeat
  | some (.envelopeOnline _) => .envelopeOnline
  | some (.envelopeDurable _) => .envelopeDurable
  | some (.resume _) => .resume
  | some (.acknowledge _) => .acknowledge

/-- The first four bytes that a class asks for. -/
def MessageClass.magic : MessageClass → Bytes
  | .heartbeat => heartbeatRequest
  | .envelopeOnline => EnvelopeFrame.magic
  | .envelopeDurable => RelayDelivery.durableSubmissionMagic
  | .resume => RelayDelivery.resumeMagic
  | .acknowledge => RelayDelivery.ackMagic

theorem MessageClass.Test.magic {encoded : Bytes} {k : MessageClass} (h : k.Test encoded) :
    slice encoded 0 4 = k.magic := by
  cases k with
  | heartbeat =>
    rw [show encoded = heartbeatRequest from h]
    rfl
  | envelopeOnline => exact h.2
  | envelopeDurable => exact h.2
  | resume => exact h.2
  | acknowledge => exact h.2

/-- The magics differ, so at most one test succeeds. -/
theorem MessageClass.Test.unique {encoded : Bytes} {k k' : MessageClass} (h : k.Test encoded)
    (h' : k'.Test encoded) : k = k' := by
  have hmagic : k.magic = k'.magic := h.magic.symm.trans h'.magic
  revert hmagic
  cases k <;> cases k' <;> decide

/-- What the encoder of a message writes passes the test of its class. -/
theorem MessageClass.test_of_encode {encoded : Bytes} {message : ClientMessage}
    (h : message.encode = .ok encoded) : (MessageClass.of (some message)).Test encoded := by
  cases message with
  | envelopeOnline envelope =>
    simp only [ClientMessage.encode, map_eq_ok, rethrow_eq_ok] at h
    obtain ⟨frame, hframe, rfl⟩ := h
    exact RelayDelivery.starts_of_decode hframe
  | envelopeDurable envelope =>
    simp only [ClientMessage.encode, RelayDelivery.encodeDurableSubmission, bind_eq_ok,
      rethrow_eq_ok, pure_eq_ok] at h
    obtain ⟨frame, hframe, rfl⟩ := h
    refine ⟨?_, (RelayDelivery.slice_magic rfl).1⟩
    rw [List.length_append]
    exact Nat.add_le_add_left (RelayDelivery.starts_of_decode hframe).1 4
  | resume cursor =>
    obtain ⟨rfl, -, -⟩ := RelayDelivery.encodeControl_eq_ok.mp h
    exact ⟨by rw [List.length_append, length_toBigEndian]; rfl, (RelayDelivery.slice_magic rfl).1⟩
  | acknowledge cursor =>
    obtain ⟨rfl, -, -⟩ := RelayDelivery.encodeControl_eq_ok.mp h
    exact ⟨by rw [List.length_append, length_toBigEndian]; rfl, (RelayDelivery.slice_magic rfl).1⟩

/-! ### Reading -/

theorem readBoundedClientMessage_none {encoded : Bytes} :
    readBoundedClientMessage true encoded = .ok none ↔ encoded = heartbeatRequest := by
  simp only [readBoundedClientMessage, bind_eq_ok, exists_unit, reject_eq_ok, Bool.true_eq_false,
    not_false_eq_true, true_and]
  split
  · rename_i hheartbeat
    simp only [pure_eq_ok, hheartbeat.2]
  · rename_i hheartbeat
    simp only [bind_eq_ok, pure_eq_ok, reduceCtorEq, and_false, exists_false, false_iff]
    intro hencoded
    exact hheartbeat ⟨congrArg List.length hencoded, hencoded⟩

theorem readBoundedClientMessage_some {encoded : Bytes} {message : ClientMessage} :
    readBoundedClientMessage true encoded = .ok (some message) ↔ message.encode = .ok encoded := by
  simp only [readBoundedClientMessage, bind_eq_ok, exists_unit, reject_eq_ok, Bool.true_eq_false,
    not_false_eq_true, true_and]
  split
  · rename_i hheartbeat
    simp only [pure_eq_ok, reduceCtorEq, false_iff]
    intro hencode
    have hclass : MessageClass.heartbeat.Test encoded := hheartbeat.2
    have hsame := (MessageClass.test_of_encode hencode).unique hclass
    cases message <;> cases hsame
  · simp only [bind_eq_ok, rethrow_eq_ok, pure_eq_ok, Option.some.injEq, exists_eq_right]
    exact ⟨RelayDelivery.encode_of_decodeClientMessage, RelayDelivery.decodeClientMessage_of_encode⟩

theorem test_of_readBoundedClientMessage {encoded : Bytes} {read : Option ClientMessage}
    (h : readBoundedClientMessage true encoded = .ok read) : (MessageClass.of read).Test encoded := by
  cases read with
  | none => exact readBoundedClientMessage_none.mp h
  | some message => exact MessageClass.test_of_encode (readBoundedClientMessage_some.mp h)

/-! ### The wire format -/

theorem header_oneEncoding :
    OneEncoding (RoutingHeader.validate · = .ok ()) (fun h => (RoutingHeader.encode h).map (·.bytes))
      RoutingHeader.decode where
  decode_encode header hvalid := by
    obtain ⟨block, hblock⟩ : ∃ block, RoutingHeader.encode header = .ok block :=
      ⟨⟨_, RoutingHeader.length_flatten_fields header⟩, RoutingHeader.encode_eq_ok.mpr ⟨hvalid, rfl⟩⟩
    exact ⟨block.bytes, map_eq_ok.mpr ⟨block, hblock, rfl⟩, RoutingHeader.decode_encode hblock⟩
  encode_decode encoded header h := map_eq_ok.mpr (RoutingHeader.encode_decode h)

theorem frame_oneEncoding :
    OneEncoding (EnvelopeFrame.validate · = .ok ()) EnvelopeFrame.encode EnvelopeFrame.decode where
  decode_encode frame hvalid := by
    have hencode := EnvelopeFrame.encode_eq_ok.mpr ⟨hvalid, rfl⟩
    exact ⟨_, hencode, EnvelopeFrame.decode_encode hencode⟩
  encode_decode encoded frame := EnvelopeFrame.encode_decode

/-- Headers, frames, and client messages have one encoding each; at most one of the tests for a
heartbeat and for the kinds of a message succeeds, and what is read belongs to its class; and no codec
leaves its buffer, whatever the input. -/
theorem wire_format_canonical :
    OneEncoding (RoutingHeader.validate · = .ok ()) (fun h => (RoutingHeader.encode h).map (·.bytes))
      RoutingHeader.decode ∧
    OneEncoding (EnvelopeFrame.validate · = .ok ()) EnvelopeFrame.encode EnvelopeFrame.decode ∧
    (∀ encoded k k', MessageClass.Test encoded k → MessageClass.Test encoded k' → k = k') ∧
    (∀ encoded read, readBoundedClientMessage true encoded = .ok read →
      (MessageClass.of read).Test encoded) ∧
    (∀ encoded, readBoundedClientMessage true encoded = .ok none ↔ encoded = heartbeatRequest) ∧
    (∀ encoded message, decodeClientMessage encoded = .ok message ↔ message.encode = .ok encoded) ∧
    (∀ encoded message, readBoundedClientMessage true encoded = .ok (some message) ↔
      message.encode = .ok encoded) ∧
    (∀ encoded, RoutingHeader.decodeSlices encoded = unsliced (RoutingHeader.decode encoded) ∧
      EnvelopeFrame.decodeSlices encoded = unsliced (EnvelopeFrame.decode encoded) ∧
      RelayDelivery.decodeClientMessageSlices encoded = unsliced (decodeClientMessage encoded)) ∧
    (∀ header, RoutingHeader.encodeSlices header =
      unsliced ((RoutingHeader.encode header).map (·.bytes))) ∧
    (∀ frame, EnvelopeFrame.encodeSlices frame = unsliced (EnvelopeFrame.encode frame)) ∧
    (∀ envelope, RelayDelivery.encodeDurableSubmissionSlices envelope =
      unsliced (RelayDelivery.encodeDurableSubmission envelope)) ∧
    (∀ magic cursor allowZero, RelayDelivery.encodeControlSlices magic cursor allowZero =
      unsliced (RelayDelivery.encodeControl magic.bytes cursor allowZero)) ∧
    ∀ deliveryID envelope, RelayDelivery.encodeDeliverySlices deliveryID envelope =
      unsliced (RelayDelivery.encodeDelivery deliveryID envelope) := by
  refine ⟨header_oneEncoding, frame_oneEncoding, fun encoded k k' h h' => h.unique h',
    fun encoded read => test_of_readBoundedClientMessage,
    fun encoded => readBoundedClientMessage_none, fun encoded message => ?_,
    fun encoded message => readBoundedClientMessage_some, fun encoded => ?_,
    RoutingHeader.encodeSlices_eq, EnvelopeFrame.encodeSlices_eq,
    RelayDelivery.encodeDurableSubmissionSlices_eq, RelayDelivery.encodeControlSlices_eq,
    RelayDelivery.encodeDeliverySlices_eq⟩
  · exact ⟨RelayDelivery.encode_of_decodeClientMessage, RelayDelivery.decodeClientMessage_of_encode⟩
  · exact ⟨RoutingHeader.decodeSlices_eq encoded, EnvelopeFrame.decodeSlices_eq encoded,
      RelayDelivery.decodeClientMessageSlices_eq encoded⟩

example : readBoundedClientMessage true (RelayDelivery.resumeMagic ++ toBigEndian 8 7) =
    .ok (some (.resume 7)) := by decide

end SevenMirror.Relay
