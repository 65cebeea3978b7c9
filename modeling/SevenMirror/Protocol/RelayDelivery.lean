import SevenMirror.Protocol.EnvelopeFrame

/-! The messages of `protocol/relaydelivery/frame.go`. -/

namespace SevenMirror.Protocol.RelayDelivery

open Lib

/-- `SND1`, which carries a delivery. -/
def deliveryMagic : Bytes := [0x53, 0x4e, 0x44, 0x31]

/-- `SND2`, the caught-up marker. -/
def caughtUpMagic : Bytes := [0x53, 0x4e, 0x44, 0x32]

/-- `SNR1`, which asks for a snapshot. -/
def resetMagic : Bytes := [0x53, 0x4e, 0x52, 0x31]

inductive MessageError
  | deliveryID
  | envelope (error : EnvelopeFrame.FrameError)
  | cursor
deriving DecidableEq, Repr

def encodeControl (magic : Bytes) (cursor : Nat) (allowZero : Bool) :
    Except MessageError Bytes := do
  reject (cursor > maxInt64 ∨ (!allowZero) ∧ cursor = 0) .cursor
  return magic ++ toBigEndian 8 cursor

def encodeDelivery (deliveryID : Nat) (envelope : Bytes) : Except MessageError Bytes := do
  reject (deliveryID = 0 ∨ deliveryID > maxInt64) .deliveryID
  match EnvelopeFrame.decode envelope with
  | .error e => throw (.envelope e)
  | .ok _ => return deliveryMagic ++ toBigEndian 8 deliveryID ++ envelope

def encodeCaughtUp (highWater : Nat) : Except MessageError Bytes :=
  encodeControl caughtUpMagic highWater true

def encodeResetRequired (highWater : Nat) : Except MessageError Bytes :=
  encodeControl resetMagic highWater true

/-! ### Client messages -/

def controlSize : Nat := 12

def submissionPrefixSize : Nat := 4

/-- `SNQ1`, which submits an envelope for durable delivery. -/
def durableSubmissionMagic : Bytes := [0x53, 0x4e, 0x51, 0x31]

/-- `SNC1`, which resumes after a cursor. -/
def resumeMagic : Bytes := [0x53, 0x4e, 0x43, 0x31]

/-- `SNC2`, which acknowledges through a cursor. -/
def ackMagic : Bytes := [0x53, 0x4e, 0x43, 0x32]

inductive ClientMessage
  | envelopeOnline (envelope : Bytes)
  | envelopeDurable (envelope : Bytes)
  | resume (cursor : Nat)
  | acknowledge (cursor : Nat)
deriving DecidableEq, Repr

inductive ClientError
  | envelope (error : EnvelopeFrame.FrameError)
  | durableEnvelope (error : EnvelopeFrame.FrameError)
  | unsupported
  | cursor
  | acknowledgement
deriving DecidableEq, Repr

def decodeClientMessage (encoded : Bytes) : Except ClientError ClientMessage :=
  if encoded.length ≥ EnvelopeFrame.minFrameSize ∧ slice encoded 0 4 = EnvelopeFrame.magic then do
    let _ ← rethrow .envelope (EnvelopeFrame.decode encoded)
    return .envelopeOnline encoded
  else if encoded.length ≥ submissionPrefixSize + EnvelopeFrame.minFrameSize ∧
      slice encoded 0 4 = durableSubmissionMagic then do
    let envelope := encoded.drop submissionPrefixSize
    let _ ← rethrow .durableEnvelope (EnvelopeFrame.decode envelope)
    return .envelopeDurable envelope
  else do
    reject (encoded.length ≠ controlSize) .unsupported
    let cursor := ofBigEndian (slice encoded 4 8)
    reject (cursor > maxInt64) .cursor
    if slice encoded 0 4 = resumeMagic then return .resume cursor
    else if slice encoded 0 4 = ackMagic then
      reject (cursor = 0) .acknowledgement
      return .acknowledge cursor
    else throw .unsupported

/-- The bytes that a client sends for an envelope. -/
def submissionBytes (durable : Bool) (envelope : Bytes) : Bytes :=
  if durable then durableSubmissionMagic ++ envelope else envelope

/-- The control messages carry no envelope. -/
theorem control_no_envelope {encoded : Bytes} {message : ClientMessage}
    (h : (do
      reject (encoded.length ≠ controlSize) ClientError.unsupported
      let cursor := ofBigEndian (slice encoded 4 8)
      reject (cursor > maxInt64) ClientError.cursor
      if slice encoded 0 4 = resumeMagic then return ClientMessage.resume cursor
      else if slice encoded 0 4 = ackMagic then
        reject (cursor = 0) ClientError.acknowledgement
        return .acknowledge cursor
      else throw ClientError.unsupported) = Except.ok message) :
    ∃ cursor, message = .resume cursor ∨ message = .acknowledge cursor := by
  simp only [bind_eq_ok, exists_unit] at h
  obtain ⟨-, -, h⟩ := h
  split at h
  · cases h
    exact ⟨_, Or.inl rfl⟩
  · split at h
    · simp only [bind_eq_ok, exists_unit, pure_eq_ok] at h
      exact ⟨_, Or.inr h.2.symm⟩
    · cases h

theorem decodeClientMessage_online {encoded envelope : Bytes}
    (h : decodeClientMessage encoded = .ok (.envelopeOnline envelope)) :
    encoded = submissionBytes false envelope := by
  unfold decodeClientMessage at h
  split at h
  · simp only [bind_eq_ok, pure_eq_ok, ClientMessage.envelopeOnline.injEq] at h
    exact h.choose_spec.2
  · split at h
    · simp only [bind_eq_ok, pure_eq_ok, reduceCtorEq, and_false, exists_false] at h
    · obtain ⟨cursor, hmessage | hmessage⟩ := control_no_envelope h <;> cases hmessage

theorem decodeClientMessage_durable {encoded envelope : Bytes}
    (h : decodeClientMessage encoded = .ok (.envelopeDurable envelope)) :
    encoded = submissionBytes true envelope := by
  unfold decodeClientMessage at h
  split at h
  · simp only [bind_eq_ok, pure_eq_ok, reduceCtorEq, and_false, exists_false] at h
  · split at h
    · rename_i hmagic
      simp only [bind_eq_ok, pure_eq_ok, ClientMessage.envelopeDurable.injEq] at h
      obtain ⟨-, -, rfl⟩ := h
      rw [submissionBytes, if_pos rfl, ← hmagic.2]
      exact (List.take_append_drop 4 encoded).symm
    · obtain ⟨cursor, hmessage | hmessage⟩ := control_no_envelope h <;> cases hmessage

/-! ### Encoders of client messages -/

def encodeDurableSubmission (envelope : Bytes) : Except MessageError Bytes := do
  let _ ← rethrow .envelope (EnvelopeFrame.decode envelope)
  return durableSubmissionMagic ++ envelope

def encodeResume (cursor : Nat) : Except MessageError Bytes := encodeControl resumeMagic cursor true

def encodeAcknowledgement (cursor : Nat) : Except MessageError Bytes :=
  encodeControl ackMagic cursor false

/-- The encoder of each message; an envelope that is routed online is sent as it is. -/
def ClientMessage.encode : ClientMessage → Except MessageError Bytes
  | .envelopeOnline envelope => (rethrow .envelope (EnvelopeFrame.decode envelope)).map fun _ => envelope
  | .envelopeDurable envelope => encodeDurableSubmission envelope
  | .resume cursor => encodeResume cursor
  | .acknowledge cursor => encodeAcknowledgement cursor

theorem encodeControl_eq_ok {magic : Bytes} {cursor : Nat} {allowZero : Bool} {encoded : Bytes} :
    encodeControl magic cursor allowZero = .ok encoded ↔
      encoded = magic ++ toBigEndian 8 cursor ∧ cursor ≤ maxInt64 ∧
        (allowZero = false → cursor ≠ 0) := by
  simp only [encodeControl, bind_eq_ok, exists_unit, reject_eq_ok, pure_eq_ok, not_or, Nat.not_lt,
    not_and, Bool.not_eq_true']
  constructor
  · rintro ⟨hcursor, rfl⟩
    exact ⟨rfl, hcursor⟩
  · rintro ⟨rfl, hcursor⟩
    exact ⟨hcursor, rfl⟩

/-- A control message of 12 bytes is its magic and its cursor. -/
theorem control_eq {encoded : Bytes} (hlength : encoded.length = controlSize) :
    encoded = slice encoded 0 4 ++ toBigEndian 8 (ofBigEndian (slice encoded 4 8)) := by
  unfold controlSize at hlength
  have hrest : (encoded.drop 4).length = 8 := by
    rw [List.length_drop, hlength]
  have hcursor : slice encoded 4 8 = encoded.drop 4 := List.take_of_length_le (Nat.le_of_eq hrest)
  rw [hcursor, ← eq_toBigEndian hrest rfl]
  exact (List.take_append_drop 4 encoded).symm

theorem encode_of_decodeClientMessage {encoded : Bytes} {message : ClientMessage}
    (h : decodeClientMessage encoded = .ok message) : message.encode = .ok encoded := by
  unfold decodeClientMessage at h
  split at h
  · simp only [bind_eq_ok, rethrow_eq_ok, pure_eq_ok] at h
    obtain ⟨frame, hframe, rfl⟩ := h
    simp only [ClientMessage.encode, map_eq_ok, rethrow_eq_ok, and_true]
    exact ⟨frame, hframe⟩
  · split at h
    · rename_i hmagic
      simp only [bind_eq_ok, rethrow_eq_ok, pure_eq_ok] at h
      obtain ⟨frame, hframe, rfl⟩ := h
      simp only [ClientMessage.encode, encodeDurableSubmission, bind_eq_ok, rethrow_eq_ok, pure_eq_ok]
      refine ⟨frame, hframe, ?_⟩
      rw [← hmagic.2]
      exact List.take_append_drop 4 encoded
    · simp only [bind_eq_ok, exists_unit, reject_eq_ok, ne_eq, Decidable.not_not, Nat.not_lt] at h
      obtain ⟨hlength, hcursor, h⟩ := h
      have hencoded := control_eq hlength
      split at h
      · rename_i hmagic
        cases h
        rw [hmagic] at hencoded
        exact encodeControl_eq_ok.mpr ⟨hencoded, hcursor, Bool.noConfusion⟩
      · split at h
        · rename_i hmagic
          simp only [bind_eq_ok, exists_unit, reject_eq_ok, pure_eq_ok] at h
          obtain ⟨hpositive, rfl⟩ := h
          rw [hmagic] at hencoded
          exact encodeControl_eq_ok.mpr ⟨hencoded, hcursor, fun _ => hpositive⟩
        · simp only [throw_eq_ok] at h

/-- An envelope begins with its magic and is not short. -/
theorem starts_of_decode {envelope : Bytes} {frame : EnvelopeFrame.Frame}
    (h : EnvelopeFrame.decode envelope = .ok frame) :
    envelope.length ≥ EnvelopeFrame.minFrameSize ∧ slice envelope 0 4 = EnvelopeFrame.magic := by
  obtain ⟨hmagic, -, hlength, -, -, -, hvalid⟩ := EnvelopeFrame.decode_eq_ok.mp h
  obtain ⟨-, -, hmin, -⟩ := EnvelopeFrame.validate_eq_ok.mp hvalid
  exact ⟨hlength ▸ Nat.add_le_add_left hmin _, hmagic⟩

/-- The first fields of a message with a magic. -/
theorem slice_magic {magic rest : Bytes} (h : magic.length = 4) :
    slice (magic ++ rest) 0 4 = magic ∧ (magic ++ rest).drop 4 = rest := by
  rw [slice, List.drop_zero, ← h]
  exact ⟨List.take_left, List.drop_left⟩

/-- The tests of a control message. -/
theorem decodeClientMessage_control {magic : Bytes} {cursor : Nat} (hmagic : magic.length = 4)
    (hcursor : cursor ≤ maxInt64) :
    decodeClientMessage (magic ++ toBigEndian 8 cursor) =
      if magic = resumeMagic then .ok (.resume cursor)
      else if magic = ackMagic then
        if cursor = 0 then .error .acknowledgement else .ok (.acknowledge cursor)
      else .error .unsupported := by
  obtain ⟨hstart, hrest⟩ := @slice_magic magic (toBigEndian 8 cursor) hmagic
  have hlength : (magic ++ toBigEndian 8 cursor).length = controlSize := by
    rw [List.length_append, hmagic, length_toBigEndian]
    rfl
  have hfield : ofBigEndian (slice (magic ++ toBigEndian 8 cursor) 4 8) = cursor := by
    rw [slice, hrest, List.take_of_length_le (Nat.le_of_eq (length_toBigEndian 8 cursor))]
    exact ofBigEndian_toBigEndian (by simp only [byteSpan, maxInt64] at hcursor ⊢; omega)
  have hshort : ¬ controlSize ≥ EnvelopeFrame.minFrameSize := by decide
  have hshorter : ¬ controlSize ≥ submissionPrefixSize + EnvelopeFrame.minFrameSize := by decide
  rw [decodeClientMessage, hlength, if_neg fun h => hshort h.1, if_neg fun h => hshorter h.1, hfield,
    hstart, reject_neg (not_not.mpr rfl), ok_bind]
  dsimp only
  rw [reject_neg (Nat.not_lt.mpr hcursor), ok_bind]
  split
  · rfl
  · split
    · unfold reject
      split <;> rfl
    · rfl

theorem decodeClientMessage_of_encode {encoded : Bytes} {message : ClientMessage}
    (h : message.encode = .ok encoded) : decodeClientMessage encoded = .ok message := by
  cases message with
  | envelopeOnline envelope =>
    simp only [ClientMessage.encode, map_eq_ok, rethrow_eq_ok] at h
    obtain ⟨frame, hframe, rfl⟩ := h
    rw [decodeClientMessage, if_pos (starts_of_decode hframe), hframe]
    rfl
  | envelopeDurable envelope =>
    simp only [ClientMessage.encode, encodeDurableSubmission, bind_eq_ok, rethrow_eq_ok,
      pure_eq_ok] at h
    obtain ⟨frame, hframe, rfl⟩ := h
    obtain ⟨hmagic, hrest⟩ : slice (durableSubmissionMagic ++ envelope) 0 4 = durableSubmissionMagic ∧
        (durableSubmissionMagic ++ envelope).drop 4 = envelope := slice_magic rfl
    have hlength : (durableSubmissionMagic ++ envelope).length = 4 + envelope.length :=
      List.length_append
    rw [decodeClientMessage, hmagic, if_neg (fun h => absurd h.2 (by decide)),
      if_pos ⟨hlength ▸ Nat.add_le_add_left (starts_of_decode hframe).1 4, rfl⟩, submissionPrefixSize,
      hrest]
    dsimp only
    rw [hframe]
    rfl
  | resume cursor =>
    obtain ⟨rfl, hcursor, -⟩ := encodeControl_eq_ok.mp h
    rw [decodeClientMessage_control rfl hcursor, if_pos rfl]
  | acknowledge cursor =>
    obtain ⟨rfl, hcursor, hpositive⟩ := encodeControl_eq_ok.mp h
    rw [decodeClientMessage_control rfl hcursor, if_neg (by decide), if_pos rfl,
      if_neg (hpositive rfl)]

end SevenMirror.Protocol.RelayDelivery
