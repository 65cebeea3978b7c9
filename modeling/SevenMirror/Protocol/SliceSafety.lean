import SevenMirror.Protocol.RelayDelivery

/-! The codecs with the slice expressions of the source, each of which could leave its buffer.  None
does, whatever the input, and the codecs compute what the definitions without slice expressions say.
A slice is held to the length of its buffer, though Go would let it reach the capacity. -/

namespace SevenMirror

open Lib

/-- `copy(block[:], src)`, into an array of zeros. -/
def Block.copied (n : Nat) (src : Bytes) : Block n :=
  ⟨src.take n ++ List.replicate (n - src.length) (UInt8.ofNat 0), by
    rw [List.length_append, List.length_take, List.length_replicate]
    omega⟩

theorem Block.copied_slice {b : Bytes} {start n : Nat} (h : start + n ≤ b.length) :
    Block.copied n ((b.drop start).take n) = .ofSlice b start n h := by
  have hlength : ((b.drop start).take n).length = n := by
    rw [List.length_take, List.length_drop]
    omega
  apply Block.ext
  rw [Block.copied, Block.ofSlice]
  dsimp only
  rw [List.take_of_length_le (Nat.le_of_eq hlength), hlength, Nat.sub_self, List.replicate_zero,
    List.append_nil]
  rfl

end SevenMirror

namespace SevenMirror.Protocol

open Lib

namespace RoutingHeader

def decodeSlices (encoded : Bytes) : ExceptT HeaderError Option Header := do
  unsliced (reject (encoded.length ≠ encodedSize) .size)
  let start ← sliced (sliceRange encoded 0 4)
  unsliced (reject (start ≠ magic) .magic)
  let suite ← sliced (uintRange encoded 4 6 2)
  unsliced (reject (suite ≠ suiteID) .suite)
  let flags ← sliced (uintRange encoded 6 8 2)
  unsliced (reject (flags ≠ 0) .flags)
  let workspaceID ← sliced (sliceRange encoded 8 24)
  let senderDeviceID ← sliced (sliceRange encoded 24 40)
  let recipientDeviceID ← sliced (sliceRange encoded 40 56)
  let senderKeyID ← sliced (sliceRange encoded 56 88)
  let recipientKeyID ← sliced (sliceRange encoded 88 120)
  let messageID ← sliced (sliceRange encoded 120 136)
  let sequence ← sliced (uintRange encoded 136 144 8)
  let createdAtUnixMs ← sliced (uintRange encoded 144 152 8)
  let expiresAtUnixMs ← sliced (uintRange encoded 152 160 8)
  let header : Header :=
    { workspaceID := .copied 16 workspaceID
      senderDeviceID := .copied 16 senderDeviceID
      recipientDeviceID := .copied 16 recipientDeviceID
      senderKeyID := .copied 32 senderKeyID
      recipientKeyID := .copied 32 recipientKeyID
      messageID := .copied 16 messageID
      sequence, createdAtUnixMs, expiresAtUnixMs }
  unsliced (validate header)
  unsliced (pure header)

def encodeSlices (header : Header) : ExceptT HeaderError Option Bytes := do
  unsliced (validate header)
  let encoded ← sliced (copyRange (List.replicate encodedSize (UInt8.ofNat 0)) 0 4 magic)
  let encoded ← sliced (putUintRange encoded 4 6 2 suiteID)
  let encoded ← sliced (putUintRange encoded 6 8 2 0)
  let encoded ← sliced (copyRange encoded 8 24 header.workspaceID.bytes)
  let encoded ← sliced (copyRange encoded 24 40 header.senderDeviceID.bytes)
  let encoded ← sliced (copyRange encoded 40 56 header.recipientDeviceID.bytes)
  let encoded ← sliced (copyRange encoded 56 88 header.senderKeyID.bytes)
  let encoded ← sliced (copyRange encoded 88 120 header.recipientKeyID.bytes)
  let encoded ← sliced (copyRange encoded 120 136 header.messageID.bytes)
  let encoded ← sliced (putUintRange encoded 136 144 8 header.sequence)
  let encoded ← sliced (putUintRange encoded 144 152 8 header.createdAtUnixMs)
  sliced (putUintRange encoded 152 160 8 header.expiresAtUnixMs)

theorem decodeSlices_eq (encoded : Bytes) : decodeSlices encoded = unsliced (decode encoded) := by
  by_cases hlength : encoded.length = encodedSize
  · have hsize : encoded.length = 160 := hlength
    have hslice : ∀ lo n, lo + n ≤ 160 →
        sliceRange encoded lo (lo + n) = some ((encoded.drop lo).take n) := by
      intro lo n hle
      rw [sliceRange_eq (Nat.le_add_right lo n) (hsize ▸ hle), Nat.add_sub_cancel_left]
    have huint : ∀ lo n, lo + n ≤ 160 →
        uintRange encoded lo (lo + n) n = some (ofBigEndian ((encoded.drop lo).take n)) :=
      fun lo n hle => uintRange_eq (hsize ▸ hle)
    have hcopied : ∀ lo n (hle : lo + n ≤ 160),
        Block.copied n ((encoded.drop lo).take n) = .ofSlice encoded lo n (hsize ▸ hle) :=
      fun lo n hle => Block.copied_slice (hsize ▸ hle)
    rw [decodeSlices, decode, dif_pos hlength]
    simp only [reject_neg (not_not.mpr hlength), hslice 0 4 (by decide), huint 4 2 (by decide),
      huint 6 2 (by decide), hslice 8 16 (by decide), hslice 24 16 (by decide),
      hslice 40 16 (by decide), hslice 56 32 (by decide), hslice 88 32 (by decide),
      hslice 120 16 (by decide), huint 136 8 (by decide), huint 144 8 (by decide),
      huint 152 8 (by decide), sliced_some_bind, hcopied 8 16 (by decide),
      hcopied 24 16 (by decide), hcopied 40 16 (by decide), hcopied 56 32 (by decide),
      hcopied 88 32 (by decide), hcopied 120 16 (by decide), unsliced_bind]
    rfl
  · rw [decodeSlices, decode, dif_neg hlength, reject_pos hlength]
    rfl

theorem encodeSlices_eq (header : Header) :
    encodeSlices header = unsliced ((encode header).map (·.bytes)) := by
  have hlength : (fields header).flatten.length =
      (List.replicate encodedSize (UInt8.ofNat 0)).length := by
    rw [length_flatten_fields, List.length_replicate, encodedSize]
  have hwrite := @writeFields_eq _ (fields header) [] _ hlength
  have hmagic : magic.length = 4 := rfl
  simp only [writeFields, fields, length_toBigEndian, Block.size, hmagic, Nat.reduceAdd,
    List.length_nil, List.nil_append, bind_pure] at hwrite
  simp (disch := decide) only [encodeSlices, encode, sliced_bind, putUintRange_eq]
  rw [hwrite, sliced_some, unsliced_bind]
  cases validate header <;> rfl

end RoutingHeader

namespace EnvelopeFrame

def validateSlices (frame : Frame) : ExceptT FrameError Option Unit := do
  let _ ← ExceptT.adapt .routingHeader (RoutingHeader.decodeSlices frame.routingHeader.bytes)
  unsliced (reject (frame.encapsulatedKey.bytes.head? ≠ some 0x04) .encapsulatedKey)
  unsliced (reject (frame.ciphertext.length < minCiphertextSize ∨
    frame.ciphertext.length > maxCiphertextSize) .ciphertextRange)

def decodeSlices (encoded : Bytes) : ExceptT FrameError Option Frame := do
  unsliced (reject (encoded.length < minFrameSize ∨ encoded.length > maxFrameSize) .size)
  let start ← sliced (sliceRange encoded 0 4)
  unsliced (reject (start ≠ magic) .magic)
  let ciphertextSize ← sliced (uintRange encoded 229 233 4)
  unsliced (reject (ciphertextSize < minCiphertextSize ∨ ciphertextSize > maxCiphertextSize)
    .ciphertextRange)
  unsliced (reject (encoded.length ≠ prefixSize + ciphertextSize) .lengthMismatch)
  let routingHeader ← sliced (sliceRange encoded 4 164)
  let encapsulatedKey ← sliced (sliceRange encoded 164 229)
  let ciphertext ← sliced (sliceRange encoded 233 encoded.length)
  let frame : Frame := ⟨.copied 160 routingHeader, .copied 65 encapsulatedKey, ciphertext⟩
  validateSlices frame
  unsliced (pure frame)

def encodeSlices (frame : Frame) : ExceptT FrameError Option Bytes := do
  validateSlices frame
  let size := prefixSize + frame.ciphertext.length
  let encoded ← sliced (copyRange (List.replicate size (UInt8.ofNat 0)) 0 4 magic)
  let encoded ← sliced (copyRange encoded 4 164 frame.routingHeader.bytes)
  let encoded ← sliced (copyRange encoded 164 229 frame.encapsulatedKey.bytes)
  let encoded ← sliced (putUintRange encoded 229 233 4 frame.ciphertext.length)
  sliced (copyRange encoded 233 size frame.ciphertext)

theorem validateSlices_eq (frame : Frame) : validateSlices frame = unsliced (validate frame) := by
  rw [validateSlices, RoutingHeader.decodeSlices_eq, adapt_unsliced, unsliced_bind, unsliced_bind,
    validate]
  cases RoutingHeader.decode frame.routingHeader.bytes <;> rfl

theorem decodeSlices_eq (encoded : Bytes) : decodeSlices encoded = unsliced (decode encoded) := by
  by_cases hlength : encoded.length < minFrameSize ∨ encoded.length > maxFrameSize
  · rw [decodeSlices, decode, dif_pos hlength, reject_pos hlength]
    rfl
  · have hsize : 249 ≤ encoded.length := Nat.not_lt.mp fun hlt => hlength (Or.inl hlt)
    have hslice : ∀ lo n, lo + n ≤ 249 →
        sliceRange encoded lo (lo + n) = some ((encoded.drop lo).take n) := by
      intro lo n hle
      rw [sliceRange_eq (Nat.le_add_right lo n) (Nat.le_trans hle hsize), Nat.add_sub_cancel_left]
    have huint : uintRange encoded 229 (229 + 4) 4 = some (ofBigEndian ((encoded.drop 229).take 4)) :=
      uintRange_eq (by omega)
    have hcopied : ∀ lo n (hle : lo + n ≤ 249), Block.copied n ((encoded.drop lo).take n) =
        .ofSlice encoded lo n (Nat.le_trans hle hsize) :=
      fun lo n hle => Block.copied_slice (Nat.le_trans hle hsize)
    have hrest : sliceRange encoded 233 encoded.length = some (encoded.drop 233) :=
      sliceRange_length (by omega)
    rw [decodeSlices, decode, dif_neg hlength]
    simp only [reject_neg hlength, hslice 0 4 (by decide), huint, hslice 4 160 (by decide),
      hslice 164 65 (by decide), hrest, sliced_some_bind, hcopied 4 160 (by decide),
      hcopied 164 65 (by decide), validateSlices_eq, unsliced_bind]
    rfl

theorem encodeSlices_eq (frame : Frame) : encodeSlices frame = unsliced (encode frame) := by
  have hlength : (fields frame).flatten.length =
      (List.replicate (prefixSize + frame.ciphertext.length) (UInt8.ofNat 0)).length := by
    rw [length_flatten_fields, List.length_replicate]
  have hwrite := @writeFields_eq _ (fields frame) [] _ hlength
  have hmagic : magic.length = 4 := rfl
  simp only [writeFields, fields, length_toBigEndian, Block.size, hmagic, Nat.reduceAdd,
    List.length_nil, List.nil_append, bind_pure] at hwrite
  simp (disch := decide) only [encodeSlices, sliced_bind, putUintRange_eq]
  have hsize : prefixSize + frame.ciphertext.length = 233 + frame.ciphertext.length := rfl
  rw [hsize] at hwrite ⊢
  rw [hwrite, sliced_some, validateSlices_eq, unsliced_bind]
  rfl

end EnvelopeFrame

namespace RelayDelivery

/-- `len(encoded) >= size && bytes.Equal(encoded[:4], magic)`. -/
def hasMagic (encoded : Bytes) (size : Nat) (magic : Bytes) : ExceptT ClientError Option Bool :=
  if encoded.length ≥ size then do
    let start ← sliced (sliceRange encoded 0 4)
    unsliced (pure (decide (start = magic)))
  else unsliced (pure false)

def decodeClientMessageSlices (encoded : Bytes) : ExceptT ClientError Option ClientMessage := do
  if ← hasMagic encoded EnvelopeFrame.minFrameSize EnvelopeFrame.magic then
    let _ ← ExceptT.adapt .envelope (EnvelopeFrame.decodeSlices encoded)
    unsliced (pure (.envelopeOnline encoded))
  else if ← hasMagic encoded (submissionPrefixSize + EnvelopeFrame.minFrameSize)
      durableSubmissionMagic then
    let envelope ← sliced (sliceRange encoded submissionPrefixSize encoded.length)
    let _ ← ExceptT.adapt .durableEnvelope (EnvelopeFrame.decodeSlices envelope)
    unsliced (pure (.envelopeDurable envelope))
  else
    unsliced (reject (encoded.length ≠ controlSize) .unsupported)
    let cursor ← sliced (uintRange encoded 4 12 8)
    unsliced (reject (cursor > maxInt64) .cursor)
    let start ← sliced (sliceRange encoded 0 4)
    if start = resumeMagic then unsliced (pure (.resume cursor))
    else if start = ackMagic then
      unsliced (reject (cursor = 0) .acknowledgement)
      unsliced (pure (.acknowledge cursor))
    else unsliced (throw .unsupported)

def encodeDurableSubmissionSlices (envelope : Bytes) : ExceptT MessageError Option Bytes := do
  let _ ← ExceptT.adapt .envelope (EnvelopeFrame.decodeSlices envelope)
  let size := submissionPrefixSize + envelope.length
  let encoded ← sliced (copyRange (List.replicate size (UInt8.ofNat 0)) 0 4 durableSubmissionMagic)
  sliced (copyRange encoded 4 size envelope)

def encodeControlSlices (magic : Block 4) (cursor : Nat) (allowZero : Bool) :
    ExceptT MessageError Option Bytes := do
  unsliced (reject (cursor > maxInt64 ∨ (!allowZero) ∧ cursor = 0) .cursor)
  let encoded ← sliced (copyRange (List.replicate controlSize (UInt8.ofNat 0)) 0 4 magic.bytes)
  sliced (putUintRange encoded 4 12 8 cursor)

def encodeDeliverySlices (deliveryID : Nat) (envelope : Bytes) :
    ExceptT MessageError Option Bytes := do
  unsliced (reject (deliveryID = 0 ∨ deliveryID > maxInt64) .deliveryID)
  let _ ← ExceptT.adapt .envelope (EnvelopeFrame.decodeSlices envelope)
  let size := 12 + envelope.length
  let encoded ← sliced (copyRange (List.replicate size (UInt8.ofNat 0)) 0 4 deliveryMagic)
  let encoded ← sliced (putUintRange encoded 4 12 8 deliveryID)
  sliced (copyRange encoded 12 size envelope)

theorem hasMagic_eq {encoded : Bytes} {size : Nat} {magic : Bytes} (hsize : 4 ≤ size) :
    hasMagic encoded size magic =
      unsliced (pure (decide (encoded.length ≥ size ∧ slice encoded 0 4 = magic))) := by
  unfold hasMagic
  split
  · rename_i hlength
    rw [sliceRange_eq (by omega) (Nat.le_trans hsize hlength), sliced_some_bind]
    simp only [hlength, true_and]
    rfl
  · rename_i hlength
    simp only [hlength, false_and, decide_false]

theorem decodeClientMessageSlices_eq (encoded : Bytes) :
    decodeClientMessageSlices encoded = unsliced (decodeClientMessage encoded) := by
  rw [decodeClientMessageSlices, hasMagic_eq (by decide), hasMagic_eq (by decide),
    decodeClientMessage, unsliced_pure_bind]
  split
  · rename_i honline
    rw [if_pos (of_decide_eq_true honline), EnvelopeFrame.decodeSlices_eq, adapt_unsliced,
      unsliced_bind]
  · rename_i honline
    rw [if_neg (of_decide_eq_false (Bool.eq_false_iff.mpr honline)), unsliced_pure_bind]
    split
    · rename_i hdurable
      have hmagic := of_decide_eq_true hdurable
      rw [if_pos hmagic, sliceRange_length (Nat.le_trans (by decide) hmagic.1), sliced_some_bind,
        EnvelopeFrame.decodeSlices_eq, adapt_unsliced, unsliced_bind]
    · rename_i hdurable
      rw [if_neg (of_decide_eq_false (Bool.eq_false_iff.mpr hdurable))]
      by_cases hlength : encoded.length = controlSize
      · have hsize : encoded.length = 12 := hlength
        have hcursor : uintRange encoded 4 12 8 = some (ofBigEndian (slice encoded 4 8)) :=
          @uintRange_eq encoded 4 8 (Nat.le_of_eq hsize.symm)
        have hstart : sliceRange encoded 0 4 = some (slice encoded 0 4) :=
          sliceRange_eq (by decide) (by omega)
        rw [hcursor, hstart]
        simp only [sliced_some_bind]
        by_cases hresume : slice encoded 0 4 = resumeMagic
        · simp only [if_pos hresume, unsliced_bind]
        · by_cases hack : slice encoded 0 4 = ackMagic
          · simp only [if_neg hresume, if_pos hack, unsliced_bind]
          · simp only [if_neg hresume, if_neg hack, unsliced_bind]
      · rw [reject_pos hlength]
        rfl

/-- A magic and a rest fill a buffer. -/
theorem write_magic {magic rest : Bytes} (hmagic : magic.length = 4) :
    (do
      let encoded ← copyRange (List.replicate (4 + rest.length) (UInt8.ofNat 0)) 0 4 magic
      copyRange encoded 4 (4 + rest.length) rest) = some (magic ++ rest) := by
  have hlength : [magic, rest].flatten.length =
      (List.replicate (4 + rest.length) (UInt8.ofNat 0)).length := by
    simp only [List.flatten_cons, List.flatten_nil, List.append_nil, List.length_append,
      List.length_replicate, hmagic]
  have hwrite := @writeFields_eq _ [magic, rest] [] _ hlength
  simpa only [writeFields, hmagic, List.length_nil, List.nil_append, bind_pure, List.flatten_cons,
    List.flatten_nil, List.append_nil, Nat.zero_add] using hwrite

theorem encodeDurableSubmissionSlices_eq (envelope : Bytes) :
    encodeDurableSubmissionSlices envelope = unsliced (encodeDurableSubmission envelope) := by
  have hwrite := @write_magic durableSubmissionMagic envelope rfl
  rw [encodeDurableSubmissionSlices, EnvelopeFrame.decodeSlices_eq, adapt_unsliced]
  simp only [submissionPrefixSize, sliced_bind, hwrite, sliced_some, unsliced_bind]
  rfl

theorem encodeControlSlices_eq (magic : Block 4) (cursor : Nat) (allowZero : Bool) :
    encodeControlSlices magic cursor allowZero =
      unsliced (encodeControl magic.bytes cursor allowZero) := by
  have hwrite := @write_magic magic.bytes (toBigEndian 8 cursor) magic.size
  simp only [length_toBigEndian, Nat.reduceAdd] at hwrite
  simp (disch := decide) only [encodeControlSlices, controlSize, putUintRange_eq, sliced_bind, hwrite,
    sliced_some, unsliced_bind]
  rfl

theorem encodeDeliverySlices_eq (deliveryID : Nat) (envelope : Bytes) :
    encodeDeliverySlices deliveryID envelope = unsliced (encodeDelivery deliveryID envelope) := by
  have hlength : [deliveryMagic, toBigEndian 8 deliveryID, envelope].flatten.length =
      (List.replicate (12 + envelope.length) (UInt8.ofNat 0)).length := by
    simp only [List.flatten_cons, List.flatten_nil, List.append_nil, List.length_append,
      List.length_replicate, length_toBigEndian, deliveryMagic, List.length_cons, List.length_nil]
    omega
  have hwrite := @writeFields_eq _ [deliveryMagic, toBigEndian 8 deliveryID, envelope] [] _ hlength
  have hmagic : deliveryMagic.length = 4 := rfl
  simp only [writeFields, hmagic, length_toBigEndian, List.length_nil, List.nil_append, bind_pure,
    List.flatten_cons, List.flatten_nil, List.append_nil, Nat.reduceAdd] at hwrite
  rw [encodeDeliverySlices, EnvelopeFrame.decodeSlices_eq, adapt_unsliced]
  simp (disch := decide) only [putUintRange_eq, sliced_bind, hwrite, sliced_some, unsliced_bind,
    encodeDelivery]
  cases EnvelopeFrame.decode envelope with
  | error e => rfl
  | ok frame => simp only [rethrow, List.append_assoc]; rfl

end RelayDelivery

end SevenMirror.Protocol
