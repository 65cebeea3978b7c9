import SevenMirror.Basic
import SevenMirror.Lib.Slices

/-! The routing header of `protocol/routingheader/header.go`: 160 bytes that name the sender and
the recipient of an envelope. -/

namespace SevenMirror.Protocol.RoutingHeader

open Lib

def encodedSize : Nat := 160

def suiteID : Nat := 1

def maxTTLMillis : Nat := 24 * 60 * 60 * 1000

def maxSafeMillis : Nat := 0x1fffffffffffff

/-- `SNH1`. -/
def magic : Bytes := [0x53, 0x4e, 0x48, 0x31]

@[ext] structure Header where
  workspaceID : WorkspaceID
  senderDeviceID : DeviceID
  recipientDeviceID : DeviceID
  senderKeyID : Block 32
  recipientKeyID : Block 32
  messageID : Block 16
  sequence : Nat
  createdAtUnixMs : Nat
  expiresAtUnixMs : Nat
deriving DecidableEq, Repr

inductive HeaderError
  | size | magic | suite | flags
  | workspaceZero | senderZero | recipientZero | senderKeyZero | recipientKeyZero | messageZero
  | sequence | timestamps | expiry | ttl
deriving DecidableEq, Repr

def validate (header : Header) : Except HeaderError Unit := do
  reject (allZero header.workspaceID.bytes) .workspaceZero
  reject (allZero header.senderDeviceID.bytes) .senderZero
  reject (allZero header.recipientDeviceID.bytes) .recipientZero
  reject (allZero header.senderKeyID.bytes) .senderKeyZero
  reject (allZero header.recipientKeyID.bytes) .recipientKeyZero
  reject (allZero header.messageID.bytes) .messageZero
  reject (header.sequence = 0 ∨ header.sequence > maxInt64) .sequence
  reject (header.createdAtUnixMs > maxSafeMillis ∨ header.expiresAtUnixMs > maxSafeMillis)
    .timestamps
  reject (header.expiresAtUnixMs ≤ header.createdAtUnixMs) .expiry
  reject (header.expiresAtUnixMs - header.createdAtUnixMs > maxTTLMillis) .ttl

def decode (encoded : Bytes) : Except HeaderError Header := do
  if h : encoded.length = encodedSize then
    have size : 160 ≤ encoded.length := by rw [h]; exact Nat.le_refl 160
    reject (slice encoded 0 4 ≠ magic) .magic
    reject (ofBigEndian (slice encoded 4 2) ≠ suiteID) .suite
    reject (ofBigEndian (slice encoded 6 2) ≠ 0) .flags
    let header : Header :=
      { workspaceID := .ofSlice encoded 8 16 (by omega)
        senderDeviceID := .ofSlice encoded 24 16 (by omega)
        recipientDeviceID := .ofSlice encoded 40 16 (by omega)
        senderKeyID := .ofSlice encoded 56 32 (by omega)
        recipientKeyID := .ofSlice encoded 88 32 (by omega)
        messageID := .ofSlice encoded 120 16 (by omega)
        sequence := ofBigEndian (slice encoded 136 8)
        createdAtUnixMs := ofBigEndian (slice encoded 144 8)
        expiresAtUnixMs := ofBigEndian (slice encoded 152 8) }
    validate header
    return header
  else
    throw .size

/-- What a reader of the original bytes can rely on. -/
theorem decode_ok {encoded : Bytes} {header : Header} (h : decode encoded = .ok header) :
    header.workspaceID.bytes = slice encoded 8 16 ∧
      header.senderDeviceID.bytes = slice encoded 24 16 ∧
      header.expiresAtUnixMs ≤ maxSafeMillis := by
  unfold decode at h
  split at h
  · simp only [bind_eq_ok, exists_unit, reject_eq_ok, pure_eq_ok] at h
    obtain ⟨-, -, -, hvalid, rfl⟩ := h
    simp only [validate, bind_eq_ok, exists_unit, reject_eq_ok] at hvalid
    obtain ⟨-, -, -, -, -, -, -, htimes, -, -⟩ := hvalid
    exact ⟨rfl, rfl, Nat.not_lt.mp fun hlt => htimes (Or.inr hlt)⟩
  · cases h

/-! ### Encoding -/

/-- The fields in the order of the layout. -/
def fields (header : Header) : List Bytes :=
  [magic, toBigEndian 2 suiteID, toBigEndian 2 0, header.workspaceID.bytes,
    header.senderDeviceID.bytes, header.recipientDeviceID.bytes, header.senderKeyID.bytes,
    header.recipientKeyID.bytes, header.messageID.bytes, toBigEndian 8 header.sequence,
    toBigEndian 8 header.createdAtUnixMs, toBigEndian 8 header.expiresAtUnixMs]

/-- The widths of the fields. -/
def widths : List Nat := [4, 2, 2, 16, 16, 16, 32, 32, 16, 8, 8, 8]

theorem map_length_fields (header : Header) : (fields header).map List.length = widths := by
  simp only [fields, List.map_cons, List.map_nil, length_toBigEndian, Block.size]
  rfl

theorem length_flatten_fields (header : Header) : (fields header).flatten.length = 160 := by
  simp only [fields, List.flatten_cons, List.flatten_nil, List.length_append, length_toBigEndian,
    Block.size]
  rfl

def encode (header : Header) : Except HeaderError (Block 160) := do
  validate header
  return ⟨(fields header).flatten, length_flatten_fields header⟩

theorem encode_eq_ok {header : Header} {encoded : Block 160} :
    encode header = .ok encoded ↔
      validate header = .ok () ∧ encoded.bytes = (fields header).flatten := by
  simp only [encode, bind_eq_ok, exists_unit, pure_eq_ok, Block.ext_iff]
  exact and_congr_right fun _ => eq_comm

/-- The numbers of a valid header fit their fields. -/
theorem validate_fits {header : Header} (h : validate header = .ok ()) :
    header.sequence < byteSpan 8 ∧ header.createdAtUnixMs < byteSpan 8 ∧
      header.expiresAtUnixMs < byteSpan 8 := by
  simp only [validate, bind_eq_ok, exists_unit, reject_eq_ok] at h
  obtain ⟨-, -, -, -, -, -, hsequence, htimes, -, -⟩ := h
  simp only [maxInt64, maxSafeMillis, not_or] at hsequence htimes
  simp only [byteSpan]
  omega

theorem decode_eq_ok {encoded : Bytes} {header : Header} :
    decode encoded = .ok header ↔
      encoded.length = encodedSize ∧ slice encoded 0 4 = magic ∧
      ofBigEndian (slice encoded 4 2) = suiteID ∧ ofBigEndian (slice encoded 6 2) = 0 ∧
      header.workspaceID.bytes = slice encoded 8 16 ∧
      header.senderDeviceID.bytes = slice encoded 24 16 ∧
      header.recipientDeviceID.bytes = slice encoded 40 16 ∧
      header.senderKeyID.bytes = slice encoded 56 32 ∧
      header.recipientKeyID.bytes = slice encoded 88 32 ∧
      header.messageID.bytes = slice encoded 120 16 ∧
      header.sequence = ofBigEndian (slice encoded 136 8) ∧
      header.createdAtUnixMs = ofBigEndian (slice encoded 144 8) ∧
      header.expiresAtUnixMs = ofBigEndian (slice encoded 152 8) ∧ validate header = .ok () := by
  by_cases hlength : encoded.length = encodedSize
  · rw [decode, dif_pos hlength]
    simp only [bind_eq_ok, exists_unit, reject_eq_ok, pure_eq_ok, ne_eq, Decidable.not_not, hlength,
      true_and]
    constructor
    · rintro ⟨hmagic, hsuite, hflags, hvalid, rfl⟩
      exact ⟨hmagic, hsuite, hflags, rfl, rfl, rfl, rfl, rfl, rfl, rfl, rfl, rfl, hvalid⟩
    · rintro ⟨hmagic, hsuite, hflags, hworkspace, hsender, hrecipient, hsenderKey, hrecipientKey,
        hmessage, hsequence, hcreated, hexpires, hvalid⟩
      have hbuilt : ∀ {built : Header}, built = header →
          validate built = .ok () ∧ built = header := fun h => ⟨h ▸ hvalid, h⟩
      exact ⟨hmagic, hsuite, hflags, hbuilt (Header.ext (Block.ext hworkspace.symm)
        (Block.ext hsender.symm) (Block.ext hrecipient.symm) (Block.ext hsenderKey.symm)
        (Block.ext hrecipientKey.symm) (Block.ext hmessage.symm) hsequence.symm hcreated.symm
        hexpires.symm)⟩
  · rw [decode, dif_neg hlength]
    simp only [throw_eq_ok, hlength, false_and]

theorem decode_encode {header : Header} {encoded : Block 160} (h : encode header = .ok encoded) :
    decode encoded.bytes = .ok header := by
  obtain ⟨hvalid, hbytes⟩ := encode_eq_ok.mp h
  obtain ⟨hsequence, hcreated, hexpires⟩ := validate_fits hvalid
  have hcut : cutFields encoded.bytes 0 widths = fields header := by
    rw [hbytes, ← map_length_fields header]
    exact cutFields_flatten [] (fields header)
  simp only [widths, cutFields, fields, List.cons.injEq, and_true, Nat.reduceAdd] at hcut
  obtain ⟨h0, h1, h2, h3, h4, h5, h6, h7, h8, h9, h10, h11⟩ := hcut
  simp only [decode_eq_ok, slice, h0, h1, h2, h3, h4, h5, h6, h7, h8, h9, h10, h11,
    true_and]
  exact ⟨encoded.size, rfl, rfl, (ofBigEndian_toBigEndian hsequence).symm,
    (ofBigEndian_toBigEndian hcreated).symm, (ofBigEndian_toBigEndian hexpires).symm, hvalid⟩

theorem encode_decode {encoded : Bytes} {header : Header} (h : decode encoded = .ok header) :
    ∃ block, encode header = .ok block ∧ block.bytes = encoded := by
  obtain ⟨hlength, hmagic, hsuite, hflags, hworkspace, hsender, hrecipient, hsenderKey,
    hrecipientKey, hmessage, hsequence, hcreated, hexpires, hvalid⟩ := decode_eq_ok.mp h
  have hfield : ∀ {start width n : Nat}, start + width ≤ 160 →
      ofBigEndian (slice encoded start width) = n →
      slice encoded start width = toBigEndian width n := by
    intro start width n hend hn
    refine eq_toBigEndian ?_ hn
    rw [slice, List.length_take, List.length_drop, hlength, encodedSize]
    omega
  have hfields : cutFields encoded 0 widths = fields header := by
    simp only [widths, cutFields, fields, List.cons.injEq, and_true, Nat.reduceAdd]
    exact ⟨hmagic, hfield (by decide) hsuite, hfield (by decide) hflags, hworkspace.symm,
      hsender.symm, hrecipient.symm, hsenderKey.symm, hrecipientKey.symm, hmessage.symm,
      hfield (by decide) hsequence.symm, hfield (by decide) hcreated.symm,
      hfield (by decide) hexpires.symm⟩
  have hflatten : (fields header).flatten = encoded := by
    rw [← hfields]
    exact flatten_cutFields hlength.symm
  exact ⟨⟨encoded, hlength⟩, encode_eq_ok.mpr ⟨hvalid, hflatten.symm⟩, rfl⟩

end SevenMirror.Protocol.RoutingHeader
