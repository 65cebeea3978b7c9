import SevenMirror.Protocol.RoutingHeader

/-! The encrypted envelope of `protocol/envelopeframe/frame.go`: a routing header, an encapsulated
key, and a ciphertext that the relay never opens. -/

namespace SevenMirror.Protocol.EnvelopeFrame

open Lib

def prefixSize : Nat := 233

def encapsulatedSize : Nat := 65

def minCiphertextSize : Nat := 16

def maxCiphertextSize : Nat := 512 * 1024

def minFrameSize : Nat := prefixSize + minCiphertextSize

def maxFrameSize : Nat := prefixSize + maxCiphertextSize

/-- `SNE1`. -/
def magic : Bytes := [0x53, 0x4e, 0x45, 0x31]

@[ext] structure Frame where
  routingHeader : Block 160
  encapsulatedKey : Block 65
  ciphertext : Bytes
deriving DecidableEq, Repr

inductive FrameError
  | size | magic | ciphertextRange | lengthMismatch
  | routingHeader (error : RoutingHeader.HeaderError)
  | encapsulatedKey
deriving DecidableEq, Repr

def validate (frame : Frame) : Except FrameError Unit := do
  match RoutingHeader.decode frame.routingHeader.bytes with
  | .error e => throw (.routingHeader e)
  | .ok _ =>
    reject (frame.encapsulatedKey.bytes.head? ≠ some 0x04) .encapsulatedKey
    reject (frame.ciphertext.length < minCiphertextSize ∨
      frame.ciphertext.length > maxCiphertextSize) .ciphertextRange

def decode (encoded : Bytes) : Except FrameError Frame := do
  if h : encoded.length < minFrameSize ∨ encoded.length > maxFrameSize then
    throw .size
  else
    have size : 249 ≤ encoded.length := Nat.not_lt.mp fun hlt => h (Or.inl hlt)
    reject (slice encoded 0 4 ≠ magic) .magic
    let ciphertextSize := ofBigEndian (slice encoded 229 4)
    reject (ciphertextSize < minCiphertextSize ∨ ciphertextSize > maxCiphertextSize)
      .ciphertextRange
    reject (encoded.length ≠ prefixSize + ciphertextSize) .lengthMismatch
    let frame : Frame :=
      { routingHeader := .ofSlice encoded 4 160 (by omega)
        encapsulatedKey := .ofSlice encoded 164 65 (by omega)
        ciphertext := encoded.drop 233 }
    validate frame
    return frame

/-! ### Encoding -/

/-- The fields in the order of the layout. -/
def fields (frame : Frame) : List Bytes :=
  [magic, frame.routingHeader.bytes, frame.encapsulatedKey.bytes,
    toBigEndian 4 frame.ciphertext.length, frame.ciphertext]

theorem map_length_fields (frame : Frame) :
    (fields frame).map List.length = [4, 160, 65, 4, frame.ciphertext.length] := by
  simp only [fields, List.map_cons, List.map_nil, length_toBigEndian, Block.size]
  rfl

theorem length_flatten_fields (frame : Frame) :
    (fields frame).flatten.length = prefixSize + frame.ciphertext.length := by
  simp only [fields, List.flatten_cons, List.flatten_nil, List.length_append, length_toBigEndian,
    Block.size, List.length_nil, prefixSize, magic, List.length_cons]
  omega

def encode (frame : Frame) : Except FrameError Bytes := do
  validate frame
  return (fields frame).flatten

theorem encode_eq_ok {frame : Frame} {encoded : Bytes} :
    encode frame = .ok encoded ↔ validate frame = .ok () ∧ encoded = (fields frame).flatten := by
  simp only [encode, bind_eq_ok, exists_unit, pure_eq_ok]
  exact and_congr_right fun _ => eq_comm

theorem validate_eq_ok {frame : Frame} :
    validate frame = .ok () ↔ (∃ header, RoutingHeader.decode frame.routingHeader.bytes = .ok header) ∧
      frame.encapsulatedKey.bytes.head? = some 0x04 ∧
      minCiphertextSize ≤ frame.ciphertext.length ∧ frame.ciphertext.length ≤ maxCiphertextSize := by
  unfold validate
  split
  · rename_i e herror
    simp [herror]
  · rename_i header hheader
    simp only [bind_eq_ok, exists_unit, reject_eq_ok, ne_eq, Decidable.not_not, hheader, not_or,
      Nat.not_lt, Except.ok.injEq, exists_eq', true_and]

theorem decode_eq_ok {encoded : Bytes} {frame : Frame} :
    decode encoded = .ok frame ↔
      slice encoded 0 4 = magic ∧ ofBigEndian (slice encoded 229 4) = frame.ciphertext.length ∧
      encoded.length = prefixSize + frame.ciphertext.length ∧
      frame.routingHeader.bytes = slice encoded 4 160 ∧
      frame.encapsulatedKey.bytes = slice encoded 164 65 ∧ frame.ciphertext = encoded.drop 233 ∧
      validate frame = .ok () := by
  by_cases hsize : encoded.length < minFrameSize ∨ encoded.length > maxFrameSize
  · -- a valid ciphertext gives a length that is in range
    rw [decode, dif_pos hsize]
    simp only [throw_eq_ok, false_iff]
    rintro ⟨-, -, hlength, -, -, -, hvalid⟩
    obtain ⟨-, -, hmin, hmax⟩ := validate_eq_ok.mp hvalid
    simp only [minFrameSize, maxFrameSize, hlength] at hsize
    omega
  · rw [decode, dif_neg hsize]
    simp only [bind_eq_ok, exists_unit, reject_eq_ok, pure_eq_ok, ne_eq, Decidable.not_not]
    constructor
    · rintro ⟨hmagic, -, hlength, hvalid, rfl⟩
      have hciphertext : (encoded.drop 233).length = ofBigEndian (slice encoded 229 4) := by
        rw [List.length_drop, hlength, prefixSize]
        omega
      exact ⟨hmagic, hciphertext.symm, by rw [hciphertext, ← hlength], rfl, rfl, rfl, hvalid⟩
    · rintro ⟨hmagic, hciphertext, hlength, hheader, hkey, hrest, hvalid⟩
      obtain ⟨-, -, hmin, hmax⟩ := validate_eq_ok.mp hvalid
      have hbuilt : ∀ {built : Frame}, built = frame →
          validate built = .ok () ∧ built = frame := fun h => ⟨h ▸ hvalid, h⟩
      rw [hciphertext]
      exact ⟨hmagic, not_or.mpr ⟨Nat.not_lt.mpr hmin, Nat.not_lt.mpr hmax⟩, hlength,
        hbuilt (Frame.ext (Block.ext hheader.symm) (Block.ext hkey.symm) hrest.symm)⟩

theorem decode_encode {frame : Frame} {encoded : Bytes} (h : encode frame = .ok encoded) :
    decode encoded = .ok frame := by
  obtain ⟨hvalid, rfl⟩ := encode_eq_ok.mp h
  obtain ⟨-, -, -, hmax⟩ := validate_eq_ok.mp hvalid
  have hcut := cutFields_flatten [] (fields frame)
  rw [map_length_fields] at hcut
  simp only [cutFields, fields, List.nil_append, List.length_nil, List.cons.injEq, and_true,
    Nat.reduceAdd] at hcut
  obtain ⟨hmagic, hheader, hkey, hciphertext, hrest⟩ := hcut
  rw [decode_eq_ok]
  refine ⟨hmagic, ?_, length_flatten_fields frame, hheader.symm, hkey.symm, ?_, hvalid⟩
  · rw [slice, fields, hciphertext]
    exact ofBigEndian_toBigEndian (by simp only [byteSpan, maxCiphertextSize] at hmax ⊢; omega)
  · rw [List.take_of_length_le] at hrest
    · exact hrest.symm
    · have hlength := length_flatten_fields frame
      simp only [fields, prefixSize] at hlength
      rw [List.length_drop, hlength]
      omega

theorem encode_decode {encoded : Bytes} {frame : Frame} (h : decode encoded = .ok frame) :
    encode frame = .ok encoded := by
  obtain ⟨hmagic, hciphertext, hlength, hheader, hkey, hrest, hvalid⟩ := decode_eq_ok.mp h
  have hfields : cutFields encoded 0 [4, 160, 65, 4, frame.ciphertext.length] = fields frame := by
    simp only [cutFields, fields, List.cons.injEq, and_true, Nat.reduceAdd]
    refine ⟨hmagic, hheader.symm, hkey.symm, eq_toBigEndian ?_ hciphertext, ?_⟩
    · rw [List.length_take, List.length_drop, hlength, prefixSize]
      omega
    · rw [← hrest, List.take_length]
  have hflatten : (fields frame).flatten = encoded := by
    rw [← hfields]
    exact flatten_cutFields (by simp only [List.foldl_cons, List.foldl_nil, hlength]; rfl)
  exact encode_eq_ok.mpr ⟨hvalid, hflatten.symm⟩

end SevenMirror.Protocol.EnvelopeFrame
