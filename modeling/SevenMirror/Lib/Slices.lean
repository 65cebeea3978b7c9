import SevenMirror.Lib.BigEndian
import SevenMirror.Lib.Reject

/-! Slices of a buffer.  A slice expression that leaves the buffer is `none`; a computation with slices
is one in `ExceptT ε Option`, which fails with an error or not at all.  The fields of a fixed layout
stand one after the other. -/

universe u

namespace SevenMirror.Lib

variable {ε : Type u} {α β : Type u}

/-! ### Slice expressions -/

section Ranges

variable {γ : Type*}

/-- `b[lo:hi]`. -/
def sliceRange (b : List γ) (lo hi : Nat) : Option (List γ) :=
  if lo ≤ hi ∧ hi ≤ b.length then some ((b.drop lo).take (hi - lo)) else none

/-- `copy(b[lo:hi], src)`, which stops at the end of either slice. -/
def copyRange (b : List γ) (lo hi : Nat) (src : List γ) : Option (List γ) :=
  if lo ≤ hi ∧ hi ≤ b.length then
    some (b.take lo ++ src.take (hi - lo) ++ b.drop (lo + (src.take (hi - lo)).length))
  else none

theorem sliceRange_eq {b : List γ} {lo hi : Nat} (hle : lo ≤ hi) (hhi : hi ≤ b.length) :
    sliceRange b lo hi = some ((b.drop lo).take (hi - lo)) := if_pos ⟨hle, hhi⟩

/-- To the end of the buffer. -/
theorem sliceRange_length {b : List γ} {lo : Nat} (hle : lo ≤ b.length) :
    sliceRange b lo b.length = some (b.drop lo) := by
  rw [sliceRange_eq hle (Nat.le_refl _), List.take_of_length_le (Nat.le_of_eq List.length_drop)]

/-- A copy right after what is filled fills the next field. -/
theorem copyRange_append {filled rest src : List γ} (h : src.length ≤ rest.length) :
    copyRange (filled ++ rest) filled.length (filled.length + src.length) src =
      some ((filled ++ src) ++ rest.drop src.length) := by
  have hrange : filled.length ≤ filled.length + src.length ∧
      filled.length + src.length ≤ (filled ++ rest).length := by
    rw [List.length_append]
    omega
  have htake : src.take (filled.length + src.length - filled.length) = src := by
    rw [Nat.add_sub_cancel_left, List.take_length]
  rw [copyRange, if_pos hrange, htake, List.take_left, List.drop_append, List.drop_of_length_le]
  · simp
  · omega

end Ranges

/-- `binary.BigEndian.Uint…(b[lo:hi])`, which reads `width` bytes. -/
def uintRange (b : List UInt8) (lo hi width : Nat) : Option Nat :=
  match sliceRange b lo hi with
  | none => none
  | some field => if width ≤ field.length then some (ofBigEndian (field.take width)) else none

/-- `binary.BigEndian.PutUint…(b[lo:hi], n)`, which writes `width` bytes. -/
def putUintRange (b : List UInt8) (lo hi width n : Nat) : Option (List UInt8) :=
  if width ≤ hi - lo then copyRange b lo hi (toBigEndian width n) else none

theorem uintRange_eq {b : List UInt8} {lo width : Nat} (hhi : lo + width ≤ b.length) :
    uintRange b lo (lo + width) width = some (ofBigEndian ((b.drop lo).take width)) := by
  have hlength : ((b.drop lo).take width).length = width := by
    rw [List.length_take, List.length_drop]
    omega
  rw [uintRange, sliceRange_eq (Nat.le_add_right _ _) hhi, Nat.add_sub_cancel_left]
  dsimp only
  rw [if_pos (Nat.le_of_eq hlength.symm), List.take_of_length_le (Nat.le_of_eq hlength)]

theorem putUintRange_eq {b : List UInt8} {lo hi width n : Nat} (h : width ≤ hi - lo) :
    putUintRange b lo hi width n = copyRange b lo hi (toBigEndian width n) := if_pos h

/-! ### Fields -/

section Fields

variable {γ : Type*}

/-- The fields of these widths, from `offset` on. -/
def cutFields (b : List γ) : Nat → List Nat → List (List γ)
  | _, [] => []
  | offset, width :: rest => (b.drop offset).take width :: cutFields b (offset + width) rest

/-- The fields of a buffer make up the buffer. -/
theorem flatten_cutFields {b : List γ} {offset : Nat} {widths : List Nat}
    (h : widths.foldl (· + ·) offset = b.length) :
    (cutFields b offset widths).flatten = b.drop offset := by
  induction widths generalizing offset with
  | nil =>
    rw [List.foldl_nil] at h
    rw [cutFields, List.flatten_nil, h, List.drop_length]
  | cons width rest ih =>
    rw [cutFields, List.flatten_cons, ih h, ← List.drop_drop, List.take_append_drop]

/-- Fields that stand one after the other are cut out again. -/
theorem cutFields_flatten (before : List γ) (fields : List (List γ)) :
    cutFields (before ++ fields.flatten) before.length (fields.map List.length) = fields := by
  induction fields generalizing before with
  | nil => rfl
  | cons field rest ih =>
    rw [List.map_cons, cutFields, List.flatten_cons, List.drop_left, List.take_left]
    have hrest := ih (before ++ field)
    rw [List.length_append, List.append_assoc] at hrest
    rw [hrest]

/-- Copies the fields into the buffer one after the other. -/
def writeFields : List (List γ) → Nat → List γ → Option (List γ)
  | [], _, b => pure b
  | field :: rest, offset, b => do
    let b ← copyRange b offset (offset + field.length) field
    writeFields rest (offset + field.length) b

/-- A buffer of the right size is filled exactly. -/
theorem writeFields_eq {fields : List (List γ)} {filled rest : List γ}
    (h : fields.flatten.length = rest.length) :
    writeFields fields filled.length (filled ++ rest) = some (filled ++ fields.flatten) := by
  induction fields generalizing filled rest with
  | nil =>
    have hnil : rest = [] := List.eq_nil_of_length_eq_zero h.symm
    rw [hnil, List.flatten_nil, writeFields, Option.pure_def]
  | cons field fields ih =>
    rw [List.flatten_cons, List.length_append] at h
    have hrest : fields.flatten.length = (rest.drop field.length).length := by
      rw [List.length_drop]
      omega
    have hnext := @ih (filled ++ field) _ hrest
    rw [List.length_append] at hnext
    rw [writeFields, copyRange_append (by omega), Option.bind_eq_bind, Option.bind_some, hnext,
      List.flatten_cons, List.append_assoc]

end Fields

/-! ### Computations with slices -/

/-- A computation that uses no slice. -/
def unsliced (x : Except ε α) : ExceptT ε Option α := ExceptT.mk (some x)

/-- A slice that lies within its buffer. -/
def sliced (x : Option α) : ExceptT ε Option α := ExceptT.mk (x.map .ok)

@[simp] theorem sliced_some_bind {a : α} {f : α → ExceptT ε Option β} :
    ((sliced (some a) : ExceptT ε Option α) >>= f) = f a := rfl

@[simp] theorem unsliced_pure_bind {a : α} {f : α → ExceptT ε Option β} :
    (unsliced (pure a : Except ε α) >>= f) = f a := rfl

theorem unsliced_bind (x : Except ε α) (f : α → Except ε β) :
    (unsliced x >>= fun a => unsliced (f a)) = unsliced (x >>= f) := by
  cases x <;> rfl

theorem sliced_bind (x : Option α) (f : α → Option β) :
    ((sliced x : ExceptT ε Option α) >>= fun a => sliced (f a)) = sliced (x >>= f) := by
  cases x <;> rfl

theorem adapt_unsliced {δ : Type u} (f : δ → ε) (x : Except δ α) :
    ExceptT.adapt f (unsliced x) = unsliced (rethrow f x) := by
  cases x <;> rfl

theorem sliced_some (a : α) : (sliced (some a) : ExceptT ε Option α) = unsliced (pure a) := rfl

/-! ### Codecs -/

/-- The valid values and the byte strings that are decoded stand for each other. -/
structure OneEncoding {ε δ α : Type*} (valid : α → Prop) (encode : α → Except ε (List UInt8))
    (decode : List UInt8 → Except δ α) : Prop where
  decode_encode : ∀ x, valid x → ∃ b, encode x = .ok b ∧ decode b = .ok x
  encode_decode : ∀ b x, decode b = .ok x → encode x = .ok b

end SevenMirror.Lib
