import Mathlib.Data.List.Basic

/-! The protobuf wire format: varints, and the records that a message consists of.  A record is one
occurrence of a field.  A text that a writer makes is read back as the records it was made of. -/

namespace SevenMirror.Lib.Wire

/-! ### Varints -/

/-- The digits of `v` in base 128, least significant first, at most `n` of them. -/
def putVarint : Nat → Nat → List UInt8
  | 0, _ => []
  | n + 1, v =>
    if v < 0x80 then [UInt8.ofNat v] else UInt8.ofNat (v % 0x80 + 0x80) :: putVarint n (v / 0x80)

def varint (v : Nat) : List UInt8 := putVarint 10 v

/-- Reads a varint of at most `n` bytes.  The tenth byte holds one bit. -/
def readDigits : Nat → List UInt8 → Option (Nat × List UInt8)
  | 0, _ | _ + 1, [] => none
  | n + 1, c :: rest =>
    if c < 0x80 then if n = 0 ∧ 1 < c then none else some (c.toNat, rest)
    else do
      let (v, rest) ← readDigits n rest
      return (c.toNat - 0x80 + 0x80 * v, rest)

def readVarint (b : List UInt8) : Option (Nat × List UInt8) := readDigits 10 b

/-- The numbers that a varint of at most `n` bytes may hold. -/
def varintLimit : Nat → Nat
  | 0 => 0
  | 1 => 2
  | n + 1 => 0x80 * varintLimit n

theorem readDigits_putVarint (n v : Nat) (rest : List UInt8) (h : v < varintLimit n) :
    readDigits n (putVarint n v ++ rest) = some (v, rest) := by
  induction n generalizing v with
  | zero => simp [varintLimit] at h
  | succ n ih =>
    unfold putVarint
    split
    · rename_i hv
      have hbyte : (UInt8.ofNat v).toNat = v := by simp; omega
      have hsmall : UInt8.ofNat v < 0x80 := by
        rw [UInt8.lt_iff_toNat_lt, hbyte]
        exact hv
      have hlast : ¬ (n = 0 ∧ 1 < UInt8.ofNat v) := by
        rintro ⟨rfl, hbig⟩
        rw [UInt8.lt_iff_toNat_lt, hbyte] at hbig
        simp [varintLimit] at h hbig
        omega
      simp only [List.cons_append, List.nil_append, readDigits, hsmall, if_true, if_neg hlast, hbyte]
    · rename_i hv
      have hbyte : (UInt8.ofNat (v % 0x80 + 0x80)).toNat = v % 0x80 + 0x80 := by simp; omega
      have hbig : ¬ UInt8.ofNat (v % 0x80 + 0x80) < 0x80 := by
        rw [UInt8.lt_iff_toNat_lt, hbyte]
        simp
      have hdigits : v / 0x80 < varintLimit n := by
        cases n with
        | zero => simp [varintLimit] at h; omega
        | succ n => simp only [varintLimit] at h ⊢; omega
      simp only [List.cons_append, readDigits, hbig, if_false, ih _ hdigits, hbyte]
      simp
      omega

theorem readVarint_varint {v : Nat} (rest : List UInt8) (h : v < 0x10000000000000000) :
    readVarint (varint v ++ rest) = some (v, rest) :=
  readDigits_putVarint 10 v rest h

theorem varint_ne_nil (v : Nat) : varint v ≠ [] := by
  unfold varint putVarint
  split <;> simp

/-! ### Records -/

/-- The value of a record.  Fields of the other wire types are never known. -/
inductive Payload
  | varint (v : Nat)
  | bytes (b : List UInt8)
  | other
deriving DecidableEq, Repr

/-- A record, with the text that is kept when its field is not known. -/
structure Record where
  number : Nat
  payload : Payload
  text : List UInt8
deriving DecidableEq, Repr

def maxNumber : Nat := 0x1fffffff

def tag (number wireType : Nat) : List UInt8 := varint (8 * number + wireType)

/-- Reads a tag with a number up to `limit`. -/
def readTag (limit : Nat) (b : List UInt8) : Option (Nat × Nat × List UInt8) := do
  let (tag, rest) ← readVarint b
  if tag / 8 < 1 ∨ limit < tag / 8 then none else some (tag / 8, tag % 8, rest)

def readBytes (b : List UInt8) : Option (List UInt8 × List UInt8) := do
  let (size, rest) ← readVarint b
  if rest.length < size then none else some (rest.take size, rest.drop size)

def skipFixed (size : Nat) (b : List UInt8) : Option (List UInt8) :=
  if b.length < size then none else some (b.drop size)

/-- Skips a value that is not a group. -/
def skipScalar (wireType : Nat) (b : List UInt8) : Option (List UInt8) :=
  match wireType with
  | 0 => (readVarint b).map (·.2)
  | 1 => skipFixed 8 b
  | 2 => (readBytes b).map (·.2)
  | 5 => skipFixed 4 b
  | _ => none

/-- Skips to the end of the groups that are open, innermost first.  Groups nest at most 10001
deep. -/
def skipGroups : Nat → List Nat → List UInt8 → Option (List UInt8)
  | _, [], b => some b
  | 0, _ :: _, _ => none
  | fuel + 1, group :: outer, b => do
    let (number, wireType, rest) ← readTag 0x7fffffff b
    match wireType with
    | 3 => if outer.length ≥ 10000 then none else skipGroups fuel (number :: group :: outer) rest
    | 4 => if number ≠ group then none else skipGroups fuel outer rest
    | _ =>
      let rest ← skipScalar wireType rest
      skipGroups fuel (group :: outer) rest

def readValue (number wireType : Nat) (b : List UInt8) : Option (Payload × List UInt8) :=
  match wireType with
  | 0 => (readVarint b).map fun (v, rest) => (.varint v, rest)
  | 2 => (readBytes b).map fun (value, rest) => (.bytes value, rest)
  | 3 => (skipGroups b.length [number] b).map fun rest => (.other, rest)
  | _ => (skipScalar wireType b).map fun rest => (.other, rest)

def readRecord (b : List UInt8) : Option (Record × List UInt8) := do
  let (number, wireType, value) ← readTag maxNumber b
  let (payload, rest) ← readValue number wireType value
  return (⟨number, payload, tag number wireType ++ value.take (value.length - rest.length)⟩, rest)

def readRecords : Nat → List UInt8 → Option (List Record)
  | _, [] => some []
  | 0, _ :: _ => none
  | fuel + 1, b => do
    let (r, rest) ← readRecord b
    let rs ← readRecords fuel rest
    return r :: rs

/-- The records of a message. -/
def records (b : List UInt8) : Option (List Record) := readRecords b.length b

/-! ### Texts of records -/

/-- `b` is the text of `r`. -/
def Spells (b : List UInt8) (r : Record) : Prop :=
  b ≠ [] ∧ ∀ rest, readRecord (b ++ rest) = some (r, rest)

/-- `b` is the text of the records. -/
inductive SpellsAll : List UInt8 → List Record → Prop
  | nil : SpellsAll [] []
  | cons {b b' : List UInt8} {r : Record} {rs : List Record} :
      Spells b r → SpellsAll b' rs → SpellsAll (b ++ b') (r :: rs)

namespace SpellsAll

theorem single {b : List UInt8} {r : Record} (h : Spells b r) : SpellsAll b [r] := by
  have hcons := SpellsAll.cons h .nil
  rwa [List.append_nil] at hcons

theorem append {b b' : List UInt8} {rs rs' : List Record} (h : SpellsAll b rs)
    (h' : SpellsAll b' rs') : SpellsAll (b ++ b') (rs ++ rs') := by
  induction h with
  | nil => exact h'
  | cons hr _ ih =>
    rw [List.append_assoc]
    exact .cons hr ih

theorem readRecords {b : List UInt8} {rs : List Record} (h : SpellsAll b rs) {fuel : Nat}
    (hfuel : b.length ≤ fuel) : Wire.readRecords fuel b = some rs := by
  induction h generalizing fuel with
  | nil => cases fuel <;> rfl
  | @cons b b' r rs hr _ ih =>
    have hlength := List.length_pos_of_ne_nil hr.1
    rw [List.length_append] at hfuel
    obtain ⟨fuel, rfl⟩ : ∃ n, fuel = n + 1 := ⟨fuel - 1, by omega⟩
    obtain ⟨c, t, hc⟩ := List.exists_cons_of_ne_nil (List.append_ne_nil_of_left_ne_nil hr.1 b')
    rw [hc, Wire.readRecords, ← hc, hr.2 b']
    simp [ih (by omega : b'.length ≤ fuel)]
    nofun

theorem records {b : List UInt8} {rs : List Record} (h : SpellsAll b rs) :
    Wire.records b = some rs :=
  h.readRecords (Nat.le_refl _)

end SpellsAll

/-- A number that a field may have. -/
def ValidNumber (number : Nat) : Prop := 0 < number ∧ number ≤ maxNumber

instance (number : Nat) : Decidable (ValidNumber number) := inferInstanceAs (Decidable (_ ∧ _))

theorem readTag_tag {number wireType : Nat} (rest : List UInt8) (hn : ValidNumber number)
    (hw : wireType < 8) :
    readTag maxNumber (tag number wireType ++ rest) = some (number, wireType, rest) := by
  have hmax := hn.2
  unfold maxNumber at hmax
  have hread := readVarint_varint rest (show 8 * number + wireType < 0x10000000000000000 by omega)
  have hdiv : (8 * number + wireType) / 8 = number := by omega
  have hmod : (8 * number + wireType) % 8 = wireType := by omega
  have hvalid : ¬ (number < 1 ∨ maxNumber < number) := by
    have := hn.1
    have := hn.2
    omega
  simp only [readTag, tag, hread, Option.bind_eq_bind, Option.bind_some, hdiv, hmod, if_neg hvalid]

theorem spells_varint {number v : Nat} (hn : ValidNumber number) (hv : v < 0x10000000000000000) :
    Spells (tag number 0 ++ varint v) ⟨number, .varint v, tag number 0 ++ varint v⟩ := by
  refine ⟨by simp [tag, varint_ne_nil], fun rest => ?_⟩
  rw [List.append_assoc]
  simp [readRecord, readTag_tag _ hn, readValue, readVarint_varint _ hv]

theorem readBytes_text {b : List UInt8} (rest : List UInt8) (hb : b.length < 0x10000000000000000) :
    readBytes (varint b.length ++ (b ++ rest)) = some (b, rest) := by
  simp [readBytes, readVarint_varint _ hb]

/-- The text of a record with a length. -/
def delimited (number : Nat) (b : List UInt8) : List UInt8 :=
  tag number 2 ++ (varint b.length ++ b)

theorem spells_delimited {number : Nat} {b : List UInt8} (hn : ValidNumber number)
    (hb : b.length < 0x10000000000000000) :
    Spells (delimited number b) ⟨number, .bytes b, delimited number b⟩ := by
  refine ⟨by simp [delimited, tag, varint_ne_nil], fun rest => ?_⟩
  have hvalue : (varint b.length ++ (b ++ rest)).length - rest.length =
      (varint b.length ++ b).length := by
    simp only [List.length_append]
    omega
  have htake : (varint b.length ++ (b ++ rest)).take (varint b.length ++ b).length =
      varint b.length ++ b := by
    rw [← List.append_assoc, List.take_left']
    rfl
  simp only [delimited, List.append_assoc, readRecord, readTag_tag _ hn (by decide : 2 < 8),
    Option.bind_eq_bind, Option.bind_some, readValue, readBytes_text _ hb, Option.map_some, hvalue,
    htake, Option.pure_def]

theorem length_le_delimited (number : Nat) (b : List UInt8) :
    b.length ≤ (delimited number b).length := by
  simp only [delimited, List.length_append]
  omega

end SevenMirror.Lib.Wire
