import SevenMirror.Lib.Message

/-! The kinds of protobuf fields: numbers, enumerations, Boolean values, byte strings, texts,
messages, and lists of messages and of enumerations.  A field at its default is not written. -/

namespace SevenMirror.Lib.Wire

/-! ### Numbers -/

/-- A number that is written as a varint. -/
def scalar {V : Type} [DecidableEq V] (zero : V) (toVarint : V → Nat) (ofVarint : Nat → V)
    (small : ∀ v, toVarint v < textLimit) (back : ∀ v, ofVarint (toVarint v) = v) : Kind V where
  default := zero
  emit number v := some (if v = zero then [] else tag number 0 ++ varint (toVarint v))
  absorb
    | .varint n, _ => .merged (ofVarint n)
    | _, _ => .mismatch
  plain _ := True
  law := by
    intro number v b hn _ hb _
    simp only [Option.some.injEq] at hb
    subst hb
    split
    · rename_i hv
      subst hv
      exact .nil
    · exact .single (spells_varint hn (small v)) rfl (by simp [back])

def uint32 : Kind UInt32 :=
  scalar 0 UInt32.toNat UInt32.ofNat (fun v => Nat.lt_trans v.toNat_lt (by decide)) (by simp)

def uint64 : Kind UInt64 :=
  scalar 0 UInt64.toNat UInt64.ofNat (fun v => v.toNat_lt) (by simp)

/-- An enumeration is written as a number of 64 bits. -/
def enumVarint (v : Int32) : Nat := (v.toInt % 0x10000000000000000).toNat

def enumOfVarint (n : Nat) : Int32 := Int32.ofInt n

theorem enumVarint_lt (v : Int32) : enumVarint v < textLimit := by
  unfold enumVarint textLimit
  omega

theorem enumOfVarint_enumVarint (v : Int32) : enumOfVarint (enumVarint v) = v := by
  have hmod : ((enumVarint v : Nat) : Int) = v.toInt % 0x10000000000000000 := by
    unfold enumVarint
    omega
  apply Int32.toInt_inj.mp
  rw [enumOfVarint, hmod, Int32.toInt_ofInt, Int.bmod_def]
  have hlow := v.le_toInt
  have hhigh := v.toInt_lt
  simp only [Int32.size] at *
  omega

def enum : Kind Int32 := scalar 0 enumVarint enumOfVarint enumVarint_lt enumOfVarint_enumVarint

/-- A Boolean value is written as a number; each but zero is read as true. -/
def boolean : Kind Bool :=
  scalar false Bool.toNat (fun n => decide (n ≠ 0)) (fun v => by cases v <;> decide)
    (fun v => by cases v <;> rfl)

/-! ### Byte strings and texts -/

/-- A byte string that `accepts` holds of. -/
def blob (accepts : List UInt8 → Bool) : Kind (List UInt8) where
  default := []
  emit number v :=
    if accepts v then some (if v = [] then [] else delimited number v) else none
  absorb
    | .bytes b, _ => if accepts b then .merged b else .malformed
    | _, _ => .mismatch
  plain _ := True
  law := by
    intro number v b hn _ hb hsize
    split at hb
    · rename_i haccepts
      cases hb
      split at hsize
      · rename_i hv
        subst hv
        exact .nil
      · rename_i hv
        have := length_le_delimited number v
        rw [if_neg hv]
        exact .single (spells_delimited hn (by unfold textLimit at hsize; omega)) rfl
          (by simp [haccepts])
    · cases hb

def bytes : Kind (List UInt8) := blob fun _ => true

/-- A text is a byte string in UTF-8. -/
def string : Kind (List UInt8) := blob validUtf8

/-! ### Messages -/

section Messages

variable {M : Type} (c : Codec M)

/-- A message.  A second occurrence is merged into the first. -/
def message : Kind (Option M) where
  default := none
  emit number
    | none => some []
    | some m => (c.marshal m).map (delimited number)
  absorb
    | .bytes b, v =>
      match c.unmarshalInto b (v.getD c.empty) with
      | none => .malformed
      | some m => .merged (some m)
    | _, _ => .mismatch
  plain v := ∀ m, v = some m → c.Plain m
  law := by
    intro number v b hn hp hb hsize
    cases v with
    | none =>
      cases hb
      exact .nil
    | some m =>
      simp only [Option.map_eq_some_iff] at hb
      obtain ⟨body, hbody, rfl⟩ := hb
      have hlength := length_le_delimited number body
      have hread := Codec.unmarshal_marshal (hp m rfl) hbody (by omega)
      refine .single (spells_delimited hn (by unfold textLimit at hsize; omega)) rfl ?_
      simp only [Option.getD_none]
      rw [show c.unmarshalInto body c.empty = some m from hread]

def emitMessages (number : Nat) : List M → Option (List UInt8)
  | [] => some []
  | m :: ms => do
    let body ← c.marshal m
    let rest ← emitMessages number ms
    return delimited number body ++ rest

def absorbMessages : Payload → List M → Outcome (List M)
  | .bytes b, ms =>
    match c.unmarshal b with
    | none => .malformed
    | some m => .merged (ms ++ [m])
  | _, _ => .mismatch

theorem emitMessages_carries {number : Nat} {ms before : List M} {b : List UInt8}
    (hn : ValidNumber number) (hp : ∀ m ∈ ms, c.Plain m) (hb : emitMessages c number ms = some b)
    (hsize : b.length < textLimit) :
    Carries (absorbMessages c) number before (before ++ ms) b := by
  induction ms generalizing before b with
  | nil =>
    cases hb
    rw [List.append_nil]
    exact .nil
  | cons m ms ih =>
    simp only [emitMessages, Option.bind_eq_bind, Option.bind_eq_some_iff, Option.pure_def,
      Option.some.injEq] at hb
    obtain ⟨body, hbody, rest, hrest, rfl⟩ := hb
    rw [List.length_append] at hsize
    have hlength := length_le_delimited number body
    have hread := Codec.unmarshal_marshal (hp m List.mem_cons_self) hbody (by omega)
    have hfirst : Carries (absorbMessages c) number before (before ++ [m])
        (delimited number body) := by
      refine .single (spells_delimited hn (by unfold textLimit at hsize; omega)) rfl ?_
      simp only [absorbMessages, hread]
    have hothers : Carries (absorbMessages c) number (before ++ [m]) ((before ++ [m]) ++ ms) rest :=
      ih (fun m hm => hp m (List.mem_cons_of_mem _ hm)) hrest (by omega)
    rw [List.append_assoc, List.singleton_append] at hothers
    exact hfirst.append hothers

/-- A list of messages, one record each. -/
def repeated : Kind (List M) where
  default := []
  emit := emitMessages c
  absorb := absorbMessages c
  plain ms := ∀ m ∈ ms, c.Plain m
  law hn hp hb hsize := by
    exact emitMessages_carries c hn hp hb hsize

end Messages

/-! ### Lists of enumerations -/

def readVarints : Nat → List UInt8 → Option (List Nat)
  | _, [] => some []
  | 0, _ :: _ => none
  | fuel + 1, b => do
    let (v, rest) ← readVarint b
    let vs ← readVarints fuel rest
    return v :: vs

def putVarints (vs : List Nat) : List UInt8 := vs.flatMap varint

theorem readVarints_putVarints {vs : List Nat} (hvs : ∀ v ∈ vs, v < textLimit) {fuel : Nat}
    (hfuel : (putVarints vs).length ≤ fuel) : readVarints fuel (putVarints vs) = some vs := by
  induction vs generalizing fuel with
  | nil => cases fuel <;> rfl
  | cons v vs ih =>
    have hne := varint_ne_nil v
    have hlength := List.length_pos_of_ne_nil hne
    have hcons : putVarints (v :: vs) = varint v ++ putVarints vs := by simp [putVarints]
    rw [hcons, List.length_append] at hfuel
    obtain ⟨fuel, rfl⟩ : ∃ n, fuel = n + 1 := ⟨fuel - 1, by omega⟩
    obtain ⟨a, t, ht⟩ :=
      List.exists_cons_of_ne_nil (List.append_ne_nil_of_left_ne_nil hne (putVarints vs))
    rw [hcons, ht, readVarints, ← ht, readVarint_varint _ (hvs v List.mem_cons_self)]
    · simp [ih (fun v hv => hvs v (List.mem_cons_of_mem _ hv)) (by omega : _ ≤ fuel)]
    · nofun

/-- A list of enumerations: one record holds all of them, and each record of its own adds one. -/
def packed : Kind (List Int32) where
  default := []
  emit number vs :=
    some (if vs = [] then [] else delimited number (putVarints (vs.map enumVarint)))
  absorb
    | .bytes b, vs =>
      match readVarints b.length b with
      | none => .malformed
      | some more => .merged (vs ++ more.map enumOfVarint)
    | .varint n, vs => .merged (vs ++ [enumOfVarint n])
    | .other, _ => .mismatch
  plain _ := True
  law := by
    intro number vs b hn _ hb hsize
    simp only [Option.some.injEq] at hb
    subst hb
    split
    · rename_i hvs
      subst hvs
      exact .nil
    · rename_i hvs
      rw [if_neg hvs] at hsize
      have hlength := length_le_delimited number (putVarints (vs.map enumVarint))
      refine .single (spells_delimited hn (by unfold textLimit at hsize; omega)) rfl ?_
      have hvarints : ∀ v ∈ vs.map enumVarint, v < textLimit := by simp [enumVarint_lt]
      have hread := readVarints_putVarints hvarints (Nat.le_refl _)
      have hback : (vs.map enumVarint).map enumOfVarint = vs := by
        simp [Function.comp_def, enumOfVarint_enumVarint]
      simp only [hread, hback, List.nil_append]

end SevenMirror.Lib.Wire
