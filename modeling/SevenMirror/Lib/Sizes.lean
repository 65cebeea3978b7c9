import SevenMirror.Lib.Presence

/-! The sizes of protobuf texts.  A field is written, in so many bytes, if its value is small enough;
a message is written if its fields are, and its size is the sum of theirs. -/

namespace SevenMirror.Lib.Wire

/-- There is a text, of `low` to `high` bytes. -/
def Within (text : Option (List UInt8)) (low high : Nat) : Prop :=
  ∃ b, text = some b ∧ low ≤ b.length ∧ b.length ≤ high

theorem Within.weaken {text : Option (List UInt8)} {low high low' high' : Nat}
    (h : Within text low high) (hlow : low' ≤ low) (hhigh : high ≤ high') :
    Within text low' high' := by
  obtain ⟨b, hb, hl, hh⟩ := h
  exact ⟨b, hb, by omega, by omega⟩

/-! ### Varints -/

/-- The numbers below this one have at most `n` digits in base 128. -/
def varintSpan : Nat → Nat
  | 0 => 1
  | n + 1 => 0x80 * varintSpan n

theorem length_putVarint_le {n v k : Nat} (h : v < varintSpan (k + 1)) :
    (putVarint n v).length ≤ k + 1 := by
  induction k generalizing n v with
  | zero =>
    cases n with
    | zero => simp [putVarint]
    | succ n =>
      have hv : v < 0x80 := by simpa [varintSpan] using h
      simp [putVarint, hv]
  | succ k ih =>
    cases n with
    | zero => simp [putVarint]
    | succ n =>
      by_cases hv : v < 0x80
      · simp [putVarint, hv]
      · have hdigits : v / 0x80 < varintSpan (k + 1) := by
          rw [varintSpan] at h
          omega
        have hrest := ih (n := n) hdigits
        simp only [putVarint, hv, if_false, List.length_cons]
        omega

theorem length_varint_le {v k : Nat} (h : v < varintSpan (k + 1)) :
    (varint v).length ≤ k + 1 :=
  length_putVarint_le h

theorem one_le_length_varint (v : Nat) : 1 ≤ (varint v).length :=
  List.length_pos_of_ne_nil (varint_ne_nil v)

/-- The tags of the first fields have one byte. -/
theorem length_tag {number wireType : Nat} (hn : number < 16) (hw : wireType < 8) :
    (tag number wireType).length = 1 := by
  have hsmall : 8 * number + wireType < varintSpan 1 := by
    simp only [varintSpan]
    omega
  have hle := length_varint_le (k := 0) hsmall
  have hge := one_le_length_varint (8 * number + wireType)
  unfold tag
  omega

theorem length_delimited {number k : Nat} {b : List UInt8} (hn : number < 16)
    (hb : b.length < varintSpan (k + 1)) :
    b.length + 2 ≤ (delimited number b).length ∧
      (delimited number b).length ≤ b.length + k + 2 := by
  have htag := length_tag hn (by decide : 2 < 8)
  have hle := length_varint_le hb
  have hge := one_le_length_varint b.length
  simp only [delimited, List.length_append]
  omega

/-- The tags of the fields up to 2047 have one or two bytes. -/
theorem length_tag_le {number wireType : Nat} (hn : number < 2048) (hw : wireType < 8) :
    (tag number wireType).length ≤ 2 := by
  refine length_varint_le (k := 1) ?_
  simp only [varintSpan]
  omega

/-! ### Kinds -/

section Scalars

variable {V : Type} [DecidableEq V] {zero v : V} {toVarint : V → Nat} {ofVarint : Nat → V}
  {small : ∀ v, toVarint v < textLimit} {back : ∀ v, ofVarint (toVarint v) = v} {number k : Nat}

theorem within_scalar (hn : number < 16) (hv : toVarint v < varintSpan (k + 1)) :
    Within ((scalar zero toVarint ofVarint small back).emit number v) 0 (k + 2) := by
  refine ⟨_, rfl, Nat.zero_le _, ?_⟩
  split
  · simp
  · have htag := length_tag hn (by decide : 0 < 8)
    have hvarint := length_varint_le hv
    rw [List.length_append]
    omega

theorem within_scalar_nonzero (hn : number < 16) (hv : toVarint v < varintSpan (k + 1))
    (hne : v ≠ zero) :
    Within ((scalar zero toVarint ofVarint small back).emit number v) 2 (k + 2) := by
  have htag := length_tag hn (by decide : 0 < 8)
  have hle := length_varint_le hv
  have hge := one_le_length_varint (toVarint v)
  refine ⟨_, rfl, ?_⟩
  rw [if_neg hne, List.length_append]
  omega

end Scalars

theorem within_blob {accepts : List UInt8 → Bool} {v : List UInt8} {number low high k : Nat}
    (hn : number < 16) (haccepts : accepts v = true) (hne : v ≠ []) (hlow : low ≤ v.length)
    (hhigh : v.length ≤ high) (hdigits : high < varintSpan (k + 1)) :
    Within ((blob accepts).emit number v) (low + 2) (high + k + 2) := by
  have hlength := length_delimited hn (Nat.lt_of_le_of_lt hhigh hdigits)
  refine ⟨delimited number v, ?_, by omega, by omega⟩
  simp [blob, haccepts, hne]

theorem within_optional_none {accepts : List UInt8 → Bool} {number : Nat} :
    Within ((optionalBlob accepts).emit number none) 0 0 := ⟨[], rfl, by simp, by simp⟩

/-- A byte string that may be absent, if it is short enough when it is there. -/
theorem within_optional {accepts : List UInt8 → Bool} {v : Option (List UInt8)}
    {number high k : Nat} (hn : number < 16)
    (hv : ∀ b, v = some b → accepts b = true ∧ b.length ≤ high)
    (hdigits : high < varintSpan (k + 1)) :
    Within ((optionalBlob accepts).emit number v) 0 (high + k + 2) := by
  cases v with
  | none => exact within_optional_none.weaken (Nat.le_refl _) (Nat.zero_le _)
  | some b =>
    obtain ⟨haccepts, hhigh⟩ := hv b rfl
    have hlength := length_delimited hn (Nat.lt_of_le_of_lt hhigh hdigits)
    exact ⟨delimited number b, by simp [optionalBlob, haccepts], by omega, by omega⟩

theorem length_putVarints_le {vs : List Nat} (h : ∀ v ∈ vs, v < varintSpan 1) :
    (putVarints vs).length ≤ vs.length := by
  induction vs with
  | nil => simp [putVarints]
  | cons v vs ih =>
    have hv := length_varint_le (k := 0) (h v List.mem_cons_self)
    have hvs := ih fun u hu => h u (List.mem_cons_of_mem _ hu)
    simp only [putVarints, List.flatMap_cons, List.length_append, List.length_cons] at hvs ⊢
    omega

/-- A few small enumerations. -/
theorem within_packed {vs : List Int32} {number high : Nat} (hn : number < 16)
    (hvs : ∀ v ∈ vs, enumVarint v < varintSpan 1) (hlength : vs.length ≤ high)
    (hhigh : high < varintSpan 1) : Within (packed.emit number vs) 0 (high + 2) := by
  refine ⟨_, rfl, Nat.zero_le _, ?_⟩
  split
  · simp
  · have hputs : (putVarints (vs.map enumVarint)).length ≤ (vs.map enumVarint).length :=
      length_putVarints_le (by simpa using hvs)
    rw [List.length_map] at hputs
    have hdelimited := length_delimited (k := 0) hn
      (Nat.lt_of_le_of_lt (Nat.le_trans hputs hlength) hhigh)
    omega

section Messages

variable {M : Type} {c : Codec M} {number low high k : Nat}

theorem within_message {m : M} (hn : number < 16) (hm : Within (c.marshal m) low high)
    (hdigits : high < varintSpan (k + 1)) :
    Within ((message c).emit number (some m)) (low + 2) (high + k + 2) := by
  obtain ⟨b, hb, hlow, hhigh⟩ := hm
  have hlength := length_delimited hn (Nat.lt_of_le_of_lt hhigh hdigits)
  exact ⟨delimited number b, by simp [message, hb], by omega, by omega⟩

theorem within_message_none : Within ((message c).emit number none) 0 0 :=
  ⟨[], rfl, by simp, by simp⟩

/-- A message with a number up to 2047. -/
theorem within_message_le {m : M} (hn : number < 2048) (hm : Within (c.marshal m) low high)
    (hdigits : high < varintSpan (k + 1)) :
    Within ((message c).emit number (some m)) (low + 2) (high + k + 3) := by
  obtain ⟨b, hb, hlow, hhigh⟩ := hm
  have htag := length_tag_le hn (by decide : 2 < 8)
  have htag' := one_le_length_varint (8 * number + 2)
  have hle := length_varint_le (Nat.lt_of_le_of_lt hhigh hdigits)
  have hge := one_le_length_varint b.length
  refine ⟨delimited number b, by simp [message, hb], ?_⟩
  simp only [delimited, tag, List.length_append] at htag ⊢
  omega

theorem within_repeated {ms : List M} (hn : number < 16)
    (hms : ∀ m ∈ ms, Within (c.marshal m) low high) (hdigits : high < varintSpan (k + 1)) :
    Within ((repeated c).emit number ms) (ms.length * (low + 2))
      (ms.length * (high + k + 2)) := by
  induction ms with
  | nil => exact ⟨[], rfl, by simp, by simp⟩
  | cons m ms ih =>
    obtain ⟨b, hb, hlow, hhigh⟩ := hms m List.mem_cons_self
    obtain ⟨rest, hrest, hl, hh⟩ := ih fun x hx => hms x (List.mem_cons_of_mem _ hx)
    have hlength := length_delimited hn (Nat.lt_of_le_of_lt hhigh hdigits)
    have hemit : emitMessages c number ms = some rest := hrest
    refine ⟨delimited number b ++ rest, by simp [repeated, emitMessages, hb, hemit], ?_, ?_⟩
    · rw [List.length_cons, Nat.succ_mul, List.length_append]
      omega
    · rw [List.length_cons, Nat.succ_mul, List.length_append]
      omega

/-! ### Messages -/

theorem within_emitAll_nil {m : M} : Within (Codec.emitAll m []) 0 0 := ⟨[], rfl, by simp, by simp⟩

theorem within_emitAll_cons {m : M} {f : Field M} {fs : List (Field M)} {l h l' h' : Nat}
    (hf : Within (f.emit m) l h) (hfs : Within (Codec.emitAll m fs) l' h') :
    Within (Codec.emitAll m (f :: fs)) (l + l') (h + h') := by
  obtain ⟨b, hb, hl, hh⟩ := hf
  obtain ⟨rest, hrest, hl', hh'⟩ := hfs
  refine ⟨b ++ rest, by simp [Codec.emitAll, hb, hrest], ?_⟩
  rw [List.length_append]
  omega

theorem within_marshal {m : M} (hunknown : c.unknown.get m = [])
    (h : Within (Codec.emitAll m c.fields) low high) : Within (c.marshal m) low high := by
  obtain ⟨b, hb, hlow, hhigh⟩ := h
  exact ⟨b, by simp [Codec.marshal, hb, hunknown], hlow, hhigh⟩

end Messages

end SevenMirror.Lib.Wire
