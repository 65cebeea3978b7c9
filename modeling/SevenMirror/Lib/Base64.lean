import SevenMirror.Lib.Text
import Mathlib.Data.List.Induction

/-! Base 64 and base 32 are read back.  The writer cuts the bits of the bytes into groups of six or
five, the last one filled with zeros; the reader cuts the bits of the digits into groups of eight and
drops the rest. -/

namespace SevenMirror.Lib

/-! ### Bits -/

/-- The numbers of `width` bits are below this one. -/
def bitSpan : Nat → Nat
  | 0 => 1
  | width + 1 => 2 * bitSpan width

theorem ofBits_concat (bits : List Bool) (bit : Bool) :
    ofBits (bits ++ [bit]) = 2 * ofBits bits + bit.toNat := by
  simp [ofBits]

theorem ofBits_lt (bits : List Bool) : ofBits bits < bitSpan bits.length := by
  induction bits using List.reverseRecOn with
  | nil => decide
  | append_singleton bits bit ih =>
    have hbit := bit.toNat_lt
    rw [ofBits_concat, List.length_append, List.length_singleton, bitSpan]
    omega

theorem length_bitsOf (width n : Nat) : (bitsOf width n).length = width := by
  induction width generalizing n with
  | zero => rfl
  | succ width ih => rw [bitsOf, List.length_append, ih, List.length_singleton]

theorem bitsOf_ofBits (bits : List Bool) : bitsOf bits.length (ofBits bits) = bits := by
  induction bits using List.reverseRecOn with
  | nil => rfl
  | append_singleton bits bit ih =>
    rw [ofBits_concat, List.length_append, List.length_singleton, bitsOf]
    have hhalf : (2 * ofBits bits + bit.toNat) / 2 = ofBits bits := by
      have := bit.toNat_lt
      omega
    have hlast : ((2 * ofBits bits + bit.toNat) % 2 == 1) = bit := by
      cases bit <;> simp
    rw [hhalf, ih, hlast]

theorem ofBits_bitsOf_byte (c : UInt8) : UInt8.ofNat (ofBits (bitsOf 8 c.toNat)) = c := by
  have hall : ∀ n : Fin 256, ofBits (bitsOf 8 n.val) = n.val := by decide +kernel
  rw [hall ⟨c.toNat, c.toNat_lt⟩]
  exact UInt8.ofNat_toNat

/-! ### Groups -/

section Groups

variable {α : Type*} {width fuel : Nat}

/-- Groups that were put together are found again, and a rest that is no group is dropped. -/
theorem groups_flatten {cs : List (List α)} {rest : List α} (hcs : ∀ g ∈ cs, g.length = width)
    (hrest : rest.length < width) (hfuel : cs.length ≤ fuel) :
    groups width fuel (cs.flatten ++ rest) = cs := by
  induction cs generalizing fuel with
  | nil =>
    cases fuel with
    | zero => rfl
    | succ fuel => simp [groups, hrest]
  | cons g cs ih =>
    obtain ⟨fuel, rfl⟩ : ∃ n, fuel = n + 1 := ⟨fuel - 1, by rw [List.length_cons] at hfuel; omega⟩
    have hg := hcs g List.mem_cons_self
    have hlong : ¬ (g ++ (cs.flatten ++ rest)).length < width := by
      rw [List.length_append]
      omega
    have hothers := ih (fun x hx => hcs x (List.mem_cons_of_mem _ hx))
      (by rw [List.length_cons] at hfuel; omega : cs.length ≤ fuel)
    rw [List.flatten_cons, List.append_assoc, groups, if_neg hlong, List.take_left' hg,
      List.drop_left' hg, hothers]

/-- Items that divide into groups are the groups, one after the other. -/
theorem groups_whole (hwidth : 0 < width) {items : List α} (hdvd : items.length % width = 0)
    (hfuel : items.length ≤ fuel) :
    (groups width fuel items).flatten = items ∧
      ∀ g ∈ groups width fuel items, g.length = width := by
  induction fuel generalizing items with
  | zero =>
    obtain rfl : items = [] := List.eq_nil_of_length_eq_zero (by omega)
    exact ⟨rfl, fun _ hg => absurd hg List.not_mem_nil⟩
  | succ fuel ih =>
    by_cases hshort : items.length < width
    · rw [Nat.mod_eq_of_lt hshort] at hdvd
      obtain rfl : items = [] := List.eq_nil_of_length_eq_zero hdvd
      simp [groups, hwidth]
    · have hmod : (items.drop width).length % width = 0 := by
        rw [List.length_drop, ← Nat.mod_eq_sub_mod (by omega), hdvd]
      obtain ⟨hflatten, hlengths⟩ := ih hmod (by rw [List.length_drop]; omega)
      rw [groups, if_neg hshort]
      refine ⟨?_, fun g hg => ?_⟩
      · rw [List.flatten_cons, hflatten, List.take_append_drop]
      · rcases List.mem_cons.mp hg with rfl | hg
        · rw [List.length_take]
          omega
        · exact hlengths g hg

end Groups

/-! ### Digits -/

/-- Every digit is found in the alphabet where it stands, and none is a line end. -/
def Spelling (alphabet : List UInt8) (size : Nat) : Prop :=
  ∀ n < size, alphabet.findIdx? (· == alphabet.getD n 0) = some n ∧
    isNewline (alphabet.getD n 0) = false

instance (alphabet : List UInt8) (size : Nat) : Decidable (Spelling alphabet size) :=
  inferInstanceAs (Decidable (∀ n < size, _))

section Digits

variable {alphabet : List UInt8} {size : Nat}

theorem digitValues_digits (h : Spelling alphabet size) {digits : List Nat}
    (hdigits : ∀ n ∈ digits, n < size) :
    digitValues alphabet (digits.map fun n => alphabet.getD n 0) = some digits := by
  rw [digitValues]
  induction digits with
  | nil => rfl
  | cons n digits ih =>
    rw [List.map_cons, List.mapM_cons, (h n (hdigits n List.mem_cons_self)).1,
      ih fun m hm => hdigits m (List.mem_cons_of_mem _ hm)]
    rfl

theorem digitValues_spelled (h : Spelling alphabet size) {digits : List Nat}
    (hdigits : ∀ n ∈ digits, n < size) :
    digitValues alphabet
      ((digits.map fun n => alphabet.getD n 0).filter fun c => !isNewline c) = some digits := by
  have hfilter : ((digits.map fun n => alphabet.getD n 0).filter fun c => !isNewline c) =
      digits.map fun n => alphabet.getD n 0 := by
    simp only [List.filter_eq_self, List.mem_map, forall_exists_index, and_imp,
      forall_apply_eq_imp_iff₂]
    intro n hn
    rw [(h n (hdigits n hn)).2]
    rfl
  rw [hfilter, digitValues_digits h hdigits]

end Digits

/-- The bits of the bytes, and zeros up to a multiple of the width. -/
def filledBits (width : Nat) (bytes : List UInt8) : List Bool :=
  let bits := bytes.flatMap fun byte => bitsOf 8 byte.toNat
  bits ++ List.replicate ((width - bits.length % width) % width) false

theorem length_bits (bytes : List UInt8) :
    (bytes.flatMap fun byte => bitsOf 8 byte.toNat).length = 8 * bytes.length := by
  induction bytes with
  | nil => rfl
  | cons c bytes ih =>
    rw [List.flatMap_cons, List.length_append, length_bitsOf, ih, List.length_cons]
    omega

theorem length_filledBits (width : Nat) (bytes : List UInt8) :
    (filledBits width bytes).length =
      8 * bytes.length + (width - 8 * bytes.length % width) % width := by
  rw [filledBits, List.length_append, List.length_replicate, length_bits]

theorem bytesOfBits_filledBits {width : Nat} (hwidth : 0 < width) (hle : width ≤ 8)
    (bytes : List UInt8) : bytesOfBits (filledBits width bytes) = bytes := by
  have hfill := Nat.mod_lt (width - 8 * bytes.length % width) hwidth
  have hgroups : groups 8 (filledBits width bytes).length (filledBits width bytes) =
      bytes.map fun byte => bitsOf 8 byte.toNat := by
    have hlength := length_filledBits width bytes
    rw [filledBits, List.flatMap_def] at hlength ⊢
    refine groups_flatten ?_ ?_ ?_
    · simp [length_bitsOf]
    · rw [List.length_replicate, ← List.flatMap_def, length_bits]
      omega
    · rw [List.length_map, hlength]
      omega
  rw [bytesOfBits, hgroups, List.map_map]
  refine (List.map_congr_left fun c _ => ?_).trans (List.map_id _)
  exact ofBits_bitsOf_byte c

/-- The digits of a text: how they are spelled, and their bits. -/
structure DigitsOf (alphabet : List UInt8) (width : Nat) (bytes : List UInt8) (digits : List Nat) :
    Prop where
  spelled : encodeDigits alphabet width bytes = digits.map fun n => alphabet.getD n 0
  small : ∀ n ∈ digits, n < bitSpan width
  count : width * digits.length = (filledBits width bytes).length
  bits : digits.flatMap (bitsOf width) = filledBits width bytes

theorem exists_digits (alphabet : List UInt8) {width : Nat} (hwidth : 0 < width)
    (bytes : List UInt8) (hfull : (filledBits width bytes).length % width = 0) :
    ∃ digits, DigitsOf alphabet width bytes digits := by
  obtain ⟨hflatten, hwidths⟩ := groups_whole hwidth hfull (Nat.le_refl _)
  refine ⟨(groups width (filledBits width bytes).length (filledBits width bytes)).map ofBits,
    by rw [List.map_map]; rfl, ?_, ?_, ?_⟩
  · simp only [List.mem_map, forall_exists_index, and_imp, forall_apply_eq_imp_iff₂]
    intro g hg
    exact hwidths g hg ▸ ofBits_lt g
  · generalize groups width (filledBits width bytes).length (filledBits width bytes) = gs at *
    rw [← hflatten, List.length_map]
    clear hflatten
    induction gs with
    | nil => rfl
    | cons g gs ih =>
      have hg := hwidths g List.mem_cons_self
      have hgs := ih fun x hx => hwidths x (List.mem_cons_of_mem _ hx)
      rw [List.flatten_cons, List.length_append, List.length_cons, hg, Nat.mul_succ, hgs,
        Nat.add_comm]
  · generalize groups width (filledBits width bytes).length (filledBits width bytes) = gs at *
    rw [← hflatten, List.flatMap_def, List.map_map]
    congr 1
    refine (List.map_congr_left fun g hg => ?_).trans (List.map_id _)
    rw [Function.comp_apply, ← hwidths g hg, bitsOf_ofBits]
    rfl

theorem decodeRaw64_encodeDigits {alphabet : List UInt8} (h : Spelling alphabet 64)
    (bytes : List UInt8) : decodeRaw64 alphabet (encodeDigits alphabet 6 bytes) = some bytes := by
  have hlength := length_filledBits 6 bytes
  obtain ⟨digits, hdigits⟩ := exists_digits alphabet (by decide : 0 < 6) bytes (by omega)
  have hcount := hdigits.count
  have hmod : ¬ digits.length % 4 = 1 := by omega
  rw [decodeRaw64, hdigits.spelled, digitValues_spelled h hdigits.small]
  simp only [Option.bind_eq_bind, Option.bind_some, if_neg hmod, hdigits.bits,
    bytesOfBits_filledBits (by decide : 0 < 6) (by decide)]

/-- The alphabets spell their digits, and have one for each value. -/
theorem alphabets_spell :
    (Spelling base64URLAlphabet 64 ∧ base64URLAlphabet.length = bitSpan 6) ∧
    (Spelling base64Alphabet 64 ∧ base64Alphabet.length = bitSpan 6) ∧
    Spelling base32Alphabet (bitSpan 5) ∧ base32Alphabet.length = bitSpan 5 := by
  decide +kernel

theorem decodeBase64URL_encodeBase64URL (bytes : List UInt8) :
    decodeBase64URL (encodeBase64URL bytes) = some bytes :=
  decodeRaw64_encodeDigits alphabets_spell.1.1 bytes

theorem decodeBase64_encodeBase64 (bytes : List UInt8) :
    decodeBase64 (encodeBase64 bytes) = some bytes :=
  decodeRaw64_encodeDigits alphabets_spell.2.1.1 bytes

/-- The bits of the last digit that fill no byte. -/
def trailingBits (alphabet text : List UInt8) : List Bool :=
  match digitValues alphabet text with
  | none => []
  | some digits =>
    let bits := digits.flatMap (bitsOf 6)
    bits.drop (bits.length / 8 * 8)

/-- The writer fills the last digit with zeros. -/
theorem not_mem_trailingBits {alphabet : List UInt8} (h : Spelling alphabet 64)
    (bytes : List UInt8) : true ∉ trailingBits alphabet (encodeDigits alphabet 6 bytes) := by
  have hlength := length_filledBits 6 bytes
  obtain ⟨digits, hdigits⟩ := exists_digits alphabet (by decide : 0 < 6) bytes (by omega)
  have hbytes : (filledBits 6 bytes).length / 8 * 8 =
      (bytes.flatMap fun byte => bitsOf 8 byte.toNat).length := by
    rw [length_bits]
    omega
  rw [trailingBits, hdigits.spelled, digitValues_digits h hdigits.small]
  simp only [hdigits.bits, hbytes]
  rw [filledBits, List.drop_left]
  simp

/-- The last quantum of a text that was written is never one of those that decode to nothing. -/
theorem decodeBase32_encodeBase32 (bytes : List UInt8) :
    decodeBase32 (encodeBase32 bytes) = some bytes := by
  obtain ⟨-, -, hspelling, -⟩ := alphabets_spell
  have hlength := length_filledBits 5 bytes
  obtain ⟨digits, hdigits⟩ := exists_digits base32Alphabet (by decide : 0 < 5) bytes (by omega)
  have hcount := hdigits.count
  have htail : ¬ (digits.length % 8 = 1 ∨ digits.length % 8 = 3 ∨ digits.length % 8 = 6) := by
    omega
  rw [decodeBase32, encodeBase32, hdigits.spelled, digitValues_spelled hspelling hdigits.small]
  simp only [Option.bind_eq_bind, Option.bind_some, if_neg htail, List.take_length, hdigits.bits,
    bytesOfBits_filledBits (by decide : 0 < 5) (by decide)]

/-- Every byte of a text that was written is one of the alphabet. -/
theorem mem_encodeDigits {alphabet : List UInt8} {width : Nat} {bytes : List UInt8}
    (hwidth : 0 < width) (hfull : (filledBits width bytes).length % width = 0)
    (hsize : alphabet.length = bitSpan width) {c : UInt8}
    (hc : c ∈ encodeDigits alphabet width bytes) : c ∈ alphabet := by
  obtain ⟨digits, hdigits⟩ := exists_digits alphabet hwidth bytes hfull
  rw [hdigits.spelled] at hc
  obtain ⟨n, hn, rfl⟩ := List.mem_map.mp hc
  have hlt : n < alphabet.length := hsize ▸ hdigits.small n hn
  have hget : alphabet.getD n 0 = alphabet[n] := by
    rw [List.getD_eq_getElem?_getD, List.getElem?_eq_getElem hlt, Option.getD_some]
  exact hget ▸ List.getElem_mem hlt

theorem mem_encodeBase64 {bytes : List UInt8} {c : UInt8} (hc : c ∈ encodeBase64 bytes) :
    c ∈ base64Alphabet := by
  have hlength := length_filledBits 6 bytes
  exact mem_encodeDigits (by decide) (by omega) alphabets_spell.2.1.2 hc

theorem mem_encodeBase64URL {bytes : List UInt8} {c : UInt8} (hc : c ∈ encodeBase64URL bytes) :
    c ∈ base64URLAlphabet := by
  have hlength := length_filledBits 6 bytes
  exact mem_encodeDigits (by decide) (by omega) alphabets_spell.1.2 hc

theorem mem_encodeBase32 {bytes : List UInt8} {c : UInt8} (hc : c ∈ encodeBase32 bytes) :
    c ∈ base32Alphabet := by
  have hlength := length_filledBits 5 bytes
  exact mem_encodeDigits (by decide) (by omega) alphabets_spell.2.2.2 hc

/-- The digits hold the bits, and fewer zeros than one digit has bits. -/
theorem length_encodeDigits (alphabet : List UInt8) {width : Nat} (hwidth : 0 < width)
    (bytes : List UInt8) (hfull : (filledBits width bytes).length % width = 0) :
    width * (encodeDigits alphabet width bytes).length = (filledBits width bytes).length := by
  obtain ⟨digits, hdigits⟩ := exists_digits alphabet hwidth bytes hfull
  rw [hdigits.spelled, List.length_map, hdigits.count]

theorem length_encodeBase64 (bytes : List UInt8) :
    6 * (encodeBase64 bytes).length = 8 * bytes.length + (6 - 8 * bytes.length % 6) % 6 := by
  have hlength := length_filledBits 6 bytes
  rw [← hlength]
  exact length_encodeDigits _ (by decide) bytes (by omega)

theorem length_encodeBase32 (bytes : List UInt8) :
    5 * (encodeBase32 bytes).length = 8 * bytes.length + (5 - 8 * bytes.length % 5) % 5 := by
  have hlength := length_filledBits 5 bytes
  rw [← hlength]
  exact length_encodeDigits _ (by decide) bytes (by omega)

end SevenMirror.Lib
