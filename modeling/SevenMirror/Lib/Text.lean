import Mathlib.Data.List.Basic

/-! Text as bytes: the functions of Go's `strings`, `strconv` and `encoding/base*` packages. -/

namespace SevenMirror.Lib

/-- The bytes of the white space characters of Unicode. -/
def spaces : List (List UInt8) :=
  [[0x09], [0x0a], [0x0b], [0x0c], [0x0d], [0x20], [0xc2, 0x85], [0xc2, 0xa0], [0xe1, 0x9a, 0x80],
    [0xe2, 0x80, 0x80], [0xe2, 0x80, 0x81], [0xe2, 0x80, 0x82], [0xe2, 0x80, 0x83],
    [0xe2, 0x80, 0x84], [0xe2, 0x80, 0x85], [0xe2, 0x80, 0x86], [0xe2, 0x80, 0x87],
    [0xe2, 0x80, 0x88], [0xe2, 0x80, 0x89], [0xe2, 0x80, 0x8a], [0xe2, 0x80, 0xa8],
    [0xe2, 0x80, 0xa9], [0xe2, 0x80, 0xaf], [0xe2, 0x81, 0x9f], [0xe3, 0x80, 0x80]]

/-- Drops leading words of `words`, at most `fuel` of them. -/
def dropWords (words : List (List UInt8)) : Nat → List UInt8 → List UInt8
  | 0, text => text
  | fuel + 1, text =>
    match words.find? (·.isPrefixOf text) with
    | none => text
    | some word => dropWords words fuel (text.drop word.length)

/-- `strings.TrimSpace`. -/
def trimSpace (text : List UInt8) : List UInt8 :=
  let left := dropWords spaces text.length text
  (dropWords (spaces.map List.reverse) left.length left.reverse).reverse

/-- `strings.TrimRight`, for one character of ASCII. -/
def trimRight (c : UInt8) (text : List UInt8) : List UInt8 :=
  (text.reverse.dropWhile (· == c)).reverse

section Trim

variable {words : List (List UInt8)} {text : List UInt8}

theorem dropWords_suffix (fuel : Nat) : dropWords words fuel text <:+ text := by
  induction fuel generalizing text with
  | zero => exact List.suffix_rfl
  | succ fuel ih =>
    rw [dropWords]
    split
    · exact List.suffix_rfl
    · exact ih.trans (List.drop_suffix _ _)

/-- With enough fuel no word is left in front. -/
theorem dropWords_done (hwords : ∀ w ∈ words, w ≠ []) {fuel : Nat} (hfuel : text.length ≤ fuel) :
    ∀ w ∈ words, ¬ w <+: dropWords words fuel text := by
  induction fuel generalizing text with
  | zero =>
    intro w hw hleads
    rw [dropWords, List.eq_nil_of_length_eq_zero (Nat.le_zero.mp hfuel)] at hleads
    exact hwords w hw (List.prefix_nil.mp hleads)
  | succ fuel ih =>
    rw [dropWords]
    split
    · rename_i hnone
      intro w hw hleads
      exact List.find?_eq_none.mp hnone w hw (List.isPrefixOf_iff_prefix.mpr hleads)
    · rename_i word hfind
      refine ih ?_
      have hword := List.length_pos_iff.mpr (hwords word (List.mem_of_find?_eq_some hfind))
      rw [List.length_drop]
      omega

theorem dropWords_self (h : ∀ w ∈ words, ¬ w <+: text) (fuel : Nat) :
    dropWords words fuel text = text := by
  cases fuel with
  | zero => rfl
  | succ fuel =>
    have hnone : words.find? (·.isPrefixOf text) = none := by
      refine List.find?_eq_none.mpr fun w hw hleads => ?_
      exact h w hw (List.isPrefixOf_iff_prefix.mp hleads)
    rw [dropWords, hnone]

theorem trimSpace_self (hfront : ∀ w ∈ spaces, ¬ w <+: text)
    (hback : ∀ w ∈ spaces.map List.reverse, ¬ w <+: text.reverse) : trimSpace text = text := by
  simp only [trimSpace, dropWords_self hfront, dropWords_self hback, List.reverse_reverse]

/-- A text that was trimmed stays as it is. -/
theorem trimSpace_trimSpace (text : List UInt8) : trimSpace (trimSpace text) = trimSpace text := by
  have hfront := dropWords_done (by decide : ∀ w ∈ spaces, w ≠ []) (Nat.le_refl text.length)
  have hlength : (dropWords spaces text.length text).reverse.length ≤
      (dropWords spaces text.length text).length := Nat.le_of_eq List.length_reverse
  have hback := dropWords_done (by decide : ∀ w ∈ spaces.map List.reverse, w ≠ []) hlength
  refine trimSpace_self (fun w hw hleads => ?_) (fun w hw hleads => ?_)
  · refine hfront w hw (hleads.trans ?_)
    rw [trimSpace, ← List.reverse_suffix, List.reverse_reverse]
    exact dropWords_suffix _
  · rw [trimSpace, List.reverse_reverse] at hleads
    exact hback w hw hleads

/-- A word in front shares its first byte with the text. -/
theorem head?_of_prefix {w : List UInt8} (hw : w ≠ []) (h : w <+: text) :
    ∃ c ∈ w, text.head? = some c := by
  obtain ⟨rest, rfl⟩ := h
  cases w with
  | nil => exact absurd rfl hw
  | cons c w => exact ⟨c, List.mem_cons_self, rfl⟩

/-- A text whose first and last bytes are in no space is not trimmed. -/
theorem trimSpace_ends (hfirst : ∀ c, text.head? = some c → ∀ w ∈ spaces, c ∉ w)
    (hlast : ∀ c, text.getLast? = some c → ∀ w ∈ spaces, c ∉ w) : trimSpace text = text := by
  have hwords : ∀ w ∈ spaces, w ≠ [] := by decide
  refine trimSpace_self (fun w hw hfront => ?_) (fun w hw hback => ?_)
  · obtain ⟨c, hc, hhead⟩ := head?_of_prefix (hwords w hw) hfront
    exact hfirst c hhead w hw hc
  · obtain ⟨v, hv, rfl⟩ := List.mem_map.mp hw
    have hreverse : v.reverse ≠ [] := fun hnil => hwords v hv (List.reverse_eq_nil_iff.mp hnil)
    obtain ⟨c, hc, hhead⟩ := head?_of_prefix hreverse hback
    rw [List.head?_reverse] at hhead
    exact hlast c hhead v hv (List.mem_reverse.mp hc)

/-- A text without a byte of a space is not trimmed. -/
theorem trimSpace_spaceless (h : ∀ c ∈ text, ∀ w ∈ spaces, c ∉ w) : trimSpace text = text :=
  trimSpace_ends (fun c hc => h c (List.mem_of_head? hc)) fun c hc => h c (List.mem_of_getLast? hc)

theorem trimRight_self {c : UInt8} (h : c ∉ text) : trimRight c text = text := by
  have hdrop : text.reverse.dropWhile (· == c) = text.reverse := by
    cases hreverse : text.reverse with
    | nil => rfl
    | cons x rest =>
      have hx : x ∈ text := List.mem_reverse.mp (hreverse ▸ List.mem_cons_self)
      have hne : (x == c) = false := beq_false_of_ne fun heq => h (heq ▸ hx)
      simp [hne]
  rw [trimRight, hdrop, List.reverse_reverse]

end Trim

/-- `strings.Split`, for a separator of one byte. -/
def splitOn (separator : UInt8) : List UInt8 → List (List UInt8)
  | [] => [[]]
  | c :: rest =>
    if c = separator then [] :: splitOn separator rest
    else
      match splitOn separator rest with
      | [] => [[c]]
      | field :: fields => (c :: field) :: fields

theorem splitOn_field {separator : UInt8} {field : List UInt8} (h : separator ∉ field) :
    splitOn separator field = [field] := by
  induction field with
  | nil => rfl
  | cons c field ih =>
    rw [List.mem_cons, not_or] at h
    rw [splitOn, if_neg (Ne.symm h.1), ih h.2]

theorem splitOn_append {separator : UInt8} {field : List UInt8} (h : separator ∉ field)
    (rest : List UInt8) :
    splitOn separator (field ++ separator :: rest) = field :: splitOn separator rest := by
  induction field with
  | nil => rw [List.nil_append, splitOn, if_pos rfl]
  | cons c field ih =>
    rw [List.mem_cons, not_or] at h
    rw [List.cons_append, splitOn, if_neg (Ne.symm h.1), ih h.2]

/-- The fields have no separator. -/
theorem not_mem_of_mem_splitOn {separator : UInt8} {text field : List UInt8}
    (h : field ∈ splitOn separator text) : separator ∉ field := by
  induction text generalizing field with
  | nil =>
    rw [splitOn, List.mem_singleton] at h
    rw [h]
    exact List.not_mem_nil
  | cons c rest ih =>
    rw [splitOn] at h
    split at h
    · rcases List.mem_cons.mp h with rfl | hrest
      · exact List.not_mem_nil
      · exact ih hrest
    · rename_i hc
      split at h
      · rename_i hnone
        rw [List.mem_singleton] at h
        rw [h, List.mem_singleton]
        exact Ne.symm hc
      · rename_i first fields hfields
        rcases List.mem_cons.mp h with rfl | hrest
        · rw [List.mem_cons, not_or]
          exact ⟨Ne.symm hc, ih (hfields ▸ List.mem_cons_self)⟩
        · exact ih (hfields ▸ List.mem_cons_of_mem _ hrest)

/-- `strings.Cut`, for a separator of one byte. -/
def cut (separator : UInt8) (text : List UInt8) : Option (List UInt8 × List UInt8) :=
  if separator ∈ text then
    some (text.takeWhile (· != separator), (text.dropWhile (· != separator)).drop 1)
  else none

/-- A byte that continues a character of several bytes. -/
def continues (c : UInt8) : Bool := 0x80 ≤ c ∧ c ≤ 0xbf

/-- The second byte `c` of a character of three bytes that starts with `a`. -/
def continuesThree (a c : UInt8) : Bool :=
  0xe0 ≤ a ∧ a ≤ 0xef ∧ continues c ∧ (a = 0xe0 → 0xa0 ≤ c) ∧ (a = 0xed → c ≤ 0x9f)

/-- The second byte `c` of a character of four bytes that starts with `a`. -/
def continuesFour (a c : UInt8) : Bool :=
  0xf0 ≤ a ∧ a ≤ 0xf4 ∧ continues c ∧ (a = 0xf0 → 0x90 ≤ c) ∧ (a = 0xf4 → c ≤ 0x8f)

/-- `utf8.ValidString`. -/
def validUtf8 : List UInt8 → Bool
  | [] => true
  | a :: rest =>
    if a < 0x80 then validUtf8 rest
    else
      match rest with
      | b :: rest =>
        if 0xc2 ≤ a ∧ a ≤ 0xdf ∧ continues b then validUtf8 rest
        else
          match rest with
          | c :: rest =>
            if continuesThree a b ∧ continues c then validUtf8 rest
            else
              match rest with
              | d :: rest => continuesFour a b && continues c && continues d && validUtf8 rest
              | [] => false
          | [] => false
      | [] => false

def isDigit (c : UInt8) : Bool := 0x30 ≤ c ∧ c ≤ 0x39

/-- `strconv.Atoi`, in 64 bits. -/
def atoi (text : List UInt8) : Option Int :=
  let negative := text.head? = some 0x2d
  let digits := if negative ∨ text.head? = some 0x2b then text.drop 1 else text
  if digits = [] ∨ ¬ digits.all isDigit then none
  else
    let magnitude : Nat := digits.foldl (fun n c => 10 * n + (c.toNat - 0x30)) 0
    let value : Int := if negative then -magnitude else magnitude
    if value < -0x8000000000000000 ∨ value > 0x7fffffffffffffff then none else some value

/-- The decimal digits of `n`, the last `width` of them. -/
def decimal : Nat → Nat → List UInt8
  | 0, _ => []
  | width + 1, n => decimal width (n / 10) ++ [UInt8.ofNat (0x30 + n % 10)]

@[simp] theorem length_decimal (width n : Nat) : (decimal width n).length = width := by
  induction width generalizing n with
  | zero => rfl
  | succ width ih => rw [decimal, List.length_append, ih, List.length_singleton]

theorem all_isDigit_decimal (width n : Nat) : (decimal width n).all isDigit = true := by
  induction width generalizing n with
  | zero => rfl
  | succ width ih =>
    have hdigit : isDigit (UInt8.ofNat (0x30 + n % 10)) = true := by
      have hlt : n % 10 < 10 := Nat.mod_lt n (by decide)
      simp only [isDigit, UInt8.le_iff_toNat_le, UInt8.toNat_ofNat', decide_eq_true_eq]
      exact ⟨by simp only [UInt8.reduceToNat]; omega, by simp only [UInt8.reduceToNat]; omega⟩
    rw [decimal, List.all_append, ih, List.all_cons, hdigit, List.all_nil]
    rfl

/-! ### Digits of a power of two -/

/-- The low `width` bits of `n`, most significant first. -/
def bitsOf : Nat → Nat → List Bool
  | 0, _ => []
  | width + 1, n => bitsOf width (n / 2) ++ [n % 2 == 1]

def ofBits (bits : List Bool) : Nat := bits.foldl (fun n bit => 2 * n + bit.toNat) 0

/-- The full groups of `width`, at most `fuel` of them. -/
def groups {α : Type*} (width : Nat) : Nat → List α → List (List α)
  | 0, _ => []
  | fuel + 1, items =>
    if items.length < width then [] else items.take width :: groups width fuel (items.drop width)

def bytesOfBits (bits : List Bool) : List UInt8 :=
  (groups 8 bits.length bits).map fun group => UInt8.ofNat (ofBits group)

/-- The bytes as digits of `width` bits, the last digit filled with zeros. -/
def encodeDigits (alphabet : List UInt8) (width : Nat) (bytes : List UInt8) : List UInt8 :=
  let bits := bytes.flatMap fun byte => bitsOf 8 byte.toNat
  let filled := bits ++ List.replicate ((width - bits.length % width) % width) false
  (groups width filled.length filled).map fun group => alphabet.getD (ofBits group) 0

/-- The values of the digits, for a text of the alphabet. -/
def digitValues (alphabet text : List UInt8) : Option (List Nat) :=
  text.mapM fun c => alphabet.findIdx? (· == c)

def isNewline (c : UInt8) : Bool := c = 0x0a ∨ c = 0x0d

def base64Alphabet : List UInt8 :=
  "ABCDEFGHIJKLMNOPQRSTUVWXYZabcdefghijklmnopqrstuvwxyz0123456789+/".toUTF8.toList

def base32Alphabet : List UInt8 := "ABCDEFGHIJKLMNOPQRSTUVWXYZ234567".toUTF8.toList

def base64URLAlphabet : List UInt8 :=
  "ABCDEFGHIJKLMNOPQRSTUVWXYZabcdefghijklmnopqrstuvwxyz0123456789-_".toUTF8.toList

/-- Decodes digits of six bits: line ends are skipped, and the bits that fill the last digit are not
looked at. -/
def decodeRaw64 (alphabet text : List UInt8) : Option (List UInt8) := do
  let digits ← digitValues alphabet (text.filter fun c => !isNewline c)
  if digits.length % 4 = 1 then none else some (bytesOfBits (digits.flatMap (bitsOf 6)))

/-- `base64.RawStdEncoding.DecodeString`. -/
def decodeBase64 (text : List UInt8) : Option (List UInt8) := decodeRaw64 base64Alphabet text

def encodeBase64 (bytes : List UInt8) : List UInt8 := encodeDigits base64Alphabet 6 bytes

/-- `base64.RawURLEncoding.DecodeString`. -/
def decodeBase64URL (text : List UInt8) : Option (List UInt8) := decodeRaw64 base64URLAlphabet text

def encodeBase64URL (bytes : List UInt8) : List UInt8 := encodeDigits base64URLAlphabet 6 bytes

/-- `base32.StdEncoding.WithPadding(NoPadding).DecodeString`.  A last quantum of one, three or six
digits decodes to nothing. -/
def decodeBase32 (text : List UInt8) : Option (List UInt8) := do
  let digits ← digitValues base32Alphabet (text.filter fun c => !isNewline c)
  let tail := digits.length % 8
  let kept := if tail = 1 ∨ tail = 3 ∨ tail = 6 then digits.length - tail else digits.length
  some (bytesOfBits ((digits.take kept).flatMap (bitsOf 5)))

def encodeBase32 (bytes : List UInt8) : List UInt8 := encodeDigits base32Alphabet 5 bytes

end SevenMirror.Lib
