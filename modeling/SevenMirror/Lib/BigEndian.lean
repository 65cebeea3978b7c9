import Mathlib.Data.List.Induction

/-! Numbers in bytes, most significant first. -/

namespace SevenMirror.Lib

/-- The number that the bytes spell. -/
def ofBigEndian (b : List UInt8) : Nat := b.foldl (fun n byte => n * 256 + byte.toNat) 0

/-- The low `width` bytes of `n`. -/
def toBigEndian : Nat → Nat → List UInt8
  | 0, _ => []
  | width + 1, n => toBigEndian width (n / 256) ++ [UInt8.ofNat n]

/-- The numbers below it are those that `width` bytes spell. -/
def byteSpan : Nat → Nat
  | 0 => 1
  | width + 1 => byteSpan width * 256

@[simp] theorem length_toBigEndian (width n : Nat) : (toBigEndian width n).length = width := by
  induction width generalizing n with
  | zero => rfl
  | succ width ih => rw [toBigEndian, List.length_append, ih, List.length_singleton]

theorem toBigEndian_inj {width a b : Nat} (ha : a < byteSpan width) (hb : b < byteSpan width)
    (h : toBigEndian width a = toBigEndian width b) : a = b := by
  induction width generalizing a b with
  | zero =>
    simp only [byteSpan] at ha hb
    omega
  | succ width ih =>
    simp only [byteSpan] at ha hb
    obtain ⟨hhigh, hlow⟩ := List.append_inj h (by simp)
    have hquotient := ih (Nat.div_lt_of_lt_mul (by omega)) (Nat.div_lt_of_lt_mul (by omega)) hhigh
    have hbyte := congrArg UInt8.toNat (List.cons.inj hlow).1
    simp only [UInt8.toNat_ofNat'] at hbyte
    omega

theorem ofBigEndian_concat (b : List UInt8) (byte : UInt8) :
    ofBigEndian (b ++ [byte]) = ofBigEndian b * 256 + byte.toNat := by
  simp only [ofBigEndian, List.foldl_append, List.foldl_cons, List.foldl_nil]

theorem ofBigEndian_toBigEndian {width n : Nat} (h : n < byteSpan width) :
    ofBigEndian (toBigEndian width n) = n := by
  induction width generalizing n with
  | zero =>
    simp only [byteSpan] at h
    rw [toBigEndian, Nat.lt_one_iff.mp h]
    rfl
  | succ width ih =>
    simp only [byteSpan] at h
    have hhigh := ih (n := n / 256) (Nat.div_lt_of_lt_mul (by omega))
    rw [toBigEndian, ofBigEndian_concat, hhigh, UInt8.toNat_ofNat']
    omega

theorem toBigEndian_ofBigEndian (b : List UInt8) :
    toBigEndian b.length (ofBigEndian b) = b := by
  induction b using List.reverseRecOn with
  | nil => rfl
  | append_singleton b byte ih =>
    have hbyte := byte.toNat_lt
    have hhigh : (ofBigEndian b * 256 + byte.toNat) / 256 = ofBigEndian b := by omega
    have hlow : UInt8.ofNat (ofBigEndian b * 256 + byte.toNat) = byte := by
      apply UInt8.toNat_inj.mp
      rw [UInt8.toNat_ofNat']
      omega
    rw [List.length_append, List.length_singleton, toBigEndian, ofBigEndian_concat, hhigh, hlow, ih]

/-- The bytes that spell a number are its bytes. -/
theorem eq_toBigEndian {b : List UInt8} {width n : Nat} (hlength : b.length = width)
    (h : ofBigEndian b = n) : b = toBigEndian width n := by
  rw [← hlength, ← h, toBigEndian_ofBigEndian]

end SevenMirror.Lib
