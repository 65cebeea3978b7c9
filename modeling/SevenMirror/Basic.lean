import Mathlib.Data.List.Basic

/-! Byte strings, identifiers, and instants: the values that the relay, the registry, and the
console exchange. -/

namespace SevenMirror

/-- A byte slice, or a Go string, which is one. -/
abbrev Bytes := List UInt8

/-- `math.MaxInt64`. -/
def maxInt64 : Nat := 0x7fffffffffffffff

theorem toInt_add_one {x : Int64} (h : 0 ≤ x.toInt) (hlt : x.toInt < maxInt64) :
    (x + 1).toInt = x.toInt + 1 := by
  unfold maxInt64 at hlt
  rw [Int64.toInt_add, Int64.toInt_one]
  apply Int.bmod_eq_of_le <;> omega

/-- A Go array of `n` bytes. -/
@[ext] structure Block (n : Nat) where
  bytes : Bytes
  size : bytes.length = n
deriving DecidableEq, Repr

abbrev WorkspaceID := Block 16

abbrev DeviceID := Block 16

/-- The `n` bytes of `b` from `start` on. -/
def slice (b : Bytes) (start n : Nat) : Bytes := (b.drop start).take n

/-- `copy(dst[:], b[start:start+n])`, for a slice that lies within `b`. -/
def Block.ofSlice (b : Bytes) (start n : Nat) (h : start + n ≤ b.length) : Block n :=
  ⟨slice b start n, by simp [slice]; omega⟩

/-- The array with these bytes, if there are `n` of them. -/
def Block.check (n : Nat) (b : Bytes) : Option (Block n) :=
  if h : b.length = n then some ⟨b, h⟩ else none

theorem Block.check_eq_some {n : Nat} {b : Bytes} {block : Block n} :
    Block.check n b = some block ↔ block.bytes = b := by
  unfold Block.check
  split
  · rename_i h
    constructor
    · intro heq
      cases heq
      rfl
    · rintro rfl
      rfl
  · rename_i h
    simp only [reduceCtorEq, false_iff]
    rintro rfl
    exact h block.size

/-- Every byte is zero. -/
def allZero (b : Bytes) : Bool := b.all (· == 0)

/-- A device of a workspace, the address of a connection and of a delivery queue. -/
structure PeerIdentity where
  workspaceID : WorkspaceID
  deviceID : DeviceID
deriving DecidableEq, Repr

/-- A device for concrete runs. -/
def sampleDevice : PeerIdentity := ⟨⟨List.replicate 16 1, rfl⟩, ⟨List.replicate 16 1, rfl⟩⟩

/-- An instant, in nanoseconds since 1970-01-01 UTC. -/
structure Time where
  nanos : Int
deriving DecidableEq, Repr

namespace Time

/-- The zero instant of Go is 0001-01-01 UTC, 62135596800 seconds before the Unix epoch. -/
def isZero (t : Time) : Bool := t.nanos == -62135596800000000000

/-- `t` is later than `u`. -/
def after (t u : Time) : Bool := u.nanos < t.nanos

/-- Milliseconds since the Unix epoch, rounded down, in 64 bits. -/
def unixMilli (t : Time) : Int := (t.nanos / 1000000).bmod 0x10000000000000000

/-- `time.UnixMilli`. -/
def ofUnixMilli (ms : Int) : Time := ⟨ms * 1000000⟩

theorem unixMilli_ofUnixMilli {ms : Int} (hlow : 0 ≤ ms) (hhigh : ms ≤ maxInt64) :
    (ofUnixMilli ms).unixMilli = ms := by
  unfold maxInt64 at hhigh
  rw [unixMilli, ofUnixMilli, Int.mul_ediv_cancel _ (by decide)]
  apply Int.bmod_eq_of_le <;> omega

end Time

end SevenMirror
