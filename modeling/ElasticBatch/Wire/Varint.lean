import ElasticBatch.Wire.Fault
import ElasticBatch.Wire.Cursor

/-! Numbers in groups of seven bits, lowest group first; the high bit says that another group
follows. Written as short as possible; read in any form that fits the format's width. -/
namespace ElasticBatch.Wire

/-- A reader takes one byte after at most `further` others; the last possible one is at most
`top`. -/
structure VarintFormat where
  further : Nat
  top : UInt8
  deriving DecidableEq, Repr

namespace Varint

def bits32 : VarintFormat := ⟨4, 15⟩

def bits64 : VarintFormat := ⟨9, 1⟩

def write (n : Nat) : Bytes :=
  if n < 128 then [UInt8.ofNat n] else UInt8.ofNat (n % 128 + 128) :: write (n / 128)
termination_by n
decreasing_by omega

/-- The length of the written form. -/
def size (n : Nat) : Nat :=
  if n < 128 then 1 else size (n / 128) + 1
termination_by n
decreasing_by omega

def readUpTo (top : UInt8) : Nat → Cursor → Except Fault (Nat × Cursor)
  | further, c =>
    match c.next? with
    | none => .error .unexpectedEnd
    | some (b, d) =>
      match further with
      | 0 => if b ≤ top then .ok (b.toNat, d) else .error .badVarint
      | further + 1 =>
        if b < 128 then .ok (b.toNat, d)
        else
          match readUpTo top further d with
          | .error fault => .error fault
          | .ok (higher, e) => .ok (b.toNat - 128 + 128 * higher, e)

def read (format : VarintFormat) (c : Cursor) : Except Fault (Nat × Cursor) :=
  readUpTo format.top format.further c

theorem length_write (n : Nat) : (write n).length = size n := by
  induction n using Nat.strongRecOn with
  | ind n ih =>
      rw [write, size]
      split
      · rfl
      · rw [List.length_cons, ih (n / 128) (by omega)]

theorem size_pos (n : Nat) : 0 < size n := by
  rw [size]
  split <;> omega

theorem toNat_last {n : Nat} (small : n < 128) : (UInt8.ofNat n).toNat = n := by
  simp [Nat.mod_eq_of_lt (show n < 256 by omega)]

theorem toNat_group (n : Nat) : (UInt8.ofNat (n % 128 + 128)).toNat = n % 128 + 128 := by
  simp [Nat.mod_eq_of_lt (show n % 128 + 128 < 256 by omega)]

end Varint
end ElasticBatch.Wire
