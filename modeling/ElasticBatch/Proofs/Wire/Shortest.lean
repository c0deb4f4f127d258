import ElasticBatch.Proofs.Wire.Varint

/-! Padding. A number may be spelled with more groups than it needs; the written form has none to
spare, and is the only form of its length. -/
namespace ElasticBatch.Wire

/-- No piece is shorter than the first, and the second is another spelling only if it is longer. -/
structure Shortest (written piece : Bytes) : Prop where
  le : written.length ≤ piece.length
  unique (same : piece.length = written.length) : piece = written

namespace Shortest

theorem refl (piece : Bytes) : Shortest piece piece where
  le := Nat.le_refl _
  unique _ := rfl

/-- Where neither part is longer than it needs to be, the whole is not, and conversely. -/
theorem append {first second one two : Bytes} (h : Shortest first one) (k : Shortest second two) :
    Shortest (first ++ second) (one ++ two) where
  le := by
    have head := h.le
    have body := k.le
    rw [List.length_append, List.length_append]
    omega
  unique same := by
    have head := h.le
    have body := k.le
    rw [List.length_append, List.length_append] at same
    rw [h.unique (by omega), k.unique (by omega)]

theorem cons {written piece : Bytes} (h : Shortest written piece) (b : UInt8) :
    Shortest (b :: written) (b :: piece) :=
  (refl [b]).append h

/-- What follows is more than is needed. -/
theorem trailing {written piece : Bytes} (h : Shortest written piece) (tail : Bytes) :
    Shortest written (piece ++ tail) := by
  have longer : Shortest [] tail := ⟨Nat.zero_le _, List.eq_nil_of_length_eq_zero⟩
  simpa only [List.append_nil] using h.append longer

end Shortest

namespace Varint

theorem ofNat_group {b : UInt8} (marked : 128 ≤ b) (higher : Nat) :
    UInt8.ofNat ((b.toNat % 128 + 128 * higher) % 128 + 128) = b := by
  apply UInt8.toNat_inj.mp
  rw [toNat_group, Nat.add_mul_mod_self_left, Nat.mod_mod, low_group marked]
  have least := UInt8.le_iff_toNat_le.mp marked
  change 128 ≤ b.toNat at least
  omega

/-- The induction is on the groups. A group too many is one that the written form ends before. -/
theorem shortest_write {n : Nat} {piece : Bytes} (groups : Groups n piece) :
    Shortest (write n) piece := by
  induction groups with
  | @last b unmarked =>
      have small := UInt8.lt_iff_toNat_lt.mp unmarked
      rw [write_small small, UInt8.ofNat_toNat]
      exact .refl [b]
  | @more b higher rest marked follows ih =>
      by_cases small : b.toNat % 128 + 128 * higher < 128
      · have one := size_pos higher
        have least := ih.le
        rw [length_write] at least
        rw [write_small small]
        refine ⟨Nat.le_add_left 1 _, fun same => ?_⟩
        rw [List.length_cons, List.length_singleton] at same
        omega
      · have left : (b.toNat % 128 + 128 * higher) / 128 = higher := by omega
        rw [write_large small, ofNat_group marked, left]
        exact ih.cons b

end Varint
end ElasticBatch.Wire
