/-! Machine words: byte sizes and counters. Plain arithmetic on a word wraps at `2 ^ 64`. -/
namespace ElasticBatch

abbrev Word := UInt64

namespace Word

def largest : Word := 0xFFFFFFFFFFFFFFFF

/-- The natural number cut off at the largest word. -/
def clamp (n : Nat) : Word :=
  if n < UInt64.size then UInt64.ofNat n else largest

def addSat (a b : Word) : Word := clamp (a.toNat + b.toNat)

def subSat (a b : Word) : Word := if b ≤ a then a - b else 0

def mulSat (a b : Word) : Word := clamp (a.toNat * b.toNat)

theorem toNat_clamp (n : Nat) : (clamp n).toNat = min n (UInt64.size - 1) := by
  unfold clamp
  split
  · next h =>
      rw [UInt64.toNat_ofNat_of_lt' h]
      omega
  · next h =>
      have top : largest.toNat = UInt64.size - 1 := rfl
      omega

theorem toNat_mulSat (a b : Word) :
    (mulSat a b).toNat = min (a.toNat * b.toNat) (UInt64.size - 1) :=
  toNat_clamp _

theorem toNat_subSat (a b : Word) : (subSat a b).toNat = a.toNat - b.toNat := by
  unfold subSat
  split
  · next h => exact UInt64.toNat_sub_of_le _ _ h
  · next h =>
      have larger : ¬ b.toNat ≤ a.toNat := fun le => h (UInt64.le_iff_toNat_le.mpr le)
      simp only [UInt64.toNat_zero]
      omega

theorem toNat_min (a b : Word) : (min a b).toNat = min a.toNat b.toNat := by
  change (if a ≤ b then a else b).toNat = _
  split
  · next h => exact (Nat.min_eq_left (UInt64.le_iff_toNat_le.mp h)).symm
  · next h =>
      have larger := UInt64.lt_iff_toNat_lt.mp (UInt64.not_le.mp h)
      exact (Nat.min_eq_right (Nat.le_of_lt larger)).symm

theorem toNat_max (a b : Word) : (max a b).toNat = max a.toNat b.toNat := by
  change (if a ≤ b then b else a).toNat = _
  split
  · next h => exact (Nat.max_eq_right (UInt64.le_iff_toNat_le.mp h)).symm
  · next h =>
      have larger := UInt64.lt_iff_toNat_lt.mp (UInt64.not_le.mp h)
      exact (Nat.max_eq_left (Nat.le_of_lt larger)).symm

theorem toNat_add_of_lt {a b : Word} (h : a.toNat + b.toNat < UInt64.size) :
    (a + b).toNat = a.toNat + b.toNat :=
  (UInt64.toNat_add a b).trans (Nat.mod_eq_of_lt h)

end Word
end ElasticBatch
