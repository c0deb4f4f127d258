import ElasticBatch.Pool

/-! The books of a pool in exact numbers. An entry fits if it neither hands out more than there is
nor takes back more than was handed out; entries that fit are plain additions and subtractions. -/
namespace ElasticBatch

namespace Ledger

/-- Bytes go out to a block or come back from one. -/
inductive Move where
  | out (bytes : Word)
  | back (bytes : Word)
  deriving DecidableEq, Repr

/-- What takes a block from one size to another. -/
def Move.between (old new : Word) : Move :=
  if old ≤ new then .out (new - old) else .back (old - new)

def enter (l : Ledger) : Move → Ledger
  | .out bytes => l.take bytes
  | .back bytes => l.giveBack bytes

def Fits (l : Ledger) : Move → Prop
  | .out bytes => l.used.toNat + bytes.toNat ≤ l.capacity.toNat
  | .back bytes => bytes.toNat ≤ l.used.toNat

/-- Each of the moves fits the books as the ones before it left them. -/
def AllFit : Ledger → List Move → Prop
  | _, [] => True
  | l, move :: rest => l.Fits move ∧ (l.enter move).AllFit rest

/-- No more is handed out than there is. -/
def Within (l : Ledger) : Prop := l.used.toNat ≤ l.capacity.toNat

theorem follow_eq_enter (l : Ledger) (old new : Word) :
    l.follow old new = l.enter (.between old new) := by
  unfold follow Move.between
  split <;> rfl

theorem capacity_enter (l : Ledger) (move : Move) : (l.enter move).capacity = l.capacity := by
  cases move <;> rfl

theorem capacity_foldl (l : Ledger) (moves : List Move) :
    (moves.foldl enter l).capacity = l.capacity := by
  induction moves generalizing l with
  | nil => rfl
  | cons move rest ih => exact (ih (l.enter move)).trans (capacity_enter l move)

theorem giveBack_zero (l : Ledger) : l.giveBack 0 = l := by
  rw [giveBack, UInt64.sub_zero]

theorem toNat_free (l : Ledger) : l.free.toNat = l.capacity.toNat - l.used.toNat :=
  Word.toNat_subSat l.capacity l.used

theorem toNat_grant (l : Ledger) (wanted : Word) :
    (l.grant wanted).toNat = min wanted.toNat (l.capacity.toNat - l.used.toNat) := by
  rw [grant, Word.toNat_min, toNat_free]

variable {l : Ledger}

theorem toNat_used_out {bytes : Word} (fits : l.Fits (.out bytes)) :
    (l.enter (.out bytes)).used.toNat = l.used.toNat + bytes.toNat :=
  Word.toNat_add_of_lt (Nat.lt_of_le_of_lt fits l.capacity.toNat_lt_size)

theorem toNat_used_back {bytes : Word} (fits : l.Fits (.back bytes)) :
    (l.enter (.back bytes)).used.toNat = l.used.toNat - bytes.toNat :=
  UInt64.toNat_sub_of_le _ _ (UInt64.le_iff_toNat_le.mpr fits)

theorem Within.enter (within : l.Within) {move : Move} (fits : l.Fits move) :
    (l.enter move).Within := by
  unfold Within at within ⊢
  rw [capacity_enter]
  cases move with
  | out bytes =>
      rw [toNat_used_out fits]
      exact fits
  | back bytes =>
      rw [toNat_used_back fits]
      omega

theorem Within.fits_grant (within : l.Within) (wanted : Word) : l.Fits (.out (l.grant wanted)) := by
  unfold Within at within
  have granted := l.toNat_grant wanted
  change l.used.toNat + (l.grant wanted).toNat ≤ l.capacity.toNat
  omega

/-- A block on the books may take any size that the others leave room for. -/
theorem fits_between {old new : Word} (backed : old.toNat ≤ l.used.toNat)
    (room : new.toNat + l.used.toNat ≤ old.toNat + l.capacity.toNat) :
    l.Fits (.between old new) := by
  unfold Move.between
  split
  · next grows =>
      have difference := UInt64.toNat_sub_of_le _ _ grows
      have grows := UInt64.le_iff_toNat_le.mp grows
      change l.used.toNat + (new - old).toNat ≤ l.capacity.toNat
      omega
  · next shrinks =>
      have difference := UInt64.toNat_sub_of_le _ _ (UInt64.le_of_lt (UInt64.not_le.mp shrinks))
      change (old - new).toNat ≤ l.used.toNat
      omega

/-- Along with a block the books change by as much as the block does. -/
theorem toNat_used_between {old new : Word} (fits : l.Fits (.between old new)) :
    (l.enter (.between old new)).used.toNat + old.toNat = l.used.toNat + new.toNat := by
  unfold Move.between at fits ⊢
  split at fits
  · next grows =>
      have difference := UInt64.toNat_sub_of_le _ _ grows
      have grows := UInt64.le_iff_toNat_le.mp grows
      rw [if_pos (UInt64.le_iff_toNat_le.mpr grows), toNat_used_out fits]
      omega
  · next shrinks =>
      have less := UInt64.le_of_lt (UInt64.not_le.mp shrinks)
      have difference := UInt64.toNat_sub_of_le _ _ less
      have less := UInt64.le_iff_toNat_le.mp less
      rw [if_neg shrinks, toNat_used_back fits]
      change (old - new).toNat ≤ l.used.toNat at fits
      omega

end Ledger

namespace Block

theorem shut_of_released {b : Block} (released : b.released = true) (empty : b.usage = 0) :
    b.shut = b := by
  cases b
  cases released
  cases empty
  rfl

theorem resized_of_released {b : Block} (released : b.released = true) (l : Ledger)
    (direction : Direction) : b.resized l direction = b.usage := by
  exact if_pos released

theorem toNat_resized_shrink {b : Block} (held : b.released = false) (l : Ledger) :
    (b.resized l .shrink).toNat = min (b.policy.shrink b.usage).toNat b.usage.toNat := by
  unfold resized
  rw [held]
  exact Word.toNat_min _ _

/-- An expansion gets what it wants, or all there is. -/
theorem toNat_resized_expand {b : Block} (held : b.released = false) (l : Ledger) :
    (b.resized l .expand).toNat =
      b.usage.toNat +
        min (max (b.policy.expand b.usage).toNat b.usage.toNat - b.usage.toNat)
          (l.capacity.toNat - l.used.toNat) := by
  have target : (b.target .expand).toNat = max (b.policy.expand b.usage).toNat b.usage.toNat :=
    Word.toNat_max _ _
  have grows : b.usage ≤ b.target .expand := UInt64.le_iff_toNat_le.mpr (by omega)
  have granted := l.toNat_grant (b.target .expand - b.usage)
  rw [UInt64.toNat_sub_of_le _ _ grows] at granted
  have bound := (b.target .expand).toNat_lt_size
  unfold resized
  rw [held]
  change (b.usage + l.grant (b.target .expand - b.usage)).toNat = _
  rw [Word.toNat_add_of_lt (by omega), granted, target]

/-- A resize of a block whose bytes are on the books fits the books. -/
theorem fits_resized (b : Block) {l : Ledger} (within : l.Within)
    (backed : b.usage.toNat ≤ l.used.toNat) (direction : Direction) :
    l.Fits (.between b.usage (b.resized l direction)) := by
  have room : (b.resized l direction).toNat + l.used.toNat ≤
      b.usage.toNat + l.capacity.toNat := by
    unfold Ledger.Within at within
    cases held : b.released with
    | true =>
        rw [resized_of_released held]
        omega
    | false =>
        cases direction with
        | shrink =>
            rw [toNat_resized_shrink held]
            omega
        | expand =>
            rw [toNat_resized_expand held]
            omega
  exact Ledger.fits_between backed room

end Block
end ElasticBatch
