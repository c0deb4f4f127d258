import ElasticBatch.Wire.Varint
import ElasticBatch.Proofs.Wire.Reading
import Mathlib.Algebra.Group.Nat.Defs

/-! The forms of a number. A reader accepts every form that fits its format, for the number that
the form spells. The written form is one of them. -/
namespace ElasticBatch.Wire.Varint

/-- Groups of seven bits, the lowest first. The high bit marks all but the last. High groups may
be zero. -/
inductive Groups : Nat → Bytes → Prop
  | last {b : UInt8} (unmarked : b < 128) : Groups b.toNat [b]
  | more {b : UInt8} {higher : Nat} {rest : Bytes} (marked : 128 ≤ b)
      (follows : Groups higher rest) : Groups (b.toNat % 128 + 128 * higher) (b :: rest)

/-- The groups are not too many, and the last one that there may be is low enough. -/
structure Form (format : VarintFormat) (n : Nat) (piece : Bytes) : Prop where
  groups : Groups n piece
  short : piece.length ≤ format.further + 1
  low : ∀ b ∈ piece[format.further]?, b ≤ format.top

variable {top : UInt8} {further n : Nat} {piece : Bytes}

theorem low_group {b : UInt8} (marked : 128 ≤ b) : b.toNat % 128 = b.toNat - 128 := by
  have least := UInt8.le_iff_toNat_le.mp marked
  have most := b.toNat_lt
  change 128 ≤ b.toNat at least
  omega

theorem form_zero_iff (small : top < 128) :
    Form ⟨0, top⟩ n piece ↔ ∃ b, b ≤ top ∧ n = b.toNat ∧ piece = [b] := by
  constructor
  · rintro ⟨groups, short, low⟩
    cases groups with
    | last unmarked => exact ⟨_, low _ rfl, rfl, rfl⟩
    | more marked follows =>
        have none := List.eq_nil_of_length_eq_zero (Nat.le_zero.mp (Nat.le_of_succ_le_succ short))
        subst none
        cases follows
  · rintro ⟨b, bounded, rfl, rfl⟩
    refine ⟨.last (UInt8.lt_of_le_of_lt bounded small), Nat.le_refl 1, ?_⟩
    rintro other ⟨⟩
    exact bounded

theorem form_succ_iff :
    Form ⟨further + 1, top⟩ n piece ↔
      (∃ b : UInt8, b < 128 ∧ n = b.toNat ∧ piece = [b]) ∨
        ∃ (b : UInt8) (higher : Nat) (rest : Bytes), 128 ≤ b ∧ Form ⟨further, top⟩ higher rest ∧
          n = b.toNat % 128 + 128 * higher ∧ piece = b :: rest := by
  constructor
  · rintro ⟨groups, short, low⟩
    cases groups with
    | last unmarked => exact Or.inl ⟨_, unmarked, rfl, rfl⟩
    | more marked follows =>
        exact Or.inr ⟨_, _, _, marked, ⟨follows, Nat.le_of_succ_le_succ short, low⟩, rfl, rfl⟩
  · rintro (⟨b, unmarked, rfl, rfl⟩ | ⟨b, higher, rest, marked, ⟨groups, short, low⟩, rfl, rfl⟩)
    · exact ⟨.last unmarked, by simp, by simp⟩
    · exact ⟨.more marked groups, Nat.succ_le_succ short, low⟩

theorem readUpTo_zero : readUpTo top 0 = Reader.byte.andThen fun b =>
    if b ≤ top then .pure b.toNat else .refuse .badVarint := by
  funext c
  rw [readUpTo, Reader.andThen, Reader.byte, Reader.orEnd]
  cases c.next? with
  | none => rfl
  | some found =>
      obtain ⟨b, d⟩ := found
      by_cases bounded : b ≤ top <;> simp only [bounded, if_true, if_false] <;> rfl

theorem readUpTo_succ : readUpTo top (further + 1) = Reader.byte.andThen fun b =>
    if b < 128 then .pure b.toNat
    else Reader.andThen (readUpTo top further) fun higher =>
      .pure (b.toNat - 128 + 128 * higher) := by
  funext c
  rw [readUpTo, Reader.andThen, Reader.byte, Reader.orEnd]
  cases c.next? with
  | none => rfl
  | some found =>
      obtain ⟨b, d⟩ := found
      by_cases unmarked : b < 128
      · simp only [unmarked, if_true]
        rfl
      · simp only [unmarked, if_false, Reader.andThen, Reader.pure]
        cases readUpTo top further d <;> rfl

/-- The induction is on the groups that may still follow: the reader and the form take the same one
step. -/
theorem reads_upTo (small : top < 128) (further : Nat) :
    Reads (readUpTo top further) (Form ⟨further, top⟩) := by
  induction further with
  | zero =>
      rw [readUpTo_zero]
      have last (b : UInt8) := (Reads.pure b.toNat).ite (b ≤ top) (.refuse .badVarint)
      refine (Reads.byte.andThen last).congr fun n piece => ?_
      rw [form_zero_iff small]
      constructor
      · rintro ⟨b, head, body, rfl, ⟨bounded, value, rfl⟩ | ⟨-, none⟩, rfl⟩
        · exact ⟨b, bounded, value, rfl⟩
        · exact none.elim
      · rintro ⟨b, bounded, value, rfl⟩
        exact ⟨b, [b], [], rfl, Or.inl ⟨bounded, value, rfl⟩, rfl⟩
  | succ further ih =>
      rw [readUpTo_succ]
      have sum (b : UInt8) := ih.andThen fun higher => .pure (b.toNat - 128 + 128 * higher)
      have next (b : UInt8) := (Reads.pure b.toNat).ite (b < 128) (sum b)
      refine (Reads.byte.andThen next).congr fun n piece => ?_
      rw [form_succ_iff]
      constructor
      · rintro ⟨b, head, body, rfl, ⟨unmarked, value, rfl⟩ |
          ⟨marked, higher, rest, none, form, ⟨value, rfl⟩, rfl⟩, rfl⟩
        · exact Or.inl ⟨b, unmarked, value, rfl⟩
        · have marked := UInt8.not_lt.mp marked
          rw [← low_group marked] at value
          exact Or.inr ⟨b, higher, rest, marked, form, value, by simp⟩
      · rintro (⟨b, unmarked, value, rfl⟩ | ⟨b, higher, rest, marked, form, value, rfl⟩)
        · exact ⟨b, [b], [], rfl, Or.inl ⟨unmarked, value, rfl⟩, rfl⟩
        · rw [low_group marked] at value
          exact ⟨b, [b], rest, rfl, Or.inr ⟨UInt8.not_lt.mpr marked, higher, rest, [], form,
            ⟨value, rfl⟩, (List.append_nil rest).symm⟩, rfl⟩

/-- Every form that fits the format is read, and nothing else is. -/
theorem reads_form (format : VarintFormat) (small : format.top < 128) :
    Reads (read format) (Form format) :=
  reads_upTo small format.further

theorem write_small (small : n < 128) : write n = [UInt8.ofNat n] := by
  rw [write, if_pos small]

theorem write_large (large : ¬ n < 128) :
    write n = UInt8.ofNat (n % 128 + 128) :: write (n / 128) := by
  rw [write, if_neg large]

/-- The written form fits if the format has room for the number at all. -/
theorem form_write (small : top < 128) (room : n < (top.toNat + 1) * 128 ^ further) :
    Form ⟨further, top⟩ n (write n) := by
  have top_small := UInt8.lt_iff_toNat_lt.mp small
  change top.toNat < 128 at top_small
  induction further generalizing n with
  | zero =>
      have value := toNat_last (n := n) (by omega)
      rw [write_small (by omega), form_zero_iff small]
      exact ⟨_, UInt8.le_iff_toNat_le.mpr (by omega), value.symm, rfl⟩
  | succ further ih =>
      rw [form_succ_iff]
      by_cases last : n < 128
      · have value := toNat_last last
        rw [write_small last]
        exact Or.inl ⟨_, UInt8.lt_iff_toNat_lt.mpr (by rw [value]; exact last), value.symm, rfl⟩
      · have value := toNat_group n
        -- what is left of the number has room in one group less
        rw [Nat.pow_succ, ← Nat.mul_assoc] at room
        rw [write_large last]
        refine Or.inr ⟨_, n / 128, _, ?_, ih (Nat.div_lt_of_lt_mul (by omega)), ?_, rfl⟩
        · exact UInt8.le_iff_toNat_le.mpr (by rw [value]; exact Nat.le_add_left 128 _)
        · omega

/-- No form spells more than the format has room for. -/
theorem Form.lt (small : top < 128) (form : Form ⟨further, top⟩ n piece) :
    n < (top.toNat + 1) * 128 ^ further := by
  induction further generalizing n piece with
  | zero =>
      obtain ⟨b, bounded, rfl, -⟩ := (form_zero_iff small).mp form
      have le := UInt8.le_iff_toNat_le.mp bounded
      omega
  | succ further ih =>
      rw [Nat.pow_succ, ← Nat.mul_assoc]
      rcases form_succ_iff.mp form with
        ⟨b, unmarked, rfl, -⟩ | ⟨b, higher, rest, -, follows, rfl, -⟩
      · have less := UInt8.lt_iff_toNat_lt.mp unmarked
        have positive : 0 < (top.toNat + 1) * 128 ^ further :=
          Nat.mul_pos (Nat.succ_pos _) (Nat.pow_pos (by decide))
        change b.toNat < 128 at less
        omega
      · have less := ih follows
        omega

end ElasticBatch.Wire.Varint
