import ElasticBatch.Numeral
import ElasticBatch.Text.Blank
import Mathlib.Data.List.TakeWhile

/-! What numerals spell. Digits are worth what they are in decimal, however many stand in front; a
reader with a bound takes exactly the numerals of numbers below it, and blanks around one are of no
account. -/
namespace ElasticBatch

namespace Numeral

/-- An optional plus sign and at least one digit, which have this value in decimal. -/
def Spells (s : List Char) (n : Nat) : Prop :=
  ∃ digits, (s = digits ∨ s = '+' :: digits) ∧ digits ≠ [] ∧
    (∀ c ∈ digits, c.isDigit = true) ∧ Nat.ofDigitChars 10 digits 0 = n

theorem digit?_of_isDigit {c : Char} (h : c.isDigit = true) :
    digit? c = some (c.toNat - '0'.toNat) := by
  rw [Char.isDigit, Bool.and_eq_true, decide_eq_true_iff, decide_eq_true_iff] at h
  exact if_pos h

theorem digit?_of_not_isDigit {c : Char} (h : ¬ c.isDigit = true) : digit? c = none := by
  rw [Char.isDigit, Bool.and_eq_true, decide_eq_true_iff, decide_eq_true_iff] at h
  exact if_neg h

/-- Further digits make no number smaller. -/
theorem le_ofDigitChars (value : Nat) (digits : List Char) :
    value ≤ Nat.ofDigitChars 10 digits value := by
  induction digits generalizing value with
  | nil => exact Nat.le_refl value
  | cons c rest ih =>
      rw [Nat.ofDigitChars_cons]
      exact Nat.le_trans (by omega) (ih _)

/-- No digit takes a number below the bound that was not below it before. -/
theorem readFrom_eq_ok_iff {bound value n : Nat} (start : value < bound) (digits : List Char) :
    readFrom bound value digits = .ok n ↔
      (∀ c ∈ digits, c.isDigit = true) ∧ Nat.ofDigitChars 10 digits value = n ∧ n < bound := by
  induction digits generalizing value with
  | nil =>
      constructor
      · rintro ⟨⟩
        exact ⟨by simp, rfl, start⟩
      · rintro ⟨-, rfl, -⟩
        rfl
  | cons c rest ih =>
      rw [List.forall_mem_cons, Nat.ofDigitChars_cons, readFrom]
      by_cases decimal : c.isDigit = true
      · rw [digit?_of_isDigit decimal]
        by_cases small : 10 * value + (c.toNat - '0'.toNat) < bound
        · simp only [if_pos small, ih small, decimal, true_and]
        · simp only [if_neg small, reduceCtorEq, false_iff]
          rintro ⟨-, rfl, below⟩
          exact small (Nat.lt_of_le_of_lt (le_ofDigitChars _ rest) below)
      · simp only [digit?_of_not_isDigit decimal, decimal, reduceCtorEq, false_and]

theorem spells_signed {digits : List Char} {n : Nat} :
    Spells ('+' :: digits) n ↔ digits ≠ [] ∧
      (∀ c ∈ digits, c.isDigit = true) ∧ Nat.ofDigitChars 10 digits 0 = n := by
  constructor
  · rintro ⟨others, rfl | same, spelled⟩
    · have sign : '+'.isDigit = true := spelled.2.1 '+' List.mem_cons_self
      exact absurd sign (by decide)
    · obtain ⟨-, rfl⟩ := List.cons.inj same
      exact spelled
  · intro spelled
    exact ⟨digits, Or.inr rfl, spelled⟩

theorem spells_unsigned {s : List Char} {n : Nat} (unsigned : ∀ digits, s ≠ '+' :: digits) :
    Spells s n ↔ s ≠ [] ∧ (∀ c ∈ s, c.isDigit = true) ∧ Nat.ofDigitChars 10 s 0 = n := by
  constructor
  · rintro ⟨digits, rfl | same, spelled⟩
    · exact spelled
    · exact absurd same (unsigned digits)
  · intro spelled
    exact ⟨s, Or.inl rfl, spelled⟩

/-- Read are the numerals of the numbers below the bound, and nothing else is. -/
theorem read_eq_ok_iff {bound n : Nat} (positive : 0 < bound) (s : List Char) :
    read bound s = .ok n ↔ Spells s n ∧ n < bound := by
  unfold read
  split
  · simp [spells_unsigned]
  · simp [spells_signed]
  · next digits some =>
      rw [spells_signed, readFrom_eq_ok_iff positive, and_assoc, and_assoc]
      exact (and_iff_right some).symm
  · next some _ unsigned =>
      rw [spells_unsigned unsigned, readFrom_eq_ok_iff positive, and_assoc, and_assoc]
      exact (and_iff_right some).symm

theorem spells_toString (n : Nat) : Spells (toString n).toList n := by
  rw [Nat.toString_eq_repr, Nat.toList_repr]
  exact ⟨_, Or.inl rfl, Nat.toDigits_ne_nil,
    fun c => Nat.isDigit_of_mem_toDigits (by decide) (by decide), Nat.ofDigitChars_ten_toDigits⟩

end Numeral

namespace Text

/-- Blanks and nothing else around it. -/
def Padded (s core : List Char) : Prop :=
  ∃ before after, s = before ++ (core ++ after) ∧ (∀ c ∈ before, isBlank c = true) ∧
    ∀ c ∈ after, isBlank c = true

theorem padded_trim (s : List Char) : Padded s (trim s) := by
  refine ⟨s.takeWhile isBlank, ((s.dropWhile isBlank).reverse.takeWhile isBlank).reverse, ?_,
    fun c => List.mem_takeWhile_imp,
    fun c member => List.mem_takeWhile_imp (List.mem_reverse.mp member)⟩
  rw [trim, ← List.reverse_append, List.takeWhile_append_dropWhile, List.reverse_reverse,
    List.takeWhile_append_dropWhile]

theorem dropWhile_of_solid {s : List Char} (solid : ∀ c ∈ s, isBlank c = false) :
    s.dropWhile isBlank = s := by
  cases s with
  | nil => rfl
  | cons c rest =>
      exact List.dropWhile_cons_of_neg (Bool.eq_false_iff.mp (solid c List.mem_cons_self))

/-- What has no blanks itself is all that trimming leaves. -/
theorem trim_of_padded {s core : List Char} (h : Padded s core)
    (solid : ∀ c ∈ core, isBlank c = false) : trim s = core := by
  obtain ⟨before, after, rfl, first, last⟩ := h
  rw [trim, List.dropWhile_append_of_pos first, List.dropWhile_append, dropWhile_of_solid solid]
  cases core with
  | nil =>
      rw [List.dropWhile_eq_nil_iff.mpr last]
      rfl
  | cons c rest =>
      have backwards : ∀ c ∈ after.reverse, isBlank c = true :=
        fun c member => last c (List.mem_reverse.mp member)
      have turned : ∀ d ∈ (c :: rest).reverse, isBlank d = false :=
        fun d member => solid d (List.mem_reverse.mp member)
      rw [List.isEmpty_cons, if_neg Bool.false_ne_true, List.reverse_append,
        List.dropWhile_append_of_pos backwards, dropWhile_of_solid turned, List.reverse_reverse]

end Text

namespace Numeral

/-- A numeral, and blanks around it. -/
def SpellsTrimmed (s : List Char) (n : Nat) : Prop := ∃ core, Text.Padded s core ∧ Spells core n

/-- No sign and no digit is a blank. -/
theorem Spells.solid {s : List Char} {n : Nat} (h : Spells s n) :
    ∀ c ∈ s, Text.isBlank c = false := by
  have decimal {c : Char} (digit : c.isDigit = true) : Text.isBlank c = false := by
    have none : Text.blanks.all (!·.isDigit) = true := by decide
    refine Bool.eq_false_iff.mpr fun blank => ?_
    have other := List.all_eq_true.mp none c (List.contains_iff_mem.mp blank)
    rw [digit] at other
    cases other
  obtain ⟨digits, form, -, all, -⟩ := h
  rcases form with rfl | rfl
  · exact fun c member => decimal (all c member)
  · exact List.forall_mem_cons.mpr ⟨by decide, fun c member => decimal (all c member)⟩

theorem read_trim_eq_ok_iff {bound n : Nat} (positive : 0 < bound) (s : List Char) :
    read bound (Text.trim s) = .ok n ↔ SpellsTrimmed s n ∧ n < bound := by
  rw [read_eq_ok_iff positive]
  refine and_congr_left fun _ => ⟨fun spelled => ⟨_, Text.padded_trim s, spelled⟩, ?_⟩
  rintro ⟨core, padded, spelled⟩
  rw [Text.trim_of_padded padded spelled.solid]
  exact spelled

theorem Spells.trimmed {s : List Char} {n : Nat} (h : Spells s n) : SpellsTrimmed s n :=
  ⟨s, ⟨[], [], (List.append_nil s).symm, by simp, by simp⟩, h⟩

end Numeral
end ElasticBatch
