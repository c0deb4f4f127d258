import ElasticBatch.Proofs.Request.Framing
import Mathlib.Algebra.Order.Floor.Div
import Mathlib.Data.Nat.Size

/-! How large a message is. The size follows from the lengths of the buffers by a plain sum, and
with it whether the request can be sent; framing takes between one and ten bytes for each buffer and
for each collection. -/
namespace ElasticBatch

namespace Wire.Varint

/-- The bytes that a number takes: one for every seven binary digits begun, and one for zero. -/
def width (n : Nat) : Nat := max 1 (n.size ⌈/⌉ 7)

/-- To count the groups one by one comes to the same. -/
theorem size_eq_width (n : Nat) : size n = width n := by
  refine eq_of_forall_ge_iff fun bound => ?_
  have binary : (128 : Nat) ^ bound = 2 ^ (7 * bound) := by rw [Nat.pow_mul]
  rw [width, max_le_iff, ceilDiv_le_iff_le_mul (by decide), Nat.size_le, ← binary]
  cases bound with
  | zero =>
      have one := size_pos n
      omega
  | succ groups =>
      rw [size_le_iff]
      exact (and_iff_right (Nat.le_add_left 1 groups)).symm

/-- No number of 64 bits takes more than ten bytes. -/
theorem size_le_ten {n : Nat} (small : n < UInt64.size) : size n ≤ 10 :=
  (size_le_iff n 9).mpr (Nat.lt_of_lt_of_le small (by decide))

end Wire.Varint

namespace Request

open Wire

/-- How long the buffers of each collection are. -/
def lengths (r : Request) (c : Category) : List Nat := (r.get c).map List.length

/-- The size of a message whose collections hold buffers of these lengths. -/
def messageSize (lengths : Category → List Nat) : Nat :=
  (Category.all.map fun c => Varint.width (lengths c).length +
    ((lengths c).map fun length => Varint.width length + length).sum).sum

theorem sectionSize_eq (lengths : List Nat) : sectionSize lengths =
    Varint.width lengths.length +
      (lengths.map fun length => Varint.width length + length).sum := by
  rw [sectionSize, Varint.size_eq_width]
  congr 1
  induction lengths with
  | nil => rfl
  | cons length rest ih =>
      rw [List.foldr_cons, List.map_cons, List.sum_cons, ih, framedSize, Varint.size_eq_width]

theorem encodedSize_eq (r : Request) : r.encodedSize = messageSize r.lengths := by
  rw [encodedSize, sectionSize_eq, sectionSize_eq, sectionSize_eq]
  rfl

/-- Ten bytes are enough for each length and for the count. -/
theorem sectionSize_le_of_small {bs : List Bytes} (few : bs.length < UInt64.size)
    (small : ∀ b ∈ bs, b.length < UInt64.size) :
    sectionSize (bs.map List.length) ≤ bs.flatten.length + 10 * (bs.length + 1) := by
  have framed : (bs.map List.length).foldr (framedSize · + ·) 0 ≤
      bs.flatten.length + 10 * bs.length := by
    clear few
    induction bs with
    | nil => exact Nat.le_refl _
    | cons b rest ih =>
        obtain ⟨here, later⟩ := List.forall_mem_cons.mp small
        have length := Varint.size_le_ten here
        have others := ih later
        simp only [List.map_cons, List.foldr_cons, List.flatten_cons, List.length_append,
          List.length_cons, framedSize] at others ⊢
        omega
  have number := Varint.size_le_ten few
  rw [sectionSize, List.length_map]
  omega

theorem encodedSize_le_of_small {r : Request} (few : ∀ c, (r.get c).length < UInt64.size)
    (small : ∀ b ∈ r.buffers, b.length < UInt64.size) :
    r.encodedSize ≤ r.totalBytes + 10 * (r.count + 3) := by
  have each (c : Category) : sectionSize ((r.get c).map List.length) ≤
      (r.get c).flatten.length + 10 * ((r.get c).length + 1) :=
    sectionSize_le_of_small (few c) fun b member =>
      small b (List.mem_flatMap.mpr ⟨c, Category.mem_all c, member⟩)
  have one := each .binary
  have two := each .insertNode
  have three := each .tablet
  simp only [get] at one two three
  rw [r.totalBytes_eq, r.count_eq, encodedSize]
  omega

/-- The lengths of the buffers say how large the message is and whether it can be sent: it is
refused exactly if it is over the limit, with its size as the cause, and nothing else is ever the
cause. -/
theorem encode_by_size (r : Request) :
    let n := messageSize r.lengths
    (r.encode = .error (.tooLarge n limit) ↔ limit < n) ∧
      (n ≤ limit → ∃ e, r.encode = .ok e ∧ e.length = n) ∧
      (∀ cause, r.encode = .error cause → cause = .tooLarge n limit) ∧
      r.totalBytes + r.count + 3 ≤ n ∧
      ((∀ c, (r.get c).length < UInt64.size) → (∀ b ∈ r.buffers, b.length < UInt64.size) →
        n ≤ r.totalBytes + 10 * (r.count + 3)) := by
  intro n
  have size : r.encodedSize = n := r.encodedSize_eq
  have refused (long : limit < n) : r.encode = .error (.tooLarge n limit) := by
    rw [encode, checkSize, size, if_pos long]
    rfl
  have sent (short : n ≤ limit) : r.encode = .ok r.layout :=
    encode_eq_ok_iff.mpr ⟨rfl, by rwa [length_layout, size]⟩
  refine ⟨⟨fun error => ?_, refused⟩, fun short => ⟨_, sent short, ?_⟩, fun cause error => ?_,
    ?_, ?_⟩
  · refine Nat.lt_of_not_le fun short => ?_
    cases (sent short).symm.trans error
  · rw [length_layout, size]
  · rcases Nat.lt_or_ge limit n with long | short
    · exact Except.error.inj (error.symm.trans (refused long))
    · cases (sent short).symm.trans error
  · exact size ▸ r.le_encodedSize
  · exact fun few small => size ▸ encodedSize_le_of_small few small

/-- One buffer and nothing else. -/
def lone (length : Nat) : Request := ⟨[List.replicate length 0], [], []⟩

theorem messageSize_lone (length : Nat) :
    messageSize (lone length).lengths = Varint.size length + length + 3 := by
  have uniform := uniformSize_eq 1 (List.replicate length 0)
  have zero : Varint.size 0 = 1 := by cbv
  have one : Varint.size 1 = 1 := by cbv
  rw [List.length_replicate] at uniform
  rw [← encodedSize_eq, lone, ← List.replicate_one, ← uniform]
  simp only [uniformSize, framedSize, sectionSize, List.length_nil, List.foldr_nil, zero, one]
  omega

/-- A buffer that just fits takes its message to the limit; with one byte more the message is
refused. -/
theorem lone_at_limit :
    (∃ e, (lone 268435449).encode = .ok e ∧ e.length = limit) ∧
      (lone 268435450).encode = .error (.tooLarge (limit + 1) limit) ∧
      limit + 1 ≤ (lone 268435450).totalBytes + 10 * ((lone 268435450).count + 3) := by
  have four (length : Nat) (least : 128 ^ 3 ≤ length) (most : length < 128 ^ 4) :
      Varint.size length = 4 := by
    have upper := (Varint.size_le_iff length 3).mpr most
    have lower := mt (Varint.size_le_iff length 2).mp (Nat.not_lt.mpr least)
    omega
  have fits : messageSize (lone 268435449).lengths = limit := by
    rw [messageSize_lone, four _ (by decide) (by decide)]
    rfl
  have exceeds : messageSize (lone 268435450).lengths = limit + 1 := by
    rw [messageSize_lone, four _ (by decide) (by decide)]
    rfl
  have sent := (encode_by_size (lone 268435449)).2.1
  obtain ⟨refused, -, -, -, bounded⟩ := encode_by_size (lone 268435450)
  rw [fits] at sent
  rw [exceeds] at refused bounded
  refine ⟨sent (Nat.le_refl _), refused.mpr (Nat.lt_succ_self _), bounded ?_ ?_⟩
  · intro c
    cases c <;> decide
  · intro b member
    rw [buffers_eq] at member
    cases List.mem_singleton.mp member
    rw [List.length_replicate]
    decide

end Request
end ElasticBatch
