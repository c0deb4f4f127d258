import ElasticBatch.Proofs.Request.RoundTrip

/-! How much framing adds to the payload. A number is no longer than itself, so the length before a
buffer at most doubles what is not empty, and the three counts take five bytes each at most. -/
namespace ElasticBatch

namespace Wire.Varint

/-- One byte for each seven bits. -/
theorem size_le_iff (n groups : Nat) : size n ≤ groups + 1 ↔ n < 128 ^ (groups + 1) := by
  induction groups generalizing n with
  | zero =>
      have rest := size_pos (n / 128)
      rw [size]
      split <;> omega
  | succ groups ih =>
      have room : 128 ^ (groups + 2) = 128 ^ (groups + 1) * 128 := Nat.pow_succ ..
      have positive : 0 < 128 ^ (groups + 1) := Nat.pow_pos (by decide)
      have rest := ih (n / 128)
      rw [Nat.div_lt_iff_lt_mul (by decide)] at rest
      rw [size, room]
      split <;> omega

theorem size_le_self {n : Nat} (positive : 0 < n) : size n ≤ n := by
  induction n using Nat.strongRecOn with
  | ind n ih =>
      rw [size]
      split
      · exact positive
      · have rest := ih (n / 128) (by omega) (by omega)
        omega

end Wire.Varint

namespace Request

open Wire

theorem totalBytes_eq (r : Request) : r.totalBytes =
    r.binary.flatten.length + (r.insertNode.flatten.length + r.tablet.flatten.length) := by
  simp only [totalBytes, buffers_eq, List.append_nil, List.flatten_append, List.length_append]

theorem count_eq (r : Request) :
    r.count = r.binary.length + (r.insertNode.length + r.tablet.length) := by
  simp only [count, buffers_eq, List.append_nil, List.length_append]

/-- Framing takes a byte for each buffer, even an empty one, and a byte for their number. -/
theorem le_sectionSize (bs : List Bytes) :
    bs.flatten.length + bs.length + 1 ≤ sectionSize (bs.map List.length) := by
  have framed : bs.flatten.length + bs.length ≤
      (bs.map List.length).foldr (framedSize · + ·) 0 := by
    induction bs with
    | nil => exact Nat.le_refl _
    | cons b rest ih =>
        have one := Varint.size_pos b.length
        simp only [List.map_cons, List.foldr_cons, List.flatten_cons, List.length_append,
          List.length_cons, framedSize] at ih ⊢
        omega
  have number := Varint.size_pos bs.length
  rw [sectionSize, List.length_map]
  omega

theorem le_encodedSize (r : Request) : r.totalBytes + r.count + 3 ≤ r.encodedSize := by
  have one := le_sectionSize r.binary
  have two := le_sectionSize r.insertNode
  have three := le_sectionSize r.tablet
  rw [r.totalBytes_eq, r.count_eq, encodedSize]
  omega

theorem sectionSize_le {bs : List Bytes} (full : ∀ b ∈ bs, b ≠ []) :
    sectionSize (bs.map List.length) ≤ Varint.size bs.length + 2 * bs.flatten.length ∧
      bs.length ≤ bs.flatten.length := by
  rw [sectionSize, List.length_map]
  induction bs with
  | nil => exact ⟨Nat.le_refl _, Nat.le_refl _⟩
  | cons b rest ih =>
      obtain ⟨here, later⟩ := List.forall_mem_cons.mp full
      have positive := List.length_pos_iff.mpr here
      have framed := Varint.size_le_self positive
      obtain ⟨size, count⟩ := ih later
      simp only [List.map_cons, List.foldr_cons, List.flatten_cons, List.length_append,
        List.length_cons, framedSize] at size ⊢
      omega

/-- Twice the payload and five bytes for each count are enough, if no buffer is empty. -/
theorem encodedSize_le {r : Request} (full : ∀ b ∈ r.buffers, b ≠ [])
    (small : r.totalBytes < 128 ^ 5) : r.encodedSize ≤ 2 * r.totalBytes + 15 := by
  rw [buffers_eq, List.append_nil] at full
  obtain ⟨binary, others⟩ := List.forall_mem_append.mp full
  obtain ⟨insertNode, tablet⟩ := List.forall_mem_append.mp others
  have total := r.totalBytes_eq
  obtain ⟨one, few⟩ := sectionSize_le binary
  obtain ⟨two, fewer⟩ := sectionSize_le insertNode
  obtain ⟨three, fewest⟩ := sectionSize_le tablet
  have first := (Varint.size_le_iff r.binary.length 4).mpr (by omega)
  have second := (Varint.size_le_iff r.insertNode.length 4).mpr (by omega)
  have third := (Varint.size_le_iff r.tablet.length 4).mpr (by omega)
  rw [encodedSize]
  omega

/-- A request with half the limit for its payload can be sent, and arrives as it was. -/
theorem sendable {r : Request} (full : ∀ b ∈ r.buffers, b ≠ [])
    (small : r.totalBytes ≤ (limit - 15) / 2) :
    ∃ e, r.encode = .ok e ∧ decode e.toByteArray = .ok r := by
  have room : (limit - 15) / 2 < 128 ^ 5 := by decide
  have twice : 2 * ((limit - 15) / 2) + 15 ≤ limit := by decide
  have size := encodedSize_le full (Nat.lt_of_le_of_lt small room)
  have fits : r.layout.length ≤ limit := by
    rw [length_layout]
    omega
  have written : r.encode = .ok r.layout := encode_eq_ok_iff.mpr ⟨rfl, fits⟩
  have opens := opens_written written []
  rw [List.append_nil] at opens
  exact ⟨r.layout, written, decode_of_opens (by simpa using fits) opens⟩

end Request
end ElasticBatch
