import ElasticBatch.Proofs.Request.Grammar

/-! What is sent comes back. The written form of a request is one of its layouts, and so it is read
as that request, whatever follows it. -/
namespace ElasticBatch.Request

open Wire

theorem number_write {n : Nat} (room : n < 2 ^ 64) : Number n (Varint.write n) :=
  Varint.form_write (by decide) room

/-- Even an empty buffer takes a byte. -/
theorem length_le_flatMap (bs : List Bytes) : bs.length ≤ (bs.flatMap writeBuffer).length := by
  induction bs with
  | nil => exact Nat.le_refl 0
  | cons b rest ih =>
      have one := Varint.size_pos b.length
      rw [List.flatMap_cons, List.length_append, length_writeBuffer, framedSize, List.length_cons]
      omega

theorem framed_flatMap {bs : List Bytes} (room : (bs.flatMap writeBuffer).length < 2 ^ 64) :
    Framed bs (bs.flatMap writeBuffer) := by
  induction bs with
  | nil => exact .nil
  | cons b rest ih =>
      rw [List.flatMap_cons, List.length_append, length_writeBuffer, framedSize] at room
      rw [List.flatMap_cons, writeBuffer, List.append_assoc]
      exact .cons (number_write (by omega)) (ih (by omega))

theorem section_writeSection {bs : List Bytes} (room : (writeSection bs).length < 2 ^ 64) :
    Section bs (writeSection bs) := by
  have count := length_le_flatMap bs
  rw [writeSection, List.length_append] at room
  exact .mk (number_write (by omega)) (framed_flatMap (by omega))

theorem layout_of_room {r : Request} (room : r.layout.length < 2 ^ 64) : r.Layout r.layout := by
  unfold layout at room ⊢
  rw [List.length_append, List.length_append] at room
  exact ⟨_, _, _, section_writeSection (by omega), section_writeSection (by omega),
    section_writeSection (by omega), (List.append_assoc _ _ _).symm⟩

theorem encode_eq_ok_iff {r : Request} {e : Bytes} :
    r.encode = .ok e ↔ e = r.layout ∧ e.length ≤ limit := by
  unfold encode checkSize
  rw [← length_layout]
  by_cases long : limit < r.layout.length
  · rw [if_pos long]
    constructor
    · rintro ⟨⟩
    · rintro ⟨rfl, short⟩
      exact absurd long (Nat.not_lt.mpr short)
  · rw [if_neg long]
    constructor
    · rintro ⟨⟩
      exact ⟨rfl, Nat.not_lt.mp long⟩
    · rintro ⟨rfl, -⟩
      rfl

theorem opens_written {r : Request} {e : Bytes} (written : r.encode = .ok e) (tail : Bytes) :
    r.Opens (e ++ tail).toByteArray := by
  obtain ⟨rfl, short⟩ := encode_eq_ok_iff.mp written
  -- the limit keeps every count and length far below what a number has room for
  have room : r.layout.length < 2 ^ 64 := Nat.lt_of_le_of_lt short (by decide)
  exact ⟨r.layout, tail, layout_of_room room, by simp⟩

/-- An encoding is within the limit of what is accepted, and it is read back as its request as long
as what follows stays within that limit. No other request has that encoding. -/
theorem decode_encode {r : Request} {e : Bytes} (written : r.encode = .ok e) :
    e.length ≤ limit ∧
      (∀ tail : Bytes, e.length + tail.length ≤ limit →
        decode (e ++ tail).toByteArray = .ok r) ∧
      ∀ other : Request, other.encode = .ok e → other = r := by
  have short := (encode_eq_ok_iff.mp written).2
  have back (tail : Bytes) (fits : e.length + tail.length ≤ limit) {q : Request}
      (same : q.encode = .ok e) : decode (e ++ tail).toByteArray = .ok q :=
    decode_of_opens (by simpa using fits) (opens_written same tail)
  refine ⟨short, fun tail fits => back tail fits written, fun other same => ?_⟩
  -- both requests are what the bare encoding is read as
  have one := back [] (by simpa using short) same
  have two := back [] (by simpa using short) written
  exact Except.ok.inj (one.symm.trans two)

/-- A buffer whose length takes two groups, an empty one, an empty collection, and one byte. -/
def assorted : Request := ⟨[List.replicate 130 7, []], [], [[1]]⟩

/-- What follows the encoding looks like more of it. -/
theorem assorted_comes_back :
    assorted.encode = .ok assorted.layout ∧
      decode (assorted.layout ++ [1, 0, 255]).toByteArray = .ok assorted := by
  have size : assorted.layout.length = 138 := by
    rw [length_layout]
    cbv
  have written : assorted.encode = .ok assorted.layout :=
    encode_eq_ok_iff.mpr ⟨rfl, by rw [size]; decide⟩
  exact ⟨written, (decode_encode written).2.1 [1, 0, 255] (by rw [size]; decide)⟩

end ElasticBatch.Request
