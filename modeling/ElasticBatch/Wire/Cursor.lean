/-! A reading position in a packed message. `rest` is what lies ahead as a plain list; every
operation is described through it. -/
namespace ElasticBatch

abbrev Bytes := List UInt8

namespace Wire

structure Cursor where
  message : ByteArray
  position : Nat

namespace Cursor

def start (message : ByteArray) : Cursor := ⟨message, 0⟩

def rest (c : Cursor) : Bytes := c.message.data.toList.drop c.position

def remaining (c : Cursor) : Nat := c.message.size - c.position

def next? (c : Cursor) : Option (UInt8 × Cursor) :=
  if h : c.position < c.message.size then
    some (c.message.get c.position h, { c with position := c.position + 1 })
  else none

/-- The next `n` bytes, if that many are left. -/
def take? (c : Cursor) (n : Nat) : Option (Bytes × Cursor) :=
  if n ≤ c.remaining then
    some ((c.message.extract c.position (c.position + n)).data.toList,
      { c with position := c.position + n })
  else none

theorem rest_start (message : ByteArray) : (start message).rest = message.data.toList := rfl

theorem length_rest (c : Cursor) : c.rest.length = c.remaining := by
  simp only [rest, remaining, List.length_drop, Array.length_toList, ByteArray.size_data]

theorem next?_eq_none_iff (c : Cursor) : c.next? = none ↔ c.rest = [] := by
  rw [← List.length_eq_zero_iff, length_rest, remaining]
  unfold next?
  by_cases inside : c.position < c.message.size
  · rw [dif_pos inside]
    exact iff_of_false (Option.some_ne_none _) (by omega)
  · rw [dif_neg inside]
    exact iff_of_true rfl (by omega)

theorem rest_of_next? {c d : Cursor} {b : UInt8} (h : c.next? = some (b, d)) :
    c.rest = b :: d.rest := by
  unfold next? at h
  by_cases inside : c.position < c.message.size
  · rw [dif_pos inside] at h
    cases h
    exact List.drop_eq_getElem_cons inside
  · rw [dif_neg inside] at h
    cases h

theorem take?_eq_none_iff (c : Cursor) (n : Nat) : c.take? n = none ↔ c.rest.length < n := by
  unfold take?
  rw [length_rest]
  split
  · next h => simp only [reduceCtorEq, false_iff]; omega
  · next h => simp only [true_iff]; omega

theorem rest_of_take? {c d : Cursor} {n : Nat} {bytes : Bytes} (h : c.take? n = some (bytes, d)) :
    bytes.length = n ∧ c.rest = bytes ++ d.rest := by
  unfold take? at h
  split at h
  · next inside =>
      cases h
      have window :
          (c.message.extract c.position (c.position + n)).data.toList = c.rest.take n := by
        simp [rest, ByteArray.data_extract, List.extract_eq_take_drop]
      constructor
      · rw [window, List.length_take, length_rest]
        omega
      · rw [window]
        simp only [rest, ← List.drop_drop, List.take_append_drop]
  · cases h

end Cursor
end Wire
end ElasticBatch
