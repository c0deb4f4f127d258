import ElasticBatch.Wire.Cursor
import ElasticBatch.Wire.Fault

/-! What it means for a reader to accept a format: it takes exactly the pieces of input that the
format allows, each for its value, and leaves the rest alone. Formats that follow one another are
accepted by readers that do. -/
namespace ElasticBatch.Wire

theorem Cursor.next?_of_rest {c : Cursor} {b : UInt8} {tail : Bytes} (ahead : c.rest = b :: tail) :
    ∃ d, c.next? = some (b, d) ∧ d.rest = tail := by
  cases found : c.next? with
  | none =>
      rw [(c.next?_eq_none_iff).mp found] at ahead
      cases ahead
  | some next =>
      obtain ⟨first, d⟩ := next
      rw [rest_of_next? found] at ahead
      obtain ⟨rfl, rfl⟩ := List.cons.inj ahead
      exact ⟨d, rfl, rfl⟩

theorem Cursor.take?_of_rest {c : Cursor} {bytes tail : Bytes} (ahead : c.rest = bytes ++ tail) :
    ∃ d, c.take? bytes.length = some (bytes, d) ∧ d.rest = tail := by
  cases found : c.take? bytes.length with
  | none =>
      have short := (c.take?_eq_none_iff bytes.length).mp found
      rw [ahead, List.length_append] at short
      omega
  | some taken =>
      obtain ⟨window, d⟩ := taken
      obtain ⟨size, rest⟩ := rest_of_take? found
      obtain ⟨rfl, rfl⟩ := List.append_inj (rest.symm.trans ahead) size
      exact ⟨d, rfl, rfl⟩

/-- Gives a value and the position behind it. -/
abbrev Reader (α : Type) : Type := Cursor → Except Fault (α × Cursor)

variable {α β : Type}

/-- Sound: what was taken spells the value. Complete: what spells a value is taken for it, and no
more. -/
structure Reads (read : Reader α) (format : α → Bytes → Prop) : Prop where
  sound {c d : Cursor} {a : α} (accepted : read c = .ok (a, d)) :
    ∃ piece, format a piece ∧ c.rest = piece ++ d.rest
  complete {c : Cursor} {a : α} {piece tail : Bytes} (allowed : format a piece)
    (ahead : c.rest = piece ++ tail) : ∃ d, read c = .ok (a, d) ∧ d.rest = tail

namespace Reader

/-- Reads nothing. -/
def pure (a : α) : Reader α := fun c => .ok (a, c)

def refuse (fault : Fault) : Reader α := fun _ => .error fault

/-- Where nothing is found, the input has ended too soon. -/
def orEnd (find : Cursor → Option (α × Cursor)) : Reader α := fun c =>
  match find c with
  | some found => .ok found
  | none => .error .unexpectedEnd

def byte : Reader UInt8 := orEnd Cursor.next?

def take (count : Nat) : Reader Bytes := orEnd fun c => c.take? count

/-- What comes second may depend on what came first. -/
def andThen (first : Reader α) (second : α → Reader β) : Reader β := fun c =>
  match first c with
  | .error fault => .error fault
  | .ok (a, d) => second a d

theorem orEnd_eq_ok_iff {find : Cursor → Option (α × Cursor)} {c : Cursor} {found : α × Cursor} :
    orEnd find c = .ok found ↔ find c = some found := by
  rw [orEnd]
  cases find c <;> simp

theorem andThen_apply (first : Reader α) (second : α → Reader β) (c : Cursor) :
    first.andThen second c = first c >>= fun found => second found.1 found.2 := by
  rw [andThen]
  cases first c <;> rfl

end Reader

namespace Reads

theorem pure (a : α) : Reads (Reader.pure a) fun b piece => b = a ∧ piece = [] where
  sound accepted := by
    cases accepted
    exact ⟨[], ⟨rfl, rfl⟩, rfl⟩
  complete {c} _ _ _ allowed ahead := by
    obtain ⟨rfl, rfl⟩ := allowed
    exact ⟨c, rfl, ahead⟩

theorem refuse (fault : Fault) : Reads (Reader.refuse (α := α) fault) fun _ _ => False where
  sound accepted := by cases accepted
  complete allowed := allowed.elim

theorem byte : Reads Reader.byte fun b piece => piece = [b] where
  sound {_ _} b accepted := by
    have found := Reader.orEnd_eq_ok_iff.mp accepted
    exact ⟨[b], rfl, Cursor.rest_of_next? found⟩
  complete allowed ahead := by
    subst allowed
    obtain ⟨d, found, rest⟩ := Cursor.next?_of_rest ahead
    exact ⟨d, Reader.orEnd_eq_ok_iff.mpr found, rest⟩

theorem take (count : Nat) :
    Reads (Reader.take count) fun bytes piece => bytes.length = count ∧ piece = bytes where
  sound {_ _} bytes accepted := by
    have found := Reader.orEnd_eq_ok_iff.mp accepted
    obtain ⟨size, rest⟩ := Cursor.rest_of_take? found
    exact ⟨bytes, ⟨size, rfl⟩, rest⟩
  complete allowed ahead := by
    obtain ⟨rfl, rfl⟩ := allowed
    obtain ⟨d, found, rest⟩ := Cursor.take?_of_rest ahead
    exact ⟨d, Reader.orEnd_eq_ok_iff.mpr found, rest⟩

theorem andThen {first : Reader α} {second : α → Reader β} {one : α → Bytes → Prop}
    {two : α → β → Bytes → Prop} (h : Reads first one) (k : ∀ a, Reads (second a) (two a)) :
    Reads (first.andThen second) fun b piece =>
      ∃ a head body, one a head ∧ two a b body ∧ piece = head ++ body where
  sound {c} d b accepted := by
    unfold Reader.andThen at accepted
    split at accepted
    · cases accepted
    · next a middle found =>
        obtain ⟨head, spelled, before⟩ := h.sound found
        obtain ⟨body, follows, behind⟩ := (k a).sound accepted
        exact ⟨head ++ body, ⟨a, head, body, spelled, follows, rfl⟩, by
          rw [before, behind, List.append_assoc]⟩
  complete allowed ahead := by
    obtain ⟨a, head, body, spelled, follows, rfl⟩ := allowed
    rw [List.append_assoc] at ahead
    obtain ⟨middle, found, before⟩ := h.complete spelled ahead
    obtain ⟨d, last, behind⟩ := (k a).complete follows before
    exact ⟨d, by rw [Reader.andThen, found]; exact last, behind⟩

/-- A reader that is chosen by a condition. -/
theorem ite {first second : Reader α} {one two : α → Bytes → Prop} (p : Prop) [Decidable p]
    (h : Reads first one) (k : Reads second two) :
    Reads (if p then first else second) fun a piece =>
      (p ∧ one a piece) ∨ (¬ p ∧ two a piece) := by
  by_cases chosen : p
  · simpa only [chosen, if_true, true_and, not_true, false_and, or_false] using h
  · simpa only [chosen, if_false, false_and, not_false_iff, true_and, false_or] using k

/-- Two descriptions of one format. -/
theorem congr {read : Reader α} {one two : α → Bytes → Prop} (h : Reads read one)
    (same : ∀ a piece, one a piece ↔ two a piece) : Reads read two where
  sound accepted := by
    obtain ⟨piece, allowed, rest⟩ := h.sound accepted
    exact ⟨piece, (same _ piece).mp allowed, rest⟩
  complete allowed ahead := h.complete ((same _ _).mpr allowed) ahead

end Reads
end ElasticBatch.Wire
