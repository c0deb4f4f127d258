import ElasticBatch.Proofs.Wire.Varint

/-! What the fault of a reader tells. Either the input has ended within a piece of the format, so
that more input would be accepted, or the input is wrong, and nothing that follows can mend it. -/
namespace ElasticBatch.Wire

theorem Cursor.exists_rest (ahead : Bytes) : ∃ c : Cursor, c.rest = ahead :=
  ⟨start ahead.toByteArray, by simp [rest_start]⟩

variable {α β : Type}

theorem Reader.orEnd_eq_error_iff {find : Cursor → Option (α × Cursor)} {c : Cursor}
    {fault : Fault} : orEnd find c = .error fault ↔ find c = none ∧ fault = .unexpectedEnd := by
  rw [orEnd]
  cases find c <;> simp [eq_comm]

/-- An input opens with at most one piece of a format that can be read. -/
theorem Reads.unique {read : Reader α} {format : α → Bytes → Prop} (h : Reads read format)
    {a b : α} {p q s t : Bytes} (one : format a p) (two : format b q) (same : p ++ s = q ++ t) :
    a = b ∧ s = t := by
  obtain ⟨c, ahead⟩ := Cursor.exists_rest (p ++ s)
  obtain ⟨d, found, rest⟩ := h.complete one ahead
  obtain ⟨e, again, left⟩ := h.complete two (ahead.trans same)
  rw [found] at again
  cases again
  exact ⟨rfl, rest.symm.trans left⟩

/-- A reader has one format only. -/
theorem Reads.format_eq {read : Reader α} {one two : α → Bytes → Prop} (h : Reads read one)
    (k : Reads read two) : one = two := by
  have within {one two : α → Bytes → Prop} (h : Reads read one) (k : Reads read two) {a : α}
      {piece : Bytes} (allowed : one a piece) : two a piece := by
    obtain ⟨c, ahead⟩ := Cursor.exists_rest piece
    obtain ⟨d, found, empty⟩ := h.complete allowed (ahead.trans (List.append_nil piece).symm)
    obtain ⟨taken, also, rest⟩ := k.sound found
    rw [ahead, empty, List.append_nil] at rest
    exact rest ▸ also
  funext a piece
  exact propext ⟨within h k, within k h⟩

/-- No continuation of the input opens with a piece of the format. -/
def Barred (format : α → Bytes → Prop) (input : Bytes) : Prop :=
  ∀ a piece tail more, format a piece → input ++ more ≠ piece ++ tail

/-- What it refuses, the reader tells apart: an input that has ended too soon, and one that is
barred. -/
structure Tells (read : Reader α) (format : α → Bytes → Prop) : Prop extends
    Reads read format where
  possible : ∃ a piece, format a piece
  ended {c : Cursor} (refused : read c = .error .unexpectedEnd) :
    ∃ a more, format a (c.rest ++ more)
  broken {c : Cursor} {fault : Fault} (refused : read c = .error fault)
    (wrong : fault ≠ .unexpectedEnd) : fault = .badVarint ∧ Barred format c.rest

namespace Tells

theorem pure (a : α) : Tells (Reader.pure a) fun b piece => b = a ∧ piece = [] where
  toReads := .pure a
  possible := ⟨a, [], rfl, rfl⟩
  ended refused := by cases refused
  broken refused := by cases refused

/-- Any bytes will do to fill up what is missing. -/
theorem take (count : Nat) :
    Tells (Reader.take count) fun bytes piece => bytes.length = count ∧ piece = bytes where
  toReads := .take count
  possible := ⟨List.replicate count 0, _, List.length_replicate, rfl⟩
  ended {c} refused := by
    obtain ⟨missing, -⟩ := Reader.orEnd_eq_error_iff.mp refused
    have short := (c.take?_eq_none_iff count).mp missing
    refine ⟨_, List.replicate (count - c.rest.length) 0, ?_, rfl⟩
    rw [List.length_append, List.length_replicate]
    omega
  broken refused wrong := absurd (Reader.orEnd_eq_error_iff.mp refused).2 wrong

/-- To mend an input that ended within the first piece, the second is made up. An input that is
barred by the second stays so, since the first piece is the only one that it opens with. -/
theorem andThen {first : Reader α} {second : α → Reader β} {one : α → Bytes → Prop}
    {two : α → β → Bytes → Prop} (h : Tells first one) (k : ∀ a, Tells (second a) (two a)) :
    Tells (first.andThen second) fun b piece =>
      ∃ a head body, one a head ∧ two a b body ∧ piece = head ++ body where
  toReads := h.toReads.andThen fun a => (k a).toReads
  possible := by
    obtain ⟨a, head, spelled⟩ := h.possible
    obtain ⟨b, body, follows⟩ := (k a).possible
    exact ⟨b, head ++ body, a, head, body, spelled, follows, rfl⟩
  ended {c} refused := by
    unfold Reader.andThen at refused
    split at refused
    · next fault stopped =>
        cases refused
        obtain ⟨a, more, spelled⟩ := h.ended stopped
        obtain ⟨b, body, follows⟩ := (k a).possible
        exact ⟨b, more ++ body, a, _, body, spelled, follows, (List.append_assoc _ _ _).symm⟩
    · next a middle found =>
        obtain ⟨head, spelled, before⟩ := h.sound found
        obtain ⟨b, more, follows⟩ := (k a).ended refused
        exact ⟨b, more, a, head, _, spelled, follows, by rw [before, List.append_assoc]⟩
  broken {c fault} refused wrong := by
    unfold Reader.andThen at refused
    split at refused
    · next stopped =>
        cases refused
        obtain ⟨rfl, barred⟩ := h.broken stopped wrong
        refine ⟨rfl, ?_⟩
        rintro b _ tail more ⟨a, head, body, spelled, -, rfl⟩ same
        rw [List.append_assoc] at same
        exact barred a head (body ++ tail) more spelled same
    · next a middle found =>
        obtain ⟨head, spelled, before⟩ := h.sound found
        obtain ⟨rfl, barred⟩ := (k a).broken refused wrong
        refine ⟨rfl, ?_⟩
        rintro b _ tail more ⟨other, start, body, also, follows, rfl⟩ same
        rw [before, List.append_assoc, List.append_assoc] at same
        obtain ⟨rfl, rest⟩ := h.unique spelled also same
        exact barred b body tail more follows rest

/-- Another description of the format. -/
theorem as {read : Reader α} {one two : α → Bytes → Prop} (h : Tells read one)
    (k : Reads read two) : Tells read two := by
  rwa [← h.format_eq k]

/-- Where only a part of a piece is left, it is told that the input has ended. -/
theorem ended_of_part {read : Reader α} {format : α → Bytes → Prop} (h : Tells read format) {a : α}
    {piece : Bytes} (allowed : format a piece) {c : Cursor} (part : c.rest <+: piece)
    (strict : c.rest ≠ piece) : read c = .error .unexpectedEnd := by
  obtain ⟨more, whole⟩ := part
  cases found : read c with
  | ok next =>
      obtain ⟨b, d⟩ := next
      obtain ⟨taken, also, ahead⟩ := h.sound found
      -- the piece and what was taken open the same input, so that nothing was missing
      have same : piece ++ [] = taken ++ (d.rest ++ more) := by
        rw [List.append_nil, ← whole, ahead, List.append_assoc]
      have nothing := (h.unique allowed also same).2
      obtain ⟨-, rfl⟩ := List.append_eq_nil_iff.mp nothing.symm
      exact absurd ((List.append_nil _).symm.trans whole) strict
  | error fault =>
      by_cases ends : fault = .unexpectedEnd
      · rw [ends]
      · have barred := (h.broken found ends).2
        exact absurd (whole.trans (List.append_nil piece).symm) (barred a piece [] more allowed)

end Tells

namespace Varint

variable {top : UInt8} {further : Nat} {c : Cursor} {fault : Fault}

/-- Where only the last byte is left to be read, it is missing or too high. -/
theorem refused_zero (refused : readUpTo top 0 c = .error fault) :
    (c.rest = [] ∧ fault = .unexpectedEnd) ∨
      ∃ b rest, c.rest = b :: rest ∧ ¬ b ≤ top ∧ fault = .badVarint := by
  rw [readUpTo] at refused
  cases found : c.next? with
  | none =>
      rw [found] at refused
      cases refused
      exact Or.inl ⟨(c.next?_eq_none_iff).mp found, rfl⟩
  | some next =>
      obtain ⟨b, d⟩ := next
      simp only [found] at refused
      split at refused
      · cases refused
      · next high =>
          cases refused
          exact Or.inr ⟨b, d.rest, Cursor.rest_of_next? found, high, rfl⟩

/-- Where more bytes may follow, the first is missing, or it is marked and the rest is refused. -/
theorem refused_succ (refused : readUpTo top (further + 1) c = .error fault) :
    (c.rest = [] ∧ fault = .unexpectedEnd) ∨
      ∃ b d, c.rest = b :: d.rest ∧ 128 ≤ b ∧ readUpTo top further d = .error fault := by
  rw [readUpTo] at refused
  cases found : c.next? with
  | none =>
      rw [found] at refused
      cases refused
      exact Or.inl ⟨(c.next?_eq_none_iff).mp found, rfl⟩
  | some next =>
      obtain ⟨b, d⟩ := next
      simp only [found] at refused
      split at refused
      · cases refused
      · next marked =>
          split at refused
          · next stopped =>
              cases refused
              exact Or.inr ⟨b, d, Cursor.rest_of_next? found, UInt8.not_lt.mp marked, stopped⟩
          · cases refused

theorem form_nought (small : top < 128) (further : Nat) : Form ⟨further, top⟩ 0 [0] := by
  cases further with
  | zero => exact (form_zero_iff small).mpr ⟨0, UInt8.zero_le, rfl, rfl⟩
  | succ further => exact form_succ_iff.mpr (Or.inl ⟨0, by decide, rfl, rfl⟩)

/-- The induction is on the groups that may still follow. A single zero completes what has begun. -/
theorem tells_upTo (small : top < 128) (further : Nat) :
    Tells (readUpTo top further) (Form ⟨further, top⟩) := by
  induction further with
  | zero =>
      refine ⟨reads_upTo small 0, ⟨0, [0], form_nought small 0⟩, ?_, ?_⟩
      · intro c refused
        rcases refused_zero refused with ⟨empty, -⟩ | ⟨-, -, -, -, other⟩
        · exact ⟨0, [0], by rw [empty]; exact form_nought small 0⟩
        · cases other
      · intro c fault refused wrong
        rcases refused_zero refused with ⟨-, ended⟩ | ⟨b, rest, ahead, high, rfl⟩
        · exact absurd ended wrong
        · refine ⟨rfl, fun n piece tail more form same => ?_⟩
          obtain ⟨last, low, -, rfl⟩ := (form_zero_iff small).mp form
          rw [ahead] at same
          obtain ⟨rfl, -⟩ := List.cons.inj same
          exact high low
  | succ further ih =>
      refine ⟨reads_upTo small _, ⟨0, [0], form_nought small _⟩, ?_, ?_⟩
      · intro c refused
        rcases refused_succ refused with ⟨empty, -⟩ | ⟨b, d, ahead, marked, stopped⟩
        · exact ⟨0, [0], by rw [empty]; exact form_nought small _⟩
        · obtain ⟨higher, more, form⟩ := ih.ended stopped
          refine ⟨_, more, form_succ_iff.mpr (Or.inr ⟨b, higher, _, marked, form, rfl, ?_⟩)⟩
          rw [ahead]
          rfl
      · intro c fault refused wrong
        rcases refused_succ refused with ⟨-, ended⟩ | ⟨b, d, ahead, marked, stopped⟩
        · exact absurd ended wrong
        · obtain ⟨rfl, barred⟩ := ih.broken stopped wrong
          refine ⟨rfl, fun n piece tail more form same => ?_⟩
          rw [ahead] at same
          rcases form_succ_iff.mp form with
            ⟨last, unmarked, -, rfl⟩ | ⟨_, higher, rest, -, follows, -, rfl⟩
          · obtain ⟨rfl, -⟩ := List.cons.inj same
            exact UInt8.not_lt.mpr marked unmarked
          · exact barred higher rest tail more follows (List.cons.inj same).2

/-- A number is refused because it has not ended yet or because no number can come of it. -/
theorem tells_form (format : VarintFormat) (small : format.top < 128) :
    Tells (read format) (Form format) :=
  tells_upTo small format.further

end Varint
end ElasticBatch.Wire
