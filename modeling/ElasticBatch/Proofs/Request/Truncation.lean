import ElasticBatch.Proofs.Request.RoundTrip
import ElasticBatch.Proofs.Wire.Refusal

/-! What a refused message tells. It has ended too soon exactly if it could be continued to a
request; otherwise it holds a number that nothing can mend. A request that was cut short is told as
such, and never taken for another. -/
namespace ElasticBatch.Request

open Wire

theorem tells_number : Tells (Varint.read Varint.bits64) Number :=
  Varint.tells_form Varint.bits64 (by decide)

theorem tells_buffer : Tells readBuffer fun b piece =>
    ∃ length, Number b.length length ∧ piece = length ++ b := by
  have reads := reads_buffer
  rw [readBuffer_eq] at reads ⊢
  exact (tells_number.andThen .take).as reads

/-- However many buffers are still to come, they can be made up. -/
theorem tells_buffers (count : Nat) :
    Tells (readBuffers count) fun bs piece => bs.length = count ∧ Framed bs piece := by
  induction count with
  | zero => exact (Tells.pure []).as (reads_buffers 0)
  | succ count ih =>
      have reads := reads_buffers (count + 1)
      rw [readBuffers_succ] at reads ⊢
      exact (tells_buffer.andThen fun b => ih.andThen fun bs => .pure (b :: bs)).as reads

theorem tells_section : Tells readSection Section := by
  have reads := reads_section
  rw [readSection_eq] at reads ⊢
  exact (tells_number.andThen tells_buffers).as reads

theorem tells_request : Tells read Layout := by
  have reads := reads_request
  rw [read_eq] at reads ⊢
  have last (binary insertNode : List Bytes) := tells_section.andThen fun tablet =>
    Tells.pure (⟨binary, insertNode, tablet⟩ : Request)
  have later (binary : List Bytes) := tells_section.andThen (last binary)
  exact (tells_section.andThen later).as reads

/-- With more behind it the message would be read as a request, if length were no matter. -/
def Extensible (message : ByteArray) : Prop :=
  ∃ (more : Bytes) (r : Request) (rest : Cursor),
    read (Cursor.start (message.data.toList ++ more).toByteArray) = .ok (r, rest)

theorem extensible_iff {message : ByteArray} : Extensible message ↔
    ∃ (more : Bytes) (r : Request) (piece tail : Bytes),
      r.Layout piece ∧ message.data.toList ++ more = piece ++ tail := by
  refine exists_congr fun more => exists_congr fun r => ?_
  rw [read_start_iff, Opens, List.data_toByteArray]

/-- A refused message hits its end within a request, or no request can come of it. -/
theorem refused_apart {message : ByteArray} (short : message.size ≤ limit)
    (refused : ∀ r, decode message ≠ .ok r) :
    (decode message = .error (.ofReading .unexpectedEnd) ∧ Extensible message) ∨
      (decode message = .error (.ofReading .badVarint) ∧ ¬ Extensible message) := by
  rw [extensible_iff]
  unfold decode at refused ⊢
  rw [if_neg (Nat.not_lt.mpr short)] at refused ⊢
  cases found : read (Cursor.start message) with
  | ok accepted =>
      rw [found] at refused
      exact absurd rfl (refused accepted.1)
  | error fault =>
      by_cases ends : fault = .unexpectedEnd
      · subst ends
        obtain ⟨r, more, layout⟩ := tells_request.ended found
        exact Or.inl ⟨rfl, more, r, _, [], layout, (List.append_nil _).symm⟩
      · obtain ⟨rfl, barred⟩ := tells_request.broken found ends
        refine Or.inr ⟨rfl, ?_⟩
        rintro ⟨more, r, piece, tail, layout, same⟩
        exact barred r piece tail more layout same

/-- No part of an encoding but the whole is a request, and each can be continued to one. -/
theorem cut_short {r : Request} {e : Bytes} (written : r.encode = .ok e) {message : ByteArray}
    (part : message.data.toList <+: e) (strict : message.data.toList ≠ e) :
    message.size ≤ limit ∧ (∀ other, decode message ≠ .ok other) ∧ Extensible message := by
  obtain ⟨more, whole⟩ := part
  obtain ⟨rfl, fits⟩ := encode_eq_ok_iff.mp written
  have layout : r.Layout r.layout :=
    layout_of_room (Nat.lt_of_le_of_lt fits (by decide))
  have ended : read (Cursor.start message) = .error .unexpectedEnd :=
    tells_request.ended_of_part layout ⟨more, whole⟩ strict
  have short : message.size ≤ limit := by
    rw [← whole, List.length_append, Array.length_toList, ByteArray.size_data] at fits
    omega
  refine ⟨short, fun other accepted => ?_, ?_⟩
  · rw [decode, if_neg (Nat.not_lt.mpr short), ended] at accepted
    cases accepted
  · exact extensible_iff.mpr ⟨more, r, r.layout, [], layout, by rw [whole, List.append_nil]⟩

/-- A message within the limit that is refused has ended too soon or holds a number without an end:
the first exactly if some continuation of it would be read, the second if none would. A part of an
encoding is refused for having ended too soon. -/
theorem refusal_tells (message : ByteArray) :
    let ended := Error.deserialization "Hit the end of buffer, expected more data"
    let broken := Error.deserialization
      "Found a varint that didn't terminate. Is the usize too big for this platform?"
    (message.size ≤ limit → (∀ r, decode message ≠ .ok r) →
      (decode message = .error ended ∨ decode message = .error broken) ∧
        (decode message = .error ended ↔ Extensible message) ∧
        (decode message = .error broken ↔ ¬ Extensible message)) ∧
    ∀ (r : Request) (e : Bytes), r.encode = .ok e → message.data.toList <+: e →
      message.data.toList ≠ e → decode message = .error ended := by
  intro ended broken
  have apart : ended ≠ broken := by decide
  refine ⟨?_, ?_⟩
  · intro short refused
    rcases refused_apart short refused with ⟨told, extensible⟩ | ⟨told, final⟩
    · rw [told]
      refine ⟨Or.inl rfl, iff_of_true rfl extensible, iff_of_false ?_ (not_not_intro extensible)⟩
      exact fun same => apart (Except.error.inj same)
    · rw [told]
      refine ⟨Or.inr rfl, iff_of_false ?_ final, iff_of_true rfl final⟩
      exact fun same => apart (Except.error.inj same).symm
  · intro r e written part strict
    obtain ⟨short, refused, extensible⟩ := cut_short written part strict
    rcases refused_apart short refused with ⟨told, -⟩ | ⟨-, final⟩
    · exact told
    · exact absurd extensible final

/-- Of two bytes in a buffer the second is missing; and a count does not end in its ten groups. -/
theorem missing_byte_told :
    let r : Request := ⟨[[7, 8]], [], []⟩
    let part := [1, 2, 7].toByteArray
    let endless := (List.replicate 10 255).toByteArray
    let ended := Error.deserialization "Hit the end of buffer, expected more data"
    let broken := Error.deserialization
      "Found a varint that didn't terminate. Is the usize too big for this platform?"
    r.encode = .ok [1, 2, 7, 8, 0, 0] ∧ decode part = .error ended ∧ Extensible part ∧
      decode endless = .error broken ∧ ¬ Extensible endless := by
  intro r part endless ended broken
  have written : r.encode = .ok [1, 2, 7, 8, 0, 0] := by cbv
  have cut : decode part = .error ended :=
    (refusal_tells part).2 r _ written ⟨[8, 0, 0], rfl⟩ (by decide)
  have refused : decode endless = .error broken := rfl
  have extensible := ((refusal_tells part).1 (by decide) fun other accepted => by
    cases cut.symm.trans accepted).2.1
  have final := ((refusal_tells endless).1 (by decide) fun other accepted => by
    cases refused.symm.trans accepted).2.2
  exact ⟨written, cut, extensible.mp cut, refused, final.mp refused⟩

end ElasticBatch.Request
