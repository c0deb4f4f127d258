import ElasticBatch.Request.Wire
import ElasticBatch.Proofs.Wire.Varint

/-! Which messages are requests. A number may stand in any form, so that one request has many
messages, but no message stands for two requests. -/
namespace ElasticBatch.Request

open Wire

/-- A length or a count. -/
abbrev Number : Nat → Bytes → Prop := Varint.Form Varint.bits64

/-- Buffers one after the other, each behind its length. -/
inductive Framed : List Bytes → Bytes → Prop
  | nil : Framed [] []
  | cons {b length : Bytes} {bs : List Bytes} {rest : Bytes} (number : Number b.length length)
      (others : Framed bs rest) : Framed (b :: bs) (length ++ (b ++ rest))

/-- A collection: its buffers behind their number. -/
inductive Section : List Bytes → Bytes → Prop
  | mk {count body : Bytes} {bs : List Bytes} (number : Number bs.length count)
      (framed : Framed bs body) : Section bs (count ++ body)

theorem readBuffer_eq : readBuffer = Reader.andThen (Varint.read Varint.bits64) Reader.take := by
  funext c
  rw [readBuffer, Reader.andThen]
  cases Varint.read Varint.bits64 c with
  | error fault => rfl
  | ok found =>
      obtain ⟨length, body⟩ := found
      simp only [Reader.take, Reader.orEnd]
      cases body.take? length <;> rfl

theorem readBuffers_succ (count : Nat) : readBuffers (count + 1) =
    Reader.andThen readBuffer fun b => Reader.andThen (readBuffers count) fun bs =>
      .pure (b :: bs) := by
  funext c
  rw [readBuffers, Reader.andThen]
  cases readBuffer c with
  | error fault => rfl
  | ok found =>
      obtain ⟨b, middle⟩ := found
      simp only [Reader.andThen]
      cases readBuffers count middle <;> rfl

theorem readSection_eq :
    readSection = Reader.andThen (Varint.read Varint.bits64) readBuffers := by
  funext c
  rw [readSection, Reader.andThen]
  cases Varint.read Varint.bits64 c <;> rfl

theorem read_eq : read = Reader.andThen readSection fun binary =>
    Reader.andThen readSection fun insertNode => Reader.andThen readSection fun tablet =>
      .pure ⟨binary, insertNode, tablet⟩ := by
  funext c
  simp only [Reader.andThen_apply]
  rfl

theorem reads_number : Reads (Varint.read Varint.bits64) Number :=
  Varint.reads_form Varint.bits64 (by decide)

theorem reads_buffer : Reads readBuffer fun b piece =>
    ∃ length, Number b.length length ∧ piece = length ++ b := by
  rw [readBuffer_eq]
  refine (reads_number.andThen Reads.take).congr fun b piece => ?_
  constructor
  · rintro ⟨_, length, _, number, ⟨rfl, rfl⟩, rfl⟩
    exact ⟨length, number, rfl⟩
  · rintro ⟨length, number, rfl⟩
    exact ⟨b.length, length, b, number, ⟨rfl, rfl⟩, rfl⟩

/-- As many buffers as were counted. The count is the sender's and may be any number. -/
theorem reads_buffers (count : Nat) :
    Reads (readBuffers count) fun bs piece => bs.length = count ∧ Framed bs piece := by
  induction count with
  | zero =>
      refine (Reads.pure []).congr fun bs piece => ?_
      constructor
      · rintro ⟨rfl, rfl⟩
        exact ⟨rfl, .nil⟩
      · rintro ⟨size, framed⟩
        have none := List.eq_nil_of_length_eq_zero size
        subst none
        cases framed
        exact ⟨rfl, rfl⟩
  | succ count ih =>
      rw [readBuffers_succ]
      have whole (b : Bytes) := ih.andThen fun bs => .pure (b :: bs)
      refine (reads_buffer.andThen whole).congr fun bs piece => ?_
      constructor
      · rintro ⟨b, _, _, ⟨length, number, rfl⟩, ⟨others, rest, _, ⟨rfl, framed⟩, ⟨rfl, rfl⟩, rfl⟩,
          rfl⟩
        rw [List.append_nil, List.append_assoc]
        exact ⟨rfl, .cons number framed⟩
      · rintro ⟨size, framed⟩
        cases framed with
        | nil => cases size
        | cons number framed =>
            exact ⟨_, _, _, ⟨_, number, rfl⟩,
              ⟨_, _, [], ⟨Nat.succ.inj size, framed⟩, ⟨rfl, rfl⟩, (List.append_nil _).symm⟩,
              (List.append_assoc _ _ _).symm⟩

theorem reads_section : Reads readSection Section := by
  rw [readSection_eq]
  refine (reads_number.andThen reads_buffers).congr fun bs piece => ?_
  constructor
  · rintro ⟨_, count, body, number, ⟨rfl, framed⟩, rfl⟩
    exact .mk number framed
  · rintro ⟨number, framed⟩
    exact ⟨bs.length, _, _, number, ⟨rfl, framed⟩, rfl⟩

/-- The three sections of a request. -/
def Layout (r : Request) (piece : Bytes) : Prop :=
  ∃ one two three, Section r.binary one ∧ Section r.insertNode two ∧ Section r.tablet three ∧
    piece = one ++ two ++ three

theorem reads_request : Reads read Layout := by
  rw [read_eq]
  have last (binary insertNode : List Bytes) := reads_section.andThen fun tablet =>
    Reads.pure (⟨binary, insertNode, tablet⟩ : Request)
  have later (binary : List Bytes) := reads_section.andThen (last binary)
  refine (reads_section.andThen later).congr fun r piece => ?_
  constructor
  · rintro ⟨_, one, _, first, ⟨_, two, _, second, ⟨_, three, _, third, ⟨rfl, rfl⟩, rfl⟩, rfl⟩, rfl⟩
    exact ⟨one, two, three, first, second, third, by simp⟩
  · rintro ⟨one, two, three, first, second, third, rfl⟩
    exact ⟨_, one, _, first, ⟨_, two, _, second, ⟨_, three, [], third, ⟨rfl, rfl⟩, rfl⟩, rfl⟩, by
      simp⟩

/-- The message is the request, with or without something behind it. -/
def Opens (r : Request) (message : ByteArray) : Prop :=
  ∃ piece tail, r.Layout piece ∧ message.data.toList = piece ++ tail

theorem read_start_iff (message : ByteArray) (r : Request) :
    (∃ rest, read (Cursor.start message) = .ok (r, rest)) ↔ r.Opens message := by
  constructor
  · rintro ⟨rest, accepted⟩
    obtain ⟨piece, layout, ahead⟩ := reads_request.sound accepted
    exact ⟨piece, rest.rest, layout, ahead⟩
  · rintro ⟨piece, tail, layout, ahead⟩
    obtain ⟨rest, accepted, -⟩ := reads_request.complete (c := Cursor.start message) layout ahead
    exact ⟨rest, accepted⟩

theorem Opens.unique {r other : Request} {message : ByteArray} (h : r.Opens message)
    (k : other.Opens message) : r = other := by
  obtain ⟨_, one⟩ := (read_start_iff message r).mpr h
  obtain ⟨_, two⟩ := (read_start_iff message other).mpr k
  exact congrArg Prod.fst (Except.ok.inj (one.symm.trans two))

/-- Why a message is answered as it is. -/
inductive Decoded (message : ByteArray) : Except Error Request → Prop
  | tooLong (long : limit < message.size) :
      Decoded message (.error (.tooLarge message.size limit))
  | accepted {r : Request} (short : message.size ≤ limit) (opens : r.Opens message) :
      Decoded message (.ok r)
  | malformed {fault : Fault} (short : message.size ≤ limit)
      (none : ∀ r : Request, ¬ r.Opens message) : Decoded message (.error (.ofReading fault))

theorem decoded (message : ByteArray) : Decoded message (decode message) := by
  unfold decode
  split
  · next long => exact .tooLong long
  · next short =>
      have short := Nat.not_lt.mp short
      split
      · next r rest found => exact .accepted short ((read_start_iff message r).mp ⟨rest, found⟩)
      · next fault found =>
          refine .malformed short fun r opens => ?_
          obtain ⟨rest, accepted⟩ := (read_start_iff message r).mpr opens
          rw [found] at accepted
          cases accepted

theorem decode_of_opens {r : Request} {message : ByteArray} (short : message.size ≤ limit)
    (opens : r.Opens message) : decode message = .ok r := by
  have reason := decoded message
  generalize decode message = outcome at reason ⊢
  cases reason with
  | tooLong long => exact absurd short (Nat.not_le.mpr long)
  | accepted _ other => rw [other.unique opens]
  | malformed _ none => exact absurd opens (none r)

/-- A message within the limit is accepted exactly for the request that it opens with, and refused
as malformed if it opens with none. A longer one is refused for its length alone. -/
theorem decode_exactly (message : ByteArray) :
    (∀ r, decode message = .ok r ↔ message.size ≤ limit ∧ r.Opens message) ∧
      (decode message = .error (.tooLarge message.size limit) ↔ limit < message.size) ∧
      ((∃ cause, decode message = .error (.deserialization cause)) ↔
        message.size ≤ limit ∧ ∀ r : Request, ¬ r.Opens message) := by
  have reason := decoded message
  generalize decode message = outcome at reason ⊢
  cases reason with
  | tooLong long =>
      refine ⟨fun r => iff_of_false (by simp) fun accepts => ?_, iff_of_true rfl long,
        iff_of_false (by simp) fun refuses => ?_⟩
      · exact Nat.not_le.mpr long accepts.1
      · exact Nat.not_le.mpr long refuses.1
  | accepted short opens =>
      refine ⟨fun r => ⟨?_, ?_⟩, iff_of_false (by simp) (Nat.not_lt.mpr short),
        iff_of_false (by simp) fun refuses => refuses.2 _ opens⟩
      · rintro ⟨⟩
        exact ⟨short, opens⟩
      · rintro ⟨-, other⟩
        exact congrArg Except.ok (opens.unique other)
  | malformed short none =>
      refine ⟨fun r => iff_of_false (by simp) fun accepts => none r accepts.2,
        iff_of_false (by simp [Error.ofReading]) (Nat.not_lt.mpr short),
        iff_of_true ⟨_, rfl⟩ ⟨short, none⟩⟩

/-- One empty buffer, counted in three groups where one would do, and a byte behind the request. -/
example : decode [129, 128, 0, 0, 0, 0, 7].toByteArray = .ok ⟨[[]], [], []⟩ := rfl

end ElasticBatch.Request
