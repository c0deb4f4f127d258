import ElasticBatch.Config.Document
import ElasticBatch.Config.Wire
import ElasticBatch.Proofs.Wire.Refusal
import ElasticBatch.Proofs.Wire.Shortest

/-! The two written forms of settings. A document names the fields and may leave them out; on the
wire they stand in order, and both have to be there. What was written is read back from either, and
a number without room in its field is refused, never cut off. -/
namespace ElasticBatch.Config

open Wire

variable {c : Config} {under : String → Option Document} {field : String} {default : Nat}

/-! Documents. -/

/-- A field has its default where it is missing, and else the very number that stands there. -/
def Holds (under : String → Option Document) (field : String) (default n : Nat) : Prop :=
  match under field with
  | none => n = default
  | some d => d = .integer n

theorem Holds.of_present {n : Nat} (present : under field = some (.integer n)) :
    Holds under field default n := by
  rw [Holds, present]

/-- A field is missing, or a number below the bound stands there. -/
def Fits (under : String → Option Document) (field : String) (bound : Nat) : Prop :=
  ∀ d, under field = some d → ∃ n : Nat, n < bound ∧ d = .integer n

theorem fits_iff {bound : Nat} (room : default < bound) :
    Fits under field bound ↔ ∃ n < bound, Holds under field default n := by
  unfold Fits Holds
  cases under field with
  | none => simp [room]
  | some d => simp

/-- Numbers below a bound that stand for values one to one are read as those values. -/
theorem map_natural_eq_ok_iff {α : Type} {bound : Nat} {kind : String} {ofNat : Nat → α}
    {toNat : α → Nat} (lt : ∀ a, toNat a < bound) (ofNat_toNat : ∀ a, ofNat (toNat a) = a)
    (toNat_ofNat : ∀ n < bound, toNat (ofNat n) = n) {d : Document} {a : α} :
    (d.natural bound kind).map ofNat = .ok a ↔ d = .integer (toNat a) := by
  constructor
  · intro read
    cases found : d.natural bound kind with
    | error fault =>
        rw [found] at read
        cases read
    | ok n =>
        rw [found] at read
        cases read
        obtain ⟨rfl, small⟩ := Document.natural_eq_ok_iff.mp found
        rw [toNat_ofNat n small]
  · rintro rfl
    have found : Document.natural bound kind (.integer (toNat a)) = .ok (toNat a) :=
      Document.natural_eq_ok_iff.mpr ⟨rfl, lt a⟩
    rw [found]
    exact congrArg Except.ok (ofNat_toNat a)

theorem readDelay_eq_ok_iff {d : Document} {n : UInt32} :
    readDelay d = .ok n ↔ d = .integer n.toNat :=
  map_natural_eq_ok_iff UInt32.toNat_lt (fun _ => UInt32.ofNat_toNat)
    fun _ => UInt32.toNat_ofNat_of_lt'

theorem readSize_eq_ok_iff {d : Document} {n : Word} :
    readSize d = .ok n ↔ d = .integer n.toNat :=
  map_natural_eq_ok_iff UInt64.toNat_lt (fun _ => UInt64.ofNat_toNat)
    fun _ => UInt64.toNat_ofNat_of_lt'

/-- The fields one after the other, each from what stands there. -/
theorem ofEntries_eq (under : String → Option Document) :
    ofEntries under = do
      let size ← (under sizeField).elim (.ok defaultSize) readSize
      let delay ← (under delayField).elim (.ok defaultDelay) readDelay
      return ⟨delay, size⟩ := by
  rw [ofEntries]
  cases under sizeField <;> cases under delayField <;> rfl

theorem elim_eq_ok_iff {α : Type} {read : Document → Except Document.Fault α} {toNat : α → Nat}
    (reads : ∀ {d a}, read d = .ok a ↔ d = .integer (toNat a))
    (injective : Function.Injective toNat) {standard a : α} :
    (under field).elim (.ok standard) read = .ok a ↔
      Holds under field (toNat standard) (toNat a) := by
  unfold Holds
  cases under field with
  | none =>
      simp only [Option.elim_none, Except.ok.injEq]
      exact ⟨fun same => congrArg toNat same.symm, fun same => (injective same).symm⟩
  | some d => exact reads

theorem ofEntries_eq_ok_iff :
    ofEntries under = .ok c ↔
      Holds under "max_delay_seconds" 1 c.delaySeconds.toNat ∧
        Holds under "max_batch_size_bytes" 16777216 c.sizeBytes.toNat := by
  have delay : (under delayField).elim (.ok defaultDelay) readDelay =
      .ok c.delaySeconds ↔ Holds under "max_delay_seconds" 1 c.delaySeconds.toNat :=
    elim_eq_ok_iff readDelay_eq_ok_iff fun _ _ => UInt32.toNat_inj.mp
  have size : (under sizeField).elim (.ok defaultSize) readSize =
      .ok c.sizeBytes ↔ Holds under "max_batch_size_bytes" 16777216 c.sizeBytes.toNat :=
    elim_eq_ok_iff readSize_eq_ok_iff fun _ _ => UInt64.toNat_inj.mp
  rw [ofEntries_eq]
  refine Iff.trans ?_ (and_congr delay size)
  obtain ⟨seconds, bytes⟩ := c
  cases (under sizeField).elim (.ok defaultSize) readSize with
  | error fault => exact iff_of_false nofun fun both => nomatch both.2
  | ok size =>
      cases (under delayField).elim (.ok defaultDelay) readDelay with
      | error fault => exact iff_of_false nofun fun both => nomatch both.1
      | ok delay =>
          constructor
          · rintro ⟨⟩
            exact ⟨rfl, rfl⟩
          · rintro ⟨⟨⟩, ⟨⟩⟩
            rfl

/-- What stands in the other fields has no say, nor has the order. -/
theorem ofEntries_congr {others : String → Option Document}
    (same : ∀ field ∈ [delayField, sizeField], others field = under field) :
    ofEntries others = ofEntries under := by
  rw [ofEntries_eq, ofEntries_eq, same delayField (by decide), same sizeField (by decide)]

theorem ofDocument_toDocument (c : Config) : ofDocument c.toDocument = .ok c := by
  have distinct : [delayField, sizeField].Nodup := by decide
  rw [toDocument, ofDocument, ofEntries_eq_ok_iff]
  exact ⟨.of_present (Document.under_getElem distinct _ 0),
    .of_present (Document.under_getElem distinct _ 1)⟩

theorem exists_ofEntries_iff :
    (∃ c, ofEntries under = .ok c) ↔
      Fits under "max_delay_seconds" (2 ^ 32) ∧ Fits under "max_batch_size_bytes" (2 ^ 64) := by
  simp only [ofEntries_eq_ok_iff]
  rw [fits_iff (show 1 < 2 ^ 32 by decide), fits_iff (show 16777216 < 2 ^ 64 by decide)]
  constructor
  · rintro ⟨c, delay, size⟩
    exact ⟨⟨_, c.delaySeconds.toNat_lt, delay⟩, ⟨_, c.sizeBytes.toNat_lt, size⟩⟩
  · rintro ⟨⟨seconds, short, delay⟩, ⟨bytes, small, size⟩⟩
    refine ⟨⟨UInt32.ofNat seconds, UInt64.ofNat bytes⟩, ?_⟩
    rw [UInt32.toNat_ofNat_of_lt' short, UInt64.toNat_ofNat_of_lt' small]
    exact ⟨delay, size⟩

/-! The wire. -/

/-- A delay and a size, each in any form of its own width. -/
def Layout (c : Config) (piece : Bytes) : Prop :=
  ∃ delay size, Varint.Form Varint.bits32 c.delaySeconds.toNat delay ∧
    Varint.Form Varint.bits64 c.sizeBytes.toNat size ∧ piece = delay ++ size

theorem read_eq : read = Reader.andThen (Varint.read Varint.bits32) fun delay =>
    Reader.andThen (Varint.read Varint.bits64) fun size =>
      .pure ⟨UInt32.ofNat delay, UInt64.ofNat size⟩ := by
  funext start
  rw [read, Reader.andThen]
  cases Varint.read Varint.bits32 start with
  | error fault => rfl
  | ok found =>
      obtain ⟨delay, middle⟩ := found
      simp only [Reader.andThen]
      cases Varint.read Varint.bits64 middle <;> rfl

/-- No form of either width is that of a number without room in its field. -/
theorem reads_layout : Reads read Layout := by
  rw [read_eq]
  have size (delay : Nat) := (Varint.reads_form Varint.bits64 (by decide)).andThen fun size =>
    Reads.pure (⟨UInt32.ofNat delay, UInt64.ofNat size⟩ : Config)
  refine ((Varint.reads_form Varint.bits32 (by decide)).andThen size).congr fun c piece => ?_
  constructor
  · rintro ⟨seconds, delay, _, short, ⟨bytes, size, _, small, ⟨rfl, rfl⟩, rfl⟩, rfl⟩
    refine ⟨delay, size, ?_, ?_, by rw [List.append_nil]⟩
    · rw [UInt32.toNat_ofNat_of_lt' (short.lt (by decide))]
      exact short
    · rw [UInt64.toNat_ofNat_of_lt' (small.lt (by decide))]
      exact small
  · rintro ⟨delay, size, short, small, rfl⟩
    refine ⟨_, delay, size, short, ⟨_, size, [], small, ⟨?_, rfl⟩, by rw [List.append_nil]⟩, rfl⟩
    rw [UInt32.ofNat_toNat, UInt64.ofNat_toNat]

theorem tells_layout : Tells read Layout := by
  have reads := reads_layout
  rw [read_eq] at reads ⊢
  have size (delay : Nat) := (Varint.tells_form Varint.bits64 (by decide)).andThen fun size =>
    Tells.pure (⟨UInt32.ofNat delay, UInt64.ofNat size⟩ : Config)
  exact ((Varint.tells_form Varint.bits32 (by decide)).andThen size).as reads

theorem layout_bytes (c : Config) : c.Layout c.bytes :=
  ⟨_, _, Varint.form_write (by decide) c.delaySeconds.toNat_lt,
    Varint.form_write (by decide) c.sizeBytes.toNat_lt, rfl⟩

theorem shortest_bytes {piece : Bytes} (spelled : c.Layout piece) : Shortest c.bytes piece := by
  obtain ⟨delay, size, short, small, rfl⟩ := spelled
  exact (Varint.shortest_write short.groups).append (Varint.shortest_write small.groups)

/-- Settings come back from either form, in their ranges or not, and from the wire whatever follows.
Of a document only the two fields count, each a number of its width or missing. On the wire no form
is shorter than the written one, and no part of that one is read. -/
theorem both_forms_exact (c : Config) :
    ofDocument c.toDocument = .ok c ∧
    (∀ tail : Bytes, ∃ rest,
      read (Cursor.start (c.bytes ++ tail).toByteArray) = .ok (c, rest) ∧ rest.rest = tail) ∧
    (∀ (keys : List String) (distinct : keys.Nodup) (values : Fin keys.length → Document),
      let under := Document.under values
      (∀ (others : List String) (apart : others.Nodup) (contents : Fin others.length → Document),
        (∀ field ∈ ["max_delay_seconds", "max_batch_size_bytes"],
          Document.under contents field = under field) →
        ofDocument (.map others apart contents) = ofDocument (.map keys distinct values)) ∧
      ((∃ d, ofDocument (.map keys distinct values) = .ok d) ↔
        Fits under "max_delay_seconds" (2 ^ 32) ∧ Fits under "max_batch_size_bytes" (2 ^ 64)) ∧
      (ofDocument (.map keys distinct values) = .ok c ↔
        Holds under "max_delay_seconds" 1 c.delaySeconds.toNat ∧
          Holds under "max_batch_size_bytes" 16777216 c.sizeBytes.toNat)) ∧
    (∀ (message : ByteArray) (rest : Cursor), read (Cursor.start message) = .ok (c, rest) →
      c.bytes.length + rest.remaining ≤ message.size) ∧
    ∀ part : Bytes, part <+: c.bytes → part ≠ c.bytes →
      read (Cursor.start part.toByteArray) = .error .unexpectedEnd := by
  refine ⟨?_, ?_, ?_, ?_, ?_⟩
  · exact c.ofDocument_toDocument
  · intro tail
    exact reads_layout.complete c.layout_bytes (by simp [Cursor.rest_start])
  · exact fun keys distinct values =>
      ⟨fun others apart contents => ofEntries_congr, exists_ofEntries_iff, ofEntries_eq_ok_iff⟩
  · intro message rest accepted
    obtain ⟨piece, spelled, ahead⟩ := reads_layout.sound accepted
    have least := (shortest_bytes spelled).le
    have length := congrArg List.length ahead
    rw [Cursor.rest_start, List.length_append, Cursor.length_rest, Array.length_toList,
      ByteArray.size_data] at length
    omega
  · intro part cut strict
    have ahead : (Cursor.start part.toByteArray).rest = part := by simp [Cursor.rest_start]
    exact tells_layout.ended_of_part c.layout_bytes (by rwa [ahead]) (by rwa [ahead])

/-- Neither in its range, and the delay as long as can be. -/
def extreme : Config := ⟨4294967295, 0⟩

/-- A size in two groups where one would do, and a byte behind it. -/
def stretched : ByteArray := [255, 255, 255, 255, 15, 128, 0, 7].toByteArray

/-- The fields in another order, and one that is not known. -/
def unordered : Document :=
  .map ["retries", "max_batch_size_bytes", "max_delay_seconds"] (by decide) fun
    | 0 => .null
    | 1 => .integer 0
    | 2 => .integer 4294967295

theorem extreme_comes_back :
    ofDocument unordered = .ok extreme ∧
      read (Cursor.start stretched) = .ok (extreme, ⟨stretched, 7⟩) ∧
      extreme.bytes.length + 1 ≤ stretched.size ∧
      read (Cursor.start [255, 255, 255, 255, 15].toByteArray) = .error .unexpectedEnd := by
  obtain ⟨back, -, documents, longer, parts⟩ := both_forms_exact extreme
  have accepted : read (Cursor.start stretched) = .ok (extreme, ⟨stretched, 7⟩) := rfl
  have written : extreme.bytes = [255, 255, 255, 255, 15, 0] := by
    simp [bytes, extreme, Varint.write]
  refine ⟨?_, accepted, longer _ _ accepted, parts _ ?_ ?_⟩
  · refine ((documents _ _ _).1 _ _ _ fun field listed => ?_).trans back
    rw [List.mem_cons, List.mem_singleton] at listed
    rcases listed with rfl | rfl <;> rfl
  · rw [written]
    exact ⟨[0], rfl⟩
  · rw [written]
    decide

end ElasticBatch.Config
