import ElasticBatch.Node

/-! In which order a value is written. Every value comes before its parts, and the parts come from
left to right; what is written is what each of them opens with, in that order, unless one refuses.
A buffer gets the whole of a value or nothing of it. -/
namespace ElasticBatch

namespace Wire.Value

/-- The values directly inside. A map's keys come before their values. -/
def parts : Value → List Value
  | .present v | .wrapped v | .wrappedVariant _ v => [v]
  | .sequence items | .unsizedSequence items | .tuple items | .record items
  | .tupleVariant _ items => items
  | .repeated count item => List.replicate count item
  | .map entries | .unsizedMap entries => entries.flatMap fun (key, v) => [key, v]
  | .bool _ | .natural .. | .integer .. | .single _ | .double _ | .char _ | .text _ | .display _
  | .unprintable | .bytes _ | .absent | .unit | .unitVariant _ | .failing _ => []

/-- What is written of a value before its parts. -/
def opening : Value → Bytes
  | .bool b => [if b then 1 else 0]
  | .natural width n => Wire.natural width n
  | .integer width n => Wire.integer width n
  | .single bits => littleEndian 4 bits.toNat
  | .double bits => littleEndian 8 bits.toNat
  | .char c => counted (String.utf8EncodeChar c)
  | .text s | .display s => counted (utf8 s)
  | .bytes content => counted content
  | .absent => [0]
  | .present _ => [1]
  | .sequence items => Varint.write items.length
  | .repeated count _ => Varint.write count
  | .map entries => Varint.write entries.length
  | .unitVariant index | .wrappedVariant index _ | .tupleVariant index _ =>
    Varint.write index.toNat
  | .unit | .wrapped _ | .tuple _ | .record _ | .unsizedSequence _ | .unsizedMap _
  | .unprintable | .failing _ => []

/-- Why a value refuses to be written, whatever its parts. -/
def fault? : Value → Option Fault
  | .unsizedSequence _ | .unsizedMap _ => some .lengthUnknown
  | .unprintable => some .collectText
  | .failing _ => some .writerRefused
  | _ => none

theorem sizeOf_lt_of_mem_parts {v part : Value} (inside : part ∈ v.parts) :
    sizeOf part < sizeOf v := by
  have entered {entries : List (Value × Value)}
      (member : part ∈ entries.flatMap fun (key, v) => [key, v]) :
      sizeOf part < sizeOf entries := by
    obtain ⟨⟨key, v⟩, entry, either⟩ := List.mem_flatMap.mp member
    have smaller := List.sizeOf_lt_of_mem entry
    rw [Prod.mk.sizeOf_spec] at smaller
    rcases List.mem_cons.mp either with rfl | second
    · omega
    · cases List.mem_singleton.mp second
      omega
  cases v with
  | present v | wrapped v | wrappedVariant index v =>
      cases List.mem_singleton.mp inside
      simp +arith
  | sequence items | unsizedSequence items | tuple items | record items
  | tupleVariant index items =>
      have smaller := List.sizeOf_lt_of_mem (show part ∈ items from inside)
      simp only [sequence.sizeOf_spec, unsizedSequence.sizeOf_spec, tuple.sizeOf_spec,
        record.sizeOf_spec, tupleVariant.sizeOf_spec]
      omega
  | repeated count item =>
      cases List.eq_of_mem_replicate inside
      simp +arith
  | map entries | unsizedMap entries =>
      have smaller := entered inside
      simp only [map.sizeOf_spec, unsizedMap.sizeOf_spec]
      omega
  | _ => cases inside

/-- The value itself and all that is inside it, in the order of writing. -/
def visits (v : Value) : List Value :=
  v :: v.parts.attach.flatMap fun ⟨part, _⟩ => visits part
termination_by sizeOf v
decreasing_by exact sizeOf_lt_of_mem_parts ‹_›

theorem visits_eq (v : Value) : v.visits = v :: v.parts.flatMap visits := by
  rw [visits, List.flatMap_subtype (g := visits) (fun _ _ => rfl), List.unattach_attach]

/-- The first of the values visited that refuses says why the whole does. -/
def firstFault? (v : Value) : Option Fault := v.visits.findSome? fault?

/-- All openings, one after the other. -/
def spelling (v : Value) : Bytes := v.visits.flatMap opening

/-- What comes of the openings of these values, as far as none of them refuses. -/
def emit (nodes : List Value) : Except Fault Bytes :=
  match nodes.findSome? fault? with
  | some fault => .error fault
  | none => .ok (nodes.flatMap opening)

theorem emit_append (xs ys : List Value) :
    emit (xs ++ ys) = do return (← emit xs) ++ (← emit ys) := by
  unfold emit
  rw [List.findSome?_append, List.flatMap_append]
  cases xs.findSome? fault? <;> cases ys.findSome? fault? <;> rfl

theorem emit_cons (v : Value) (rest : List Value) :
    emit (v :: rest) =
      match v.fault? with
      | some fault => .error fault
      | none => (emit rest).map (v.opening ++ ·) := by
  unfold emit
  rw [List.findSome?_cons, List.flatMap_cons]
  cases v.fault? <;> cases rest.findSome? fault? <;> rfl

/-! The writer goes through the parts in that order too. -/

theorem encodeAll_singleton (v : Value) : encodeAll [v] = v.encode := by
  rw [encodeAll, encodeAll]
  cases v.encode with
  | error fault => rfl
  | ok bytes => exact congrArg Except.ok (List.append_nil bytes)

theorem encodeAll_replicate (count : Nat) (item : Value) :
    encodeAll (List.replicate (count + 1) item) =
      item.encode.map fun bytes => (List.replicate (count + 1) bytes).flatten := by
  induction count with
  | zero =>
      rw [List.replicate_one, encodeAll_singleton]
      cases item.encode with
      | error fault => rfl
      | ok bytes => exact congrArg Except.ok (List.append_nil bytes).symm
  | succ count ih =>
      rw [List.replicate_succ, encodeAll, ih]
      cases item.encode <;> rfl

theorem encodeEntries_eq (entries : List (Value × Value)) :
    encodeEntries entries = encodeAll (entries.flatMap fun (key, v) => [key, v]) := by
  induction entries with
  | nil => rfl
  | cons entry rest ih =>
      obtain ⟨key, v⟩ := entry
      rw [encodeEntries, ih]
      simp only [List.flatMap_cons, List.cons_append, List.nil_append, encodeAll]
      cases key.encode <;> cases v.encode <;> cases encodeAll (rest.flatMap _) <;> rfl

/-- A value that does not refuse is written before its parts. -/
theorem encode_eq_opening (v : Value) :
    v.encode =
      match v.fault? with
      | some fault => .error fault
      | none => (encodeAll v.parts).map (v.opening ++ ·) := by
  cases v with
  | present v | wrapped v | wrappedVariant index v =>
      simp only [parts, encodeAll_singleton, encode, fault?, opening]
      cases v.encode <;> rfl
  | sequence items | tuple items | record items | tupleVariant index items =>
      simp only [parts, encode, fault?, opening]
      cases encodeAll items <;> rfl
  | map entries =>
      simp only [parts, encode, fault?, opening, encodeEntries_eq]
      cases encodeAll (entries.flatMap _) <;> rfl
  | repeated count item =>
      cases count with
      | zero =>
          have zero : Varint.write 0 = [0] := by rw [Varint.write, if_pos (by decide)]; rfl
          simp only [parts, List.replicate_zero, encode, fault?, opening, zero]
          rfl
      | succ count =>
          simp only [parts, encodeAll_replicate, encode, fault?, opening]
          cases item.encode <;> rfl
  | unsizedSequence items | unsizedMap entries | unprintable | failing cause => rfl
  | _ => exact congrArg Except.ok (List.append_nil _).symm

theorem encodeAll_eq_emit {items : List Value} (each : ∀ v ∈ items, v.encode = emit v.visits) :
    encodeAll items = emit (items.flatMap visits) := by
  induction items with
  | nil => rfl
  | cons v rest ih =>
      obtain ⟨here, later⟩ := List.forall_mem_cons.mp each
      rw [encodeAll, List.flatMap_cons, emit_append, here, ih later]

theorem encode_eq_emit (v : Value) : v.encode = emit v.visits := by
  induction v using visits.induct with
  | case1 v ih =>
      rw [visits_eq, emit_cons, encode_eq_opening, encodeAll_eq_emit ih]

end Wire.Value

namespace Node

open Wire

theorem appendTo_value (out : Bytes) (v : Value) :
    (value v).appendTo out =
      match v.firstFault? with
      | some fault => (out, some (.serialization fault.message))
      | none => (out ++ v.spelling, none) := by
  have result := v.encode_eq_emit
  simp only [appendTo, written, failure, result, Value.emit, Value.firstFault?, Value.spelling]
  cases v.visits.findSome? Value.fault? with
  | some fault => exact congrArg (·, _) (List.append_nil out)
  | none => rfl

theorem appendAll_values (out : Bytes) (values : List Value) :
    (appendAll out (values.map value)).1 =
        out ++ (values.filter (·.firstFault?.isNone)).flatMap Value.spelling ∧
      (appendAll out (values.map value)).2.map (·.2) =
        values.map fun v => v.firstFault?.map fun fault => .serialization fault.message := by
  induction values generalizing out with
  | nil => exact ⟨(List.append_nil out).symm, rfl⟩
  | cons v rest ih =>
      obtain ⟨last, causes⟩ := ih ((value v).appendTo out).1
      have here := appendTo_value out v
      simp only [List.map_cons, appendAll, last, causes, List.filter_cons]
      rw [here]
      cases v.firstFault? with
      | some fault => exact ⟨rfl, rfl⟩
      | none =>
          refine ⟨?_, rfl⟩
          simp only [Option.isNone_none, if_true, List.flatMap_cons, List.append_assoc]

/-- A buffer that takes a value has the whole of it behind what it had before, whatever that was,
unless a value inside refuses; then it has what it had, and the first one to refuse in the order of
writing is the cause. An unsized collection refuses ahead of its elements, and what is repeated no
times is not visited. A buffer that takes many values in turn has all those that did not fail. -/
theorem append_whole_or_nothing (out : Bytes) :
    (∀ v : Value, (value v).appendTo out =
      match v.firstFault? with
      | some fault => (out, some (.serialization fault.message))
      | none => (out ++ v.spelling, none)) ∧
      (∀ items entries, (Value.unsizedSequence items).firstFault? = some .lengthUnknown ∧
        (Value.unsizedMap entries).firstFault? = some .lengthUnknown) ∧
      (∀ item, (Value.repeated 0 item).visits = [.repeated 0 item]) ∧
      ∀ values : List Value,
        (appendAll out (values.map value)).1 =
            out ++ (values.filter (·.firstFault?.isNone)).flatMap Value.spelling ∧
          (appendAll out (values.map value)).2.map (·.2) =
            values.map fun v => v.firstFault?.map fun fault => .serialization fault.message := by
  refine ⟨appendTo_value out, fun items entries => ?_, fun item => ?_, appendAll_values out⟩
  · simp only [Value.firstFault?, Value.visits_eq, List.findSome?_cons, Value.fault?]
    exact ⟨trivial, trivial⟩
  · rw [Value.visits_eq]
    rfl

end Node
end ElasticBatch
