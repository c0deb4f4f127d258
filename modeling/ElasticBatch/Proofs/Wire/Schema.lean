import ElasticBatch.Payload
import ElasticBatch.Proofs.Wire.Delimited
import ElasticBatch.Proofs.Wire.Traversal

/-! Values of one type. The wire form names no types, and yet no two values of a type have forms of
which one begins with the other. A reader that knows the type finds the value, and whatever was put
behind it. -/
namespace ElasticBatch.Wire

/-- What comes with one of several alternatives. -/
inductive Contents (T : Type) where
  | nothing
  | one (type : T)
  | several (types : List T)

/-- What the values of a type look like, by the types of their parts. The contents of an alternative
depend on its index. -/
inductive Shape (T : Type) where
  | bool
  | natural (width : Width)
  | integer (width : Width)
  | single
  | double
  | char
  | text
  | bytes
  | option (type : T)
  | unit
  | wrapped (type : T)
  | sequence (item : T)
  | tuple (items : List T)
  | record (fields : List T)
  | map (key value : T)
  | choice (contents : UInt32 → Contents T)

/-- Types are declared by their shapes. A type may occur within itself. -/
abbrev Schema (T : Type) := T → Shape T

variable {T : Type}

/-- Contents of the right kind behind the index, whose parts should be of these types. -/
inductive Contents.Fits (index : UInt32) : Contents T → Value → List T → Prop
  | nothing : Fits index .nothing (.unitVariant index) []
  | one {type v} : Fits index (.one type) (.wrappedVariant index v) [type]
  | several {types items} : Fits index (.several types) (.tupleVariant index items) types

/-- A value, its parts aside, is as the shape says, and its parts should be of these types.
Collected text counts as text, and a repetition as a sequence. -/
inductive Shape.Fits : Shape T → Value → List T → Prop
  | bool {b} : Fits .bool (.bool b) []
  | natural {width n} : Fits (.natural width) (.natural width n) []
  | integer {width n} : Fits (.integer width) (.integer width n) []
  | single {bits} : Fits .single (.single bits) []
  | double {bits} : Fits .double (.double bits) []
  | char {c} : Fits .char (.char c) []
  | text {s} : Fits .text (.text s) []
  | display {s} : Fits .text (.display s) []
  | bytes {content} : Fits .bytes (.bytes content) []
  | absent {type} : Fits (.option type) .absent []
  | present {type v} : Fits (.option type) (.present v) [type]
  | unit : Fits .unit .unit []
  | wrapped {type v} : Fits (.wrapped type) (.wrapped v) [type]
  | sequence {item items} :
    Fits (.sequence item) (.sequence items) (List.replicate items.length item)
  | repeated {item count v} : Fits (.sequence item) (.repeated count v) (List.replicate count item)
  | tuple {types items} : Fits (.tuple types) (.tuple items) types
  | record {types fields} : Fits (.record types) (.record fields) types
  | map {key value entries} :
    Fits (.map key value) (.map entries) (List.replicate entries.length [key, value]).flatten
  | choice {contents index v types} (chosen : (contents index).Fits index v types) :
    Fits (.choice contents) v types

namespace Value

/-- Of a type: the value has its shape and each part is of the type that belongs there. What refuses
to be written may be of any type. -/
inductive Conforms (schema : Schema T) : T → Value → Prop
  | refused {type v} (refusal : v.fault?.isSome) : Conforms schema type v
  | built {type v types} (fits : (schema type).Fits v types) (count : types.length = v.parts.length)
    (inner : ∀ part ∈ types.zip v.parts, Conforms schema part.1 part.2) : Conforms schema type v

mutual

/-- The value that is meant: text without how it was collected, a sequence as the list of its
items. -/
def plain : Value → Value
  | .display s => .text s
  | .present v => .present v.plain
  | .wrapped v => .wrapped v.plain
  | .sequence items => .sequence (plainAll items)
  | .unsizedSequence items => .unsizedSequence (plainAll items)
  | .repeated count item => .sequence (List.replicate count item.plain)
  | .tuple items => .tuple (plainAll items)
  | .record fields => .record (plainAll fields)
  | .map entries => .map (plainEntries entries)
  | .unsizedMap entries => .unsizedMap (plainEntries entries)
  | .wrappedVariant index v => .wrappedVariant index v.plain
  | .tupleVariant index items => .tupleVariant index (plainAll items)
  | other => other

def plainAll : List Value → List Value
  | [] => []
  | v :: rest => v.plain :: plainAll rest

def plainEntries : List (Value × Value) → List (Value × Value)
  | [] => []
  | (key, v) :: rest => (key.plain, v.plain) :: plainEntries rest

end

theorem plainAll_eq (items : List Value) : plainAll items = items.map plain := by
  induction items with
  | nil => rfl
  | cons v rest ih => rw [plainAll, ih, List.map_cons]

theorem plain_map_congr {xs ys : List (Value × Value)}
    (inner : (map xs).parts.map plain = (map ys).parts.map plain) :
    (map xs).plain = (map ys).plain := by
  rw [plain, plain]
  congr 1
  simp only [parts] at inner
  induction xs generalizing ys with
  | nil =>
      cases ys with
      | nil => rfl
      | cons y others => cases inner
  | cons x rest ih =>
      cases ys with
      | nil => cases inner
      | cons y others =>
          obtain ⟨key, later⟩ := List.cons.inj inner
          obtain ⟨value, others⟩ := List.cons.inj later
          simp only [plainEntries, key, value, ih others]

end Value

variable {shape : Shape T} {types others : List T} {v w : Value} {p q : Bytes}

/-- The contents of one alternative have one form. -/
theorem Contents.Fits.congr {contents : Contents T} {index : UInt32}
    (h : contents.Fits index v types) (k : contents.Fits index w others) :
    types = others ∧
      (v.parts.map Value.plain = w.parts.map Value.plain → v.plain = w.plain) := by
  cases h with
  | nothing =>
      cases k
      exact ⟨rfl, fun _ => rfl⟩
  | one =>
      cases k
      exact ⟨rfl, fun inner =>
        congrArg (Value.wrappedVariant index) (List.head_eq_of_cons_eq inner)⟩
  | several =>
      cases k
      refine ⟨rfl, fun inner => ?_⟩
      rw [Value.plain, Value.plain, Value.plainAll_eq, Value.plainAll_eq]
      exact congrArg (Value.tupleVariant index) inner

theorem Contents.Fits.opening_eq {contents : Contents T} {index : UInt32}
    (h : contents.Fits index v types) : v.opening = Varint.write index.toNat := by
  cases h <;> rfl

/-- However a sequence is given, it is written and meant as the list of its items. -/
theorem Shape.Fits.of_sequence {item : T} (h : Fits (.sequence item) v types) :
    v.opening = Varint.write v.parts.length ∧ types = List.replicate v.parts.length item ∧
      v.plain = .sequence (v.parts.map Value.plain) := by
  cases h with
  | sequence =>
      rw [Value.plain, Value.plainAll_eq]
      exact ⟨rfl, rfl, rfl⟩
  | @repeated item count v =>
      rw [Value.plain, Value.parts, List.length_replicate, List.map_replicate]
      exact ⟨rfl, rfl, rfl⟩

/-- Two values of one shape whose openings stand in one place of the input: what follows is the
same, its types are, and if the parts mean the same then so do the values. -/
theorem Shape.Fits.cut (h : shape.Fits v types) (k : shape.Fits w others)
    (same : v.opening ++ p = w.opening ++ q) :
    p = q ∧ types = others ∧
      (v.parts.map Value.plain = w.parts.map Value.plain → v.plain = w.plain) := by
  cases shape with
  | bool =>
      cases h; cases k
      obtain ⟨rfl, rest⟩ := delimited_flag.cut same
      exact ⟨rest, rfl, fun _ => rfl⟩
  | natural width =>
      cases h; cases k
      obtain ⟨rfl, rest⟩ := (delimited_natural width).cut same
      exact ⟨rest, rfl, fun _ => rfl⟩
  | integer width =>
      cases h; cases k
      obtain ⟨rfl, rest⟩ := (delimited_integer width).cut same
      exact ⟨rest, rfl, fun _ => rfl⟩
  | single =>
      cases h; cases k
      obtain ⟨rfl, rest⟩ := delimited_single.cut same
      exact ⟨rest, rfl, fun _ => rfl⟩
  | double =>
      cases h; cases k
      obtain ⟨rfl, rest⟩ := delimited_double.cut same
      exact ⟨rest, rfl, fun _ => rfl⟩
  | char =>
      cases h; cases k
      obtain ⟨rfl, rest⟩ := delimited_char.cut same
      exact ⟨rest, rfl, fun _ => rfl⟩
  | text =>
      cases h <;> cases k <;>
      · obtain ⟨rfl, rest⟩ := delimited_text.cut same
        exact ⟨rest, rfl, fun _ => rfl⟩
  | bytes =>
      cases h; cases k
      obtain ⟨rfl, rest⟩ := delimited_counted.cut same
      exact ⟨rest, rfl, fun _ => rfl⟩
  | option type =>
      -- the first byte tells whether there is a value
      cases h with
      | absent =>
          cases k with
          | absent => exact ⟨List.tail_eq_of_cons_eq same, rfl, fun _ => rfl⟩
          | present => cases List.head_eq_of_cons_eq same
      | present =>
          cases k with
          | absent => cases List.head_eq_of_cons_eq same
          | present =>
              exact ⟨List.tail_eq_of_cons_eq same, rfl, fun inner =>
                congrArg Value.present (List.head_eq_of_cons_eq inner)⟩
  | unit =>
      cases h; cases k
      exact ⟨same, rfl, fun _ => rfl⟩
  | wrapped type =>
      cases h; cases k
      exact ⟨same, rfl, fun inner => congrArg Value.wrapped (List.head_eq_of_cons_eq inner)⟩
  | sequence item =>
      obtain ⟨opening, rfl, meant⟩ := h.of_sequence
      obtain ⟨opening', rfl, meant'⟩ := k.of_sequence
      rw [opening, opening'] at same
      obtain ⟨count, rest⟩ := delimited_write.cut same
      rw [count, meant, meant']
      exact ⟨rest, rfl, congrArg Value.sequence⟩
  | tuple items =>
      cases h; cases k
      refine ⟨same, rfl, fun inner => ?_⟩
      rw [Value.plain, Value.plain, Value.plainAll_eq, Value.plainAll_eq]
      exact congrArg Value.tuple inner
  | record fields =>
      cases h; cases k
      refine ⟨same, rfl, fun inner => ?_⟩
      rw [Value.plain, Value.plain, Value.plainAll_eq, Value.plainAll_eq]
      exact congrArg Value.record inner
  | map key value =>
      cases h; cases k
      obtain ⟨count, rest⟩ := delimited_write.cut same
      rw [count]
      exact ⟨rest, rfl, Value.plain_map_congr⟩
  | choice contents =>
      cases h with
      | choice chosen =>
          cases k with
          | choice other =>
              rw [chosen.opening_eq, other.opening_eq] at same
              obtain ⟨rfl, rest⟩ := delimited_index.cut same
              exact ⟨rest, chosen.congr other⟩

namespace Value

variable {schema : Schema T} {type : T}

/-- The value's bytes, at the head of whatever input, are those of no other value of the type: there
is no other meaning and no other end. -/
def Recognized (schema : Schema T) (type : T) (v : Value) : Prop :=
  ∀ ⦃w xs ys p q⦄, Conforms schema type w → v.encode = .ok xs → w.encode = .ok ys →
    xs ++ p = ys ++ q → v.plain = w.plain ∧ p = q

/-- A value that was written opens, and its parts come behind. -/
theorem parts_of_encode {xs : Bytes} (written : v.encode = .ok xs) :
    v.fault? = none ∧ ∃ rest, encodeAll v.parts = .ok rest ∧ xs = v.opening ++ rest := by
  rw [encode_eq_opening] at written
  cases refusal : v.fault? with
  | some fault =>
      rw [refusal] at written
      cases written
  | none =>
      rw [refusal] at written
      cases inner : encodeAll v.parts with
      | error fault =>
          rw [inner] at written
          cases written
      | ok rest =>
          rw [inner] at written
          cases written
          exact ⟨rfl, rest, rfl, rfl⟩

theorem head_of_encodeAll {rest : List Value} {xs : Bytes}
    (written : encodeAll (v :: rest) = .ok xs) :
    ∃ head later, v.encode = .ok head ∧ encodeAll rest = .ok later ∧ xs = head ++ later := by
  rw [encodeAll] at written
  cases first : v.encode with
  | error fault =>
      rw [first] at written
      cases written
  | ok head =>
      cases others : encodeAll rest with
      | error fault =>
          rw [first, others] at written
          cases written
      | ok later =>
          rw [first, others] at written
          cases written
          exact ⟨head, later, rfl, rfl, rfl⟩

/-- Recognizing the parts one after the other. The induction is on their types. -/
theorem recognize_parts {types : List T} {vs ws : List Value} {xs ys : Bytes}
    (count : types.length = vs.length) (same_count : types.length = ws.length)
    (each : ∀ part ∈ types.zip vs, Recognized schema part.1 part.2)
    (inner : ∀ part ∈ types.zip ws, Conforms schema part.1 part.2)
    (x : encodeAll vs = .ok xs) (y : encodeAll ws = .ok ys) (same : xs ++ p = ys ++ q) :
    vs.map plain = ws.map plain ∧ p = q := by
  induction types generalizing vs ws xs ys with
  | nil =>
      cases List.eq_nil_of_length_eq_zero count.symm
      cases List.eq_nil_of_length_eq_zero same_count.symm
      cases x
      cases y
      exact ⟨rfl, same⟩
  | cons type types ih =>
      cases vs with
      | nil => cases count
      | cons v vs =>
          cases ws with
          | nil => cases same_count
          | cons w ws =>
              obtain ⟨here, later⟩ := List.forall_mem_cons.mp each
              obtain ⟨typed, others⟩ := List.forall_mem_cons.mp inner
              obtain ⟨xs, xs', first, rest, rfl⟩ := head_of_encodeAll x
              obtain ⟨ys, ys', first', rest', rfl⟩ := head_of_encodeAll y
              rw [List.append_assoc, List.append_assoc] at same
              obtain ⟨meaning, same⟩ := here typed first first' same
              obtain ⟨meanings, tail⟩ := ih (Nat.succ.inj count) (Nat.succ.inj same_count) later
                others rest rest' same
              rw [List.map_cons, List.map_cons, meaning, meanings]
              exact ⟨rfl, tail⟩

/-- The induction is on how the value is built. Its opening settles the types of its parts, and
those are recognized one by one. -/
theorem Conforms.recognized (h : Conforms schema type v) : Recognized schema type v := by
  induction h with
  | refused refusal =>
      intro w xs ys p q _ x
      rw [(parts_of_encode x).1] at refusal
      cases refusal
  | @built type v types fits count _ ih =>
      intro w xs ys p q typed x y same
      obtain ⟨-, rest, written, rfl⟩ := parts_of_encode x
      obtain ⟨sound, rest', written', rfl⟩ := parts_of_encode y
      cases typed with
      | refused refusal =>
          rw [sound] at refusal
          cases refusal
      | built fits' count' inner =>
          rw [List.append_assoc, List.append_assoc] at same
          obtain ⟨same, rfl, meant⟩ := fits.cut fits' same
          obtain ⟨parts, tail⟩ := recognize_parts count count' ih inner written written' same
          exact ⟨meant parts, tail⟩

end Value
end ElasticBatch.Wire

namespace ElasticBatch.Payload

open Wire

variable {v w : Value} {aligned : Bool} {e : Encoded}

theorem of_encode_insertNode (written : (insertNode (.value v)).encode = .ok e) :
    v.encode = .ok e.bytes := by
  simp only [encode, Node.encode_value] at written
  cases result : v.encode with
  | error fault => rw [result] at written; cases written
  | ok xs => rw [result] at written; cases written; rfl

theorem of_encode_tablet (written : (tablet (.value v) aligned).encode = .ok e) :
    ∃ xs, v.encode = .ok xs ∧ e.bytes = xs ++ [if aligned then 1 else 0] := by
  simp only [encode, Node.encode_value] at written
  cases result : v.encode with
  | error fault => rw [result] at written; cases written
  | ok xs => rw [result] at written; cases written; exact ⟨xs, rfl, rfl⟩

/-- Two values of one type. As nodes they have the same bytes only if they mean the same, and as
tablets only if also the flags are the same; a tablet is the node and one byte for the flag. The
bytes of the one are no proper beginning of the other's: in any input that starts with both, both
mean the same and leave the same rest, so that the flag is found where the value ends. -/
theorem told_apart {T : Type} (schema : Schema T) (type : T) (v w : Value)
    (typed : v.Conforms schema type) (typed' : w.Conforms schema type) :
    (∀ x y, (insertNode (.value v)).encode = .ok x → (insertNode (.value w)).encode = .ok y →
      x.bytes = y.bytes → v.plain = w.plain) ∧
    (∀ a b x y, (tablet (.value v) a).encode = .ok x → (tablet (.value w) b).encode = .ok y →
      x.bytes = y.bytes → v.plain = w.plain ∧ a = b) ∧
    (∀ a x, (tablet (.value v) a).encode = .ok x → ∃ node,
      (insertNode (.value v)).encode = .ok node ∧ x.bytes = node.bytes ++ [if a then 1 else 0]) ∧
    (∀ xs ys, v.encode = .ok xs → w.encode = .ok ys → xs <+: ys → xs = ys) ∧
    ∀ xs ys p q, v.encode = .ok xs → w.encode = .ok ys → xs ++ p = ys ++ q →
      v.plain = w.plain ∧ p = q := by
  have known := typed.recognized
  refine ⟨fun x y first second same => ?_, fun a b x y first second same => ?_,
    fun a x written => ?_, fun xs ys first second => ?_, fun xs ys p q first second same => ?_⟩
  · have same : x.bytes ++ [] = y.bytes ++ [] := congrArg (· ++ []) same
    exact (known typed' (of_encode_insertNode first) (of_encode_insertNode second) same).1
  · obtain ⟨xs, first, left⟩ := of_encode_tablet first
    obtain ⟨ys, second, right⟩ := of_encode_tablet second
    rw [left, right] at same
    obtain ⟨meaning, flags⟩ := known typed' first second same
    exact ⟨meaning, (delimited_flag.cut (congrArg (· ++ []) flags)).1⟩
  · obtain ⟨xs, first, left⟩ := of_encode_tablet written
    refine ⟨⟨.insertNode, xs⟩, ?_, left⟩
    rw [encode, Node.encode_value, first]
    rfl
  · rintro ⟨rest, rfl⟩
    have none : rest = [] := (known typed' first second (List.append_nil _).symm).2
    rw [none, List.append_nil]
  · exact known typed' first second same

inductive Clause where
  | filter
  | filters
  | name

/-- A filter lets all pass, or one name, or what any of some filters lets pass. -/
def filterContents (index : UInt32) : Contents Clause :=
  if index = 0 then .nothing else if index = 1 then .one .name else .several [.filters]

def filterSchema : Schema Clause
  | .filter => .choice filterContents
  | .filters => .sequence .filter
  | .name => .text

def listedFilter : Value :=
  .tupleVariant 2 [.sequence [.wrappedVariant 1 (.text "d"), .wrappedVariant 1 (.text "d")]]

/-- Put together in another way, it is the same filter. -/
def repeatedFilter : Value := .tupleVariant 2 [.repeated 2 (.wrappedVariant 1 (.display "d"))]

theorem conforms_one {v : Value} (fits : (filterSchema .name).Fits v []) (leaf : v.parts = []) :
    (Value.wrappedVariant 1 v).Conforms filterSchema .filter := by
  have chosen : (filterContents 1).Fits 1 (.wrappedVariant 1 v) [.name] := .one
  refine .built (.choice chosen) rfl (List.forall_mem_singleton.mpr ?_)
  exact .built fits (by rw [leaf]; rfl) (by simp)

theorem conforms_any {v : Value} {count : Nat}
    (fits : (filterSchema .filters).Fits v (List.replicate count .filter))
    (counted : v.parts.length = count)
    (each : ∀ part ∈ v.parts, part.Conforms filterSchema .filter) :
    (Value.tupleVariant 2 [v]).Conforms filterSchema .filter := by
  have chosen : (filterContents 2).Fits 2 (.tupleVariant 2 [v]) [.filters] := .several
  refine .built (.choice chosen) rfl (List.forall_mem_singleton.mpr ?_)
  refine .built fits (by rw [counted, List.length_replicate]) fun ⟨type, part⟩ member => ?_
  have inside := List.of_mem_zip member
  rw [List.eq_of_mem_replicate inside.1]
  exact each part inside.2

/-- The two make one tablet, and so they are one filter. -/
theorem one_filter_twice : listedFilter.Conforms filterSchema .filter ∧
    repeatedFilter.Conforms filterSchema .filter ∧
    (∃ e, (tablet (.value listedFilter) true).encode = .ok e ∧
      (tablet (.value repeatedFilter) true).encode = .ok e ∧
      e.bytes = [2, 2, 1, 1, 100, 1, 1, 100, 1]) ∧
    listedFilter.plain = repeatedFilter.plain := by
  have listed : listedFilter.Conforms filterSchema .filter :=
    conforms_any .sequence rfl (List.forall_mem_cons.mpr
      ⟨conforms_one .text rfl, List.forall_mem_singleton.mpr (conforms_one .text rfl)⟩)
  have repeated : repeatedFilter.Conforms filterSchema .filter :=
    conforms_any .repeated rfl fun part inside =>
      List.eq_of_mem_replicate inside ▸ conforms_one .display rfl
  obtain ⟨e, first, second, bytes⟩ : ∃ e, (tablet (.value listedFilter) true).encode = .ok e ∧
      (tablet (.value repeatedFilter) true).encode = .ok e ∧
      e.bytes = [2, 2, 1, 1, 100, 1, 1, 100, 1] := ⟨_, rfl, rfl, by decide +kernel⟩
  have told := told_apart filterSchema .filter listedFilter repeatedFilter listed repeated
  exact ⟨listed, repeated, ⟨e, first, second, bytes⟩, (told.2.1 true true e e first second rfl).1⟩

end ElasticBatch.Payload
