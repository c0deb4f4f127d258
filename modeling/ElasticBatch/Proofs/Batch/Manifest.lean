import ElasticBatch.Proofs.Batch.Verdict

/-! What a batch should hold, told from the calls alone: the events accepted since it was last
emptied, each with its buffer. All that a batch keeps is a view of that one list. -/
namespace ElasticBatch

/-- The bytes of a node that was written to its end. What comes before a failure does not count. -/
def Node.complete? : Node → Option Bytes
  | .value v => v.encode.toOption
  | .raw written none => some written
  | .raw _ (some _) => none

/-- Bytes at hand go out verbatim. A tablet is followed by its flag. Each kind of payload has a
collection of its own. -/
def Payload.buffer? : Payload → Option Encoded
  | .binary content => some ⟨.binary, content⟩
  | .insertNode node => node.complete?.map (⟨.insertNode, ·⟩)
  | .tablet node aligned =>
    node.complete?.map fun written => ⟨.tablet, written ++ [if aligned then 1 else 0]⟩

/-- The buffer that an offer is worth, if its payload is there and can be encoded. -/
def Offer.encoding? (o : Offer) : Option Encoded := o.payload.toOption.bind Payload.buffer?

/-- An accepted event, its buffer, and the time at which it came in. -/
structure Entry where
  event : Event
  encoded : Encoded
  time : Nat

structure Manifest where
  entries : List Entry := []
  closed : Bool := false

namespace Manifest

/-- The event neither is nor equals the one accepted last. -/
def IsNew (a : Manifest) (event : Event) : Prop :=
  ∀ last ∈ a.entries.getLast?,
    last.event.handle ≠ event.handle ∧ last.event.equals event.handle = false

instance (a : Manifest) (event : Event) : Decidable (a.IsNew event) :=
  inferInstanceAs (Decidable (∀ last ∈ a.entries.getLast?, _ ∧ _))

/-- Accepted is a new event that can be retained and encoded, as long as the batch is open. -/
def accepted? (a : Manifest) (now : Nat) (o : Offer) : Option Entry :=
  if a.closed = false ∧ a.IsNew o.event ∧ o.retained = true then
    o.encoding?.map (⟨o.event, ·, now⟩)
  else none

def record (a : Manifest) (call : Batch.Moment × Batch.Op) : Manifest :=
  match call with
  | (m, .offer o) => { a with entries := a.entries ++ (a.accepted? m.now o).toList }
  | (_, .reset) => { a with entries := [] }
  | (_, .close _) => ⟨[], true⟩

def after (calls : List (Batch.Moment × Batch.Op)) : Manifest := calls.foldl record {}

def buffers (a : Manifest) (category : Category) : List Bytes :=
  (a.entries.filter (·.encoded.category = category)).map (·.encoded.bytes)

/-- The exact number of bytes in all buffers. -/
def size (a : Manifest) : Nat := (a.entries.flatMap (·.encoded.bytes)).length

variable {a : Manifest} {m : Batch.Moment} {o : Offer}

theorem record_accepted {entry : Entry} (accepted : a.accepted? m.now o = some entry) :
    a.record (m, .offer o) = { a with entries := a.entries ++ [entry] } := by
  simp only [record, accepted, Option.toList_some]

theorem record_turnedAway (refused : a.accepted? m.now o = none) :
    a.record (m, .offer o) = a := by
  simp only [record, refused, Option.toList_none, List.append_nil]

theorem open_of_accepted {now : Nat} {entry : Entry} (accepted : a.accepted? now o = some entry) :
    a.closed = false := by
  unfold accepted? at accepted
  split at accepted
  · next conditions => exact conditions.1
  · cases accepted

theorem after_concat (calls : List (Batch.Moment × Batch.Op)) (call : Batch.Moment × Batch.Op) :
    after (calls ++ [call]) = (after calls).record call := by
  rw [after, List.foldl_append]
  rfl

end Manifest

theorem Node.toOption_encode (node : Node) : node.encode.toOption = node.complete? := by
  cases node with
  | value v =>
      rw [encode_value]
      cases h : v.encode with
      | error fault => simp only [complete?, h]; rfl
      | ok bytes => simp only [complete?, h]; rfl
  | raw written failure => cases failure <;> rfl

theorem Payload.toOption_encode (p : Payload) : p.encode.toOption = p.buffer? := by
  cases p with
  | binary content => rfl
  | insertNode node =>
      simp only [encode, buffer?, ← Node.toOption_encode]
      cases node.encode <;> rfl
  | tablet node aligned =>
      simp only [encode, buffer?, ← Node.toOption_encode]
      cases node.encode <;> rfl

theorem Offer.toOption_encodeOffered (o : Offer) :
    (Payload.encodeOffered o.payload).toOption = o.encoding? := by
  unfold encoding?
  cases o.payload with
  | error cause => rfl
  | ok p =>
      simp only [Payload.encodeOffered, Except.toOption, Option.bind_some]
      rw [← Payload.toOption_encode]
      cases p.encode <;> rfl

namespace Batch

/-- The batch keeps exactly what the manifest lists, which is nothing once it is closed. -/
structure Holds (b : Batch) (a : Manifest) : Prop where
  retained : b.retained = a.entries.map Entry.event
  commitIds : b.commitIds = a.entries.map (·.event.commitId)
  pending (category : Category) : b.pending.get category = a.buffers category
  total : b.total = UInt64.ofNat a.size
  firstAt : b.firstAt = a.entries.head?.map Entry.time
  closed : b.closed = a.closed
  drained : a.closed = true → a.entries = []

theorem holds_ofConfig (config : Config) : Holds (ofConfig config) {} where
  retained := rfl
  commitIds := rfl
  pending category := Buffers.get_empty category
  total := rfl
  firstAt := rfl
  closed := rfl
  drained _ := rfl

variable {b : Batch} {a : Manifest}

/-- The counters are no part of what the manifest lists. -/
theorem Holds.tally (h : Holds b a) (entry : Stats.Entry) : Holds (b.tally entry) a where
  retained := h.retained
  commitIds := h.commitIds
  pending := h.pending
  total := h.total
  firstAt := h.firstAt
  closed := h.closed
  drained := h.drained

theorem Holds.repeats_eq_false_iff (h : Holds b a) (event : Event) :
    b.repeats event = false ↔ a.IsNew event := by
  unfold repeats Manifest.IsNew
  rw [h.retained, List.getLast?_map]
  cases a.entries.getLast? <;> simp

theorem Holds.accept (h : Holds b a) (running : a.closed = false) (now : Nat) (o : Offer)
    (encoded : Encoded) :
    Holds (b.settle now o (.accepted encoded))
      { a with entries := a.entries ++ [⟨o.event, encoded, now⟩] } where
  retained := by
    simp only [settle, append, h.retained, List.map_append, List.map_cons, List.map_nil]
  commitIds := by
    simp only [settle, append, h.commitIds, List.map_append, List.map_cons, List.map_nil]
  pending category := by
    rw [settle, append, Buffers.get_push, h.pending]
    by_cases same : category = encoded.category
    · simp [Manifest.buffers, same]
    · simp [Manifest.buffers, same, Ne.symm same]
  total := by
    simp only [settle, append, h.total, Manifest.size, List.flatMap_append, List.flatMap_singleton,
      List.length_append, UInt64.ofNat_add]
  firstAt := by
    simp only [settle, append, h.firstAt]
    cases a.entries <;> rfl
  closed := h.closed
  drained shut := absurd shut (by simp [running])

theorem Holds.emptied (h : Holds b a) : Holds b.cleared { a with entries := [] } where
  retained := rfl
  commitIds := rfl
  pending category := Buffers.get_empty category
  total := rfl
  firstAt := rfl
  closed := h.closed
  drained _ := rfl

end Batch
end ElasticBatch
