import ElasticBatch.Request
import ElasticBatch.Wire.Varint

/-! Requests on the wire: three sections, each a count and so many buffers behind their lengths. -/
namespace ElasticBatch.Request

open Wire

/-- The longest message that is sent or accepted. -/
def limit : Nat := 268435456

def writeBuffer (b : Bytes) : Bytes := Varint.write b.length ++ b

def writeSection (bs : List Bytes) : Bytes := Varint.write bs.length ++ bs.flatMap writeBuffer

def layout (r : Request) : Bytes :=
  writeSection r.binary ++ (writeSection r.insertNode ++ writeSection r.tablet)

def framedSize (length : Nat) : Nat := Varint.size length + length

def sectionSize (lengths : List Nat) : Nat :=
  Varint.size lengths.length + lengths.foldr (framedSize · + ·) 0

/-- The length of the layout, from the buffer lengths alone. -/
def encodedSize (r : Request) : Nat :=
  sectionSize (r.binary.map List.length) + (sectionSize (r.insertNode.map List.length) +
    sectionSize (r.tablet.map List.length))

/-- The size of a request of `count` binary buffers, all of one length. -/
def uniformSize (count length : Nat) : Nat :=
  Varint.size count + count * framedSize length + (sectionSize [] + sectionSize [])

/-- Passes a size within the limit. -/
def checkSize (size : Nat) : Except Error Nat :=
  if limit < size then .error (.tooLarge size limit) else .ok size

def encode (r : Request) : Except Error Bytes := (checkSize r.encodedSize).map fun _ => r.layout

def readBuffer (start : Cursor) : Except Fault (Bytes × Cursor) :=
  match Varint.read Varint.bits64 start with
  | .error fault => .error fault
  | .ok (length, body) =>
    match body.take? length with
    | some found => .ok found
    | none => .error .unexpectedEnd

def readBuffers : Nat → Cursor → Except Fault (List Bytes × Cursor)
  | 0, start => .ok ([], start)
  | count + 1, start =>
    match readBuffer start with
    | .error fault => .error fault
    | .ok (b, middle) =>
      match readBuffers count middle with
      | .error fault => .error fault
      | .ok (bs, rest) => .ok (b :: bs, rest)

def readSection (start : Cursor) : Except Fault (List Bytes × Cursor) :=
  match Varint.read Varint.bits64 start with
  | .error fault => .error fault
  | .ok (count, body) => readBuffers count body

/-- Also gives what follows. -/
def read (start : Cursor) : Except Fault (Request × Cursor) := do
  let (binary, afterBinary) ← readSection start
  let (insertNode, afterInsertNode) ← readSection afterBinary
  let (tablet, rest) ← readSection afterInsertNode
  return (⟨binary, insertNode, tablet⟩, rest)

/-- A message over the limit is refused unread; whatever follows the request is ignored. -/
def decode (message : ByteArray) : Except Error Request :=
  if limit < message.size then .error (.tooLarge message.size limit)
  else
    match read (Cursor.start message) with
    | .ok (r, _) => .ok r
    | .error fault => .error (.ofReading fault)

theorem length_writeBuffer (b : Bytes) : (writeBuffer b).length = framedSize b.length := by
  rw [writeBuffer, List.length_append, Varint.length_write, framedSize]

theorem length_writeSection (bs : List Bytes) :
    (writeSection bs).length = sectionSize (bs.map List.length) := by
  rw [writeSection, List.length_append, Varint.length_write, sectionSize, List.length_map]
  congr 1
  induction bs with
  | nil => rfl
  | cons b rest ih =>
      rw [List.flatMap_cons, List.length_append, length_writeBuffer, ih]
      rfl

theorem length_layout (r : Request) : r.layout.length = r.encodedSize := by
  simp only [layout, encodedSize, List.length_append, length_writeSection]

theorem sectionSize_replicate (count length : Nat) :
    sectionSize (List.replicate count length) =
      Varint.size count + count * framedSize length := by
  rw [sectionSize, List.length_replicate]
  congr 1
  induction count with
  | zero => exact (Nat.zero_mul _).symm
  | succ count ih =>
      rw [List.replicate_succ, List.foldr_cons, ih, Nat.succ_mul]
      exact Nat.add_comm _ _

theorem uniformSize_eq (count : Nat) (b : Bytes) :
    uniformSize count b.length = encodedSize ⟨List.replicate count b, [], []⟩ := by
  simp only [uniformSize, encodedSize, List.map_replicate, sectionSize_replicate, List.map_nil]

end ElasticBatch.Request
