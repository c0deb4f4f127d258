import ElasticBatch.Wire.Varint

/-! Structured values and their wire form. The form carries no type information: a reader has to
know the schema. -/
namespace ElasticBatch.Wire

inductive Width where
  | w8
  | w16
  | w32
  | w64
  | w128
  deriving DecidableEq, Repr

def Width.bits : Width → Nat
  | .w8 => 8
  | .w16 => 16
  | .w32 => 32
  | .w64 => 64
  | .w128 => 128

/-- Floats are given by their bits. An unsized collection does not know its length in advance, an
unprintable text breaks off when it is collected, and a failing value refuses to be written. -/
inductive Value where
  | bool (b : Bool)
  | natural (width : Width) (n : BitVec width.bits)
  | integer (width : Width) (n : BitVec width.bits)
  | single (bits : UInt32)
  | double (bits : UInt64)
  | char (c : Char)
  | text (s : String)
  | display (s : String)
  | unprintable
  | bytes (content : Bytes)
  | absent
  | present (v : Value)
  | unit
  | wrapped (v : Value)
  | sequence (items : List Value)
  | unsizedSequence (items : List Value)
  | repeated (count : Nat) (item : Value)
  | tuple (items : List Value)
  | record (fields : List Value)
  | map (entries : List (Value × Value))
  | unsizedMap (entries : List (Value × Value))
  | unitVariant (index : UInt32)
  | wrappedVariant (index : UInt32) (v : Value)
  | tupleVariant (index : UInt32) (items : List Value)
  | failing (cause : String)

/-- Integers of small size become small naturals, whatever their sign. -/
def zigzag : Int → Nat
  | .ofNat n => 2 * n
  | .negSucc n => 2 * n + 1

def littleEndian : Nat → Nat → Bytes
  | 0, _ => []
  | places + 1, n => UInt8.ofNat (n % 256) :: littleEndian places (n / 256)

/-- Behind its length. -/
def counted (content : Bytes) : Bytes := Varint.write content.length ++ content

def utf8 (s : String) : Bytes := s.toUTF8.data.toList

/-- A byte stands for itself; wider numbers are varints. -/
def natural (width : Width) (n : BitVec width.bits) : Bytes :=
  match width with
  | .w8 => [UInt8.ofNat n.toNat]
  | _ => Varint.write n.toNat

def integer (width : Width) (n : BitVec width.bits) : Bytes :=
  match width with
  | .w8 => [UInt8.ofNat n.toNat]
  | _ => Varint.write (zigzag n.toInt)

namespace Value

mutual

/-- Writes in order and stops at the first fault. -/
def encode : Value → Except Fault Bytes
  | .bool b => .ok [if b then 1 else 0]
  | .natural width n => .ok (Wire.natural width n)
  | .integer width n => .ok (Wire.integer width n)
  | .single bits => .ok (littleEndian 4 bits.toNat)
  | .double bits => .ok (littleEndian 8 bits.toNat)
  | .char c => .ok (counted (String.utf8EncodeChar c))
  | .text s | .display s => .ok (counted (utf8 s))
  | .unprintable => .error .collectText
  | .bytes content => .ok (counted content)
  | .absent => .ok [0]
  | .present v => do return 1 :: (← encode v)
  | .unit => .ok []
  | .wrapped v => encode v
  | .sequence items => do return Varint.write items.length ++ (← encodeAll items)
  | .unsizedSequence _ | .unsizedMap _ => .error .lengthUnknown
  | .repeated 0 _ => .ok [0]
  | .repeated (count + 1) item => do
    return Varint.write (count + 1) ++ (List.replicate (count + 1) (← encode item)).flatten
  | .tuple items | .record items => encodeAll items
  | .map entries => do return Varint.write entries.length ++ (← encodeEntries entries)
  | .unitVariant index => .ok (Varint.write index.toNat)
  | .wrappedVariant index v => do return Varint.write index.toNat ++ (← encode v)
  | .tupleVariant index items => do return Varint.write index.toNat ++ (← encodeAll items)
  | .failing _ => .error .writerRefused

def encodeAll : List Value → Except Fault Bytes
  | [] => .ok []
  | v :: rest => do return (← encode v) ++ (← encodeAll rest)

/-- Every key before its value. -/
def encodeEntries : List (Value × Value) → Except Fault Bytes
  | [] => .ok []
  | (key, v) :: rest => do return (← encode key) ++ ((← encode v) ++ (← encodeEntries rest))

end

end Value
end ElasticBatch.Wire
