import ElasticBatch.Error
import ElasticBatch.Wire.Value

/-! Nodes: what an event's structured payload writes into a buffer. -/
namespace ElasticBatch

/-- A node of its own making may write some bytes and fail after them, with any error. -/
inductive Node where
  | value (v : Wire.Value)
  | raw (written : Bytes) (failure : Option Error)

namespace Node

/-- The bytes that arrive in the buffer. A value that cannot be written leaves none. -/
def written : Node → Bytes
  | .value v => v.encode.toOption.getD []
  | .raw written _ => written

def failure : Node → Option Error
  | .value v =>
    match v.encode with
    | .ok _ => none
    | .error fault => some (.ofWriting fault)
  | .raw _ failure => failure

def appendTo (out : Bytes) (node : Node) : Bytes × Option Error :=
  (out ++ node.written, node.failure)

/-- One node after the other into one buffer; for each, the buffer's length afterwards. -/
def appendAll (out : Bytes) : List Node → Bytes × List (Nat × Option Error)
  | [] => (out, [])
  | node :: rest =>
    let (grown, failure) := node.appendTo out
    let (last, steps) := appendAll grown rest
    (last, (grown.length, failure) :: steps)

/-- The complete encoding, or the failure alone. -/
def encode (node : Node) : Except Error Bytes :=
  match node.failure with
  | none => .ok node.written
  | some e => .error e

theorem encode_value (v : Wire.Value) : (value v).encode = v.encode.mapError Error.ofWriting := by
  simp only [encode, failure, written]
  cases v.encode <;> rfl

end Node
end ElasticBatch
