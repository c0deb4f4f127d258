import ElasticBatch.Category
import ElasticBatch.Node

/-! What an event offers for transfer, and the buffer that is made of it. -/
namespace ElasticBatch

/-- Bytes at hand go out as they are. A receiver needs to know whether a tablet is aligned. -/
inductive Payload where
  | binary (content : Bytes)
  | insertNode (node : Node)
  | tablet (node : Node) (aligned : Bool)

/-- A finished buffer. -/
structure Encoded where
  category : Category
  bytes : Bytes
  deriving DecidableEq, Repr

namespace Payload

/-- The kind of a payload, as the log names it. -/
def category : Payload → Category
  | .binary _ => .binary
  | .insertNode _ => .insertNode
  | .tablet .. => .tablet

def describe : Payload → String
  | .binary content => "Binary(" ++ toString content.length ++ ")"
  | .insertNode _ => "InsertNode(..)"
  | .tablet _ aligned => "Tablet \x7b aligned: " ++ toString aligned ++ ", .. \x7d"

/-- A tablet ends with one byte that says whether it is aligned. -/
def encode : Payload → Except Error Encoded
  | .binary content => .ok ⟨.binary, content⟩
  | .insertNode node => node.encode.map (⟨.insertNode, ·⟩)
  | .tablet node aligned =>
    node.encode.map fun written => ⟨.tablet, written ++ [if aligned then 1 else 0]⟩

/-- Why an event gave no buffer. The kind is known once the payload was there. -/
structure Failure where
  error : Error
  kind : Option Category
  deriving DecidableEq, Repr

/-- Encodes a payload that may itself be unavailable. -/
def encodeOffered : Except Error Payload → Except Failure Encoded
  | .error e => .error ⟨e, none⟩
  | .ok p => p.encode.mapError (⟨·, some p.category⟩)

end Payload
end ElasticBatch
