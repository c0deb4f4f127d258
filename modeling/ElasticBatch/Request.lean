import ElasticBatch.Buffers

/-! A batch as it is sent: its buffers, collection by collection, each in arrival order. -/
namespace ElasticBatch

structure Request where
  binary : List Bytes := []
  insertNode : List Bytes := []
  tablet : List Bytes := []
  deriving DecidableEq, Repr

namespace Request

def ofBuffers (c : Buffers) : Request := ⟨c.binary, c.insertNode, c.tablet⟩

def get (r : Request) : Category → List Bytes
  | .binary => r.binary
  | .insertNode => r.insertNode
  | .tablet => r.tablet

/-- All buffers, collection by collection. -/
def buffers (r : Request) : List Bytes := Category.all.flatMap r.get

def count (r : Request) : Nat := r.buffers.length

def isEmpty (r : Request) : Bool := r.count == 0

/-- Payload bytes alone, without framing. -/
def totalBytes (r : Request) : Nat := r.buffers.flatten.length

theorem buffers_eq (r : Request) : r.buffers = r.binary ++ (r.insertNode ++ (r.tablet ++ [])) := rfl

theorem get_ofBuffers (c : Buffers) (category : Category) :
    (ofBuffers c).get category = c.get category := by
  cases category <;> rfl

end Request
end ElasticBatch
