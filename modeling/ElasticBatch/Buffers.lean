import ElasticBatch.Payload

/-! The buffers of a batch under way: one collection for each category, each in arrival order. -/
namespace ElasticBatch

structure Buffers where
  binary : List Bytes := []
  insertNode : List Bytes := []
  tablet : List Bytes := []
  deriving DecidableEq, Repr

namespace Buffers

def empty : Buffers := {}

def get (c : Buffers) : Category → List Bytes
  | .binary => c.binary
  | .insertNode => c.insertNode
  | .tablet => c.tablet

/-- At the end of its collection. -/
def push (c : Buffers) (e : Encoded) : Buffers :=
  match e.category with
  | .binary => { c with binary := c.binary ++ [e.bytes] }
  | .insertNode => { c with insertNode := c.insertNode ++ [e.bytes] }
  | .tablet => { c with tablet := c.tablet ++ [e.bytes] }

def isEmpty (c : Buffers) : Bool := c.binary.isEmpty && c.insertNode.isEmpty && c.tablet.isEmpty

def count (c : Buffers) : Nat := c.binary.length + c.insertNode.length + c.tablet.length

def totalBytes (c : Buffers) : Nat := (Category.all.flatMap c.get).flatten.length

theorem get_push (c : Buffers) (e : Encoded) (category : Category) :
    (c.push e).get category =
      if category = e.category then c.get category ++ [e.bytes] else c.get category := by
  obtain ⟨into, bytes⟩ := e
  cases into <;> cases category <;> rfl

theorem get_empty (category : Category) : empty.get category = [] := by
  cases category <;> rfl

theorem isEmpty_iff (c : Buffers) : c.isEmpty = true ↔ ∀ category, c.get category = [] := by
  simp only [isEmpty, Bool.and_eq_true, List.isEmpty_iff]
  constructor
  · rintro ⟨⟨binary, insertNode⟩, tablet⟩ (_ | _)
    · exact binary
    · exact insertNode
    · exact tablet
  · intro all
    exact ⟨⟨all .binary, all .insertNode⟩, all .tablet⟩

end Buffers
end ElasticBatch
