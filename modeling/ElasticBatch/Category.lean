/-! The three kinds of encoded buffer. A receiver decodes each kind in its own way, so they stay
apart. -/
namespace ElasticBatch

inductive Category where
  | binary
  | insertNode
  | tablet
  deriving DecidableEq, Repr

namespace Category

/-- The order in which every listing by category runs. -/
def all : List Category := [.binary, .insertNode, .tablet]

def name : Category → String
  | .binary => "binary"
  | .insertNode => "insert_node"
  | .tablet => "tablet"

/-- The constructor-like spelling used in diagnostic texts. -/
def label : Category → String
  | .binary => "Binary"
  | .insertNode => "InsertNode"
  | .tablet => "Tablet"

def index : Category → Nat
  | .binary => 0
  | .insertNode => 1
  | .tablet => 2

theorem getElem?_index (c : Category) : all[c.index]? = some c := by
  cases c <;> rfl

theorem mem_all (c : Category) : c ∈ all := List.mem_of_getElem? c.getElem?_index

end Category
end ElasticBatch
