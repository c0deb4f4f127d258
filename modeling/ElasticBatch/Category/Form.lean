import ElasticBatch.Category
import ElasticBatch.Error
import ElasticBatch.Document
import ElasticBatch.Wire.Varint

/-! Categories of buffers and of errors inside documents, by name, and on the wire, by index. -/
namespace ElasticBatch

namespace Category

def toDocument (c : Category) : Document := .text c.name

def ofDocument : Document → Except Document.Fault Category :=
  Document.variant (all.map fun c => (c.name, c))

def bytes (c : Category) : Bytes := Wire.Varint.write c.index

theorem ofDocument_toDocument (c : Category) : ofDocument c.toDocument = .ok c := by
  cases c <;> rfl

end Category

namespace Error.Category

def toDocument (c : Error.Category) : Document := .text c.name

def ofDocument : Document → Except Document.Fault Error.Category :=
  Document.variant (all.map fun c => (c.name, c))

def bytes (c : Error.Category) : Bytes := Wire.Varint.write c.index

theorem ofDocument_toDocument (c : Error.Category) : ofDocument c.toDocument = .ok c := by
  cases c <;> rfl

end Error.Category
end ElasticBatch
