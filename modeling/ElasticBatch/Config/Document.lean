import ElasticBatch.Config.Basic
import ElasticBatch.Document

/-! Settings as a document: a map by field name, or a sequence in declaration order. -/
namespace ElasticBatch.Config

def toDocument (c : Config) : Document :=
  .map [delayField, sizeField] (by decide) fun
    | 0 => .integer c.delaySeconds.toNat
    | 1 => .integer c.sizeBytes.toNat

def readDelay (d : Document) : Except Document.Fault UInt32 :=
  (d.natural UInt32.size "u32").map UInt32.ofNat

def readSize (d : Document) : Except Document.Fault Word :=
  (d.natural UInt64.size "u64").map UInt64.ofNat

/-- The size is read before the delay. A missing field takes its default; others are ignored. -/
def ofEntries (under : String → Option Document) : Except Document.Fault Config := do
  let size ← match under sizeField with
    | none => .ok defaultSize
    | some d => readSize d
  let delay ← match under delayField with
    | none => .ok defaultDelay
    | some d => readDelay d
  return ⟨delay, size⟩

/-- What is missing at the end takes its default; what is too much is refused last. -/
def ofItems : List Document → Except Document.Fault Config
  | [] => .ok {}
  | [delay] => do return { delaySeconds := ← readDelay delay }
  | [delay, size] => do return ⟨← readDelay delay, ← readSize size⟩
  | delay :: size :: extra => do
    let _ ← readDelay delay
    let _ ← readSize size
    .error (.invalidLength (2 + extra.length) "fewer elements in array")

def ofDocument : Document → Except Document.Fault Config
  | .map _ _ values => ofEntries (Document.under values)
  | .sequence items => ofItems items
  | other => .error (.invalidType other.describe "struct BatchConfig")

end ElasticBatch.Config
