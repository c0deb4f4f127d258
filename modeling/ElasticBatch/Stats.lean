import ElasticBatch.Category
import ElasticBatch.Word

/-! Counters of one batch's history. They wrap at `2 ^ 64`. -/
namespace ElasticBatch

structure Stats where
  accepted : Word := 0
  duplicates : Word := 0
  retainFailures : Word := 0
  encodingFailures : Word := 0
  batchesSent : Word := 0
  released : Word := 0
  binaryBytes : Word := 0
  insertNodeBytes : Word := 0
  tabletBytes : Word := 0
  deriving DecidableEq, Repr

namespace Stats

inductive Entry where
  | accepted (category : Category) (bytes : Word)
  | duplicate
  | retainFailure
  | encodingFailure
  | batchSent
  | released (count : Word)
  deriving DecidableEq, Repr

def addBytes (s : Stats) (bytes : Word) : Category → Stats
  | .binary => { s with binaryBytes := s.binaryBytes + bytes }
  | .insertNode => { s with insertNodeBytes := s.insertNodeBytes + bytes }
  | .tablet => { s with tabletBytes := s.tabletBytes + bytes }

def record (s : Stats) : Entry → Stats
  | .accepted category bytes => { s.addBytes bytes category with accepted := s.accepted + 1 }
  | .duplicate => { s with duplicates := s.duplicates + 1 }
  | .retainFailure => { s with retainFailures := s.retainFailures + 1 }
  | .encodingFailure => { s with encodingFailures := s.encodingFailures + 1 }
  | .batchSent => { s with batchesSent := s.batchesSent + 1 }
  | .released count => { s with released := s.released + count }

def bytes (s : Stats) : Category → Word
  | .binary => s.binaryBytes
  | .insertNode => s.insertNodeBytes
  | .tablet => s.tabletBytes

def totalBytes (s : Stats) : Word := s.binaryBytes + s.insertNodeBytes + s.tabletBytes

@[simp] theorem duplicates_addBytes (s : Stats) (n : Word) (c : Category) :
    (s.addBytes n c).duplicates = s.duplicates := by cases c <;> rfl

@[simp] theorem retainFailures_addBytes (s : Stats) (n : Word) (c : Category) :
    (s.addBytes n c).retainFailures = s.retainFailures := by cases c <;> rfl

@[simp] theorem encodingFailures_addBytes (s : Stats) (n : Word) (c : Category) :
    (s.addBytes n c).encodingFailures = s.encodingFailures := by cases c <;> rfl

@[simp] theorem batchesSent_addBytes (s : Stats) (n : Word) (c : Category) :
    (s.addBytes n c).batchesSent = s.batchesSent := by cases c <;> rfl

@[simp] theorem released_addBytes (s : Stats) (n : Word) (c : Category) :
    (s.addBytes n c).released = s.released := by cases c <;> rfl

theorem bytes_record_accepted (s : Stats) (c category : Category) (n : Word) :
    (s.record (.accepted category n)).bytes c =
      if c = category then s.bytes c + n else s.bytes c := by
  cases category <;> cases c <;> rfl

end Stats
end ElasticBatch
