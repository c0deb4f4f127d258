import ElasticBatch.Error
import ElasticBatch.Category
import ElasticBatch.Word

/-! What is written to the log, line by line. -/
namespace ElasticBatch

inductive Level where
  | debug
  | info
  | warn
  | error
  deriving DecidableEq, Repr

def Level.name : Level → String
  | .debug => "DEBUG"
  | .info => "INFO"
  | .warn => "WARN"
  | .error => "ERROR"

/-- A `report` is an event's own description of itself. -/
inductive Log where
  | allocated (requested granted : Word)
  | limitShrunk (old new : Word)
  | limitExpanded (old new : Word)
  | limitAdjusted (requested granted : Word)
  | rejected (report : String)
  | duplicate (commitId : Word)
  | encodingFailed (kind : Category) (commitId : Word) (cause : Error)
  | notGivenBack (report : String)
  | notEncoded (report : String) (cause : Error)
  | lost (report : String)
  | acknowledged (count : Nat)
  | notReleased (report : String)
  | closed (count : Nat)
  deriving DecidableEq, Repr

namespace Log

def level : Log → Level
  | .allocated .. | .duplicate _ | .encodingFailed .. | .acknowledged _ => .debug
  | .limitShrunk .. | .limitExpanded .. | .limitAdjusted .. | .closed _ => .info
  | .rejected _ | .notGivenBack _ | .notEncoded .. | .notReleased _ => .warn
  | .lost _ => .error

def text : Log → String
  | .allocated requested granted =>
    "Allocated memory block: requested=" ++ toString requested ++ ", granted=" ++ toString granted
  | .limitShrunk old new =>
    "The batch size limit has shrunk from " ++ toString old ++ " to " ++ toString new
  | .limitExpanded old new =>
    "The batch size limit has expanded from " ++ toString old ++ " to " ++ toString new
  | .limitAdjusted requested granted =>
    "Max batch size adjusted from " ++ toString requested ++ " to " ++ toString granted ++
      " due to memory restriction"
  | .rejected report => "Rejecting event " ++ report ++ " offered to a closed batch"
  | .duplicate commitId =>
    "Event with commit id " ++ toString commitId ++
      " is already the last one in the batch, skipping"
  | .encodingFailed kind commitId cause =>
    "Encoding " ++ kind.name ++ " payload of commit " ++ toString commitId ++ " failed: " ++
      cause.message
  | .notGivenBack report =>
    "Failed to give back reference of event " ++ report ++ " after encoding error"
  | .notEncoded report cause => "Failed to encode event " ++ report ++ ": " ++ cause.message
  | .lost report =>
    "Event " ++ report ++ " can not be transferred because the reference count can not be " ++
      "increased, the data represented by this event is lost"
  | .acknowledged count =>
    "Batch of " ++ toString count ++ " events acknowledged, accumulator reset"
  | .notReleased report => "Failed to release reference of event " ++ report ++ " on close"
  | .closed count =>
    "Batch accumulator closed, released " ++ toString count ++ " retained events"

def line (l : Log) : String := l.level.name ++ ": " ++ l.text

end Log
end ElasticBatch
