import ElasticBatch.Wire.Fault

/-! Every way in which batching fails, with its class. A cause is free text: it may come from an
event's owner as well as from this library. -/
namespace ElasticBatch

inductive Error where
  | serialization (cause : String)
  | payloadUnavailable (cause : String)
  | deserialization (cause : String)
  | tooLarge (size limit : Nat)
  | configuration (cause : String)
  | closed
  | io (cause : String)
  deriving DecidableEq, Repr

namespace Error

inductive Category where
  | serialization
  | configuration
  | lifecycle
  | io
  deriving DecidableEq, Repr

namespace Category

def all : List Category := [.serialization, .configuration, .lifecycle, .io]

def name : Category → String
  | .serialization => "serialization"
  | .configuration => "configuration"
  | .lifecycle => "lifecycle"
  | .io => "io"

def label : Category → String
  | .serialization => "Serialization"
  | .configuration => "Configuration"
  | .lifecycle => "Lifecycle"
  | .io => "Io"

def index : Category → Nat
  | .serialization => 0
  | .configuration => 1
  | .lifecycle => 2
  | .io => 3

theorem getElem?_index (c : Category) : all[c.index]? = some c := by
  cases c <;> rfl

end Category

def message : Error → String
  | .serialization cause => "Serialization error: " ++ cause
  | .payloadUnavailable cause => "Payload unavailable: " ++ cause
  | .deserialization cause => "Deserialization error: " ++ cause
  | .tooLarge size limit =>
    "Request size " ++ toString size ++ " exceeds maximum " ++ toString limit
  | .configuration cause => "Configuration error: " ++ cause
  | .closed => "Batch accumulator is closed"
  | .io cause => "IO error: " ++ cause

def code : Error → String
  | .serialization _ => "serialization_error"
  | .payloadUnavailable _ => "payload_unavailable"
  | .deserialization _ => "deserialization_error"
  | .tooLarge .. => "message_too_large"
  | .configuration _ => "config_error"
  | .closed => "closed"
  | .io _ => "io_error"

def category : Error → Category
  | .serialization _ | .payloadUnavailable _ | .deserialization _ | .tooLarge .. => .serialization
  | .configuration _ => .configuration
  | .closed => .lifecycle
  | .io _ => .io

/-- The event could not be turned into bytes. -/
def isEncodingFailure : Error → Bool
  | .serialization _ | .payloadUnavailable _ | .io _ => true
  | .deserialization _ | .tooLarge .. | .configuration _ | .closed => false

/-- A fault met while writing. -/
def ofWriting (fault : Wire.Fault) : Error := .serialization fault.message

/-- A fault met while reading. -/
def ofReading (fault : Wire.Fault) : Error := .deserialization fault.message

theorem isEncodingFailure_ofWriting (fault : Wire.Fault) :
    (ofWriting fault).isEncodingFailure = true := rfl

end Error
end ElasticBatch
