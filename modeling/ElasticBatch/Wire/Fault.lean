/-! Why a wire form could not be written or read. -/
namespace ElasticBatch.Wire

inductive Fault where
  | wontImplement
  | notYetImplemented
  | bufferFull
  | lengthUnknown
  | unexpectedEnd
  | badVarint
  | badBool
  | badChar
  | badUtf8
  | badOption
  | badEnum
  | badEncoding
  | badChecksum
  | writerRefused
  | readerRefused
  | collectText
  deriving DecidableEq, Repr

def Fault.message : Fault → String
  | .wontImplement => "This is a feature that PostCard will never implement"
  | .notYetImplemented => "This is a feature that Postcard intends to support, but does not yet"
  | .bufferFull => "The serialize buffer is full"
  | .lengthUnknown => "The length of a sequence must be known"
  | .unexpectedEnd => "Hit the end of buffer, expected more data"
  | .badVarint => "Found a varint that didn't terminate. Is the usize too big for this platform?"
  | .badBool => "Found a bool that wasn't 0 or 1"
  | .badChar => "Found an invalid unicode char"
  | .badUtf8 => "Tried to parse invalid utf-8"
  | .badOption => "Found an Option discriminant that wasn't 0 or 1"
  | .badEnum => "Found an enum discriminant that was > u32::max_value()"
  | .badEncoding => "The original data was not well encoded"
  | .badChecksum => "Bad CRC while deserializing"
  | .writerRefused => "Serde Serialization Error"
  | .readerRefused => "Serde Deserialization Error"
  | .collectText => "Error while processing `collect_str` during serialization"

end ElasticBatch.Wire
