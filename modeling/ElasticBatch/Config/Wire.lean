import ElasticBatch.Config.Basic
import ElasticBatch.Wire.Varint

/-! Settings on the wire: the delay, then the size, each a varint of its own width. -/
namespace ElasticBatch.Config

open Wire

def bytes (c : Config) : Bytes :=
  Varint.write c.delaySeconds.toNat ++ Varint.write c.sizeBytes.toNat

/-- Also gives what follows. -/
def read (start : Cursor) : Except Wire.Fault (Config × Cursor) :=
  match Varint.read Varint.bits32 start with
  | .error fault => .error fault
  | .ok (delay, middle) =>
    match Varint.read Varint.bits64 middle with
    | .error fault => .error fault
    | .ok (size, rest) => .ok (⟨UInt32.ofNat delay, UInt64.ofNat size⟩, rest)

end ElasticBatch.Config
