import ElasticBatch.Buffers
import ElasticBatch.Effect

/-! Encoding straight into the buffers of a batch. A buffer joins its collection only once it is
complete. -/
namespace ElasticBatch

/-- A payload that was there but could not be encoded is worth a line in the log. -/
def Payload.Failure.effects (commitId : Word) (failure : Payload.Failure) : List Effect :=
  (failure.kind.map fun kind =>
    Effect.log (.encodingFailed kind commitId failure.error)).toList

/-- The collections with the buffer of what is offered, if one could be made. -/
def Buffers.absorb (c : Buffers) (commitId : Word) (offered : Except Error Payload) :
    Buffers × Except Error Encoded × List Effect :=
  match Payload.encodeOffered offered with
  | .ok encoded => (c.push encoded, .ok encoded, [])
  | .error failure => (c, .error failure.error, failure.effects commitId)

end ElasticBatch
