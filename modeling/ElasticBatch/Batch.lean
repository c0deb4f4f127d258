import ElasticBatch.Config.Basic
import ElasticBatch.Encoding
import ElasticBatch.Request
import ElasticBatch.Stats

/-! A batch under way for one connection. Every offered event is retained, encoded and counted, or
turned away without a trace in the buffers; each answer says whether the batch should be sent. -/
namespace ElasticBatch

/-- An event as a batch sees it. Two offers of one event share a handle; equality is the event's
own affair and need not be reflexive. -/
structure Event where
  handle : Nat
  commitId : Word
  report : String
  equals : Nat → Bool

/-- An event together with its answers, should it be asked. -/
structure Offer where
  event : Event
  retained : Bool := true
  payload : Except Error Payload
  released : Bool := true

/-- The commit ids are kept beside the events that they belong to. -/
structure Batch where
  config : Config
  retained : List Event := []
  commitIds : List Word := []
  pending : Buffers := {}
  total : Word := 0
  firstAt : Option Nat := none
  closed : Bool := false
  stats : Stats := {}

namespace Batch

/-- Open and empty. -/
def ofConfig (config : Config) : Batch := { config := config }

/-- The name under which a batch holds its events. -/
def holder : String := "rivven_pipe::BatchAccumulator"

/-- The event is, or equals, the one accepted last. -/
def repeats (b : Batch) (event : Event) : Bool :=
  b.retained.getLast?.any fun last => last.handle == event.handle || last.equals event.handle

/-- Full, or waiting for long enough since the first event came in. -/
def due (b : Batch) (limit : Word) (now : Nat) : Bool :=
  decide (limit ≤ b.total) ||
    b.firstAt.any fun first => decide (b.config.delayNanoseconds ≤ now - first)

def tally (b : Batch) (entry : Stats.Entry) : Batch := { b with stats := b.stats.record entry }

/-- Takes in an event with the collections that its buffer has joined. The time of the first event
is kept. -/
def append (b : Batch) (now : Nat) (event : Event) (pending : Buffers) (encoded : Encoded) :
    Batch :=
  let size := UInt64.ofNat encoded.bytes.length
  { b with
    retained := b.retained ++ [event]
    commitIds := b.commitIds ++ [event.commitId]
    pending := pending
    total := b.total + size
    firstAt := some (b.firstAt.getD now)
    stats := b.stats.record (.accepted encoded.category size) }

/-- Offers an event under the size limit of the moment. The answer is judged after the event was
taken in. An event that fails after it was retained is given back at once. -/
def offer (b : Batch) (limit : Word) (now : Nat) (o : Offer) :
    Batch × Except Error Bool × List Effect :=
  let event := o.event
  if b.closed then (b, .error .closed, [.log (.rejected event.report)])
  else if b.repeats event then
    let after := b.tally .duplicate
    (after, .ok (after.due limit now), [.log (.duplicate event.commitId)])
  else if o.retained then
    let asked : List Effect := [.call (.retain event.handle true), .call (.payload event.handle)]
    match b.pending.absorb event.commitId o.payload with
    | (pending, .ok encoded, told) =>
      let after := b.append now event pending encoded
      (after, .ok (after.due limit now), asked ++ told)
    | (pending, .error cause, told) =>
      ({ b with pending := pending }.tally .encodingFailure, .error cause,
        asked ++ told ++ [.call (.release event.handle o.released)] ++
          (if o.released then [] else [.log (.notGivenBack event.report)]) ++
          [.log (.notEncoded event.report cause)])
  else
    let after := b.tally .retainFailure
    (after, .ok (after.due limit now),
      [.call (.retain event.handle false), .log (.lost event.report)])

def cleared (b : Batch) : Batch :=
  { b with retained := [], commitIds := [], pending := {}, total := 0, firstAt := none }

/-- After delivery was confirmed: the events are the receiver's now and stay retained. -/
def reset (b : Batch) : Batch × List Effect :=
  (b.cleared.tally .batchSent, [.log (.acknowledged b.retained.length)])

/-- Releases each event in turn; `answers` holds their answers by position. -/
def releases (answers : Nat → Bool) : Nat → List Event → List Effect
  | _, [] => []
  | place, event :: rest =>
    [.call (.release event.handle (answers place))] ++
      (if answers place then [] else [.log (.notReleased event.report)]) ++
      releases answers (place + 1) rest

/-- Ends the batch for good. Only the first close does anything. The line that tells of it comes
last, once also the budget has gone back. -/
def close (b : Batch) (answers : Nat → Bool) : Batch × List Effect × List Effect :=
  if b.closed then (b, [], [])
  else
    ({ b.cleared with closed := true }.tally (.released (UInt64.ofNat b.retained.length)),
      releases answers 0 b.retained, [.log (.closed b.retained.length)])

def handles (b : Batch) : List Nat := b.retained.map Event.handle

/-- What is sent of the batch as it is. -/
def assemble (b : Batch) : Request := .ofBuffers b.pending

def delayText (seconds : UInt32) : String :=
  if seconds = 0 then "0ns" else toString seconds ++ "s"

def describe (b : Batch) (limit : Word) : String :=
  "BatchAccumulator \x7b max_delay: " ++ delayText b.config.delaySeconds ++
    ", requested_batch_size: " ++ toString b.config.sizeBytes ++ ", max_batch_size: " ++
    toString limit ++ ", closed: " ++ toString b.closed ++ ", .. \x7d"

end Batch
end ElasticBatch
