import ElasticBatch.Batch

/-! Runs of a batch. Its own calls are few; the limit and the clock come from outside each time. -/
namespace ElasticBatch.Batch

/-- The size limit and the time at which a call finds the batch. -/
structure Moment where
  limit : Word
  now : Nat
  deriving DecidableEq, Repr

inductive Op where
  | offer (o : Offer)
  | reset
  | close (answers : Nat → Bool)

def Op.offer? : Op → Option Offer
  | .offer o => some o
  | .reset | .close _ => none

def Op.resets : Op → Bool
  | .reset => true
  | .offer _ | .close _ => false

def Op.closes : Op → Bool
  | .offer _ | .reset => false
  | .close _ => true

/-- What a call leaves, answers and does. The farewell follows once the budget has gone back, which
is the affair of whoever granted it. -/
structure Outcome where
  batch : Batch
  answer : Option (Except Error Bool)
  work : List Effect
  farewell : List Effect := []

def Outcome.effects (o : Outcome) : List Effect := o.work ++ o.farewell

def step (b : Batch) (m : Moment) : Op → Outcome
  | .offer o =>
    let (batch, answer, effects) := b.offer m.limit m.now o
    { batch := batch, answer := some answer, work := effects }
  | .reset =>
    let (batch, effects) := b.reset
    { batch := batch, answer := none, work := effects }
  | .close answers =>
    let (batch, work, farewell) := b.close answers
    ⟨batch, none, work, farewell⟩

/-- The batch after a run, and all that the run did. -/
def run (b : Batch) : List (Moment × Op) → Batch × List Effect
  | [] => (b, [])
  | (moment, op) :: rest =>
    let outcome := b.step moment op
    let (last, effects) := outcome.batch.run rest
    (last, outcome.effects ++ effects)

theorem run_append (b : Batch) (first second : List (Moment × Op)) :
    b.run (first ++ second) =
      (((b.run first).1.run second).1, (b.run first).2 ++ ((b.run first).1.run second).2) := by
  induction first generalizing b with
  | nil => rfl
  | cons head rest ih =>
      obtain ⟨moment, op⟩ := head
      simp only [List.cons_append, run, ih, List.append_assoc]

end ElasticBatch.Batch
