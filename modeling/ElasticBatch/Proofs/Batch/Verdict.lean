import ElasticBatch.Batch.Run

/-! An offer in two stages: first it is judged, then the judgement is carried out. The reasons for a
judgement exclude each other, so that a proof about one offer has five cases and never looks into
the offer itself. -/
namespace ElasticBatch.Batch

inductive Verdict where
  | rejected
  | duplicate
  | lost
  | failed (failure : Payload.Failure)
  | accepted (encoded : Encoded)
  deriving DecidableEq, Repr

def judge (b : Batch) (o : Offer) : Verdict :=
  if b.closed then .rejected
  else if b.repeats o.event then .duplicate
  else if o.retained then
    match Payload.encodeOffered o.payload with
    | .ok encoded => .accepted encoded
    | .error failure => .failed failure
  else .lost

/-- Only an accepted event changes more than the counters. -/
def settle (b : Batch) (now : Nat) (o : Offer) : Verdict → Batch
  | .rejected => b
  | .duplicate => b.tally .duplicate
  | .lost => b.tally .retainFailure
  | .failed _ => b.tally .encodingFailure
  | .accepted encoded => b.append now o.event (b.pending.push encoded) encoded

def answer (b : Batch) (limit : Word) (now : Nat) : Verdict → Except Error Bool
  | .rejected => .error .closed
  | .failed failure => .error failure.error
  | .duplicate | .lost | .accepted _ => .ok (b.due limit now)

def effects (o : Offer) : Verdict → List Effect
  | .rejected => [.log (.rejected o.event.report)]
  | .duplicate => [.log (.duplicate o.event.commitId)]
  | .lost => [.call (.retain o.event.handle false), .log (.lost o.event.report)]
  | .failed failure =>
    [.call (.retain o.event.handle true), .call (.payload o.event.handle)] ++
      failure.effects o.event.commitId ++
      [.call (.release o.event.handle o.released)] ++
      (if o.released then [] else [.log (.notGivenBack o.event.report)]) ++
      [.log (.notEncoded o.event.report failure.error)]
  | .accepted _ => [.call (.retain o.event.handle true), .call (.payload o.event.handle)]

inductive Judged (b : Batch) (o : Offer) : Verdict → Prop
  | rejected (shut : b.closed = true) : Judged b o .rejected
  | duplicate (running : b.closed = false) (again : b.repeats o.event = true) :
      Judged b o .duplicate
  | lost (running : b.closed = false) (new : b.repeats o.event = false)
      (gone : o.retained = false) : Judged b o .lost
  | failed {failure : Payload.Failure} (running : b.closed = false)
      (new : b.repeats o.event = false) (kept : o.retained = true)
      (fault : Payload.encodeOffered o.payload = .error failure) : Judged b o (.failed failure)
  | accepted {encoded : Encoded} (running : b.closed = false)
      (new : b.repeats o.event = false) (kept : o.retained = true)
      (whole : Payload.encodeOffered o.payload = .ok encoded) : Judged b o (.accepted encoded)

theorem judged (b : Batch) (o : Offer) : Judged b o (b.judge o) := by
  unfold judge
  split
  · next shut => exact .rejected shut
  · next running =>
      have running := Bool.eq_false_iff.mpr running
      split
      · next again => exact .duplicate running again
      · next new =>
          have new := Bool.eq_false_iff.mpr new
          split
          · next kept =>
              split
              · next encoded whole => exact .accepted running new kept whole
              · next failure fault => exact .failed running new kept fault
          · next gone => exact .lost running new (Bool.eq_false_iff.mpr gone)

/-- The two stages make up the offer. A buffer that could not be made leaves the collections as they
were. -/
theorem offer_eq (b : Batch) (limit : Word) (now : Nat) (o : Offer) :
    b.offer limit now o =
      let verdict := b.judge o
      let after := b.settle now o verdict
      (after, after.answer limit now verdict, effects o verdict) := by
  have reason := judged b o
  generalize b.judge o = verdict at reason ⊢
  unfold offer
  cases reason with
  | rejected shut => rw [if_pos shut]; rfl
  | duplicate running again => rw [if_neg (by simp [running]), if_pos again]; rfl
  | lost running new gone =>
      rw [if_neg (by simp [running]), if_neg (by simp [new]), if_neg (by simp [gone])]
      rfl
  | failed running new kept fault =>
      rw [if_neg (by simp [running]), if_neg (by simp [new]), if_pos kept, Buffers.absorb, fault]
      rfl
  | accepted running new kept whole =>
      rw [if_neg (by simp [running]), if_neg (by simp [new]), if_pos kept, Buffers.absorb, whole]
      rfl

variable (b : Batch) (m : Moment) (o : Offer)

theorem step_offer :
    b.step m (.offer o) =
      let verdict := b.judge o
      let after := b.settle m.now o verdict
      { batch := after, answer := some (after.answer m.limit m.now verdict),
        work := effects o verdict } := by
  simp only [step, offer_eq]

theorem batch_offer : (b.step m (.offer o)).batch = b.settle m.now o (b.judge o) := by
  rw [step_offer]

theorem answer_offer :
    (b.step m (.offer o)).answer =
      some ((b.settle m.now o (b.judge o)).answer m.limit m.now (b.judge o)) := by
  rw [step_offer]

theorem effects_offer : (b.step m (.offer o)).effects = effects o (b.judge o) := by
  rw [step_offer]
  exact List.append_nil _

theorem step_close_again {b : Batch} (shut : b.closed = true) (answers : Nat → Bool) :
    b.step m (.close answers) = ⟨b, none, [], []⟩ := by
  simp only [step, close, if_pos shut]

theorem step_close {b : Batch} (running : b.closed = false) (answers : Nat → Bool) :
    b.step m (.close answers) =
      ⟨{ b.cleared with closed := true }.tally (.released (UInt64.ofNat b.retained.length)), none,
        releases answers 0 b.retained, [.log (.closed b.retained.length)]⟩ := by
  simp only [step, close, running, Bool.false_eq_true, if_false]

theorem judge_closed {b : Batch} (shut : b.closed = true) : b.judge o = .rejected := by
  simp only [judge, shut, if_true]

theorem closed_settle (now : Nat) (verdict : Verdict) :
    (b.settle now o verdict).closed = b.closed := by
  cases verdict <;> rfl

theorem config_step (op : Op) : (b.step m op).batch.config = b.config := by
  cases op with
  | offer o =>
      rw [batch_offer]
      cases b.judge o <;> rfl
  | reset => rfl
  | close answers =>
      cases shut : b.closed with
      | true => rw [step_close_again m shut]
      | false => rw [step_close m shut]; rfl

theorem config_run (calls : List (Moment × Op)) : (b.run calls).1.config = b.config := by
  induction calls generalizing b with
  | nil => rfl
  | cons call rest ih =>
      obtain ⟨m, op⟩ := call
      exact (ih _).trans (config_step b m op)

theorem closed_step_eq (op : Op) : (b.step m op).batch.closed = (b.closed || op.closes) := by
  cases op with
  | offer o =>
      rw [batch_offer, closed_settle]
      exact (Bool.or_false _).symm
  | reset => exact (Bool.or_false _).symm
  | close answers =>
      cases shut : b.closed with
      | true => rw [step_close_again m shut, shut]; rfl
      | false => rw [step_close m shut]; rfl

/-- A batch never reopens, and what closes it is a close. -/
theorem closed_run_eq (calls : List (Moment × Op)) :
    (b.run calls).1.closed = (b.closed || calls.any (·.2.closes)) := by
  induction calls generalizing b with
  | nil => exact (Bool.or_false _).symm
  | cons call rest ih =>
      obtain ⟨m, op⟩ := call
      change ((b.step m op).batch.run rest).1.closed = _
      rw [ih, closed_step_eq, List.any_cons, Bool.or_assoc]

theorem closed_run {b : Batch} (calls : List (Moment × Op)) (shut : b.closed = true) :
    (b.run calls).1.closed = true := by
  rw [closed_run_eq, shut, Bool.true_or]

end ElasticBatch.Batch
