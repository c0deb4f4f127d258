import ElasticBatch.Proofs.Batch.Refinement

/-! The history of a run: what each call comes to, told from the manifest that it meets. All that a
batch counts and all that it logs is read off its history. -/
namespace ElasticBatch

/-- To close again, or to be offered nothing new, is an occurrence too. -/
inductive Occurrence where
  | rejected (o : Offer)
  | repeated (o : Offer)
  | lost (o : Offer)
  | failed (o : Offer) (cause : Error)
  | admitted (entry : Entry)
  | sent (entries : List Entry)
  | ended (entries : List Entry) (answers : Nat → Bool)
  | idle

namespace Manifest

def comesTo (a : Manifest) : Batch.Moment × Batch.Op → Occurrence
  | (m, .offer o) =>
    if a.closed then .rejected o
    else if a.IsNew o.event then
      if o.retained then
        match Payload.encodeOffered o.payload with
        | .ok encoded => .admitted ⟨o.event, encoded, m.now⟩
        | .error failure => .failed o failure.error
      else .lost o
    else .repeated o
  | (_, .reset) => .sent a.entries
  | (_, .close answers) => if a.closed then .idle else .ended a.entries answers

def history (a : Manifest) : List (Batch.Moment × Batch.Op) → List Occurrence
  | [] => []
  | call :: rest => a.comesTo call :: (a.record call).history rest

end Manifest

namespace Occurrence

/-- The lines that are written of it. A payload that was there but could not be encoded is worth one
more. -/
def logs : Occurrence → List Log
  | rejected o => [.rejected o.event.report]
  | repeated o => [.duplicate o.event.commitId]
  | lost o => [.lost o.event.report]
  | failed o cause =>
    (o.payload.toOption.toList.map fun p =>
        Log.encodingFailed p.category o.event.commitId cause) ++
      (if o.released then [] else [.notGivenBack o.event.report]) ++
      [.notEncoded o.event.report cause]
  | admitted _ | idle => []
  | sent entries => [.acknowledged entries.length]
  | ended entries answers =>
    logsOf (Batch.releases answers 0 (entries.map Entry.event)) ++ [.closed entries.length]

/-- The counters after it. -/
def count (s : Stats) : Occurrence → Stats
  | rejected _ | idle => s
  | repeated _ => s.record .duplicate
  | lost _ => s.record .retainFailure
  | failed .. => s.record .encodingFailure
  | admitted entry =>
    s.record (.accepted entry.encoded.category (UInt64.ofNat entry.encoded.bytes.length))
  | sent _ => s.record .batchSent
  | ended entries _ => s.record (.released (UInt64.ofNat entries.length))

end Occurrence

namespace Batch

def Verdict.occurrence (now : Nat) (o : Offer) : Verdict → Occurrence
  | .rejected => .rejected o
  | .duplicate => .repeated o
  | .lost => .lost o
  | .failed failure => .failed o failure.error
  | .accepted encoded => .admitted ⟨o.event, encoded, now⟩

variable {b : Batch} {a : Manifest}

/-- The manifest and the batch judge an offer alike. -/
theorem Holds.comesTo_offer (h : Holds b a) (m : Moment) (o : Offer) :
    a.comesTo (m, .offer o) = (b.judge o).occurrence m.now o := by
  have reason := judged b o
  have isNew := h.repeats_eq_false_iff o.event
  generalize b.judge o = verdict at reason ⊢
  simp only [Manifest.comesTo, ← h.closed, ← isNew]
  cases reason with
  | rejected shut => simp only [shut, if_true, Verdict.occurrence]
  | duplicate running again => simp [running, again, Verdict.occurrence]
  | lost running new gone => simp [running, new, gone, Verdict.occurrence]
  | failed running new kept fault => simp [running, new, kept, fault, Verdict.occurrence]
  | accepted running new kept whole => simp [running, new, kept, whole, Verdict.occurrence]

/-- The kind of a failure is known exactly if the payload was there. -/
theorem kind_of_encodeOffered {offered : Except Error Payload} {failure : Payload.Failure}
    (fault : Payload.encodeOffered offered = .error failure) :
    failure.kind = offered.toOption.map Payload.category := by
  cases offered with
  | error cause =>
      cases fault
      rfl
  | ok p =>
      cases encoded : p.encode with
      | ok whole =>
          rw [Payload.encodeOffered, encoded] at fault
          cases fault
      | error cause =>
          rw [Payload.encodeOffered, encoded] at fault
          cases fault
          rfl

theorem logsOf_failed (o : Offer) {failure : Payload.Failure}
    (fault : Payload.encodeOffered o.payload = .error failure) :
    logsOf (effects o (.failed failure)) = (Occurrence.failed o failure.error).logs := by
  have kind := kind_of_encodeOffered fault
  simp only [effects, Payload.Failure.effects, Occurrence.logs, kind]
  cases o.payload.toOption <;> cases o.released <;> rfl

theorem Judged.logsOf_effects {o : Offer} {verdict : Verdict} (reason : Judged b o verdict)
    (now : Nat) : logsOf (effects o verdict) = (verdict.occurrence now o).logs := by
  cases reason with
  | failed running new kept fault => exact logsOf_failed o fault
  | _ => rfl

theorem stats_settle (b : Batch) (now : Nat) (o : Offer) (verdict : Verdict) :
    (b.settle now o verdict).stats = (verdict.occurrence now o).count b.stats := by
  cases verdict <;> rfl

theorem Holds.logsOf_step (h : Holds b a) (m : Moment) (op : Op) :
    logsOf (b.step m op).effects = (a.comesTo (m, op)).logs := by
  cases op with
  | offer o =>
      rw [h.comesTo_offer, effects_offer]
      exact (judged b o).logsOf_effects m.now
  | reset =>
      have size : b.retained.length = a.entries.length := by rw [h.retained, List.length_map]
      simp only [Batch.step, reset, Manifest.comesTo, Occurrence.logs, size]
      rfl
  | close answers =>
      have size : b.retained.length = a.entries.length := by rw [h.retained, List.length_map]
      rw [Manifest.comesTo, ← h.closed]
      cases shut : b.closed with
      | true =>
          rw [step_close_again m shut]
          rfl
      | false =>
          rw [step_close m shut, Outcome.effects, logsOf_append]
          simp only [Occurrence.logs, ← h.retained, ← size, Bool.false_eq_true, if_false]
          rfl

theorem Holds.stats_step (h : Holds b a) (m : Moment) (op : Op) :
    (b.step m op).batch.stats = (a.comesTo (m, op)).count b.stats := by
  cases op with
  | offer o =>
      rw [h.comesTo_offer, batch_offer]
      exact stats_settle b m.now o (b.judge o)
  | reset => rfl
  | close answers =>
      have size : b.retained.length = a.entries.length := by rw [h.retained, List.length_map]
      rw [Manifest.comesTo, ← h.closed]
      cases shut : b.closed with
      | true =>
          rw [step_close_again m shut]
          rfl
      | false =>
          rw [step_close m shut]
          simp only [Occurrence.count, ← size, Bool.false_eq_true, if_false]
          rfl

/-- What a batch logs in a run is its history, line by line. -/
theorem Holds.logsOf_run (h : Holds b a) (calls : List (Moment × Op)) :
    logsOf (b.run calls).2 = (a.history calls).flatMap Occurrence.logs := by
  induction calls generalizing b a with
  | nil => rfl
  | cons call rest ih =>
      obtain ⟨m, op⟩ := call
      rw [Manifest.history, List.flatMap_cons, ← h.logsOf_step, ← ih (h.step m op)]
      exact logsOf_append _ _

/-- So are its counters. -/
theorem Holds.stats_run (h : Holds b a) (calls : List (Moment × Op)) :
    (b.run calls).1.stats = (a.history calls).foldl Occurrence.count b.stats := by
  induction calls generalizing b a with
  | nil => rfl
  | cons call rest ih =>
      obtain ⟨m, op⟩ := call
      rw [Manifest.history, List.foldl_cons, ← h.stats_step]
      exact ih (h.step m op)

end Batch
end ElasticBatch
