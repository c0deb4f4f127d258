import ElasticBatch.Proofs.Batch.Manifest

/-! A batch refines its manifest: whatever calls it gets, in whatever order, and whatever the events
and the governor answer, what it shows after each of them is what the manifest lists. -/
namespace ElasticBatch

theorem Manifest.buffers_eq_nil_iff (a : Manifest) :
    (∀ category, a.buffers category = []) ↔ a.entries = [] := by
  constructor
  · intro all
    cases listed : a.entries with
    | nil => rfl
    | cons entry rest =>
        have none := all entry.encoded.category
        simp [buffers, listed] at none
  · intro empty category
    rw [buffers, empty]
    rfl

namespace Batch

def Verdict.encoded? : Verdict → Option Encoded
  | .accepted encoded => some encoded
  | _ => none

variable {b : Batch} {a : Manifest}

/-- The batch's judgement and the manifest's rule accept the same offers, with the same buffers. -/
theorem Holds.accepted?_eq (h : Holds b a) (now : Nat) (o : Offer) :
    a.accepted? now o = (b.judge o).encoded?.map (⟨o.event, ·, now⟩) := by
  have reason := judged b o
  have encoding := o.toOption_encodeOffered
  generalize b.judge o = verdict at reason ⊢
  unfold Manifest.accepted?
  cases reason with
  | rejected shut =>
      have shut : a.closed = true := h.closed.symm.trans shut
      rw [if_neg (by rw [shut]; exact fun accepts => Bool.noConfusion accepts.1)]
      rfl
  | duplicate running again =>
      have seen : ¬ a.IsNew o.event := by
        rw [← h.repeats_eq_false_iff, again]
        exact Bool.noConfusion
      rw [if_neg fun accepts => seen accepts.2.1]
      rfl
  | lost running new gone =>
      rw [if_neg (by rw [gone]; exact fun accepts => Bool.noConfusion accepts.2.2)]
      rfl
  | failed running new kept fault =>
      rw [if_pos ⟨h.closed.symm.trans running, (h.repeats_eq_false_iff _).mp new, kept⟩,
        ← encoding, fault]
      rfl
  | accepted running new kept whole =>
      rw [if_pos ⟨h.closed.symm.trans running, (h.repeats_eq_false_iff _).mp new, kept⟩,
        ← encoding, whole]
      rfl

theorem Holds.turnedAway (h : Holds b a) (now : Nat) (o : Offer) {verdict : Verdict}
    (none : verdict.encoded? = none) : Holds (b.settle now o verdict) a := by
  cases verdict with
  | rejected => exact h
  | duplicate => exact h.tally _
  | lost => exact h.tally _
  | failed failure => exact h.tally _
  | accepted encoded => cases none

theorem Holds.offer (h : Holds b a) (m : Moment) (o : Offer) :
    Holds (b.settle m.now o (b.judge o)) (a.record (m, .offer o)) := by
  have decision := h.accepted?_eq m.now o
  cases verdict : b.judge o with
  | accepted encoded =>
      rw [verdict] at decision
      rw [Manifest.record_accepted decision]
      exact h.accept (Manifest.open_of_accepted decision) m.now o encoded
  | _ =>
      rw [verdict] at decision
      rw [Manifest.record_turnedAway decision]
      exact h.turnedAway m.now o rfl

theorem Holds.step (h : Holds b a) (m : Moment) (op : Op) :
    Holds (b.step m op).batch (a.record (m, op)) := by
  cases op with
  | offer o =>
      rw [batch_offer]
      exact h.offer m o
  | reset => exact h.emptied.tally .batchSent
  | close answers =>
      cases shut : b.closed with
      | true =>
          -- another close: the manifest is empty already
          have shut' : a.closed = true := h.closed.symm.trans shut
          have same : a.record (m, .close answers) = a := by
            rw [Manifest.record, ← h.drained shut', ← shut']
          rw [step_close_again m shut, same]
          exact h
      | false =>
          have ended : Holds { b.cleared with closed := true } ⟨[], true⟩ :=
            { h.emptied with closed := rfl, drained := fun _ => rfl }
          rw [step_close m shut]
          exact ended.tally _

theorem Holds.run (h : Holds b a) (calls : List (Moment × Op)) :
    Holds (b.run calls).1 (calls.foldl Manifest.record a) := by
  induction calls generalizing b a with
  | nil => exact h
  | cons call rest ih =>
      obtain ⟨m, op⟩ := call
      exact ih (h.step m op)

theorem holds_after (config : Config) (calls : List (Moment × Op)) :
    Holds ((ofConfig config).run calls).1 (Manifest.after calls) :=
  (holds_ofConfig config).run calls

theorem Holds.retained_eq_nil (h : Holds b a) (shut : b.closed = true) : b.retained = [] := by
  rw [h.retained, h.drained (h.closed.symm.trans shut)]
  rfl

/-- After any run, and so after every call of one, the events, their commit ids, the three
collections, which are also what is sent, the running total, the time of the first event and the two
flags are those of the events accepted since the batch was last emptied. The limits of the calls are
arbitrary: no governor has a say in what is held. -/
theorem views_after_run (config : Config) (calls : List (Moment × Op)) :
    let b := ((ofConfig config).run calls).1
    let a := Manifest.after calls
    b.retained = a.entries.map Entry.event ∧
      b.commitIds = a.entries.map (·.event.commitId) ∧
      b.pending = ⟨a.buffers .binary, a.buffers .insertNode, a.buffers .tablet⟩ ∧
      b.assemble = ⟨a.buffers .binary, a.buffers .insertNode, a.buffers .tablet⟩ ∧
      b.total = UInt64.ofNat a.size ∧
      b.firstAt = a.entries.head?.map Entry.time ∧
      (b.pending.isEmpty = true ↔ a.entries = []) ∧
      b.closed = a.closed := by
  intro b a
  have h : Holds b a := holds_after config calls
  have collections : b.pending = ⟨a.buffers .binary, a.buffers .insertNode, a.buffers .tablet⟩ := by
    rw [← h.pending, ← h.pending, ← h.pending]
    rfl
  refine ⟨h.retained, h.commitIds, collections, ?_, h.total, h.firstAt, ?_, h.closed⟩
  · rw [assemble, collections]
    rfl
  · rw [Buffers.isEmpty_iff, ← a.buffers_eq_nil_iff]
    simp only [h.pending]

/-- An event of its own, with a commit id to be known by. -/
def stampedOffer (handle : Nat) (commitId : Word) (payload : Payload) : Offer :=
  { event := ⟨handle, commitId, "stamped", fun _ => false⟩, payload := .ok payload }

/-- What was acknowledged is gone. Then one event of each kind comes, the first of them twice; one
fails after it has written a byte, and one cannot be retained. -/
def assorted : List (Moment × Op) :=
  [(⟨100, 0⟩, .offer (stampedOffer 9 90 (.tablet (.raw [9] none) false))),
    (⟨100, 1⟩, .reset),
    (⟨100, 2⟩, .offer (stampedOffer 0 70 (.binary [1, 2]))),
    (⟨100, 3⟩, .offer (stampedOffer 0 70 (.binary [1, 2]))),
    (⟨100, 4⟩, .offer (stampedOffer 1 50 (.insertNode (.raw [3] none)))),
    (⟨100, 5⟩, .offer (stampedOffer 2 60 (.tablet (.raw [7] (some (.io "full"))) true))),
    (⟨100, 6⟩, .offer (stampedOffer 3 40 (.tablet (.value (.natural .w8 4)) true))),
    (⟨100, 7⟩, .offer { stampedOffer 4 30 (.binary [5]) with retained := false })]

theorem assorted_held :
    let b := ((ofConfig ⟨1, 100⟩).run assorted).1
    b.handles = [0, 1, 3] ∧ b.commitIds = [70, 50, 40] ∧
      b.assemble = ⟨[[1, 2]], [[3]], [[4, 1]]⟩ ∧ b.total = 5 ∧ b.firstAt = some 2 ∧
      b.pending.isEmpty = false ∧ b.closed = false := by
  intro b
  obtain ⟨retained, commitIds, -, request, total, first, empty, closed⟩ :=
    views_after_run ⟨1, 100⟩ assorted
  refine ⟨(congrArg (List.map Event.handle) retained).trans rfl, commitIds.trans rfl,
    request.trans rfl, total.trans rfl, first.trans rfl, ?_, closed.trans rfl⟩
  exact Bool.eq_false_iff.mpr fun none => nomatch empty.mp none

end Batch
end ElasticBatch
