import ElasticBatch.Proofs.Batch.Flush
import ElasticBatch.Proofs.Batch.References

/-! Offers that add no event leave no trace. Leave any of them out of a run: what the batch holds,
the references it holds of each event, and all that the other calls answer and do stay the same.
Only the counters tell, and what the offers left out asked of their events and logged. -/
namespace ElasticBatch.Batch

/-- The same but for the counters. -/
def Alike (b c : Batch) : Prop := { b with stats := c.stats } = c

theorem Alike.refl (b : Batch) : Alike b b := rfl

theorem Alike.trans {b c d : Batch} (h : Alike b c) (k : Alike c d) : Alike b d := by
  unfold Alike at *
  rw [← k, ← h]

theorem Alike.exists_stats {b c : Batch} (h : Alike b c) : ∃ stats, c = { b with stats := stats } :=
  ⟨c.stats, h.symm⟩

theorem Alike.retained {b c : Batch} (h : Alike b c) : b.retained = c.retained := by
  obtain ⟨stats, rfl⟩ := h.exists_stats
  rfl

theorem Alike.closed {b c : Batch} (h : Alike b c) : b.closed = c.closed := by
  obtain ⟨stats, rfl⟩ := h.exists_stats
  rfl

theorem Alike.settle {b c : Batch} (h : Alike b c) (now : Nat) (o : Offer) (verdict : Verdict) :
    Alike (b.settle now o verdict) (c.settle now o verdict) := by
  obtain ⟨stats, rfl⟩ := h.exists_stats
  cases verdict <;> rfl

theorem Alike.answer {b c : Batch} (h : Alike b c) (limit : Word) (now : Nat) (verdict : Verdict) :
    b.answer limit now verdict = c.answer limit now verdict := by
  obtain ⟨stats, rfl⟩ := h.exists_stats
  cases verdict <;> rfl

/-- No decision reads the counters. -/
theorem Alike.step {b c : Batch} (h : Alike b c) (m : Moment) (op : Op) :
    Alike (b.step m op).batch (c.step m op).batch ∧
      (b.step m op).answer = (c.step m op).answer ∧
      (b.step m op).effects = (c.step m op).effects := by
  cases op with
  | offer o =>
      have verdict : b.judge o = c.judge o := by
        obtain ⟨stats, rfl⟩ := h.exists_stats
        rfl
      have after := h.settle m.now o (c.judge o)
      rw [step_offer, step_offer, verdict]
      exact ⟨after, congrArg some (after.answer m.limit m.now (c.judge o)), rfl⟩
  | reset =>
      obtain ⟨stats, rfl⟩ := h.exists_stats
      exact ⟨rfl, rfl, rfl⟩
  | close answers =>
      rcases b.closed.eq_false_or_eq_true with shut | running
      · rw [step_close_again m shut, step_close_again m (h.closed.symm.trans shut)]
        exact ⟨h, rfl, rfl⟩
      · rw [step_close m running, step_close m (h.closed.symm.trans running)]
        obtain ⟨stats, rfl⟩ := h.exists_stats
        exact ⟨rfl, rfl, rfl⟩

/-- The call is an offer after which the batch has no more events than before. -/
def AddsNothing (b : Batch) (m : Moment) : Op → Prop
  | .offer o => (b.step m (.offer o)).batch.retained.length = b.retained.length
  | .reset | .close _ => False

instance (b : Batch) (m : Moment) (op : Op) : Decidable (b.AddsNothing m op) :=
  match op with
  | .offer _ => inferInstanceAs (Decidable (_ = _))
  | .reset | .close _ => inferInstanceAs (Decidable False)

/-- References taken of an event less those given back. -/
def net (handle : Nat) (effects : List Effect) : Int :=
  (taken handle (callsOf effects) : Int) - givenBack handle (callsOf effects)

theorem net_append (handle : Nat) (xs ys : List Effect) :
    net handle (xs ++ ys) = net handle xs + net handle ys := by
  simp only [net, callsOf_append, taken_append, givenBack_append]
  omega

theorem net_run_cons (handle : Nat) (b : Batch) (m : Moment) (op : Op)
    (rest : List (Moment × Op)) :
    net handle (b.run ((m, op) :: rest)).2 =
      net handle (b.step m op).effects + net handle ((b.step m op).batch.run rest).2 :=
  net_append handle _ _

/-- Whatever the reason, an offer that adds no event leaves the batch as it was, and each event with
the references it had. -/
theorem AddsNothing.traceless {b : Batch} {m : Moment} {op : Op} (h : b.AddsNothing m op) :
    Alike (b.step m op).batch b ∧ ∀ handle, net handle (b.step m op).effects = 0 := by
  cases op with
  | offer o =>
      have alike : Alike (b.step m (.offer o)).batch b := by
        rw [AddsNothing, batch_offer] at h
        rw [batch_offer]
        cases verdict : b.judge o with
        | accepted encoded => simp [verdict, settle, append] at h
        | _ => rfl
      refine ⟨alike, fun handle => ?_⟩
      have settled := (settles_step b m (.offer o) handle).settled
      have same : (b.step m (.offer o)).batch.handles = b.handles :=
        congrArg (List.map Event.handle) alike.retained
      have none : (b.surrendered (.offer o)).count handle = 0 := rfl
      rw [same, none] at settled
      unfold net
      omega
  | reset => exact h.elim
  | close answers => exact h.elim

/-- A call of a run, which may be marked to be left out. -/
structure Marked where
  moment : Moment
  op : Op
  omitted : Bool

def Marked.call (c : Marked) : Moment × Op := (c.moment, c.op)

/-- The calls that are not left out. -/
def kept (calls : List Marked) : List (Moment × Op) :=
  (calls.filter (!·.omitted)).map Marked.call

/-- Marked are only offers that add no event at their place in the whole run. -/
def Erasable : Batch → List Marked → Prop
  | _, [] => True
  | b, c :: rest =>
    (c.omitted = true → b.AddsNothing c.moment c.op) ∧ (b.step c.moment c.op).batch.Erasable rest

instance Erasable.decidable (b : Batch) : (calls : List Marked) → Decidable (b.Erasable calls)
  | [] => isTrue trivial
  | c :: rest =>
    have := Erasable.decidable (b.step c.moment c.op).batch rest
    inferInstanceAs (Decidable ((_ → _) ∧ _))

theorem Erasable.take {b : Batch} {calls : List Marked} (h : b.Erasable calls) (n : Nat) :
    b.Erasable (calls.take n) := by
  induction calls generalizing b n with
  | nil => simpa using h
  | cons c rest ih =>
      cases n with
      | zero => exact trivial
      | succ n => exact ⟨h.1, ih h.2 n⟩

/-- The induction is on the whole run. The two batches differ in their counters from the first call
left out on. -/
theorem Erasable.run {b c : Batch} (alike : Alike b c) {calls : List Marked}
    (h : b.Erasable calls) :
    Alike (b.run (calls.map Marked.call)).1 (c.run (kept calls)).1 ∧
      ∀ handle,
        net handle (b.run (calls.map Marked.call)).2 = net handle (c.run (kept calls)).2 := by
  induction calls generalizing b c with
  | nil => exact ⟨alike, fun _ => rfl⟩
  | cons call rest ih =>
      obtain ⟨m, op, omitted⟩ := call
      obtain ⟨here, later⟩ := h
      cases omitted with
      | true =>
          obtain ⟨same, nothing⟩ := (here rfl).traceless
          obtain ⟨batches, references⟩ := ih (same.trans alike) later
          refine ⟨batches, fun handle => ?_⟩
          change net handle (b.run ((m, op) :: _)).2 = net handle (c.run (kept rest)).2
          rw [net_run_cons, nothing handle, Int.zero_add]
          exact references handle
      | false =>
          obtain ⟨next, -, effects⟩ := alike.step m op
          obtain ⟨batches, references⟩ := ih next later
          refine ⟨batches, fun handle => ?_⟩
          change net handle (b.run ((m, op) :: _)).2 = net handle (c.run ((m, op) :: kept rest)).2
          rw [net_run_cons, net_run_cons, effects, references handle]

/-- Leave out of a run any offers that add no event. At every point the two batches are the same but
for their counters, each event has as many references held by either, and the next call, if it is
not left out, has the same answer and the same effects. -/
theorem omitted_leave_no_trace (config : Config) (calls : List Marked)
    (erasable : (ofConfig config).Erasable calls) (place : Nat) :
    let whole := (ofConfig config).run ((calls.take place).map Marked.call)
    let thinned := (ofConfig config).run (kept (calls.take place))
    Alike whole.1 thinned.1 ∧
      (∀ handle, net handle whole.2 = net handle thinned.2) ∧
      ∀ next ∈ calls[place]?, next.omitted = false →
        (whole.1.step next.moment next.op).answer = (thinned.1.step next.moment next.op).answer ∧
        (whole.1.step next.moment next.op).effects =
          (thinned.1.step next.moment next.op).effects := by
  intro whole thinned
  obtain ⟨alike, references⟩ := (erasable.take place).run (Alike.refl (ofConfig config))
  exact ⟨alike, references, fun next _ _ => (alike.step next.moment next.op).2⟩

/-- Between two events that are accepted come a repetition, a loss, a tablet that fails after two
bytes and a payload that is not there. The last offer comes after the close. -/
def interrupted : List Marked :=
  [⟨⟨4, 0⟩, .offer (loneOffer 0 (.binary [1, 2, 3])), false⟩,
    ⟨⟨4, 1⟩, .offer (loneOffer 0 (.binary [1, 2, 3])), true⟩,
    ⟨⟨4, 2⟩, .offer { loneOffer 1 (.binary [4]) with retained := false }, true⟩,
    ⟨⟨4, 3⟩, .offer (loneOffer 2 (.tablet (.raw [9, 9] (some (.io "full"))) true)), true⟩,
    ⟨⟨4, 4⟩, .offer { loneOffer 3 (.binary []) with payload := .error .closed }, true⟩,
    ⟨⟨4, 5⟩, .offer (loneOffer 4 (.binary [5])), false⟩,
    ⟨⟨4, 6⟩, .close fun _ => true, false⟩,
    ⟨⟨0, 7⟩, .offer (loneOffer 5 (.binary [6])), true⟩]

/-- The second event fills the batch, with and without the interruptions. -/
theorem full_despite_interruptions :
    let b := ofConfig ⟨1, 4⟩
    let m : Moment := ⟨4, 5⟩
    let o := loneOffer 4 (.binary [5])
    b.Erasable interrupted ∧
      ((b.run ((interrupted.take 5).map Marked.call)).1.step m (.offer o)).answer =
        some (.ok true) ∧
      ((b.run (kept (interrupted.take 5))).1.step m (.offer o)).answer = some (.ok true) := by
  intro b m o
  have erasable : b.Erasable interrupted := by decide
  have alone : ((b.run (kept (interrupted.take 5))).1.step m (.offer o)).answer =
      some (.ok true) := rfl
  obtain ⟨-, -, next⟩ := omitted_leave_no_trace ⟨1, 4⟩ interrupted erasable 5
  have listed : interrupted[5]? = some ⟨m, .offer o, false⟩ := rfl
  exact ⟨erasable, (next _ listed rfl).1.trans alone, alone⟩

end ElasticBatch.Batch
