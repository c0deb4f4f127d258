import ElasticBatch.Proofs.Batch.References
import ElasticBatch.Proofs.Hub.Holding

/-! The calls of one batch among others. Of all that happens in a hub a batch sees its own calls,
each under the limit and at the time of the moment; no other operation changes it. -/
namespace ElasticBatch

/-- Events are retained, released and asked for their payload; the rest is a governor's affair. -/
def Call.ofEvent : Call → Bool
  | .retain .. | .release .. | .payload _ => true
  | .tryAllocate _ | .setPolicy | .closeBlock => false

namespace Batch

theorem Verdict.ofEvents (o : Offer) (verdict : Verdict) :
    (verdict.calls o).all Call.ofEvent = true := by
  cases verdict <;> rfl

theorem ofEvents_releaseCalls (answers : Nat → Bool) (place : Nat) (events : List Event) :
    (releaseCalls answers place events).all Call.ofEvent = true := by
  induction events generalizing place with
  | nil => rfl
  | cons event rest ih => exact ih (place + 1)

/-- Whatever a batch asks by itself it asks of events. -/
theorem ofEvents_step (b : Batch) (m : Moment) (op : Op) :
    (callsOf (b.step m op).effects).all Call.ofEvent = true := by
  cases op with
  | offer o =>
      rw [callsOf_offer]
      exact (b.judge o).ofEvents o
  | reset => rfl
  | close answers =>
      cases shut : b.closed with
      | true =>
          rw [step_close_again m shut]
          rfl
      | false =>
          rw [callsOf_close m shut]
          exact ofEvents_releaseCalls answers 0 b.retained

end Batch

namespace Hub

/-- The batch that an operation calls, and what it asks of it. A batch that is dropped is closed
first. -/
def Op.call? : Op → Option (Nat × Batch.Op)
  | .act block op => some (block, op)
  | .drop block answers => some (block, .close answers)
  | .openBatch _ | .allocate _ | .install _ _ | .closeLease _ | .dropLease _ | .sweep _
  | .setUsage _ | .press _ | .wait _ => none

/-- What an operation calls of one batch, with the limit and the time at which it finds the
batch. -/
def callTo (h : Hub) (block : Nat) (op : Op) : List (Batch.Moment × Batch.Op) :=
  match op.call? with
  | none => []
  | some (called, call) =>
    if called = block then
      ((h.member? block).map fun m => ((⟨h.limit m, h.clock⟩ : Batch.Moment), call)).toList
    else []

/-- The calls of one batch in a run, in order. -/
def callsTo (h : Hub) (block : Nat) : List Op → List (Batch.Moment × Batch.Op)
  | [] => []
  | op :: rest => h.callTo block op ++ (h.step op).hub.callsTo block rest

theorem callsTo_append (h : Hub) (block : Nat) (first second : List Op) :
    h.callsTo block (first ++ second) =
      h.callsTo block first ++ (h.run first).1.callsTo block second := by
  induction first generalizing h with
  | nil => rfl
  | cons op rest ih => simp only [List.cons_append, callsTo, run, ih, List.append_assoc]

/-- What an operation that calls one batch asks of events, and what they answer. -/
def askedBy (h : Hub) (block : Nat) (op : Op) : List Call :=
  match op.call? with
  | none => []
  | some (called, _) =>
    if called = block then (callsOf (h.step op).effects).filter Call.ofEvent else []

/-- All that one batch asks of events in a run, in order. -/
def asked (h : Hub) (block : Nat) : List Op → List Call
  | [] => []
  | op :: rest => h.askedBy block op ++ (h.step op).hub.asked block rest

variable {h : Hub} {block : Nat} {m : Member}

theorem callTo_act (found : h.member? block = some m) (op : Batch.Op) :
    h.callTo block (.act block op) = [(⟨h.limit m, h.clock⟩, op)] := by
  simp only [callTo, Op.call?, found, if_true]
  rfl

theorem callTo_of_absent (absent : h.member? block = none) (op : Op) : h.callTo block op = [] := by
  unfold callTo
  split
  · rfl
  · rw [absent, Option.map_none, Option.toList_none, ite_self]

theorem limit_of_mem_callTo (found : h.member? block = some m) {op : Op}
    {call : Batch.Moment × Batch.Op} (made : call ∈ h.callTo block op) :
    call.1.limit = h.limit m := by
  unfold callTo at made
  split at made
  · cases made
  · split at made
    · rw [found, Option.map_some, Option.toList_some] at made
      rw [List.mem_singleton.mp made]
    · cases made

theorem callTo_of_ne {op : Op} (apart : ∀ call ∈ op.call?, call.1 ≠ block) :
    h.callTo block op = [] := by
  unfold callTo
  cases called : op.call? with
  | none => rfl
  | some call => exact if_neg (apart call called)

theorem askedBy_of_ne {op : Op} (apart : ∀ call ∈ op.call?, call.1 ≠ block) :
    h.askedBy block op = [] := by
  unfold askedBy
  cases called : op.call? with
  | none => rfl
  | some call => exact if_neg (apart call called)

theorem askedBy_of_absent (absent : h.member? block = none) (op : Op) :
    h.askedBy block op = [] := by
  cases op with
  | act called op =>
      simp only [askedBy, Op.call?]
      split
      · next mine =>
          subst mine
          simp only [step, act, absent]
          rfl
      · rfl
  | drop called answers =>
      simp only [askedBy, Op.call?]
      split
      · next mine =>
          subst mine
          simp only [step, drop, absent]
          rfl
      · rfl
  | _ => rfl

/-- What is given back to a governor is asked of no event. -/
theorem asked_act (found : h.member? block = some m) (op : Batch.Op) :
    (callsOf (h.act block op).effects).filter Call.ofEvent =
      callsOf (m.batch.step ⟨h.limit m, h.clock⟩ op).effects := by
  have all := List.filter_eq_self.mpr
    (List.all_eq_true.mp (m.batch.ofEvents_step ⟨h.limit m, h.clock⟩ op))
  simp only [act, found]
  split
  · have none : (callsOf (h.governor.close block).2).filter Call.ofEvent = [] := by
      cases h.governor <;> rfl
    rw [callsOf_append, callsOf_append, List.filter_append, List.filter_append, none,
      List.append_nil, ← List.filter_append, ← callsOf_append]
    exact all
  · exact all

theorem askedBy_act (found : h.member? block = some m) (op : Batch.Op) :
    h.askedBy block (.act block op) = callsOf (m.batch.step ⟨h.limit m, h.clock⟩ op).effects :=
  (if_pos rfl).trans (asked_act found op)

theorem askedBy_drop (found : h.member? block = some m) (answers : Nat → Bool) :
    h.askedBy block (.drop block answers) = h.askedBy block (.act block (.close answers)) := by
  simp only [askedBy, Op.call?, if_true, step, drop, found]

/-- What a batch asks follows from the calls made of it. -/
theorem askedBy_eq (found : h.member? block = some m) (op : Op) :
    h.askedBy block op = callsOf (m.batch.run (h.callTo block op)).2 := by
  have called (op : Batch.Op) : h.askedBy block (.act block op) =
      callsOf (m.batch.run (h.callTo block (.act block op))).2 := by
    rw [askedBy_act found, callTo_act found]
    exact congrArg callsOf (List.append_nil _).symm
  by_cases mine : ∃ call ∈ op.call?, call.1 = block
  · obtain ⟨⟨other, call⟩, asks, rfl⟩ := mine
    cases op with
    | act _ op =>
        cases asks
        exact called _
    | drop _ answers =>
        cases asks
        exact (askedBy_drop found answers).trans (called (.close answers))
    | _ => cases asks
  · have apart : ∀ call ∈ op.call?, call.1 ≠ block := fun call asks same => mine ⟨call, asks, same⟩
    rw [askedBy_of_ne apart, callTo_of_ne apart]
    rfl

theorem member?_setBatch (h : Hub) (called : Nat) (b : Batch) (block : Nat) :
    (h.setBatch called b).member? block =
      (h.member? block).map fun m => if m.block == called then { m with batch := b } else m := by
  unfold member? setBatch
  rw [List.find?_map]
  congr 2
  funext m
  change ((ite _ _ m : Member).block == block) = (m.block == block)
  split <;> rfl

theorem member?_act_of_ne {called : Nat} (apart : called ≠ block) (op : Batch.Op) :
    (h.act called op).hub.member? block = h.member? block := by
  cases found : h.member? called with
  | none => simp only [act, found, missing]
  | some m =>
      rw [(act_found found op).2]
      refine (member?_setBatch h called _ block).trans ?_
      cases other : h.member? block with
      | none => rfl
      | some n =>
          have here := (member?_some other).2
          rw [Option.map_some, if_neg]
          exact fun same => apart ((eq_of_beq same).symm.trans here)

theorem member?_act_self (found : h.member? block = some m) (op : Batch.Op) :
    (h.act block op).hub.member? block =
      some { m with batch := (m.batch.step ⟨h.limit m, h.clock⟩ op).batch } := by
  rw [(act_found found op).2]
  refine (member?_setBatch h block _ block).trans ?_
  rw [found, Option.map_some, if_pos (beq_iff_eq.mpr (member?_some found).2)]

theorem member?_drop_of_ne {called : Nat} (apart : called ≠ block) (answers : Nat → Bool) :
    (h.drop called answers).hub.member? block = h.member? block := by
  cases found : h.member? called with
  | none => simp only [drop, found, missing]
  | some m =>
      simp only [drop, found]
      refine Eq.trans ?_ (member?_act_of_ne apart (.close answers))
      unfold member?
      rw [List.find?_filter]
      congr 1
      funext n
      cases here : n.block == block with
      | false => simp
      | true =>
          have kept : n.block ≠ called := fun same => apart (same.symm.trans (eq_of_beq here))
          simp [kept]

theorem member?_drop_self (h : Hub) (block : Nat) (answers : Nat → Bool) :
    (h.drop block answers).hub.member? block = none := by
  cases found : h.member? block with
  | none =>
      simp only [drop, found]
      exact found
  | some m =>
      simp only [drop, found]
      unfold member?
      rw [List.find?_filter, List.find?_eq_none]
      simp

end Hub
end ElasticBatch
