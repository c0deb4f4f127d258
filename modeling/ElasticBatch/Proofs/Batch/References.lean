import ElasticBatch.Proofs.Batch.Refinement

/-! References that a batch takes of events and gives back. Every reference taken is accounted for
at any time: it was given back, or its event is retained, or a reset handed it over. An event is
known by its handle. A batch that is dropped is closed first, so that a drop is one more close. -/
namespace ElasticBatch.Batch

/-- How many references of an event were taken. A refusal takes none. -/
def taken (handle : Nat) (calls : List Call) : Nat := calls.count (.retain handle true)

/-- How many were given back, whatever the event answered. -/
def givenBack (handle : Nat) (calls : List Call) : Nat :=
  calls.count (.release handle true) + calls.count (.release handle false)

theorem taken_append (handle : Nat) (xs ys : List Call) :
    taken handle (xs ++ ys) = taken handle xs + taken handle ys :=
  List.count_append

theorem givenBack_append (handle : Nat) (xs ys : List Call) :
    givenBack handle (xs ++ ys) = givenBack handle xs + givenBack handle ys := by
  simp only [givenBack, List.count_append]
  omega

/-- The calls lead from one number of references held to another, and at no point on the way has
more been given back than was held. -/
structure Settles (handle before : Nat) (calls : List Call) (later : Nat) : Prop where
  solvent : ∀ part, part <+: calls → givenBack handle part ≤ taken handle part + before
  settled : taken handle calls + before = givenBack handle calls + later

namespace Settles

variable {handle before middle later : Nat} {xs ys : List Call}

theorem nil (handle held : Nat) : Settles handle held [] held where
  solvent part short := by
    rw [List.prefix_nil.mp short]
    exact Nat.zero_le _
  settled := rfl

theorem single {call : Call}
    (settled : taken handle [call] + before = givenBack handle [call] + later) :
    Settles handle before [call] later where
  solvent part short := by
    rcases List.prefix_cons_iff.mp short with rfl | ⟨rest, rfl, nothing⟩
    · exact Nat.zero_le _
    · rw [List.prefix_nil.mp nothing]
      omega
  settled := settled

theorem append (first : Settles handle before xs middle)
    (second : Settles handle middle ys later) : Settles handle before (xs ++ ys) later where
  solvent part short := by
    have whole := List.prefix_append xs ys
    rcases List.prefix_or_prefix_of_prefix short whole with within | ⟨more, rfl⟩
    · exact first.solvent part within
    · have rest := second.solvent more ((List.prefix_append_right_inj xs).mp short)
      have settled := first.settled
      rw [givenBack_append, taken_append]
      omega
  settled := by
    have one := first.settled
    have two := second.settled
    rw [givenBack_append, taken_append]
    omega

/-- References that the calls leave alone change nothing. -/
theorem shift (h : Settles handle before xs later) (others : Nat) :
    Settles handle (before + others) xs (later + others) where
  solvent part short := by
    have solvent := h.solvent part short
    omega
  settled := by
    have settled := h.settled
    omega

theorem refused (handle held event : Nat) : Settles handle held [.retain event false] held :=
  single (by simp [taken, givenBack])

theorem payload (handle held event : Nat) : Settles handle held [.payload event] held :=
  single (by simp [taken, givenBack])

theorem retain (handle held event : Nat) :
    Settles handle held [.retain event true] (held + [event].count handle) :=
  single (by by_cases same : event = handle <;> simp [taken, givenBack, same]; omega)

theorem release (handle held event : Nat) (answer : Bool) :
    Settles handle (held + [event].count handle) [.release event answer] held :=
  single (by by_cases same : event = handle <;> cases answer <;>
    simp [taken, givenBack, same] <;> omega)

end Settles

/-- What a call with a given verdict asks of the event. -/
def Verdict.calls (o : Offer) : Verdict → List Call
  | .rejected | .duplicate => []
  | .lost => [.retain o.event.handle false]
  | .failed _ =>
    [.retain o.event.handle true, .payload o.event.handle, .release o.event.handle o.released]
  | .accepted _ => [.retain o.event.handle true, .payload o.event.handle]

theorem callsOf_effects (o : Offer) (verdict : Verdict) :
    callsOf (effects o verdict) = verdict.calls o := by
  cases verdict with
  | failed failure =>
      obtain ⟨error, kind⟩ := failure
      cases kind <;> cases released : o.released <;>
        simp only [effects, Verdict.calls, Payload.Failure.effects, released] <;> rfl
  | _ => rfl

theorem callsOf_offer (b : Batch) (m : Moment) (o : Offer) :
    callsOf (b.step m (.offer o)).effects = (b.judge o).calls o := by
  rw [effects_offer, callsOf_effects]

def releaseCalls (answers : Nat → Bool) : Nat → List Event → List Call
  | _, [] => []
  | place, event :: rest =>
    .release event.handle (answers place) :: releaseCalls answers (place + 1) rest

theorem callsOf_releases (answers : Nat → Bool) (place : Nat) (events : List Event) :
    callsOf (releases answers place events) = releaseCalls answers place events := by
  induction events generalizing place with
  | nil => rfl
  | cons event rest ih =>
      rw [releases, callsOf_append, callsOf_append, ih]
      cases answer : answers place <;> simp only [releaseCalls, answer] <;> rfl

/-- The line about a close asks nothing of anyone. -/
theorem callsOf_close {b : Batch} (m : Moment) (running : b.closed = false)
    (answers : Nat → Bool) :
    callsOf (b.step m (.close answers)).effects = releaseCalls answers 0 b.retained := by
  rw [step_close m running, Outcome.effects, callsOf_append, callsOf_releases]
  exact List.append_nil _

theorem handles_settle (b : Batch) (now : Nat) (o : Offer) (verdict : Verdict) :
    (b.settle now o verdict).handles =
      match verdict with
      | .accepted _ => b.handles ++ [o.event.handle]
      | _ => b.handles := by
  cases verdict with
  | accepted encoded => simp [settle, append, handles]
  | _ => rfl

/-- What a call hands over to the receiver of the batch. -/
def surrendered (b : Batch) : Op → List Nat
  | .reset => b.handles
  | _ => []

/-- All that the resets of a run handed over. -/
def handedOver (b : Batch) : List (Moment × Op) → List Nat
  | [] => []
  | (m, op) :: rest => b.surrendered op ++ (b.step m op).batch.handedOver rest

theorem settles_releases (handle : Nat) (answers : Nat → Bool) (place : Nat) (events : List Event) :
    Settles handle ((events.map Event.handle).count handle) (releaseCalls answers place events)
      0 := by
  induction events generalizing place with
  | nil => exact .nil handle 0
  | cons event rest ih =>
      have first := Settles.release handle ((rest.map Event.handle).count handle) event.handle
        (answers place)
      rw [Nat.add_comm, ← List.count_append] at first
      exact first.append (ih (place + 1))

/-- An offer holds one more reference exactly if it was accepted. -/
theorem settles_offer (b : Batch) (now : Nat) (o : Offer) (verdict : Verdict) (handle : Nat) :
    Settles handle (b.handles.count handle) (verdict.calls o)
      ((b.settle now o verdict).handles.count handle) := by
  rw [handles_settle]
  cases verdict with
  | rejected => exact .nil handle _
  | duplicate => exact .nil handle _
  | lost => exact .refused handle _ _
  | failed failure =>
      exact (Settles.retain handle _ _).append
        ((Settles.payload handle _ _).append (.release handle _ _ o.released))
  | accepted encoded =>
      rw [List.count_append]
      exact (Settles.retain handle _ _).append (.payload handle _ _)

theorem settles_step (b : Batch) (m : Moment) (op : Op) (handle : Nat) :
    Settles handle (b.handles.count handle) (callsOf (b.step m op).effects)
      ((b.step m op).batch.handles.count handle + (b.surrendered op).count handle) := by
  cases op with
  | offer o =>
      rw [callsOf_offer, batch_offer]
      exact settles_offer b m.now o (b.judge o) handle
  | reset =>
      rw [Nat.add_comm]
      exact .nil handle _
  | close answers =>
      cases shut : b.closed with
      | true =>
          rw [step_close_again m shut]
          exact .nil handle _
      | false =>
          rw [callsOf_close m shut, step_close m shut]
          exact settles_releases handle answers 0 b.retained

theorem settles_run (b : Batch) (calls : List (Moment × Op)) (handle : Nat) :
    Settles handle (b.handles.count handle) (callsOf (b.run calls).2)
      ((b.run calls).1.handles.count handle + (b.handedOver calls).count handle) := by
  induction calls generalizing b with
  | nil => exact .nil handle _
  | cons call rest ih =>
      obtain ⟨m, op⟩ := call
      have first := settles_step b m op handle
      have second := (ih (b.step m op).batch).shift ((b.surrendered op).count handle)
      simp only [run, handedOver, callsOf_append, List.count_append]
      rw [Nat.add_assoc, Nat.add_comm (List.count handle (handedOver _ _))] at second
      exact first.append second

/-- An event is asked for its payload directly after a reference of it was taken, and never else. -/
def PayloadsHeld (calls : List Call) : Prop :=
  ∀ earlier later handle, calls = earlier ++ .payload handle :: later →
    ∃ start, earlier = start ++ [.retain handle true]

theorem PayloadsHeld.append {xs ys : List Call} (first : PayloadsHeld xs)
    (second : PayloadsHeld ys) : PayloadsHeld (xs ++ ys) := by
  intro earlier later handle split
  rcases List.append_eq_append_iff.mp split with ⟨more, rfl, rest⟩ | ⟨more, whole, rest⟩
  · obtain ⟨start, rfl⟩ := second more later handle rest
    exact ⟨xs ++ start, (List.append_assoc xs start _).symm⟩
  · cases more with
    | nil =>
        obtain ⟨start, absurd⟩ := second [] later handle rest.symm
        simp at absurd
    | cons call more =>
        obtain ⟨same, -⟩ := List.cons.inj rest
        exact first earlier more handle (by rw [whole, same])

theorem payloadsHeld_of_none {calls : List Call} (none : ∀ handle, .payload handle ∉ calls) :
    PayloadsHeld calls := by
  intro earlier later handle split
  exact absurd (by simp [split]) (none handle)

theorem payloadsHeld_pair (handle : Nat) :
    PayloadsHeld [.retain handle true, .payload handle] := by
  intro earlier later asked split
  rcases earlier with _ | ⟨first, _ | ⟨second, rest⟩⟩
  · simp at split
  · simp only [List.cons_append, List.nil_append, List.cons.injEq, Call.payload.injEq] at split
    obtain ⟨rfl, rfl, -⟩ := split
    exact ⟨[], rfl⟩
  · simp at split

theorem payloadsHeld_step (b : Batch) (m : Moment) (op : Op) :
    PayloadsHeld (callsOf (b.step m op).effects) := by
  cases op with
  | offer o =>
      rw [callsOf_offer]
      cases b.judge o with
      | rejected => exact payloadsHeld_of_none (by simp [Verdict.calls])
      | duplicate => exact payloadsHeld_of_none (by simp [Verdict.calls])
      | lost => exact payloadsHeld_of_none (by simp [Verdict.calls])
      | failed failure =>
          have given : PayloadsHeld [.release o.event.handle o.released] :=
            payloadsHeld_of_none (by simp)
          exact (payloadsHeld_pair o.event.handle).append given
      | accepted encoded => exact payloadsHeld_pair o.event.handle
  | reset =>
      exact payloadsHeld_of_none (by simp [step, reset, Outcome.effects, callsOf, Effect.call?])
  | close answers =>
      have none : ∀ place events handle, .payload handle ∉ releaseCalls answers place events := by
        intro place events handle
        induction events generalizing place with
        | nil => simp [releaseCalls]
        | cons event rest ih => simp [releaseCalls, ih]
      cases shut : b.closed with
      | true =>
          rw [step_close_again m shut]
          exact payloadsHeld_of_none (by simp [Outcome.effects, callsOf])
      | false =>
          rw [callsOf_close m shut]
          exact payloadsHeld_of_none (none 0 b.retained)

theorem payloadsHeld_run (b : Batch) (calls : List (Moment × Op)) :
    PayloadsHeld (callsOf (b.run calls).2) := by
  induction calls generalizing b with
  | nil => exact payloadsHeld_of_none (by simp [run, callsOf])
  | cons call rest ih =>
      obtain ⟨m, op⟩ := call
      simp only [run, callsOf_append]
      exact (payloadsHeld_step b m op).append (ih _)

/-- An event that cannot be retained is asked nothing more, and is not kept. -/
theorem refused_alone (b : Batch) (m : Moment) (o : Offer)
    (refused : .retain o.event.handle false ∈ callsOf (b.step m (.offer o)).effects) :
    callsOf (b.step m (.offer o)).effects = [.retain o.event.handle false] ∧
      (b.step m (.offer o)).batch.handles = b.handles := by
  rw [callsOf_offer] at refused ⊢
  rw [batch_offer, handles_settle]
  cases verdict : b.judge o with
  | lost => exact ⟨rfl, rfl⟩
  | rejected => simp [verdict, Verdict.calls] at refused
  | duplicate => simp [verdict, Verdict.calls] at refused
  | failed failure => simp [verdict, Verdict.calls] at refused
  | accepted encoded => simp [verdict, Verdict.calls] at refused

/-- An offer that fails leaves the references of every event as they were. -/
theorem failed_even (b : Batch) (m : Moment) (o : Offer) (cause : Error) (handle : Nat)
    (failed : (b.step m (.offer o)).answer = some (.error cause)) :
    taken handle (callsOf (b.step m (.offer o)).effects) =
        givenBack handle (callsOf (b.step m (.offer o)).effects) ∧
      (b.step m (.offer o)).batch.handles = b.handles := by
  have settled := (settles_step b m (.offer o) handle).settled
  have same : (b.step m (.offer o)).batch.handles = b.handles := by
    rw [batch_offer, handles_settle]
    rw [answer_offer, Option.some.injEq] at failed
    cases verdict : b.judge o with
    | accepted encoded => simp [verdict, answer] at failed
    | _ => rfl
  rw [same] at settled
  exact ⟨Nat.add_right_cancel settled, same⟩

/-- The references taken of an event and not given back are those of its retained occurrences and of
the occurrences that resets handed over. More is never given back than was taken, not even within a
call. Once there was a close among the calls, and a drop is one, only what was handed over is left,
however many more closes there were. A payload is asked for only directly after a reference was
taken. A refused reference is the end of its offer, and a failed offer is even. -/
theorem references_accounted (config : Config) (calls : List (Moment × Op)) (handle : Nat) :
    let last := ((ofConfig config).run calls).1
    let made := callsOf ((ofConfig config).run calls).2
    let handed := ((ofConfig config).handedOver calls).count handle
    taken handle made = givenBack handle made + last.handles.count handle + handed ∧
      (∀ part, part <+: made → givenBack handle part ≤ taken handle part) ∧
      (calls.any (·.2.closes) = true → taken handle made = givenBack handle made + handed) ∧
      (∀ earlier later, made = earlier ++ .payload handle :: later →
        givenBack handle earlier < taken handle earlier ∧
          ∃ start, earlier = start ++ [.retain handle true]) ∧
      ∀ m o,
        let next := last.step m (.offer o)
        (.retain o.event.handle false ∈ callsOf next.effects →
          callsOf next.effects = [.retain o.event.handle false] ∧
            next.batch.handles = last.handles) ∧
        ∀ cause, next.answer = some (.error cause) →
          taken handle (callsOf next.effects) = givenBack handle (callsOf next.effects) ∧
            next.batch.handles = last.handles := by
  intro last made handed
  have settles : Settles handle 0 made (last.handles.count handle + handed) :=
    settles_run (ofConfig config) calls handle
  have settled : taken handle made = givenBack handle made + (last.handles.count handle + handed) :=
    settles.settled
  refine ⟨by omega, settles.solvent, ?_, ?_, ?_⟩
  · intro closes
    have shut : last.closed = true := by
      rw [closed_run_eq, closes, Bool.or_true]
    have empty : last.handles = [] := by
      rw [handles, (holds_after config calls).retained_eq_nil shut]
      rfl
    rw [settled, empty, List.count_nil, Nat.zero_add]
  · intro earlier later split
    obtain ⟨start, rfl⟩ := payloadsHeld_run (ofConfig config) calls earlier later handle split
    have solvent := settles.solvent start ⟨[.retain handle true] ++ .payload handle :: later, by
      rw [split, List.append_assoc]⟩
    refine ⟨?_, start, rfl⟩
    rw [givenBack_append, taken_append]
    have none : givenBack handle [.retain handle true] = 0 := by simp [givenBack]
    have one : taken handle [.retain handle true] = 1 := by simp [taken]
    omega
  · intro m o next
    exact ⟨refused_alone last m o, fun cause => failed_even last m o cause handle⟩

/-- One event is accepted twice, with another between, and handed over; then it is accepted once
more, and another offer of it fails. The batch is closed, and dropped later. -/
def returning : List (Moment × Op) :=
  let offered : Offer := stampedOffer 0 70 (.binary [1, 2])
  let other : Offer := stampedOffer 1 50 (.binary [3])
  [(⟨100, 0⟩, .offer offered), (⟨100, 1⟩, .offer other), (⟨100, 2⟩, .offer offered),
    (⟨100, 3⟩, .reset), (⟨100, 4⟩, .offer offered), (⟨100, 5⟩, .offer other),
    (⟨100, 6⟩, .offer { offered with payload := .ok (.insertNode (.raw [9] (some (.io "full")))) }),
    (⟨100, 7⟩, .close fun _ => false), (⟨0, 8⟩, .close fun _ => true)]

theorem returning_accounted :
    let made := callsOf ((ofConfig ⟨1, 100⟩).run returning).2
    let before := callsOf ((ofConfig ⟨1, 100⟩).run (returning.take 7)).2
    returning.any (·.2.closes) = true ∧
      taken 0 before = 4 ∧ taken 0 before = givenBack 0 before + 1 + 2 ∧
      taken 0 made = givenBack 0 made + 2 ∧ taken 1 made = givenBack 1 made + 1 := by
  intro made before
  have closes : returning.any (·.2.closes) = true := rfl
  have first := references_accounted ⟨1, 100⟩ returning 0
  have second := references_accounted ⟨1, 100⟩ returning 1
  exact ⟨closes, by decide, (references_accounted ⟨1, 100⟩ (returning.take 7) 0).1,
    first.2.2.1 closes, second.2.2.1 closes⟩

end ElasticBatch.Batch
