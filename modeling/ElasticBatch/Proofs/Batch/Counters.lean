import ElasticBatch.Proofs.Batch.History

/-! What there is to count in a history. Every offer before the close is dealt with in one of four
ways, every accepted event is sent, released or still there, and the counters count just that. -/
namespace ElasticBatch

/-! What is seen of a single occurrence. -/
namespace Occurrence

def rejects : Occurrence → List Offer
  | rejected o => [o]
  | _ => []

def repeats : Occurrence → List Offer
  | repeated o => [o]
  | _ => []

def losses : Occurrence → List Offer
  | lost o => [o]
  | _ => []

def failures : Occurrence → List (Offer × Error)
  | failed o cause => [(o, cause)]
  | _ => []

def admissions : Occurrence → List Entry
  | admitted entry => [entry]
  | _ => []

/-- The buffer that is appended to the collection of a category. -/
def appended (category : Category) : Occurrence → Bytes
  | admitted entry => if category = entry.encoded.category then entry.encoded.bytes else []
  | _ => []

def batches : Occurrence → List (List Entry)
  | sent entries => [entries]
  | _ => []

def closings : Occurrence → List (List Entry)
  | ended entries _ => [entries]
  | _ => []

/-- The events that leave the batch. -/
def departures (x : Occurrence) : List Entry := x.batches.flatten ++ x.closings.flatten

/-- An open batch deals with an offer in one of four ways. -/
inductive Served (o : Offer) : Occurrence → Prop
  | repeated : Served o (.repeated o)
  | lost : Served o (.lost o)
  | failed (cause : Error) : Served o (.failed o cause)
  | admitted (entry : Entry) : Served o (.admitted entry)

def isServed : Occurrence → Bool
  | repeated _ | lost _ | failed .. | admitted _ => true
  | rejected _ | sent _ | ended .. | idle => false

/-- There is little that comes to a closed batch. -/
inductive Late : Occurrence → Prop
  | rejected (o : Offer) : Late (.rejected o)
  | sent (entries : List Entry) : Late (.sent entries)
  | idle : Late .idle

namespace Served

variable {o : Offer} {x : Occurrence}

theorem isServed_eq (served : Served o x) : x.isServed = true := by
  cases served <;> rfl

theorem rejects_eq (served : Served o x) : x.rejects = [] := by
  cases served <;> rfl

theorem batches_eq (served : Served o x) : x.batches = [] := by
  cases served <;> rfl

theorem closings_eq (served : Served o x) : x.closings = [] := by
  cases served <;> rfl

end Served

/-- What is served is seen in one of four ways. -/
theorem countP_isServed (xs : List Occurrence) :
    xs.countP isServed =
      (xs.flatMap admissions).length + (xs.flatMap repeats).length + (xs.flatMap losses).length +
        (xs.flatMap failures).length := by
  induction xs with
  | nil => rfl
  | cons x rest ih =>
      simp only [List.countP_cons, List.flatMap_cons, List.length_append, ih]
      cases x <;> simp [isServed, admissions, repeats, losses, failures] <;> omega

end Occurrence

namespace Batch

def offersOf (calls : List (Moment × Op)) : List Offer := calls.filterMap (·.2.offer?)

/-- The calls up to the first close, which is the only one that does anything. -/
def beforeClose (calls : List (Moment × Op)) : List (Moment × Op) :=
  calls.takeWhile (!·.2.closes)

def sinceClose (calls : List (Moment × Op)) : List (Moment × Op) :=
  calls.dropWhile (!·.2.closes)

end Batch

namespace Manifest

variable {a : Manifest}

theorem comesTo_offer_closed (shut : a.closed = true) (m : Batch.Moment) (o : Offer) :
    a.comesTo (m, .offer o) = .rejected o := by
  simp only [comesTo, shut, if_true]

theorem comesTo_close_closed (shut : a.closed = true) (m : Batch.Moment)
    (answers : Nat → Bool) : a.comesTo (m, .close answers) = .idle := by
  simp only [comesTo, shut, if_true]

theorem comesTo_close_open (running : a.closed = false) (m : Batch.Moment)
    (answers : Nat → Bool) : a.comesTo (m, .close answers) = .ended a.entries answers := by
  simp only [comesTo, running, Bool.false_eq_true, if_false]

theorem served_of_open (running : a.closed = false) (m : Batch.Moment) (o : Offer) :
    (a.comesTo (m, .offer o)).Served o := by
  simp only [comesTo, running, Bool.false_eq_true, if_false]
  split
  · split
    · cases Payload.encodeOffered o.payload with
      | error failure => exact .failed failure.error
      | ok encoded => exact .admitted _
    · exact .lost
  · exact .repeated

theorem comesTo_offer (a : Manifest) (m : Batch.Moment) (o : Offer) :
    a.comesTo (m, .offer o) = .rejected o ∨ (a.comesTo (m, .offer o)).Served o := by
  cases shut : a.closed with
  | true => exact Or.inl (comesTo_offer_closed shut m o)
  | false => exact Or.inr (served_of_open shut m o)

theorem closed_record (shut : a.closed = true) (call : Batch.Moment × Batch.Op) :
    (a.record call).closed = true := by
  obtain ⟨m, op⟩ := call
  cases op with
  | offer o => exact shut
  | reset => exact shut
  | close answers => rfl

theorem closed_foldl (shut : a.closed = true) (calls : List (Batch.Moment × Batch.Op)) :
    (calls.foldl record a).closed = true := by
  induction calls generalizing a with
  | nil => exact shut
  | cons call rest ih => exact ih (closed_record shut call)

theorem late_of_closed (shut : a.closed = true) (calls : List (Batch.Moment × Batch.Op)) :
    ∀ x ∈ a.history calls, x.Late := by
  induction calls generalizing a with
  | nil => exact fun x listed => absurd listed List.not_mem_nil
  | cons call rest ih =>
      refine List.forall_mem_cons.mpr ⟨?_, ih (closed_record shut call)⟩
      obtain ⟨m, op⟩ := call
      cases op with
      | offer o =>
          rw [comesTo_offer_closed shut]
          exact .rejected o
      | reset => exact .sent a.entries
      | close answers =>
          rw [comesTo_close_closed shut]
          exact .idle

/-- Served are the offers that come before the close. -/
theorem countP_isServed_history (running : a.closed = false)
    (calls : List (Batch.Moment × Batch.Op)) :
    (a.history calls).countP Occurrence.isServed =
      (Batch.offersOf (Batch.beforeClose calls)).length := by
  induction calls generalizing a with
  | nil => rfl
  | cons call rest ih =>
      obtain ⟨m, op⟩ := call
      cases op with
      | offer o =>
          have later := ih (a := a.record (m, .offer o)) running
          rw [history, List.countP_cons_of_pos (served_of_open running m o).isServed_eq, later]
          rfl
      | reset => exact ih (a := a.record (m, .reset)) running
      | close answers =>
          have none : ((a.record (m, .close answers)).history rest).countP
              Occurrence.isServed = 0 := by
            refine List.countP_eq_zero.mpr fun x listed => ?_
            cases late_of_closed rfl rest x listed <;> exact Bool.false_ne_true
          rw [history, comesTo_close_open running, List.countP_cons_of_neg Bool.false_ne_true, none]
          rfl

theorem rejects_of_closed (shut : a.closed = true) (calls : List (Batch.Moment × Batch.Op)) :
    (a.history calls).flatMap Occurrence.rejects = Batch.offersOf calls := by
  induction calls generalizing a with
  | nil => rfl
  | cons call rest ih =>
      obtain ⟨m, op⟩ := call
      have later := ih (closed_record shut (m, op))
      rw [history, List.flatMap_cons, later]
      cases op with
      | offer o =>
          rw [comesTo_offer_closed shut]
          rfl
      | reset => rfl
      | close answers =>
          rw [comesTo_close_closed shut]
          rfl

/-- Rejected are the offers that come after the close. -/
theorem rejects_history (running : a.closed = false) (calls : List (Batch.Moment × Batch.Op)) :
    (a.history calls).flatMap Occurrence.rejects = Batch.offersOf (Batch.sinceClose calls) := by
  induction calls generalizing a with
  | nil => rfl
  | cons call rest ih =>
      obtain ⟨m, op⟩ := call
      cases op with
      | offer o =>
          rw [history, List.flatMap_cons, (served_of_open running m o).rejects_eq]
          exact ih (a := a.record (m, .offer o)) running
      | reset => exact ih (a := a.record (m, .reset)) running
      | close answers =>
          have later := rejects_of_closed (a := a.record (m, .close answers)) rfl rest
          rw [history, List.flatMap_cons, comesTo_close_open running, later]
          rfl

theorem batches_comesTo (a : Manifest) (call : Batch.Moment × Batch.Op) :
    (a.comesTo call).batches = if call.2.resets then [a.entries] else [] := by
  obtain ⟨m, op⟩ := call
  cases op with
  | offer o =>
      rcases a.comesTo_offer m o with rejected | served
      · rw [rejected]
        rfl
      · exact served.batches_eq
  | reset => rfl
  | close answers =>
      simp only [comesTo]
      split <;> rfl

theorem length_batches (a : Manifest) (calls : List (Batch.Moment × Batch.Op)) :
    ((a.history calls).flatMap Occurrence.batches).length = calls.countP (·.2.resets) := by
  induction calls generalizing a with
  | nil => rfl
  | cons call rest ih =>
      rw [history, List.flatMap_cons, List.length_append, ih, batches_comesTo, List.countP_cons,
        Nat.add_comm]
      cases call.2.resets <;> rfl

/-- A batch is closed at most once, and then for good. -/
theorem closings_history (running : a.closed = false) (calls : List (Batch.Moment × Batch.Op)) :
    ((calls.foldl record a).closed = false ∧ (a.history calls).flatMap Occurrence.closings = []) ∨
      ((calls.foldl record a).closed = true ∧
        ∃ entries, (a.history calls).flatMap Occurrence.closings = [entries]) := by
  induction calls generalizing a with
  | nil => exact Or.inl ⟨running, rfl⟩
  | cons call rest ih =>
      obtain ⟨m, op⟩ := call
      rw [history, List.flatMap_cons]
      cases op with
      | offer o =>
          rw [(served_of_open running m o).closings_eq]
          exact ih (a := a.record (m, .offer o)) running
      | reset => exact ih (a := a.record (m, .reset)) running
      | close answers =>
          have none : ((a.record (m, .close answers)).history rest).flatMap
              Occurrence.closings = [] := by
            refine List.flatMap_eq_nil_iff.mpr fun x listed => ?_
            cases late_of_closed rfl rest x listed <;> rfl
          rw [comesTo_close_open running, none]
          exact Or.inr ⟨closed_foldl rfl rest, a.entries, rfl⟩

theorem admissions_comesTo (a : Manifest) (m : Batch.Moment) (o : Offer) :
    (a.comesTo (m, .offer o)).admissions = (a.accepted? m.now o).toList := by
  simp only [comesTo, accepted?, ← o.toOption_encodeOffered]
  cases a.closed with
  | true => simp [Occurrence.admissions]
  | false =>
      by_cases new : a.IsNew o.event
      · cases o.retained with
        | true =>
            cases Payload.encodeOffered o.payload <;>
              simp [new, Occurrence.admissions, Except.toOption]
        | false => simp [new, Occurrence.admissions]
      · simp [new, Occurrence.admissions]

theorem closings_comesTo_offer (a : Manifest) (m : Batch.Moment) (o : Offer) :
    (a.comesTo (m, .offer o)).closings = [] := by
  rcases a.comesTo_offer m o with rejected | served
  · rw [rejected]
    rfl
  · exact served.closings_eq

theorem drained_record (drained : a.closed = true → a.entries = [])
    (call : Batch.Moment × Batch.Op) (shut : (a.record call).closed = true) :
    (a.record call).entries = [] := by
  obtain ⟨m, op⟩ := call
  cases op with
  | offer o =>
      have shut : a.closed = true := shut
      have refused : a.accepted? m.now o = none := by
        unfold accepted?
        rw [if_neg (by rw [shut]; exact fun accepts => Bool.noConfusion accepts.1)]
      rw [record_turnedAway refused, drained shut]
  | reset => rfl
  | close answers => rfl

/-- What comes in is there until it leaves. -/
theorem entries_record (a : Manifest) (drained : a.closed = true → a.entries = [])
    (call : Batch.Moment × Batch.Op) :
    a.entries ++ (a.comesTo call).admissions =
      (a.comesTo call).departures ++ (a.record call).entries := by
  obtain ⟨m, op⟩ := call
  cases op with
  | offer o =>
      rw [admissions_comesTo, Occurrence.departures, batches_comesTo, closings_comesTo_offer]
      rfl
  | reset =>
      simp [comesTo, record, Occurrence.admissions, Occurrence.departures, Occurrence.batches,
        Occurrence.closings]
  | close answers =>
      cases shut : a.closed with
      | true =>
          rw [comesTo_close_closed shut, drained shut]
          rfl
      | false =>
          rw [comesTo_close_open shut]
          simp [record, Occurrence.admissions, Occurrence.departures, Occurrence.batches,
            Occurrence.closings]

/-- Every accepted event has been sent or released or is still there, all in the order in which they
came. -/
theorem entries_foldl (a : Manifest) (drained : a.closed = true → a.entries = [])
    (calls : List (Batch.Moment × Batch.Op)) :
    a.entries ++ (a.history calls).flatMap Occurrence.admissions =
      (a.history calls).flatMap Occurrence.departures ++ (calls.foldl record a).entries := by
  induction calls generalizing a with
  | nil => exact List.append_nil _
  | cons call rest ih =>
      have later := ih (a.record call) (drained_record drained call)
      rw [history, List.flatMap_cons, List.flatMap_cons, ← List.append_assoc,
        a.entries_record drained call, List.append_assoc, later, ← List.append_assoc]
      rfl

end Manifest

namespace Occurrence

/-! Counting what is seen of a history. -/

theorem length_departures (xs : List Occurrence) :
    (xs.flatMap departures).length =
      (xs.flatMap batches).flatten.length + (xs.flatMap closings).flatten.length := by
  induction xs with
  | nil => rfl
  | cons x rest ih =>
      simp only [List.flatMap_cons, List.flatten_append, List.length_append, ih, departures]
      omega

section
variable {β : Type} {see : Occurrence → List β}

theorem counter_foldl {counter : Stats → Word}
    (counted : ∀ s x, counter (count s x) = counter s + UInt64.ofNat (see x).length)
    (s : Stats) (xs : List Occurrence) :
    counter (xs.foldl count s) = counter s + UInt64.ofNat (xs.flatMap see).length := by
  induction xs generalizing s with
  | nil => exact (UInt64.add_zero _).symm
  | cons x rest ih =>
      rw [List.foldl_cons, ih, counted, List.flatMap_cons, List.length_append, UInt64.ofNat_add,
        UInt64.add_assoc]

/-- A counter that starts at zero has counted what there was to see. -/
theorem toNat_counter (counter : Stats → Word)
    (counted : ∀ s x, counter (count s x) = counter s + UInt64.ofNat (see x).length)
    (zero : counter {} = 0) {xs : List Occurrence}
    (small : (xs.flatMap see).length < UInt64.size) :
    (counter (xs.foldl count {})).toNat = (xs.flatMap see).length := by
  rw [counter_foldl counted, zero, UInt64.zero_add, UInt64.toNat_ofNat_of_lt' small]

end

variable (s : Stats) (x : Occurrence)

theorem accepted_count :
    (count s x).accepted = s.accepted + UInt64.ofNat (admissions x).length := by
  cases x <;> simp [count, Stats.record, admissions]

theorem duplicates_count :
    (count s x).duplicates = s.duplicates + UInt64.ofNat (repeats x).length := by
  cases x <;> simp [count, Stats.record, repeats]

theorem retainFailures_count :
    (count s x).retainFailures = s.retainFailures + UInt64.ofNat (losses x).length := by
  cases x <;> simp [count, Stats.record, losses]

theorem encodingFailures_count :
    (count s x).encodingFailures = s.encodingFailures + UInt64.ofNat (failures x).length := by
  cases x <;> simp [count, Stats.record, failures]

theorem batchesSent_count :
    (count s x).batchesSent = s.batchesSent + UInt64.ofNat (batches x).length := by
  cases x <;> simp [count, Stats.record, batches]

theorem released_count :
    (count s x).released = s.released + UInt64.ofNat (closings x).flatten.length := by
  cases x <;> simp [count, Stats.record, closings]

theorem bytes_count (category : Category) :
    (count s x).bytes category =
      s.bytes category + UInt64.ofNat (appended category x).length := by
  cases x with
  | admitted entry =>
      rw [count, Stats.bytes_record_accepted, appended]
      split
      · rfl
      · exact (UInt64.add_zero _).symm
  | _ => cases category <;> simp [count, Stats.record, Stats.bytes, appended]

end Occurrence
end ElasticBatch
