import ElasticBatch.Proofs.Batch.Counters
import ElasticBatch.Proofs.Batch.Flush

/-! The documented loop: who is told that a batch is due sends it before offering anything more.
What the batch holds then stays below the size that was asked for, but for the last buffer. -/
namespace ElasticBatch.Batch

/-- The answer says that the batch should be sent. -/
def asks (b : Batch) (m : Moment) (op : Op) : Bool :=
  match (b.step m op).answer with
  | some (.ok due) => due
  | some (.error _) | none => false

/-- Whether a reset is owed after a call, if it was or was not before. -/
def owes (b : Batch) (owed : Bool) (m : Moment) : Op → Bool
  | .offer o => b.asks m (.offer o)
  | .reset => false
  | .close _ => owed

def owing (b : Batch) (owed : Bool) : List (Moment × Op) → Bool
  | [] => owed
  | (m, op) :: rest => (b.step m op).batch.owing (b.owes owed m op) rest

/-- Nothing is offered while a reset is owed. -/
def Heeds (b : Batch) (owed : Bool) : List (Moment × Op) → Prop
  | [] => True
  | (m, op) :: rest =>
    (owed = true → op.offer?.isNone = true) ∧ (b.step m op).batch.Heeds (b.owes owed m op) rest

instance Heeds.decidable (b : Batch) (owed : Bool) :
    (calls : List (Moment × Op)) → Decidable (b.Heeds owed calls)
  | [] => isTrue trivial
  | (m, op) :: rest =>
    have := Heeds.decidable (b.step m op).batch (b.owes owed m op) rest
    inferInstanceAs (Decidable ((_ → _) ∧ _))

variable {b : Batch} {owed : Bool} {m : Moment} {o : Offer}

theorem heeds_append {first second : List (Moment × Op)} :
    b.Heeds owed (first ++ second) ↔
      b.Heeds owed first ∧ (b.run first).1.Heeds (b.owing owed first) second := by
  induction first generalizing b owed with
  | nil => exact iff_of_eq (true_and _).symm
  | cons call rest ih =>
      obtain ⟨m, op⟩ := call
      exact (and_congr_right fun _ => ih).trans and_assoc.symm

/-- An offer that is allowed finds nothing owed. -/
theorem paid_of_allowed (allowed : owed = true → (Op.offer o).offer?.isNone = true) :
    owed = false :=
  Bool.eq_false_iff.mpr fun still => Bool.false_ne_true (allowed still)

theorem pending_offer (b : Batch) (m : Moment) (o : Offer) :
    (b.step m (.offer o)).batch.pending =
      (b.judge o).encoded?.elim b.pending b.pending.push := by
  rw [batch_offer]
  cases b.judge o <;> rfl

/-- What is added is no more than the new buffer, even if the sum wraps around. -/
theorem total_offer_le (b : Batch) (m : Moment) (o : Offer) :
    (b.step m (.offer o)).batch.total.toNat ≤
      b.total.toNat + (b.judge o).encoded?.elim 0 (·.bytes.length) := by
  rw [batch_offer]
  cases b.judge o with
  | accepted encoded =>
      have grown : (b.total + UInt64.ofNat encoded.bytes.length).toNat ≤
          b.total.toNat + (UInt64.ofNat encoded.bytes.length).toNat := by
        rw [UInt64.toNat_add]
        exact Nat.mod_le _ _
      have size : (UInt64.ofNat encoded.bytes.length).toNat ≤ encoded.bytes.length := by
        rw [UInt64.toNat_ofNat']
        exact Nat.mod_le _ _
      exact Nat.le_trans grown (Nat.add_le_add_left size _)
  | _ => exact Nat.le_refl _

theorem lt_limit_of_not_due {limit : Word} {now : Nat} (early : b.due limit now = false) :
    b.total < limit := by
  have short := (Bool.or_eq_false_iff.mp early).1
  exact UInt64.not_le.mp (of_decide_eq_false short)

/-- An offer that does not ask for the batch leaves it below the limit, or as large as it was. -/
theorem total_of_not_asked (quiet : b.asks m (.offer o) = false) :
    (b.step m (.offer o)).batch.total < m.limit ∨
      (b.step m (.offer o)).batch.total = b.total := by
  rw [asks, answer_offer] at quiet
  rw [batch_offer]
  generalize b.judge o = verdict at quiet ⊢
  cases verdict with
  | rejected => exact Or.inr rfl
  | failed failure => exact Or.inr rfl
  | _ => exact Or.inl (lt_limit_of_not_due quiet)

/-- The batch holds less than was asked for, unless a reset is owed. -/
def Within (b : Batch) (owed : Bool) : Prop := owed = false → b.total < b.config.sizeBytes

theorem Within.step (within : b.Within owed) (positive : 0 < b.config.sizeBytes) {op : Op}
    (bounded : m.limit ≤ b.config.sizeBytes) (allowed : owed = true → op.offer?.isNone = true) :
    (b.step m op).batch.Within (b.owes owed m op) := by
  intro settled
  rw [config_step]
  cases op with
  | offer o =>
      have free := paid_of_allowed allowed
      rcases total_of_not_asked settled with less | same
      · exact UInt64.lt_of_lt_of_le less bounded
      · rw [same]
        exact within free
  | reset => exact positive
  | close answers =>
      cases shut : b.closed with
      | true =>
          rw [step_close_again m shut]
          exact within settled
      | false =>
          rw [step_close m shut]
          exact positive

theorem Within.run (within : b.Within owed) (positive : 0 < b.config.sizeBytes)
    {calls : List (Moment × Op)} (bounded : ∀ call ∈ calls, call.1.limit ≤ b.config.sizeBytes)
    (heeds : b.Heeds owed calls) : (b.run calls).1.Within (b.owing owed calls) := by
  induction calls generalizing b owed with
  | nil => exact within
  | cons call rest ih =>
      obtain ⟨m, op⟩ := call
      obtain ⟨here, later⟩ := List.forall_mem_cons.mp bounded
      have settings := config_step b m op
      refine ih (within.step positive here heeds.1) ?_ ?_ heeds.2
      · rwa [settings]
      · rwa [settings]

/-! The exact number of bytes, which does not wrap around as long as it is bounded. -/

theorem size_record_offer (a : Manifest) (m : Moment) (o : Offer) :
    (a.record (m, .offer o)).size =
      a.size + (a.accepted? m.now o).elim 0 (·.encoded.bytes.length) := by
  cases accepted : a.accepted? m.now o <;> simp [Manifest.record, Manifest.size, accepted]

/-- Every buffer is small enough to fit on top of what the batch may hold before. -/
def Fit (b : Batch) (bound : Nat) (happened : List Occurrence) : Prop :=
  ∀ entry ∈ happened.flatMap Occurrence.admissions,
    b.config.sizeBytes.toNat - 1 + entry.encoded.bytes.length ≤ bound

variable {a : Manifest} {bound : Nat}

theorem Holds.size_step (h : Holds b a) (within : b.Within owed) (small : a.size ≤ bound)
    (word : bound < UInt64.size) {op : Op} (allowed : owed = true → op.offer?.isNone = true)
    (fit : b.Fit bound [a.comesTo (m, op)]) : (a.record (m, op)).size ≤ bound := by
  cases op with
  | offer o =>
      rw [size_record_offer]
      cases accepted : a.accepted? m.now o with
      | none => exact small
      | some entry =>
          have free := paid_of_allowed allowed
          have admitted : (a.comesTo (m, .offer o)).admissions = [entry] := by
            rw [Manifest.admissions_comesTo, accepted]
            rfl
          have room := fit entry (by simp [admitted])
          have less := UInt64.lt_iff_toNat_lt.mp (within free)
          rw [h.total, UInt64.toNat_ofNat_of_lt' (Nat.lt_of_le_of_lt small word)] at less
          simp only [Option.elim_some]
          omega
  | reset => exact Nat.zero_le _
  | close answers => exact Nat.zero_le _

theorem Holds.size_run (h : Holds b a) (within : b.Within owed)
    (positive : 0 < b.config.sizeBytes) (small : a.size ≤ bound) (word : bound < UInt64.size)
    {calls : List (Moment × Op)} (bounded : ∀ call ∈ calls, call.1.limit ≤ b.config.sizeBytes)
    (heeds : b.Heeds owed calls) (fit : b.Fit bound (a.history calls)) :
    (calls.foldl Manifest.record a).size ≤ bound := by
  induction calls generalizing b a owed with
  | nil => exact small
  | cons call rest ih =>
      obtain ⟨m, op⟩ := call
      obtain ⟨here, later⟩ := List.forall_mem_cons.mp bounded
      have settings := config_step b m op
      rw [Fit, Manifest.history, List.flatMap_cons] at fit
      obtain ⟨first, others⟩ := List.forall_mem_append.mp fit
      have now : b.Fit bound [a.comesTo (m, op)] := by
        rw [Fit, List.flatMap_singleton]
        exact first
      refine ih (h.step m op) (within.step positive here heeds.1) ?_
        (h.size_step within small word heeds.1 now) ?_ heeds.2 ?_
      · rwa [settings]
      · rwa [settings]
      · rwa [Fit, settings]

/-! The request that the batch makes. -/

theorem Holds.totalBytes_assemble (h : Holds b a) : b.assemble.totalBytes = a.size := by
  have each : b.assemble.totalBytes = (a.buffers .binary).flatten.length +
      ((a.buffers .insertNode).flatten.length + (a.buffers .tablet).flatten.length) := by
    rw [← h.pending, ← h.pending, ← h.pending]
    simp only [Request.totalBytes, Request.buffers_eq, List.append_nil, List.flatten_append,
      List.length_append]
    rfl
  rw [each, Manifest.size]
  unfold Manifest.buffers
  induction a.entries with
  | nil => rfl
  | cons entry rest ih =>
      rw [List.flatMap_cons, List.length_append, ← ih]
      cases category : entry.encoded.category <;> simp [category] <;> omega

theorem Holds.mem_buffers (h : Holds b a) {bytes : Bytes} (sent : bytes ∈ b.assemble.buffers) :
    ∃ entry ∈ a.entries, entry.encoded.bytes = bytes := by
  obtain ⟨category, -, listed⟩ := List.mem_flatMap.mp sent
  rw [assemble, Request.get_ofBuffers, h.pending] at listed
  obtain ⟨entry, kept, rfl⟩ := List.mem_map.mp listed
  exact ⟨entry, (List.mem_filter.mp kept).1, rfl⟩

end ElasticBatch.Batch
