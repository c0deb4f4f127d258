import ElasticBatch.Proofs.Batch.Refinement

/-! When a batch asks to be sent. The answer depends on the accepted events alone: on the bytes of
them all and on the time of the first. What was turned away has no part in it, and what was accepted
before the batch was last emptied has none any more. -/
namespace ElasticBatch

namespace Manifest

/-- A new and retained event of which no buffer can be made. -/
def Fails (a : Manifest) (o : Offer) : Prop :=
  a.IsNew o.event ∧ o.retained = true ∧ o.encoding? = none

/-- The bytes reach the limit of the moment, or the first event has waited for the delay of the
settings, on a clock in nanoseconds. -/
def Due (a : Manifest) (config : Config) (m : Batch.Moment) : Prop :=
  m.limit.toNat ≤ a.size ∨
    ∃ first ∈ a.entries.head?,
      first.time + config.delaySeconds.toNat * 1000 * 1000000 ≤ m.now

theorem time_of_mem_record {a : Manifest} {call : Batch.Moment × Batch.Op} {entry : Entry}
    (listed : entry ∈ (a.record call).entries) :
    entry ∈ a.entries ∨ entry.time = call.1.now := by
  obtain ⟨m, op⟩ := call
  cases op with
  | offer o =>
      cases decision : a.accepted? m.now o with
      | none =>
          rw [record_turnedAway decision] at listed
          exact Or.inl listed
      | some accepted =>
          rw [record_accepted decision] at listed
          rcases List.mem_append.mp listed with old | new
          · exact Or.inl old
          · have same := List.mem_singleton.mp new
            unfold accepted? at decision
            split at decision
            · obtain ⟨encoded, -, rfl⟩ := Option.map_eq_some_iff.mp decision
              exact Or.inr (by rw [same])
            · cases decision
  | reset => cases listed
  | close answers => cases listed

/-- Every event came in at the time of some call. -/
theorem time_of_mem_foldl (calls : List (Batch.Moment × Batch.Op)) {a : Manifest} {entry : Entry}
    (listed : entry ∈ (calls.foldl record a).entries) :
    entry ∈ a.entries ∨ ∃ call ∈ calls, entry.time = call.1.now := by
  induction calls generalizing a with
  | nil => exact Or.inl listed
  | cons call rest ih =>
      rcases ih listed with earlier | ⟨later, member, time⟩
      · rcases time_of_mem_record earlier with old | time
        · exact Or.inl old
        · exact Or.inr ⟨call, List.mem_cons_self, time⟩
      · exact Or.inr ⟨later, List.mem_cons_of_mem call member, time⟩

end Manifest

namespace Batch

/-- The clock never runs backwards. -/
def Chronological (calls : List (Moment × Op)) : Prop :=
  (calls.map (·.1.now)).Pairwise (· ≤ ·)

instance (calls : List (Moment × Op)) : Decidable (Chronological calls) :=
  inferInstanceAs (Decidable (List.Pairwise _ _))

theorem Chronological.le_last {calls : List (Moment × Op)} {last : Moment × Op}
    (h : Chronological (calls ++ [last])) : ∀ call ∈ calls ++ [last], call.1.now ≤ last.1.now := by
  intro call member
  rcases List.mem_append.mp member with before | at_last
  · rw [Chronological, List.map_append, List.pairwise_append] at h
    exact h.2.2 _ (List.mem_map_of_mem before) _ List.mem_cons_self
  · exact Nat.le_of_eq (congrArg (·.1.now) (List.mem_singleton.mp at_last))

theorem delayNanoseconds_eq (c : Config) :
    c.delayNanoseconds = c.delaySeconds.toNat * 1000 * 1000000 := by
  rw [Config.delayNanoseconds, Config.delayMilliseconds]

/-- A batch that is due stays due as it grows, under a lower limit and at a later time. -/
theorem due_of_grown {b c : Batch} {low high : Word} {early late : Nat}
    (settings : c.config = b.config) (total : b.total ≤ c.total)
    (first : ∀ time ∈ b.firstAt, time ∈ c.firstAt) (lower : low ≤ high) (later : early ≤ late)
    (due : b.due high early = true) : c.due low late = true := by
  unfold Batch.due at due ⊢
  rw [Bool.or_eq_true, decide_eq_true_iff, Option.any_eq_true] at due ⊢
  rcases due with full | ⟨time, timed, waited⟩
  · exact Or.inl (UInt64.le_trans lower (UInt64.le_trans full total))
  · have waited := of_decide_eq_true waited
    refine Or.inr ⟨time, first time timed, decide_eq_true ?_⟩
    rw [settings]
    omega

variable {b : Batch} {a : Manifest}

theorem Holds.due_iff (h : Holds b a) (m : Moment) (fits : a.size < UInt64.size)
    (past : ∀ entry ∈ a.entries, entry.time ≤ m.now) :
    b.due m.limit m.now = true ↔ a.Due b.config m := by
  have full : m.limit ≤ b.total ↔ m.limit.toNat ≤ a.size := by
    rw [UInt64.le_iff_toNat_le, h.total, UInt64.toNat_ofNat_of_lt' fits]
  have waited (first : Entry) (come : first.time ≤ m.now) :
      decide (b.config.delayNanoseconds ≤ m.now - first.time) = true ↔
        first.time + b.config.delaySeconds.toNat * 1000 * 1000000 ≤ m.now := by
    rw [decide_eq_true_iff, delayNanoseconds_eq, Nat.le_sub_iff_add_le' come]
  unfold due Manifest.Due
  rw [h.firstAt, Bool.or_eq_true, decide_eq_true_iff, full]
  apply or_congr Iff.rfl
  rw [Option.any_eq_true]
  constructor
  · rintro ⟨time, timed, late⟩
    obtain ⟨first, found, rfl⟩ := Option.map_eq_some_iff.mp timed
    exact ⟨first, found, (waited first (past first (List.mem_of_head? found))).mp late⟩
  · rintro ⟨first, found, late⟩
    exact ⟨first.time, Option.map_eq_some_iff.mpr ⟨first, found, rfl⟩,
      (waited first (past first (List.mem_of_head? found))).mpr late⟩

/-- An offer is answered unless the batch is closed or the event fails. -/
theorem Holds.answered_iff (h : Holds b a) (m : Moment) (o : Offer) :
    (∃ due, (b.step m (.offer o)).answer = some (.ok due)) ↔ a.closed = false ∧ ¬ a.Fails o := by
  have reason := judged b o
  have encoding := o.toOption_encodeOffered
  have isNew := h.repeats_eq_false_iff o.event
  rw [answer_offer]
  simp only [Manifest.Fails, ← h.closed, ← isNew, ← encoding]
  generalize b.judge o = verdict at reason ⊢
  cases reason with
  | rejected shut => simp [answer, shut]
  | duplicate running again => simp [answer, running, again]
  | lost running new gone => simp [answer, running, gone]
  | failed running new kept fault => simp [answer, new, kept, fault, Except.toOption]
  | accepted running new kept whole => simp [answer, running, whole, Except.toOption]

theorem answer_eq_due {m : Moment} {o : Offer} {due : Bool}
    (answered : (b.step m (.offer o)).answer = some (.ok due)) :
    due = (b.step m (.offer o)).batch.due m.limit m.now := by
  rw [answer_offer, Option.some.injEq] at answered
  rw [batch_offer]
  generalize b.judge o = verdict at answered ⊢
  cases verdict with
  | rejected => cases answered
  | failed failure => cases answered
  | _ => exact (Except.ok.inj answered).symm

/-- An offer to an open batch is answered unless its event fails to be encoded, and then the answer
is whether the batch is due with that offer's own buffer, if it brought one, counted in. -/
theorem due_exactly (config : Config) (calls : List (Moment × Op)) (m : Moment) (o : Offer)
    (chronological : Chronological (calls ++ [(m, .offer o)]))
    (fits : (Manifest.after (calls ++ [(m, .offer o)])).size < UInt64.size) :
    let before := Manifest.after calls
    let after := Manifest.after (calls ++ [(m, .offer o)])
    let answer := (((ofConfig config).run calls).1.step m (.offer o)).answer
    ((∃ due, answer = some (.ok due)) ↔ before.closed = false ∧ ¬ before.Fails o) ∧
      ∀ due, answer = some (.ok due) → (due = true ↔ after.Due config m) := by
  intro before after answer
  have h : Holds ((ofConfig config).run calls).1 before := holds_after config calls
  refine ⟨h.answered_iff m o, ?_⟩
  intro due answered
  have later : Holds (((ofConfig config).run calls).1.step m (.offer o)).batch after := by
    have step := h.step m (.offer o)
    rwa [← Manifest.after_concat] at step
  have past : ∀ entry ∈ after.entries, entry.time ≤ m.now := by
    intro entry listed
    rcases Manifest.time_of_mem_foldl _ listed with none | ⟨call, member, time⟩
    · cases none
    · rw [time]
      exact chronological.le_last call member
  have settings : (((ofConfig config).run calls).1.step m (.offer o)).batch.config = config :=
    (config_step _ m (.offer o)).trans (config_run _ calls)
  rw [answer_eq_due answered, later.due_iff m fits past, settings]

/-- An event that equals nothing, not even itself. -/
def loneOffer (handle : Nat) (payload : Payload) : Offer :=
  { event := ⟨handle, 0, "lone", fun _ => false⟩, payload := .ok payload }

/-- A batch is acknowledged; then one event fails after it has written a byte, and another comes. -/
def waiting : List (Moment × Op) :=
  [(⟨100, 0⟩, .offer (loneOffer 0 (.binary [1, 2, 3]))),
    (⟨100, 5⟩, .reset),
    (⟨100, 20⟩, .offer (loneOffer 1 (.insertNode (.raw [9] (some (.io "full")))))),
    (⟨100, 30⟩, .offer (loneOffer 2 (.binary [4, 5])))]

/-- Offered again a second after it was accepted, the event is suppressed and the batch is due. -/
theorem due_a_second_later :
    let m : Moment := ⟨100, 1000000030⟩
    let o := loneOffer 2 (.binary [4, 5])
    Chronological (waiting ++ [(m, .offer o)]) ∧
      (Manifest.after (waiting ++ [(m, .offer o)])).size < UInt64.size ∧
      (Manifest.after (waiting ++ [(m, .offer o)])).Due ⟨1, 100⟩ m ∧
      (((ofConfig ⟨1, 100⟩).run waiting).1.step m (.offer o)).answer = some (.ok true) := by
  intro m o
  have chronological : Chronological (waiting ++ [(m, .offer o)]) := by decide
  have fits : (Manifest.after (waiting ++ [(m, .offer o)])).size < UInt64.size := by decide
  have due : (Manifest.after (waiting ++ [(m, .offer o)])).Due ⟨1, 100⟩ m :=
    Or.inr ⟨⟨o.event, ⟨.binary, [4, 5]⟩, 30⟩, rfl, by decide⟩
  have seen : ¬ (Manifest.after waiting).IsNew o.event := by decide
  have exactly := due_exactly ⟨1, 100⟩ waiting m o chronological fits
  obtain ⟨answer, answered⟩ := exactly.1.mpr ⟨rfl, fun fails => seen fails.1⟩
  have positive : answer = true := (exactly.2 answer answered).mpr due
  exact ⟨chronological, fits, due, positive ▸ answered⟩

end Batch
end ElasticBatch
