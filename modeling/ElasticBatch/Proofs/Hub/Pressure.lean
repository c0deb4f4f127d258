import ElasticBatch.Proofs.Batch.Failure
import ElasticBatch.Proofs.Batch.Flush
import ElasticBatch.Proofs.Hub.Origin

/-! Memory pressure. What a governor grants, and how its grants shrink and grow, has a say in when a
batch asks to be sent and in nothing else: two batches of the same settings that get the same calls
at the same times hold, count and ask of their events the same, whoever governs them. -/
namespace ElasticBatch

namespace Batch

/-- What is left of a call once its limit is forgotten. -/
def unlimited (call : Moment × Op) : Nat × Op := (call.1.now, call.2)

variable {b : Batch} {m n : Moment}

theorem step_of_now (b : Batch) (same : m.now = n.now) (op : Op) :
    (b.step m op).batch = (b.step n op).batch ∧
      (b.step m op).effects = (b.step n op).effects := by
  cases op with
  | offer o =>
      rw [step_offer, step_offer, same]
      exact ⟨rfl, rfl⟩
  | reset => exact ⟨rfl, rfl⟩
  | close answers => exact ⟨rfl, rfl⟩

/-- Runs that differ in their limits alone come to the same. -/
theorem run_of_unlimited (b : Batch) {first second : List (Moment × Op)}
    (same : first.map unlimited = second.map unlimited) : b.run first = b.run second := by
  induction first generalizing b second with
  | nil =>
      rw [List.map_nil, eq_comm, List.map_eq_nil_iff] at same
      rw [same]
  | cons call rest ih =>
      obtain ⟨twin, others, rfl, alike, later⟩ := List.map_eq_cons_iff.mp same.symm
      obtain ⟨m, op⟩ := call
      obtain ⟨n, op'⟩ := twin
      obtain ⟨now, rfl⟩ := Prod.mk.inj alike
      obtain ⟨batch, effects⟩ := b.step_of_now now op'
      simp only [run]
      rw [batch, effects, ih _ later.symm]

/-- The limit decides neither whether an offer fails nor how. -/
theorem failed_iff (b : Batch) (m n : Moment) (o : Offer) (cause : Error) :
    (b.step m (.offer o)).answer = some (.error cause) ↔
      (b.step n (.offer o)).answer = some (.error cause) :=
  (b.answer_error_iff m o cause).trans (b.answer_error_iff n o cause).symm

theorem answer_due_of_le {o : Offer} (now : m.now = n.now) (le : m.limit ≤ n.limit)
    (due : (b.step n (.offer o)).answer = some (.ok true)) :
    (b.step m (.offer o)).answer = some (.ok true) := by
  rw [answer_offer, Option.some.injEq] at due ⊢
  rw [← now] at due
  cases verdict : b.judge o with
  | rejected => simp [verdict, answer] at due
  | failed failure => simp [verdict, answer] at due
  | _ =>
      rw [verdict] at due
      have lower := due_of_grown rfl (UInt64.le_refl _) (fun _ timed => timed) le (Nat.le_refl _)
        (Except.ok.inj due)
      exact congrArg Except.ok lower

end Batch

namespace Hub

theorem ofAnswer_eq_failed_iff {answer : Option (Except Error Bool)} {cause : Error} :
    ofAnswer answer = .failed cause ↔ answer = some (.error cause) := by
  rcases answer with _ | _ | _ <;> simp [ofAnswer]

theorem ofAnswer_eq_due_iff {answer : Option (Except Error Bool)} {now : Bool} :
    ofAnswer answer = .due now ↔ answer = some (.ok now) := by
  rcases answer with _ | _ | _ <;> simp [ofAnswer]

/-- Two batches of the same settings, in any two hubs, got the same calls at the same times, and
their events gave the same answers. Then they are the same in all that they hold and count, and
their events were asked the same. Both turn away the next offer with the same error or neither
does; at one time, and if the limit of one is no higher, it asks to be sent whenever the other
does. The runs may stop anywhere, so that this holds after every call. -/
theorem same_under_pressure (g k : Governor) (ops others : List Op) (block twin : Nat)
    (m n : Member) (found : ((ofGovernor g).run ops).1.member? block = some m)
    (paired : ((ofGovernor k).run others).1.member? twin = some n)
    (settings : m.batch.config = n.batch.config)
    (same : ((ofGovernor g).callsTo block ops).map Batch.unlimited =
      ((ofGovernor k).callsTo twin others).map Batch.unlimited) :
    let h := ((ofGovernor g).run ops).1
    let t := ((ofGovernor k).run others).1
    m.batch = n.batch ∧
      (ofGovernor g).asked block ops = (ofGovernor k).asked twin others ∧
      ∀ o,
        let one := h.step (.act block (.offer o))
        let two := t.step (.act twin (.offer o))
        (∀ cause, one.reply = .failed cause ↔ two.reply = .failed cause) ∧
          (h.clock = t.clock → h.limit m ≤ t.limit n →
            two.reply = .due true → one.reply = .due true) := by
  intro h t
  have took := took_run g found
  have taken := took_run k paired
  -- both come to what one batch alone comes to under these calls, whatever the limits
  have runs := (Batch.ofConfig m.batch.config).run_of_unlimited same
  rw [← settings] at taken
  have batches : m.batch = n.batch := by rw [took.batch, taken.batch, runs]
  refine ⟨batches, ?_, fun o => ?_⟩
  · rw [took.asked, taken.asked, runs]
  · intro one two
    have first : one.reply = ofAnswer (m.batch.step ⟨h.limit m, h.clock⟩ (.offer o)).answer :=
      (act_found found _).1
    have second : two.reply = ofAnswer (m.batch.step ⟨t.limit n, t.clock⟩ (.offer o)).answer :=
      batches ▸ (act_found paired _).1
    rw [first, second]
    refine ⟨fun cause => ?_, fun time le due => ?_⟩
    · rw [ofAnswer_eq_failed_iff, ofAnswer_eq_failed_iff]
      exact m.batch.failed_iff _ _ o cause
    · rw [ofAnswer_eq_due_iff] at due ⊢
      exact Batch.answer_due_of_le time le due

/-- A pool takes half of the budget away before the first offer. -/
def squeezed : List Op :=
  [.openBatch ⟨1, 8⟩, .sweep .shrink, .act 0 (.offer (Batch.loneOffer 1 (.binary [1, 2, 3])))]

/-- A gate grants all at once and leaves it. -/
def roomy : List Op :=
  [.openBatch ⟨1, 8⟩, .act 0 (.offer (Batch.loneOffer 1 (.binary [1, 2, 3])))]

theorem squeezed_asks_too :
    let h := ((ofGovernor (.elastic (.ofCapacity 100))).run squeezed).1
    let t := ((ofGovernor (.capped ⟨100, []⟩)).run roomy).1
    let next : Op := .act 0 (.offer (Batch.loneOffer 2 (.binary [4, 5, 6, 7, 8, 9])))
    ∃ m n, h.member? 0 = some m ∧ t.member? 0 = some n ∧ h.limit m = 4 ∧ t.limit n = 8 ∧
      m.batch = n.batch ∧ (t.step next).reply = .due true ∧ (h.step next).reply = .due true := by
  intro h t next
  obtain ⟨m, found, low, time, config⟩ : ∃ m, h.member? 0 = some m ∧ h.limit m = 4 ∧
      h.clock = 0 ∧ m.batch.config = ⟨1, 8⟩ := ⟨_, rfl, rfl, rfl, rfl⟩
  obtain ⟨n, paired, high, late, settings⟩ : ∃ n, t.member? 0 = some n ∧ t.limit n = 8 ∧
      t.clock = 0 ∧ n.batch.config = ⟨1, 8⟩ := ⟨_, rfl, rfl, rfl, rfl⟩
  have asks : (t.step next).reply = .due true := rfl
  obtain ⟨batches, -, answers⟩ :=
    same_under_pressure _ _ squeezed roomy 0 0 m n found paired (config.trans settings.symm) rfl
  have sooner := (answers (Batch.loneOffer 2 (.binary [4, 5, 6, 7, 8, 9]))).2
  refine ⟨m, n, found, paired, low, high, batches, asks, sooner (time.trans late.symm) ?_ asks⟩
  change h.limit m ≤ t.limit n
  rw [low, high]
  decide

end Hub
end ElasticBatch
