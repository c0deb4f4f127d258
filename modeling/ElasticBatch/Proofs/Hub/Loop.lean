import ElasticBatch.Proofs.Batch.Loop
import ElasticBatch.Proofs.Hub.Alone

/-! The documented loop in a hub. One caller heeds the answers of one batch; everyone else does as
they please. -/
namespace ElasticBatch

theorem Config.Valid.positive {c : Config} (valid : c.Valid) : 0 < c.sizeBytes := by
  have room := UInt64.le_iff_toNat_le.mp valid.2
  exact UInt64.lt_iff_toNat_lt.mpr room

namespace Hub

/-- The batch should be sent. -/
def Reply.asks : Reply → Bool
  | .due now => now
  | .missing | .failed _ | .refused _ | .done | .opened _ | .granted .. | .changed _
  | .steered .. => false

def Op.offersTo (block : Nat) : Op → Bool
  | .act called (.offer _) => called == block
  | _ => false

/-- Whether a reset of the batch is owed after an operation, if it was or was not before. -/
def owes (h : Hub) (block : Nat) (owed : Bool) : Op → Bool
  | .act called (.offer o) =>
    if called = block then (h.act called (.offer o)).reply.asks else owed
  | .act called .reset => if called = block then false else owed
  | _ => owed

/-- Nothing is offered to the batch while a reset of it is owed. -/
def Heeds (h : Hub) (block : Nat) (owed : Bool) : List Op → Prop
  | [] => True
  | op :: rest =>
    (owed = true → op.offersTo block = false) ∧
      (h.step op).hub.Heeds block (h.owes block owed op) rest

instance Heeds.decidable (h : Hub) (block : Nat) (owed : Bool) :
    (ops : List Op) → Decidable (h.Heeds block owed ops)
  | [] => isTrue trivial
  | op :: rest =>
    have := Heeds.decidable (h.step op).hub block (h.owes block owed op) rest
    inferInstanceAs (Decidable ((_ → _) ∧ _))

variable {h : Hub} {block : Nat} {m : Member} {owed : Bool}

/-- What the batch sees of an operation that heeds its answers heeds them, too. -/
structure Alone (h : Hub) (block : Nat) (owed : Bool) (op : Op) (b : Batch) : Prop where
  heeds : b.Heeds owed (h.callTo block op)
  owing : b.owing owed (h.callTo block op) = h.owes block owed op

theorem Alone.of_uncalled {op : Op} {b : Batch} (uncalled : h.callTo block op = [])
    (same : h.owes block owed op = owed) : Alone h block owed op b where
  heeds := by rw [uncalled]; trivial
  owing := by rw [uncalled, same]; rfl

theorem alone_act (found : h.member? block = some m) {op : Batch.Op}
    (allowed : owed = true → (Op.act block op).offersTo block = false) :
    Alone h block owed (.act block op) m.batch where
  heeds := by
    rw [callTo_act found]
    refine ⟨fun still => ?_, trivial⟩
    cases op with
    | offer o => simp [Op.offersTo] at allowed; simp [allowed] at still
    | reset => rfl
    | close answers => rfl
  owing := by
    rw [callTo_act found]
    cases op with
    | offer o =>
        simp only [owes, if_true, (act_found found _).1]
        simp only [Batch.owing, Batch.owes, Batch.asks]
        cases (m.batch.step ⟨h.limit m, h.clock⟩ (.offer o)).answer with
        | none => rfl
        | some answer => cases answer <;> rfl
    | reset => exact (if_pos rfl).symm
    | close answers => rfl

/-- The batch is there and stays there. -/
theorem alone_of_kept (found : h.member? block = some m) {op : Op} {after : Member}
    (there : (h.step op).hub.member? block = some after)
    (allowed : owed = true → op.offersTo block = false) : Alone h block owed op m.batch := by
  cases op with
  | act called op =>
      by_cases mine : called = block
      · subst mine
        exact alone_act found allowed
      · refine .of_uncalled (callTo_of_ne ?_) ?_
        · rintro call ⟨⟩
          exact mine
        · cases op with
          | offer o => exact if_neg mine
          | reset => exact if_neg mine
          | close answers => rfl
  | drop called answers =>
      by_cases mine : called = block
      · subst mine
        rw [Hub.step, member?_drop_self] at there
        cases there
      · refine .of_uncalled (callTo_of_ne ?_) rfl
        rintro call ⟨⟩
        exact mine
  | _ => exact .of_uncalled rfl rfl

theorem heeds_kept (known : block < h.governor.next) (here : h.member? block = some m)
    {ops : List Op} {after : Member} (found : (h.run ops).1.member? block = some after)
    (heeds : h.Heeds block owed ops) : m.batch.Heeds owed (h.callsTo block ops) := by
  induction ops generalizing h m owed with
  | nil => trivial
  | cons op rest ih =>
      have known' := Nat.lt_of_lt_of_le known (h.next_le_step op)
      obtain ⟨middle, there, -⟩ := kept_run known' found
      have alone := alone_of_kept here there heeds.1
      have later := ih known' there found heeds.2
      cases origin there with
      | kept same took =>
          cases here.symm.trans same
          rw [callsTo, Batch.heeds_append, alone.owing, ← took.batch]
          exact ⟨alone.heeds, later⟩
      | opened fresh _ _ => exact absurd fresh (Nat.ne_of_lt known)

/-- Nothing is owed to a batch that is not there yet. -/
theorem owes_of_absent (absent : h.member? block = none) (op : Op) :
    h.owes block false op = false := by
  cases op with
  | act called op =>
      cases op with
      | offer o =>
          simp only [owes]
          split
          · next mine =>
              subst mine
              simp only [Hub.act, absent]
              rfl
          · rfl
      | reset => simp only [owes, ite_self]
      | close answers => rfl
  | _ => rfl

theorem heeds_opened (absent : h.member? block = none) {ops : List Op}
    (found : (h.run ops).1.member? block = some m) (heeds : h.Heeds block false ops) :
    (Batch.ofConfig m.batch.config).Heeds false (h.callsTo block ops) := by
  induction ops generalizing h with
  | nil => trivial
  | cons op rest ih =>
      have later := heeds.2
      rw [owes_of_absent absent] at later
      rw [callsTo, callTo_of_absent absent, List.nil_append]
      cases there : (h.step op).hub.member? block with
      | none => exact ih there found later
      | some middle =>
          cases origin there with
          | kept here _ => cases absent.symm.trans here
          | opened _ counted new =>
              obtain ⟨before, same, took⟩ := kept_run counted found
              cases there.symm.trans same
              have heeded := heeds_kept counted there found later
              rw [took.config]
              rw [new] at heeded ⊢
              exact heeded

/-- A batch whose caller heeds its answers in the hub would find them heeded alone. -/
theorem heeds_alone (capacity : Word) {ops : List Op}
    (found : ((ofCapacity capacity).run ops).1.member? block = some m)
    (heeds : (ofCapacity capacity).Heeds block false ops) :
    (Batch.ofConfig m.batch.config).Heeds false ((ofCapacity capacity).callsTo block ops) :=
  heeds_opened (h := ofCapacity capacity) rfl found heeds

/-- Only batches with valid settings are ever opened. -/
theorem valid_of_run (capacity : Word) {ops : List Op}
    (found : ((ofCapacity capacity).run ops).1.member? block = some m) :
    m.batch.config.Valid := by
  obtain ⟨asked, held⟩ := (Held.start capacity).run ops
  obtain ⟨b, -, backed⟩ := held.backed m (member?_some found).1
  exact backed.valid

/-- What an offer to a batch in a hub comes to. -/
theorem offered (found : h.member? block = some m) (o : Offer) :
    let after := (m.batch.step ⟨h.limit m, h.clock⟩ (.offer o)).batch
    (h.step (.act block (.offer o))).hub.member? block = some ⟨block, after⟩ ∧
      ((h.step (.act block (.offer o))).reply = .due false → after.total < h.limit m) := by
  intro after
  obtain ⟨listed, rfl⟩ := member?_some found
  refine ⟨member?_act_self found _, fun quiet => ?_⟩
  rw [Hub.step, (act_found found _).1] at quiet
  cases answered : (m.batch.step ⟨h.limit m, h.clock⟩ (.offer o)).answer with
  | none =>
      rw [answered] at quiet
      cases quiet
  | some answer =>
      rw [answered] at quiet
      cases answer with
      | error cause => cases quiet
      | ok due =>
          cases quiet
          exact Batch.lt_limit_of_not_due (Batch.answer_eq_due answered).symm

/-- Before each offer of a loop that heeds the answers, the batch holds less than was asked for. -/
theorem total_lt_of_heeds (capacity : Word) {ops : List Op} {o : Offer}
    (found : ((ofCapacity capacity).run ops).1.member? block = some m)
    (heeds : (ofCapacity capacity).Heeds block false (ops ++ [.act block (.offer o)])) :
    m.batch.total < m.batch.config.sizeBytes := by
  have course := course capacity found
  have positive := (valid_of_run capacity found).positive
  have there := (offered found o).1
  have whole : ((ofCapacity capacity).run (ops ++ [.act block (.offer o)])).1 =
      (((ofCapacity capacity).run ops).1.step (.act block (.offer o))).hub := by
    rw [run_append]
    rfl
  rw [← whole] at there
  have alone := heeds_alone capacity there heeds
  rw [Batch.config_step, callsTo_append, Batch.heeds_append] at alone
  obtain ⟨before, last⟩ := alone
  rw [callsTo, callTo_act found] at last
  have paid : (Batch.ofConfig m.batch.config).owing false
      ((ofCapacity capacity).callsTo block ops) = false :=
    Batch.paid_of_allowed last.1
  have empty : (Batch.ofConfig m.batch.config).Within false := fun _ => positive
  have within := empty.run positive course.limits before
  rw [← course.batch] at within
  exact within paid

/-- Under the documented loop a batch holds less than was asked for before each offer, and after it
no more than one byte less and what the offer added. An offer that is answered in the negative
leaves it below the limit in force. Neither what others do to the budget nor what events answer has
a say in it. -/
theorem total_bounded (capacity : Word) (ops : List Op) (block : Nat) (o : Offer) (m : Member)
    (found : ((ofCapacity capacity).run ops).1.member? block = some m)
    (heeds : (ofCapacity capacity).Heeds block false (ops ++ [.act block (.offer o)])) :
    let h := ((ofCapacity capacity).run ops).1
    let outcome := h.step (.act block (.offer o))
    let requested := m.batch.config.sizeBytes
    m.batch.total < requested ∧
      ∃ (after : Batch) (appended : Option Encoded),
        outcome.hub.member? block = some ⟨block, after⟩ ∧
        after.pending = appended.elim m.batch.pending m.batch.pending.push ∧
        after.total.toNat ≤ requested.toNat - 1 + appended.elim 0 (·.bytes.length) ∧
        (outcome.reply = .due false → after.total < h.limit m) := by
  intro h outcome requested
  have before := total_lt_of_heeds capacity found heeds
  have grown := m.batch.total_offer_le ⟨h.limit m, h.clock⟩ o
  obtain ⟨there, quiet⟩ := offered found o
  refine ⟨before, _, (m.batch.judge o).encoded?, there, m.batch.pending_offer _ o, ?_, quiet⟩
  have short := UInt64.lt_iff_toNat_lt.mp before
  exact Nat.le_trans grown (Nat.add_le_add_right (Nat.le_sub_one_of_lt short) _)

/-- A batch under pressure, offered three bytes, then six, and acknowledged. -/
def pressed : List Op :=
  [.openBatch ⟨1, 8⟩, .sweep .shrink, .act 0 (.offer (Batch.loneOffer 1 (.binary [1, 2, 3]))),
    .sweep .expand, .act 0 (.offer (Batch.loneOffer 2 (.binary [1, 2, 3, 4, 5, 6]))),
    .act 0 .reset, .sweep .shrink]

theorem pressed_stays_small :
    let h := ((ofCapacity 100).run pressed).1
    let next : Op := .act 0 (.offer (Batch.loneOffer 3 (.binary [7, 8, 9])))
    (ofCapacity 100).Heeds 0 false (pressed ++ [next]) ∧
      ∃ m after, h.member? 0 = some m ∧ m.batch.total < 8 ∧
        (h.step next).reply = .due false ∧ (h.step next).hub.member? 0 = some ⟨0, after⟩ ∧
        after.total < 4 := by
  intro h next
  have heeds : (ofCapacity 100).Heeds 0 false (pressed ++ [next]) := by decide
  obtain ⟨m, found, size, limit⟩ :
      ∃ m, h.member? 0 = some m ∧ m.batch.config.sizeBytes = 8 ∧ h.limit m = 4 :=
    ⟨_, rfl, rfl, rfl⟩
  have quiet : (h.step next).reply = .due false := rfl
  obtain ⟨before, after, appended, there, -, -, below⟩ :=
    total_bounded 100 pressed 0 _ m found heeds
  exact ⟨heeds, m, after, found, size ▸ before, quiet, there, limit ▸ below quiet⟩

end Hub
end ElasticBatch
