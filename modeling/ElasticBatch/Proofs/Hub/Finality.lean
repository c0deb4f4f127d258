import ElasticBatch.Proofs.Batch.Flush
import ElasticBatch.Proofs.Hub.Budget

/-! The end of a batch is final. Whatever comes after its close, from its own callers, from others
who share the pool or as pressure, it stays closed and empty, its block stays without bytes, and no
event hears of it again. -/
namespace ElasticBatch

namespace Batch

/-- Closed and empty, with as many events released as there ever will be. -/
structure Ended (b : Batch) (released : Word) : Prop where
  closed : b.closed = true
  retained : b.retained = []
  commitIds : b.commitIds = []
  pending : b.pending = {}
  total : b.total = 0
  released : b.stats.released = released

variable {b : Batch} {a : Manifest} {released : Word}

theorem Holds.ended (h : Holds b a) (shut : b.closed = true) : b.Ended b.stats.released where
  closed := shut
  retained := h.retained_eq_nil shut
  commitIds := by rw [h.commitIds, h.drained (h.closed.symm.trans shut), List.map_nil]
  pending := by
    have none := a.buffers_eq_nil_iff.mpr (h.drained (h.closed.symm.trans shut))
    have binary := (h.pending .binary).trans (none .binary)
    have insertNode := (h.pending .insertNode).trans (none .insertNode)
    have tablet := (h.pending .tablet).trans (none .tablet)
    exact congr (congr (congrArg Buffers.mk binary) insertNode) tablet
  total := by
    rw [h.total, Manifest.size, h.drained (h.closed.symm.trans shut)]
    rfl
  released := rfl

/-- Closed just now or before. -/
theorem Holds.ended_of_close (h : Holds b a) (m : Moment) (answers : Nat → Bool) :
    (b.step m (.close answers)).batch.Ended (b.step m (.close answers)).batch.stats.released := by
  refine (h.step m (.close answers)).ended ?_
  rw [closed_step_eq]
  exact Bool.or_true _

namespace Ended

theorem answer (s : b.Ended released) (m : Moment) (o : Offer) :
    (b.step m (.offer o)).answer = some (.error .closed) := by
  rw [answer_offer, judge_closed o s.closed]
  rfl

/-- Neither an offer nor a reset nor another close finds anything to change. -/
theorem step (s : b.Ended released) (m : Moment) (op : Op) :
    (b.step m op).batch.Ended released := by
  cases op with
  | offer o =>
      rw [batch_offer, judge_closed o s.closed]
      exact s
  | reset =>
      exact { closed := s.closed, retained := rfl, commitIds := rfl, pending := rfl, total := rfl
              released := s.released }
  | close answers =>
      rw [step_close_again m s.closed]
      exact s

theorem callsOf_step (s : b.Ended released) (m : Moment) (op : Op) :
    callsOf (b.step m op).effects = [] := by
  cases op with
  | offer o =>
      rw [callsOf_offer, judge_closed o s.closed]
      rfl
  | reset => rfl
  | close answers =>
      rw [step_close_again m s.closed]
      rfl

theorem run (s : b.Ended released) (calls : List (Moment × Op)) :
    (b.run calls).1.Ended released ∧ callsOf (b.run calls).2 = [] := by
  induction calls generalizing b with
  | nil => exact ⟨s, rfl⟩
  | cons call rest ih =>
      obtain ⟨m, op⟩ := call
      obtain ⟨last, silent⟩ := ih (s.step m op)
      refine ⟨last, ?_⟩
      rw [Batch.run, callsOf_append, s.callsOf_step m op]
      exact silent

end Ended
end Batch

namespace Hub

variable {h : Hub} {p : Pool} {r : Pool.Roll} {block : Nat} {m : Member} {released : Word}

/-- A batch that is over stays so, or goes, and asks nothing of any event. -/
theorem ended_run (known : block < h.governor.next)
    (ended : ∀ m, h.member? block = some m → m.batch.Ended released) (later : List Op) :
    (∀ m, (h.run later).1.member? block = some m → m.batch.Ended released) ∧
      h.asked block later = [] := by
  induction later generalizing h with
  | nil => exact ⟨ended, rfl⟩
  | cons op rest ih =>
      have after : ∀ m, (h.step op).hub.member? block = some m → m.batch.Ended released := by
        intro m there
        cases origin there with
        | kept found took =>
            rw [took.batch]
            exact ((ended _ found).run _).1
        | opened fresh _ _ => exact absurd fresh (Nat.ne_of_lt known)
      have quiet : h.askedBy block op = [] := by
        cases found : h.member? block with
        | none => exact askedBy_of_absent found op
        | some m => exact (askedBy_eq found op).trans ((ended m found).run _).2
      obtain ⟨last, silent⟩ := ih (Nat.lt_of_lt_of_le known (h.next_le_step op)) after
      refine ⟨last, ?_⟩
      rw [asked, quiet]
      exact silent

/-- A call of a batch that is over leaves every budget alone and asks nothing of anyone. -/
theorem act_ended (found : h.member? block = some m) (ended : m.batch.Ended released)
    (op : Batch.Op) :
    (h.act block op).hub.governor = h.governor ∧ callsOf (h.act block op).effects = [] := by
  simp only [act, found, ended.closed, Bool.not_true, Bool.and_false]
  exact ⟨rfl, ended.callsOf_step _ op⟩

theorem holds_of_run (g : Governor) {ops : List Op}
    (found : ((ofGovernor g).run ops).1.member? block = some m) :
    m.batch.Holds (Manifest.after ((ofGovernor g).callsTo block ops)) := by
  rw [(took_run g found).batch]
  exact Batch.holds_after m.batch.config _

theorem ended_of_close {a : Manifest} (found : h.member? block = some m) (holds : m.batch.Holds a)
    (answers : Nat → Bool) :
    ∃ after, (h.step (.act block (.close answers))).hub.member? block = some after ∧
      after.batch.Ended after.batch.stats.released :=
  ⟨_, member?_act_self found _, holds.ended_of_close ⟨h.limit m, h.clock⟩ answers⟩

theorem Held.spent (s : h.Held p r) (found : h.member? block = some m)
    (shut : m.batch.closed = true) : p.Spent block := by
  obtain ⟨listed, rfl⟩ := member?_some found
  obtain ⟨b, owned, backed⟩ := s.backed m listed
  refine ⟨s.granted found, fun c there => ?_⟩
  cases owned.symm.trans there
  exact backed.released.trans shut

/-- A batch in a pool is closed. After any sequence of operations from there its block has no bytes
and nothing was asked of any event on its behalf. Unless it was dropped it is there, closed and
empty, with a limit of nothing and as many events released as at its close; each offer to it is
turned away as closed and asks nothing of the event, and no call of it moves a byte in the pool. -/
theorem closed_for_good (capacity : Word) (ops later : List Op) (block : Nat)
    (answers : Nat → Bool) (m : Member)
    (found : ((ofCapacity capacity).run ops).1.member? block = some m) :
    let shut := (((ofCapacity capacity).run ops).1.step (.act block (.close answers))).hub
    let h := (shut.run later).1
    ∃ after p, shut.member? block = some after ∧ h.governor = .elastic p ∧
      p.usage block = 0 ∧ shut.asked block later = [] ∧
      ((∀ answers, .drop block answers ∉ later) → ∃ n, h.member? block = some n) ∧
      ∀ n, h.member? block = some n →
        n.batch.Ended after.batch.stats.released ∧ n.batch.commitIds = [] ∧ h.limit n = 0 ∧
          (∀ op, (h.step (.act block op)).hub.governor = h.governor) ∧
          ∀ o,
            let outcome := h.step (.act block (.offer o))
            outcome.reply = .failed .closed ∧ callsOf outcome.effects = [] := by
  intro shut h
  obtain ⟨_, before⟩ := (Held.start capacity).run ops
  obtain ⟨_, held⟩ := before.step (.act block (.close answers))
  obtain ⟨_, last⟩ := held.run later
  obtain ⟨after, closed, ended⟩ := ended_of_close found (holds_of_run _ found) answers
  -- to the pool the block is spent, to its callers the batch has ended: each lasts on its own
  have spent := held.spent closed ended.closed
  have gone := (spent.run _).usage last.balanced
  have start : ∀ n, shut.member? block = some n → n.batch.Ended after.batch.stats.released := by
    intro n there
    cases closed.symm.trans there
    exact ended
  obtain ⟨still, silent⟩ := ended_run (held.next_eq ▸ spent.granted) start later
  refine ⟨after, _, closed, last.governor, gone, silent, stays_run closed, fun n there => ?_⟩
  have ended := still n there
  refine ⟨ended, ended.commitIds, ?_, fun op => (act_ended there ended op).1, fun o => ?_⟩
  · rw [last.limit_eq, (member?_some there).2]
    exact gone
  · refine ⟨?_, (act_ended there ended (.offer o)).2⟩
    rw [Hub.step, (act_found there (.offer o)).1, ended.answer]
    rfl

/-- Someone else takes what the batch gave back, pressure comes and goes, and the batch is offered
an event, acknowledged and closed again. -/
def aftermath : List Op :=
  [.sweep .expand, .act 0 (.offer (Batch.loneOffer 2 (.binary [4]))), .allocate 60, .act 0 .reset,
    .sweep .shrink, .act 0 (.close fun _ => true), .sweep .expand]

theorem stays_closed_in_aftermath :
    let h := ((ofCapacity 100).run
      [.openBatch ⟨1, 8⟩, .act 0 (.offer (Batch.loneOffer 1 (.binary [1, 2, 3])))]).1
    let shut := (h.step (.act 0 (.close fun _ => true))).hub
    let last := (shut.run aftermath).1
    let again : Op := .act 0 (.offer (Batch.loneOffer 3 (.binary [5])))
    shut.asked 0 aftermath = [] ∧
      ∃ n, last.member? 0 = some n ∧ n.batch.Ended 1 ∧ last.limit n = 0 ∧
        (last.step again).reply = .failed .closed := by
  intro h shut last again
  obtain ⟨m, found⟩ : ∃ m, h.member? 0 = some m := ⟨_, rfl⟩
  obtain ⟨before, p, there, -, -, silent, stays, after⟩ :=
    closed_for_good 100 _ aftermath 0 (fun _ => true) m found
  obtain ⟨n, here⟩ := stays (by simp [aftermath])
  have one : before.batch.stats.released = 1 := by
    cases there
    rfl
  obtain ⟨ended, -, nothing, -, answers⟩ := after n here
  exact ⟨silent, n, here, one ▸ ended, nothing, (answers _).1⟩

end Hub
end ElasticBatch
