import ElasticBatch.Proofs.Batch.Flush

/-! A batch that asks to be sent keeps asking. Until it is emptied nothing it holds goes away: its
bytes do not become fewer and its first event only grows older, whatever is offered. Who misses an
answer gets it again. The one proviso is that the bytes held can be counted: the count is a machine
word, and one that has wrapped round starts over. -/
namespace ElasticBatch

namespace Batch

/-- Offers and nothing else. -/
def offers (calls : List (Moment × Offer)) : List (Moment × Op) :=
  calls.map fun call => (call.1, .offer call.2)

theorem offers_concat (calls : List (Moment × Offer)) (m : Moment) (o : Offer) :
    offers (calls ++ [(m, o)]) = offers calls ++ [(m, .offer o)] := by
  rw [offers, List.map_append]
  rfl

end Batch

namespace Manifest

theorem size_le_of_growth {a c : Manifest} (grown : a.entries <+: c.entries) : a.size ≤ c.size := by
  obtain ⟨more, whole⟩ := grown
  rw [size, size, ← whole, List.flatMap_append, List.length_append]
  exact Nat.le_add_right _ _

theorem entries_prefix_record (a : Manifest) (m : Batch.Moment) (o : Offer) :
    a.entries <+: (a.record (m, .offer o)).entries :=
  List.prefix_append _ _

/-- Offers take nothing out, and do not close the batch. -/
theorem grown_of_offers (a : Manifest) (calls : List (Batch.Moment × Offer)) :
    a.entries <+: ((Batch.offers calls).foldl record a).entries ∧
      ((Batch.offers calls).foldl record a).closed = a.closed := by
  induction calls generalizing a with
  | nil => exact ⟨List.prefix_refl _, rfl⟩
  | cons call rest ih =>
      obtain ⟨m, o⟩ := call
      obtain ⟨later, closed⟩ := ih (a.record (m, .offer o))
      exact ⟨(a.entries_prefix_record m o).trans later, closed⟩

end Manifest

namespace Batch

variable {b c : Batch} {a d : Manifest} {m n : Moment}

/-- More events make no batch less due, as long as their bytes can be counted. -/
theorem Holds.due_of_growth (h : Holds b a) (k : Holds c d) (grown : a.entries <+: d.entries)
    (fits : d.size < UInt64.size) (settings : c.config = b.config) (lower : n.limit ≤ m.limit)
    (later : m.now ≤ n.now) (due : b.due m.limit m.now = true) : c.due n.limit n.now = true := by
  have size := Manifest.size_le_of_growth grown
  refine due_of_grown settings ?_ ?_ lower later due
  · rw [h.total, k.total, UInt64.le_iff_toNat_le, UInt64.toNat_ofNat_of_lt' fits,
      UInt64.toNat_ofNat_of_lt' (Nat.lt_of_le_of_lt size fits)]
    exact size
  · intro time timed
    obtain ⟨more, whole⟩ := grown
    rw [h.firstAt] at timed
    obtain ⟨first, found, rfl⟩ := Option.map_eq_some_iff.mp timed
    rw [k.firstAt, ← whole, List.head?_append, found]
    rfl

/-- An offer was answered that the batch should be sent. From then on, as long as nothing but offers
comes, the clock does not run backwards and the bytes held fit a machine word, every offer under a
limit no higher gets that answer again, unless its event fails to be encoded. -/
theorem asks_until_emptied (config : Config) (calls : List (Moment × Op)) (m : Moment) (o : Offer)
    (asked : (((ofConfig config).run calls).1.step m (.offer o)).answer = some (.ok true))
    (later : List (Moment × Offer)) (n : Moment) (p : Offer)
    (chronological : Chronological (offers ((m, o) :: later ++ [(n, p)])))
    (fits : (Manifest.after (calls ++ offers ((m, o) :: later ++ [(n, p)]))).size < UInt64.size)
    (lower : n.limit ≤ m.limit) :
    let before := calls ++ offers ((m, o) :: later)
    let answer := (((ofConfig config).run before).1.step n (.offer p)).answer
    (answer = some (.ok true) ↔ ¬ (Manifest.after before).Fails p) ∧
      ∀ due, answer = some (.ok due) → due = true := by
  intro before answer
  have first : Holds ((ofConfig config).run calls).1 (Manifest.after calls) :=
    holds_after config calls
  have last : Holds ((ofConfig config).run before).1 (Manifest.after before) :=
    holds_after config before
  -- what was there when the batch first asked is still there at the last offer
  have resumed : Manifest.after before =
      (offers later).foldl Manifest.record ((Manifest.after calls).record (m, .offer o)) := by
    rw [Manifest.after, List.foldl_append]
    rfl
  obtain ⟨kept, closed⟩ :=
    Manifest.grown_of_offers ((Manifest.after calls).record (m, .offer o)) later
  rw [← resumed] at kept closed
  have grown := kept.trans ((Manifest.after before).entries_prefix_record n p)
  rw [offers_concat, ← List.append_assoc, Manifest.after_concat] at fits
  rw [offers_concat] at chronological
  have time := chronological.le_last (m, .offer o) List.mem_cons_self
  have settings : (((ofConfig config).run before).1.step n (.offer p)).batch.config =
      (((ofConfig config).run calls).1.step m (.offer o)).batch.config := by
    rw [config_step, config_step, config_run, config_run]
  have still := (first.step m (.offer o)).due_of_growth (last.step n (.offer p)) grown fits settings
    lower time (answer_eq_due asked).symm
  have told (due : Bool) (answered : answer = some (.ok due)) : due = true :=
    (answer_eq_due answered).trans still
  have answered := last.answered_iff n p
  have running := ((first.answered_iff m o).mp ⟨true, asked⟩).1
  rw [closed.trans running, eq_self, true_and] at answered
  refine ⟨⟨fun positive => answered.mp ⟨true, positive⟩, fun whole => ?_⟩, told⟩
  obtain ⟨due, replied⟩ := answered.mpr whole
  exact told due replied ▸ replied

/-- After the signal the limit rises, and with it the answer is no; one event fails and one is
lost. -/
def unheeded : List (Moment × Offer) :=
  [(⟨100, 2⟩, loneOffer 0 (.binary [1, 2, 3])),
    (⟨100, 3⟩, loneOffer 1 (.insertNode (.raw [9] (some (.io "full"))))),
    (⟨0, 4⟩, { loneOffer 2 (.binary [4]) with retained := false })]

/-- The limit comes down again, and a repetition of the first event is answered as it was before. -/
theorem asks_when_pressed_again :
    let b := ofConfig ⟨1, 100⟩
    let m : Moment := ⟨3, 1⟩
    let o := loneOffer 0 (.binary [1, 2, 3])
    let before := [(⟨100, 0⟩, .reset)] ++ offers ((m, o) :: unheeded)
    ((b.run [(⟨100, 0⟩, .reset)]).1.step m (.offer o)).answer = some (.ok true) ∧
      Chronological (offers ((m, o) :: unheeded ++ [(⟨2, 4⟩, o)])) ∧
      (Manifest.after ([(⟨100, 0⟩, .reset)] ++ offers ((m, o) :: unheeded ++ [(⟨2, 4⟩, o)]))).size <
        UInt64.size ∧
      ((b.run (before.take 2)).1.step ⟨100, 2⟩ (.offer o)).answer = some (.ok false) ∧
      ((b.run before).1.step ⟨2, 4⟩ (.offer o)).answer = some (.ok true) := by
  intro b m o before
  have asked : ((b.run [(⟨100, 0⟩, .reset)]).1.step m (.offer o)).answer = some (.ok true) := rfl
  have chronological : Chronological (offers ((m, o) :: unheeded ++ [(⟨2, 4⟩, o)])) := by decide
  have fits : (Manifest.after
      ([(⟨100, 0⟩, .reset)] ++ offers ((m, o) :: unheeded ++ [(⟨2, 4⟩, o)]))).size <
        UInt64.size := by decide
  have seen : ¬ (Manifest.after before).IsNew o.event := by decide
  have again := asks_until_emptied ⟨1, 100⟩ [(⟨100, 0⟩, .reset)] m o asked unheeded ⟨2, 4⟩ o
    chronological fits (by decide)
  exact ⟨asked, chronological, fits, rfl, again.1.mpr fun fails => seen fails.1⟩

/-- An event of any size, then another so that the first is new again. -/
def inTurns (page : Bytes) : List (Moment × Offer) :=
  [(⟨1, 0⟩, loneOffer 0 (.binary page)), (⟨1, 0⟩, loneOffer 1 (.binary [7, 7]))]

section Wrapping

-- The page stays a variable: its length is all that counts, and a long one is never computed.
variable (page : Bytes)

theorem answer_first :
    ((ofConfig ⟨1, 1⟩).step ⟨1, 0⟩ (.offer (loneOffer 0 (.binary page)))).answer =
      some (.ok (decide (1 ≤ UInt64.ofNat page.length))) := by
  rw [answer_offer]
  change some (Except.ok (decide (1 ≤ 0 + UInt64.ofNat page.length) || false)) = _
  rw [UInt64.zero_add, Bool.or_false]

theorem answer_in_turns :
    (((ofConfig ⟨1, 1⟩).run (offers (inTurns page))).1.step ⟨1, 0⟩
        (.offer (loneOffer 0 (.binary page)))).answer =
      some (.ok (decide (1 ≤ UInt64.ofNat (page.length + 2 + page.length)))) := by
  change some (Except.ok (decide (1 ≤ 0 + UInt64.ofNat page.length + UInt64.ofNat 2 +
    UInt64.ofNat page.length) || false)) = _
  rw [UInt64.zero_add, Bool.or_false, UInt64.ofNat_add, UInt64.ofNat_add]

end Wrapping

/-- Without the proviso the signal can be lost. The buffers that come in reach the limit of one byte
with the first; with the last they make up one word's range to the byte, the count is back at zero,
and the answer is no. -/
theorem signal_lost_past_word :
    let page : Bytes := List.replicate (UInt64.size / 2 - 1) 0
    let b := ofConfig ⟨1, 1⟩
    let m : Moment := ⟨1, 0⟩
    let o := loneOffer 0 (.binary page)
    (b.step m (.offer o)).answer = some (.ok true) ∧
      Chronological (offers (inTurns page ++ [(m, o)])) ∧
      ((b.run (offers (inTurns page))).1.step m (.offer o)).answer = some (.ok false) := by
  intro page b m o
  have half : page.length = UInt64.size / 2 - 1 := List.length_replicate
  have asked : decide (1 ≤ UInt64.ofNat page.length) = true := by rw [half]; decide
  have wrapped : decide (1 ≤ UInt64.ofNat (page.length + 2 + page.length)) = false := by
    rw [half]
    decide
  refine ⟨?_, by decide, ?_⟩
  · rw [answer_first, asked]
  · rw [answer_in_turns, wrapped]

end Batch
end ElasticBatch
