import ElasticBatch.Hub
import ElasticBatch.Proofs.Pool.Sizes
import Mathlib.Data.List.Induction

/-! Sweeps in closed form. Under pressure each open block takes the size that its policy asks for,
whatever the others do. On relief the open blocks share what is free, in allocation order: each gets
what it wants or what the ones before it left. -/
namespace ElasticBatch

namespace Block

/-- What a block would take on relief on top of what it has. -/
def want (b : Block) : Nat :=
  max (b.policy.expand b.usage).toNat b.usage.toNat - b.usage.toNat

theorem resized_shrink {b : Block} (held : b.released = false) (l : Ledger) :
    b.resized l .shrink = min (b.policy.shrink b.usage) b.usage := by
  rw [resized, held]
  rfl

end Block

theorem Hub.step_sweep {h : Hub} {p : Pool} (shared : h.governor = .elastic p)
    (direction : Direction) :
    h.step (.sweep direction) =
      ⟨{ h with governor := .elastic (p.sweep direction).1 },
        .changed (p.sweep direction).2.length, (p.step (.sweep direction)).2⟩ := by
  simp only [step, sweep, shared]
  rfl

namespace Pool

/-- The blocks that are not closed, in allocation order. -/
def opens (p : Pool) : List Block := p.blocks.filter (!·.released)

/-- What the open ones of some blocks would take together. -/
def wants (blocks : List Block) : Nat := ((blocks.filter (!·.released)).map Block.want).sum

theorem wants_of_released {b : Block} (released : b.released = true) (rest : List Block) :
    wants (b :: rest) = wants rest := by
  rw [wants, List.filter_cons_of_neg (by simp [released]), wants]

theorem wants_of_open {b : Block} (held : b.released = false) (rest : List Block) :
    wants (b :: rest) = b.want + wants rest := by
  rw [wants, List.filter_cons_of_pos (by simp [held]), List.map_cons, List.sum_cons, wants]

section
variable (direction : Direction)

theorem sweepBlocks_append (l : Ledger) (first second : List Block) :
    sweepBlocks direction l (first ++ second) =
      let earlier := sweepBlocks direction l first
      let later := sweepBlocks direction earlier.1 second
      (later.1, earlier.2.1 ++ later.2.1, earlier.2.2 ++ later.2.2) := by
  induction first generalizing l with
  | nil => rfl
  | cons b rest ih =>
      rw [List.cons_append, sweepBlocks_cons, sweepBlocks_cons]
      simp only [ih, List.cons_append, List.append_assoc]

theorem sweepBlocks_capacity (l : Ledger) (blocks : List Block) :
    (sweepBlocks direction l blocks).1.capacity = l.capacity := by
  rw [sweepBlocks_ledger]
  exact Ledger.capacity_foldl l _

/-- Once the new sizes are known by id, nothing else about a sweep depends on the order. -/
theorem sweepBlocks_sizes {size : Nat → Word} (l : Ledger) {blocks : List Block}
    (sizes : ∀ b ∈ (sweepBlocks direction l blocks).2.1, size b.id = b.usage) :
    (sweepBlocks direction l blocks).2.1 = blocks.map (fun b => { b with usage := size b.id }) ∧
      (sweepBlocks direction l blocks).2.2 =
        (blocks.filter fun b => size b.id ≠ b.usage).map fun b =>
          ⟨b.id, direction, b.usage, size b.id, b.policy⟩ := by
  induction blocks generalizing l with
  | nil => exact ⟨rfl, rfl⟩
  | cons b rest ih =>
      rw [sweepBlocks_cons] at sizes ⊢
      obtain ⟨here, later⟩ := List.forall_mem_cons.mp sizes
      have new : size b.id = b.resized l direction := here
      obtain ⟨blocks, changes⟩ := ih _ later
      dsimp only
      rw [blocks, changes, Block.change?, List.map_cons, new]
      refine ⟨rfl, ?_⟩
      by_cases same : b.resized l direction = b.usage
      · rw [if_pos same, List.filter_cons_of_neg (by simp [new, same])]
        rfl
      · rw [if_neg same, List.filter_cons_of_pos (by simp [new, same]), List.map_cons, new]
        rfl

end

/-- As long as there is enough, everyone gets what they want; then everything is handed out. -/
theorem used_sweepBlocks {l : Ledger} {blocks : List Block} (others : Nat) (within : l.Within)
    (backed : total blocks + others = l.used.toNat) :
    (sweepBlocks .expand l blocks).1.used.toNat =
      min l.capacity.toNat (l.used.toNat + wants blocks) := by
  induction blocks generalizing l others with
  | nil => exact (Nat.min_eq_right within).symm
  | cons b rest ih =>
      rw [total_cons] at backed
      have fits := b.fits_resized within (by omega) .expand
      have moved := Ledger.toNat_used_between fits
      have later := ih ((b.resized l .expand).toNat + others) (within.enter fits) (by omega)
      rw [Ledger.capacity_enter] at later
      rw [sweepBlocks_cons]
      refine later.trans ?_
      cases held : b.released with
      | true =>
          rw [Block.resized_of_released held] at moved ⊢
          rw [wants_of_released held]
          omega
      | false =>
          have grown := Block.toNat_resized_expand held l
          rw [wants_of_open held, Block.want]
          unfold Ledger.Within at within
          omega

namespace Balanced

variable {p : Pool} {r : Roll}

theorem usage_of_mem (h : p.Balanced r) {b : Block} (member : b ∈ p.blocks) :
    p.usage b.id = b.usage :=
  usage_of_find? (h.find?_of_mem member)

/-- A sweep changes sizes and nothing else, and it tells of exactly the sizes that changed. -/
theorem sweep_eq (h : p.Balanced r) (direction : Direction) :
    let after := (p.sweep direction).1
    after.blocks = p.blocks.map (fun b => { b with usage := after.usage b.id }) ∧
      (p.sweep direction).2 =
        (p.blocks.filter fun b => after.usage b.id ≠ b.usage).map fun b =>
          ⟨b.id, direction, b.usage, after.usage b.id, b.policy⟩ :=
  sweepBlocks_sizes direction p.ledger fun _ member => (h.sweep direction).usage_of_mem member

/-- All that is seen of a sweep are the callbacks of the blocks whose size changed. -/
theorem step_sweep (h : p.Balanced r) (direction : Direction) :
    let after := (p.sweep direction).1
    (p.step (.sweep direction)).2 =
      (p.blocks.filter fun b => after.usage b.id ≠ b.usage).flatMap fun b =>
        b.policy.notify direction b.usage (after.usage b.id) := by
  change (p.sweep direction).2.flatMap Change.effects = _
  rw [(h.sweep_eq direction).2, List.flatMap_map]
  rfl

/-- A block is resized against the books as the blocks before it left them. -/
theorem usage_sweep (h : p.Balanced r) (direction : Direction) {earlier later : List Block}
    {b : Block} (split : p.blocks = earlier ++ b :: later) :
    (p.sweep direction).1.usage b.id =
      b.resized (sweepBlocks direction p.ledger earlier).1 direction := by
  have member : { b with usage := b.resized (sweepBlocks direction p.ledger earlier).1 direction } ∈
      (p.sweep direction).1.blocks := by
    change _ ∈ (sweepBlocks direction p.ledger p.blocks).2.1
    rw [split, sweepBlocks_append]
    dsimp only
    rw [sweepBlocks_cons]
    exact List.mem_append_right _ List.mem_cons_self
  exact (h.sweep direction).usage_of_mem member

theorem usage_sweep_released (h : p.Balanced r) (direction : Direction) {b : Block}
    (member : b ∈ p.blocks) (released : b.released = true) :
    (p.sweep direction).1.usage b.id = b.usage := by
  obtain ⟨earlier, later, split⟩ := List.append_of_mem member
  rw [h.usage_sweep direction split, Block.resized_of_released released]

theorem usage_sweep_shrink (h : p.Balanced r) {b : Block} (member : b ∈ p.opens) :
    (p.sweep .shrink).1.usage b.id = min (b.policy.shrink b.usage) b.usage := by
  obtain ⟨listed, held⟩ := List.mem_filter.mp member
  obtain ⟨earlier, later, split⟩ := List.append_of_mem listed
  rw [h.usage_sweep .shrink split, Block.resized_shrink (by simpa using held)]

/-- What the open blocks before it do not want is there for a block to take. -/
theorem usage_sweep_expand (h : p.Balanced r) {earlier later : List Block} {b : Block}
    (split : p.opens = earlier ++ b :: later) :
    ((p.sweep .expand).1.usage b.id).toNat =
      b.usage.toNat + min b.want (p.ledger.free.toNat - (earlier.map Block.want).sum) := by
  -- closed blocks in between want nothing and get nothing
  obtain ⟨before, rest, whole, rfl, tail⟩ := List.filter_eq_append_iff.mp split
  obtain ⟨shut, after, rfl, none, held, rfl⟩ := List.filter_eq_cons_iff.mp tail
  have found : p.blocks = (before ++ shut) ++ b :: after := by rw [whole, List.append_assoc]
  have books := h.used
  rw [found, total_append] at books
  obtain ⟨-, within, backed⟩ :=
    sweepBlocks_balanced .expand (total (b :: after)) h.within books.symm
  have used := used_sweepBlocks (total (b :: after)) h.within books.symm
  have idle : wants (before ++ shut) = wants before := by
    rw [wants, List.filter_append, List.filter_eq_nil_iff.mpr none, List.append_nil, wants]
  rw [total_cons] at backed
  rw [h.usage_sweep .expand found, Block.toNat_resized_expand (by simpa using held),
    sweepBlocks_capacity, used, idle, Ledger.toNat_free]
  change b.usage.toNat + min b.want _ = b.usage.toNat + min b.want (_ - wants before)
  have most := h.within
  unfold Ledger.Within at most
  omega

/-- The first blocks together get what they want or all there is. -/
theorem sum_gains (h : p.Balanced r) {earlier later : List Block}
    (split : p.opens = earlier ++ later) :
    (earlier.map fun b => ((p.sweep .expand).1.usage b.id).toNat - b.usage.toNat).sum =
      min p.ledger.free.toNat (earlier.map Block.want).sum := by
  induction earlier using List.reverseRecOn generalizing later with
  | nil => exact (Nat.min_zero _).symm
  | append_singleton before b ih =>
      rw [List.append_assoc] at split
      have here := h.usage_sweep_expand split
      have others := ih split
      rw [List.map_append, List.map_append, List.sum_append, List.sum_append, others,
        List.map_singleton, List.map_singleton, List.sum_singleton, List.sum_singleton]
      omega

end Balanced

/-- In every state that a pool can reach, whatever the policies of its blocks: on relief each open
block in allocation order grows by what it wants or by what the ones before it left of the free
bytes, so that as much as they want together is handed out, or all there is. Under pressure each
open block takes the size that its policy asks for, if that is less. Either way nothing but sizes
changes, closed blocks keep theirs, and of exactly the blocks whose size changed, in allocation
order, the callback set for pressure or for relief is called once, with the old size and the new
one; the answer is how many these are. -/
theorem sweeps_in_closed_form (capacity : Word) (ops : List Op) :
    let p := ((ofCapacity capacity).run ops).1
    let grown := (p.sweep .expand).1
    let shrunk := (p.sweep .shrink).1
    (∀ earlier b later, p.opens = earlier ++ b :: later →
      (grown.usage b.id).toNat = b.usage.toNat + min b.want (p.ledger.free.toNat -
        (earlier.map fun e => (grown.usage e.id).toNat - e.usage.toNat).sum)) ∧
    grown.ledger.used.toNat =
      min capacity.toNat (p.ledger.used.toNat + (p.opens.map Block.want).sum) ∧
    (∀ b ∈ p.opens, shrunk.usage b.id = min (b.policy.shrink b.usage) b.usage) ∧
    (p.step (.sweep .shrink)).2 =
      (p.blocks.filter fun b => shrunk.usage b.id ≠ b.usage).flatMap (fun b =>
        b.policy.onShrink.elim [] fun call => call b.usage (shrunk.usage b.id)) ∧
    (p.step (.sweep .expand)).2 =
      (p.blocks.filter fun b => grown.usage b.id ≠ b.usage).flatMap (fun b =>
        b.policy.onExpand.elim [] fun call => call b.usage (grown.usage b.id)) ∧
    ∀ direction,
      let after := (p.sweep direction).1
      let moved := p.blocks.filter fun b => after.usage b.id ≠ b.usage
      after.blocks = p.blocks.map (fun b => { b with usage := after.usage b.id }) ∧
      (∀ b ∈ p.blocks, b.released = true → after.usage b.id = b.usage) ∧
      (p.sweep direction).2.length = moved.length ∧
      ∀ h : Hub, h.governor = .elastic p →
        (h.step (.sweep direction)).hub = { h with governor := .elastic after } ∧
        (h.step (.sweep direction)).reply = .changed moved.length ∧
        (h.step (.sweep direction)).effects = (p.step (.sweep direction)).2 := by
  intro p grown shrunk
  have balanced : p.Balanced (Roll.after ops) := (Balanced.start capacity).run ops
  have fixed : p.ledger.capacity = capacity := (Balanced.start capacity).capacity_run ops
  refine ⟨fun earlier b later split => ?_, ?_, fun b => balanced.usage_sweep_shrink,
    balanced.step_sweep .shrink, balanced.step_sweep .expand, fun direction => ?_⟩
  · rw [balanced.usage_sweep_expand split, balanced.sum_gains split]
    omega
  · rw [← fixed]
    exact used_sweepBlocks 0 balanced.within balanced.used.symm
  · intro after moved
    obtain ⟨blocks, changes⟩ := balanced.sweep_eq direction
    have count : (p.sweep direction).2.length = moved.length := by
      rw [changes, List.length_map]
    refine ⟨blocks, fun b => balanced.usage_sweep_released direction, count, fun h shared => ?_⟩
    rw [Hub.step_sweep shared, count]
    exact ⟨rfl, rfl, rfl⟩

/-- A block that wants a little, a closed one, and one that wants everything. Each of the two open
ones has callbacks of its own. -/
def crowded : List Op :=
  [.allocate 40, .allocate 10, .allocate 20, .close 1,
    .install 0 { Policy.custom (.sub 1) (.add 25) with
      onShrink := some (.tell "down" .shrink), onExpand := some (.tell "up" .expand) },
    .install 2 { Policy.custom (.div 2) (.const Word.largest) with
      onShrink := some (.tell "less" .shrink), onExpand := some (.tell "more" .expand) }]

theorem crowded_shares :
    let p := ((ofCapacity 100).run crowded).1
    let grown := (p.sweep .expand).1
    (grown.usage 0).toNat = 40 + 25 ∧ (grown.usage 2).toNat = 20 + 15 ∧
      grown.ledger.used.toNat = 100 ∧ (p.sweep .shrink).1.usage 2 = 10 ∧
      (p.step (.sweep .shrink)).2 =
        [.notice ⟨"down", .shrink, 40, 39⟩, .notice ⟨"less", .shrink, 20, 10⟩] ∧
      (p.step (.sweep .expand)).2 =
        [.notice ⟨"up", .expand, 40, 65⟩, .notice ⟨"more", .expand, 20, 35⟩] := by
  intro p grown
  obtain ⟨shares, used, shrunk, down, up, -⟩ := sweeps_in_closed_form 100 crowded
  have older := shares [] _ _ rfl
  have newer := shares [_] _ _ rfl
  exact ⟨older.trans (by decide), newer.trans (by decide), used.trans (by decide),
    shrunk _ (List.mem_cons_of_mem _ List.mem_cons_self), down.trans (by decide),
    up.trans (by decide)⟩

end Pool
end ElasticBatch
