import ElasticBatch.Proofs.Pool.Sweep
import Mathlib.Algebra.Order.Group.Nat
import Mathlib.Algebra.Order.BigOperators.Group.List

/-! Budgets that halve and double. Pressure takes them down to nothing in as many rounds as a size
has digits; relief brings them back up to their caps in as many, if there is room for all caps. -/
namespace ElasticBatch

namespace Block

/-- The block halves under pressure and doubles on relief, and it is not beyond its cap. Who hears
of it is left open. -/
structure Elastic (b : Block) (cap : Word) : Prop where
  shrink : b.policy.shrink = (Policy.halveAndDouble cap).shrink
  expand : b.policy.expand = (Policy.halveAndDouble cap).expand
  bounded : b.usage ≤ cap

namespace Elastic

variable {b : Block} {cap : Word}

theorem toNat_shrink (h : b.Elastic cap) :
    (min (b.policy.shrink b.usage) b.usage).toNat = b.usage.toNat / 2 := by
  rw [Word.toNat_min, h.shrink, Policy.toNat_halve]
  omega

/-- An elastic block wants to double, and no more than its cap. -/
theorem usage_add_want (h : b.Elastic cap) :
    b.usage.toNat + b.want = min (max b.usage.toNat 1 * 2) cap.toNat := by
  have bounded := UInt64.le_iff_toNat_le.mp h.bounded
  rw [want, h.expand, Policy.toNat_double]
  omega

theorem want_eq_zero_iff (h : b.Elastic cap) : b.want = 0 ↔ b.usage = cap := by
  have bounded := UInt64.le_iff_toNat_le.mp h.bounded
  have grown := h.usage_add_want
  rw [← UInt64.toNat_inj]
  omega

theorem resized (h : b.Elastic cap) (l : Ledger) (direction : Direction) :
    { b with usage := b.resized l direction }.Elastic cap where
  shrink := h.shrink
  expand := h.expand
  bounded := by
    have before := UInt64.le_iff_toNat_le.mp h.bounded
    have grown := b.resized_le l direction
    rw [h.expand, Policy.toNat_double] at grown
    apply UInt64.le_iff_toNat_le.mpr
    change (b.resized l direction).toNat ≤ cap.toNat
    omega

end Elastic
end Block

/-- To double under a cap, and again and again, is to multiply once under the cap. -/
theorem min_double (size cap n : Nat) :
    min (max (min (max size 1 * 2) cap) 1 * 2 ^ (n + 1)) cap =
      min (max size 1 * 2 ^ (n + 2)) cap := by
  have positive : 0 < 2 ^ (n + 1) := Nat.two_pow_pos _
  have twice : max size 1 * 2 ^ (n + 2) = max size 1 * 2 * 2 ^ (n + 1) := by
    rw [Nat.pow_succ', Nat.mul_assoc]
  rw [twice]
  rcases Nat.le_total (max size 1 * 2) cap with below | above
  · rw [Nat.min_eq_left below, Nat.max_eq_left (by omega)]
  · -- both sides are at the cap, as one factor is there already
    have other : cap ≤ max size 1 * 2 * 2 ^ (n + 1) :=
      Nat.le_trans above (Nat.le_mul_of_pos_right _ positive)
    have one : cap ≤ max cap 1 * 2 ^ (n + 1) :=
      Nat.le_trans (Nat.le_max_left _ _) (Nat.le_mul_of_pos_right _ positive)
    rw [Nat.min_eq_right above, Nat.min_eq_right one, Nat.min_eq_right other]

namespace Pool

/-- Every open block is elastic, each under its own cap. -/
def Elastic (p : Pool) (cap : Nat → Word) : Prop := ∀ b ∈ p.opens, b.Elastic (cap b.id)

/-- The caps of all open blocks together. -/
def caps (p : Pool) (cap : Nat → Word) : Nat := (p.opens.map fun b => (cap b.id).toNat).sum

/-- The pool after so many sweeps in a row. -/
def swept (p : Pool) (direction : Direction) (rounds : Nat) : Pool :=
  (p.run (List.replicate rounds (.sweep direction))).1

theorem swept_succ (p : Pool) (direction : Direction) (rounds : Nat) :
    p.swept direction (rounds + 1) = (p.sweep direction).1.swept direction rounds := rfl

namespace Balanced

variable {p : Pool} {r : Roll} {cap : Nat → Word}

theorem opens_sweep (h : p.Balanced r) (direction : Direction) :
    (p.sweep direction).1.opens =
      p.opens.map fun b => { b with usage := (p.sweep direction).1.usage b.id } := by
  rw [opens, (h.sweep_eq direction).1, List.filter_map]
  rfl

theorem mem_opens_sweep (h : p.Balanced r) (direction : Direction) {b : Block}
    (member : b ∈ p.opens) :
    { b with usage := (p.sweep direction).1.usage b.id } ∈ (p.sweep direction).1.opens := by
  rw [h.opens_sweep direction]
  exact List.mem_map_of_mem member

theorem elastic_sweep (h : p.Balanced r) (elastic : p.Elastic cap) (direction : Direction) :
    (p.sweep direction).1.Elastic cap := by
  rw [Elastic, h.opens_sweep direction]
  refine List.forall_mem_map.mpr fun b member => ?_
  obtain ⟨earlier, later, split⟩ := List.append_of_mem (List.mem_filter.mp member).1
  rw [h.usage_sweep direction split]
  exact (elastic b member).resized _ direction

theorem caps_sweep (h : p.Balanced r) (cap : Nat → Word) (direction : Direction) :
    (p.sweep direction).1.caps cap = p.caps cap := by
  rw [caps, h.opens_sweep direction, List.map_map]
  rfl

theorem used_eq_opens (h : p.Balanced r) :
    p.ledger.used.toNat = (p.opens.map (·.usage.toNat)).sum := by
  rw [h.used, ← total_open p.blocks h.empty, total_eq_sum]
  rfl

/-- Under room for all caps there is room for all that is wanted. -/
theorem wanted_le_free (h : p.Balanced r) (elastic : p.Elastic cap)
    (room : p.caps cap ≤ p.ledger.capacity.toNat) :
    (p.opens.map Block.want).sum ≤ p.ledger.free.toNat := by
  have grown : (p.opens.map fun b => b.usage.toNat + b.want).sum ≤ p.caps cap := by
    refine List.sum_le_sum fun b member => ?_
    rw [(elastic b member).usage_add_want]
    exact Nat.min_le_right _ _
  rw [List.sum_map_add, ← h.used_eq_opens] at grown
  rw [Ledger.toNat_free]
  omega

/-- Under room for all caps everyone gets what they want. -/
theorem usage_sweep_roomy (h : p.Balanced r) (elastic : p.Elastic cap)
    (room : p.caps cap ≤ p.ledger.capacity.toNat) {b : Block} (member : b ∈ p.opens) :
    ((p.sweep .expand).1.usage b.id).toNat =
      min (max b.usage.toNat 1 * 2) (cap b.id).toNat := by
  have enough := h.wanted_le_free elastic room
  obtain ⟨earlier, later, split⟩ := List.append_of_mem member
  rw [h.usage_sweep_expand split, ← (elastic b member).usage_add_want]
  rw [split, List.map_append, List.sum_append, List.map_cons, List.sum_cons] at enough
  omega

/-! Rounds. -/

theorem usage_shrinks (h : p.Balanced r) (elastic : p.Elastic cap) (rounds : Nat) {b : Block}
    (member : b ∈ p.opens) :
    ((p.swept .shrink rounds).usage b.id).toNat = b.usage.toNat / 2 ^ rounds := by
  induction rounds generalizing p r b with
  | zero =>
      rw [Nat.pow_zero, Nat.div_one]
      exact congrArg UInt64.toNat (h.usage_of_mem (List.mem_filter.mp member).1)
  | succ rounds ih =>
      have later := ih (h.sweep .shrink) (h.elastic_sweep elastic .shrink)
        (h.mem_opens_sweep .shrink member)
      rw [swept_succ, Nat.pow_succ', ← Nat.div_div_eq_div_mul, ← (elastic b member).toNat_shrink,
        ← h.usage_sweep_shrink member]
      exact later

theorem usage_expands (h : p.Balanced r) (elastic : p.Elastic cap)
    (room : p.caps cap ≤ p.ledger.capacity.toNat) (rounds : Nat) {b : Block}
    (member : b ∈ p.opens) :
    ((p.swept .expand (rounds + 1)).usage b.id).toNat =
      min (max b.usage.toNat 1 * 2 ^ (rounds + 1)) (cap b.id).toNat := by
  induction rounds generalizing p r b with
  | zero => exact h.usage_sweep_roomy elastic room member
  | succ rounds ih =>
      have books : (p.sweep .expand).1.ledger.capacity = p.ledger.capacity :=
        sweepBlocks_capacity .expand p.ledger p.blocks
      have later := ih (h.sweep .expand) (h.elastic_sweep elastic .expand)
        (by change (p.sweep .expand).1.caps cap ≤ (p.sweep .expand).1.ledger.capacity.toNat
            rw [h.caps_sweep, books]
            exact room)
        (h.mem_opens_sweep .expand member)
      rw [swept_succ]
      refine later.trans ?_
      change min (max ((p.sweep .expand).1.usage b.id).toNat 1 * _) _ = _
      rw [h.usage_sweep_roomy elastic room member]
      exact min_double _ _ _

/-- Relief changes nothing only if nobody wants anything or nothing is left. -/
theorem unchanged_iff (h : p.Balanced r) :
    (p.sweep .expand).2.length = 0 ↔ (∀ b ∈ p.opens, b.want = 0) ∨ p.ledger.free = 0 := by
  obtain ⟨blocks, changes⟩ := h.sweep_eq .expand
  have still : (p.sweep .expand).2.length = 0 ↔
      ∀ b ∈ p.blocks, (p.sweep .expand).1.usage b.id = b.usage := by
    rw [changes, List.length_map, List.length_eq_zero_iff, List.filter_eq_nil_iff]
    simp
  rw [still]
  constructor
  · intro same
    have kept : (p.sweep .expand).1.blocks = p.blocks := by
      rw [blocks]
      conv_rhs => rw [← List.map_id p.blocks]
      refine List.map_congr_left fun b member => ?_
      rw [same b member]
      rfl
    -- the same sizes, so the same books: then what was wanted was nothing, or there was nothing
    have after : (p.sweep .expand).1.ledger.used.toNat = p.ledger.used.toNat := by
      rw [h.used, ← kept]
      exact (h.sweep .expand).used
    have used : (p.sweep .expand).1.ledger.used.toNat = _ :=
      used_sweepBlocks 0 h.within h.used.symm
    rw [after] at used
    by_cases nothing : p.ledger.free = 0
    · exact Or.inr nothing
    · refine Or.inl fun b member => ?_
      obtain ⟨earlier, later, split⟩ := List.append_of_mem member
      have wanted : wants p.blocks = (p.opens.map Block.want).sum := rfl
      rw [← UInt64.toNat_inj, Ledger.toNat_free, UInt64.toNat_zero] at nothing
      rw [wanted, split, List.map_append, List.sum_append, List.map_cons, List.sum_cons] at used
      omega
  · intro settled b member
    cases held : b.released with
    | true => exact h.usage_sweep_released .expand member held
    | false =>
        have isOpen : b ∈ p.opens := List.mem_filter.mpr ⟨member, by simp [held]⟩
        obtain ⟨earlier, later, split⟩ := List.append_of_mem isOpen
        have grown := h.usage_sweep_expand split
        apply UInt64.toNat_inj.mp
        rcases settled with content | nothing
        · have none := content b isOpen
          omega
        · rw [nothing, UInt64.toNat_zero] at grown
          omega

end Balanced

/-- Every open block of a pool halves and doubles under a cap of its own and is not beyond it. Then
rounds of pressure halve each block, to nothing in 64 rounds. If there is room for all caps, rounds
of relief double each block up to its cap, which every block has reached in 64 rounds from wherever
it was. With or without room for all caps, relief changes nothing exactly if every block is at its
cap or nothing is free. -/
theorem recovers (capacity : Word) (ops : List Op) (cap : Nat → Word)
    (elastic : ((ofCapacity capacity).run ops).1.Elastic cap) :
    let p := ((ofCapacity capacity).run ops).1
    (∀ rounds, ∀ b ∈ p.opens,
      ((p.swept .shrink rounds).usage b.id).toNat = b.usage.toNat / 2 ^ rounds) ∧
    (∀ b ∈ p.opens, (p.swept .shrink 64).usage b.id = 0) ∧
    (p.caps cap ≤ capacity.toNat →
      (∀ rounds, 1 ≤ rounds → ∀ b ∈ p.opens, ((p.swept .expand rounds).usage b.id).toNat =
        min (max b.usage.toNat 1 * 2 ^ rounds) (cap b.id).toNat) ∧
      ∀ b ∈ p.opens, (p.swept .expand 64).usage b.id = cap b.id) ∧
    ((p.sweep .expand).2.length = 0 ↔
      (∀ b ∈ p.opens, b.usage = cap b.id) ∨ p.ledger.free = 0) := by
  intro p
  have balanced : p.Balanced (Roll.after ops) := (Balanced.start capacity).run ops
  have fixed : p.ledger.capacity = capacity := (Balanced.start capacity).capacity_run ops
  refine ⟨fun rounds b => balanced.usage_shrinks elastic rounds, fun b member => ?_, ?_, ?_⟩
  · apply UInt64.toNat_inj.mp
    rw [balanced.usage_shrinks elastic 64 member]
    exact Nat.div_eq_of_lt b.usage.toNat_lt_size
  · intro room
    rw [← fixed] at room
    have expands := balanced.usage_expands elastic room
    constructor
    · intro rounds positive b member
      obtain ⟨before, rfl⟩ := Nat.exists_eq_add_of_le' positive
      exact expands before member
    · intro b member
      have bound := (cap b.id).toNat_lt_size
      apply UInt64.toNat_inj.mp
      rw [expands 63 member]
      change min (_ * UInt64.size) _ = _
      have one := Nat.le_max_right b.usage.toNat 1
      have most := Nat.mul_le_mul_right UInt64.size one
      omega
  · rw [balanced.unchanged_iff]
    refine or_congr_left (forall₂_congr fun b member => ?_)
    exact (elastic b member).want_eq_zero_iff

/-- One block was squeezed three times and the other once; neither is at its cap. -/
def squeezed : List Op :=
  [.allocate 40, .install 0 (.halveAndDouble 40), .sweep .shrink, .sweep .shrink, .allocate 7,
    .install 1 (Policy.halveAndDouble 9).journaled, .sweep .shrink]

/-- The cap of each. -/
def squeezedCap (id : Nat) : Word := if id = 0 then 40 else 9

theorem squeezed_recover :
    let p := ((ofCapacity 50).run squeezed).1
    (p.swept .expand 2).usage 0 = 20 ∧ (p.swept .expand 64).usage 0 = 40 ∧
      (p.swept .expand 64).usage 1 = 9 ∧ (p.swept .shrink 64).usage 0 = 0 := by
  intro p
  let older : Block := ⟨0, 5, false, .halveAndDouble 40⟩
  let newer : Block := ⟨1, 3, false, (Policy.halveAndDouble 9).journaled⟩
  have first : older ∈ p.opens := List.mem_cons_self
  have second : newer ∈ p.opens := List.mem_cons_of_mem _ List.mem_cons_self
  have elastic : p.Elastic squeezedCap :=
    List.forall_mem_cons.mpr ⟨⟨rfl, rfl, by decide⟩,
      List.forall_mem_singleton.mpr ⟨rfl, rfl, by decide⟩⟩
  obtain ⟨-, nothing, back, -⟩ := recovers 50 squeezed squeezedCap elastic
  obtain ⟨rounds, caps⟩ := back (by decide)
  have twice := rounds 2 (by decide) older first
  exact ⟨UInt64.toNat_inj.mp (twice.trans (by decide)), caps older first, caps newer second,
    nothing older first⟩

end Pool
end ElasticBatch
