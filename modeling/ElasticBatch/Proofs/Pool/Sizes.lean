import ElasticBatch.Proofs.Pool.Accounting
import Mathlib.Algebra.GroupWithZero.Nat

/-! Where a block is found after each operation, and how large it is. An operation on one block
leaves all others as they are; only a sweep changes more than one. -/
namespace ElasticBatch

namespace Block

/-- No resize takes a block beyond what it had and what its policy asks for. -/
theorem resized_le (b : Block) (l : Ledger) (direction : Direction) :
    (b.resized l direction).toNat ≤ max b.usage.toNat (b.policy.expand b.usage).toNat := by
  cases held : b.released with
  | true =>
      rw [resized_of_released held]
      exact Nat.le_max_left _ _
  | false =>
      cases direction with
      | shrink =>
          rw [toNat_resized_shrink held]
          omega
      | expand =>
          rw [toNat_resized_expand held]
          omega

end Block

namespace Pool

variable {p : Pool} {r : Roll}

theorem total_eq_sum (blocks : List Block) :
    total blocks = (blocks.map (·.usage.toNat)).sum := by
  induction blocks with
  | nil => rfl
  | cons b rest ih => rw [total_cons, ih, List.map_cons, List.sum_cons]

/-- What is handed out, summed up by the ids of the blocks. -/
theorem Balanced.used_eq_sum (h : p.Balanced r) :
    p.ledger.used.toNat = ((p.blocks.map Block.id).map fun id => (p.usage id).toNat).sum := by
  rw [h.used, total_eq_sum, List.map_map]
  congr 1
  refine List.map_congr_left fun b member => ?_
  exact congrArg UInt64.toNat (usage_of_find? (h.find?_of_mem member)).symm

theorem Balanced.absent (h : p.Balanced r) {id : Nat} (fresh : p.serial ≤ id) :
    id ∉ p.blocks.map Block.id := by
  rw [h.ids]
  intro listed
  obtain ⟨entry, member, rfl⟩ := List.mem_map.mp listed
  have before := h.sound.fresh entry member
  rw [← h.allocated] at before
  omega

theorem Balanced.lt_serial (h : p.Balanced r) {id : Nat} {b : Block}
    (found : p.find? id = some b) : id < p.serial := by
  refine Nat.lt_of_not_le fun fresh => h.absent fresh ?_
  rw [← id_of_find? found]
  exact List.mem_map_of_mem (List.mem_of_find?_eq_some found)

/-! Which blocks there are. -/

theorem ids_allocate (p : Pool) (requested : Word) :
    (p.allocate requested).2.1.blocks.map Block.id = p.blocks.map Block.id ++ [p.serial] := by
  change (p.blocks ++ [_]).map Block.id = _
  rw [List.map_append]
  rfl

theorem ids_install (p : Pool) (id : Nat) (policy : Policy) :
    (p.install id policy).blocks.map Block.id = p.blocks.map Block.id :=
  p.ids_update id fun _ => rfl

theorem ids_sweep (p : Pool) (direction : Direction) :
    (p.sweep direction).1.blocks.map Block.id = p.blocks.map Block.id := by
  have keys := congrArg (List.map Prod.fst) (sweepBlocks_keys direction p.ledger p.blocks)
  rw [List.map_map, List.map_map] at keys
  exact keys

theorem serial_run (p : Pool) (ops : List Op) : p.serial ≤ (p.run ops).1.serial := by
  induction ops generalizing p with
  | nil => exact Nat.le_refl _
  | cons op rest ih =>
      refine Nat.le_trans ?_ (ih (p.step op).1)
      cases op with
      | allocate requested => exact Nat.le_succ _
      | close id => exact Nat.le_of_eq (p.serial_close id).symm
      | drop id => exact Nat.le_of_eq (p.serial_drop id).symm
      | _ => exact Nat.le_refl _

/-! The blocks under each operation. -/

theorem find?_allocate_of_ne {requested : Word} {id : Nat} (apart : id ≠ p.serial) :
    (p.allocate requested).2.1.find? id = p.find? id := by
  have others : List.find? (·.id == id)
      [{ id := p.serial, usage := p.ledger.grant requested : Block }] = none :=
    find?_cons_of_ne Block.id apart.symm
  unfold find? allocate
  rw [List.find?_append, others, Option.or_none]

theorem Balanced.find?_allocate (h : p.Balanced r) (requested : Word) :
    (p.allocate requested).2.1.find? p.serial =
      some { id := p.serial, usage := p.ledger.grant requested } := by
  have none : p.find? p.serial = none := find?_eq_none_iff.mpr (h.absent (Nat.le_refl _))
  unfold find? at none ⊢
  change (p.blocks ++ [_]).find? _ = _
  rw [List.find?_append, none, Option.none_or]
  exact find?_cons_of_eq Block.id rfl

theorem find?_install_of_ne {id other : Nat} {policy : Policy} (apart : other ≠ id) :
    (p.install id policy).find? other = p.find? other :=
  find?_update_of_ne (fun _ => rfl) apart

theorem find?_install_self {id : Nat} {policy : Policy} {b : Block} (found : p.find? id = some b) :
    (p.install id policy).find? id = some { b with policy := policy } :=
  find?_update_self (f := fun b => { b with policy := policy }) (fun _ => rfl) found

theorem Balanced.find?_close_self (h : p.Balanced r) {id : Nat} {b : Block}
    (found : p.find? id = some b) : (p.close id).find? id = some b.shut := by
  rw [h.close_eq id]
  exact find?_update_self (f := Block.shut) (fun _ => rfl) found

/-- Each block is resized under the ledger as the blocks before it left it. -/
theorem find?_sweepBlocks (direction : Direction) (l : Ledger) (blocks : List Block) (id : Nat) :
    ∃ reached : Ledger, (sweepBlocks direction l blocks).2.1.find? (·.id == id) =
      (blocks.find? (·.id == id)).map fun b => { b with usage := b.resized reached direction } := by
  induction blocks generalizing l with
  | nil => exact ⟨l, rfl⟩
  | cons b rest ih =>
      have resized : (sweepBlocks direction l (b :: rest)).2.1 =
          { b with usage := b.resized l direction } ::
            (sweepBlocks direction (l.enter (.between b.usage (b.resized l direction)))
              rest).2.1 := by
        rw [sweepBlocks_cons]
      rw [resized]
      by_cases here : b.id = id
      · refine ⟨l, ?_⟩
        rw [find?_cons_of_eq Block.id here]
        exact find?_cons_of_eq Block.id here
      · obtain ⟨reached, later⟩ := ih (l.enter (.between b.usage (b.resized l direction)))
        refine ⟨reached, ?_⟩
        rw [find?_cons_of_ne Block.id here, ← later]
        exact find?_cons_of_ne Block.id here

theorem find?_sweep (p : Pool) (direction : Direction) (id : Nat) :
    ∃ reached : Ledger, (p.sweep direction).1.find? id =
      (p.find? id).map fun b => { b with usage := b.resized reached direction } :=
  find?_sweepBlocks direction p.ledger p.blocks id

/-- Granted once, and closed or gone since. -/
structure Spent (p : Pool) (id : Nat) : Prop where
  granted : id < p.serial
  released : ∀ b, p.find? id = some b → b.released = true

namespace Spent

variable {p : Pool} {id : Nat}

theorem update (s : p.Spent id) (other : Nat) {f : Block → Block} (same : ∀ b, (f b).id = b.id)
    (kept : ∀ b, b.released = true → (f b).released = true) :
    ∀ b, (p.update other f).find? id = some b → b.released = true := by
  intro after found
  rw [find?_update p other same] at found
  obtain ⟨b, before, rfl⟩ := Option.map_eq_some_iff.mp found
  split
  · exact kept b (s.released b before)
  · exact s.released b before

/-- No relief grows a closed block, and no grant brings back one that is gone. -/
theorem step (s : p.Spent id) (op : Op) : (p.step op).1.Spent id := by
  cases op with
  | allocate requested =>
      refine ⟨Nat.lt_succ_of_lt s.granted, fun b found => s.released b ?_⟩
      rwa [Pool.step, find?_allocate_of_ne (Nat.ne_of_lt s.granted)] at found
  | install other policy => exact ⟨s.granted, s.update other (fun _ => rfl) fun _ shut => shut⟩
  | sweep direction =>
      refine ⟨s.granted, fun after found => ?_⟩
      obtain ⟨reached, swept⟩ := p.find?_sweep direction id
      obtain ⟨b, before, rfl⟩ := Option.map_eq_some_iff.mp (swept.symm.trans found)
      exact s.released b before
  | close other =>
      refine ⟨(p.serial_close other).symm ▸ s.granted, fun after found => ?_⟩
      rcases p.blocks_close other with same | shut
      · exact s.released after ((find?_of_blocks same id).symm.trans found)
      · exact s.update other (f := Block.shut) (fun _ => rfl) (fun _ _ => rfl) after
          ((find?_of_blocks shut id).symm.trans found)
  | drop other =>
      refine ⟨(p.serial_drop other).symm ▸ s.granted, fun b found => ?_⟩
      by_cases here : id = other
      · subst here
        cases (p.find?_drop_self id).symm.trans found
      · exact s.released b ((find?_drop_of_ne here).symm.trans found)

theorem run (s : p.Spent id) (ops : List Op) : (p.run ops).1.Spent id := by
  induction ops generalizing p with
  | nil => exact s
  | cons op rest ih => exact ih (s.step op)

theorem usage (s : p.Spent id) {r : Roll} (balanced : p.Balanced r) : p.usage id = 0 := by
  cases found : p.find? id with
  | none => exact usage_of_absent found
  | some b => exact balanced.usage_of_released found (s.released b found)

end Spent

end Pool
end ElasticBatch
