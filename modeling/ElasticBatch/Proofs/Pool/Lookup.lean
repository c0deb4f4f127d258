import ElasticBatch.Pool.Run

/-! Finding blocks by their ids. Whatever is done to one block leaves all others as they are. -/
namespace ElasticBatch

section
variable {α : Type} (key : α → Nat) {id : Nat} {x : α} {rest : List α}

theorem find?_cons_of_eq (here : key x = id) : (x :: rest).find? (key · == id) = some x :=
  List.find?_cons_of_pos (beq_iff_eq.mpr here)

theorem find?_cons_of_ne (other : key x ≠ id) :
    (x :: rest).find? (key · == id) = rest.find? (key · == id) :=
  List.find?_cons_of_neg fun same => other (eq_of_beq same)

/-- Where no key occurs twice, everything is found under its key. -/
theorem find?_of_mem {xs : List α} (distinct : (xs.map key).Nodup) (member : x ∈ xs) :
    xs.find? (key · == key x) = some x := by
  induction xs with
  | nil => cases member
  | cons head rest ih =>
      obtain ⟨apart, distinct⟩ := List.nodup_cons.mp distinct
      cases member with
      | head => exact find?_cons_of_eq key rfl
      | tail _ later =>
          have other : key head ≠ key x := fun same => apart (same ▸ List.mem_map_of_mem later)
          rw [find?_cons_of_ne key other, ih distinct later]

/-- Where no key occurs twice, nothing else has the same key. -/
theorem filter_of_mem {xs : List α} (distinct : (xs.map key).Nodup) (member : x ∈ xs) :
    xs.filter (key · == key x) = [x] := by
  induction xs with
  | nil => cases member
  | cons head rest ih =>
      obtain ⟨apart, distinct⟩ := List.nodup_cons.mp distinct
      cases member with
      | head =>
          rw [List.filter_cons, if_pos (beq_self_eq_true _), List.filter_eq_nil_iff.mpr]
          intro other later same
          exact apart (eq_of_beq same ▸ List.mem_map_of_mem later)
      | tail _ later =>
          have other : key head ≠ key x := fun same => apart (same ▸ List.mem_map_of_mem later)
          rw [List.filter_cons, if_neg fun same => other (eq_of_beq same), ih distinct later]

end

namespace Pool

variable {p : Pool}

theorem usage_eq (p : Pool) (id : Nat) : p.usage id = ((p.find? id).map Block.usage).getD 0 := rfl

theorem usage_of_find? {id : Nat} {b : Block} (found : p.find? id = some b) :
    p.usage id = b.usage := by
  rw [usage_eq, found]
  rfl

theorem usage_of_absent {id : Nat} (absent : p.find? id = none) : p.usage id = 0 := by
  rw [usage_eq, absent]
  rfl

theorem usage_congr {q : Pool} {id : Nat} (same : q.find? id = p.find? id) :
    q.usage id = p.usage id := by
  rw [usage_eq, same, usage_eq]

theorem find?_of_blocks {q : Pool} (same : q.blocks = p.blocks) (id : Nat) :
    q.find? id = p.find? id := by
  rw [find?, same, find?]

theorem id_of_find? {id : Nat} {b : Block} (found : p.find? id = some b) : b.id = id := by
  have same := List.find?_some found
  exact eq_of_beq same

theorem find?_eq_none_iff {id : Nat} : p.find? id = none ↔ id ∉ p.blocks.map Block.id := by
  rw [find?, List.find?_eq_none, List.mem_map]
  constructor
  · rintro none ⟨b, member, rfl⟩
    exact none b member (beq_self_eq_true _)
  · intro absent b member found
    exact absent ⟨b, member, eq_of_beq found⟩

theorem exists_of_mem {id : Nat} (member : id ∈ p.blocks.map Block.id) :
    ∃ b, p.find? id = some b := by
  rw [← Option.ne_none_iff_exists']
  exact fun none => find?_eq_none_iff.mp none member

/-! Changes to one block. -/

theorem ids_update (p : Pool) (id : Nat) {f : Block → Block} (same : ∀ b, (f b).id = b.id) :
    (p.update id f).blocks.map Block.id = p.blocks.map Block.id := by
  change (p.blocks.map _).map Block.id = _
  rw [List.map_map]
  refine List.map_congr_left fun b _ => ?_
  change (ite _ _ b).id = b.id
  split
  · exact same b
  · rfl

theorem find?_update (p : Pool) (id : Nat) {f : Block → Block} (same : ∀ b, (f b).id = b.id)
    (other : Nat) :
    (p.update id f).find? other =
      (p.find? other).map fun b => if b.id == id then f b else b := by
  unfold find? update
  rw [List.find?_map]
  congr 2
  funext b
  simp only [Function.comp]
  split
  · rw [same]
  · rfl

theorem find?_update_of_ne {id other : Nat} {f : Block → Block} (same : ∀ b, (f b).id = b.id)
    (apart : other ≠ id) : (p.update id f).find? other = p.find? other := by
  rw [find?_update p id same]
  cases found : p.find? other with
  | none => rfl
  | some b =>
      have here := id_of_find? found
      rw [Option.map_some, if_neg (fun equal => apart (here.symm.trans (eq_of_beq equal)))]

theorem find?_update_self {id : Nat} {f : Block → Block} (same : ∀ b, (f b).id = b.id) {b : Block}
    (found : p.find? id = some b) : (p.update id f).find? id = some (f b) := by
  rw [find?_update p id same, found, Option.map_some,
    if_pos (beq_iff_eq.mpr (id_of_find? found))]

theorem mem_update {p : Pool} {id : Nat} {f : Block → Block} {after : Block}
    (member : after ∈ (p.update id f).blocks) :
    ∃ b ∈ p.blocks, after = b ∨ (b.id = id ∧ after = f b) := by
  obtain ⟨b, listed, rfl⟩ := List.mem_map.mp member
  refine ⟨b, listed, ?_⟩
  by_cases here : b.id = id
  · exact Or.inr ⟨here, if_pos (beq_iff_eq.mpr here)⟩
  · exact Or.inl (if_neg fun same => here (eq_of_beq same))

theorem update_eq_self {id : Nat} {f : Block → Block}
    (same : ∀ b ∈ p.blocks, b.id = id → f b = b) : p.update id f = p := by
  have kept : p.blocks.map (fun b => if b.id == id then f b else b) = p.blocks := by
    refine (List.map_congr_left fun b member => ?_).trans (List.map_id p.blocks)
    change ite _ _ b = b
    split
    · next here => exact same b member (eq_of_beq here)
    · rfl
  rw [update, kept]

/-- The blocks but one. -/
def without (id : Nat) (blocks : List Block) : List Block := blocks.filter (·.id != id)

section
variable {id : Nat} {b : Block} {rest : List Block}

theorem without_of_eq (found : b.id = id) : without id (b :: rest) = without id rest :=
  List.filter_cons_of_neg (fun kept => bne_iff_ne.mp kept found)

theorem without_of_ne (other : b.id ≠ id) : without id (b :: rest) = b :: without id rest :=
  List.filter_cons_of_pos (bne_iff_ne.mpr other)

theorem without_of_absent (absent : id ∉ rest.map Block.id) : without id rest = rest := by
  refine List.filter_eq_self.mpr fun b member => bne_iff_ne.mpr fun found => absent ?_
  rw [← found]
  exact List.mem_map_of_mem member

end

/-! Closing and dropping. -/

theorem blocks_close (p : Pool) (id : Nat) :
    (p.close id).blocks = p.blocks ∨ (p.close id).blocks = (p.update id Block.shut).blocks := by
  unfold close
  split
  · exact Or.inl rfl
  · split
    · exact Or.inl rfl
    · exact Or.inr rfl

theorem serial_close (p : Pool) (id : Nat) : (p.close id).serial = p.serial := by
  unfold close
  split
  · rfl
  · split <;> rfl

theorem ids_close (p : Pool) (id : Nat) :
    (p.close id).blocks.map Block.id = p.blocks.map Block.id := by
  rcases p.blocks_close id with same | shut
  · rw [same]
  · rw [shut]
    exact p.ids_update id fun _ => rfl

theorem mem_close {id : Nat} {after : Block} (member : after ∈ (p.close id).blocks) :
    ∃ b ∈ p.blocks, after = b ∨ (b.id = id ∧ after = b.shut) := by
  rcases p.blocks_close id with same | shut
  · rw [same] at member
    exact ⟨after, member, Or.inl rfl⟩
  · rw [shut] at member
    exact mem_update member

theorem find?_close_of_ne {id other : Nat} (apart : other ≠ id) :
    (p.close id).find? other = p.find? other := by
  rcases p.blocks_close id with same | shut
  · exact find?_of_blocks same other
  · refine (find?_of_blocks shut other).trans ?_
    exact find?_update_of_ne (f := Block.shut) (fun _ => rfl) apart

theorem blocks_drop (p : Pool) (id : Nat) : (p.drop id).blocks = without id p.blocks := by
  unfold drop
  split
  · next absent => exact (without_of_absent (find?_eq_none_iff.mp absent)).symm
  · rfl

theorem serial_drop (p : Pool) (id : Nat) : (p.drop id).serial = p.serial := by
  unfold drop
  split <;> rfl

theorem find?_drop (p : Pool) (id other : Nat) :
    (p.drop id).find? other = (without id p.blocks).find? (·.id == other) := by
  rw [find?, blocks_drop]

theorem find?_drop_of_ne {id other : Nat} (apart : other ≠ id) :
    (p.drop id).find? other = p.find? other := by
  rw [find?_drop, without, List.find?_filter]
  change _ = List.find? _ _
  congr 1
  funext b
  cases here : b.id == other with
  | false => simp
  | true =>
      have kept : b.id ≠ id := fun same => apart ((eq_of_beq here).symm.trans same)
      simp [kept]

theorem find?_drop_self (p : Pool) (id : Nat) : (p.drop id).find? id = none := by
  rw [find?_drop, without, List.find?_filter, List.find?_eq_none]
  intro b _
  simp

end Pool
end ElasticBatch
