import ElasticBatch.Proofs.Pool.Ledger
import ElasticBatch.Proofs.Pool.Lookup

/-! What is handed out and who has it. The books and the blocks are updated apart from each other;
after every run they agree to the byte, whatever sizes the policies proposed. -/
namespace ElasticBatch.Pool

/-- The bytes of all the blocks, as an exact number. -/
def total : List Block → Nat
  | [] => 0
  | b :: rest => b.usage.toNat + total rest

theorem total_cons (b : Block) (rest : List Block) :
    total (b :: rest) = b.usage.toNat + total rest := rfl

theorem total_append (first second : List Block) :
    total (first ++ second) = total first + total second := by
  induction first with
  | nil => exact (Nat.zero_add _).symm
  | cons b rest ih =>
      rw [List.cons_append, total_cons, total_cons, ih]
      exact (Nat.add_assoc _ _ _).symm

theorem total_map {f : Block → Block} (same : ∀ b, (f b).usage = b.usage) (blocks : List Block) :
    total (blocks.map f) = total blocks := by
  induction blocks with
  | nil => rfl
  | cons b rest ih => rw [List.map_cons, total_cons, total_cons, same, ih]

/-- Which block it is, and whether it was closed. -/
def key (b : Block) : Nat × Bool := (b.id, b.released)

/-! What the operations did to the blocks, without their sizes. -/

/-- The blocks someone still holds, in allocation order, each with whether it was closed. -/
structure Roll where
  held : List (Nat × Bool) := []
  allocated : Nat := 0
  deriving DecidableEq, Repr

namespace Roll

def record (r : Roll) : Op → Roll
  | .allocate _ => { held := r.held ++ [(r.allocated, false)], allocated := r.allocated + 1 }
  | .install _ _ | .sweep _ => r
  | .close id => { r with held := r.held.map fun entry => (entry.1, entry.2 || entry.1 == id) }
  | .drop id => { r with held := r.held.filter (·.1 != id) }

def after (ops : List Op) : Roll := ops.foldl record {}

/-- No block is on the roll twice, and the next one is not there yet. -/
structure Sound (r : Roll) : Prop where
  distinct : (r.held.map Prod.fst).Nodup
  fresh : ∀ entry ∈ r.held, entry.1 < r.allocated

theorem Sound.record {r : Roll} (h : r.Sound) (op : Op) : (r.record op).Sound := by
  cases op with
  | allocate requested =>
      constructor
      · change ((r.held ++ [_]).map Prod.fst).Nodup
        rw [List.map_append]
        refine List.nodup_append.mpr ⟨h.distinct, List.nodup_cons.mpr ⟨nofun, List.nodup_nil⟩, ?_⟩
        intro id earlier other last
        obtain ⟨entry, member, rfl⟩ := List.mem_map.mp earlier
        rw [List.mem_singleton.mp last]
        exact Nat.ne_of_lt (h.fresh entry member)
      · refine List.forall_mem_append.mpr ⟨fun entry member => ?_, ?_⟩
        · exact Nat.lt_succ_of_lt (h.fresh entry member)
        · exact List.forall_mem_singleton.mpr (Nat.lt_succ_self _)
  | install id policy => exact h
  | sweep direction => exact h
  | close id =>
      constructor
      · change ((r.held.map _).map Prod.fst).Nodup
        rw [List.map_map]
        exact h.distinct
      · exact List.forall_mem_map.mpr h.fresh
  | drop id =>
      constructor
      · exact h.distinct.sublist (List.filter_sublist.map Prod.fst)
      · exact fun entry member => h.fresh entry (List.mem_filter.mp member).1

end Roll

/-! The entries an operation makes in the books. -/

def sweepMoves (direction : Direction) : Ledger → List Block → List Ledger.Move
  | _, [] => []
  | l, b :: rest =>
    let move := Ledger.Move.between b.usage (b.resized l direction)
    move :: sweepMoves direction (l.enter move) rest

def moves (p : Pool) : Op → List Ledger.Move
  | .allocate requested => [.out (p.ledger.grant requested)]
  | .install _ _ => []
  | .sweep direction => sweepMoves direction p.ledger p.blocks
  | .close id | .drop id => [.back (p.usage id)]

/-- A block that leaves takes its bytes along. -/
theorem total_without (id : Nat) (blocks : List Block) (distinct : (blocks.map Block.id).Nodup) :
    total (without id blocks) + (((blocks.find? (·.id == id)).map Block.usage).getD 0).toNat =
      total blocks := by
  induction blocks with
  | nil => rfl
  | cons b rest ih =>
      obtain ⟨apart, distinct⟩ := List.nodup_cons.mp distinct
      by_cases found : b.id = id
      · rw [found] at apart
        rw [find?_cons_of_eq Block.id found, without_of_eq found, without_of_absent apart,
          total_cons]
        exact Nat.add_comm _ _
      · rw [find?_cons_of_ne Block.id found, without_of_ne found, total_cons, total_cons,
          ← ih distinct]
        exact Nat.add_assoc _ _ _

/-- A closed block has no bytes left, as if it had gone. -/
theorem total_closed (id : Nat) (blocks : List Block) :
    total (blocks.map fun b => if b.id == id then b.shut else b) = total (without id blocks) := by
  induction blocks with
  | nil => rfl
  | cons b rest ih =>
      rw [List.map_cons, total_cons, ih]
      by_cases found : b.id = id
      · rw [if_pos (beq_iff_eq.mpr found), without_of_eq found]
        exact Nat.zero_add _
      · rw [if_neg (fun same => found (eq_of_beq same)), without_of_ne found, total_cons]

/-! A sweep follows each block in the books, so both move together. -/

section
variable (direction : Direction)

theorem sweepBlocks_cons (l : Ledger) (b : Block) (rest : List Block) :
    sweepBlocks direction l (b :: rest) =
      let new := b.resized l direction
      let later := sweepBlocks direction (l.enter (.between b.usage new)) rest
      (later.1, { b with usage := new } :: later.2.1,
        (b.change? direction new).toList ++ later.2.2) := by
  simp only [← Ledger.follow_eq_enter]
  rfl

theorem sweepBlocks_ledger (l : Ledger) (blocks : List Block) :
    (sweepBlocks direction l blocks).1 = (sweepMoves direction l blocks).foldl Ledger.enter l := by
  induction blocks generalizing l with
  | nil => rfl
  | cons b rest ih =>
      rw [sweepBlocks_cons]
      exact ih _

theorem sweepBlocks_keys (l : Ledger) (blocks : List Block) :
    (sweepBlocks direction l blocks).2.1.map key = blocks.map key := by
  induction blocks generalizing l with
  | nil => rfl
  | cons b rest ih =>
      rw [sweepBlocks_cons]
      exact congrArg (key b :: ·) (ih _)

theorem sweepBlocks_empty (l : Ledger) (blocks : List Block)
    (empty : ∀ b ∈ blocks, b.released = true → b.usage = 0) :
    ∀ b ∈ (sweepBlocks direction l blocks).2.1, b.released = true → b.usage = 0 := by
  induction blocks generalizing l with
  | nil => exact empty
  | cons b rest ih =>
      obtain ⟨emptyHere, emptyLater⟩ := List.forall_mem_cons.mp empty
      rw [sweepBlocks_cons]
      refine List.forall_mem_cons.mpr ⟨fun released => ?_, ih _ emptyLater⟩
      have held : b.released = true := released
      exact (Block.resized_of_released held l direction).trans (emptyHere held)

/-- The other bytes on the books stay where they are. -/
theorem sweepBlocks_balanced {l : Ledger} {blocks : List Block} (others : Nat)
    (within : l.Within) (backed : total blocks + others = l.used.toNat) :
    l.AllFit (sweepMoves direction l blocks) ∧
      (sweepBlocks direction l blocks).1.Within ∧
        total (sweepBlocks direction l blocks).2.1 + others =
          (sweepBlocks direction l blocks).1.used.toNat := by
  induction blocks generalizing l others with
  | nil => exact ⟨trivial, within, backed⟩
  | cons b rest ih =>
      rw [total_cons] at backed
      have fits := b.fits_resized within (by omega) direction
      have moved := Ledger.toNat_used_between fits
      -- to the blocks that follow, the new size of this one is among the other bytes
      obtain ⟨later, stays, balanced⟩ :=
        ih ((b.resized l direction).toNat + others) (within.enter fits) (by omega)
      rw [sweepBlocks_cons]
      refine ⟨⟨fits, later⟩, stays, ?_⟩
      rw [total_cons, ← balanced]
      exact (Nat.add_assoc _ _ _).trans (Nat.add_left_comm _ _ _)

end

/-- The books and the blocks agree with each other, and the blocks with what was asked. -/
structure Balanced (p : Pool) (r : Roll) : Prop where
  used : p.ledger.used.toNat = total p.blocks
  within : p.ledger.Within
  held : p.blocks.map key = r.held
  allocated : p.serial = r.allocated
  sound : r.Sound
  empty : ∀ b ∈ p.blocks, b.released = true → b.usage = 0

namespace Balanced

variable {p : Pool} {r : Roll}

theorem start (capacity : Word) : (ofCapacity capacity).Balanced {} where
  used := rfl
  within := Nat.zero_le _
  held := rfl
  allocated := rfl
  sound := ⟨List.nodup_nil, nofun⟩
  empty := nofun

theorem ids (h : p.Balanced r) : p.blocks.map Block.id = r.held.map Prod.fst := by
  rw [← h.held, List.map_map]
  rfl

theorem distinct (h : p.Balanced r) : (p.blocks.map Block.id).Nodup := by
  rw [h.ids]
  exact h.sound.distinct

theorem find?_of_mem (h : p.Balanced r) {b : Block} (member : b ∈ p.blocks) :
    p.find? b.id = some b :=
  ElasticBatch.find?_of_mem Block.id h.distinct member

theorem usage_of_released (h : p.Balanced r) {id : Nat} {b : Block}
    (found : p.find? id = some b) (released : b.released = true) : p.usage id = 0 := by
  rw [usage_of_find? found]
  exact h.empty b (List.mem_of_find?_eq_some found) released

/-- The bytes of each block are on the books, beside those of the others. -/
theorem backed (h : p.Balanced r) (id : Nat) :
    total (without id p.blocks) + (p.usage id).toNat = p.ledger.used.toNat := by
  rw [h.used]
  exact total_without id p.blocks h.distinct

theorem fits_usage (h : p.Balanced r) (id : Nat) : p.ledger.Fits (.back (p.usage id)) := by
  have backed := h.backed id
  change (p.usage id).toNat ≤ p.ledger.used.toNat
  omega

theorem used_without (h : p.Balanced r) (id : Nat) :
    (p.ledger.giveBack (p.usage id)).used.toNat = total (without id p.blocks) := by
  have returned := Ledger.toNat_used_back (h.fits_usage id)
  have backed := h.backed id
  change (p.ledger.giveBack (p.usage id)).used.toNat = _ at returned
  omega

theorem fits (h : p.Balanced r) (op : Op) : p.ledger.AllFit (p.moves op) := by
  cases op with
  | allocate requested => exact ⟨h.within.fits_grant requested, trivial⟩
  | install id policy => exact trivial
  | sweep direction => exact (sweepBlocks_balanced direction 0 h.within h.used.symm).1
  | close id => exact ⟨h.fits_usage id, trivial⟩
  | drop id => exact ⟨h.fits_usage id, trivial⟩

theorem allocate (h : p.Balanced r) (requested : Word) :
    (p.step (.allocate requested)).1.Balanced (r.record (.allocate requested)) where
  used := by
    change (p.ledger.enter (.out (p.ledger.grant requested))).used.toNat = total (p.blocks ++ [_])
    rw [Ledger.toNat_used_out (h.within.fits_grant requested), total_append, h.used]
    rfl
  within := h.within.enter (h.within.fits_grant requested)
  held := by
    change (p.blocks ++ [_]).map key = r.held ++ [(r.allocated, false)]
    rw [List.map_append, h.held, ← h.allocated]
    rfl
  allocated := congrArg (· + 1) h.allocated
  sound := h.sound.record (.allocate requested)
  empty := List.forall_mem_append.mpr ⟨h.empty, List.forall_mem_singleton.mpr nofun⟩

theorem install (h : p.Balanced r) (id : Nat) (policy : Policy) :
    (p.step (.install id policy)).1.Balanced (r.record (.install id policy)) where
  used := by
    refine h.used.trans (total_map (fun b => ?_) p.blocks).symm
    split <;> rfl
  within := h.within
  held := by
    refine Eq.trans ?_ h.held
    change (p.blocks.map _).map key = _
    rw [List.map_map]
    refine List.map_congr_left fun b _ => ?_
    change key (ite _ _ b) = key b
    split <;> rfl
  allocated := h.allocated
  sound := h.sound
  empty := by
    refine List.forall_mem_map.mpr fun b member => ?_
    have empty := h.empty b member
    split
    · exact empty
    · exact empty

theorem sweep (h : p.Balanced r) (direction : Direction) :
    (p.step (.sweep direction)).1.Balanced (r.record (.sweep direction)) where
  used := (sweepBlocks_balanced direction 0 h.within h.used.symm).2.2.symm
  within := (sweepBlocks_balanced direction 0 h.within h.used.symm).2.1
  held := (sweepBlocks_keys direction p.ledger p.blocks).trans h.held
  allocated := h.allocated
  sound := h.sound
  empty := sweepBlocks_empty direction p.ledger p.blocks h.empty

/-- Whether there is such a block and whether it was closed before, a close leaves none of its bytes
on the books. -/
theorem close_eq (h : p.Balanced r) (id : Nat) :
    p.close id = { p.update id Block.shut with ledger := p.ledger.giveBack (p.usage id) } := by
  cases found : p.find? id with
  | none =>
      have absent := find?_eq_none_iff.mp found
      have same : p.update id Block.shut = p := update_eq_self fun b member here =>
        absurd (here ▸ List.mem_map_of_mem member) absent
      rw [same, usage_of_absent found, Ledger.giveBack_zero, close, found]
  | some b =>
      cases released : b.released with
      | true =>
          have same : p.update id Block.shut = p := update_eq_self fun c member here => by
            cases (here ▸ h.find?_of_mem member).symm.trans found
            exact Block.shut_of_released released (h.empty _ member released)
          have none : p.usage id = 0 := h.usage_of_released found released
          rw [same, none, Ledger.giveBack_zero, close, found]
          exact if_pos released
      | false =>
          rw [usage_of_find? found, close, found]
          exact if_neg (Bool.not_eq_true _ ▸ released)

theorem drop_eq (h : p.Balanced r) (id : Nat) :
    p.drop id =
      { p with ledger := p.ledger.giveBack (p.usage id), blocks := without id p.blocks } := by
  cases found : p.find? id with
  | none =>
      rw [without_of_absent (find?_eq_none_iff.mp found), usage_of_absent found,
        Ledger.giveBack_zero, drop, found]
  | some b =>
      have books : (if b.released then p.ledger else p.ledger.giveBack b.usage) =
          p.ledger.giveBack (p.usage id) := by
        cases released : b.released with
        | true =>
            rw [h.usage_of_released found released, Ledger.giveBack_zero]
            rfl
        | false =>
            rw [usage_of_find? found]
            rfl
      simp only [drop, found, books]
      rfl

theorem close (h : p.Balanced r) (id : Nat) :
    (p.step (.close id)).1.Balanced (r.record (.close id)) := by
  change (p.close id).Balanced _
  rw [h.close_eq id]
  constructor
  case used => exact (h.used_without id).trans (total_closed id p.blocks).symm
  case within => exact h.within.enter (h.fits_usage id)
  case held =>
    change (p.blocks.map _).map key = r.held.map _
    rw [← h.held, List.map_map, List.map_map]
    refine List.map_congr_left fun b _ => ?_
    change key (ite _ _ b) = (b.id, b.released || b.id == id)
    cases same : b.id == id with
    | true => exact congrArg (b.id, ·) (Bool.or_true _).symm
    | false => exact congrArg (b.id, ·) (Bool.or_false _).symm
  case allocated => exact h.allocated
  case sound => exact h.sound.record (.close id)
  case empty =>
    refine List.forall_mem_map.mpr fun b member => ?_
    split
    · exact fun _ => rfl
    · exact h.empty b member

theorem drop (h : p.Balanced r) (id : Nat) :
    (p.step (.drop id)).1.Balanced (r.record (.drop id)) := by
  change (p.drop id).Balanced _
  rw [h.drop_eq id]
  constructor
  case used => exact h.used_without id
  case within => exact h.within.enter (h.fits_usage id)
  case held =>
    change (without id p.blocks).map key = r.held.filter _
    rw [← h.held, List.filter_map]
    rfl
  case allocated => exact h.allocated
  case sound => exact h.sound.record (.drop id)
  case empty => exact fun b member => h.empty b (List.mem_filter.mp member).1

theorem step (h : p.Balanced r) (op : Op) : (p.step op).1.Balanced (r.record op) := by
  cases op with
  | allocate requested => exact h.allocate requested
  | install id policy => exact h.install id policy
  | sweep direction => exact h.sweep direction
  | close id => exact h.close id
  | drop id => exact h.drop id

theorem run (h : p.Balanced r) (ops : List Op) :
    (p.run ops).1.Balanced (ops.foldl Roll.record r) := by
  induction ops generalizing p r with
  | nil => exact h
  | cons op rest ih => exact ih (h.step op)

end Balanced

theorem Balanced.ledger_step {p : Pool} {r : Roll} (h : p.Balanced r) (op : Op) :
    (p.step op).1.ledger = (p.moves op).foldl Ledger.enter p.ledger := by
  cases op with
  | allocate requested => rfl
  | install id policy => rfl
  | sweep direction => exact sweepBlocks_ledger direction p.ledger p.blocks
  | close id => exact congrArg Pool.ledger (h.close_eq id)
  | drop id => exact congrArg Pool.ledger (h.drop_eq id)

theorem Balanced.capacity_run {p : Pool} {r : Roll} (h : p.Balanced r) (ops : List Op) :
    (p.run ops).1.ledger.capacity = p.ledger.capacity := by
  induction ops generalizing p r with
  | nil => rfl
  | cons op rest ih =>
      refine (ih (h.step op)).trans ?_
      rw [h.ledger_step]
      exact Ledger.capacity_foldl _ _

theorem total_open (blocks : List Block)
    (empty : ∀ b ∈ blocks, b.released = true → b.usage = 0) :
    total (blocks.filter (!·.released)) = total blocks := by
  induction blocks with
  | nil => rfl
  | cons b rest ih =>
      obtain ⟨emptyHere, emptyLater⟩ := List.forall_mem_cons.mp empty
      rw [total_cons, ← ih emptyLater, List.filter_cons]
      cases released : b.released with
      | true =>
          rw [emptyHere released]
          exact (Nat.zero_add _).symm
      | false => exact total_cons _ _

/-- After every run the books show exactly the bytes of the open blocks and never more than the
capacity; the blocks are those held by someone, each once; and the entries that any further
operation makes in the books all fit, so nothing wraps. -/
theorem books_balance (capacity : Word) (ops : List Op) :
    let p := ((ofCapacity capacity).run ops).1
    p.ledger.capacity = capacity ∧
    p.ledger.used.toNat = total (p.blocks.filter (!·.released)) ∧
    p.ledger.used ≤ capacity ∧
    p.ledger.free.toNat = capacity.toNat - p.ledger.used.toNat ∧
    p.blocks.map key = (Roll.after ops).held ∧
    (p.blocks.map Block.id).Nodup ∧
    (∀ b ∈ p.blocks, b.released = true → b.usage = 0) ∧
    ((∀ entry ∈ (Roll.after ops).held, entry.2 = true) → p.ledger.used = 0) ∧
    ∀ op, p.ledger.AllFit (p.moves op) ∧
      (p.step op).1.ledger = (p.moves op).foldl Ledger.enter p.ledger := by
  intro p
  have balanced : p.Balanced (Roll.after ops) := (Balanced.start capacity).run ops
  have fixed : p.ledger.capacity = capacity := (Balanced.start capacity).capacity_run ops
  have used : p.ledger.used.toNat = total (p.blocks.filter (!·.released)) :=
    balanced.used.trans (total_open p.blocks balanced.empty).symm
  refine ⟨fixed, used, ?_, ?_, balanced.held, balanced.distinct, balanced.empty, ?_,
    fun op => ⟨balanced.fits op, balanced.ledger_step op⟩⟩
  · rw [← fixed]
    exact UInt64.le_iff_toNat_le.mpr balanced.within
  · rw [← fixed]
    exact Ledger.toNat_free p.ledger
  · intro closed
    have none : p.blocks.filter (!·.released) = [] := by
      refine List.filter_eq_nil_iff.mpr fun b member isOpen => ?_
      have released : b.released = true := by
        refine closed (key b) ?_
        rw [← balanced.held]
        exact List.mem_map_of_mem member
      rw [released] at isOpen
      exact Bool.false_ne_true isOpen
    rw [none] at used
    exact UInt64.toNat_inj.mp used

end ElasticBatch.Pool
