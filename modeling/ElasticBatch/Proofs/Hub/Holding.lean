import ElasticBatch.Hub
import ElasticBatch.Proofs.Batch.Verdict
import ElasticBatch.Proofs.Pool.Sizes

/-! Who holds the blocks of a shared pool. Each block has one holder, a batch or a lease, and the
block of a batch goes with it: open as long as the batch is, under the batch's own policy, and never
larger than what the batch asked for. -/
namespace ElasticBatch

theorem Policy.expand_halveAndDouble_le (cap old : Word) :
    ((halveAndDouble cap).journaled.expand old).toNat ≤ cap.toNat := by
  change ((halveAndDouble cap).expand old).toNat ≤ _
  rw [toNat_double]
  exact Nat.min_le_right _ _

/-- The block is the batch's budget. -/
structure Member.Backed (m : Member) (b : Block) : Prop where
  valid : m.batch.config.Valid
  policy : b.policy = (Policy.halveAndDouble m.batch.config.sizeBytes).journaled
  released : b.released = m.batch.closed
  bounded : b.usage.toNat ≤ m.batch.config.sizeBytes.toNat

namespace Member.Backed

variable {m : Member} {b : Block}

theorem resized (h : m.Backed b) (l : Ledger) (direction : Direction) :
    m.Backed { b with usage := b.resized l direction } where
  valid := h.valid
  policy := h.policy
  released := h.released
  bounded := by
    have grown := b.resized_le l direction
    have wanted := Policy.expand_halveAndDouble_le m.batch.config.sizeBytes b.usage
    have before := h.bounded
    rw [h.policy] at grown
    change (b.resized l direction).toNat ≤ _
    omega

theorem of_same (h : m.Backed b) {after : Member} (config : after.batch.config = m.batch.config)
    (closed : after.batch.closed = m.batch.closed) : after.Backed b where
  valid := config ▸ h.valid
  policy := config ▸ h.policy
  released := h.released.trans closed.symm
  bounded := config ▸ h.bounded

theorem shut (h : m.Backed b) {after : Member} (config : after.batch.config = m.batch.config)
    (closed : after.batch.closed = true) :
    after.Backed b.shut where
  valid := config ▸ h.valid
  policy := config ▸ h.policy
  released := closed.symm
  bounded := Nat.zero_le _

end Member.Backed

namespace Hub

/-- Nobody is there yet, and there is a capacity to share. -/
def ofCapacity (capacity : Word) : Hub where
  governor := .elastic (.ofCapacity capacity)

/-- The hub's governor is a pool with balanced books, whose blocks are those of the members, in the
order of their opening, and of the leases. -/
structure Held (h : Hub) (p : Pool) (r : Pool.Roll) : Prop where
  governor : h.governor = .elastic p
  balanced : p.Balanced r
  holders : (p.blocks.map Block.id).Perm (h.members.map Member.block ++ h.leases)
  order : (h.members.map Member.block).Sublist (p.blocks.map Block.id)
  backed : ∀ m ∈ h.members, ∃ b, p.find? m.block = some b ∧ m.Backed b

theorem member?_some {h : Hub} {block : Nat} {m : Member} (found : h.member? block = some m) :
    m ∈ h.members ∧ m.block = block := by
  have same := List.find?_some found
  exact ⟨List.mem_of_find?_eq_some found, eq_of_beq same⟩

theorem blocks_setBatch (h : Hub) (block : Nat) (b : Batch) :
    (h.setBatch block b).members.map Member.block = h.members.map Member.block := by
  change (h.members.map _).map Member.block = _
  rw [List.map_map]
  refine List.map_congr_left fun m _ => ?_
  change (if m.block == block then _ else m).block = m.block
  split <;> rfl

namespace Held

variable {h : Hub} {p : Pool} {r : Pool.Roll}

theorem start (capacity : Word) : (ofCapacity capacity).Held (.ofCapacity capacity) {} where
  governor := rfl
  balanced := .start capacity
  holders := .refl _
  order := .refl _
  backed := nofun

theorem distinct (s : h.Held p r) : (h.members.map Member.block ++ h.leases).Nodup :=
  s.holders.nodup_iff.mp s.balanced.distinct

theorem order_of_ids (s : h.Held p r) {q : Pool}
    (same : q.blocks.map Block.id = p.blocks.map Block.id) :
    (h.members.map Member.block).Sublist (q.blocks.map Block.id) :=
  same ▸ s.order

theorem member?_of_mem (s : h.Held p r) {m : Member} (member : m ∈ h.members) :
    h.member? m.block = some m :=
  find?_of_mem Member.block (List.nodup_append.mp s.distinct).1 member

theorem limit_eq (s : h.Held p r) (m : Member) : h.limit m = p.usage m.block := by
  rw [limit, s.governor]
  rfl

/-- Only blocks that were handed out are held. -/
theorem lt_serial (s : h.Held p r) {m : Member} (member : m ∈ h.members) : m.block < p.serial := by
  obtain ⟨_, found, -⟩ := s.backed m member
  exact s.balanced.lt_serial found

theorem granted (s : h.Held p r) {block : Nat} {m : Member} (found : h.member? block = some m) :
    block < p.serial := by
  obtain ⟨listed, rfl⟩ := member?_some found
  exact s.lt_serial listed

theorem not_leased (s : h.Held p r) {m : Member} (member : m ∈ h.members) :
    m.block ∉ h.leases := fun leased =>
  (List.nodup_append.mp s.distinct).2.2 _ (List.mem_map_of_mem member) _ leased rfl

theorem exists_lease (s : h.Held p r) {id : Nat} (leased : id ∈ h.leases) :
    ∃ b, p.find? id = some b :=
  Pool.exists_of_mem (s.holders.mem_iff.mpr (List.mem_append_right _ leased))

/-- A limit never exceeds what was asked for. -/
theorem limit_le (s : h.Held p r) {m : Member} (member : m ∈ h.members) :
    h.limit m ≤ m.batch.config.sizeBytes := by
  obtain ⟨b, found, backed⟩ := s.backed m member
  rw [s.limit_eq, Pool.usage_of_find? found]
  exact UInt64.le_iff_toNat_le.mpr backed.bounded

/-- What is done to blocks that no batch holds leaves every batch its budget. -/
theorem backed_of_found (s : h.Held p r) {q : Pool}
    (same : ∀ m ∈ h.members, q.find? m.block = p.find? m.block) :
    ∀ m ∈ h.members, ∃ b, q.find? m.block = some b ∧ m.Backed b := by
  intro m member
  rw [same m member]
  exact s.backed m member

/-- Time and what is not about blocks have no part in it. -/
theorem of_same (s : h.Held p r) {after : Hub} (governor : after.governor = h.governor)
    (members : after.members = h.members) (leases : after.leases = h.leases) :
    after.Held p r where
  governor := governor.trans s.governor
  balanced := s.balanced
  holders := by rw [members, leases]; exact s.holders
  order := members ▸ s.order
  backed := members ▸ s.backed

end Held

/-! Opening. -/

theorem openBatch_valid {h : Hub} {p : Pool} (governor : h.governor = .elastic p) {config : Config}
    (valid : config.Valid) :
    (h.openBatch config).reply = .opened p.serial ∧
      (h.openBatch config).hub =
        { h with
          governor := .elastic ((p.allocate config.sizeBytes).2.1.install p.serial
            (Policy.halveAndDouble config.sizeBytes).journaled)
          members := h.members ++ [⟨p.serial, Batch.ofConfig config⟩] } := by
  have passes : config.check = .ok config := Config.check_eq_ok_iff.mpr ⟨rfl, valid⟩
  simp only [openBatch, passes, governor]
  exact ⟨rfl, rfl⟩

theorem openBatch_invalid (h : Hub) {config : Config} (invalid : ¬ config.Valid) :
    h.openBatch config = ⟨h, .refused (.outOfRange config.violations), []⟩ := by
  have refused : config.check = .error (.outOfRange config.violations) := if_neg invalid
  simp only [openBatch, refused]

theorem Held.openBatch {h : Hub} {p : Pool} {r : Pool.Roll} (s : h.Held p r) {config : Config}
    (valid : config.Valid) :
    ∃ ops, (h.openBatch config).hub.Held (p.run ops).1 (ops.foldl Pool.Roll.record r) := by
  let policy := (Policy.halveAndDouble config.sizeBytes).journaled
  let granted := (p.allocate config.sizeBytes).2.1
  let ops : List Pool.Op := [.allocate config.sizeBytes, .install p.serial policy]
  have ids : (p.run ops).1.blocks.map Block.id = p.blocks.map Block.id ++ [p.serial] :=
    (granted.ids_install p.serial policy).trans (p.ids_allocate config.sizeBytes)
  refine ⟨ops, ?_⟩
  rw [(openBatch_valid s.governor valid).2]
  refine ⟨rfl, s.balanced.run ops, ?_, ?_, ?_⟩
  · rw [ids, List.map_append, List.append_assoc]
    refine (s.holders.append_right _).trans ?_
    rw [List.append_assoc]
    exact .append_left _ List.perm_append_comm
  · rw [ids, List.map_append]
    exact s.order.append (.refl _)
  · refine List.forall_mem_append.mpr ⟨fun m member => ?_, List.forall_mem_singleton.mpr ?_⟩
    · have apart : m.block ≠ p.serial := Nat.ne_of_lt (s.lt_serial member)
      obtain ⟨b, found, backed⟩ := s.backed m member
      have kept : granted.find? m.block = some b := (Pool.find?_allocate_of_ne apart).trans found
      exact ⟨b, (Pool.find?_install_of_ne apart).trans kept, backed⟩
    · have new := s.balanced.find?_allocate config.sizeBytes
      refine ⟨_, Pool.find?_install_self new, valid, rfl, rfl, ?_⟩
      change (p.ledger.grant config.sizeBytes).toNat ≤ config.sizeBytes.toNat
      rw [Ledger.toNat_grant]
      exact Nat.min_le_left _ _

/-! Calls of a batch. -/

theorem act_found {h : Hub} {block : Nat} {m : Member} (found : h.member? block = some m)
    (op : Batch.Op) :
    let outcome := m.batch.step ⟨h.limit m, h.clock⟩ op
    (h.act block op).reply = ofAnswer outcome.answer ∧
      (h.act block op).hub =
        { h.setBatch block outcome.batch with
          governor :=
            if op.closes && !m.batch.closed then (h.governor.close block).1 else h.governor } := by
  intro outcome
  have ends : (outcome.batch.closed && !m.batch.closed) = (op.closes && !m.batch.closed) := by
    rw [Batch.closed_step_eq]
    cases m.batch.closed <;> simp
  simp only [act, found]
  rw [ends]
  cases op.closes && !m.batch.closed <;> exact ⟨rfl, rfl⟩

/-- Of the members only the one that was called may have changed. -/
theorem mem_setBatch {h : Hub} {block : Nat} {b : Batch} {m : Member}
    (member : m ∈ (h.setBatch block b).members) :
    m = ⟨block, b⟩ ∨ (m ∈ h.members ∧ m.block ≠ block) := by
  obtain ⟨before, listed, rfl⟩ := List.mem_map.mp member
  by_cases here : before.block = block
  · rw [if_pos (beq_iff_eq.mpr here)]
    exact Or.inl (congrArg (Member.mk · b) here)
  · rw [if_neg (fun same => here (eq_of_beq same))]
    exact Or.inr ⟨listed, here⟩

namespace Held

variable {h : Hub} {p : Pool} {r : Pool.Roll}

theorem act_governor (s : h.Held p r) {block : Nat} {m : Member}
    (found : h.member? block = some m) (op : Batch.Op) :
    (h.act block op).hub.governor =
      .elastic (if op.closes && !m.batch.closed then p.close block else p) := by
  rw [(act_found found op).2, s.governor]
  cases op.closes && !m.batch.closed <;> rfl

/-- The call that closes a batch closes its block; no other call touches a budget. -/
theorem act (s : h.Held p r) (block : Nat) (op : Batch.Op) :
    ∃ ops, (h.act block op).hub.Held (p.run ops).1 (ops.foldl Pool.Roll.record r) := by
  cases found : h.member? block with
  | none =>
      refine ⟨[], ?_⟩
      simp only [Hub.act, found]
      exact s
  | some m =>
      obtain ⟨listed, rfl⟩ := member?_some found
      obtain ⟨b, owned, backed⟩ := s.backed m listed
      have settings := Batch.config_step m.batch ⟨h.limit m, h.clock⟩ op
      have shut := Batch.closed_step_eq m.batch ⟨h.limit m, h.clock⟩ op
      have governor := s.act_governor found op
      rw [(act_found found op).2] at governor ⊢
      cases ends : op.closes && !m.batch.closed with
      | true =>
          rw [ends] at governor
          obtain ⟨closes, -⟩ := Bool.and_eq_true_iff.mp ends
          rw [closes, Bool.or_true] at shut
          refine ⟨[.close m.block], governor, s.balanced.run [.close m.block], ?_, ?_, ?_⟩
          · rw [blocks_setBatch]
            exact (List.Perm.of_eq (p.ids_close m.block)).trans s.holders
          · rw [blocks_setBatch]
            exact s.order_of_ids (p.ids_close m.block)
          · intro after member
            rcases mem_setBatch member with rfl | ⟨other, apart⟩
            · exact ⟨_, s.balanced.find?_close_self owned, backed.shut settings shut⟩
            · obtain ⟨c, kept, budget⟩ := s.backed after other
              exact ⟨c, (Pool.find?_close_of_ne apart).trans kept, budget⟩
      | false =>
          rw [ends] at governor
          have same : (m.batch.closed || op.closes) = m.batch.closed := by
            cases closed : m.batch.closed <;> simp_all
          refine ⟨[], governor, s.balanced, ?_, ?_, ?_⟩
          · rw [blocks_setBatch]
            exact s.holders
          · rw [blocks_setBatch]
            exact s.order
          · intro after member
            rcases mem_setBatch member with rfl | ⟨other, -⟩
            · exact ⟨b, owned, backed.of_same settings (shut.trans same)⟩
            · exact s.backed after other

/-! Letting go of blocks, and blocks that no batch holds. -/

/-- Whoever held the block, a member or a lease, is gone with it. -/
theorem release (s : h.Held p r) (block : Nat) :
    { h with
      governor := .elastic (p.drop block)
      members := h.members.filter (·.block != block)
      leases := h.leases.filter (· != block) }.Held (p.drop block) (r.record (.drop block)) where
  governor := rfl
  balanced := s.balanced.drop block
  holders := by
    have kept := s.holders.filter (· != block)
    rw [List.filter_append, List.filter_map, List.filter_map] at kept
    rw [p.blocks_drop block]
    exact kept
  order := by
    have kept := s.order.filter (· != block)
    rw [List.filter_map, List.filter_map] at kept
    rw [p.blocks_drop block]
    exact kept
  backed := by
    intro m member
    obtain ⟨listed, apart⟩ := List.mem_filter.mp member
    obtain ⟨b, found, backed⟩ := s.backed m listed
    exact ⟨b, (Pool.find?_drop_of_ne (bne_iff_ne.mp apart)).trans found, backed⟩

theorem drop (s : h.Held p r) (block : Nat) (answers : Nat → Bool) :
    ∃ ops, (h.drop block answers).hub.Held (p.run ops).1 (ops.foldl Pool.Roll.record r) := by
  cases found : h.member? block with
  | none =>
      refine ⟨[], ?_⟩
      simp only [Hub.drop, found]
      exact s
  | some m =>
      obtain ⟨ops, closed⟩ := s.act block (.close answers)
      have leases : (h.act block (.close answers)).hub.leases = h.leases := by
        rw [(act_found found _).2]
        rfl
      refine ⟨ops ++ [.drop block], ?_⟩
      rw [Pool.run_append, List.foldl_append]
      simp only [Hub.drop, found]
      refine (closed.release block).of_same ?_ rfl ?_
      · rw [closed.governor]
        rfl
      · obtain ⟨listed, rfl⟩ := member?_some found
        refine (List.filter_eq_self.mpr fun id leased => bne_iff_ne.mpr ?_).symm
        rintro rfl
        rw [leases] at leased
        exact s.not_leased listed leased

theorem dropLease (s : h.Held p r) (block : Nat) :
    ∃ ops, (h.dropLease block).hub.Held (p.run ops).1 (ops.foldl Pool.Roll.record r) := by
  unfold Hub.dropLease
  split
  · next leased =>
      refine ⟨[.drop block], (s.release block).of_same ?_ ?_ rfl⟩
      · rw [s.governor]
        rfl
      · refine (List.filter_eq_self.mpr fun m member => bne_iff_ne.mpr ?_).symm
        rintro rfl
        exact s.not_leased member (List.contains_iff_mem.mp leased)
  · exact ⟨[], s⟩

theorem allocate (s : h.Held p r) (bytes : Word) :
    ∃ ops, (h.allocate bytes).hub.Held (p.run ops).1 (ops.foldl Pool.Roll.record r) := by
  refine ⟨[.allocate bytes], ?_⟩
  simp only [Hub.allocate, s.governor]
  refine ⟨rfl, s.balanced.allocate bytes, ?_, ?_, ?_⟩
  · refine List.Perm.trans (.of_eq (p.ids_allocate bytes)) ?_
    change List.Perm _ (_ ++ (h.leases ++ [p.serial]))
    rw [← List.append_assoc]
    exact s.holders.append_right _
  · have grown := s.order.trans (List.sublist_append_left _ [p.serial])
    rw [← p.ids_allocate bytes] at grown
    exact grown
  · exact s.backed_of_found fun m member =>
      Pool.find?_allocate_of_ne (Nat.ne_of_lt (s.lt_serial member))

/-- What is done to a lease is not done to a batch. -/
theorem onLease (s : h.Held p r) (block : Nat) {act : Governor → Governor × List Effect}
    (op : Pool.Op) (governor : (act h.governor).1 = .elastic (p.step op).1)
    (ids : (p.step op).1.blocks.map Block.id = p.blocks.map Block.id)
    (others : ∀ id, id ≠ block → (p.step op).1.find? id = p.find? id) :
    ∃ ops, (h.onLease block act).hub.Held (p.run ops).1 (ops.foldl Pool.Roll.record r) := by
  unfold Hub.onLease
  split
  · next leased =>
      refine ⟨[op], governor, s.balanced.step op, (List.Perm.of_eq ids).trans s.holders,
        s.order_of_ids ids, ?_⟩
      refine s.backed_of_found fun m member => others m.block ?_
      rintro rfl
      exact s.not_leased member (List.contains_iff_mem.mp leased)
  · exact ⟨[], s⟩

theorem sweep (s : h.Held p r) (direction : Direction) :
    ∃ ops, (h.sweep direction).hub.Held (p.run ops).1 (ops.foldl Pool.Roll.record r) := by
  refine ⟨[.sweep direction], ?_⟩
  simp only [Hub.sweep, s.governor]
  refine ⟨rfl, s.balanced.sweep direction, ?_, ?_, fun m member => ?_⟩
  · exact (List.Perm.of_eq (p.ids_sweep direction)).trans s.holders
  · exact s.order_of_ids (p.ids_sweep direction)
  · obtain ⟨b, found, backed⟩ := s.backed m member
    obtain ⟨reached, swept⟩ := p.find?_sweep direction m.block
    rw [found] at swept
    exact ⟨_, swept, backed.resized reached direction⟩

theorem steer (s : h.Held p r) (act : Gate → Gate × List Effect) : h.steer act = h.missing := by
  simp only [Hub.steer, s.governor]

/-- To the pool, an operation of the hub is a run of its own. -/
theorem step (s : h.Held p r) (op : Op) :
    ∃ ops, (h.step op).hub.Held (p.run ops).1 (ops.foldl Pool.Roll.record r) := by
  cases op with
  | openBatch config =>
      by_cases valid : config.Valid
      · exact s.openBatch valid
      · refine ⟨[], ?_⟩
        rw [Hub.step, openBatch_invalid h valid]
        exact s
  | act block op => exact s.act block op
  | drop block answers => exact s.drop block answers
  | allocate bytes => exact s.allocate bytes
  | install block policy =>
      refine s.onLease block (.install block policy) ?_ (p.ids_install block policy)
        fun id apart => Pool.find?_install_of_ne apart
      rw [s.governor]
      rfl
  | closeLease block =>
      refine s.onLease block (.close block) ?_ (p.ids_close block)
        fun id apart => Pool.find?_close_of_ne apart
      rw [s.governor]
      rfl
  | dropLease block => exact s.dropLease block
  | sweep direction => exact s.sweep direction
  | setUsage bytes =>
      refine ⟨[], ?_⟩
      rw [Hub.step, s.steer]
      exact s
  | press direction =>
      refine ⟨[], ?_⟩
      rw [Hub.step, s.steer]
      exact s
  | wait nanoseconds => exact ⟨[], s.of_same rfl rfl rfl⟩

theorem run (s : h.Held p r) (ops : List Op) :
    ∃ asked, (h.run ops).1.Held (p.run asked).1 (asked.foldl Pool.Roll.record r) := by
  induction ops generalizing h p r with
  | nil => exact ⟨[], s⟩
  | cons op rest ih =>
      obtain ⟨first, next⟩ := s.step op
      obtain ⟨later, last⟩ := ih next
      refine ⟨first ++ later, ?_⟩
      rw [Pool.run_append, List.foldl_append]
      exact last

end Held
end Hub
end ElasticBatch
