import ElasticBatch.Proofs.Hub.Alone

/-! The budgets of batches that share a pool. No limit exceeds what its batch asked for, the limits
and the other open blocks add up to what is handed out, and a batch that ends gives back exactly its
limit, once. -/
namespace ElasticBatch

namespace Pool

/-- Someone holds the block and has not closed it. -/
def isOpen (p : Pool) (id : Nat) : Bool := (p.find? id).any (!·.released)

theorem Balanced.used_giveBack {p : Pool} {r : Roll} (h : p.Balanced r) (id : Nat) :
    (p.ledger.giveBack (p.usage id)).used.toNat + (p.usage id).toNat = p.ledger.used.toNat := by
  have back := Ledger.toNat_used_back (h.fits_usage id)
  have backed := h.backed id
  change (p.ledger.giveBack (p.usage id)).used.toNat = _ at back
  omega

/-- One block has given back what it had, and nothing else has changed. -/
structure Returned (id : Nat) (p q : Pool) : Prop where
  capacity : q.ledger.capacity = p.ledger.capacity
  used : q.ledger.used.toNat + (p.usage id).toNat = p.ledger.used.toNat
  gone : q.usage id = 0
  others : ∀ other, other ≠ id → q.usage other = p.usage other

namespace Returned

variable {id : Nat} {p q t : Pool} {r : Roll}

theorem of_gone (gone : p.usage id = 0) : Returned id p p where
  capacity := rfl
  used := by rw [gone]; rfl
  gone := gone
  others _ _ := rfl

theorem trans (first : Returned id p q) (second : Returned id q t) : Returned id p t where
  capacity := second.capacity.trans first.capacity
  used := by
    have back := second.used
    rw [first.gone, UInt64.toNat_zero, Nat.add_zero] at back
    rw [back]
    exact first.used
  gone := second.gone
  others other apart := (second.others other apart).trans (first.others other apart)

theorem close (h : p.Balanced r) {b : Block} (found : p.find? id = some b) :
    Returned id p (p.close id) where
  capacity := by rw [h.close_eq id]; rfl
  used := by rw [h.close_eq id]; exact h.used_giveBack id
  gone := usage_of_find? (h.find?_close_self found)
  others _ apart := usage_congr (find?_close_of_ne apart)

theorem drop (h : p.Balanced r) (id : Nat) : Returned id p (p.drop id) where
  capacity := by rw [h.drop_eq id]; rfl
  used := by rw [h.drop_eq id]; exact h.used_giveBack id
  gone := usage_of_absent (p.find?_drop_self id)
  others _ apart := usage_congr (find?_drop_of_ne apart)

/-- Who has nothing gives nothing back. -/
theorem unchanged (h : Returned id p q) (gone : p.usage id = 0) :
    q.ledger = p.ledger ∧ ∀ other, q.usage other = p.usage other := by
  have used := h.used
  rw [gone, UInt64.toNat_zero, Nat.add_zero] at used
  have same : q.ledger.used = p.ledger.used := UInt64.toNat_inj.mp used
  refine ⟨?_, fun other => ?_⟩
  · cases before : p.ledger
    cases after : q.ledger
    have capacity := h.capacity
    rw [before, after] at same capacity
    cases same
    cases capacity
    rfl
  · by_cases here : other = id
    · rw [here, gone, h.gone]
    · exact h.others other here

end Returned
end Pool

/-- What counts for nothing may be left out of a sum. -/
theorem sum_filter_of_zero {α : Type} {keep : α → Bool} {size : α → Nat} {xs : List α}
    (nothing : ∀ x ∈ xs, keep x = false → size x = 0) :
    ((xs.filter keep).map size).sum = (xs.map size).sum := by
  induction xs with
  | nil => rfl
  | cons x rest ih =>
      obtain ⟨here, later⟩ := List.forall_mem_cons.mp nothing
      rw [List.filter_cons, List.map_cons, List.sum_cons, ← ih later]
      cases kept : keep x with
      | true => rfl
      | false => rw [here kept, Nat.zero_add]; rfl

namespace Hub

/-- The calls that end a batch. -/
inductive Op.Ends (block : Nat) : Op → Prop
  | close (answers : Nat → Bool) : Op.Ends block (.act block (.close answers))
  | drop (answers : Nat → Bool) : Op.Ends block (.drop block answers)

/-- The bytes of all open batches and of all other open blocks. -/
def openBytes (h : Hub) (p : Pool) : Nat :=
  ((h.members.filter (!·.batch.closed)).map fun m => (h.limit m).toNat).sum +
    ((h.leases.filter p.isOpen).map fun id => (p.usage id).toNat).sum

theorem governor_act (h : Hub) (block : Nat) {op : Batch.Op} (goesOn : op.closes = false) :
    (h.act block op).hub.governor = h.governor := by
  cases found : h.member? block with
  | none => simp only [act, found, missing]
  | some m =>
      rw [(act_found found op).2]
      exact if_neg (by simp [goesOn])

namespace Held

variable {h : Hub} {p : Pool} {r : Pool.Roll} {block : Nat} {m : Member}

theorem limit_of_closed (s : h.Held p r) (member : m ∈ h.members) (shut : m.batch.closed = true) :
    p.usage m.block = 0 := by
  obtain ⟨b, found, backed⟩ := s.backed m member
  exact s.balanced.usage_of_released found (backed.released.trans shut)

theorem openBytes_eq (s : h.Held p r) : h.openBytes p = p.ledger.used.toNat := by
  have members : ∀ m ∈ h.members, (!m.batch.closed) = false → (h.limit m).toNat = 0 := by
    intro m member shut
    rw [s.limit_eq, s.limit_of_closed member (by simpa using shut)]
    rfl
  have leases : ∀ id ∈ h.leases, p.isOpen id = false → (p.usage id).toNat = 0 := by
    intro id leased shut
    obtain ⟨b, found⟩ := s.exists_lease leased
    have released : b.released = true := by simpa [Pool.isOpen, found] using shut
    rw [s.balanced.usage_of_released found released]
    rfl
  rw [openBytes, sum_filter_of_zero members, sum_filter_of_zero leases, s.balanced.used_eq_sum,
    (s.holders.map _).sum_nat, List.map_append, List.sum_append, List.map_map]
  simp only [s.limit_eq]
  rfl

/-! The end of a batch. -/

theorem returned_close (s : h.Held p r) (found : h.member? block = some m)
    (answers : Nat → Bool) :
    ∃ q, (h.act block (.close answers)).hub.governor = .elastic q ∧
      Pool.Returned block p q := by
  obtain ⟨listed, rfl⟩ := member?_some found
  refine ⟨_, s.act_governor found (.close answers), ?_⟩
  cases shut : m.batch.closed with
  | true => exact .of_gone (s.limit_of_closed listed shut)
  | false =>
      obtain ⟨b, owned, -⟩ := s.backed m listed
      exact .close s.balanced owned

theorem returned (s : h.Held p r) (found : h.member? block = some m) {op : Op}
    (ends : op.Ends block) :
    ∃ q, (h.step op).hub.governor = .elastic q ∧ Pool.Returned block p q := by
  cases ends with
  | close answers => exact s.returned_close found answers
  | drop answers =>
      obtain ⟨q, governor, back⟩ := s.returned_close found answers
      obtain ⟨asked, closed⟩ := s.act block (.close answers)
      have same : q = (p.run asked).1 := Governor.elastic.inj (governor.symm.trans closed.governor)
      subst same
      refine ⟨_, ?_, back.trans (.drop closed.balanced block)⟩
      simp only [Hub.step, Hub.drop, found, governor]
      rfl

/-- Whatever ends a batch, from then on it is closed or gone. -/
theorem finished_after (h : Hub) {op : Op} (ends : op.Ends block) :
    ∀ m, (h.step op).hub.member? block = some m → m.batch.closed = true := by
  intro m there
  cases ends with
  | close answers =>
      cases found : h.member? block with
      | none =>
          simp only [Hub.step, Hub.act, found] at there
          change h.member? block = some m at there
          rw [found] at there
          cases there
      | some before =>
          rw [Hub.step, member?_act_self found] at there
          cases there
          rw [Batch.closed_step_eq]
          exact Bool.or_true _
  | drop answers =>
      rw [Hub.step, member?_drop_self] at there
      cases there

theorem finished_run (s : h.Held p r) (known : block < p.serial)
    (finished : ∀ m, h.member? block = some m → m.batch.closed = true) (ops : List Op) :
    ∀ m, (h.run ops).1.member? block = some m → m.batch.closed = true := by
  intro m there
  obtain ⟨before, found, took⟩ := kept_run (s.next_eq ▸ known) there
  rw [took.batch]
  exact Batch.closed_run _ (finished before found)

theorem effects_of_finished (h : Hub)
    (finished : ∀ m, h.member? block = some m → m.batch.closed = true)
    {op : Op} (ends : op.Ends block) : (h.step op).effects = [] := by
  have quiet (answers : Nat → Bool) : (h.act block (.close answers)).effects = [] := by
    cases found : h.member? block with
    | none =>
        simp only [Hub.act, found]
        rfl
    | some m =>
        have shut := finished m found
        simp [Hub.act, found, Batch.step_close_again _ shut, shut, Batch.Outcome.effects]
  cases ends with
  | close answers => exact quiet answers
  | drop answers =>
      cases found : h.member? block with
      | none =>
          simp only [Hub.step, Hub.drop, found]
          rfl
      | some m =>
          simp only [Hub.step, Hub.drop, found]
          exact quiet answers

/-- To end a batch again does nothing more. -/
theorem nothing_left (s : h.Held p r)
    (finished : ∀ m, h.member? block = some m → m.batch.closed = true) {op : Op}
    (ends : op.Ends block) :
    ∃ q, (h.step op).hub.governor = .elastic q ∧ q.ledger = p.ledger ∧
      ∀ id, q.usage id = p.usage id := by
  cases found : h.member? block with
  | none =>
      refine ⟨p, ?_, rfl, fun _ => rfl⟩
      cases ends with
      | close answers =>
          simp only [Hub.step, Hub.act, found]
          exact s.governor
      | drop answers =>
          simp only [Hub.step, Hub.drop, found]
          exact s.governor
  | some m =>
      obtain ⟨q, governor, back⟩ := s.returned found ends
      obtain ⟨listed, rfl⟩ := member?_some found
      exact ⟨q, governor, back.unchanged (s.limit_of_closed listed (finished m found))⟩

/-! The beginning of a batch. -/

theorem opened (s : h.Held p r) {config : Config} (valid : config.Valid) :
    ∃ q, (h.step (.openBatch config)).hub.governor = .elastic q ∧
      q.usage p.serial = min config.sizeBytes p.ledger.free ∧
      q.ledger.used.toNat =
        p.ledger.used.toNat + (min config.sizeBytes p.ledger.free).toNat ∧
      ∀ id, id ≠ p.serial → q.usage id = p.usage id := by
  have new := s.balanced.find?_allocate config.sizeBytes
  have fits := s.balanced.within.fits_grant config.sizeBytes
  refine ⟨_, congrArg Hub.governor (openBatch_valid s.governor valid).2, ?_, ?_, ?_⟩
  · exact Pool.usage_of_find? (Pool.find?_install_self new)
  · exact Ledger.toNat_used_out fits
  · intro id apart
    exact Pool.usage_congr
      ((Pool.find?_install_of_ne apart).trans (Pool.find?_allocate_of_ne apart))

theorem member?_opened (s : h.Held p r) {config : Config} (valid : config.Valid) :
    (h.step (.openBatch config)).hub.member? p.serial =
      some ⟨p.serial, Batch.ofConfig config⟩ := by
  have absent := s.absent (Nat.le_refl p.serial)
  rw [Hub.step, (openBatch_valid s.governor valid).2]
  unfold member? at absent ⊢
  rw [List.find?_append, absent, Option.none_or]
  exact find?_cons_of_eq Member.block rfl

end Held

/-- Batches and leases share a capacity. After every run the limit of each batch is at most what it
asked for, and the limits of the open batches and the other open blocks add up to what is handed
out, which is at most the capacity. Offers and resets leave every budget alone. What ends a batch
gives back exactly its limit, and whatever comes later, to end it again does nothing. To open a
batch takes what is asked for or what is free, if the settings are valid, and else does nothing but
report the settings. -/
theorem budgets_shared (capacity : Word) (ops : List Op) :
    let h := ((ofCapacity capacity).run ops).1
    ∃ p, h.governor = .elastic p ∧ p.ledger.capacity = capacity ∧
      (∀ m ∈ h.members, h.limit m ≤ m.batch.config.sizeBytes) ∧
      h.openBytes p = p.ledger.used.toNat ∧ p.ledger.used ≤ capacity ∧
      (∀ block o, (h.step (.act block (.offer o))).hub.governor = h.governor) ∧
      (∀ block, (h.step (.act block .reset)).hub.governor = h.governor) ∧
      (∀ m ∈ h.members, ∀ op, op.Ends m.block →
        (∃ q, (h.step op).hub.governor = .elastic q ∧ Pool.Returned m.block p q) ∧
        ∀ later again, again.Ends m.block →
          let ended := ((h.step op).hub.run later).1
          ∃ q t, ended.governor = .elastic q ∧ (ended.step again).hub.governor = .elastic t ∧
            t.ledger = q.ledger ∧ (∀ id, t.usage id = q.usage id) ∧
            (ended.step again).effects = []) ∧
      ∀ config,
        (config.Valid → ∃ block q,
          (h.step (.openBatch config)).reply = .opened block ∧
          h.member? block = none ∧
          (h.step (.openBatch config)).hub.member? block =
            some ⟨block, Batch.ofConfig config⟩ ∧
          (h.step (.openBatch config)).hub.governor = .elastic q ∧
          q.usage block = min config.sizeBytes p.ledger.free ∧
          q.ledger.used.toNat =
            p.ledger.used.toNat + (min config.sizeBytes p.ledger.free).toNat ∧
          ∀ id, id ≠ block → q.usage id = p.usage id) ∧
        (¬ config.Valid → ∃ fault : Config.Fault,
          h.step (.openBatch config) = ⟨h, .refused fault, []⟩ ∧
          ∀ tell, ∃ cause, fault.error tell = .configuration cause) := by
  intro h
  obtain ⟨asked, s⟩ := (Held.start capacity).run ops
  have fixed : ((Pool.ofCapacity capacity).run asked).1.ledger.capacity = capacity :=
    (Pool.Balanced.start capacity).capacity_run asked
  refine ⟨_, s.governor, fixed, fun m => s.limit_le, s.openBytes_eq, ?_,
    fun block o => h.governor_act block rfl, fun block => h.governor_act block rfl, ?_,
    fun config => ⟨?_, ?_⟩⟩
  · have within := s.balanced.within
    rw [Ledger.Within, fixed] at within
    exact UInt64.le_iff_toNat_le.mpr within
  · intro m member op ends
    have found := s.member?_of_mem member
    refine ⟨s.returned found ends, fun later again more => ?_⟩
    obtain ⟨first, next⟩ := s.step op
    have known := Nat.lt_of_lt_of_le (s.lt_serial member) (Pool.serial_run _ first)
    have finished := next.finished_run known (Held.finished_after h ends) later
    obtain ⟨second, last⟩ := next.run later
    obtain ⟨t, governor, books, sizes⟩ := last.nothing_left finished more
    exact ⟨_, t, last.governor, governor, books, sizes, Held.effects_of_finished _ finished more⟩
  · intro valid
    obtain ⟨q, governor, granted, used, others⟩ := s.opened valid
    exact ⟨_, q, (openBatch_valid s.governor valid).1, s.absent (Nat.le_refl _),
      s.member?_opened valid, governor, granted, used, others⟩
  · intro invalid
    exact ⟨_, openBatch_invalid h invalid, fun tell => ⟨_, rfl⟩⟩

end Hub
end ElasticBatch
