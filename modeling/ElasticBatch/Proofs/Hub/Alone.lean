import ElasticBatch.Proofs.Hub.Origin

/-! Batches that share a pool. The limit that a batch finds never exceeds what it asked for. -/
namespace ElasticBatch.Hub

variable {h : Hub} {p : Pool} {r : Pool.Roll} {block : Nat} {m : Member}

/-- A batch has come so far by its own calls, none of them under a limit beyond what it asked
for. -/
structure Course (start : Batch) (calls : List (Batch.Moment × Batch.Op)) (after : Batch) :
    Prop where
  batch : after = (start.run calls).1
  limits : ∀ call ∈ calls, call.1.limit ≤ start.config.sizeBytes

theorem Held.limits_callTo (s : h.Held p r) (found : h.member? block = some m) (op : Op) :
    ∀ call ∈ h.callTo block op, call.1.limit ≤ m.batch.config.sizeBytes := by
  intro call made
  rw [limit_of_mem_callTo found made]
  exact s.limit_le (member?_some found).1

theorem Held.next_eq (s : h.Held p r) : h.governor.next = p.serial := by
  rw [s.governor]
  rfl

/-- Who holds a block now found it under the same settings at each call. -/
theorem Held.limits_callsTo (s : h.Held p r) {ops : List Op}
    (found : (h.run ops).1.member? block = some m) :
    ∀ call ∈ h.callsTo block ops, call.1.limit ≤ m.batch.config.sizeBytes := by
  induction ops generalizing h p r with
  | nil => exact nofun
  | cons op rest ih =>
      obtain ⟨asked, next⟩ := s.step op
      refine List.forall_mem_append.mpr ⟨fun call made => ?_, ih next found⟩
      cases here : h.member? block with
      | none =>
          rw [callTo_of_absent here] at made
          cases made
      | some n =>
          obtain ⟨before, same, took⟩ := kept_run (s.next_eq ▸ s.granted here) found
          cases here.symm.trans same
          rw [took.config]
          exact s.limits_callTo here op call made

theorem Held.absent (s : h.Held p r) (fresh : p.serial ≤ block) : h.member? block = none := by
  refine Option.eq_none_iff_forall_ne_some.mpr fun m there => ?_
  exact Nat.not_lt.mpr fresh (s.granted there)

/-- Every batch of a hub is where its own calls alone would have brought it. -/
theorem course (capacity : Word) {ops : List Op}
    (found : ((ofCapacity capacity).run ops).1.member? block = some m) :
    Course (Batch.ofConfig m.batch.config) ((ofCapacity capacity).callsTo block ops) m.batch where
  batch := (took_run _ found).batch
  limits := (Held.start capacity).limits_callsTo found

end ElasticBatch.Hub
