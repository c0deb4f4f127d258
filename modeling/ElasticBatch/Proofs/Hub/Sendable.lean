import ElasticBatch.Proofs.Hub.Loop
import ElasticBatch.Proofs.Request.Framing

/-! Requests under the documented loop. The loop bounds the payload of a batch, and framing at most
doubles it, so what the batch asks to send is within the limit of a message. -/
namespace ElasticBatch.Hub

/-- Not empty, and small enough to fit on top of what the batch may hold before. -/
def Sane (config : Config) (entry : Entry) : Prop :=
  entry.encoded.bytes ≠ [] ∧
    config.sizeBytes.toNat - 1 + entry.encoded.bytes.length ≤ (Request.limit - 15) / 2

instance (config : Config) (entry : Entry) : Decidable (Sane config entry) :=
  inferInstanceAs (Decidable (_ ∧ _))

/-- All that was ever appended to a batch in a run. -/
def appendedTo (h : Hub) (block : Nat) (ops : List Op) : List Entry :=
  (Manifest.history {} (h.callsTo block ops)).flatMap Occurrence.admissions

/-- Under the documented loop, and with buffers of a sane size, the request of a batch can be sent
at any time, and it is received as it was. -/
theorem always_sendable (capacity : Word) (ops : List Op) (block : Nat) (m : Member)
    (found : ((ofCapacity capacity).run ops).1.member? block = some m)
    (heeds : (ofCapacity capacity).Heeds block false ops)
    (sane : ∀ entry ∈ (ofCapacity capacity).appendedTo block ops, Sane m.batch.config entry) :
    ∃ e, m.batch.assemble.encode = .ok e ∧ Request.decode e.toByteArray = .ok m.batch.assemble := by
  have course := course capacity found
  have alone := heeds_alone capacity found heeds
  have positive := (valid_of_run capacity found).positive
  have start := Batch.holds_ofConfig m.batch.config
  have fit : (Batch.ofConfig m.batch.config).Fit ((Request.limit - 15) / 2)
      (Manifest.history {} ((ofCapacity capacity).callsTo block ops)) :=
    fun entry listed => (sane entry listed).2
  have bounded := start.size_run (fun _ => positive) positive (Nat.zero_le _) (by decide)
    course.limits alone fit
  have holds := start.run ((ofCapacity capacity).callsTo block ops)
  rw [← course.batch] at holds
  refine Request.sendable (fun bytes sent => ?_) ?_
  · obtain ⟨entry, kept, rfl⟩ := holds.mem_buffers sent
    -- what is there now was appended at some time
    have conserved := Manifest.entries_foldl {} (fun _ => rfl)
      ((ofCapacity capacity).callsTo block ops)
    have appended : entry ∈ (ofCapacity capacity).appendedTo block ops := by
      rw [List.nil_append] at conserved
      rw [appendedTo, conserved]
      exact List.mem_append_right _ kept
    exact (sane entry appended).1
  · rw [holds.totalBytes_assemble]
    exact bounded

theorem pressed_can_be_sent :
    let ops := pressed ++ [.act 0 (.offer (Batch.loneOffer 3 (.binary [7, 8, 9])))]
    let r : Request := { binary := [[7, 8, 9]] }
    (ofCapacity 100).Heeds 0 false ops ∧
      (∀ entry ∈ (ofCapacity 100).appendedTo 0 ops, Sane ⟨1, 8⟩ entry) ∧
      ∃ m e, ((ofCapacity 100).run ops).1.member? 0 = some m ∧ m.batch.assemble = r ∧
        r.encode = .ok e ∧ Request.decode e.toByteArray = .ok r := by
  intro ops r
  have heeds : (ofCapacity 100).Heeds 0 false ops := by decide
  have sane : ∀ entry ∈ (ofCapacity 100).appendedTo 0 ops, Sane ⟨1, 8⟩ entry := by decide
  obtain ⟨m, found, config, request⟩ :
      ∃ m, ((ofCapacity 100).run ops).1.member? 0 = some m ∧ m.batch.config = ⟨1, 8⟩ ∧
        m.batch.assemble = r := ⟨_, rfl, rfl, rfl⟩
  obtain ⟨e, written, back⟩ := always_sendable 100 ops 0 m found heeds (config ▸ sane)
  rw [request] at written back
  exact ⟨heeds, sane, m, e, found, request, written, back⟩

end ElasticBatch.Hub
