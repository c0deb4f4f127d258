import ElasticBatch.Proofs.Batch.Accounts
import ElasticBatch.Proofs.Hub.Holding
import ElasticBatch.Proofs.Pool.Notices
import Mathlib.Data.List.Flatten

/-! The lines about limits in the log of a shared pool. Each sweep writes one line for each batch
whose limit it changed, in the order in which the batches were opened, and nothing else writes such
lines. -/
namespace ElasticBatch

/-- The line in which a batch logs that its limit changed. -/
def limitLine : Direction → Word → Word → String
  | .shrink, old, new =>
    "INFO: " ++ ("The batch size limit has shrunk from " ++ toString old ++ " to " ++ toString new)
  | .expand, old, new =>
    "INFO: " ++
      ("The batch size limit has expanded from " ++ toString old ++ " to " ++ toString new)

/-- The line that is due for a limit before and after. -/
def limitLine? (old new : Word) : List String :=
  if new < old then [limitLine .shrink old new]
  else if old < new then [limitLine .expand old new]
  else []

/-- The lines in the log that tell of limits. -/
def limitLines (effects : List Effect) : List String :=
  ((logsOf effects).filter (·.opens .info "The batch size limit has ")).map Log.line

theorem limitLines_call (c : Call) (rest : List Effect) :
    limitLines (.call c :: rest) = limitLines rest := rfl

theorem limitLines_log (l : Log) (rest : List Effect) :
    limitLines (.log l :: rest) =
      (if l matches .limitShrunk .. | .limitExpanded .. then [l.line] else []) ++
        limitLines rest := by
  change List.map Log.line (List.filter _ (l :: logsOf rest)) = _
  rw [List.filter_cons, l.opens_limit]
  cases l <;> rfl

theorem limitLines_append (a b : List Effect) :
    limitLines (a ++ b) = limitLines a ++ limitLines b := by
  rw [limitLines, logsOf_append, List.filter_append, List.map_append]
  rfl

theorem limitLines_flatMap {α : Type} (xs : List α) (f : α → List Effect) :
    limitLines (xs.flatMap f) = xs.flatMap fun x => limitLines (f x) := by
  induction xs with
  | nil => rfl
  | cons x rest ih => rw [List.flatMap_cons, limitLines_append, ih, List.flatMap_cons]

theorem limitLine?_self (size : Word) : limitLine? size size = [] := by
  simp [limitLine?]

theorem limitLine?_of_moves {direction : Direction} {old new : Word}
    (moves : direction.Moves old new) : limitLine? old new = [limitLine direction old new] := by
  cases direction with
  | shrink => exact if_pos moves
  | expand =>
      have grows : ¬ new < old := UInt64.lt_asymm moves
      rw [limitLine?, if_neg grows]
      exact if_pos moves

/-- Elements that add nothing may be skipped. -/
theorem flatMap_of_sublist {α β : Type} {f : α → List β} {xs ys : List α} (sub : xs.Sublist ys)
    (distinct : ys.Nodup) (nothing : ∀ y ∈ ys, y ∉ xs → f y = []) :
    ys.flatMap f = xs.flatMap f := by
  induction sub with
  | slnil => rfl
  | cons y sub ih =>
      obtain ⟨apart, distinct⟩ := List.nodup_cons.mp distinct
      obtain ⟨here, later⟩ := List.forall_mem_cons.mp nothing
      rw [List.flatMap_cons, here fun member => apart (sub.subset member), ih distinct later]
      rfl
  | cons_cons y sub ih =>
      obtain ⟨apart, distinct⟩ := List.nodup_cons.mp distinct
      obtain ⟨-, later⟩ := List.forall_mem_cons.mp nothing
      rw [List.flatMap_cons, List.flatMap_cons, ih distinct]
      intro z member absent
      refine later z member fun listed => ?_
      rcases List.mem_cons.mp listed with rfl | earlier
      · exact apart member
      · exact absent earlier

namespace Policy

/-- No callback of the policy writes a line like those in which batches tell of their limits. -/
def Unlined (p : Policy) : Prop :=
  ∀ call, (p.onShrink = some call ∨ p.onExpand = some call) →
    ∀ old new, limitLines (call old new) = []

theorem limitLines_journaled (p : Policy) (direction : Direction) (old new : Word) :
    limitLines (p.journaled.notify direction old new) = [limitLine direction old new] := by
  cases direction with
  | shrink => exact limitLines_log (.limitShrunk old new) []
  | expand => exact limitLines_log (.limitExpanded old new) []

theorem Unlined.notify {p : Policy} (unlined : p.Unlined) (direction : Direction)
    (old new : Word) : limitLines (p.notify direction old new) = [] := by
  rcases p.notify_cases direction old new with nothing | ⟨call, set, same⟩
  · rw [nothing]
    rfl
  · rw [same]
    exact unlined call set old new

theorem unlined_fixed : fixed.Unlined := by
  rintro call (set | set) <;> cases set

end Policy

/-! A batch by itself writes no such line. -/

namespace Batch

theorem limitLines_releases (answers : Nat → Bool) (place : Nat) (events : List Event) :
    limitLines (releases answers place events) = [] := by
  rw [limitLines, Occurrence.filter_releases (by simp [Log.opens_limit])]
  rfl

theorem limitLines_effects (o : Offer) (verdict : Verdict) :
    limitLines (effects o verdict) = [] := by
  cases verdict with
  | failed failure =>
      cases kind : failure.kind <;> cases back : o.released <;>
        simp only [effects, Payload.Failure.effects, kind, back, limitLines_append,
          limitLines_log, limitLines_call] <;> rfl
  | _ =>
      simp only [effects, limitLines_log, limitLines_call]
      rfl

theorem limitLines_step (b : Batch) (m : Moment) (op : Op) :
    limitLines (b.step m op).work = [] ∧ limitLines (b.step m op).farewell = [] := by
  cases op with
  | offer o =>
      rw [step_offer]
      exact ⟨limitLines_effects o _, rfl⟩
  | reset =>
      exact ⟨limitLines_log (.acknowledged b.retained.length) [], rfl⟩
  | close answers =>
      cases shut : b.closed with
      | true =>
          rw [step_close_again m shut]
          exact ⟨rfl, rfl⟩
      | false =>
          rw [step_close m shut]
          exact ⟨limitLines_releases answers 0 b.retained,
            limitLines_log (.closed b.retained.length) []⟩

end Batch

namespace Hub

/-- Nobody gets a policy that writes such lines, apart from the batches. -/
def Op.Unlined : Op → Prop
  | .install _ policy => policy.Unlined
  | _ => True

/-- The limits that an operation changes: whose, and the line that tells so. -/
def toldBy (h : Hub) (op : Op) : List (Nat × String) :=
  match op with
  | .sweep _ => h.members.flatMap fun m =>
    (limitLine? (h.limit m) ((h.step op).hub.limit m)).map fun line => (m.block, line)
  | _ => []

/-- The limits that a run changes, in order. -/
def told (h : Hub) : List Op → List (Nat × String)
  | [] => []
  | op :: rest => h.toldBy op ++ (h.step op).hub.told rest

variable {h : Hub} {p : Pool} {r : Pool.Roll} {block : Nat} {m : Member}

/-- The leases write no such lines. -/
def Unlined (h : Hub) (p : Pool) : Prop :=
  ∀ id ∈ h.leases, ∀ b, p.find? id = some b → b.policy.Unlined

theorem Unlined.of_found (unlined : h.Unlined p) {after : Hub} {q : Pool}
    (leases : ∀ id ∈ after.leases, id ∈ h.leases)
    (same : ∀ id ∈ after.leases, q.find? id = p.find? id) : after.Unlined q := by
  intro id leased b found
  exact unlined id (leases id leased) b ((same id leased).symm.trans found)

theorem leases_act (h : Hub) (block : Nat) (op : Batch.Op) :
    (h.act block op).hub.leases = h.leases := by
  cases found : h.member? block with
  | none => simp only [act, found, missing]
  | some m => rw [(act_found found op).2]; rfl

namespace Held

theorem lease_ne_serial (s : h.Held p r) {id : Nat} (leased : id ∈ h.leases) : id ≠ p.serial := by
  obtain ⟨_, found⟩ := s.exists_lease leased
  exact Nat.ne_of_lt (s.balanced.lt_serial found)

/-- What is held apart from any batch is no batch's budget. -/
theorem ne_lease (s : h.Held p r) (found : h.member? block = some m) {lease : Nat}
    (leased : lease ∈ h.leases) : lease ≠ block := by
  obtain ⟨listed, rfl⟩ := member?_some found
  rintro rfl
  exact s.not_leased listed leased

/-! The policies of the leases. -/

theorem find?_act (s : h.Held p r) {op : Batch.Op} {q : Pool}
    (after : (h.act block op).hub.governor = .elastic q) {id : Nat} (leased : id ∈ h.leases) :
    q.find? id = p.find? id := by
  cases found : h.member? block with
  | none =>
      simp only [Hub.act, found, missing] at after
      cases s.governor.symm.trans after
      rfl
  | some m =>
      cases (s.act_governor found op).symm.trans after
      split
      · exact Pool.find?_close_of_ne (s.ne_lease found leased)
      · rfl

theorem unlined_onLease (s : h.Held p r) (unlined : h.Unlined p) {lease : Nat}
    {act : Governor → Governor × List Effect} {t q : Pool}
    (governor : (act h.governor).1 = .elastic t)
    (changed : lease ∈ h.leases → ∀ b, t.find? lease = some b → b.policy.Unlined)
    (others : ∀ id, id ≠ lease → t.find? id = p.find? id)
    (after : (h.onLease lease act).hub.governor = .elastic q) :
    (h.onLease lease act).hub.Unlined q := by
  unfold Hub.onLease at after ⊢
  split at after
  · next leased =>
      rw [if_pos leased]
      cases governor.symm.trans after
      intro id member b found
      by_cases here : id = lease
      · exact changed (List.contains_iff_mem.mp leased) b (here ▸ found)
      · exact unlined id member b ((others id here).symm.trans found)
  · next free =>
      rw [if_neg free]
      cases s.governor.symm.trans after
      exact unlined

theorem unlined_same (s : h.Held p r) (unlined : h.Unlined p) {after : Hub} {q : Pool}
    (untouched : after = h) (governor : after.governor = .elastic q) : after.Unlined q := by
  rw [untouched] at governor ⊢
  cases s.governor.symm.trans governor
  exact unlined

theorem unlined_opened (s : h.Held p r) (unlined : h.Unlined p) (config : Config) {q : Pool}
    (after : (h.step (.openBatch config)).hub.governor = .elastic q) :
    (h.step (.openBatch config)).hub.Unlined q := by
  by_cases valid : config.Valid
  · have opened := (openBatch_valid s.governor valid).2
    rw [Hub.step, opened] at after ⊢
    cases after
    refine unlined.of_found (fun _ leased => leased) fun id leased => ?_
    have apart := s.lease_ne_serial leased
    exact (Pool.find?_install_of_ne apart).trans (Pool.find?_allocate_of_ne apart)
  · exact s.unlined_same unlined (by rw [Hub.step, openBatch_invalid h valid]) after

theorem unlined_drop (s : h.Held p r) (unlined : h.Unlined p) (answers : Nat → Bool) {q : Pool}
    (after : (h.drop block answers).hub.governor = .elastic q) :
    (h.drop block answers).hub.Unlined q := by
  cases found : h.member? block with
  | none => exact s.unlined_same unlined (by simp only [Hub.drop, found, missing]) after
  | some m =>
      obtain ⟨asked, closed⟩ := s.act block (.close answers)
      have leases := h.leases_act block (.close answers)
      simp only [Hub.drop, found, closed.governor] at after ⊢
      cases after
      refine unlined.of_found (fun id leased => leases ▸ leased) fun id leased => ?_
      have mine : id ∈ h.leases := leases ▸ leased
      exact (Pool.find?_drop_of_ne (s.ne_lease found mine)).trans (s.find?_act closed.governor mine)

/-- What is granted anew has no callbacks. -/
theorem unlined_allocate (s : h.Held p r) (unlined : h.Unlined p) (bytes : Word) {q : Pool}
    (after : (h.allocate bytes).hub.governor = .elastic q) :
    (h.allocate bytes).hub.Unlined q := by
  simp only [Hub.allocate, s.governor] at after ⊢
  cases after
  intro id leased b found
  rcases List.mem_append.mp leased with earlier | new
  · have apart := s.lease_ne_serial earlier
    exact unlined id earlier b ((Pool.find?_allocate_of_ne apart).symm.trans found)
  · obtain rfl := List.mem_singleton.mp new
    cases (s.balanced.find?_allocate bytes).symm.trans found
    exact Policy.unlined_fixed

theorem unlined_dropLease (s : h.Held p r) (unlined : h.Unlined p) (lease : Nat) {q : Pool}
    (after : (h.dropLease lease).hub.governor = .elastic q) :
    (h.dropLease lease).hub.Unlined q := by
  by_cases leased : h.leases.contains lease = true
  · rw [Hub.dropLease, if_pos leased] at after ⊢
    rw [s.governor] at after
    cases after
    refine unlined.of_found (fun id kept => (List.mem_filter.mp kept).1) fun id kept => ?_
    exact Pool.find?_drop_of_ne (bne_iff_ne.mp (List.mem_filter.mp kept).2)
  · exact s.unlined_same unlined (by rw [Hub.dropLease, if_neg leased]; rfl) after

/-- A sweep leaves the policies as they are. -/
theorem unlined_sweep (s : h.Held p r) (unlined : h.Unlined p) (direction : Direction) {q : Pool}
    (after : (h.step (.sweep direction)).hub.governor = .elastic q) :
    (h.step (.sweep direction)).hub.Unlined q := by
  rw [step_sweep s.governor] at after ⊢
  cases after
  intro id leased b found
  obtain ⟨reached, swept⟩ := p.find?_sweep direction id
  obtain ⟨c, before, rfl⟩ := Option.map_eq_some_iff.mp (swept.symm.trans found)
  exact unlined id leased c before

theorem unlined_step (s : h.Held p r) (unlined : h.Unlined p) {op : Op} (kept : op.Unlined)
    {q : Pool} (after : (h.step op).hub.governor = .elastic q) : (h.step op).hub.Unlined q := by
  cases op with
  | openBatch config => exact s.unlined_opened unlined config after
  | act block op =>
      have leases := h.leases_act block op
      refine unlined.of_found (fun id leased => leases ▸ leased) fun id leased => ?_
      exact s.find?_act after (leases ▸ leased)
  | drop block answers => exact s.unlined_drop unlined answers after
  | allocate bytes => exact s.unlined_allocate unlined bytes after
  | install lease policy =>
      refine s.unlined_onLease unlined (by rw [s.governor]; rfl) (fun leased b found => ?_)
        (fun id => Pool.find?_install_of_ne) after
      obtain ⟨c, before⟩ := s.exists_lease leased
      cases (Pool.find?_install_self before).symm.trans found
      exact kept
  | closeLease lease =>
      refine s.unlined_onLease unlined (by rw [s.governor]; rfl) (fun leased b found => ?_)
        (fun id => Pool.find?_close_of_ne) after
      obtain ⟨c, before⟩ := s.exists_lease leased
      cases (s.balanced.find?_close_self before).symm.trans found
      exact unlined lease leased c before
  | dropLease lease => exact s.unlined_dropLease unlined lease after
  | sweep direction => exact s.unlined_sweep unlined direction after
  | setUsage bytes => exact s.unlined_same unlined (by rw [Hub.step, s.steer]; rfl) after
  | press direction => exact s.unlined_same unlined (by rw [Hub.step, s.steer]; rfl) after
  | wait nanoseconds =>
      cases s.governor.symm.trans after
      exact unlined

/-! What the log tells. -/

/-- Under pressure and on relief the log tells of the limits that changed, in the order in which the
batches were opened. -/
theorem limitLines_sweep (s : h.Held p r) (unlined : h.Unlined p) (direction : Direction) :
    limitLines (h.step (.sweep direction)).effects =
      (h.toldBy (.sweep direction)).map Prod.snd := by
  let size := (p.sweep direction).1.usage
  -- the line due for a block: those of leases tell nothing
  let due (id : Nat) : List String :=
    if id ∈ h.members.map Member.block then limitLine? (p.usage id) (size id) else []
  have still : ∀ b ∈ p.blocks, decide (size b.id ≠ b.usage) = false → due b.id = [] := by
    intro b member same
    have unmoved : size b.id = p.usage b.id :=
      (of_decide_eq_false same |> not_not.mp).trans (s.balanced.usage_of_mem member).symm
    simp only [due, unmoved, limitLine?_self, ite_self]
  have moved : ∀ b ∈ p.blocks, size b.id ≠ b.usage →
      limitLines (b.policy.notify direction b.usage (size b.id)) = due b.id := by
    intro b member changed
    have listed := s.holders.mem_iff.mp (List.mem_map_of_mem (f := Block.id) member)
    have found := s.balanced.find?_of_mem member
    by_cases mine : b.id ∈ h.members.map Member.block
    · obtain ⟨m, joined, same⟩ := List.mem_map.mp mine
      obtain ⟨c, owned, backed⟩ := s.backed m joined
      cases (same ▸ owned).symm.trans found
      simp only [due, if_pos mine]
      rw [s.balanced.usage_of_mem member, backed.policy, Policy.limitLines_journaled]
      exact (limitLine?_of_moves (s.balanced.moves_sweep member changed)).symm
    · have leased := (List.mem_append.mp listed).resolve_left mine
      simp only [due, if_neg mine]
      exact (unlined b.id leased b found).notify direction _ _
  calc limitLines (h.step (.sweep direction)).effects
      = (p.blocks.filter fun b => size b.id ≠ b.usage).flatMap fun b =>
          limitLines (b.policy.notify direction b.usage (size b.id)) := by
        rw [step_sweep s.governor, ← limitLines_flatMap]
        exact congrArg limitLines (s.balanced.step_sweep direction)
    _ = (p.blocks.filter fun b => size b.id ≠ b.usage).flatMap fun b => due b.id := by
        refine List.flatMap_congr fun b member => ?_
        obtain ⟨listed, changed⟩ := List.mem_filter.mp member
        exact moved b listed (of_decide_eq_true changed)
    _ = (p.blocks.map Block.id).flatMap due := by
        rw [flatMap_filter_of_nil still, List.flatMap_map]
    _ = (h.members.map Member.block).flatMap due :=
        flatMap_of_sublist s.order s.balanced.distinct fun id _ absent => if_neg absent
    _ = (h.toldBy (.sweep direction)).map Prod.snd := by
        rw [toldBy, List.map_flatMap, List.flatMap_map]
        refine List.flatMap_congr fun m member => ?_
        rw [List.map_map, s.limit_eq, step_sweep s.governor]
        simp only [due, if_pos (List.mem_map_of_mem (f := Member.block) member)]
        exact (List.map_id _).symm

theorem limitLines_act (s : h.Held p r) (block : Nat) (op : Batch.Op) :
    limitLines (h.act block op).effects = [] := by
  cases found : h.member? block with
  | none =>
      simp only [Hub.act, found]
      rfl
  | some m =>
      obtain ⟨work, farewell⟩ := m.batch.limitLines_step ⟨h.limit m, h.clock⟩ op
      simp only [Hub.act, found, s.governor]
      split
      · rw [limitLines_append, limitLines_append, work, farewell]
        rfl
      · rw [Batch.Outcome.effects, limitLines_append, work, farewell]
        rfl

/-- A grant is logged, and an adjusted one once more; these lines open with other words. -/
theorem limitLines_openBatch (s : h.Held p r) (config : Config) :
    limitLines (h.openBatch config).effects = [] := by
  have adjusted (whole : Prop) [Decidable whole] (requested granted : Word) :
      limitLines (if whole then [] else [.log (.limitAdjusted requested granted)]) = [] := by
    split
    · rfl
    · exact limitLines_log (.limitAdjusted requested granted) []
  by_cases valid : config.Valid
  · have passes : config.check = .ok config := Config.check_eq_ok_iff.mpr ⟨rfl, valid⟩
    simp only [Hub.openBatch, passes, s.governor, Governor.allocate, Pool.allocate,
      Governor.install, limitLines_append, limitLines_log]
    rw [adjusted]
    rfl
  · rw [openBatch_invalid h valid]
    rfl

theorem limitLines_onLease (lease : Nat) {act : Governor → Governor × List Effect}
    (quiet : (act h.governor).2 = []) : limitLines (h.onLease lease act).effects = [] := by
  unfold Hub.onLease
  split
  · exact congrArg limitLines quiet
  · rfl

/-- Nothing but a sweep writes such lines. -/
theorem limitLines_aside (s : h.Held p r) {op : Op} (aside : ∀ direction, op ≠ .sweep direction) :
    limitLines (h.step op).effects = [] := by
  cases op with
  | openBatch config => exact s.limitLines_openBatch config
  | act block op => exact s.limitLines_act block op
  | drop block answers =>
      cases found : h.member? block with
      | none =>
          simp only [Hub.step, Hub.drop, found]
          rfl
      | some m =>
          simp only [Hub.step, Hub.drop, found]
          exact s.limitLines_act block (.close answers)
  | allocate bytes =>
      simp only [Hub.step, Hub.allocate, s.governor]
      exact limitLines_log (.allocated bytes (p.ledger.grant bytes)) []
  | install lease policy => exact limitLines_onLease lease (by rw [s.governor]; rfl)
  | closeLease lease => exact limitLines_onLease lease (by rw [s.governor]; rfl)
  | dropLease lease =>
      simp only [Hub.step, Hub.dropLease]
      split <;> rfl
  | sweep direction => exact absurd rfl (aside direction)
  | setUsage bytes =>
      rw [Hub.step, s.steer]
      rfl
  | press direction =>
      rw [Hub.step, s.steer]
      rfl
  | wait nanoseconds => rfl

theorem limitLines_step (s : h.Held p r) (unlined : h.Unlined p) (op : Op) :
    limitLines (h.step op).effects = (h.toldBy op).map Prod.snd := by
  cases op with
  | sweep direction => exact s.limitLines_sweep unlined direction
  | _ => exact s.limitLines_aside nofun

/-- In the log of a run the lines about limits are those of the limits that the run changes, one for
one and in order. -/
theorem limitLines_run (s : h.Held p r) (unlined : h.Unlined p) {ops : List Op}
    (kept : ∀ op ∈ ops, op.Unlined) :
    limitLines (h.run ops).2 = (h.told ops).map Prod.snd := by
  induction ops generalizing h p r with
  | nil => rfl
  | cons op rest ih =>
      obtain ⟨here, later⟩ := List.forall_mem_cons.mp kept
      obtain ⟨_, next⟩ := s.step op
      rw [Hub.run, told, limitLines_append, List.map_append, s.limitLines_step unlined op,
        ih next (s.unlined_step unlined here next.governor) later]

theorem unlined_run (s : h.Held p r) (unlined : h.Unlined p) {ops : List Op}
    (kept : ∀ op ∈ ops, op.Unlined) {q : Pool} (after : (h.run ops).1.governor = .elastic q) :
    (h.run ops).1.Unlined q := by
  induction ops generalizing h p r with
  | nil =>
      cases s.governor.symm.trans after
      exact unlined
  | cons op rest ih =>
      obtain ⟨here, later⟩ := List.forall_mem_cons.mp kept
      obtain ⟨_, next⟩ := s.step op
      exact ih next (s.unlined_step unlined here next.governor) later after

end Held
end Hub
end ElasticBatch
