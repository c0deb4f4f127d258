import ElasticBatch.Proofs.Pool.Sweep
import Mathlib.Data.List.Basic

/-! What is told of a block. A block tells of a resize exactly where its size changes, so that what
is told of it one after the other leads from each of its sizes to the next. -/
namespace ElasticBatch

/-- Pressure takes a size down, and relief takes it up. -/
def Direction.Moves : Direction → Word → Word → Prop
  | .shrink, old, new => new < old
  | .expand, old, new => old < new

/-- How one size became another, record by record: each begins where the one before it ended, and
takes the size in its direction. -/
inductive Replay {α : Type} (record : Direction → Word → Word → α) : Word → List α → Word → Prop
  | done (size : Word) : Replay record size [] size
  | resized {direction : Direction} {old new last : Word} {later : List α}
      (moves : direction.Moves old new) (rest : Replay record new later last) :
      Replay record old (record direction old new :: later) last

theorem Replay.append {α : Type} {record : Direction → Word → Word → α} {first middle last : Word}
    {early late : List α} (one : Replay record first early middle)
    (two : Replay record middle late last) : Replay record first (early ++ late) last := by
  induction one with
  | done size => exact two
  | resized moves rest ih => exact .resized moves (ih two)

/-- What the observers of pressure and of relief hear, which may be one and the same. -/
def heardBy (name : Direction → String) (effects : List Effect) : List Notice :=
  (noticesOf effects).filter fun n => n.observer == name .shrink || n.observer == name .expand

/-- A resize in a direction, as its observer hears of it. -/
def heardAs (name : Direction → String) (direction : Direction) : Word → Word → Notice :=
  Notice.mk (name direction) direction

theorem heardBy_append (name : Direction → String) (a b : List Effect) :
    heardBy name (a ++ b) = heardBy name a ++ heardBy name b := by
  rw [heardBy, noticesOf_append, List.filter_append]
  rfl

theorem heardBy_flatMap {α : Type} (name : Direction → String) (xs : List α)
    (f : α → List Effect) :
    heardBy name (xs.flatMap f) = xs.flatMap fun x => heardBy name (f x) := by
  rw [heardBy, noticesOf, List.filterMap_flatMap, List.filter_flatMap]
  rfl

theorem heardBy_tell (name : Direction → String) (direction : Direction) (old new : Word) :
    heardBy name (Callback.tell (name direction) direction old new) =
      [heardAs name direction old new] := by
  refine List.filter_cons_of_pos ?_
  cases direction <;> simp

/-- What adds nothing may be left out. -/
theorem flatMap_filter_of_nil {α β : Type} {keep : α → Bool} {f : α → List β} {xs : List α}
    (nothing : ∀ x ∈ xs, keep x = false → f x = []) :
    (xs.filter keep).flatMap f = xs.flatMap f := by
  induction xs with
  | nil => rfl
  | cons x rest ih =>
      obtain ⟨here, later⟩ := List.forall_mem_cons.mp nothing
      rw [List.filter_cons, List.flatMap_cons, ← ih later]
      cases kept : keep x with
      | true => rfl
      | false => rw [here kept]; rfl

namespace Policy

/-- Each callback tells its own observer of its own kind of resize. -/
structure Reports (p : Policy) (name : Direction → String) : Prop where
  shrink : p.onShrink = some (.tell (name .shrink) .shrink)
  expand : p.onExpand = some (.tell (name .expand) .expand)

/-- Some callback of the policy can be heard by the observers. -/
def Tells (p : Policy) (name : Direction → String) : Prop :=
  ∃ call, (p.onShrink = some call ∨ p.onExpand = some call) ∧
    ∃ old new, heardBy name (call old new) ≠ []

variable {p : Policy} {name : Direction → String}

theorem Reports.notify (h : p.Reports name) (direction : Direction) (old new : Word) :
    p.notify direction old new = Callback.tell (name direction) direction old new := by
  cases direction with
  | shrink => rw [Policy.notify, h.shrink]; rfl
  | expand => rw [Policy.notify, h.expand]; rfl

/-- A policy does nothing about a resize, or what one of its callbacks does. -/
theorem notify_cases (p : Policy) (direction : Direction) (old new : Word) :
    p.notify direction old new = [] ∨
      ∃ call, (p.onShrink = some call ∨ p.onExpand = some call) ∧
        p.notify direction old new = call old new := by
  cases direction with
  | shrink =>
      cases set : p.onShrink with
      | none => exact Or.inl (by rw [notify, set]; rfl)
      | some call => exact Or.inr ⟨call, Or.inl rfl, by rw [notify, set]; rfl⟩
  | expand =>
      cases set : p.onExpand with
      | none => exact Or.inl (by rw [notify, set]; rfl)
      | some call => exact Or.inr ⟨call, Or.inr rfl, by rw [notify, set]; rfl⟩

/-- A block that tells others leaves the observers in peace. -/
theorem heardBy_notify (silent : ¬ p.Tells name) (direction : Direction) (old new : Word) :
    heardBy name (p.notify direction old new) = [] := by
  rcases p.notify_cases direction old new with nothing | ⟨call, set, same⟩
  · rw [nothing]
    rfl
  · rw [same]
    by_contra heard
    exact silent ⟨call, set, old, new, heard⟩

theorem not_tells_fixed : ¬ fixed.Tells name := by
  rintro ⟨call, set | set, -⟩ <;> cases set

end Policy

/-- A resize that changes anything goes in its direction, whatever the policy proposed. -/
theorem Block.moves_resized {b : Block} {l : Ledger} {direction : Direction}
    (changed : b.resized l direction ≠ b.usage) :
    direction.Moves b.usage (b.resized l direction) := by
  cases held : b.released with
  | true => exact absurd (resized_of_released held l direction) changed
  | false =>
      have apart : (b.resized l direction).toNat ≠ b.usage.toNat :=
        fun same => changed (UInt64.toNat_inj.mp same)
      cases direction with
      | shrink =>
          apply UInt64.lt_iff_toNat_lt.mpr
          rw [toNat_resized_shrink held] at apart ⊢
          omega
      | expand =>
          apply UInt64.lt_iff_toNat_lt.mpr
          rw [toNat_resized_expand held] at apart ⊢
          omega

namespace Pool

/-- The ways in which a block ends. -/
inductive Op.Ends (id : Nat) : Op → Prop
  | close : Op.Ends id (.close id)
  | drop : Op.Ends id (.drop id)

/-- The block keeps its policy, and nobody else gets one that tells the observers. -/
def Op.Leaves (id : Nat) (name : Direction → String) : Op → Prop
  | .install other policy => other ≠ id ∧ ¬ policy.Tells name
  | _ => True

/-- What an operation tells of a block. -/
def toldBy (p : Pool) (id : Nat) : Op → List Effect
  | .sweep direction => ((p.sweep direction).2.filter (·.block == id)).flatMap Change.effects
  | _ => []

/-- What a run tells of a block. -/
def told (p : Pool) (id : Nat) : List Op → List Effect
  | [] => []
  | op :: rest => p.toldBy id op ++ (p.step op).1.told id rest

theorem told_append (p : Pool) (id : Nat) (first second : List Op) :
    p.told id (first ++ second) = p.told id first ++ (p.run first).1.told id second := by
  induction first generalizing p with
  | nil => rfl
  | cons op rest ih => simp only [List.cons_append, told, run, ih, List.append_assoc]

theorem toldBy_of_ends (p : Pool) {id : Nat} {op : Op} (ends : op.Ends id) :
    p.toldBy id op = [] := by
  cases ends <;> rfl

/-- No other block tells the observers of anything. -/
def Sole (p : Pool) (id : Nat) (name : Direction → String) : Prop :=
  ∀ b ∈ p.blocks, b.id ≠ id → ¬ b.policy.Tells name

namespace Balanced

variable {p : Pool} {r : Roll} {id : Nat} {b : Block} {name : Direction → String}

/-! One sweep. -/

theorem toldBy_sweep (h : p.Balanced r) (direction : Direction) (member : b ∈ p.blocks) :
    p.toldBy b.id (.sweep direction) =
      if (p.sweep direction).1.usage b.id = b.usage then []
      else b.policy.notify direction b.usage ((p.sweep direction).1.usage b.id) := by
  have mine := filter_of_mem Block.id h.distinct member
  rw [toldBy, (h.sweep_eq direction).2, List.filter_map]
  change ((List.filter (·.id == b.id) (List.filter _ p.blocks)).map _).flatMap _ = _
  rw [List.filter_comm, mine]
  split
  · next same =>
      rw [List.filter_cons_of_neg (by simp [same])]
      rfl
  · next changed =>
      rw [List.filter_cons_of_pos (by simp [changed])]
      exact List.append_nil _

theorem moves_sweep (h : p.Balanced r) {direction : Direction} (member : b ∈ p.blocks)
    (changed : (p.sweep direction).1.usage b.id ≠ b.usage) :
    direction.Moves b.usage ((p.sweep direction).1.usage b.id) := by
  obtain ⟨earlier, later, split⟩ := List.append_of_mem member
  rw [h.usage_sweep direction split] at changed ⊢
  exact Block.moves_resized changed

/-- A sweep tells of a block what it did to its size: nothing, or one step in its direction. -/
theorem replay_sweep (h : p.Balanced r) (direction : Direction) (found : p.find? id = some b)
    (reports : b.policy.Reports name) :
    Replay (heardAs name) (p.usage id) (heardBy name (p.toldBy id (.sweep direction)))
      ((p.sweep direction).1.usage id) := by
  have member := List.mem_of_find?_eq_some found
  obtain rfl := id_of_find? found
  rw [h.usage_of_mem member, h.toldBy_sweep direction member]
  split
  · next same =>
      rw [same]
      exact .done _
  · next changed =>
      rw [reports.notify, heardBy_tell]
      exact .resized (h.moves_sweep member changed) (.done _)

/-- Whatever does not end a block leaves it under its policy, and with the size that was told. -/
theorem replay_step (h : p.Balanced r) (found : p.find? id = some b)
    (reports : b.policy.Reports name) {op : Op} (goesOn : ¬ op.Ends id)
    (kept : op.Leaves id name) :
    (∃ after, (p.step op).1.find? id = some after ∧ after.policy = b.policy) ∧
      Replay (heardAs name) (p.usage id) (heardBy name (p.toldBy id op))
        ((p.step op).1.usage id) := by
  have still {q : Pool} (same : q.find? id = p.find? id) :
      (∃ after, q.find? id = some after ∧ after.policy = b.policy) ∧
        Replay (heardAs name) (p.usage id) [] (q.usage id) := by
    refine ⟨⟨b, same.trans found, rfl⟩, ?_⟩
    rw [usage_congr same]
    exact .done _
  cases op with
  | allocate requested => exact still (find?_allocate_of_ne (Nat.ne_of_lt (h.lt_serial found)))
  | install other policy => exact still (find?_install_of_ne (Ne.symm kept.1))
  | sweep direction =>
      obtain ⟨reached, swept⟩ := p.find?_sweep direction id
      rw [found] at swept
      exact ⟨⟨_, swept, rfl⟩, h.replay_sweep direction found reports⟩
  | close other => exact still (find?_close_of_ne fun same => goesOn (same ▸ .close))
  | drop other => exact still (find?_drop_of_ne fun same => goesOn (same ▸ .drop))

/-- What is told of a block in a run leads from its size before to its size after. -/
theorem replay_run (h : p.Balanced r) (found : p.find? id = some b)
    (reports : b.policy.Reports name) {ops : List Op}
    (kept : ∀ op ∈ ops, op.Leaves id name) (goesOn : ∀ op ∈ ops, ¬ op.Ends id) :
    (∃ after, (p.run ops).1.find? id = some after) ∧
      Replay (heardAs name) (p.usage id) (heardBy name (p.told id ops))
        ((p.run ops).1.usage id) := by
  induction ops generalizing p r b with
  | nil => exact ⟨⟨b, found⟩, .done _⟩
  | cons op rest ih =>
      obtain ⟨goesHere, goesLater⟩ := List.forall_mem_cons.mp goesOn
      obtain ⟨keptHere, keptLater⟩ := List.forall_mem_cons.mp kept
      obtain ⟨⟨after, there, same⟩, first⟩ := h.replay_step found reports goesHere keptHere
      obtain ⟨last, later⟩ := ih (h.step op) there (same ▸ reports) keptLater goesLater
      refine ⟨last, ?_⟩
      rw [told, heardBy_append]
      exact first.append later

/-! The end. -/

theorem toldBy_of_spent (h : p.Balanced r) (spent : p.Spent id) (op : Op) :
    p.toldBy id op = [] := by
  cases op with
  | sweep direction =>
      cases found : p.find? id with
      | none =>
          -- what changes is held by someone, and this block no longer is
          have absent := find?_eq_none_iff.mp found
          rw [toldBy, (h.sweep_eq direction).2, List.filter_map, List.filter_eq_nil_iff.mpr]
          · rfl
          · intro b member same
            rw [← eq_of_beq same] at absent
            exact absent (List.mem_map_of_mem (List.mem_filter.mp member).1)
      | some b =>
          have member := List.mem_of_find?_eq_some found
          have released := spent.released b found
          obtain rfl := id_of_find? found
          rw [h.toldBy_sweep direction member,
            if_pos (h.usage_sweep_released direction member released)]
  | _ => rfl

theorem told_of_spent (h : p.Balanced r) (spent : p.Spent id) (ops : List Op) :
    p.told id ops = [] := by
  induction ops generalizing p r with
  | nil => rfl
  | cons op rest ih => rw [told, h.toldBy_of_spent spent op, ih (h.step op) (spent.step op)]; rfl

theorem spent_of_ends (h : p.Balanced r) (found : p.find? id = some b) {op : Op}
    (ends : op.Ends id) : (p.step op).1.Spent id := by
  refine ⟨Nat.lt_of_lt_of_le (h.lt_serial found) (p.serial_run [op]), fun after there => ?_⟩
  cases ends with
  | close =>
      cases (h.find?_close_self found).symm.trans there
      rfl
  | drop => cases (p.find?_drop_self id).symm.trans there

/-! Observers of one block only. -/

theorem sole_step (h : p.Balanced r) (sole : p.Sole id name) {op : Op} (kept : op.Leaves id name) :
    (p.step op).1.Sole id name := by
  cases op with
  | allocate requested =>
      exact List.forall_mem_append.mpr ⟨sole, List.forall_mem_singleton.mpr fun _ =>
        Policy.not_tells_fixed⟩
  | install other policy =>
      intro after member apart
      obtain ⟨b, listed, rfl | ⟨-, rfl⟩⟩ := mem_update member
      · exact sole _ listed apart
      · exact kept.2
  | sweep direction =>
      change ∀ b ∈ (p.sweep direction).1.blocks, _
      rw [(h.sweep_eq direction).1]
      exact List.forall_mem_map.mpr sole
  | close other =>
      intro after member apart
      obtain ⟨b, listed, rfl | ⟨-, rfl⟩⟩ := mem_close member
      · exact sole _ listed apart
      · exact sole b listed apart
  | drop other =>
      change ∀ b ∈ (p.drop other).blocks, _
      rw [p.blocks_drop other]
      exact fun b member => sole b (List.mem_filter.mp member).1

/-- Observers that hear of one block hear what is told of that block. -/
theorem heardBy_step (h : p.Balanced r) (sole : p.Sole id name) (op : Op) :
    heardBy name (p.step op).2 = heardBy name (p.toldBy id op) := by
  cases op with
  | sweep direction =>
      change heardBy name ((p.sweep direction).2.flatMap Change.effects) = _
      -- the changes of the other blocks reach other listeners, if any
      rw [toldBy, heardBy_flatMap, heardBy_flatMap]
      refine (flatMap_filter_of_nil ?_).symm
      rw [(h.sweep_eq direction).2]
      refine List.forall_mem_map.mpr fun b member other => ?_
      have apart : b.id ≠ id := fun same => beq_eq_false_iff_ne.mp other same
      exact Policy.heardBy_notify (sole b (List.mem_filter.mp member).1 apart) _ _ _
  | _ => rfl

theorem heardBy_run (h : p.Balanced r) (sole : p.Sole id name) {ops : List Op}
    (kept : ∀ op ∈ ops, op.Leaves id name) :
    heardBy name (p.run ops).2 = heardBy name (p.told id ops) := by
  induction ops generalizing p r with
  | nil => rfl
  | cons op rest ih =>
      obtain ⟨here, later⟩ := List.forall_mem_cons.mp kept
      rw [told, Pool.run, heardBy_append, heardBy_append, h.heardBy_step sole op,
        ih (h.step op) (h.sole_step sole here) later]

/-- Under its own policy and with observers of its own, all that a block goes through is heard. -/
theorem replay_heard (h : p.Balanced r) (found : p.find? id = some b)
    (reports : b.policy.Reports name) (sole : p.Sole id name) {ops : List Op}
    (kept : ∀ op ∈ ops, op.Leaves id name) (goesOn : ∀ op ∈ ops, ¬ op.Ends id) :
    Replay (heardAs name) (p.usage id) (heardBy name (p.run ops).2) ((p.run ops).1.usage id) := by
  rw [h.heardBy_run sole kept]
  exact (h.replay_run found reports kept goesOn).2

/-- Nothing is heard of a block that has ended. -/
theorem heardBy_ended (h : p.Balanced r) (found : p.find? id = some b)
    (reports : b.policy.Reports name) (sole : p.Sole id name) {before after : List Op}
    {op : Op} (kept : ∀ any ∈ before ++ op :: after, any.Leaves id name)
    (goesOn : ∀ earlier ∈ before, ¬ earlier.Ends id) (ends : op.Ends id) :
    heardBy name (p.run (before ++ op :: after)).2 = heardBy name (p.run before).2 := by
  have first : ∀ earlier ∈ before, earlier.Leaves id name := fun earlier member =>
    kept earlier (List.mem_append_left _ member)
  obtain ⟨⟨last, there⟩, -⟩ := h.replay_run found reports first goesOn
  have middle := h.run before
  have quiet := (middle.step op).told_of_spent (middle.spent_of_ends there ends) after
  rw [h.heardBy_run sole kept, h.heardBy_run sole first, told_append, told, toldBy_of_ends _ ends,
    quiet]
  exact congrArg (heardBy name) (List.append_nil _)

end Balanced

theorem Sole.install {p : Pool} {id : Nat} {name : Direction → String} (sole : p.Sole id name)
    (policy : Policy) : (p.install id policy).Sole id name := by
  intro after member apart
  obtain ⟨b, listed, rfl | ⟨here, rfl⟩⟩ := mem_update member
  · exact sole _ listed apart
  · exact absurd here apart

end Pool
end ElasticBatch
