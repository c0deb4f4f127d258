import ElasticBatch.Proofs.Hub.Finality
import ElasticBatch.Proofs.Hub.Lines

/-! What is told of a batch's limit. The lines about a batch begin at what it was granted and follow
its limit from one size to the next for as long as the batch goes on; then there are no more. -/
namespace ElasticBatch

/-- Whatever a limit does, the line that is due for it tells so. -/
theorem replay_limitLine? (old new : Word) : Replay limitLine old (limitLine? old new) new := by
  by_cases shrinks : new < old
  · have moves : Direction.shrink.Moves old new := shrinks
    rw [limitLine?_of_moves moves]
    exact .resized moves (.done _)
  · by_cases grows : old < new
    · have moves : Direction.expand.Moves old new := grows
      rw [limitLine?_of_moves moves]
      exact .resized moves (.done _)
    · obtain rfl := UInt64.le_antisymm (UInt64.not_lt.mp shrinks) (UInt64.not_lt.mp grows)
      rw [limitLine?_self]
      exact .done _

namespace Hub

/-- The lines that are about one batch. -/
def about (block : Nat) (told : List (Nat × String)) : List String :=
  (told.filter (·.1 == block)).map Prod.snd

theorem about_append (block : Nat) (a b : List (Nat × String)) :
    about block (a ++ b) = about block a ++ about block b := by
  rw [about, List.filter_append, List.map_append]
  rfl

theorem about_flatMap {α : Type} (block : Nat) (xs : List α) (f : α → List (Nat × String)) :
    about block (xs.flatMap f) = xs.flatMap fun x => about block (f x) := by
  rw [about, List.filter_flatMap, List.map_flatMap]
  rfl

theorem about_own (block : Nat) (lines : List String) :
    about block (lines.map fun line => (block, line)) = lines := by
  rw [about, List.filter_eq_self.mpr, List.map_map]
  · exact List.map_id _
  · exact List.forall_mem_map.mpr fun line _ => beq_self_eq_true block

theorem about_other {owner block : Nat} (apart : owner ≠ block) (lines : List String) :
    about block (lines.map fun line => (owner, line)) = [] := by
  rw [about, List.filter_eq_nil_iff.mpr, List.map_nil]
  exact List.forall_mem_map.mpr fun line _ same => apart (eq_of_beq same)

theorem told_append (h : Hub) (first second : List Op) :
    h.told (first ++ second) = h.told first ++ (h.run first).1.told second := by
  induction first generalizing h with
  | nil => rfl
  | cons op rest ih => simp only [List.cons_append, told, run, ih, List.append_assoc]

variable {h : Hub} {p : Pool} {r : Pool.Roll} {block : Nat} {m : Member}

theorem about_absent (absent : h.member? block = none) (direction : Direction) :
    about block (h.toldBy (.sweep direction)) = [] := by
  rw [toldBy, about_flatMap, List.flatMap_eq_nil_iff]
  intro m member
  exact about_other (fun same => List.find?_eq_none.mp absent m member (beq_iff_eq.mpr same)) _

namespace Held

/-! The limit of one batch. -/

theorem usage_onLease (s : h.Held p r) (found : h.member? block = some m) {lease : Nat}
    {act : Governor → Governor × List Effect} {q : Pool} (after : (act h.governor).1 = .elastic q)
    (others : block ≠ lease → q.find? block = p.find? block) :
    (h.onLease lease act).hub.governor.usage block = h.governor.usage block := by
  unfold Hub.onLease
  split
  · next leased =>
      change (act h.governor).1.usage block = _
      rw [after, s.governor]
      exact Pool.usage_congr (others (s.ne_lease found (List.contains_iff_mem.mp leased)).symm)
  · rfl

/-- To end one batch leaves the others their budgets. -/
theorem usage_of_ends (s : h.Held p r) {other : Nat} {op : Op} (ends : op.Ends other)
    (apart : block ≠ other) :
    (h.step op).hub.governor.usage block = h.governor.usage block := by
  cases found : h.member? other with
  | none =>
      cases ends with
      | close answers => simp only [Hub.step, Hub.act, found, missing]
      | drop answers => simp only [Hub.step, Hub.drop, found, missing]
  | some n =>
      obtain ⟨q, governor, back⟩ := s.returned found ends
      rw [governor, s.governor]
      exact back.others block apart

/-- Only a sweep changes the limit of a batch that goes on. -/
theorem usage_step (s : h.Held p r) (found : h.member? block = some m) {op : Op}
    (goesOn : ¬ op.Ends block) (still : ∀ direction, op ≠ .sweep direction) :
    (h.step op).hub.governor.usage block = h.governor.usage block := by
  cases op with
  | openBatch config =>
      by_cases valid : config.Valid
      · obtain ⟨q, governor, -, -, others⟩ := s.opened valid
        rw [governor, s.governor]
        exact others block (Nat.ne_of_lt (s.granted found))
      · rw [Hub.step, openBatch_invalid h valid]
  | act other op =>
      cases op with
      | offer o => rw [Hub.step, h.governor_act other rfl]
      | reset => rw [Hub.step, h.governor_act other rfl]
      | close answers =>
          exact s.usage_of_ends (.close answers) fun same => goesOn (same ▸ .close answers)
  | drop other answers =>
      exact s.usage_of_ends (.drop answers) fun same => goesOn (same ▸ .drop answers)
  | allocate bytes =>
      simp only [Hub.step, Hub.allocate, s.governor]
      exact Pool.usage_congr (Pool.find?_allocate_of_ne (Nat.ne_of_lt (s.granted found)))
  | install lease policy =>
      exact s.usage_onLease found (by rw [s.governor]; rfl) Pool.find?_install_of_ne
  | closeLease lease =>
      exact s.usage_onLease found (by rw [s.governor]; rfl) Pool.find?_close_of_ne
  | dropLease lease =>
      simp only [Hub.step, Hub.dropLease]
      split
      · next leased =>
          rw [s.governor]
          have apart := s.ne_lease found (List.contains_iff_mem.mp leased)
          exact Pool.usage_congr (Pool.find?_drop_of_ne apart.symm)
      · rfl
  | sweep direction => exact absurd rfl (still direction)
  | setUsage bytes =>
      rw [Hub.step, s.steer]
      rfl
  | press direction =>
      rw [Hub.step, s.steer]
      rfl
  | wait nanoseconds => rfl

/-- The lines about a batch after an operation are due for what the operation did to its limit. -/
theorem about_sweep (s : h.Held p r) (found : h.member? block = some m) (direction : Direction) :
    about block (h.toldBy (.sweep direction)) =
      limitLine? (h.governor.usage block)
        ((h.step (.sweep direction)).hub.governor.usage block) := by
  obtain ⟨listed, rfl⟩ := member?_some found
  have mine := filter_of_mem Member.block (List.nodup_append.mp s.distinct).1 listed
  have others : ∀ n ∈ h.members, (n.block == m.block) = false →
      about m.block ((limitLine? (h.limit n) ((h.step (.sweep direction)).hub.limit n)).map
        fun line => (n.block, line)) = [] :=
    fun n _ apart => about_other (beq_eq_false_iff_ne.mp apart) _
  rw [toldBy, about_flatMap, ← flatMap_filter_of_nil others, mine, List.flatMap_cons, about_own]
  exact List.append_nil _

/-- What is told of a batch that goes on is what an operation did to its limit. -/
theorem replay_step (s : h.Held p r) (found : h.member? block = some m) {op : Op}
    (goesOn : ¬ op.Ends block) :
    Replay limitLine (h.governor.usage block) (about block (h.toldBy op))
      ((h.step op).hub.governor.usage block) := by
  cases op with
  | sweep direction =>
      rw [s.about_sweep found]
      exact replay_limitLine? _ _
  | _ =>
      rw [s.usage_step found goesOn nofun]
      exact .done _

/-- What is told of a batch in a run leads from its limit before to its limit after. -/
theorem replay_run (s : h.Held p r) (found : h.member? block = some m) {ops : List Op}
    (goesOn : ∀ op ∈ ops, ¬ op.Ends block) :
    ∃ after, (h.run ops).1.member? block = some after ∧
      Replay limitLine (h.governor.usage block) (about block (h.told ops))
        ((h.run ops).1.limit after) := by
  induction ops generalizing h p r m with
  | nil =>
      refine ⟨m, found, ?_⟩
      rw [Hub.run, limit, (member?_some found).2]
      exact .done _
  | cons op rest ih =>
      obtain ⟨here, later⟩ := List.forall_mem_cons.mp goesOn
      have undropped : ∀ answers, op ≠ .drop block answers := by
        rintro answers rfl
        exact here (.drop answers)
      obtain ⟨_, there⟩ := stays_step found undropped
      obtain ⟨_, next⟩ := s.step op
      obtain ⟨after, last, told⟩ := ih next there later
      refine ⟨after, last, ?_⟩
      rw [Hub.told, about_append]
      exact (s.replay_step found here).append told

/-- A batch begins with what it was granted. -/
theorem started (s : h.Held p r) {config : Config}
    (opened : (h.step (.openBatch config)).reply = .opened block) :
    (∃ m, (h.step (.openBatch config)).hub.member? block = some m) ∧
      (h.step (.openBatch config)).hub.governor.usage block =
        min config.sizeBytes p.ledger.free := by
  by_cases valid : config.Valid
  · obtain rfl := Reply.opened.inj (opened.symm.trans (openBatch_valid s.governor valid).1)
    obtain ⟨q, governor, granted, -, -⟩ := s.opened valid
    refine ⟨⟨_, s.member?_opened valid⟩, ?_⟩
    rw [governor]
    exact granted
  · rw [Hub.step, openBatch_invalid h valid] at opened
    cases opened

theorem alone_of_opened (s : h.Held p r) {config : Config} (nobody : h.members = [])
    (opened : (h.step (.openBatch config)).reply = .opened block) :
    ∀ m ∈ (h.step (.openBatch config)).hub.members, m.block = block := by
  by_cases valid : config.Valid
  · obtain rfl := Reply.opened.inj (opened.symm.trans (openBatch_valid s.governor valid).1)
    rw [Hub.step, (openBatch_valid s.governor valid).2, nobody]
    exact List.forall_mem_singleton.mpr rfl
  · rw [Hub.step, openBatch_invalid h valid] at opened
    cases opened

/-! The end. -/

/-- A batch that was closed has no limit left to change, and one that is gone is told nothing of. -/
theorem about_finished (s : h.Held p r) (known : block < p.serial)
    (finished : ∀ m, h.member? block = some m → m.batch.closed = true) (ops : List Op) :
    about block (h.told ops) = [] := by
  induction ops generalizing h p r with
  | nil => rfl
  | cons op rest ih =>
      obtain ⟨asked, next⟩ := s.step op
      have still := s.finished_run known finished [op]
      have here : about block (h.toldBy op) = [] := by
        cases op with
        | sweep direction =>
            cases found : h.member? block with
            | none => exact about_absent found direction
            | some m =>
                obtain ⟨listed, rfl⟩ := member?_some found
                have members : (h.step (.sweep direction)).hub.members = h.members := by
                  rw [step_sweep s.governor]
                rw [s.about_sweep found, s.governor, next.governor]
                have before := s.limit_of_closed listed (finished m found)
                have after := next.limit_of_closed (members ▸ listed) (finished m found)
                simp only [Governor.usage, before, after, limitLine?_self]
        | _ => rfl
      rw [told, about_append, here]
      exact ih next (Nat.lt_of_lt_of_le known (p.serial_run asked)) still

/-- Nothing is told of a batch that has ended. -/
theorem about_ended (s : h.Held p r) (found : h.member? block = some m) {before after : List Op}
    {op : Op} (goesOn : ∀ earlier ∈ before, ¬ earlier.Ends block) (ends : op.Ends block) :
    about block (h.told (before ++ op :: after)) = about block (h.told before) := by
  obtain ⟨_, there, -⟩ := s.replay_run found goesOn
  obtain ⟨_, middle⟩ := s.run before
  obtain ⟨asked, last⟩ := middle.step op
  have known := Nat.lt_of_lt_of_le (middle.granted there) (Pool.serial_run _ asked)
  have quiet := last.about_finished known (finished_after _ ends) after
  have here : (h.run before).1.toldBy op = [] := by cases ends <;> rfl
  rw [told_append, told, about_append, here]
  change _ ++ about block (((h.run before).1.step op).hub.told after) = _
  rw [quiet, List.append_nil]

end Held

/-! A batch that shares its pool with no other. -/

/-- No operation adds a batch except its opening. -/
theorem blocks_step (h : Hub) {op : Op} (opens : ∀ config, op ≠ .openBatch config) :
    ((h.step op).hub.members.map Member.block).Sublist (h.members.map Member.block) := by
  have calls (block : Nat) (op : Batch.Op) :
      (h.act block op).hub.members.map Member.block = h.members.map Member.block := by
    cases found : h.member? block with
    | none => simp only [act, found, missing]
    | some m =>
        rw [(act_found found op).2]
        exact h.blocks_setBatch block _
  cases h.bearing op with
  | act block op => rw [Hub.step, calls]
  | drop block answers =>
      cases found : h.member? block with
      | none => simp only [Hub.step, Hub.drop, found, missing, List.Sublist.refl]
      | some m =>
          simp only [Hub.step, Hub.drop, found]
          rw [← calls block (.close answers)]
          exact List.filter_sublist.map Member.block
  | opens valid => exact absurd rfl (opens _)
  | aside _ members _ => rw [members]

theorem about_alone {h : Hub} {block : Nat} {ops : List Op}
    (alone : ∀ m ∈ h.members, m.block = block)
    (opens : ∀ op ∈ ops, ∀ config, op ≠ .openBatch config) :
    about block (h.told ops) = (h.told ops).map Prod.snd := by
  induction ops generalizing h with
  | nil => rfl
  | cons op rest ih =>
      obtain ⟨here, later⟩ := List.forall_mem_cons.mp opens
      have still : ∀ m ∈ (h.step op).hub.members, m.block = block := by
        intro m member
        have kept := (h.blocks_step here).subset (List.mem_map_of_mem member)
        obtain ⟨n, listed, same⟩ := List.mem_map.mp kept
        rw [← same]
        exact alone n listed
      rw [told, about_append, List.map_append, ih still later]
      congr 1
      cases op with
      | sweep direction =>
          rw [toldBy, about_flatMap, List.map_flatMap]
          refine List.flatMap_congr fun m member => ?_
          rw [alone m member, about_own, List.map_map]
          exact (List.map_id _).symm
      | _ => rfl

/-- A block in a pool gets a policy whose callbacks tell observers of their own, perhaps one for
pressure and another for relief, and keeps it. Whatever is asked of the pool afterwards, what the
observers hear leads record by record from the size that the block had to the size that it has, the
one called for pressure where the size fell and the one for relief where it grew; once the block was
closed or dropped, to the size that it had just before, and no more is heard.

In the same way the log tells of the limits of batches. Opening a batch writes no line about a
limit. After it the lines about limits in the log of any run are, one for one and in order, those of
the limits that the run changed, each about one batch, as long as nobody's callbacks write such
lines on their own; for a batch that is alone in its pool they are all about it. The lines about a
batch lead from what it was granted to its limit, until it ends, and then there are no more. -/
theorem every_resize_told (capacity : Word) :
    (∀ (ops later : List Pool.Op) (id : Nat) (b : Block) (policy : Policy)
        (name : Direction → String),
      let p := ((Pool.ofCapacity capacity).run ops).1
      let start := p.install id policy
      let heard (part : List Pool.Op) := heardBy name (start.run part).2
      p.find? id = some b → policy.Reports name → p.Sole id name →
      (∀ op ∈ later, op.Leaves id name) →
      ((∀ op ∈ later, ¬ op.Ends id) →
        Replay (heardAs name) b.usage (heard later) ((start.run later).1.usage id)) ∧
      ∀ before op after, later = before ++ op :: after →
        (∀ earlier ∈ before, ¬ earlier.Ends id) → op.Ends id →
        Replay (heardAs name) b.usage (heard later) ((start.run before).1.usage id) ∧
          heard later = heard before) ∧
    ∀ (ops later : List Op) (config : Config) (block : Nat),
      let h := ((ofCapacity capacity).run ops).1
      let start := (h.step (.openBatch config)).hub
      let lines (part : List Op) := about block (start.told part)
      (h.step (.openBatch config)).reply = .opened block →
      (∀ op ∈ ops ++ later, op.Unlined) →
      limitLines (h.step (.openBatch config)).effects = [] ∧
      limitLines (start.run later).2 = (start.told later).map Prod.snd ∧
      (h.members = [] → (∀ op ∈ later, ∀ other, op ≠ .openBatch other) →
        limitLines (start.run later).2 = lines later) ∧
      ∃ p, h.governor = .elastic p ∧
        let granted := min config.sizeBytes p.ledger.free
        ((∀ op ∈ later, ¬ op.Ends block) → ∃ m, (start.run later).1.member? block = some m ∧
          Replay limitLine granted (lines later) ((start.run later).1.limit m)) ∧
        ∀ before op after, later = before ++ op :: after →
          (∀ earlier ∈ before, ¬ earlier.Ends block) → op.Ends block →
          ∃ m, (start.run before).1.member? block = some m ∧
            Replay limitLine granted (lines later) ((start.run before).1.limit m) ∧
            lines later = lines before := by
  constructor
  · intro ops later id b policy name p start heard found reports sole kept
    have balanced : p.Balanced (Pool.Roll.after ops) := (Pool.Balanced.start capacity).run ops
    have books := balanced.install id policy
    have there : start.find? id = some { b with policy := policy } :=
      Pool.find?_install_self found
    have size : start.usage id = b.usage := (Pool.usage_of_find? there).trans rfl
    rw [← size]
    have replay {part : List Pool.Op} (kept : ∀ op ∈ part, op.Leaves id name)
        (goesOn : ∀ op ∈ part, ¬ op.Ends id) :
        Replay (heardAs name) (start.usage id) (heard part) ((start.run part).1.usage id) :=
      books.replay_heard there reports (sole.install policy) kept goesOn
    refine ⟨replay kept, ?_⟩
    rintro before op after rfl goesOn ends
    have same : heard (before ++ op :: after) = heard before :=
      books.heardBy_ended there reports (sole.install policy) kept goesOn ends
    refine ⟨?_, same⟩
    rw [same]
    exact replay (fun earlier member => kept earlier (List.mem_append_left _ member)) goesOn
  · intro ops later config block h start lines opened unlined
    obtain ⟨_, s⟩ := (Held.start capacity).run ops
    obtain ⟨⟨m, there⟩, granted⟩ := s.started opened
    obtain ⟨_, next⟩ := s.step (.openBatch config)
    obtain ⟨earlier, since⟩ := List.forall_mem_append.mp unlined
    have quiet : h.Unlined _ := (Held.start capacity).unlined_run nofun earlier s.governor
    have still : start.Unlined _ := s.unlined_opened quiet config next.governor
    have log : limitLines (start.run later).2 = (start.told later).map Prod.snd :=
      next.limitLines_run still since
    refine ⟨s.limitLines_aside nofun, log, fun nobody opens => ?_, _, s.governor, ?_, ?_⟩
    · have alone : ∀ m ∈ start.members, m.block = block := s.alone_of_opened nobody opened
      rw [log]
      exact (about_alone alone opens).symm
    · rw [← granted]
      exact next.replay_run there
    · rintro before op after rfl goesOn ends
      have same : lines (before ++ op :: after) = lines before :=
        next.about_ended there goesOn ends
      obtain ⟨last, still, told⟩ := next.replay_run there goesOn
      refine ⟨last, still, ?_, same⟩
      rw [same, ← granted]
      exact told

/-- Pressure and relief are told to two observers. -/
def watchers : Direction → String
  | .shrink => "down"
  | .expand => "up"

def watched : Policy :=
  { Policy.custom (.div 2) (.add 25) with
    onShrink := some (.tell "down" .shrink), onExpand := some (.tell "up" .expand) }

/-- The second relief comes when someone else has taken the rest. -/
def crowding : List Pool.Op :=
  [.sweep .shrink, .sweep .expand, .allocate 50, .sweep .expand]

/-- Half of the grant goes at once; then someone else makes room. -/
def relieved : List Op := [.sweep .shrink, .dropLease 0, .sweep .expand, .sweep .expand]

theorem crowded_and_relieved_told :
    let start := ((Pool.ofCapacity 100).run [.allocate 40, .allocate 30]).1.install 0 watched
    let heard (part : List Pool.Op) := heardBy watchers (start.run part).2
    let opened := ((ofCapacity 100).run [.allocate 70, .openBatch ⟨1, 60⟩]).1
    let later := crowding ++ [.close 0, .sweep .expand]
    Replay (heardAs watchers) 40 (heard later) 45 ∧ heard later = heard crowding ∧
      Replay limitLine 30 (limitLines (opened.run relieved).2) 60 := by
  intro start heard opened later
  obtain ⟨pools, batches⟩ := every_resize_told 100
  have reports : watched.Reports watchers := ⟨rfl, rfl⟩
  have sole : ((Pool.ofCapacity 100).run [.allocate 40, .allocate 30]).1.Sole 0 watchers :=
    List.forall_mem_cons.mpr ⟨fun other => absurd rfl other,
      List.forall_mem_singleton.mpr fun _ => Policy.not_tells_fixed⟩
  have kept : ∀ op ∈ later, op.Leaves 0 watchers := by
    simp [later, crowding, Pool.Op.Leaves]
  have goesOn : ∀ op ∈ crowding, ¬ op.Ends 0 := by
    rintro op member ends
    cases ends <;> simp [crowding] at member
  have stays : ∀ op ∈ relieved, ¬ op.Ends 1 := by
    rintro op member ends
    cases ends <;> simp [relieved] at member
  have unlined : ∀ op ∈ [.allocate 70] ++ relieved, op.Unlined := by
    simp [relieved, Op.Unlined]
  have opens : ∀ op ∈ relieved, ∀ other, op ≠ .openBatch other := by
    simp [relieved]
  obtain ⟨-, ended⟩ := pools _ _ 0 _ watched watchers rfl reports sole kept
  obtain ⟨told, same⟩ := ended crowding (.close 0) [.sweep .expand] rfl goesOn .close
  obtain ⟨-, -, alone, p, governor, goes, -⟩ :=
    batches [.allocate 70] relieved ⟨1, 60⟩ 1 rfl unlined
  cases governor
  obtain ⟨m, there, lines⟩ := goes stays
  cases there
  have log : limitLines (opened.run relieved).2 = about 1 (opened.told relieved) :=
    alone rfl opens
  refine ⟨told, same, ?_⟩
  rw [log]
  exact lines

end Hub
end ElasticBatch
