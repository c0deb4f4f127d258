import ElasticBatch.Proofs.Hub.Calls

/-! A batch among others runs as it would alone, whoever governs the budgets. Blocks are not granted
twice, so that whoever holds one held it from the beginning, and is where the calls made of it alone
would have brought it. -/
namespace ElasticBatch

namespace Governor

/-- The block that comes next. Blocks are granted in order, and none twice. -/
def next : Governor → Nat
  | .elastic pool => pool.serial
  | .capped gate => gate.blocks.length

theorem allocate_fst (g : Governor) (bytes : Word) : (g.allocate bytes).1 = g.next := by
  cases g <;> rfl

theorem next_allocate (g : Governor) (bytes : Word) :
    (g.allocate bytes).2.1.next = g.next + 1 := by
  cases g with
  | elastic pool => rfl
  | capped gate => exact List.length_append

theorem next_install (g : Governor) (id : Nat) (policy : Policy) :
    (g.install id policy).1.next = g.next := by
  cases g with
  | elastic pool => rfl
  | capped gate => exact List.length_modify _ _ _

theorem next_close (g : Governor) (id : Nat) : (g.close id).1.next = g.next := by
  cases g with
  | elastic pool => exact pool.serial_close id
  | capped gate => exact List.length_modify _ _ _

theorem next_drop (g : Governor) (id : Nat) : (g.drop id).next = g.next := by
  cases g with
  | elastic pool => exact pool.serial_drop id
  | capped gate => rfl

end Governor

theorem Gate.length_setUsage (g : Gate) (bytes : Word) :
    (g.setUsage bytes).blocks.length = g.blocks.length :=
  List.length_modify _ _ _

theorem Gate.length_press (g : Gate) (direction : Direction) :
    (g.press direction).1.blocks.length = g.blocks.length := by
  unfold press
  split
  · rfl
  · exact g.length_setUsage _

namespace Hub

variable {h : Hub} {block : Nat} {m : Member}

theorem openBatch_opens (h : Hub) {config : Config} (valid : config.Valid) :
    (h.openBatch config).hub.members = h.members ++ [⟨h.governor.next, Batch.ofConfig config⟩] ∧
      (h.openBatch config).hub.governor.next = h.governor.next + 1 := by
  have passes : config.check = .ok config := Config.check_eq_ok_iff.mpr ⟨rfl, valid⟩
  simp only [openBatch, passes]
  rw [Governor.allocate_fst, Governor.next_install]
  exact ⟨rfl, Governor.next_allocate _ _⟩

theorem next_act (h : Hub) (block : Nat) (op : Batch.Op) :
    (h.act block op).hub.governor.next = h.governor.next := by
  cases found : h.member? block with
  | none => simp only [act, found, missing]
  | some m =>
      rw [(act_found found op).2]
      change (ite _ _ _ : Governor).next = _
      split
      · exact Governor.next_close _ _
      · rfl

theorem next_drop (h : Hub) (block : Nat) (answers : Nat → Bool) :
    (h.drop block answers).hub.governor.next = h.governor.next := by
  unfold drop
  split
  · rfl
  · exact (Governor.next_drop _ _).trans (h.next_act block _)

/-- What an operation is to the members: a call of one, the end of one, the beginning of one, or
something aside, which may still grant blocks to others. -/
inductive Bearing (h : Hub) : Op → Prop
  | act (block : Nat) (op : Batch.Op) : Bearing h (.act block op)
  | drop (block : Nat) (answers : Nat → Bool) : Bearing h (.drop block answers)
  | opens {config : Config} (valid : config.Valid) : Bearing h (.openBatch config)
  | aside {op : Op} (uncalled : op.call? = none) (members : (h.step op).hub.members = h.members)
      (granted : h.governor.next ≤ (h.step op).hub.governor.next) : Bearing h op

theorem Bearing.of_same {op : Op} (uncalled : op.call? = none)
    (members : (h.step op).hub.members = h.members)
    (granted : (h.step op).hub.governor.next = h.governor.next) : Bearing h op :=
  .aside uncalled members (Nat.le_of_eq granted.symm)

theorem Bearing.of_missing {op : Op} (uncalled : op.call? = none)
    (nothing : h.step op = h.missing) : Bearing h op :=
  .of_same uncalled (by rw [nothing]; rfl) (by rw [nothing]; rfl)

theorem bearing_onLease {op : Op} (uncalled : op.call? = none) {block : Nat}
    {act : Governor → Governor × List Effect} (same : h.step op = h.onLease block act)
    (kept : (act h.governor).1.next = h.governor.next) : Bearing h op := by
  by_cases leased : h.leases.contains block
  · refine .of_same uncalled ?_ ?_
    · rw [same, onLease, if_pos leased]
    · rw [same, onLease, if_pos leased]
      exact kept
  · exact .of_missing uncalled (by rw [same, onLease, if_neg leased])

theorem bearing_steer {op : Op} (uncalled : op.call? = none) (act : Gate → Gate × List Effect)
    (same : h.step op = h.steer act)
    (kept : ∀ gate, (act gate).1.blocks.length = gate.blocks.length) : Bearing h op := by
  cases governor : h.governor with
  | elastic pool => exact .of_missing uncalled (by simp only [same, steer, governor])
  | capped gate =>
      refine .of_same uncalled ?_ ?_
      · simp only [same, steer, governor]
      · simp only [same, steer, governor]
        exact kept gate

theorem bearing (h : Hub) (op : Op) : Bearing h op := by
  cases op with
  | openBatch config =>
      by_cases valid : config.Valid
      · exact .opens valid
      · have refused := openBatch_invalid h valid
        exact .of_same rfl (by rw [Hub.step, refused]) (by rw [Hub.step, refused])
  | act block op => exact .act block op
  | drop block answers => exact .drop block answers
  | allocate bytes =>
      cases governor : h.governor with
      | capped gate => exact .of_missing rfl (by simp only [Hub.step, Hub.allocate, governor])
      | elastic pool =>
          refine .aside rfl ?_ ?_
          · simp only [Hub.step, Hub.allocate, governor]
          · simp only [Hub.step, Hub.allocate, governor]
            exact Nat.le_succ _
  | install block policy => exact bearing_onLease rfl rfl (Governor.next_install _ _ _)
  | closeLease block => exact bearing_onLease rfl rfl (Governor.next_close _ _)
  | dropLease block =>
      by_cases leased : h.leases.contains block
      · refine .of_same rfl ?_ ?_
        · rw [Hub.step, Hub.dropLease, if_pos leased]
        · rw [Hub.step, Hub.dropLease, if_pos leased]
          exact Governor.next_drop _ _
      · exact .of_missing rfl (by rw [Hub.step, Hub.dropLease, if_neg leased])
  | sweep direction =>
      cases governor : h.governor with
      | capped gate => exact .of_missing rfl (by simp only [Hub.step, Hub.sweep, governor])
      | elastic pool =>
          refine .of_same rfl ?_ ?_
          · simp only [Hub.step, Hub.sweep, governor]
          · simp only [Hub.step, Hub.sweep, governor]
            rfl
  | setUsage bytes =>
      exact bearing_steer rfl (fun gate => (gate.setUsage bytes, [])) rfl
        fun gate => gate.length_setUsage bytes
  | press direction =>
      exact bearing_steer rfl (Gate.press · direction) rfl fun gate => gate.length_press direction
  | wait nanoseconds => exact .of_same rfl rfl rfl

theorem next_le_step (h : Hub) (op : Op) : h.governor.next ≤ (h.step op).hub.governor.next := by
  cases h.bearing op with
  | act block op => exact Nat.le_of_eq (h.next_act block op).symm
  | drop block answers => exact Nat.le_of_eq (h.next_drop block answers).symm
  | opens valid =>
      rw [Hub.step, (h.openBatch_opens valid).2]
      exact Nat.le_succ _
  | aside _ _ granted => exact granted

/-- A batch has come this far by its own calls, and what it asked of events on the way is what these
calls ask. -/
structure Took (start : Batch) (calls : List (Batch.Moment × Batch.Op)) (asked : List Call)
    (after : Batch) : Prop where
  batch : after = (start.run calls).1
  asked : asked = callsOf (start.run calls).2

theorem Took.config {start after : Batch} {calls : List (Batch.Moment × Batch.Op)}
    {asked : List Call} (took : Took start calls asked after) : after.config = start.config := by
  rw [took.batch, Batch.config_run]

theorem Took.nothing (b : Batch) : Took b [] [] b := ⟨rfl, rfl⟩

theorem Took.append {start middle after : Batch} {first second : List (Batch.Moment × Batch.Op)}
    {early late : List Call} (one : Took start first early middle)
    (two : Took middle second late after) :
    Took start (first ++ second) (early ++ late) after where
  batch := by rw [two.batch, one.batch, Batch.run_append]
  asked := by rw [two.asked, one.asked, one.batch, Batch.run_append, callsOf_append]

/-- Where a member comes from: it was there and took the call made of it, if any, or it was opened
just now. -/
inductive Origin (h : Hub) (block : Nat) (op : Op) (after : Member) : Prop
  | kept {m : Member} (found : h.member? block = some m)
      (took : Took m.batch (h.callTo block op) (h.askedBy block op) after.batch)
  | opened {config : Config} (fresh : block = h.governor.next)
      (counted : block < (h.step op).hub.governor.next) (new : after.batch = Batch.ofConfig config)

theorem Origin.of_ne {op : Op} (same : (h.step op).hub.member? block = h.member? block)
    (apart : ∀ call ∈ op.call?, call.1 ≠ block)
    (found : (h.step op).hub.member? block = some m) : Origin h block op m := by
  rw [same] at found
  refine .kept found ⟨?_, askedBy_eq found op⟩
  rw [callTo_of_ne apart]
  rfl

theorem Origin.of_act {called : Nat} {op : Batch.Op}
    (found : (h.step (.act called op)).hub.member? block = some m) :
    Origin h block (.act called op) m := by
  by_cases mine : called = block
  · subst mine
    cases before : h.member? called with
    | none =>
        simp only [Hub.step, Hub.act, before] at found
        change h.member? called = some m at found
        rw [before] at found
        cases found
    | some n =>
        rw [Hub.step, member?_act_self before] at found
        cases found
        refine .kept before ⟨?_, askedBy_eq before _⟩
        rw [callTo_act before]
        rfl
  · refine .of_ne (member?_act_of_ne mine op) ?_ found
    rintro call ⟨⟩
    exact mine

theorem Origin.of_drop {called : Nat} {answers : Nat → Bool}
    (found : (h.step (.drop called answers)).hub.member? block = some m) :
    Origin h block (.drop called answers) m := by
  by_cases mine : called = block
  · subst mine
    rw [Hub.step, member?_drop_self] at found
    cases found
  · refine .of_ne (member?_drop_of_ne mine answers) ?_ found
    rintro call ⟨⟩
    exact mine

theorem Origin.of_openBatch {config : Config} (valid : config.Valid)
    (found : (h.step (.openBatch config)).hub.member? block = some m) :
    Origin h block (.openBatch config) m := by
  obtain ⟨members, counted⟩ := h.openBatch_opens valid
  have listed : (h.openBatch config).hub.member? block = (h.member? block).or
      (List.find? (·.block == block) [⟨h.governor.next, Batch.ofConfig config⟩]) := by
    rw [member?, members]
    exact List.find?_append
  rw [Hub.step, listed] at found
  cases before : h.member? block with
  | some n =>
      rw [before, Option.some_or] at found
      cases found
      exact .kept before (.nothing m.batch)
  | none =>
      rw [before, Option.none_or] at found
      have same := List.find?_some found
      cases List.mem_singleton.mp (List.mem_of_find?_eq_some found)
      have fresh : block = h.governor.next := (eq_of_beq same).symm
      refine .opened fresh ?_ rfl
      rw [fresh, Hub.step, counted]
      exact Nat.lt_succ_self _

theorem origin {op : Op} (found : (h.step op).hub.member? block = some m) :
    Origin h block op m := by
  cases h.bearing op with
  | act called op => exact .of_act found
  | drop called answers => exact .of_drop found
  | opens valid => exact .of_openBatch valid found
  | aside uncalled members _ =>
      have same : (h.step op).hub.member? block = h.member? block := by
        rw [member?, members, member?]
      exact .of_ne same (by rw [uncalled]; exact nofun) found

/-- A member stays until it is dropped. -/
theorem stays_step (there : h.member? block = some m) {op : Op}
    (undropped : ∀ answers, op ≠ .drop block answers) :
    ∃ after, (h.step op).hub.member? block = some after := by
  cases h.bearing op with
  | act called op =>
      by_cases mine : called = block
      · subst mine
        exact ⟨_, member?_act_self there op⟩
      · exact ⟨m, (member?_act_of_ne mine op).trans there⟩
  | drop called answers =>
      by_cases mine : called = block
      · exact absurd (congrArg (Op.drop · answers) mine) (undropped answers)
      · exact ⟨m, (member?_drop_of_ne mine answers).trans there⟩
  | opens valid =>
      refine ⟨m, ?_⟩
      rw [Hub.step, member?, (h.openBatch_opens valid).1, List.find?_append]
      exact congrArg (Option.or · _) there
  | aside _ members _ => exact ⟨m, by rw [member?, members]; exact there⟩

/-! Runs. -/

theorem stays_run (there : h.member? block = some m) {ops : List Op}
    (undropped : ∀ answers, .drop block answers ∉ ops) :
    ∃ after, (h.run ops).1.member? block = some after := by
  induction ops generalizing h m with
  | nil => exact ⟨m, there⟩
  | cons op rest ih =>
      obtain ⟨_, next⟩ := stays_step there fun answers same =>
        undropped answers (List.mem_cons.mpr (Or.inl same.symm))
      exact ih next fun answers later => undropped answers (List.mem_cons_of_mem op later)

/-- Who holds a block that was granted before held it all along. -/
theorem kept_run (known : block < h.governor.next) {ops : List Op}
    (found : (h.run ops).1.member? block = some m) :
    ∃ before, h.member? block = some before ∧
      Took before.batch (h.callsTo block ops) (h.asked block ops) m.batch := by
  induction ops generalizing h with
  | nil => exact ⟨m, found, .nothing m.batch⟩
  | cons op rest ih =>
      obtain ⟨middle, there, later⟩ := ih (Nat.lt_of_lt_of_le known (h.next_le_step op)) found
      cases origin there with
      | kept here took => exact ⟨_, here, took.append later⟩
      -- what is opened gets a block that was not granted yet
      | opened fresh _ _ => exact absurd fresh (Nat.ne_of_lt known)

theorem opened_run (absent : h.member? block = none) {ops : List Op}
    (found : (h.run ops).1.member? block = some m) :
    ∃ config, Took (Batch.ofConfig config) (h.callsTo block ops) (h.asked block ops) m.batch := by
  induction ops generalizing h with
  | nil => cases absent.symm.trans found
  | cons op rest ih =>
      -- no call reaches the block before a member holds it
      rw [callsTo, asked, callTo_of_absent absent, askedBy_of_absent absent]
      cases there : (h.step op).hub.member? block with
      | none => exact ih there found
      | some middle =>
          cases origin there with
          | kept here _ => cases absent.symm.trans here
          | opened _ counted new =>
              obtain ⟨before, same, later⟩ := kept_run counted found
              cases there.symm.trans same
              exact ⟨_, new ▸ later⟩

/-- Nobody is there yet. -/
def ofGovernor (g : Governor) : Hub where
  governor := g

/-- Every batch of a hub is where its own calls alone would have brought it. -/
theorem took_run (g : Governor) {ops : List Op}
    (found : ((ofGovernor g).run ops).1.member? block = some m) :
    Took (Batch.ofConfig m.batch.config) ((ofGovernor g).callsTo block ops)
      ((ofGovernor g).asked block ops) m.batch := by
  obtain ⟨config, took⟩ := opened_run (h := ofGovernor g) rfl found
  rw [took.config]
  exact took

end Hub
end ElasticBatch
