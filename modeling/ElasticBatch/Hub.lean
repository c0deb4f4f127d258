import ElasticBatch.Batch.Run
import ElasticBatch.Governor

/-! Batches and other holders that share one governor and one clock. Each is known by its block. -/
namespace ElasticBatch

/-- A batch and the block that budgets it. -/
structure Member where
  block : Nat
  batch : Batch

/-- The leases are the blocks held apart from any batch. -/
structure Hub where
  governor : Governor
  members : List Member := []
  leases : List Nat := []
  clock : Nat := 0

namespace Hub

def member? (h : Hub) (block : Nat) : Option Member := h.members.find? (·.block == block)

/-- The size limit in force for a member. -/
def limit (h : Hub) (m : Member) : Word := h.governor.usage m.block

def setBatch (h : Hub) (block : Nat) (b : Batch) : Hub :=
  { h with members := h.members.map fun m => if m.block == block then { m with batch := b } else m }

inductive Op where
  | openBatch (config : Config)
  | act (block : Nat) (op : Batch.Op)
  | drop (block : Nat) (answers : Nat → Bool)
  | allocate (bytes : Word)
  | install (block : Nat) (policy : Policy)
  | closeLease (block : Nat)
  | dropLease (block : Nat)
  | sweep (direction : Direction)
  | setUsage (bytes : Word)
  | press (direction : Direction)
  | wait (nanoseconds : Nat)

inductive Reply where
  | missing
  | failed (cause : Error)
  | refused (fault : Config.Fault)
  | done
  | opened (block : Nat)
  | due (now : Bool)
  | granted (block : Nat) (bytes : Word)
  | changed (blocks : Nat)
  | steered (usage : Word) (released : Bool)

structure Outcome where
  hub : Hub
  reply : Reply
  effects : List Effect := []

def missing (h : Hub) : Outcome := ⟨h, .missing, []⟩

/-- Valid settings get a budget of what they ask for, or of what there is; invalid ones leave the
governor alone. The budget then shrinks by halves and grows back up to what was asked for. -/
def openBatch (h : Hub) (config : Config) : Outcome :=
  match config.check with
  | .error fault => ⟨h, .refused fault, []⟩
  | .ok config =>
    let requested := config.sizeBytes
    let (block, granting, asked) := h.governor.allocate requested
    let (governor, installed) :=
      granting.install block (Policy.halveAndDouble requested).journaled
    let granted := governor.usage block
    let adjusted :=
      if granted = requested then [] else [Effect.log (.limitAdjusted requested granted)]
    ⟨{ h with
        governor := governor
        members := h.members ++ [⟨block, Batch.ofConfig config⟩] },
      .opened block, asked ++ installed ++ adjusted⟩

def ofAnswer : Option (Except Error Bool) → Reply
  | none => .done
  | some (.ok due) => .due due
  | some (.error cause) => .failed cause

/-- The call that closes a batch also gives its budget back, before the batch says its farewell. -/
def act (h : Hub) (block : Nat) (op : Batch.Op) : Outcome :=
  match h.member? block with
  | none => h.missing
  | some m =>
    let outcome := m.batch.step ⟨h.limit m, h.clock⟩ op
    let after := h.setBatch block outcome.batch
    if outcome.batch.closed && !m.batch.closed then
      let (governor, returned) := h.governor.close block
      ⟨{ after with governor := governor }, ofAnswer outcome.answer,
        outcome.work ++ returned ++ outcome.farewell⟩
    else ⟨after, ofAnswer outcome.answer, outcome.effects⟩

/-- A dropped batch is closed first. -/
def drop (h : Hub) (block : Nat) (answers : Nat → Bool) : Outcome :=
  match h.member? block with
  | none => h.missing
  | some _ =>
    let closed := h.act block (.close answers)
    ⟨{ closed.hub with
        governor := closed.hub.governor.drop block
        members := closed.hub.members.filter (·.block != block) },
      .done, closed.effects⟩

def allocate (h : Hub) (bytes : Word) : Outcome :=
  match h.governor with
  | .capped _ => h.missing
  | .elastic pool =>
    let (block, pool, effects) := pool.allocate bytes
    ⟨{ h with governor := .elastic pool, leases := h.leases ++ [block] },
      .granted block (pool.usage block), effects⟩

def onLease (h : Hub) (block : Nat) (act : Governor → Governor × List Effect) : Outcome :=
  if h.leases.contains block then
    let (governor, effects) := act h.governor
    ⟨{ h with governor := governor }, .done, effects⟩
  else h.missing

def dropLease (h : Hub) (block : Nat) : Outcome :=
  if h.leases.contains block then
    ⟨{ h with
        governor := h.governor.drop block
        leases := h.leases.filter (· != block) }, .done, []⟩
  else h.missing

def sweep (h : Hub) (direction : Direction) : Outcome :=
  match h.governor with
  | .capped _ => h.missing
  | .elastic pool =>
    let (pool, changes) := pool.sweep direction
    ⟨{ h with governor := .elastic pool }, .changed changes.length,
      changes.flatMap Change.effects⟩

/-- How the block granted last stands. -/
def steered (gate : Gate) : Reply :=
  match gate.latest? with
  | none => .missing
  | some b => .steered b.usage b.released

def steer (h : Hub) (act : Gate → Gate × List Effect) : Outcome :=
  match h.governor with
  | .elastic _ => h.missing
  | .capped gate =>
    let (gate, effects) := act gate
    ⟨{ h with governor := .capped gate }, steered gate, effects⟩

def step (h : Hub) : Op → Outcome
  | .openBatch config => h.openBatch config
  | .act block op => h.act block op
  | .drop block answers => h.drop block answers
  | .allocate bytes => h.allocate bytes
  | .install block policy => h.onLease block (Governor.install block policy)
  | .closeLease block => h.onLease block (Governor.close block)
  | .dropLease block => h.dropLease block
  | .sweep direction => h.sweep direction
  | .setUsage bytes => h.steer fun gate => (gate.setUsage bytes, [])
  | .press direction => h.steer (Gate.press · direction)
  | .wait nanoseconds => ⟨{ h with clock := h.clock + nanoseconds }, .done, []⟩

/-- The hub after a run of operations, and all that the run did. -/
def run (h : Hub) : List Op → Hub × List Effect
  | [] => (h, [])
  | op :: rest =>
    let outcome := h.step op
    let (last, effects) := outcome.hub.run rest
    (last, outcome.effects ++ effects)

theorem run_append (h : Hub) (first second : List Op) :
    h.run (first ++ second) =
      (((h.run first).1.run second).1, (h.run first).2 ++ ((h.run first).1.run second).2) := by
  induction first generalizing h with
  | nil => rfl
  | cons op rest ih => simp only [List.cons_append, run, ih, List.append_assoc]

end Hub
end ElasticBatch
