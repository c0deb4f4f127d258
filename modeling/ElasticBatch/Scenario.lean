import ElasticBatch.Config.Parameters
import ElasticBatch.Hub
import ElasticBatch.Scenario.Actor

/-! Rehearsed runs: a hub whose batches and leases go by names, a cast of scripted events, and what
can be seen after each step. -/
namespace ElasticBatch

/-- A leased block under a name. One handed out in general terms does not show its details. -/
structure Scenario.Lease where
  name : String
  block : Nat
  detailed : Bool
  deriving DecidableEq, Repr

/-- `governed` tells whether the elastic governor itself is still held; blocks outlive it. -/
structure Scenario where
  hub : Hub
  cast : Scenario.Cast
  names : List (String × Nat) := []
  leases : List Scenario.Lease := []
  governed : Bool := true

namespace Scenario

inductive Step where
  | openBatch (id : String) (config : Config)
  | openFrom (id : String) (parameters : Parameters)
  | intake (id : String) (event : Nat)
  | reset (id : String)
  | close (id : String)
  | poll (id : String)
  | assemble (id : String)
  | snapshot (id : String)
  | stats (id : String)
  | describe (id : String)
  | dropBatch (id : String)
  | wait (nanoseconds : Nat)
  | allocate (id : String) (bytes : Word) (detailed : Bool)
  | install (id : String) (policy : Policy)
  | closeLease (id : String)
  | dropLease (id : String)
  | describeLease (id : String)
  | sweep (direction : Direction)
  | describeGovernor
  | dropGovernor
  | setUsage (bytes : Word)
  | press (direction : Direction)
  | inspect

/-- The name that the step is about. -/
def Step.id? : Step → Option String
  | .openBatch id _ | .openFrom id _ | .intake id _ | .reset id | .close id | .poll id
  | .assemble id | .snapshot id | .stats id | .describe id | .dropBatch id | .allocate id _ _
  | .install id _ | .closeLease id | .dropLease id | .describeLease id => some id
  | .wait _ | .sweep _ | .describeGovernor | .dropGovernor | .setUsage _ | .press _ | .inspect =>
    none

inductive Result where
  | reply (r : Hub.Reply)
  | opened (requested : Word) (delayMilliseconds : Nat)
  | existed (known : Bool)
  | request (r : Request)
  | snapshot (handles : List Nat) (commitIds : List Word)
  | stats (s : Stats)
  | text (s : String)
  | governor (text : String) (capacity : Word)

structure BatchView where
  length : Nat
  isEmpty : Bool
  total : Word
  limit : Word
  closed : Bool

/-- What is seen after a step: its result, the batch it was about, the governor's books, the leased
blocks, and what the step did. -/
structure Answer where
  result : Result
  batch : Option BatchView
  memory : Option (Word × Word)
  leases : List (String × Word × Bool)
  effects : List Effect

def member? (s : Scenario) (id : String) : Option Member :=
  (s.names.lookup id).bind s.hub.member?

def lease? (s : Scenario) (id : String) : Option Lease := s.leases.find? (·.name == id)

def batchView (h : Hub) (m : Member) : BatchView where
  length := m.batch.retained.length
  isEmpty := m.batch.pending.isEmpty
  total := m.batch.total
  limit := h.limit m
  closed := m.batch.closed

def memoryView (s : Scenario) : Option (Word × Word) :=
  match s.hub.governor with
  | .elastic pool => if s.governed then some (pool.ledger.used, pool.ledger.free) else none
  | .capped _ => none

def leaseViews (s : Scenario) : List (String × Word × Bool) :=
  match s.hub.governor with
  | .elastic pool => s.leases.filterMap fun lease =>
      (pool.find? lease.block).map fun b => (lease.name, b.usage, b.released)
  | .capped _ => []

/-- A step's result and effects, with the state that it leaves. -/
structure Turn where
  after : Scenario
  result : Result
  effects : List Effect := []

def missing (s : Scenario) : Turn := ⟨s, .reply .missing, []⟩

/-- Runs an operation; the cast moves on by the calls made on it. -/
def perform (s : Scenario) (op : Hub.Op) : Turn :=
  let outcome := s.hub.step op
  ⟨{ s with hub := outcome.hub, cast := s.cast.advance (callsOf outcome.effects) },
    .reply outcome.reply, outcome.effects⟩

/-- What only a governor in hand can do. -/
def ifGoverned (s : Scenario) (turn : Turn) : Turn := if s.governed then turn else s.missing

/-- Opens a batch and gives it a name. -/
def openBatch (s : Scenario) (id : String) (config : Config) : Turn :=
  let turn := s.perform (.openBatch config)
  match turn.result with
  | .reply (.opened block) =>
    ⟨{ turn.after with names := turn.after.names ++ [(id, block)] },
      .opened config.sizeBytes config.delayMilliseconds, turn.effects⟩
  | _ => turn

/-- Leases a block and gives it a name. -/
def allocate (s : Scenario) (id : String) (bytes : Word) (detailed : Bool) : Turn :=
  let turn := s.perform (.allocate bytes)
  match turn.result with
  | .reply (.granted block _) =>
    { turn with after :=
        { turn.after with leases := turn.after.leases ++ [⟨id, block, detailed⟩] } }
  | _ => turn

def onBatch (s : Scenario) (id : String) (act : Member → Turn) : Turn :=
  match s.member? id with
  | none => s.missing
  | some m => act m

def onLease (s : Scenario) (id : String) (act : Lease → Turn) : Turn :=
  match s.lease? id with
  | none => s.missing
  | some lease => act lease

/-- Looks at a batch without touching it. -/
def look (s : Scenario) (id : String) (view : Member → Result) : Turn :=
  s.onBatch id fun m => ⟨s, view m, []⟩

/-- The answers of a batch's events, should they all be released. -/
def farewell (s : Scenario) (m : Member) : Nat → Bool := s.cast.releaseAnswers m.batch.handles

def dropBatch (s : Scenario) (id : String) : Turn :=
  match s.member? id with
  | none => ⟨s, .existed false, []⟩
  | some m =>
    let turn := s.perform (.drop m.block (s.farewell m))
    ⟨{ turn.after with names := turn.after.names.filter (·.1 != id) }, .existed true, turn.effects⟩

def dropLease (s : Scenario) (id : String) : Turn :=
  match s.lease? id with
  | none => ⟨s, .existed false, []⟩
  | some lease =>
    let turn := s.perform (.dropLease lease.block)
    ⟨{ turn.after with leases := turn.after.leases.filter (·.name != id) }, .existed true,
      turn.effects⟩

def describeLease (s : Scenario) (lease : Lease) : Turn :=
  match lease.detailed, s.hub.governor with
  | true, .elastic pool =>
    match pool.find? lease.block with
    | some b => ⟨s, .text b.describe, []⟩
    | none => s.missing
  | _, _ => s.missing

def take (s : Scenario) : Step → Turn
  | .openBatch id config => s.ifGoverned (s.openBatch id config)
  | .openFrom id parameters =>
    s.ifGoverned
      (match Config.ofParameters parameters with
      | .error fault => ⟨s, .reply (.refused fault), []⟩
      | .ok config => s.openBatch id config)
  | .intake id event =>
    s.onBatch id fun m =>
      match s.cast.offer? event with
      | none => s.missing
      | some offer => s.perform (.act m.block (.offer offer))
  | .reset id => s.onBatch id fun m => s.perform (.act m.block .reset)
  | .close id => s.onBatch id fun m => s.perform (.act m.block (.close (s.farewell m)))
  | .poll id => s.look id fun _ => .reply .done
  | .assemble id => s.look id fun m => .request m.batch.assemble
  | .snapshot id => s.look id fun m => .snapshot m.batch.handles m.batch.commitIds
  | .stats id => s.look id fun m => .stats m.batch.stats
  | .describe id => s.look id fun m => .text (m.batch.describe (s.hub.limit m))
  | .dropBatch id => s.dropBatch id
  | .wait nanoseconds => s.perform (.wait nanoseconds)
  | .allocate id bytes detailed => s.ifGoverned (s.allocate id bytes detailed)
  | .install id policy => s.onLease id fun lease => s.perform (.install lease.block policy)
  | .closeLease id => s.onLease id fun lease => s.perform (.closeLease lease.block)
  | .dropLease id => s.dropLease id
  | .describeLease id => s.onLease id s.describeLease
  | .sweep direction => s.ifGoverned (s.perform (.sweep direction))
  | .describeGovernor =>
    match s.hub.governor with
    | .elastic pool => s.ifGoverned ⟨s, .governor pool.describe pool.ledger.capacity, []⟩
    | .capped _ => s.missing
  | .dropGovernor =>
    match s.hub.governor with
    | .elastic _ => ⟨{ s with governed := false }, .existed s.governed, []⟩
    | .capped _ => ⟨s, .existed false, []⟩
  | .setUsage bytes => s.perform (.setUsage bytes)
  | .press direction => s.perform (.press direction)
  | .inspect =>
    match s.hub.governor with
    | .elastic _ => s.missing
    | .capped gate => ⟨s, .reply (Hub.steered gate), []⟩

/-- One step, seen from outside. -/
def advance (s : Scenario) (step : Step) : Scenario × Answer :=
  let turn := s.take step
  (turn.after,
    { result := turn.result
      batch := step.id?.bind fun id => (turn.after.member? id).map (batchView turn.after.hub)
      memory := memoryView turn.after
      leases := leaseViews turn.after
      effects := turn.effects })

def play (s : Scenario) : List Step → List Answer
  | [] => []
  | step :: rest =>
    let (after, answer) := s.advance step
    answer :: after.play rest

end Scenario
end ElasticBatch
