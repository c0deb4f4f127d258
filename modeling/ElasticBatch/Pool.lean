import ElasticBatch.Policy

/-! A fixed capacity handed out in blocks. Under pressure every block shrinks by its own policy; on
relief the blocks grow in allocation order for as long as there is room. -/
namespace ElasticBatch

/-- How much of the capacity is handed out. -/
structure Ledger where
  capacity : Word
  used : Word := 0
  deriving DecidableEq, Repr

namespace Ledger

def free (l : Ledger) : Word := Word.subSat l.capacity l.used

/-- Hands out what is wanted, or all there is. -/
def grant (l : Ledger) (wanted : Word) : Word := min wanted l.free

def take (l : Ledger) (bytes : Word) : Ledger := { l with used := l.used + bytes }

def giveBack (l : Ledger) (bytes : Word) : Ledger := { l with used := l.used - bytes }

end Ledger

structure Block where
  id : Nat
  usage : Word
  released : Bool := false
  policy : Policy := .fixed

/-- A resize that took effect, and the policy that it took effect under. -/
structure Change where
  block : Nat
  direction : Direction
  old : Word
  new : Word
  policy : Policy

def Change.effects (c : Change) : List Effect := c.policy.notify c.direction c.old c.new

namespace Block

/-- The size that the policy asks for; a shrink never grows and an expansion never shrinks. -/
def target (b : Block) : Direction → Word
  | .shrink => min (b.policy.shrink b.usage) b.usage
  | .expand => max (b.policy.expand b.usage) b.usage

def describe (b : Block) : String :=
  "ElasticBlock \x7b usage: " ++ toString b.usage ++ ", released: " ++ toString b.released ++
    " \x7d"

/-- The size after a resize under a ledger. A released block stays as it is. -/
def resized (b : Block) (l : Ledger) (direction : Direction) : Word :=
  if b.released then b.usage
  else
    match direction with
    | .shrink => b.target .shrink
    | .expand => b.usage + l.grant (b.target .expand - b.usage)

/-- No bytes are left, and no resize brings any back. -/
def shut (b : Block) : Block := { b with usage := 0, released := true }

def change? (b : Block) (direction : Direction) (new : Word) : Option Change :=
  if new = b.usage then none
  else some ⟨b.id, direction, b.usage, new, b.policy⟩

end Block

namespace Ledger

/-- Follows a block from one size to another. -/
def follow (l : Ledger) (old new : Word) : Ledger :=
  if old ≤ new then l.take (new - old) else l.giveBack (old - new)

end Ledger

/-- The blocks are those still held by someone, in allocation order. -/
structure Pool where
  ledger : Ledger
  blocks : List Block := []
  serial : Nat := 0

namespace Pool

def ofCapacity (capacity : Word) : Pool where
  ledger := ⟨capacity, 0⟩

def find? (p : Pool) (id : Nat) : Option Block := p.blocks.find? (·.id == id)

/-- The size of a block; nothing if it is gone. -/
def usage (p : Pool) (id : Nat) : Word := ((p.find? id).map Block.usage).getD 0

def update (p : Pool) (id : Nat) (f : Block → Block) : Pool :=
  { p with blocks := p.blocks.map fun b => if b.id == id then f b else b }

/-- The new block's id, and the line logged for it. -/
def allocate (p : Pool) (requested : Word) : Nat × Pool × List Effect :=
  let granted := p.ledger.grant requested
  (p.serial,
    { ledger := p.ledger.take granted
      blocks := p.blocks ++ [{ id := p.serial, usage := granted }]
      serial := p.serial + 1 },
    [.log (.allocated requested granted)])

def install (p : Pool) (id : Nat) (policy : Policy) : Pool :=
  p.update id fun b => { b with policy := policy }

/-- Gives the bytes back once. -/
def close (p : Pool) (id : Nat) : Pool :=
  match p.find? id with
  | none => p
  | some b =>
    if b.released then p
    else { p.update id Block.shut with ledger := p.ledger.giveBack b.usage }

/-- The last holder lets go of the block: unless it was closed, its bytes go back. -/
def drop (p : Pool) (id : Nat) : Pool :=
  match p.find? id with
  | none => p
  | some b =>
    { p with
      ledger := if b.released then p.ledger else p.ledger.giveBack b.usage
      blocks := p.blocks.filter (·.id != id) }

/-- One block after the other, each against the ledger as the one before left it. -/
def sweepBlocks (direction : Direction) : Ledger → List Block → Ledger × List Block × List Change
  | l, [] => (l, [], [])
  | l, b :: rest =>
    let new := b.resized l direction
    let (after, blocks, changes) := sweepBlocks direction (l.follow b.usage new) rest
    (after, { b with usage := new } :: blocks, (b.change? direction new).toList ++ changes)

/-- Also gives the blocks that changed, in allocation order. -/
def sweep (p : Pool) (direction : Direction) : Pool × List Change :=
  let (ledger, blocks, changes) := sweepBlocks direction p.ledger p.blocks
  ({ p with ledger := ledger, blocks := blocks }, changes)

def describe (p : Pool) : String :=
  "ElasticMemoryManager \x7b capacity: " ++ toString p.ledger.capacity ++ ", used: " ++
    toString p.ledger.used ++ " \x7d"

end Pool
end ElasticBatch
