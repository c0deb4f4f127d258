import ElasticBatch.Policy

/-! A governor that caps every grant and is then steered by hand. It reports each request made of
it, and closing a block leaves its size as it was. -/
namespace ElasticBatch

namespace Gate

structure Block where
  usage : Word
  released : Bool := false
  policy : Policy := .fixed

end Gate

/-- The blocks in the order of their grants; a block's id is its place. -/
structure Gate where
  cap : Word
  blocks : List Gate.Block := []

namespace Gate

def usage (g : Gate) (id : Nat) : Word := (g.blocks[id]?.map Block.usage).getD 0

def update (g : Gate) (id : Nat) (f : Block → Block) : Gate :=
  { g with blocks := g.blocks.modify id f }

def allocate (g : Gate) (requested : Word) : Nat × Gate × List Effect :=
  (g.blocks.length, { g with blocks := g.blocks ++ [{ usage := min requested g.cap }] },
    [.call (.tryAllocate requested)])

def install (g : Gate) (id : Nat) (policy : Policy) : Gate × List Effect :=
  (g.update id fun b => { b with policy := policy }, [.call .setPolicy])

def close (g : Gate) (id : Nat) : Gate × List Effect :=
  (g.update id fun b => { b with released := true }, [.call .closeBlock])

/-- The block granted last. -/
def latest? (g : Gate) : Option Block := g.blocks.getLast?

def updateLatest (g : Gate) (f : Block → Block) : Gate := g.update (g.blocks.length - 1) f

def setUsage (g : Gate) (bytes : Word) : Gate := g.updateLatest fun b => { b with usage := bytes }

/-- Applies the policy of the block granted last to its size, unclamped, and calls back even where
nothing changed. -/
def press (g : Gate) (direction : Direction) : Gate × List Effect :=
  match g.latest? with
  | none => (g, [])
  | some b =>
    let new := b.policy.resize direction b.usage
    (g.setUsage new, b.policy.notify direction b.usage new)

end Gate
end ElasticBatch
