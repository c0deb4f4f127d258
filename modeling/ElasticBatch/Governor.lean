import ElasticBatch.Pool
import ElasticBatch.Gate

/-! Whoever grants and resizes the budgets of batches. -/
namespace ElasticBatch

inductive Governor where
  | elastic (pool : Pool)
  | capped (gate : Gate)

namespace Governor

/-- The new block's id, and what was seen of the request. The grant may be less than requested. -/
def allocate (requested : Word) : Governor → Nat × Governor × List Effect
  | .elastic pool =>
    let (id, pool, effects) := pool.allocate requested
    (id, .elastic pool, effects)
  | .capped gate =>
    let (id, gate, effects) := gate.allocate requested
    (id, .capped gate, effects)

def install (id : Nat) (policy : Policy) : Governor → Governor × List Effect
  | .elastic pool => (.elastic (pool.install id policy), [])
  | .capped gate =>
    let (gate, effects) := gate.install id policy
    (.capped gate, effects)

def usage (id : Nat) : Governor → Word
  | .elastic pool => pool.usage id
  | .capped gate => gate.usage id

def close (id : Nat) : Governor → Governor × List Effect
  | .elastic pool => (.elastic (pool.close id), [])
  | .capped gate =>
    let (gate, effects) := gate.close id
    (.capped gate, effects)

/-- A gate holds on to its blocks by itself. -/
def drop (id : Nat) : Governor → Governor
  | .elastic pool => .elastic (pool.drop id)
  | .capped gate => .capped gate

end Governor
end ElasticBatch
