import ElasticBatch.Pool

/-! Runs of a pool: what its holders and whoever feels the pressure ask of it, in order. -/
namespace ElasticBatch.Pool

inductive Op where
  | allocate (requested : Word)
  | install (id : Nat) (policy : Policy)
  | sweep (direction : Direction)
  | close (id : Nat)
  | drop (id : Nat)

/-- The pool after an operation, and what was seen of it. -/
def step (p : Pool) : Op → Pool × List Effect
  | .allocate requested => (p.allocate requested).2
  | .install id policy => (p.install id policy, [])
  | .sweep direction => ((p.sweep direction).1, (p.sweep direction).2.flatMap Change.effects)
  | .close id => (p.close id, [])
  | .drop id => (p.drop id, [])

/-- The pool after a run, and all that was seen of it. -/
def run (p : Pool) : List Op → Pool × List Effect
  | [] => (p, [])
  | op :: rest =>
    let (next, effects) := p.step op
    let (last, later) := next.run rest
    (last, effects ++ later)

theorem run_append (p : Pool) (first second : List Op) :
    p.run (first ++ second) =
      (((p.run first).1.run second).1, (p.run first).2 ++ ((p.run first).1.run second).2) := by
  induction first generalizing p with
  | nil => rfl
  | cons op rest ih => simp only [List.cons_append, run, ih, List.append_assoc]

end ElasticBatch.Pool
