import ElasticBatch.Log

/-! What an operation does to the world around it, in order. -/
namespace ElasticBatch

inductive Direction where
  | shrink
  | expand
  deriving DecidableEq, Repr

def Direction.name : Direction → String
  | .shrink => "shrink"
  | .expand => "expand"

/-- A request made of an event or of a governor, with the answer where one is given. Events are
named by their handles. -/
inductive Call where
  | retain (event : Nat) (granted : Bool)
  | release (event : Nat) (accepted : Bool)
  | payload (event : Nat)
  | tryAllocate (requested : Word)
  | setPolicy
  | closeBlock
  deriving DecidableEq, Repr

/-- A resize, as told to the observer of a block. -/
structure Notice where
  observer : String
  direction : Direction
  old : Word
  new : Word
  deriving DecidableEq, Repr

inductive Effect where
  | call (c : Call)
  | notice (n : Notice)
  | log (l : Log)
  deriving DecidableEq, Repr

namespace Effect

def call? : Effect → Option Call
  | .call c => some c
  | _ => none

def notice? : Effect → Option Notice
  | .notice n => some n
  | _ => none

def log? : Effect → Option Log
  | .log l => some l
  | _ => none

end Effect

def callsOf (effects : List Effect) : List Call := effects.filterMap Effect.call?

def noticesOf (effects : List Effect) : List Notice := effects.filterMap Effect.notice?

def logsOf (effects : List Effect) : List Log := effects.filterMap Effect.log?

theorem callsOf_append (a b : List Effect) : callsOf (a ++ b) = callsOf a ++ callsOf b :=
  List.filterMap_append

theorem noticesOf_append (a b : List Effect) : noticesOf (a ++ b) = noticesOf a ++ noticesOf b :=
  List.filterMap_append

theorem logsOf_append (a b : List Effect) : logsOf (a ++ b) = logsOf a ++ logsOf b :=
  List.filterMap_append

end ElasticBatch
