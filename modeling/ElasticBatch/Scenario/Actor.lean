import ElasticBatch.Batch

/-! Scripted events: what they answer is laid down in advance, call by call. -/
namespace ElasticBatch.Scenario

/-- Answers to successive calls; the last one repeats. -/
structure Script (α : Type) where
  first : α
  later : List α := []

namespace Script

/-- What is left after one call. -/
def next : Script α → Script α
  | ⟨a, []⟩ => ⟨a, []⟩
  | ⟨_, b :: rest⟩ => ⟨b, rest⟩

def skip (s : Script α) : Nat → Script α
  | 0 => s
  | calls + 1 => s.next.skip calls

/-- The answer to the call that comes after `calls` others. -/
def answer (s : Script α) (calls : Nat) : α := (s.skip calls).first

end Script

/-- What makes two events equal: being one event, nothing at all, or a shared name. -/
inductive Likeness where
  | identity
  | never
  | named (name : String)
  deriving DecidableEq, Repr

/-- Equality of two events by likeness; identity compares the handles. -/
def Likeness.equals (a b : Likeness) (same : Bool) : Bool :=
  match a, b with
  | .identity, .identity => same
  | .named x, .named y => x == y
  | _, _ => false

structure Actor where
  commitId : Word
  report : String
  likeness : Likeness := .identity
  payloads : Script (Except Error Payload)
  retains : Script Bool := ⟨true, []⟩
  releases : Script Bool := ⟨true, []⟩

abbrev Cast := List Actor

namespace Cast

def likeness (cast : Cast) (handle : Nat) : Likeness :=
  (cast[handle]?.map Actor.likeness).getD .never

/-- An actor is known to batches by its place in the cast. -/
def event (cast : Cast) (handle : Nat) (a : Actor) : Event where
  handle := handle
  commitId := a.commitId
  report := a.report
  equals other := a.likeness.equals (cast.likeness other) (handle == other)

/-- What the actor would say next to each question. -/
def offer? (cast : Cast) (handle : Nat) : Option Offer :=
  cast[handle]?.map fun a =>
    { event := cast.event handle a
      retained := a.retains.first
      payload := a.payloads.first
      released := a.releases.first }

/-- Answers to the releases of a list of events, one event after the other. -/
def releaseAnswers (cast : Cast) (handles : List Nat) (place : Nat) : Bool :=
  match handles[place]? with
  | none => true
  | some handle =>
    match cast[handle]? with
    | none => true
    | some a => a.releases.answer ((handles.take place).count handle)

def retainsOf (handle : Nat) (calls : List Call) : Nat :=
  calls.countP fun c =>
    match c with
    | .retain event _ => event == handle
    | _ => false

def releasesOf (handle : Nat) (calls : List Call) : Nat :=
  calls.countP fun c =>
    match c with
    | .release event _ => event == handle
    | _ => false

def payloadsOf (handle : Nat) (calls : List Call) : Nat :=
  calls.countP fun c =>
    match c with
    | .payload event => event == handle
    | _ => false

/-- Every actor moves on by the calls made on it. -/
def advance (cast : Cast) (calls : List Call) : Cast :=
  cast.mapIdx fun handle a =>
    { a with
      payloads := a.payloads.skip (payloadsOf handle calls)
      retains := a.retains.skip (retainsOf handle calls)
      releases := a.releases.skip (releasesOf handle calls) }

end Cast
end ElasticBatch.Scenario
