import ElasticBatch.Effect

/-! How a block answers to pressure and relief. -/
namespace ElasticBatch

/-- What is done about a resize, given the old size and the new one. -/
abbrev Callback := Word → Word → List Effect

/-- Tells an observer of the resize, and of which kind it is. -/
def Callback.tell (observer : String) (kind : Direction) : Callback :=
  fun old new => [.notice ⟨observer, kind, old, new⟩]

/-- The functions propose a new size; whoever applies the policy keeps it in bounds. -/
structure Policy where
  shrink : Word → Word
  expand : Word → Word
  onShrink : Option Callback := none
  onExpand : Option Callback := none

namespace Policy

def resize (p : Policy) : Direction → Word → Word
  | .shrink => p.shrink
  | .expand => p.expand

/-- Calls back about a resize, if a callback is set for its kind. -/
def notify (p : Policy) (direction : Direction) (old new : Word) : List Effect :=
  match direction with
  | .shrink => p.onShrink.elim [] fun call => call old new
  | .expand => p.onExpand.elim [] fun call => call old new

/-- The budget stays as it is. -/
def fixed : Policy where
  shrink old := old
  expand old := old

/-- Half under pressure; twice on relief, up to the cap. From nothing it grows as from one byte. -/
def halveAndDouble (cap : Word) : Policy where
  shrink old := old / 2
  expand old := min (Word.mulSat (max old 1) 2) cap

/-- Every resize is written to the log. -/
def journaled (p : Policy) : Policy :=
  { p with
    onShrink := some fun old new => [.log (.limitShrunk old new)]
    onExpand := some fun old new => [.log (.limitExpanded old new)] }

def describe (p : Policy) : String :=
  "ElasticPolicy \x7b shrink_callback: " ++ toString p.onShrink.isSome ++
    ", expand_callback: " ++ toString p.onExpand.isSome ++ ", .. \x7d"

/-- Arithmetic on a size. Nothing wraps: results are cut off at both ends of the words. -/
inductive Rule where
  | keep
  | const (n : Word)
  | add (n : Word)
  | sub (n : Word)
  | mul (n : Word)
  | div (n : Word)
  deriving DecidableEq, Repr

def Rule.apply : Rule → Word → Word
  | .keep, old => old
  | .const n, _ => n
  | .add n, old => Word.addSat old n
  | .sub n, old => Word.subSat old n
  | .mul n, old => Word.mulSat old n
  | .div n, old => old / n

def custom (shrink expand : Rule) : Policy where
  shrink := shrink.apply
  expand := expand.apply

theorem toNat_halve (cap old : Word) :
    ((halveAndDouble cap).shrink old).toNat = old.toNat / 2 := rfl

/-- No cap is beyond the words, so that where the doubling is cut off the cap is met first. -/
theorem toNat_double (cap old : Word) :
    ((halveAndDouble cap).expand old).toNat = min (max old.toNat 1 * 2) cap.toNat := by
  have bound := cap.toNat_lt_size
  change (min (Word.mulSat (max old 1) 2) cap).toNat = _
  rw [Word.toNat_min, Word.toNat_mulSat, Word.toNat_max]
  change min (min (max old.toNat 1 * 2) _) _ = _
  omega

end Policy
end ElasticBatch
