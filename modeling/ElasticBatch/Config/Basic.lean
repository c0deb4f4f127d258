import ElasticBatch.Error
import ElasticBatch.Numeral
import ElasticBatch.Word

/-! The settings of a batch: how many bytes it may hold and how long it may wait. -/
namespace ElasticBatch

namespace Config

def defaultDelay : UInt32 := 1

def defaultSize : Word := 16777216

end Config

/-- A size limit is a request; the budget granted for it may be smaller. -/
structure Config where
  delaySeconds : UInt32 := Config.defaultDelay
  sizeBytes : Word := Config.defaultSize
  deriving DecidableEq, Repr

namespace Config

/-- Whatever is left out takes its default. -/
def ofOptions (delaySeconds : Option UInt32) (sizeBytes : Option Word) : Config where
  delaySeconds := delaySeconds.getD defaultDelay
  sizeBytes := sizeBytes.getD defaultSize

/-- Every event is sent as soon as it arrives. -/
def lowLatency : Config := ⟨0, 1048576⟩

/-- Large batches, sent seldom. -/
def highThroughput : Config := ⟨5, 67108864⟩

def delayMilliseconds (c : Config) : Nat := c.delaySeconds.toNat * 1000

def delayNanoseconds (c : Config) : Nat := c.delayMilliseconds * 1000000

def delayField : String := "max_delay_seconds"

def sizeField : String := "max_batch_size_bytes"

def describe (c : Config) : String :=
  "BatchConfig \x7b max_delay_seconds: " ++ toString c.delaySeconds ++
    ", max_batch_size_bytes: " ++ toString c.sizeBytes ++ " \x7d"

def longestDelay : UInt32 := 86400

/-- At most a day of delay, and room for at least one byte. -/
def Valid (c : Config) : Prop := c.delaySeconds ≤ longestDelay ∧ 1 ≤ c.sizeBytes

instance (c : Config) : Decidable c.Valid := inferInstanceAs (Decidable (_ ∧ _))

inductive Violation where
  | noRoom
  | delayTooLong (seconds : UInt32)
  deriving DecidableEq, Repr

def Violation.field : Violation → String
  | .noRoom => sizeField
  | .delayTooLong _ => delayField

/-- How violations are put into words. The order of the fields and of what is said of each is left
open. -/
abbrev Wording := List Violation → String

def sizeViolations (c : Config) : List Violation :=
  if 1 ≤ c.sizeBytes then [] else [.noRoom]

def delayViolations (c : Config) : List Violation :=
  if c.delaySeconds ≤ longestDelay then [] else [.delayTooLong c.delaySeconds]

def violations (c : Config) : List Violation := c.sizeViolations ++ c.delayViolations

/-- Why no usable settings came out. -/
inductive Fault where
  | unreadable (raw key : String) (cause : Numeral.Fault)
  | outOfRange (violations : List Violation)
  deriving DecidableEq, Repr

namespace Fault

def message (tell : Wording) : Fault → String
  | .unreadable raw key cause =>
    "invalid value '" ++ raw ++ "' for " ++ key ++ ": " ++ cause.message
  | .outOfRange violations => tell violations

def error (tell : Wording) (fault : Fault) : Error := .configuration (fault.message tell)

end Fault

/-- Valid settings pass unchanged. -/
def check (c : Config) : Except Fault Config :=
  if c.Valid then .ok c else .error (.outOfRange c.violations)

theorem check_eq_ok_iff {c d : Config} : c.check = .ok d ↔ d = c ∧ c.Valid := by
  unfold check
  split
  · next valid => simp only [Except.ok.injEq, valid, and_true, eq_comm]
  · next invalid => simp only [reduceCtorEq, invalid, and_false]

end Config
end ElasticBatch
