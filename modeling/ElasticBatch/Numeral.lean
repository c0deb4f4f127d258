/-! Unsigned decimal numerals below a bound, read from left to right. -/
namespace ElasticBatch.Numeral

inductive Fault where
  | empty
  | invalidDigit
  | tooLarge
  deriving DecidableEq, Repr

def Fault.message : Fault → String
  | .empty => "cannot parse integer from empty string"
  | .invalidDigit => "invalid digit found in string"
  | .tooLarge => "number too large to fit in target type"

def digit? (c : Char) : Option Nat :=
  if '0' ≤ c ∧ c ≤ '9' then some (c.toNat - '0'.toNat) else none

/-- Reads on from a value. At one character a bad digit is reported before the overflow that it
would cause; an overflow at an earlier character comes first. -/
def readFrom (bound : Nat) : Nat → List Char → Except Fault Nat
  | value, [] => .ok value
  | value, c :: rest =>
    match digit? c with
    | none => .error .invalidDigit
    | some d =>
      if 10 * value + d < bound then readFrom bound (10 * value + d) rest
      else .error .tooLarge

/-- One plus sign may stand in front of the digits; no other sign is a digit. -/
def read (bound : Nat) : List Char → Except Fault Nat
  | [] => .error .empty
  | ['+'] => .error .invalidDigit
  | '+' :: digits => readFrom bound 0 digits
  | digits => readFrom bound 0 digits

end ElasticBatch.Numeral
