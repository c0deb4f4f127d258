/-! The shortest decimal that reads back as a given binary fraction.

A finite nonzero double is `m * 2 ^ q` with an integer `m` below `2 ^ 53`. The reals that round to
it form an interval, closed exactly when `m` is even. On the grid of decimals with a given last
place only the two neighbours of the value can lie in the interval, so testing those two on ever
finer grids finds the fewest digits; of two hits the nearer is taken. -/
namespace ElasticBatch.Decimal

/-- The value `digits * 10 ^ exponent`. -/
structure Scientific where
  digits : Nat
  exponent : Int
  deriving DecidableEq, Repr

/-- A positive binary fraction. At the start of a binade the gap below is half the gap above. -/
structure Binary where
  mantissa : Nat
  exponent : Int
  narrowBelow : Bool
  deriving DecidableEq, Repr

namespace Binary

def ofBits (bits : UInt64) : Binary :=
  let field := (bits >>> 52 &&& 0x7FF).toNat
  let fraction := (bits &&& 0xFFFFFFFFFFFFF).toNat
  if field = 0 then ⟨fraction, -1074, false⟩
  else ⟨fraction + 0x10000000000000, (field : Int) - 1075, decide (fraction = 0 ∧ 1 < field)⟩

/-- Four times the value over the place `10 ^ place`, as a fraction. -/
def scaled (place : Int) (quarters : Nat) (b : Binary) : Nat × Nat :=
  (quarters * Nat.pow 2 b.exponent.toNat * Nat.pow 10 (-place).toNat,
    4 * Nat.pow 2 (-b.exponent).toNat * Nat.pow 10 place.toNat)

/-- The multiple of `10 ^ place` rounds back to the value. -/
def covers (b : Binary) (place : Int) (multiple : Nat) : Bool :=
  let (low, unit) := b.scaled place (4 * b.mantissa - if b.narrowBelow then 1 else 2)
  let (high, _) := b.scaled place (4 * b.mantissa + 2)
  if b.mantissa % 2 = 0 then low ≤ multiple * unit && multiple * unit ≤ high
  else low < multiple * unit && multiple * unit < high

/-- The better of the two neighbours on the grid of `10 ^ place`; a tie goes to the even one. -/
def onGrid? (b : Binary) (place : Int) : Option Nat :=
  let (value, unit) := b.scaled place (4 * b.mantissa)
  let below := value / unit
  let down := value % unit
  let up := unit - down
  match b.covers place below, b.covers place (below + 1) with
  | true, true =>
    some (if down < up then below else if up < down then below + 1
      else if below % 2 = 0 then below else below + 1)
  | true, false => some below
  | false, true => some (below + 1)
  | false, false => none

/-- The place of the leading digit. -/
def leadingPlace (b : Binary) : Int :=
  let (value, unit) := b.scaled (-400) (4 * b.mantissa)
  ((Nat.toDigits 10 (value / unit)).length : Int) - 401

/-- The coarsest of the grids that holds a hit, from the leading place down. -/
def coarsest? (b : Binary) (top : Int) : Nat → Option Scientific
  | 0 => none
  | fuel + 1 =>
    match b.onGrid? top with
    | some multiple => some ⟨multiple, top⟩
    | none => b.coarsest? (top - 1) fuel

/-- Seventeen significant digits always suffice for a double. -/
def shortest (b : Binary) : Scientific :=
  (b.coarsest? b.leadingPlace 18).getD ⟨0, 0⟩

end Binary

/-- How a float is laid out: positional from `10 ^ least` up to below `10 ^ most`, with a point and
at least one digit after it, else with an exponent, which `signed` gives a `+` when it is not
negative. -/
structure Layout where
  least : Int
  most : Int
  signed : Bool
  deriving DecidableEq, Repr

def stripZeros : Nat → Scientific → Scientific
  | 0, d => d
  | fuel + 1, d =>
    if d.digits ≠ 0 ∧ d.digits % 10 = 0 then stripZeros fuel ⟨d.digits / 10, d.exponent + 1⟩ else d

def Layout.write (layout : Layout) (d : Scientific) : String :=
  let shown := (toString d.digits).toList
  let point : Int := shown.length + d.exponent
  let zeros (n : Int) : List Char := List.replicate n.toNat '0'
  if layout.least < point ∧ point ≤ layout.most then
    String.ofList <|
      if point ≤ 0 then ['0', '.'] ++ zeros (-point) ++ shown
      else if 0 ≤ d.exponent then shown ++ zeros d.exponent ++ ['.', '0']
      else shown.take point.toNat ++ ['.'] ++ shown.drop point.toNat
  else
    String.ofList (shown.take 1 ++ (if shown.length = 1 then [] else ['.'] ++ shown.drop 1)) ++
      "e" ++ (if layout.signed ∧ 0 < point then "+" else "") ++ toString (point - 1)

def Layout.float (layout : Layout) (x : Float) : String :=
  let bits := x.toBits
  let b := Binary.ofBits bits
  let sign := if 0x8000000000000000 ≤ bits then "-" else ""
  sign ++ if b.mantissa = 0 then "0.0" else layout.write (stripZeros 20 b.shortest)

end ElasticBatch.Decimal
