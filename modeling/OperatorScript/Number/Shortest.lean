import OperatorScript.Number.Binary64

/-!
The shortest decimal that reads back as a floating-point number.

Around every finite number lies the interval of reals that round to it; its ends belong to it
exactly when the mantissa is even. The shortest decimal is the point of that interval on the
coarsest grid of powers of ten that has one, and of two such points the nearer. Which of two equally
near points is taken is left to the caller.
-/

set_option autoImplicit false
set_option relaxedAutoImplicit false

namespace OperatorScript

/-- A decimal: `digits * 10 ^ scale`. -/
structure Decimal where
  digits : Nat
  scale : Int
deriving DecidableEq

inductive Tie where
  | even
  | up
deriving DecidableEq

namespace Binary64

/-- The reals that round to a positive number, in quarters of a unit. -/
structure RoundingInterval where
  low : Nat
  middle : Nat
  high : Nat
  closed : Bool

/-- The rounding interval of the number with this mantissa and exponent. Below a power of two the
neighbours are twice as dense, so the lower half of the interval is shorter there. -/
def roundingInterval (mantissa exponent : Nat) : RoundingInterval :=
  let quarter := Nat.pow 2 exponent
  let middle := 4 * mantissa * quarter
  { low := middle - (if mantissa = Nat.pow 2 52 ∧ exponent ≠ 0 then quarter else 2 * quarter)
    middle
    high := middle + 2 * quarter
    closed := mantissa % 2 == 0 }

def quartersOfOne : Nat := 4 * one

/-- A grid of decimals next to an interval: `step` is the distance of its points, both measures
being multiplied by one positive number that makes them whole. -/
structure Grid where
  interval : RoundingInterval
  step : Nat

def RoundingInterval.grid (i : RoundingInterval) (scale : Int) : Grid :=
  let up := Nat.pow 10 scale.toNat
  let down := Nat.pow 10 (-scale).toNat
  { interval :=
      { low := i.low * down, middle := i.middle * down, high := i.high * down, closed := i.closed }
    step := quartersOfOne * up }

def Grid.hits (g : Grid) (n : Nat) : Bool :=
  let point := n * g.step
  if g.interval.closed then decide (g.interval.low ≤ point) && decide (point ≤ g.interval.high)
  else decide (g.interval.low < point) && decide (point < g.interval.high)

def Grid.nearest? (tie : Tie) (g : Grid) : Option Nat :=
  let below := g.interval.middle / g.step
  let rest := g.interval.middle % g.step
  match g.hits below, g.hits (below + 1) with
  | true, false => some below
  | false, true => some (below + 1)
  | false, false => none
  | true, true =>
    if 2 * rest < g.step then some below
    else if g.step < 2 * rest then some (below + 1)
    else
      match tie with
      | .up => some (below + 1)
      | .even => if below % 2 = 0 then some below else some (below + 1)

/-- Looks for a point on ever finer grids, `fuel` of them, the first one at `scale`. -/
def RoundingInterval.coarsest (tie : Tie) (i : RoundingInterval) : Nat → Int → Decimal
  | 0, scale => { digits := 0, scale }
  | fuel + 1, scale =>
    match (i.grid scale).nearest? tie with
    | some n => { digits := n, scale }
    | none => i.coarsest tie fuel (scale - 1)

/-- The shortest decimal of the positive number with this mantissa and exponent. No number reaches
`10 ^ 309`, and every interval has a point on the grid of `10 ^ (-324)`. -/
def shortest (tie : Tie) (mantissa exponent : Nat) : Decimal :=
  (roundingInterval mantissa exponent).coarsest tie 634 309

end Binary64

namespace Decimal

def text (d : Decimal) : List Char := Nat.toDigits 10 d.digits

def exponent (d : Decimal) : Int := d.scale + (d.text.length : Int) - 1

/-- The decimal written with a point and at least `least` digits after it; without the point if
there is no digit after it. -/
def positional (least : Nat) (d : Decimal) : String :=
  let digits := d.text
  let places := (-d.scale).toNat
  let filled := List.replicate (places + 1 - digits.length) '0' ++ digits ++
    List.replicate d.scale.toNat '0'
  let whole := filled.take (filled.length - places)
  let fraction := filled.drop (filled.length - places)
  let fraction := fraction ++ List.replicate (least - fraction.length) '0'
  String.ofList (if fraction.isEmpty then whole else whole ++ '.' :: fraction)

def scientific (d : Decimal) : String :=
  let mantissa :=
    match d.text with
    | first :: second :: rest => first :: '.' :: second :: rest
    | digits => digits
  let sign := if d.exponent < 0 then '-' else '+'
  String.ofList (mantissa ++ 'e' :: sign :: Nat.toDigits 10 d.exponent.natAbs)

end Decimal

end OperatorScript
