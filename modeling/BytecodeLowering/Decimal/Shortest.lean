/-!
# Shortest decimals

The fewest decimal digits that read back as a given binary number.

A number `m * 2 ^ q` stands for every real that rounds to it, an interval
around it.  For one digit, two digits and so on the two neighbours of the
number on that decimal grid are tried; the first grid with a neighbour inside
the interval wins, of two neighbours the nearer, and the upper one when both
are equally near.  All comparisons are exact in the natural numbers.
-/

namespace BytecodeLowering.Decimal

structure Scientific where
  digits : Nat
  exponent : Int
  deriving DecidableEq, Repr

/-- A positive binary number with the reals that round to it, in quarters of
its last place: it lies at `centre`, the interval runs from `centre - below` to
`centre + above`, and the unit is `2 ^ exponent`. -/
structure Interval where
  centre : Nat
  below : Nat
  above : Nat
  exponent : Int
  closed : Bool
  deriving DecidableEq, Repr

/-- The lower neighbour of a power of two is only half as far away, and the
ends round to the number exactly when its significand is even. -/
def Interval.around (significand : Nat) (exponent : Int) (atPowerOfTwo : Bool) : Interval :=
  { centre := 4 * significand
    below := if atPowerOfTwo then 1 else 2
    above := 2
    exponent := exponent - 2
    closed := significand % 2 == 0 }

/-- The grid of the multiples of `10 ^ exponent`, brought to a common
denominator with the interval: the unit of the interval is `scale`, a step of
the grid is `step`. -/
structure Grid where
  scale : Nat
  step : Nat
  deriving DecidableEq, Repr

def Interval.grid (i : Interval) (exponent : Int) : Grid :=
  { scale := Nat.pow 2 i.exponent.toNat * Nat.pow 10 (-exponent).toNat
    step := Nat.pow 2 (-i.exponent).toNat * Nat.pow 10 exponent.toNat }

def Interval.contains (i : Interval) (g : Grid) (multiple : Nat) : Bool :=
  let low := (i.centre - i.below) * g.scale
  let high := (i.centre + i.above) * g.scale
  let point := multiple * g.step
  if i.closed then low ≤ point && point ≤ high
  else low < point && point < high

def Interval.nearestIn? (i : Interval) (exponent : Int) : Option Scientific :=
  let g := i.grid exponent
  let down := i.centre * g.scale / g.step
  let up := down + 1
  let upperNearer := g.step ≤ 2 * (i.centre * g.scale - down * g.step)
  match i.contains g down, i.contains g up with
  | true, true => some ⟨if upperNearer then up else down, exponent⟩
  | true, false => some ⟨down, exponent⟩
  | false, true => some ⟨up, exponent⟩
  | false, false => none

/-- The number of digits before the point; for a number below one, minus the
number of zeros that follow the point. -/
def Interval.magnitude (i : Interval) : Int :=
  let g := i.grid 0
  let whole := i.centre * g.scale / g.step
  if 0 < whole then (Nat.toDigits 10 whole).length
  else
    let zeros := (List.range 400).find? fun n => g.step ≤ i.centre * g.scale * Nat.pow 10 (n + 1)
    Int.negOfNat (zeros.getD 0)

/-- Seventeen digits always tell two double-precision numbers apart. -/
def Interval.shortest (i : Interval) : Scientific :=
  let magnitude := i.magnitude
  let tries := (List.range 17).map fun (n : Nat) => i.nearestIn? (magnitude - (n + 1))
  (tries.findSome? id).getD ⟨i.centre, i.exponent⟩

end BytecodeLowering.Decimal
