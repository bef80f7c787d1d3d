import DataLayer.Number.Double

/- The decimal number with the fewest digits among those that are nearest to a double and no other.
   Every double is a whole number of units of 10^-1074, and so are the ends of the interval whose
   numbers round to it once everything is doubled twice. The search tries ever finer powers of ten:
   if a multiple of the power lies in the interval, so does one of the two next to the double. -/
namespace DataLayer.Number

structure Interval where
  low : Nat
  value : Nat
  high : Nat
  closed : Bool
  deriving DecidableEq, Repr

namespace Interval

def holds (i : Interval) (x : Nat) : Bool :=
  if i.closed then i.low ≤ x && x ≤ i.high else i.low < x && x < i.high

/-- The quotient of the multiple of step nearest to the value, if a multiple is in the interval. Of
    two that are equally near, the even quotient is taken. -/
def nearestMultiple? (i : Interval) (step : Nat) : Option Nat :=
  let below := i.value / step
  match i.holds (below * step), i.holds ((below + 1) * step) with
  | true, true => some (Double.roundedQuotient i.value step)
  | true, false => some below
  | false, true => some (below + 1)
  | false, false => none

def coarsest? (i : Interval) (scale : Nat) : Nat → Option (Nat × Nat)
  | 0 => (i.nearestMultiple? scale).map (·, 0)
  | k + 1 =>
      match i.nearestMultiple? (scale * Nat.pow 10 (k + 1)) with
      | some quotient => some (quotient, k + 1)
      | none => i.coarsest? scale k

end Interval

namespace Double

/-- The numbers that are nearest to the double, in quarters of 10^-1074. Below a power of two the
    next double is only half as far away as above it; the ends round to the double if its
    significand is even. -/
def interval (d : Double) : Interval :=
  let gap := Nat.pow 2 d.exponent * Nat.pow 5 1074
  let below := if d.significand = Nat.pow 2 52 && d.exponent ≠ 0 then gap else 2 * gap
  let value := 4 * d.units * Nat.pow 5 1074
  ⟨value - below, value, value + 2 * gap, d.significand % 2 == 0⟩

def shortest (d : Double) : Decimal :=
  if d.significand = 0 then ⟨0, 0⟩
  else
    let i := d.interval
    match i.coarsest? 4 (Nat.toDigits 10 i.value).length with
    | some (digits, power) => ⟨digits, (power : Int) - 1074⟩
    | none => ⟨i.value / 4, -1074⟩

end Double

end DataLayer.Number
