/-! # Shortest decimals: the fewest digits that still round to a given binary number

A positive number `significand · 2 ^ exponent` with a significand below 2^53 is known by the interval
of reals that round to it; the ends belong to the interval if the significand is even. Grids of
decimals with 1, 2, … digits are tried in turn. If any point of a grid lies in the interval, so does
one of the two neighbours of the number itself, and the nearer of them is taken.
-/
namespace LineBasic.Number
set_option autoImplicit false

/-- A rounding interval and the number it belongs to, all as numerators over `unit`. -/
structure Interval where
  low : Nat
  value : Nat
  high : Nat
  unit : Nat
  closed : Bool

structure Decimal where
  digits : Nat
  exponent : Int

/-- Neighbouring binary numbers are one step away, except that the step below the least significand
of full width is half as wide. -/
def Interval.around (significand : Nat) (exponent : Int) : Interval :=
  let scale := Nat.pow 2 (exponent - 2).toNat
  let below := if significand = Nat.pow 2 52 ∧ -1074 < exponent then 1 else 2
  { low := (4 * significand - below) * scale
    value := 4 * significand * scale
    high := (4 * significand + 2) * scale
    unit := Nat.pow 2 (2 - exponent).toNat
    closed := significand % 2 == 0 }

namespace Interval

def digitCount (n : Nat) : Nat := (Nat.toDigits 10 n).length

/-- Where the point stands: the number lies between `10 ^ (point - 1)` and `10 ^ point`. -/
def point (i : Interval) : Int :=
  if i.unit ≤ i.value then digitCount (i.value / i.unit) else 1 - (digitCount (i.unit / i.value) : Int)

/-- A decimal and a bound of the interval, brought to one denominator. -/
def scaled (i : Interval) (d : Decimal) : Nat := d.digits * Nat.pow 10 d.exponent.toNat * i.unit

def bound (d : Decimal) (numerator : Nat) : Nat := numerator * Nat.pow 10 (-d.exponent).toNat

def contains (i : Interval) (d : Decimal) : Bool :=
  let n := i.scaled d
  if i.closed then decide (bound d i.low ≤ n) && decide (n ≤ bound d i.high)
  else decide (bound d i.low < n) && decide (n < bound d i.high)

/-- The greatest decimal of the grid with this exponent that is not above the number. -/
def floor (i : Interval) (exponent : Int) : Decimal :=
  ⟨i.value * Nat.pow 10 (-exponent).toNat / (i.unit * Nat.pow 10 exponent.toNat), exponent⟩

/-- The nearer of the two neighbours on the grid, if it is in the interval; of two at the same
distance the one with an even last digit. -/
def nearest? (i : Interval) (exponent : Int) : Option Decimal :=
  let low := i.floor exponent
  let high : Decimal := ⟨low.digits + 1, exponent⟩
  let toLow := bound low i.value - i.scaled low
  let toHigh := i.scaled high - bound high i.value
  let lowFirst := toLow < toHigh || (toLow == toHigh && low.digits % 2 == 0)
  match i.contains low, i.contains high with
  | true, true => some (if lowFirst then low else high)
  | true, false => some low
  | false, true => some high
  | false, false => none

/-- Seventeen digits tell any two binary numbers apart, so that the search does not run out. -/
def shortest (i : Interval) : Decimal :=
  ((List.range 17).findSome? fun k => i.nearest? (i.point - Int.ofNat (k + 1))).getD (i.floor (i.point - 17))

end Interval

end LineBasic.Number
