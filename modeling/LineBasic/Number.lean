import LineBasic.Text.Decimal
import LineBasic.Number.Shortest

/-! # Numbers handed in from outside: double precision values and the text they have in messages -/
namespace LineBasic
set_option autoImplicit false

/-- Integers below 2^53 in magnitude are `whole`, zero of either sign included; fractions and larger
numbers keep their binary form `± significand · 2 ^ exponent`. -/
inductive Number where
  | whole (value : Int)
  | binary (negative : Bool) (significand : Nat) (exponent : Int)
  | infinite (negative : Bool)
  | nan
  deriving DecidableEq, Repr

namespace Number

/-- The value of a finite binary form, as an integer where it is one below 2^53. -/
def ofBinary (negative : Bool) (significand : Nat) (exponent : Int) : Number :=
  let numerator : Nat := significand * Nat.pow 2 exponent.toNat
  let divisor : Nat := Nat.pow 2 (-exponent).toNat
  let magnitude := numerator / divisor
  if numerator % divisor = 0 ∧ magnitude < Nat.pow 2 53 then
    .whole (if negative then -Int.ofNat magnitude else Int.ofNat magnitude)
  else .binary negative significand exponent

def ofFloat (x : Float) : Number :=
  let bits := x.toBits.toNat
  let negative := bits / Nat.pow 2 63 == 1
  let biased : Nat := bits / Nat.pow 2 52 % Nat.pow 2 11
  let fraction := bits % Nat.pow 2 52
  if biased = 2047 then (if fraction = 0 then .infinite negative else .nan)
  else if biased = 0 then ofBinary negative fraction (-1074)
  else ofBinary negative (Nat.pow 2 52 + fraction) (Int.ofNat biased - 1075)

/-- The quotient of two naturals to the nearest integer, a tie to the even one. -/
def roundedQuotient (numerator divisor : Nat) : Nat :=
  let low := numerator / divisor
  let twice := 2 * (numerator % divisor)
  if twice < divisor ∨ (twice = divisor ∧ low % 2 = 0) then low else low + 1

/-- The nearest number of double precision to `± magnitude · 2 ^ exponent`. -/
def rounded (negative : Bool) (magnitude : Nat) (exponent : Int) : Number :=
  let least := max (exponent + Int.ofNat magnitude.log2 - 52) (-1074)
  if least ≤ exponent then ofBinary negative (magnitude * Nat.pow 2 (exponent - least).toNat) least
  else
    let significand := roundedQuotient magnitude (Nat.pow 2 (least - exponent).toNat)
    if significand = Nat.pow 2 53 then ofBinary negative (Nat.pow 2 52) (least + 1)
    else ofBinary negative significand least

/-- No finite number of double precision needs a greater exponent. -/
def maxExponent : Int := 971

/-- The nearest number of double precision to an integer. Up to 53 binary digits are kept as they are; past
the greatest finite number there is only infinity. -/
def ofInt (value : Int) : Number :=
  if value.natAbs.log2 < 53 then .whole value
  else
    match rounded (decide (value < 0)) value.natAbs 0 with
    | .binary negative significand exponent =>
      if maxExponent < exponent then .infinite negative else .binary negative significand exponent
    | number => number

/-- One more, as near to it as double precision comes. -/
def succ : Number → Number
  | .whole value => .whole (value + 1)
  | .binary negative significand exponent =>
    let scaled := Int.ofNat (significand * Nat.pow 2 exponent.toNat)
    let sum := (if negative then -scaled else scaled) + Int.ofNat (Nat.pow 2 (-exponent).toNat)
    rounded (decide (sum < 0)) sum.natAbs (min exponent 0)
  | .infinite negative => .infinite negative
  | .nan => .nan

/-- How a number compares with an integer; what is no number does not compare. -/
def compareInt? (number : Number) (bound : Int) : Option Ordering :=
  match number with
  | .whole value => some (compare value bound)
  | .binary negative significand exponent =>
    let scaled := Int.ofNat (significand * Nat.pow 2 exponent.toNat)
    some (compare (if negative then -scaled else scaled) (bound * Int.ofNat (Nat.pow 2 (-exponent).toNat)))
  | .infinite negative => some (if negative then .lt else .gt)
  | .nan => none

def atMost (number : Number) (bound : Int) : Bool := (number.compareInt? bound).any Ordering.isLE

def atLeast (number : Number) (bound : Int) : Bool := (number.compareInt? bound).any Ordering.isGE

def wholePart? : Number → Option Int
  | .whole value => some value
  | .binary negative significand exponent =>
    let magnitude := significand * Nat.pow 2 exponent.toNat / Nat.pow 2 (-exponent).toNat
    some (if negative then -Int.ofNat magnitude else Int.ofNat magnitude)
  | .infinite _ | .nan => none

/-- The positions of the decimal point at which a number is written without an exponent. -/
structure Layout where
  firstPoint : Int
  lastPoint : Int

/-- Positional from one millionth up to below 10^21. -/
def layout : Layout := ⟨-5, 21⟩

def zeros (n : Nat) : List Char := List.replicate n '0'

/-- The number `0.d₁d₂… · 10 ^ point` in positional form. -/
def positional (digits : List Char) (point : Int) : List Char :=
  if point ≤ 0 then ['0', '.'] ++ zeros (-point).toNat ++ digits
  else if digits.length ≤ point.toNat then digits ++ zeros (point.toNat - digits.length)
  else digits.take point.toNat ++ ['.'] ++ digits.drop point.toNat

/-- The number `0.d₁d₂… · 10 ^ point` with one digit before the decimal point and a signed exponent. -/
def scientific (digits : List Char) (point : Int) : List Char :=
  let exponent := point - 1
  let fraction := digits.drop 1
  digits.take 1 ++ (if fraction.isEmpty then [] else '.' :: fraction) ++
    ['e', if exponent < 0 then '-' else '+'] ++ Nat.toDigits 10 exponent.natAbs

def Layout.write (layout : Layout) (d : Decimal) : List Char :=
  let all := Nat.toDigits 10 d.digits
  let digits := (all.reverse.dropWhile (· == '0')).reverse
  let point := all.length + d.exponent
  if layout.firstPoint ≤ point ∧ point ≤ layout.lastPoint then positional digits point
  else scientific digits point

def sign (negative : Bool) : String := if negative then "-" else ""

/-- Integers in full, all else with the fewest digits that read back as the same number. -/
def text : Number → String
  | .whole value => Text.decimal value
  | .binary negative significand exponent =>
    sign negative ++ String.ofList (layout.write (Interval.around significand exponent).shortest)
  | .infinite negative => sign negative ++ "Infinity"
  | .nan => "NaN"

end Number

end LineBasic
