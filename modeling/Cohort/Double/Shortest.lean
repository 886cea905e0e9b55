import Cohort.Double.Basic

/-!
# The shortest decimal of a double

Among the decimals that read back as a double, `shortest` takes one with the fewest
digits and of those the nearest to the double.  Only the two neighbours of the double on
each decimal grid need be tried: if any point of the grid lies in the interval of
numbers that round to the double, one of them does.
-/

namespace Cohort.Double

open Text

/-- What to do when the two neighbours on the decimal grid are equally near. -/
inductive Tie where
  | toEven
  | up
  deriving DecidableEq

/-- The decimal `significand · 10^exponent`. -/
structure Decimal where
  significand : Nat
  exponent : Int
  deriving DecidableEq

/-- The numbers that round to a double, as quotients over one denominator. -/
structure Interval where
  low : Nat
  value : Nat
  high : Nat
  denominator : Nat
  /-- Do the ends belong to the interval? -/
  closed : Bool

/-- The interval of a double.  Below a power of two the doubles lie twice as close, so
the lower half step is half as long there. -/
def interval (d : Double) : Interval :=
  let unit := twoPow d.exponent.toNat
  let below := if d.significand = twoPow 52 ∧ -1074 < d.exponent then 1 else 2
  { low := (4 * d.significand - below) * unit
    value := 4 * d.significand * unit
    high := (4 * d.significand + 2) * unit
    denominator := 4 * twoPow (-d.exponent).toNat
    closed := d.significand % 2 == 0 }

def Interval.inUnits (range : Interval) (exponent : Int) : Interval :=
  let up := tenPow (-exponent).toNat
  { low := range.low * up
    value := range.value * up
    high := range.high * up
    denominator := range.denominator * tenPow exponent.toNat
    closed := range.closed }

def Interval.covers (range : Interval) (count : Nat) : Bool :=
  let point := count * range.denominator
  if range.closed then range.low ≤ point && point ≤ range.high
  else range.low < point && point < range.high

/-- The decimal exponent of the first digit of a positive quotient. -/
def leadingExponent (num den : Nat) : Int :=
  if den ≤ num then (natLetters (num / den)).length - 1
  else -((natLetters ((den + num - 1) / num - 1)).length : Int)

/-- The nearer of the two neighbours on a grid that lie in the interval, if any does. -/
def neighbour? (tie : Tie) (range : Interval) : Option Nat :=
  let lower := range.value / range.denominator
  let upper := lower + 1
  match range.covers lower, range.covers upper with
  | false, false => none
  | true, false => some lower
  | false, true => some upper
  | true, true =>
      let toLower := range.value - lower * range.denominator
      let toUpper := upper * range.denominator - range.value
      if toLower < toUpper then some lower
      else if toUpper < toLower then some upper
      else
        match tie with
        | .up => some upper
        | .toEven => some (if lower % 2 = 0 then lower else upper)

/-- Try the grids from coarse to fine: `digits` digits first, then one more, `tries`
times. -/
def searchGrids (tie : Tie) (range : Interval) (leading : Int) : Nat → Nat → Decimal
  | 0, digits =>
      let exponent := leading - digits + 1
      let units := range.inUnits exponent
      { significand := units.value / units.denominator, exponent }
  | tries + 1, digits =>
      let exponent := leading - digits + 1
      match neighbour? tie (range.inUnits exponent) with
      | some significand => { significand, exponent }
      | none => searchGrids tie range leading tries (digits + 1)

/-- A decimal of the same value whose significand does not end in zero. -/
def Decimal.strip (decimal : Decimal) : Decimal :=
  if decimal.significand = 0 then decimal
  else if decimal.significand % 10 = 0 then
    Decimal.strip { significand := decimal.significand / 10, exponent := decimal.exponent + 1 }
  else decimal
termination_by decimal.significand
decreasing_by
  show decimal.significand / 10 < decimal.significand
  omega

/-- The shortest decimal that reads back as the magnitude of a double, the nearest of
those.  Seventeen digits always suffice. -/
def shortest (tie : Tie) (d : Double) : Decimal :=
  if d.significand = 0 then { significand := 0, exponent := 0 }
  else
    let range := d.interval
    (searchGrids tie range (leadingExponent range.value range.denominator) 17 1).strip

end Cohort.Double
