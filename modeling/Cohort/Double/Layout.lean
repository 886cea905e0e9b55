import Cohort.Double.Shortest
import Cohort.Text.Numeral

namespace Cohort.Double

open Cohort.Text

/-- The decisions of a number format. -/
structure Layout where
  /-- Which of two equally near shortest decimals is taken. -/
  tie : Tie
  /-- The decimal exponents of numbers that are written out in full. -/
  positional : Int → Bool
  /-- Is a whole number that is written out in full given the fraction `.0`? -/
  wholeFraction : Bool

def Layout.full (layout : Layout) (decimal : Decimal) : List Char :=
  let digits := natLetters decimal.significand
  let point : Int := digits.length + decimal.exponent
  if point ≤ 0 then '0' :: '.' :: List.replicate (-point).toNat '0' ++ digits
  else if digits.length ≤ point then
    digits ++ List.replicate (point - digits.length).toNat '0' ++
      (if layout.wholeFraction then ['.', '0'] else [])
  else digits.take point.toNat ++ '.' :: digits.drop point.toNat

/-- A decimal with one digit before the point and an exponent. -/
def scientific (decimal : Decimal) : List Char :=
  let digits := natLetters decimal.significand
  let exponent : Int := decimal.exponent + digits.length - 1
  let mantissa := if digits.length ≤ 1 then digits else digits.take 1 ++ '.' :: digits.drop 1
  let sign := if exponent < 0 then '-' else '+'
  mantissa ++ 'e' :: sign :: natLetters exponent.natAbs

def Layout.write (layout : Layout) (d : Double) : List Char :=
  let decimal := d.shortest layout.tie
  let leading : Int := decimal.exponent + (natLetters decimal.significand).length - 1
  let body := if layout.positional leading then layout.full decimal else scientific decimal
  if d.negative then '-' :: body else body

end Cohort.Double
