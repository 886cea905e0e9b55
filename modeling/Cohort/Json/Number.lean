import Cohort.Double.Layout
import Cohort.Text.Numeral

/-!
A double is read in two rounded steps: the leading digits, as many as make a number
below 2^64, are rounded to a double, and that is multiplied or divided by the rounded
power of ten.
-/

namespace Cohort.Json

open Cohort.Text

/-- A number as JSON tells numbers apart. -/
inductive Number where
  | int (value : Int)
  | real (value : Double)
  deriving DecidableEq

/-- The parts of a number literal. -/
structure Literal where
  negative : Bool
  whole : List Char
  fraction : Option (List Char)
  exponent : Option Int
  deriving DecidableEq

/-- The fraction of a literal, if one follows, and what comes after it. -/
def Literal.readFraction? : List Char → Option (Option (List Char) × List Char)
  | '.' :: rest =>
      let (digits, after) := rest.span isDigit
      if digits = [] then none else some (some digits, after)
  | rest => some (none, rest)

/-- The exponent that ends a literal, if there is one. -/
def Literal.readExponent? : List Char → Option (Option Int)
  | [] => some none
  | mark :: rest =>
      if mark = 'e' ∨ mark = 'E' then (integer? rest).map some else none

/-- The parts of a literal: at least one digit without a needless leading zero, then
perhaps a fraction of at least one digit, then perhaps an exponent. -/
def Literal.read? (letters : List Char) : Option Literal := do
  let (negative, unsigned) :=
    match letters with
    | '-' :: rest => (true, rest)
    | rest => (false, rest)
  let (whole, afterWhole) := unsigned.span isDigit
  if whole = [] ∨ (whole.head? = some '0' ∧ 1 < whole.length) then none
  else
    let (fraction, afterFraction) ← readFraction? afterWhole
    let exponent ← readExponent? afterFraction
    some { negative, whole, fraction, exponent }

/-- Continue a number with as many digits as keep it below 2^64.  The second part
counts the digits left over. -/
def takeDigits (value : Nat) : List Char → Nat × Nat
  | [] => (value, 0)
  | c :: rest =>
      let longer := value * 10 + digitValue c
      if longer ≤ maxUnsigned then takeDigits longer rest else (value, rest.length + 1)

/-- The double nearest to a power of ten up to 10^308. -/
def powerOfTen (exponent : Nat) : Double :=
  (Double.ofRatio? (tenPow exponent) 1).getD Double.zero

/-- A double times a power of ten, in rounded steps of at most 10^308; none if it
becomes too large. -/
def scale (value : Double) (exponent : Int) : Option Double :=
  if value.isZero then some value
  else if 308 < exponent then none
  else if 0 ≤ exponent then value.times? (powerOfTen exponent.toNat)
  else if -308 ≤ exponent then value.over? (powerOfTen (-exponent).toNat)
  else (value.over? (powerOfTen 308)).bind fun smaller => scale smaller (exponent + 308)
termination_by exponent.natAbs
decreasing_by omega

/-- The double of a literal; none if it is out of range. -/
def Literal.real? (literal : Literal) : Option Double := do
  let fraction := literal.fraction.getD []
  let (wholePart, wholeLeft) := takeDigits 0 literal.whole
  let (significand, fractionLeft) := takeDigits wholePart fraction
  let exponent : Int :=
    literal.exponent.getD 0 + wholeLeft - ((fraction.length - fractionLeft : Nat) : Int)
  let leading ← Double.ofRatio? significand 1
  let magnitude ← scale leading exponent
  some (magnitude.withSign literal.negative)

/-- The number of a literal; none if it is out of range. -/
def Literal.number? (literal : Literal) : Option Number :=
  let magnitude : Int := digitsValue literal.whole
  let value := if literal.negative then -magnitude else magnitude
  let isInteger := literal.fraction.isNone && literal.exponent.isNone &&
    !(literal.negative && magnitude == 0)
  if isInteger ∧ minSigned ≤ value ∧ value ≤ maxUnsigned then some (.int value)
  else literal.real?.map .real

/-- Doubles are written out in full from 10^-5 to below 10^16 and keep a fraction; the
even one of two equally near decimals is taken. -/
def realLayout : Double.Layout :=
  { tie := .toEven, positional := fun e => -5 ≤ e ∧ e ≤ 15, wholeFraction := true }

def Number.letters : Number → List Char
  | .int value => intLetters value
  | .real value => realLayout.write value

end Cohort.Json
