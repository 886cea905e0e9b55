import Cohort.Text.Numeral

/-!
All arithmetic on doubles is done exactly on natural numbers and rounded once: a
quotient of naturals goes to the nearest double, a tie to the one with the even
significand.
-/

namespace Cohort

/-- The finite double `±significand · 2^exponent`. -/
structure Double where
  negative : Bool
  significand : Nat
  exponent : Int
  deriving DecidableEq

namespace Double

open Text

def twoPow (exponent : Nat) : Nat :=
  Nat.pow 2 exponent

def zero : Double :=
  { negative := false, significand := 0, exponent := -1074 }

def isZero (d : Double) : Bool :=
  d.significand == 0

def withSign (negative : Bool) (d : Double) : Double :=
  { d with negative }

/-- The whole number nearest to a quotient, the even one of two equally near. -/
def halfEven (num den : Nat) : Nat :=
  let quotient := num / den
  let rest := num % den
  if 2 * rest < den ∨ (2 * rest = den ∧ quotient % 2 = 0) then quotient else quotient + 1

/-- The whole number nearest to a quotient, the greater one of two equally near. -/
def halfUp (num den : Nat) : Nat :=
  (2 * num + den) / (2 * den)

/-- The quotient `num / (den · 2^exponent)` as a pair of naturals. -/
def scaled (num den : Nat) (exponent : Int) : Nat × Nat :=
  if 0 ≤ exponent then (num, den * twoPow exponent.toNat)
  else (num * twoPow (-exponent).toNat, den)

/-- The exponent of two under which a quotient has a significand of 53 bits, or the
least exponent if the quotient is too small for that. -/
def exponentFor (num den : Nat) : Int :=
  let guess := (Nat.log2 num : Int) - Nat.log2 den - 53
  let (top, bottom) := scaled num den guess
  let exact := if top / bottom < twoPow 53 then guess else guess + 1
  max exact (-1074)

/-- The double nearest to a quotient of naturals; none if it would be 2^1024 or more. -/
def ofRatio? (num den : Nat) : Option Double :=
  if num = 0 then some zero
  else
    let exponent := exponentFor num den
    let (top, bottom) := scaled num den exponent
    let significand := halfEven top bottom
    let rounded : Double :=
      if significand < twoPow 53 then { negative := false, significand, exponent }
      else { negative := false, significand := twoPow 52, exponent := exponent + 1 }
    if rounded.exponent ≤ 971 then some rounded else none

/-- The magnitude of a double as a quotient of naturals. -/
def ratio (d : Double) : Nat × Nat :=
  if 0 ≤ d.exponent then (d.significand * twoPow d.exponent.toNat, 1)
  else (d.significand, twoPow (-d.exponent).toNat)

/-- The rounded product of two magnitudes. -/
def times? (left right : Double) : Option Double :=
  let (leftTop, leftBottom) := left.ratio
  let (rightTop, rightBottom) := right.ratio
  ofRatio? (leftTop * rightTop) (leftBottom * rightBottom)

/-- The rounded quotient of two magnitudes. -/
def over? (left right : Double) : Option Double :=
  let (leftTop, leftBottom) := left.ratio
  let (rightTop, rightBottom) := right.ratio
  ofRatio? (leftTop * rightBottom) (leftBottom * rightTop)

/-- The double nearest to a decimal `significand · 10^exponent`; none if it is out of
range.  A decimal whose first digit stands more than four hundred places before or
after the point is decided without computing the power. -/
def ofDecimal? (significand : Nat) (exponent : Int) : Option Double :=
  if significand = 0 then some zero
  else
    let magnitude := exponent + (natLetters significand).length
    if 400 < magnitude then none
    else if magnitude < -400 then some zero
    else if 0 ≤ exponent then ofRatio? (significand * tenPow exponent.toNat) 1
    else ofRatio? significand (tenPow (-exponent).toNat)

end Double

end Cohort
