import Cohort.Double.Layout

/-!
A number is an optional sign and digits, perhaps with a point before, among or behind
them, and perhaps an exponent; `inf`, `infinity` and `nan` may be in any case.
-/

namespace Cohort.Double

open Cohort.Text

/-- A double, finite or not. -/
inductive Real where
  | finite (value : Double)
  | infinite (negative : Bool)
  | notANumber
  deriving DecidableEq

/-- The exponent behind a number, zero if there is none. -/
def readExponent? : List Char → Option Int
  | [] => some 0
  | mark :: rest => if mark = 'e' ∨ mark = 'E' then integer? rest else none

/-- The finite or infinite double of digits, perhaps with a point and an exponent. -/
def readMagnitude? (negative : Bool) (letters : List Char) : Option Real := do
  let (whole, afterWhole) := letters.span isDigit
  let (fraction, rest) :=
    match afterWhole with
    | '.' :: after => after.span isDigit
    | after => ([], after)
  if whole = [] ∧ fraction = [] then none
  else
    let exponent ← readExponent? rest
    match ofDecimal? (digitsValue (whole ++ fraction)) (exponent - fraction.length) with
    | some value => some (.finite (value.withSign negative))
    | none => some (.infinite negative)

def readUnsigned? (negative : Bool) (letters : List Char) : Option Real :=
  let lowered := letters.map Char.toLower
  if lowered = ['n', 'a', 'n'] then some .notANumber
  else if lowered = ['i', 'n', 'f'] ∨ lowered = "infinity".toList then some (.infinite negative)
  else readMagnitude? negative letters

def read? : List Char → Option Real
  | '-' :: rest => readUnsigned? true rest
  | '+' :: rest => readUnsigned? false rest
  | letters => readUnsigned? false letters

/-- The whole number nearest to a double, a half going away from zero, within the
unsigned bounds.  What is no number counts as zero. -/
def Real.toUnsigned : Real → Nat
  | .finite value =>
      let (num, den) := value.ratio
      if value.negative then 0 else min (halfUp num den) maxUnsigned
  | .infinite negative => if negative then 0 else maxUnsigned
  | .notANumber => 0

end Cohort.Double
