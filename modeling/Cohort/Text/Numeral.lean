namespace Cohort.Text

def isDigit (c : Char) : Bool :=
  '0' ≤ c && c ≤ '9'

/-- The number that a one and so many zeros spell. -/
def tenPow (zeros : Nat) : Nat :=
  Nat.pow 10 zeros

def digitValue (c : Char) : Nat :=
  c.toNat - '0'.toNat

/-- The number that digits spell, continuing from the digits already read. -/
def digitsFrom (read : Nat) (digits : List Char) : Nat :=
  digits.foldl (fun value c => value * 10 + digitValue c) read

def digitsValue (digits : List Char) : Nat :=
  digitsFrom 0 digits

/-- The number that an unsigned run of at least one digit spells. -/
def digits? (letters : List Char) : Option Nat :=
  if letters ≠ [] ∧ letters.all isDigit then some (digitsValue letters) else none

/-- The number that a numeral with an optional sign spells. -/
def integer? : List Char → Option Int
  | '-' :: digits => (digits? digits).map fun value => -(value : Int)
  | '+' :: digits => (digits? digits).map fun value => (value : Int)
  | digits => (digits? digits).map fun value => (value : Int)

/-- The number that a numeral with an optional plus sign spells. -/
def natural? : List Char → Option Nat
  | '+' :: digits => digits? digits
  | digits => digits? digits

def minSigned : Int := -9223372036854775808

def maxSigned : Int := 9223372036854775807

def maxUnsigned : Nat := 18446744073709551615

def signed? (value : Int) : Option Int :=
  if minSigned ≤ value ∧ value ≤ maxSigned then some value else none

def unsigned? (value : Int) : Option Nat :=
  if 0 ≤ value ∧ value ≤ maxUnsigned then some value.toNat else none

def signedNumeral? (letters : List Char) : Option Int :=
  (integer? letters).bind signed?

def unsignedNumeral? (letters : List Char) : Option Nat :=
  (natural? letters).bind fun value => unsigned? value

def natLetters (value : Nat) : List Char :=
  Nat.toDigits 10 value

/-- The decimal digits of a number, after a minus sign if it is negative. -/
def intLetters : Int → List Char
  | .ofNat value => natLetters value
  | .negSucc value => '-' :: natLetters (value + 1)

def ofInt (value : Int) : String :=
  String.ofList (intLetters value)

end Cohort.Text
