import Cohort.Time.Instant
import Cohort.Text.Blank
import Cohort.Text.Numeral

/-!
An instant is written in universal time with a `Z` behind it.  What is read is looser:
blanks may stand before every number and mark, the day and the time may be divided by a
blank or a `t`, and any offset from universal time below a day is taken off.
-/

namespace Cohort.Instant

open Cohort.Text

/-- A number with zeros in front to make up a width. -/
def padded (width value : Nat) : List Char :=
  let digits := natLetters value
  List.replicate (width - digits.length) '0' ++ digits

/-- A year: four digits from 0 to 9999, else a sign and at least four digits. -/
def yearLetters (year : Int) : List Char :=
  if 0 ≤ year ∧ year ≤ 9999 then padded 4 year.toNat
  else (if year < 0 then '-' else '+') :: padded 4 year.natAbs

/-- The fraction of a second in as few of three, six or nine digits as are exact. -/
def fractionLetters (nano : Nat) : List Char :=
  if nano = 0 then []
  else if nano % 1000000 = 0 then '.' :: padded 3 (nano / 1000000)
  else if nano % 1000 = 0 then '.' :: padded 6 (nano / 1000)
  else '.' :: padded 9 nano

/-- An instant as text. -/
def letters (instant : Instant) : List Char :=
  let date := instant.date
  let leap := instant.nano / secondNanos
  yearLetters date.year ++ '-' :: padded 2 date.month ++ '-' :: padded 2 date.day ++
    'T' :: padded 2 (instant.second / 3600) ++ ':' :: padded 2 (instant.second / 60 % 60) ++
    ':' :: padded 2 (instant.second % 60 + leap) ++ fractionLetters (instant.nano % secondNanos) ++
    ['Z']

def text (instant : Instant) : String :=
  String.ofList instant.letters

/-- Read a number of at least one and at most so many digits. -/
def readDigits? (most : Nat) (letters : List Char) : Option (Nat × List Char) :=
  let digits := (letters.takeWhile isDigit).take most
  if digits = [] then none else some (digitsValue digits, letters.drop digits.length)

/-- Read a number of one or two digits behind blanks. -/
def readPart? (letters : List Char) : Option (Nat × List Char) :=
  readDigits? 2 (trimStart letters)

/-- Read a year behind blanks: one to four digits, or a sign and any number of
digits. -/
def readYear? (letters : List Char) : Option (Int × List Char) :=
  match trimStart letters with
  | '-' :: rest => (readDigits? rest.length rest).map fun (value, after) => (-(value : Int), after)
  | '+' :: rest => (readDigits? rest.length rest).map fun (value, after) => ((value : Int), after)
  | rest => (readDigits? 4 rest).map fun (value, after) => ((value : Int), after)

/-- Pass over a mark behind blanks. -/
def skipMark? (mark : Char) (letters : List Char) : Option (List Char) :=
  match trimStart letters with
  | c :: rest => if c = mark then some rest else none
  | [] => none

/-- Read a fraction of a second in nanoseconds, zero if there is none.  Digits after
the ninth are dropped. -/
def readFraction? : List Char → Option (Nat × List Char)
  | '.' :: rest =>
      let digits := rest.takeWhile isDigit
      let kept := digits.take 9
      if digits = [] then none
      else some (digitsValue kept * tenPow (9 - kept.length), rest.drop digits.length)
  | rest => some (0, rest)

/-- Read the hours and minutes of an offset: two digits each, with colons or blanks
between them. -/
def readSpan? : List Char → Option (Nat × List Char)
  | a :: b :: rest =>
      match rest.dropWhile fun c => c == ':' || isBlank c with
      | c :: d :: after =>
          if isDigit a && isDigit b && isDigit c && isDigit d && digitValue c ≤ 5 then
            some ((digitValue a * 10 + digitValue b) * 60 + digitValue c * 10 + digitValue d, after)
          else none
      | _ => none
  | _ => none

/-- Read an offset from universal time in minutes. -/
def readOffset? (letters : List Char) : Option (Int × List Char) :=
  match letters with
  | 'Z' :: rest | 'z' :: rest => some (0, rest)
  | '+' :: rest => (readSpan? rest).map fun (minutes, after) => ((minutes : Int), after)
  | '-' :: rest | '−' :: rest =>
      (readSpan? rest).map fun (minutes, after) => (-(minutes : Int), after)
  | a :: b :: c :: rest =>
      if [a.toLower, b.toLower, c.toLower] = ['u', 't', 'c'] then some (0, rest) else none
  | _ => none

/-- The instant of a local time at an offset in minutes.  The second 60 is a leap
second. -/
def ofLocal? (date : Date) (hour minute second nano : Nat) (offset : Int) : Option Instant :=
  if hour < 24 ∧ minute < 60 ∧ second ≤ 60 ∧ offset.natAbs < 24 * 60 then do
    let leap := second / 60
    let seconds : Int := hour * 3600 + minute * 60 + (second - leap : Nat) - offset * 60
    let nanos := nano + leap * secondNanos
    if seconds < 0 then
      let date ← date.previous?
      ofParts? date (seconds + 86400).toNat nanos
    else if seconds < 86400 then ofParts? date seconds.toNat nanos
    else
      let date ← date.next?
      ofParts? date (seconds - 86400).toNat nanos
  else none

def read? (text : String) : Option Instant := do
  let (year, letters) ← readYear? text.toList
  let letters ← skipMark? '-' letters
  let (month, letters) ← readPart? letters
  let letters ← skipMark? '-' letters
  let (day, letters) ← readPart? letters
  let date ← Date.ofParts? year month day
  let letters ←
    match letters with
    | 'T' :: rest | 't' :: rest | ' ' :: rest => some rest
    | _ => none
  let (hour, letters) ← readPart? letters
  let letters ← skipMark? ':' letters
  let (minute, letters) ← readPart? letters
  let letters ← skipMark? ':' letters
  let (second, letters) ← readPart? letters
  let (nano, letters) ← readFraction? letters
  let (offset, letters) ← readOffset? (trimStart letters)
  if letters.all isBlank then ofLocal? date hour minute second nano offset else none

end Cohort.Instant
