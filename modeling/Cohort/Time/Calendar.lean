namespace Cohort

def isLeapYear (year : Int) : Bool :=
  year % 4 == 0 && (year % 100 != 0 || year % 400 == 0)

def daysInMonth (year : Int) (month : Nat) : Nat :=
  if month = 2 then (if isLeapYear year then 29 else 28)
  else if month = 4 ∨ month = 6 ∨ month = 9 ∨ month = 11 then 30
  else 31

abbrev IsDate (year : Int) (month day : Nat) : Prop :=
  (-262143 ≤ year ∧ year ≤ 262142) ∧ (1 ≤ month ∧ month ≤ 12) ∧
    1 ≤ day ∧ day ≤ daysInMonth year month

structure Date where
  year : Int
  month : Nat
  day : Nat
  valid : IsDate year month day
  deriving DecidableEq

namespace Date

def ofParts? (year : Int) (month day : Nat) : Option Date :=
  if valid : IsDate year month day then some { year, month, day, valid } else none

def next? (date : Date) : Option Date :=
  (ofParts? date.year date.month (date.day + 1)).or
    ((ofParts? date.year (date.month + 1) 1).or (ofParts? (date.year + 1) 1 1))

def previous? (date : Date) : Option Date :=
  let month := date.month - 1
  (ofParts? date.year date.month (date.day - 1)).or
    ((ofParts? date.year month (daysInMonth date.year month)).or
      (ofParts? (date.year - 1) 12 31))

end Date

end Cohort
