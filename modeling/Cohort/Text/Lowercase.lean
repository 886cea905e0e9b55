import Cohort.Text.CaseTable
import Cohort.Text.CaseClass

/-!
Full Unicode lower-casing without a locale.  Each character is looked up on its own, but
for the dotted capital I and for a capital sigma, which becomes `ς` at the end of a word
and `σ` elsewhere.
-/

namespace Cohort.Text

/-- The lower-case form of a code point in ascending rows, itself if no row has it. -/
def lowerPoint (point : Nat) : List (Nat × Nat × Nat × Int) → Nat
  | [] => point
  | (first, last, step, shift) :: rows =>
      if point < first then point
      else if point ≤ last then
        if (point - first) % step = 0 then (point + shift).toNat else point
      else lowerPoint point rows

/-- The one-letter lower-case form of a character, itself if it has none. -/
def lowerChar (c : Char) : Char :=
  Char.ofNat (lowerPoint c.toNat lowerRows)

/-- Does a cased letter come next, once case-ignorable characters are passed over? -/
def startsCased (letters : List Char) : Bool :=
  match letters.dropWhile isCaseIgnorable with
  | [] => false
  | c :: _ => isCased c

/-- Is the last character that is not case-ignorable a cased letter, given the answer
for the text before `c`? -/
def endsCased (before : Bool) (c : Char) : Bool :=
  if isCaseIgnorable c then before else isCased c

/-- The lower-case form of one character between the text before it, of which only the
end matters, and the text after it. -/
def lowerAt (before : Bool) (c : Char) (after : List Char) : List Char :=
  if c = 'Σ' then
    if before && !startsCased after then ['ς'] else ['σ']
  else if c = 'İ' then ['i', '\u0307']
  else [lowerChar c]

/-- Lower-case a text whose preceding text ends in a cased letter or does not. -/
def lowerFrom (before : Bool) : List Char → List Char
  | [] => []
  | c :: rest => lowerAt before c rest ++ lowerFrom (endsCased before c) rest

def lowerLetters (letters : List Char) : List Char :=
  lowerFrom false letters

def lower (text : String) : String :=
  String.ofList (lowerLetters text.toList)

/-- Equality of two texts when the case of the letters A to Z is disregarded, and of no
others. -/
def equalIgnoringAsciiCase (left right : String) : Bool :=
  left.toList.map Char.toLower == right.toList.map Char.toLower

end Cohort.Text
