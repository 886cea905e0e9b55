import Cohort.Text.Lowercase
import Cohort.Text.Blank
import Cohort.Text.Search

/-!
Both texts are lower-cased before they are compared.  For `in` and `notin` the operand
is a list whose items stand between commas, and blanks around an item do not count.
-/

namespace Cohort

open Text

/-- The comparisons of a rule. -/
inductive Comparison where
  | equals
  | notEquals
  | contains
  | notContains
  | startsWith
  | endsWith
  | isIn
  | isNotIn
  /-- A name that stands for no comparison, in lower case. -/
  | unknown (name : String)
  deriving DecidableEq

/-- The text that a rule compares with, in lower case, and its items. -/
structure Operand where
  letters : List Char
  items : List (List Char)
  deriving DecidableEq

def Operand.ofText (text : String) : Operand :=
  let letters := lowerLetters text.toList
  { letters, items := (splitAt ',' letters).map trim }

namespace Comparison

def ofLower : String → Comparison
  | "equals" => .equals
  | "notequals" => .notEquals
  | "contains" => .contains
  | "notcontains" => .notContains
  | "startswith" => .startsWith
  | "endswith" => .endsWith
  | "in" => .isIn
  | "notin" => .isNotIn
  | name => .unknown name

def ofName (name : String) : Comparison :=
  ofLower (lower name)

/-- Does the comparison ask whether a set of tags has one of the wanted tags? -/
def appliesToTags : Comparison → Bool
  | .isIn | .contains => true
  | _ => false

/-- Does the comparison hold between a text in lower case and an operand? -/
def holdsFor (comparison : Comparison) (letters : List Char) (operand : Operand) : Bool :=
  match comparison with
  | .equals => letters == operand.letters
  | .notEquals => !(letters == operand.letters)
  | .contains => containsRun operand.letters letters
  | .notContains => !containsRun operand.letters letters
  | .startsWith => operand.letters.isPrefixOf letters
  | .endsWith => operand.letters.isSuffixOf letters
  | .isIn => operand.items.contains letters
  | .isNotIn => !operand.items.contains letters
  | .unknown _ => false

/-- Does the comparison hold between two texts as they are given? -/
def holds (comparison : Comparison) (text wanted : String) : Bool :=
  comparison.holdsFor (lowerLetters text.toList) (Operand.ofText wanted)

end Comparison

end Cohort
