import Cohort.Json.Value

namespace Cohort.Json.Value

def quoted (text : String) : List Char :=
  '"' :: Quoted.encode text.toList ++ ['"']

def boolLetters (value : Bool) : List Char :=
  if value then ['t', 'r', 'u', 'e'] else ['f', 'a', 'l', 's', 'e']

mutual

/-- A value without blanks. -/
def letters : Value → List Char
  | .null => ['n', 'u', 'l', 'l']
  | .bool value => boolLetters value
  | .number value => value.letters
  | .text value => quoted value
  | .array items => '[' :: itemLetters items ++ [']']
  | .object members => '{' :: memberLetters members ++ ['}']

def itemLetters : List Value → List Char
  | [] => []
  | [item] => letters item
  | item :: items => letters item ++ ',' :: itemLetters items

def memberLetters : List (String × Value) → List Char
  | [] => []
  | [(name, value)] => quoted name ++ ':' :: letters value
  | (name, value) :: members => quoted name ++ ':' :: letters value ++ ',' :: memberLetters members

end

def compact (value : Value) : String :=
  String.ofList value.letters

/-- The text of a value that is no array, no object and not null. -/
def scalarText? : Value → Option String
  | .text value => some value
  | .number value => some (String.ofList value.letters)
  | .bool value => some (String.ofList (boolLetters value))
  | _ => none

def newLine (depth : Nat) : List Char :=
  '\n' :: List.replicate (2 * depth) ' '

mutual

/-- A value with a line for every item and member, in a line at a depth. -/
def indentedLetters (depth : Nat) : Value → List Char
  | .array [] => ['[', ']']
  | .array items => '[' :: indentedItems (depth + 1) items ++ newLine depth ++ [']']
  | .object [] => ['{', '}']
  | .object members => '{' :: indentedMembers (depth + 1) members ++ newLine depth ++ ['}']
  | .null => ['n', 'u', 'l', 'l']
  | .bool value => boolLetters value
  | .number value => value.letters
  | .text value => quoted value

def indentedItems (depth : Nat) : List Value → List Char
  | [] => []
  | [item] => newLine depth ++ indentedLetters depth item
  | item :: items =>
      newLine depth ++ indentedLetters depth item ++ ',' :: indentedItems depth items

def indentedMembers (depth : Nat) : List (String × Value) → List Char
  | [] => []
  | [(name, value)] => newLine depth ++ quoted name ++ ':' :: ' ' :: indentedLetters depth value
  | (name, value) :: members =>
      newLine depth ++ quoted name ++ ':' :: ' ' :: indentedLetters depth value ++
        ',' :: indentedMembers depth members

end

/-- A value as a text with a line for every item and member. -/
def indented (value : Value) : String :=
  String.ofList (value.indentedLetters 0)

end Cohort.Json.Value
