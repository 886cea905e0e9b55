import Cohort.Json.Tree

/-!
An object that comes from a text has each name once, in order of code points, with the
last of several equal names deciding.  Objects made by the program list their members in
the order in which they are to be written.
-/

namespace Cohort.Json

/-- A JSON value. -/
inductive Value where
  | null
  | bool (value : Bool)
  | number (value : Number)
  | text (value : String)
  | array (items : List Value)
  | object (members : List (String × Value))

namespace Value

instance : Inhabited Value := ⟨null⟩

def int (value : Int) : Value :=
  .number (.int value)

def nat (value : Nat) : Value :=
  .number (.int value)

def optionalText : Option String → Value
  | none => .null
  | some value => .text value

def ints (values : List Int) : Value :=
  .array (values.map int)

/-- Put a member in its place among members ordered by name, over the one that has the
name. -/
def placeMember (name : String) (value : Value) : List (String × Value) → List (String × Value)
  | [] => [(name, value)]
  | (other, held) :: rest =>
      if name < other then (name, value) :: (other, held) :: rest
      else if name = other then (name, value) :: rest
      else (other, held) :: placeMember name value rest

/-- The members in order of their names, the last of several equal names deciding. -/
def settle (members : List (String × Value)) : List (String × Value) :=
  members.foldl (fun settled member => placeMember member.1 member.2 settled) []

def member? (name : String) : List (String × Value) → Option Value
  | [] => none
  | (other, value) :: rest => if other = name then some value else member? name rest

mutual

def tree : Value → Tree
  | .null => .null
  | .bool value => .bool value
  | .number value => .number (some value)
  | .text value => .text (some value)
  | .array items => .array (treesOfItems items)
  | .object members => .object (treesOfMembers members)

def treesOfItems : List Value → List Tree
  | [] => []
  | item :: items => tree item :: treesOfItems items

def treesOfMembers : List (String × Value) → List (Option String × Tree)
  | [] => []
  | (name, value) :: members => (some name, tree value) :: treesOfMembers members

end

mutual

/-- The value that a tree means; none if a leaf has no reading. -/
def ofTree? : Tree → Option Value
  | .null => some .null
  | .bool value => some (.bool value)
  | .number reading => reading.map .number
  | .text reading => reading.map .text
  | .array items => (ofItems? items).map .array
  | .object members => (ofMembers? members).map fun members => .object (settle members)

def ofItems? : List Tree → Option (List Value)
  | [] => some []
  | item :: items => do
      let first ← ofTree? item
      let rest ← ofItems? items
      some (first :: rest)

/-- The values of the members of an object, in the order of the text. -/
def ofMembers? : List (Option String × Tree) → Option (List (String × Value))
  | [] => some []
  | (name, item) :: members => do
      let name ← name
      let value ← ofTree? item
      let rest ← ofMembers? members
      some ((name, value) :: rest)

end

/-- How deep a text may nest where its value is wanted. -/
def maxDepth : Nat := 127

def parse? (text : String) : Option Value := do
  let tree ← Tree.parse? text
  if tree.depth ≤ maxDepth then ofTree? tree else none

end Value

end Cohort.Json
