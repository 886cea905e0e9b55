import Cohort.Json.Token

/-!
A tree is built from the tokens by a machine whose stack holds the arrays and objects
that are still open, so texts may nest to any depth.
-/

namespace Cohort.Json

/-- What a JSON text says. -/
inductive Tree where
  | null
  | bool (value : Bool)
  /-- A number, none if it is out of range. -/
  | number (reading : Option Number)
  /-- A text, none if it has half a surrogate pair. -/
  | text (reading : Option String)
  | array (items : List Tree)
  /-- An object with its members in the order of the text. -/
  | object (members : List (Option String × Tree))

namespace Tree

instance : Inhabited Tree := ⟨null⟩

/-- An array or object in which a value is due, with what came before in reverse. -/
inductive Frame where
  | array (done : List Tree)
  | object (done : List (Option String × Tree)) (name : Option String)

/-- What is due next, and the arrays and objects that are open around it. -/
inductive Machine where
  /-- A value. -/
  | value (around : List Frame)
  /-- A value or the end of an array that has none yet. -/
  | firstItem (around : List Frame)
  /-- A comma or the end of an array. -/
  | afterItem (done : List Tree) (around : List Frame)
  /-- A name or the end of an object that has none yet. -/
  | firstName (around : List Frame)
  /-- A name. -/
  | nextName (done : List (Option String × Tree)) (around : List Frame)
  /-- The colon behind a name. -/
  | colon (done : List (Option String × Tree)) (name : Option String) (around : List Frame)
  /-- A comma or the end of an object. -/
  | afterMember (done : List (Option String × Tree)) (around : List Frame)
  /-- Nothing: the text is complete. -/
  | complete (tree : Tree)

namespace Machine

/-- Put a finished value where it is due. -/
def put (tree : Tree) : List Frame → Machine
  | [] => .complete tree
  | .array done :: around => .afterItem (tree :: done) around
  | .object done name :: around => .afterMember ((name, tree) :: done) around

/-- Take the first token of a value. -/
def begin (around : List Frame) : Token → Option Machine
  | .null => some (put .null around)
  | .bool truth => some (put (.bool truth) around)
  | .number reading => some (put (.number reading) around)
  | .text reading => some (put (.text reading) around)
  | .openArray => some (.firstItem around)
  | .openObject => some (.firstName around)
  | _ => none

/-- Take one token. -/
def step : Machine → Token → Option Machine
  | .value around, token => begin around token
  | .firstItem around, .closeArray => some (put (.array []) around)
  | .firstItem around, token => begin (.array [] :: around) token
  | .afterItem done around, .comma => some (.value (.array done :: around))
  | .afterItem done around, .closeArray => some (put (.array done.reverse) around)
  | .firstName around, .closeObject => some (put (.object []) around)
  | .firstName around, .text reading => some (.colon [] reading around)
  | .nextName done around, .text reading => some (.colon done reading around)
  | .colon done reading around, .colon => some (.value (.object done reading :: around))
  | .afterMember done around, .comma => some (.nextName done around)
  | .afterMember done around, .closeObject => some (put (.object done.reverse) around)
  | _, _ => none

end Machine

def ofTokens? (tokens : List Token) : Option Tree := do
  match ← tokens.foldlM Machine.step (.value []) with
  | .complete tree => some tree
  | _ => none

def parse? (text : String) : Option Tree := do
  let tokens ← Token.scan? text.toList
  ofTokens? tokens

mutual

/-- How many arrays and objects are open at the innermost place of a tree. -/
def depth : Tree → Nat
  | .array items => depthOfItems items + 1
  | .object members => depthOfMembers members + 1
  | _ => 0

def depthOfItems : List Tree → Nat
  | [] => 0
  | item :: items => max (depth item) (depthOfItems items)

/-- The greatest depth among the values of members. -/
def depthOfMembers : List (Option String × Tree) → Nat
  | [] => 0
  | (_, value) :: members => max (depth value) (depthOfMembers members)

end

end Tree

end Cohort.Json
