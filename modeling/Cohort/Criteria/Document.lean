import Cohort.Criteria
import Cohort.Contact.Attributes
import Cohort.Json.Printer
import Cohort.Text.Blank

/-!
# Criteria documents

A document is read as a JSON value first, so the members of an object come in order of
their names and equal names have become one.  Members are then read in that order, and
the first that cannot be read decides what the problem is.
-/

namespace Cohort

open Json

/-- Why a document is no criteria. -/
inductive CriteriaProblem where
  /-- The group has no document or a blank one. -/
  | absent
  /-- The document is blank. -/
  | empty
  /-- The document is null. -/
  | null
  /-- The document is some other JSON value than an object. -/
  | notObject
  /-- The value of a rule is an array or an object. -/
  | nestedValue (value : Value)
  /-- The document is ill formed, or some part of it has the wrong shape. -/
  | unreadable
  /-- A problem that is told in words of its own. -/
  | told (message : String)

/-- The wording of a problem, where it has one of its own. -/
def CriteriaProblem.message? : CriteriaProblem → Option String
  | .absent => some "group has no rule criteria"
  | .empty => some "criteria document is empty"
  | .null => some "criteria document is null"
  | .notObject => some "criteria document is not an object"
  | .nestedValue value => some ("rule value must be a string, got " ++ value.compact)
  | .unreadable => none
  | .told message => some message

namespace Criteria

/-- A text or null. -/
def readText : Value → Except CriteriaProblem (Option String)
  | .null => .ok none
  | .text value => .ok (some value)
  | _ => .error .unreadable

/-- A scalar as text, or null. -/
def readScalar : Value → Except CriteriaProblem (Option String)
  | .null => .ok none
  | value =>
      match value.scalarText? with
      | some text => .ok (some text)
      | none => .error (.nestedValue value)

/-- The parts of a rule that have been read so far; an unread part is none. -/
structure RuleParts where
  field : Option (Option String) := none
  comparison : Option (Option String) := none
  value : Option (Option String) := none

def RuleParts.rule (parts : RuleParts) : Rule :=
  { field := parts.field.join
    comparison := parts.comparison.join
    value := parts.value.join }

/-- Read one member of a rule.  A part that was read already is refused before its
value is looked at. -/
def RuleParts.add (parts : RuleParts) (member : String × Value) :
    Except CriteriaProblem RuleParts :=
  let (name, value) := member
  match name with
  | "field" | "Field" =>
      if parts.field.isSome then .error .unreadable
      else (readText value).map fun text => { parts with field := some text }
  | "operator" | "Operator" =>
      if parts.comparison.isSome then .error .unreadable
      else (readText value).map fun text => { parts with comparison := some text }
  | "value" | "Value" =>
      if parts.value.isSome then .error .unreadable
      else (readScalar value).map fun text => { parts with value := some text }
  | _ => .ok parts

def ruleNames : List String :=
  ["field", "operator", "value"]

def readRule : Value → Except CriteriaProblem Rule
  | .object members => (members.foldlM RuleParts.add {}).map RuleParts.rule
  | .array items => do
      let parts ← (ruleNames.zip items).foldlM RuleParts.add {}
      if items.length ≤ ruleNames.length then .ok parts.rule else .error .unreadable
  | _ => .error .unreadable

def readRules : Value → Except CriteriaProblem (List Rule)
  | .null => .ok []
  | .array items => items.mapM readRule
  | _ => .error .unreadable

/-- The parts of criteria that have been read so far; an unread part is none. -/
structure Parts where
  rules : Option (List Rule) := none
  connectiveName : Option (Option String) := none

def Parts.criteria (parts : Parts) : Criteria :=
  { rules := parts.rules.getD [], connectiveName := parts.connectiveName.join }

/-- Read one member of a criteria document.  A part that was read already is refused
before its value is looked at. -/
def Parts.add (parts : Parts) (member : String × Value) : Except CriteriaProblem Parts :=
  let (name, value) := member
  match name with
  | "rules" | "Rules" =>
      if parts.rules.isSome then .error .unreadable
      else (readRules value).map fun rules => { parts with rules := some rules }
  | "logicalOperator" | "LogicalOperator" | "logical_operator" =>
      if parts.connectiveName.isSome then .error .unreadable
      else (readText value).map fun text => { parts with connectiveName := some text }
  | _ => .ok parts

def ofMembers (members : List (String × Value)) : Except CriteriaProblem Criteria :=
  (members.foldlM Parts.add {}).map Parts.criteria

def ofValue : Value → Except CriteriaProblem Criteria
  | .null => .error .null
  | .object members => ofMembers members
  | _ => .error .notObject

def parse (document : String) : Except CriteriaProblem Criteria :=
  if Text.allBlank document then .error .empty
  else
    match Value.parse? document with
    | none => .error .unreadable
    | some value => ofValue value

def ruleValue (rule : Rule) : Value :=
  .object
    [("field", .optionalText rule.field), ("operator", .optionalText rule.comparison),
      ("value", .optionalText rule.value)]

def toValue (criteria : Criteria) : Value :=
  .object
    [("rules", .array (criteria.rules.map ruleValue)),
      ("logicalOperator", .optionalText criteria.connectiveName)]

def document (criteria : Criteria) : String :=
  criteria.toValue.compact

end Criteria

end Cohort
