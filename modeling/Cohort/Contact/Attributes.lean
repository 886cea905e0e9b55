import Cohort.Contact
import Cohort.Json.Printer
import Cohort.Text.Blank

/-!
The attribute document is a flat JSON object.  Texts, numbers and truth values become
texts, null members are left out, and one nested value makes the whole document
unavailable.
-/

namespace Cohort

open Json

/-- Why the attributes of a contact cannot be had. -/
inductive AttributesProblem where
  /-- The document is no JSON object. -/
  | unreadable
  /-- An attribute is an array or an object. -/
  | nested (key : String) (value : Value)

/-- The wording of a problem, where it has one of its own. -/
def AttributesProblem.message? : AttributesProblem → Option String
  | .unreadable => none
  | .nested key value =>
      some ("custom attributes unavailable: attribute '" ++ key ++ "' is not a scalar: " ++
        value.compact)

/-- The attributes that the members of an object give: the first nested member in their
order is the problem, if there is one. -/
def attributesOfMembers : List (String × Value) → Except AttributesProblem (List (String × String))
  | [] => .ok []
  | (_, .null) :: members => attributesOfMembers members
  | (key, value) :: members =>
      match value.scalarText? with
      | none => .error (.nested key value)
      | some text => (attributesOfMembers members).map ((key, text) :: ·)

def attributesOfDocument (document : String) : Except AttributesProblem (List (String × String)) :=
  match Value.parse? document with
  | some (.object members) => attributesOfMembers members
  | _ => .error .unreadable

def Contact.attributes (contact : Contact) : Except AttributesProblem (List (String × String)) :=
  match contact.customAttributes with
  | none => .ok []
  | some document =>
      if Text.allBlank document then .ok [] else attributesOfDocument document

/-- The attribute of a contact under a key; none also if the attributes cannot be
had. -/
def Contact.attribute? (contact : Contact) (key : String) : Option String :=
  match contact.attributes with
  | .error _ => none
  | .ok attributes => attributes.lookup key

end Cohort
