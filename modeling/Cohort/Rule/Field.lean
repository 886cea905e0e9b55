import Cohort.Contact.Attributes
import Cohort.IdSet
import Cohort.Text.Lowercase
import Cohort.Text.Numeral
import Cohort.Text.Search

/-!
A missing phone number and a missing attribute cannot be compared at all, whereas every
other missing text counts as empty.
-/

namespace Cohort

open Text

/-- The fields that a rule can look at. -/
inductive Field where
  | tag
  | email
  | phoneNumber
  | firstName
  | lastName
  | country
  | city
  | postalCode
  /-- A custom attribute; its key is in lower case and looked up as it stands. -/
  | customAttribute (key : String)
  /-- A name that no field has, in lower case. -/
  | unrecognized (name : String)
  deriving DecidableEq

/-- The letters with which the name of a custom attribute begins. -/
def customAttributeStart : List Char :=
  "customattribute.".toList

def Field.ofLower (name : String) : Field :=
  if customAttributeStart.isPrefixOf name.toList then
    .customAttribute (String.ofList (name.toList.drop customAttributeStart.length))
  else
    match name with
    | "tag" => .tag
    | "email" => .email
    | "phonenumber" => .phoneNumber
    | "firstname" => .firstName
    | "lastname" => .lastName
    | "country" => .country
    | "city" => .city
    | "postalcode" => .postalCode
    | name => .unrecognized name

def Field.ofName (name : String) : Field :=
  Field.ofLower (lower name)

/-- A contact with the tags it has, if they are known. -/
structure Subject where
  contact : Contact
  tags : Option IdSet

/-- What a field is on a contact. -/
inductive Resolved where
  | scalar (text : String)
  | tags (tags : Option IdSet)
  /-- There is nothing to compare. -/
  | missing
  deriving DecidableEq

/-- A text that may be missing, in which case there is nothing to compare. -/
def Resolved.ofOptional : Option String → Resolved
  | some text => .scalar text
  | none => .missing

def Subject.resolve (subject : Subject) : Field → Resolved
  | .tag => .tags subject.tags
  | .customAttribute key => .ofOptional (subject.contact.attribute? key)
  | .email => .scalar (subject.contact.email.getD "")
  | .phoneNumber => .ofOptional subject.contact.phoneNumber
  | .firstName => .scalar (subject.contact.firstName.getD "")
  | .lastName => .scalar (subject.contact.lastName.getD "")
  | .country => .scalar (subject.contact.country.getD "")
  | .city => .scalar (subject.contact.city.getD "")
  | .postalCode => .scalar (subject.contact.postalCode.getD "")
  | .unrecognized _ => .scalar ""

/-- The tags that the value of a rule lists: the items between commas that are positive
numbers once the blanks around them are taken off. -/
def tagsOfText (text : String) : IdSet :=
  IdSet.ofList (((splitAt ',' text.toList).filterMap fun item => signedNumeral? (trim item)).filter
    fun id => 0 < id)

end Cohort
