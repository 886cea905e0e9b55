import Cohort.Contact
import Cohort.Json.Record

namespace Cohort

open Json

def Contact.fieldNames : List String :=
  ["id", "owner_id", "email", "phone_number", "first_name", "last_name", "country", "city",
    "postal_code", "custom_attributes", "is_active", "is_deleted"]

def Contact.read? (tree : Tree) : Option Contact := do
  let record ← Record.ofTree? Contact.fieldNames tree
  let id ← record.required "id" Tree.signed?
  let owner ← record.required "owner_id" Tree.text?
  let email ← record.optional "email" Tree.text?
  let phoneNumber ← record.optional "phone_number" Tree.text?
  let firstName ← record.optional "first_name" Tree.text?
  let lastName ← record.optional "last_name" Tree.text?
  let country ← record.optional "country" Tree.text?
  let city ← record.optional "city" Tree.text?
  let postalCode ← record.optional "postal_code" Tree.text?
  let customAttributes ← record.optional "custom_attributes" Tree.text?
  let isActive ← record.withDefault "is_active" true Tree.bool?
  let isDeleted ← record.withDefault "is_deleted" false Tree.bool?
  some
    { id, owner, email, phoneNumber, firstName, lastName, country, city, postalCode,
      customAttributes, isActive, isDeleted }

def Contact.value (contact : Contact) : Value :=
  .object
    [("id", .int contact.id), ("owner_id", .text contact.owner),
      ("email", .optionalText contact.email), ("phone_number", .optionalText contact.phoneNumber),
      ("first_name", .optionalText contact.firstName),
      ("last_name", .optionalText contact.lastName), ("country", .optionalText contact.country),
      ("city", .optionalText contact.city), ("postal_code", .optionalText contact.postalCode),
      ("custom_attributes", .optionalText contact.customAttributes),
      ("is_active", .bool contact.isActive), ("is_deleted", .bool contact.isDeleted)]

/-- The names of the fields of a tag assignment, in declared order. -/
def TagAssignment.fieldNames : List String :=
  ["contact_id", "tag_id", "is_deleted"]

def TagAssignment.read? (tree : Tree) : Option TagAssignment := do
  let record ← Record.ofTree? TagAssignment.fieldNames tree
  let contact ← record.required "contact_id" Tree.signed?
  let tag ← record.required "tag_id" Tree.signed?
  let isDeleted ← record.withDefault "is_deleted" false Tree.bool?
  some { contact, tag, isDeleted }

def TagAssignment.value (assignment : TagAssignment) : Value :=
  .object
    [("contact_id", .int assignment.contact), ("tag_id", .int assignment.tag),
      ("is_deleted", .bool assignment.isDeleted)]

end Cohort
