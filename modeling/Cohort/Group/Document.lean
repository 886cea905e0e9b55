import Cohort.Group
import Cohort.Json.Record
import Cohort.Time.Text

namespace Cohort

open Json

def Instant.ofTree? (tree : Tree) : Option Instant :=
  tree.text?.bind Instant.read?

def Instant.value (instant : Instant) : Value :=
  .text instant.text

def Group.fieldNames : List String :=
  ["id", "owner_id", "name", "is_dynamic", "rule_criteria", "contact_count", "is_deleted",
    "updated_at"]

def Group.read? (now : Instant) (tree : Tree) : Option Group := do
  let record ← Record.ofTree? Group.fieldNames tree
  let id ← record.required "id" Tree.signed?
  let owner ← record.required "owner_id" Tree.text?
  let name ← record.required "name" Tree.text?
  let isDynamic ← record.withDefault "is_dynamic" false Tree.bool?
  let criteria ← record.optional "rule_criteria" Tree.text?
  let contactCount ← record.withDefault "contact_count" 0 Tree.unsigned?
  let isDeleted ← record.withDefault "is_deleted" false Tree.bool?
  let updatedAt ← record.withDefault "updated_at" now Instant.ofTree?
  some { id, owner, name, isDynamic, criteria, contactCount, isDeleted, updatedAt }

def Group.value (group : Group) : Value :=
  .object
    [("id", .int group.id), ("owner_id", .text group.owner), ("name", .text group.name),
      ("is_dynamic", .bool group.isDynamic), ("rule_criteria", .optionalText group.criteria),
      ("contact_count", .nat group.contactCount), ("is_deleted", .bool group.isDeleted),
      ("updated_at", group.updatedAt.value)]

def Member.fieldNames : List String :=
  ["id", "group_id", "contact_id", "joined_at", "is_deleted", "updated_at"]

def Member.read? (tree : Tree) : Option Member := do
  let record ← Record.ofTree? Member.fieldNames tree
  let id ← record.required "id" Tree.signed?
  let group ← record.required "group_id" Tree.signed?
  let contact ← record.required "contact_id" Tree.signed?
  let joinedAt ← record.required "joined_at" Instant.ofTree?
  let isDeleted ← record.withDefault "is_deleted" false Tree.bool?
  let updatedAt ← record.optional "updated_at" Instant.ofTree?
  some { id, group, contact, joinedAt, isDeleted, updatedAt }

def Member.value (member : Member) : Value :=
  .object
    [("id", .int member.id), ("group_id", .int member.group), ("contact_id", .int member.contact),
      ("joined_at", member.joinedAt.value), ("is_deleted", .bool member.isDeleted),
      ("updated_at", (member.updatedAt.map Instant.value).getD .null)]

end Cohort
