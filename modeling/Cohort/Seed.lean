import Cohort.Contact.Document
import Cohort.Group.Document
import Cohort.Json.Printer

namespace Cohort

open Json

/-- The records with which a store begins. -/
structure Seed where
  contacts : List Contact := []
  assignments : List TagAssignment := []
  groups : List Group := []
  members : List Member := []
  deriving DecidableEq

namespace Seed

def fieldNames : List String :=
  ["contacts", "tag_assignments", "groups", "members"]

/-- Read a seed at the present time. -/
def ofTree? (now : Instant) (tree : Tree) : Option Seed := do
  let record ← Record.ofTree? fieldNames tree
  let contacts ← record.withDefault "contacts" [] (Tree.list? Contact.read?)
  let assignments ← record.withDefault "tag_assignments" [] (Tree.list? TagAssignment.read?)
  let groups ← record.withDefault "groups" [] (Tree.list? (Group.read? now))
  let members ← record.withDefault "members" [] (Tree.list? Member.read?)
  some { contacts, assignments, groups, members }

def parse? (now : Instant) (document : String) : Option Seed :=
  (Tree.parse? document).bind (ofTree? now)

def value (seed : Seed) : Value :=
  .object
    [("contacts", .array (seed.contacts.map Contact.value)),
      ("tag_assignments", .array (seed.assignments.map TagAssignment.value)),
      ("groups", .array (seed.groups.map Group.value)),
      ("members", .array (seed.members.map Member.value))]

def document (seed : Seed) : String :=
  seed.value.compact

end Seed

end Cohort
