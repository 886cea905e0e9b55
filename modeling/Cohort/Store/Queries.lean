import Cohort.Store
import Cohort.Segment
import Cohort.Sorting

/-!
Lists are in order of identifiers, owners in order of code points.  Contacts go by the
identifiers that they carry; those that carry the same one come as the store comes upon
them.
-/

namespace Cohort.Store

/-- The contacts of an owner that are active and not deleted. -/
def liveContacts (store : Store) (owner : String) : List Contact :=
  sortBy (fun left right => decide (left.id ≤ right.id)) <|
    (store.order.visit store.contacts.records).filter fun contact =>
      contact.owner == owner && contact.isLive

def tagsOf (store : Store) (contact : Int) : IdSet :=
  IdSet.ofList ((((store.assignments.find? contact).getD []).filter (!·.isDeleted)).map (·.tag))

/-- The tags of those of some contacts that have any.  A contact without assignments is
passed over. -/
def tagsOfAll (store : Store) (contacts : List Int) : TagTable :=
  contacts.foldl
    (fun table contact =>
      match store.assignments.find? contact with
      | none => table
      | some held =>
          let tags := IdSet.ofList ((held.filter (!·.isDeleted)).map (·.tag))
          if tags.isEmpty then table else table.insert contact tags)
    .empty

def liveGroup? (store : Store) (owner : String) (group : Int) : Option Group :=
  (store.groups.find? group).filter fun group => group.owner == owner && group.isLive

def liveGroups (store : Store) (owner : String) : List Group :=
  store.groups.records.filter fun group => group.owner == owner && group.isLive

def placeName (name : String) : List String → List String
  | [] => [name]
  | first :: rest =>
      if name < first then name :: first :: rest
      else if name = first then first :: rest
      else first :: placeName name rest

/-- The owners that have a live dynamic group, each once. -/
def ownersWithGroups (store : Store) : List String :=
  ((store.groups.records.filter Group.isLive).map Group.owner).foldr placeName []

/-- The memberships of a group, the ended ones too. -/
def memberHistory (store : Store) (group : Int) : List Member :=
  store.members.records.filter fun member => member.group == group

def currentMembers (store : Store) (group : Int) : List Member :=
  store.members.records.filter fun member => member.group == group && !member.isDeleted

end Cohort.Store
