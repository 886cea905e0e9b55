import Cohort.Contact
import Cohort.Group
import Cohort.Seed
import Cohort.Table

/-!
New memberships are numbered by a sequence of 64-bit words that stays ahead of every
membership stored from outside.  Behind the greatest word the sequence goes on with the
least, and nothing keeps it from identifiers that are in use.
-/

namespace Cohort

/-- An order in which a store comes upon the contacts that it holds, which nothing that is
stored settles.  Contacts are never taken out, so there is one order for each list of
them. -/
structure VisitOrder where
  visit : List Contact → List Contact
  visit_perm : ∀ contacts, (visit contacts).Perm contacts

/-- The order of the identifiers under which contacts are stored. -/
def VisitOrder.ascending : VisitOrder where
  visit := id
  visit_perm := fun _ => .refl _

/-- The records of all owners. -/
structure Store where
  order : VisitOrder
  contacts : Table Contact
  /-- The tag assignments of each contact, in the order in which they were made. -/
  assignments : Table (List TagAssignment)
  groups : Table Group
  members : Table Member
  /-- Where the sequence of identifiers of memberships has come to. -/
  lastMember : Int
  /-- Has the sequence ever gone on behind the greatest word?  No operation looks at
  this. -/
  lapped : Bool

namespace Store

def empty (order : VisitOrder := .ascending) : Store :=
  { order, contacts := .empty, assignments := .empty, groups := .empty, members := .empty,
    lastMember := 0, lapped := false }

/-- Store a contact, over the one with its identifier. -/
def putContact (store : Store) (contact : Contact) : Store :=
  { store with contacts := store.contacts.insert contact.id contact }

def hasContact (store : Store) (id : Int) : Bool :=
  (store.contacts.find? id).isSome

def editContact (store : Store) (id : Int) (change : Contact → Contact) : Store :=
  { store with contacts := store.contacts.modify id change }

/-- Note an assignment behind the others of its contact. -/
def addAssignment (store : Store) (assignment : TagAssignment) : Store :=
  let held := (store.assignments.find? assignment.contact).getD []
  { store with
    assignments := store.assignments.insert assignment.contact (held ++ [assignment]) }

def changeFirst (test : TagAssignment → Bool) (change : TagAssignment → TagAssignment) :
    List TagAssignment → List TagAssignment
  | [] => []
  | assignment :: rest =>
      if test assignment then change assignment :: rest
      else assignment :: changeFirst test change rest

/-- Give a contact a tag: the first assignment of the tag is revived, or one is made. -/
def giveTag (store : Store) (contact tag : Int) : Store :=
  let held := (store.assignments.find? contact).getD []
  if held.any (·.tag == tag) then
    { store with
      assignments := store.assignments.insert contact
        (changeFirst (·.tag == tag) ({ · with isDeleted := false }) held) }
  else store.addAssignment { contact, tag }

/-- Has the contact an assignment of the tag that is not deleted? -/
def hasAssignment (store : Store) (contact tag : Int) : Bool :=
  ((store.assignments.find? contact).getD []).any fun held => held.tag == tag && !held.isDeleted

/-- Take a tag from a contact: the first assignment of the tag that is not deleted is
marked deleted. -/
def takeTag (store : Store) (contact tag : Int) : Store :=
  { store with
    assignments := store.assignments.modify contact
      (changeFirst (fun held => held.tag == tag && !held.isDeleted)
        ({ · with isDeleted := true })) }

/-- Store a group, over the one with its identifier. -/
def putGroup (store : Store) (group : Group) : Store :=
  { store with groups := store.groups.insert group.id group }

def group? (store : Store) (id : Int) : Option Group :=
  store.groups.find? id

/-- Replace the criteria document of a group, if it is there. -/
def setCriteria (store : Store) (id : Int) (document : Option String) : Store :=
  { store with groups := store.groups.modify id ({ · with criteria := document }) }

/-- Store a membership, over the one with its identifier. -/
def putMember (store : Store) (member : Member) : Store :=
  { store with
    members := store.members.insert member.id member
    lastMember := max store.lastMember member.id }

/-- A store with the records of a seed.  Assignments are noted as they are given, equal
ones too. -/
def ofSeed (seed : Seed) (order : VisitOrder := .ascending) : Store :=
  let withContacts := seed.contacts.foldl putContact (empty order)
  let withAssignments := seed.assignments.foldl addAssignment withContacts
  let withGroups := seed.groups.foldl putGroup withAssignments
  seed.members.foldl putMember withGroups

end Store

end Cohort
