import Cohort.Group
import Cohort.Lexicographic
import Cohort.Segment
import Cohort.Sorting

namespace Cohort

/-- A membership to be added. -/
structure Admission where
  contact : Int
  joinedAt : Instant
  deriving DecidableEq

/-- The writes of one reconciliation of one group. -/
structure ChangeSet where
  owner : String
  group : Int
  additions : List Admission
  /-- The identifiers of the rows to be marked deleted. -/
  removals : List Int
  contactCount : Nat
  updatedAt : Instant
  deriving DecidableEq

def ChangeSet.leavesMembers (changes : ChangeSet) : Bool :=
  changes.additions.isEmpty && changes.removals.isEmpty

/-- The contacts whose row is kept and the rows that are removed, going through rows in
order. -/
structure Sifted where
  kept : IdSet
  removals : List Int

/-- Go through rows: the first row of each wanted contact is kept unless the contact is
kept already. -/
def sift (wanted kept : IdSet) : List Member → Sifted
  | [] => { kept, removals := [] }
  | row :: rows =>
      if wanted.contains row.contact && !kept.contains row.contact then
        sift wanted (kept.insert row.contact) rows
      else
        let rest := sift wanted kept rows
        { rest with removals := row.id :: rest.removals }

def byRank (rows : List Member) : List Member :=
  sortBy (fun left right => lexAtMost left.rank right.rank) rows

/-- The changes that bring the active rows of a group in line with a segment. -/
def Group.plan (group : Group) (rows : List Member) (segment : Segment) (now : Instant) :
    ChangeSet :=
  let sifted := sift segment.contacts .empty (byRank rows)
  let missing := segment.contacts.toList.filter fun id => !sifted.kept.contains id
  { owner := group.owner
    group := group.id
    additions := missing.map fun contact => { contact, joinedAt := now }
    removals := sifted.removals
    contactCount := segment.size
    updatedAt := now }

end Cohort
