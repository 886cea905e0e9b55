import Cohort.Time.Instant
import Cohort.IdSet

namespace Cohort

/-- A group of contacts. -/
structure Group where
  id : Int
  owner : String
  name : String
  isDynamic : Bool := false
  /-- The criteria document of a dynamic group. -/
  criteria : Option String := none
  /-- The number of members, as of the last time that it was worked out. -/
  contactCount : Nat := 0
  isDeleted : Bool := false
  updatedAt : Instant
  deriving DecidableEq

/-- Is this a dynamic group that is not deleted? -/
def Group.isLive (group : Group) : Bool :=
  group.isDynamic && !group.isDeleted

/-- A membership of a contact in a group. -/
structure Member where
  id : Int
  group : Int
  contact : Int
  joinedAt : Instant
  isDeleted : Bool := false
  /-- When the membership ended. -/
  updatedAt : Option Instant := none
  deriving DecidableEq

/-- Earlier memberships, and of two that began at once the one with the lesser
identifier, come first. -/
def Member.rank (member : Member) : List Int :=
  member.joinedAt.parts ++ [member.id]

def Member.ended (member : Member) (time : Instant) : Member :=
  { member with isDeleted := true, updatedAt := some time }

end Cohort
