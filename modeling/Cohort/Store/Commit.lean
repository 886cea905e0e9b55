import Cohort.ChangeSet
import Cohort.Failure
import Cohort.Store.Queries

namespace Cohort.Store

/-- Check that the removals are different active rows of the group. -/
def checkRemovals (store : Store) (group : Int) (seen : List Int) : List Int → Except Refusal Unit
  | [] => .ok ()
  | row :: rows =>
      match store.members.find? row with
      | none => .error (.missingRow row)
      | some member =>
          if member.group ≠ group ∨ member.isDeleted ∨ row ∈ seen then .error (.notActiveRow row)
          else checkRemovals store group (row :: seen) rows

def isContactOf (store : Store) (owner : String) (contact : Int) : Bool :=
  match store.contacts.find? contact with
  | none => false
  | some record => record.owner == owner

/-- Check that the additions are different contacts of the owner and none has a row
already. -/
def checkAdditions (store : Store) (owner : String) (taken : List Int) :
    List Admission → Except Refusal Unit
  | [] => .ok ()
  | addition :: additions =>
      let contact := addition.contact
      if !store.isContactOf owner contact then .error (.foreignContact contact)
      else if contact ∈ taken then .error (.secondMembership contact)
      else checkAdditions store owner (contact :: taken) additions

/-- The contacts that would keep an active row in the group. -/
def remainingContacts (store : Store) (group : Int) (removals : List Int) : List Int :=
  ((store.currentMembers group).filter fun member => member.id ∉ removals).map (·.contact)

def check (store : Store) (changes : ChangeSet) : Except Refusal Unit :=
  match store.groups.find? changes.group with
  | none => .error .noGroup
  | some group =>
      if group.owner ≠ changes.owner ∨ !group.isLive then .error .notLive
      else do
        store.checkRemovals changes.group [] changes.removals
        store.checkAdditions changes.owner
          (store.remainingContacts changes.group changes.removals) changes.additions

/-- Mark a membership as ended. -/
def endMember (time : Instant) (store : Store) (row : Int) : Store :=
  { store with members := store.members.modify row (·.ended time) }

/-- The word of 64 bits after another.  Behind the greatest comes the least. -/
def nextWord (word : Int) : Int :=
  if word < Text.maxSigned then word + 1 else Text.minSigned

/-- Add a membership under the next word, over the one that is there. -/
def addMember (group : Int) (store : Store) (addition : Admission) : Store :=
  let id := nextWord store.lastMember
  { store with
    members := store.members.insert id
      { id, group, contact := addition.contact, joinedAt := addition.joinedAt }
    lastMember := id
    lapped := store.lapped || decide (Text.maxSigned ≤ store.lastMember) }

def apply (store : Store) (changes : ChangeSet) : Store :=
  let withRemovals := changes.removals.foldl (endMember changes.updatedAt) store
  let withAdditions := changes.additions.foldl (addMember changes.group) withRemovals
  { withAdditions with
    groups := withAdditions.groups.modify changes.group fun group =>
      { group with contactCount := changes.contactCount, updatedAt := changes.updatedAt } }

/-- Carry out a change set if it passes every check. -/
def commit (store : Store) (changes : ChangeSet) : Except Failure Store :=
  match store.check changes with
  | .error refusal => .error (.refused changes.group refusal)
  | .ok () => .ok (store.apply changes)

end Cohort.Store
