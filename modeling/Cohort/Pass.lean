import Cohort.Program

/-!
# Passes

A pass works out the segment of the criteria, compares it with the active rows of its
group, and commits the difference.  The group is locked from before it is looked up
until the commit has returned.
-/

namespace Cohort

/-- How segments are worked out. -/
structure Evaluation where
  /-- The size of a population from which on it is judged in halves. -/
  parallelThreshold : Nat := 2048

/-- Fetch the tags of contacts one by one into a table. -/
def fetchOneByOne (table : TagTable) : List Int → Attempt TagTable
  | [] => pure table
  | contact :: contacts => do
      let tags ← Attempt.ask (.call (.tagsOf contact))
      fetchOneByOne (if tags.isEmpty then table else table.insert contact tags) contacts

/-- Fetch the tags of contacts, all at once if the store has an answer for that. -/
def fetchTags (contacts : List Int) : Attempt TagTable := do
  match ← Attempt.ask (.call (.tagsOfAll contacts)) with
  | some table => pure table
  | none => fetchOneByOne .empty contacts

/-- The segment of criteria among the live contacts of an owner.  Without live contacts
no tags are fetched. -/
def Evaluation.segment (evaluation : Evaluation) (owner : String) (criteria : Criteria) :
    Attempt Segment := do
  let contacts ← Attempt.ask (.call (.liveContacts owner))
  if contacts.isEmpty then pure .empty
  else
    let tags ← fetchTags (contacts.map Contact.id)
    let prepared := PreparedCriteria.ofCriteria criteria
    pure (prepared.segment tags contacts (evaluation.parallelThreshold ≤ contacts.length))

def Evaluation.segmentSize (evaluation : Evaluation) (owner : String) (criteria : Criteria) :
    Attempt Nat := do
  let segment ← evaluation.segment owner criteria
  pure segment.size

/-- What a pass did. -/
structure PassReport where
  group : Int
  added : Nat
  removed : Nat
  totalContacts : Nat
  deriving DecidableEq

def Group.readCriteria (group : Group) : Except CriteriaProblem Criteria :=
  match group.criteria with
  | none => .error .absent
  | some document =>
      if Text.allBlank document then .error .absent else Criteria.parse document

/-- A pass of one group whose lock is held. -/
def Evaluation.reconcileLocked (evaluation : Evaluation) (owner : String) (id : Int) :
    Attempt PassReport := do
  let found ← Attempt.ask (.call (.liveGroup owner id))
  match found with
  | none => throw (.noSuchGroup owner id)
  | some group =>
      match group.readCriteria with
      | .error problem => throw (.unusableCriteria problem)
      | .ok criteria => do
          let segment ← evaluation.segment owner criteria
          let rows ← Attempt.ask (.call (.currentMembers id))
          let now ← Attempt.always (.call .clock)
          let changes := group.plan rows segment now
          Attempt.ask (.call (.commit changes))
          pure
            { group := id, added := changes.additions.length, removed := changes.removals.length,
              totalContacts := segment.size }

/-- A pass of one group. -/
def Evaluation.reconcile (evaluation : Evaluation) (owner : String) (id : Int) :
    Attempt PassReport :=
  ExceptT.mk do
    Program.call (.lock id)
    let result ← (evaluation.reconcileLocked owner id).run
    Program.call (.unlock id)
    pure result

def Evaluation.reconcileSucceeds (evaluation : Evaluation) (owner : String) (id : Int) :
    Program Bool := do
  let result ← (evaluation.reconcile owner id).run
  pure result.isOk

/-- The groups whose pass succeeded and those whose pass failed. -/
structure OwnerSummary where
  succeeded : List Int := []
  failed : List Int := []
  deriving DecidableEq

def Evaluation.reconcileEach (evaluation : Evaluation) (owner : String) :
    List Int → Program OwnerSummary
  | [] => pure {}
  | id :: ids => do
      let succeeded ← evaluation.reconcileSucceeds owner id
      let rest ← evaluation.reconcileEach owner ids
      pure
        (if succeeded then { rest with succeeded := id :: rest.succeeded }
          else { rest with failed := id :: rest.failed })

def Evaluation.reconcileOwner (evaluation : Evaluation) (owner : String) :
    Attempt OwnerSummary := do
  let groups ← Attempt.ask (.call (.liveGroups owner))
  Attempt.always (evaluation.reconcileEach owner (groups.map Group.id))

/-- The counts of a round. -/
structure RoundSummary where
  owners : Nat := 0
  groupsSynced : Nat := 0
  groupsFailed : Nat := 0
  ownersFailed : Nat := 0
  deriving DecidableEq

def RoundSummary.count (summary : RoundSummary) : Except Failure OwnerSummary → RoundSummary
  | .ok result =>
      { summary with
        groupsSynced := summary.groupsSynced + result.succeeded.length
        groupsFailed := summary.groupsFailed + result.failed.length }
  | .error _ => { summary with ownersFailed := summary.ownersFailed + 1 }

def Evaluation.reconcileOwners (evaluation : Evaluation) (summary : RoundSummary) :
    List String → Program RoundSummary
  | [] => pure summary
  | owner :: owners => do
      let result ← (evaluation.reconcileOwner owner).run
      evaluation.reconcileOwners (summary.count result) owners

/-- A round: passes of all dynamic groups of all owners. -/
def Evaluation.round (evaluation : Evaluation) : Attempt RoundSummary := do
  let owners ← Attempt.ask (.call .ownersWithGroups)
  Attempt.always (evaluation.reconcileOwners { owners := owners.length } owners)

end Cohort
