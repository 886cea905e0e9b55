import Cohort.Criteria.Document

namespace Cohort

/-- Why a change set is refused. -/
inductive Refusal where
  | noGroup
  | notLive
  | missingRow (row : Int)
  | notActiveRow (row : Int)
  | foreignContact (contact : Int)
  | secondMembership (contact : Int)
  deriving DecidableEq

/-- The wording of a refusal. -/
def Refusal.message : Refusal → String
  | .noGroup => "group does not exist"
  | .notLive => "group is not a live dynamic group of the owner"
  | .missingRow row => "membership " ++ Text.ofInt row ++ " missing"
  | .notActiveRow row => "membership " ++ Text.ofInt row ++ " is not an active row of the group"
  | .foreignContact contact =>
      "contact " ++ Text.ofInt contact ++ " does not belong to the owner"
  | .secondMembership contact =>
      "contact " ++ Text.ofInt contact ++ " would have two active memberships"

/-- Why an operation does not succeed. -/
inductive Failure where
  | configuration (message : String)
  | noSuchGroup (owner : String) (group : Int)
  | unusableCriteria (problem : CriteriaProblem)
  | storage (message : String)
  /-- A change set for a group is refused. -/
  | refused (group : Int) (refusal : Refusal)
  | commit (message : String)
  | io (message : String)
  | internal (message : String)

/-- The wording of a failure.  Problems without a wording of their own are left out. -/
def Failure.message : Failure → String
  | .configuration message => "Configuration error: " ++ message
  | .noSuchGroup owner group =>
      "Dynamic group " ++ Text.ofInt group ++ " not found for owner " ++ owner
  | .unusableCriteria problem =>
      match problem.message? with
      | some message => "Invalid rule criteria: " ++ message
      | none => "Invalid rule criteria"
  | .storage message => "Storage error: " ++ message
  | .refused group refusal =>
      "Commit error: group " ++ Text.ofInt group ++ ": " ++ refusal.message
  | .commit message => "Commit error: " ++ message
  | .io message => "IO error: " ++ message
  | .internal message => "Internal error: " ++ message

end Cohort
