import Cohort.Text.Lowercase

namespace Cohort

/-- A rule as it is stored. -/
structure Rule where
  field : Option String := none
  comparison : Option String := none
  value : Option String := none
  deriving DecidableEq

/-- How the answers of the rules are combined. -/
inductive Connective where
  | every
  | some
  deriving DecidableEq

/-- Only `or`, in any case of its letters, asks for some rule; anything else asks for
every rule. -/
def Connective.ofName : Option String → Connective
  | .some name => if Text.equalIgnoringAsciiCase name "or" then .some else .every
  | none => .every

def Connective.name : Connective → String
  | .every => "AND"
  | .some => "OR"

/-- Rules and the text that names their connective. -/
structure Criteria where
  rules : List Rule := []
  connectiveName : Option String := none
  deriving DecidableEq

def Criteria.connective (criteria : Criteria) : Connective :=
  .ofName criteria.connectiveName

end Cohort
