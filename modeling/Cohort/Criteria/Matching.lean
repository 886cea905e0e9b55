import Cohort.Criteria
import Cohort.Rule.Comparison
import Cohort.Rule.View

/-!
The parts of a rule are worked out once for a whole population.  The rules judge a
contact through one view, and no rule is asked once the answer is certain.
-/

namespace Cohort

/-- A rule ready to be applied to many contacts. -/
structure PreparedRule where
  field : Field
  comparison : Comparison
  operand : Operand
  /-- The wanted tags, if the field is the tags. -/
  tags : IdSet

namespace PreparedRule

/-- Work out the parts of a rule.  An absent field is the empty name, an absent
comparison is `equals`, an absent value is empty. -/
def ofRule (rule : Rule) : PreparedRule :=
  let field := Field.ofName (rule.field.getD "")
  let value := rule.value.getD ""
  { field
    comparison := .ofName (rule.comparison.getD "equals")
    operand := .ofText value
    tags := if field = .tag then tagsOfText value else .empty }

def accepts (rule : PreparedRule) : Resolved → Bool
  | .tags none => false
  | .tags (some tags) => rule.comparison.appliesToTags && tags.meets rule.tags
  | .scalar text => rule.comparison.holdsFor (Text.lowerLetters text.toList) rule.operand
  | .missing => false

def judge (rule : PreparedRule) (view : View) : Bool × View :=
  let (resolved, view) := view.resolve rule.field
  (rule.accepts resolved, view)

def isMatch (rule : PreparedRule) (subject : Subject) : Bool :=
  (rule.judge (.ofSubject subject)).1

end PreparedRule

/-- Criteria ready to be applied to many contacts. -/
structure PreparedCriteria where
  connective : Connective
  rules : List PreparedRule

namespace PreparedCriteria

def ofCriteria (criteria : Criteria) : PreparedCriteria :=
  { connective := criteria.connective, rules := criteria.rules.map .ofRule }

/-- Judge a contact by one rule after the other, up to the first whose answer
decides. -/
def judgeUntil (decisive : Bool) : List PreparedRule → View → Bool × View
  | [], view => (!decisive, view)
  | rule :: rules, view =>
      let (answer, view) := rule.judge view
      if answer = decisive then (decisive, view) else judgeUntil decisive rules view

def judge (criteria : PreparedCriteria) (view : View) : Bool × View :=
  if criteria.rules.isEmpty then (true, view)
  else
    match criteria.connective with
    | .some => judgeUntil true criteria.rules view
    | .every => judgeUntil false criteria.rules view

def isMatch (criteria : PreparedCriteria) (subject : Subject) : Bool :=
  (criteria.judge (.ofSubject subject)).1

end PreparedCriteria

def Rule.isMatch (rule : Rule) (subject : Subject) : Bool :=
  (PreparedRule.ofRule rule).isMatch subject

def Criteria.isMatch (criteria : Criteria) (subject : Subject) : Bool :=
  (PreparedCriteria.ofCriteria criteria).isMatch subject

end Cohort
