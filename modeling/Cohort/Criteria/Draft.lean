import Cohort.Criteria
import Cohort.Text.Numeral
import Cohort.Text.Search

namespace Cohort

/-- Criteria whose rules are still being collected. -/
structure CriteriaDraft where
  rules : List Rule := []
  connective : Connective := .every

namespace CriteriaDraft

def askForSome (draft : CriteriaDraft) : CriteriaDraft :=
  { draft with connective := .some }

def rule (draft : CriteriaDraft) (field comparison value : String) : CriteriaDraft :=
  { draft with
    rules := draft.rules ++
      [{ field := some field, comparison := some comparison, value := some value }] }

def whereEquals (draft : CriteriaDraft) (field value : String) : CriteriaDraft :=
  draft.rule field "equals" value

def whereContains (draft : CriteriaDraft) (field value : String) : CriteriaDraft :=
  draft.rule field "contains" value

/-- Texts with commas between them. -/
def commaList (texts : List String) : String :=
  String.ofList (Text.joinWith ',' (texts.map String.toList))

def whereIn (draft : CriteriaDraft) (field : String) (values : List String) :
    CriteriaDraft :=
  draft.rule field "in" (commaList values)

def whereEmailEnds (draft : CriteriaDraft) (ending : String) : CriteriaDraft :=
  draft.rule "email" "endswith" ending

def whereTagged (draft : CriteriaDraft) (tags : List Int) : CriteriaDraft :=
  draft.rule "tag" "in" (commaList (tags.map Text.ofInt))

def whereAttribute (draft : CriteriaDraft) (key value : String) : CriteriaDraft :=
  draft.rule ("customattribute." ++ key) "equals" value

def criteria (draft : CriteriaDraft) : Criteria :=
  { rules := draft.rules, connectiveName := some draft.connective.name }

end CriteriaDraft

end Cohort
