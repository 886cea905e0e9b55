import Cohort.Criteria.Draft
import Cohort.Proofs.Criteria.Documents
import Cohort.Proofs.Json.Compact

/-!
# Criteria are read back

The text of a document is read as the tree of the value that was written; on the way to
the value again the members are put in order of their names, which the grammar does not
mind.
-/

namespace Cohort

open Json

namespace Criteria

theorem legible_ruleValue (rule : Rule) : (ruleValue rule).Legible :=
  ⟨Value.legible_optionalText _, Value.legible_optionalText _,
    Value.legible_optionalText _, trivial⟩

theorem legible_toValue (criteria : Criteria) : criteria.toValue.Legible := by
  refine ⟨?_, Value.legible_optionalText _, trivial⟩
  apply Value.legibleItems_map
  intro rule _
  exact legible_ruleValue rule

theorem depth_optionalText (text : Option String) : (Value.optionalText text).tree.depth = 0 := by
  cases text <;> rfl

theorem depth_ruleValue (rule : Rule) : (ruleValue rule).tree.depth = 1 := by
  simp [ruleValue, Value.tree, Value.treesOfMembers, Tree.depth, Tree.depthOfMembers,
    depth_optionalText]

theorem depth_rules (rules : List Rule) :
    Tree.depthOfItems (Value.treesOfItems (rules.map ruleValue)) ≤ 1 := by
  induction rules with
  | nil => exact Nat.zero_le 1
  | cons rule rules induction =>
      simp only [List.map_cons, Value.treesOfItems, Tree.depthOfItems, depth_ruleValue]
      omega

theorem depth_toValue (criteria : Criteria) : criteria.toValue.tree.depth ≤ Value.maxDepth := by
  have rules := depth_rules criteria.rules
  simp only [toValue, Value.tree, Value.treesOfMembers, Tree.depth, Tree.depthOfMembers,
    depth_optionalText, Value.maxDepth]
  omega

theorem ofTree?_optionalText (text : Option String) :
    Value.ofTree? (Value.optionalText text).tree = some (Value.optionalText text) := by
  cases text <;> rfl

theorem ofTree?_ruleValue (rule : Rule) :
    Value.ofTree? (ruleValue rule).tree = some (ruleValue rule) := by
  have names : ["field", "operator", "value"].Pairwise (· < ·) := by decide
  have settled : Value.settle
      [("field", .optionalText rule.field), ("operator", .optionalText rule.comparison),
        ("value", .optionalText rule.value)] =
      [("field", .optionalText rule.field), ("operator", .optionalText rule.comparison),
        ("value", .optionalText rule.value)] :=
    Value.settle_of_ascending names
  simp [ruleValue, Value.tree, Value.treesOfMembers, Value.ofTree?, Value.ofMembers?,
    ofTree?_optionalText, settled]

theorem ofItems?_rules (rules : List Rule) :
    Value.ofItems? (Value.treesOfItems (rules.map ruleValue)) = some (rules.map ruleValue) := by
  induction rules with
  | nil => rfl
  | cons rule rules induction =>
      simp only [List.map_cons, Value.treesOfItems, Value.ofItems?, ofTree?_ruleValue, induction]
      rfl

/-- What the document of criteria means: the members of the criteria change places. -/
theorem parse?_document (criteria : Criteria) :
    Value.parse? criteria.document =
      some (.object
        [("logicalOperator", .optionalText criteria.connectiveName),
          ("rules", .array (criteria.rules.map ruleValue))]) := by
  have said : Tree.parse? criteria.document = some criteria.toValue.tree :=
    Value.parse?_compact (legible_toValue criteria)
  have meant : Value.ofTree? criteria.toValue.tree = some (.object (Value.settle
      [("rules", .array (criteria.rules.map ruleValue)),
        ("logicalOperator", .optionalText criteria.connectiveName)])) := by
    simp [toValue, Value.tree, Value.treesOfMembers, Value.ofTree?, Value.ofMembers?,
      ofTree?_optionalText, ofItems?_rules]
  have names : ["logicalOperator", "rules"].Pairwise (· < ·) := by decide
  have settled : Value.settle
      [("rules", .array (criteria.rules.map ruleValue)),
        ("logicalOperator", .optionalText criteria.connectiveName)] =
      [("logicalOperator", .optionalText criteria.connectiveName),
        ("rules", .array (criteria.rules.map ruleValue))] :=
    -- The rules are written first, but their name comes after that of the connective.
    (Value.settle_swap (by simp) [] []).trans (Value.settle_of_ascending names)
  rw [Value.parse?, said, Option.bind_eq_bind, Option.bind_some, if_pos (depth_toValue criteria),
    meant, settled]

theorem textOf_optionalText (text : Option String) : TextOf (some (.optionalText text)) text := by
  cases text with
  | none => exact .null
  | some held => exact .text held

theorem scalarOf_optionalText (text : Option String) :
    ScalarOf (some (.optionalText text)) text := by
  cases text with
  | none => exact .null
  | some held => exact .text held

theorem ruleOf_ruleValue (rule : Rule) : RuleOf (ruleValue rule) rule := by
  let members : List (String × Value) :=
    [("field", .optionalText rule.field), ("operator", .optionalText rule.comparison),
      ("value", .optionalText rule.value)]
  have field : Given fieldNames members (some (.optionalText rule.field)) := by
    simp [Given, fieldNames, members]
  have comparison : Given comparisonNames members (some (.optionalText rule.comparison)) := by
    simp [Given, comparisonNames, members]
  have value : Given valueNames members (some (.optionalText rule.value)) := by
    simp [Given, valueNames, members]
  exact .object field comparison value (textOf_optionalText _) (textOf_optionalText _)
    (scalarOf_optionalText _)

theorem rulesOf_ruleValues (rules : List Rule) :
    RulesOf (some (.array (rules.map ruleValue))) rules := by
  apply RulesOf.array
  rw [List.forall₂_map_left_iff, List.forall₂_same]
  exact fun rule _ => ruleOf_ruleValue rule

/-- The document of criteria is read as these criteria; so is that of every draft. -/
theorem parse_document :
    (∀ criteria : Criteria, parse criteria.document = .ok criteria) ∧
      ∀ draft : CriteriaDraft, parse draft.criteria.document = .ok draft.criteria := by
  have readBack (criteria : Criteria) : parse criteria.document = .ok criteria := by
    refine parse_eq_ok_iff.mpr ⟨_, parse?_document criteria, ?_⟩
    let members : List (String × Value) :=
      [("logicalOperator", .optionalText criteria.connectiveName),
        ("rules", .array (criteria.rules.map ruleValue))]
    have rules : Given rulesNames members (some (.array (criteria.rules.map ruleValue))) := by
      simp [Given, rulesNames, members]
    have connective :
        Given connectiveNames members (some (.optionalText criteria.connectiveName)) := by
      simp [Given, connectiveNames, members]
    exact .object rules connective (rulesOf_ruleValues _) (textOf_optionalText _)
  exact ⟨readBack, fun draft => readBack draft.criteria⟩

end Criteria

end Cohort
