import Cohort.Proofs.Criteria.Slots

/-!
# The grammar of criteria documents

`Describes` says which criteria a JSON value describes, without a word about how it is
read.  Texts, scalars, rules and lists of rules have such a relation each, and each is
matched with its reader.
-/

namespace Cohort

open Json

namespace Criteria

def fieldNames : List String :=
  ["field", "Field"]

def comparisonNames : List String :=
  ["operator", "Operator"]

def valueNames : List String :=
  ["value", "Value"]

def rulesNames : List String :=
  ["rules", "Rules"]

def connectiveNames : List String :=
  ["logicalOperator", "LogicalOperator", "logical_operator"]

/-- What is given for a text says this text. -/
inductive TextOf : Option Value → Option String → Prop where
  | absent : TextOf none none
  | null : TextOf (some .null) none
  | text (held : String) : TextOf (some (.text held)) (some held)

/-- What is given for the value of a rule says this text.  A number or a truth value
says the text by which it is written. -/
inductive ScalarOf : Option Value → Option String → Prop where
  | absent : ScalarOf none none
  | null : ScalarOf (some .null) none
  | text (held : String) : ScalarOf (some (.text held)) (some held)
  | number (held : Number) : ScalarOf (some (.number held)) (some (Value.number held).compact)
  | bool (held : Bool) : ScalarOf (some (.bool held)) (some (Value.bool held).compact)

/-- A value describes a rule, by the names of its parts or by their places. -/
inductive RuleOf : Value → Rule → Prop where
  | object {members : List (String × Value)} {field comparison value : Option Value} {rule : Rule} :
      Given fieldNames members field → Given comparisonNames members comparison →
      Given valueNames members value → TextOf field rule.field →
      TextOf comparison rule.comparison → ScalarOf value rule.value →
      RuleOf (.object members) rule
  | array {items : List Value} {rule : Rule} :
      items.length ≤ 3 → TextOf items[0]? rule.field → TextOf items[1]? rule.comparison →
      ScalarOf items[2]? rule.value → RuleOf (.array items) rule

/-- What is given for the list of rules describes these rules, in this order. -/
inductive RulesOf : Option Value → List Rule → Prop where
  | absent : RulesOf none []
  | null : RulesOf (some .null) []
  | array {items : List Value} {rules : List Rule} :
      List.Forall₂ RuleOf items rules → RulesOf (some (.array items)) rules

/-- A value describes criteria. -/
inductive Describes : Value → Criteria → Prop where
  | object {members : List (String × Value)} {rules connective : Option Value}
      {criteria : Criteria} :
      Given rulesNames members rules → Given connectiveNames members connective →
      RulesOf rules criteria.rules → TextOf connective criteria.connectiveName →
      Describes (.object members) criteria

theorem textOf_none_iff (text : Option String) : TextOf none text ↔ text = none := by
  constructor
  · intro said
    cases said
    rfl
  · rintro rfl
    exact .absent

theorem textOf_some_iff (value : Value) (text : Option String) :
    TextOf (some value) text ↔ readText value = .ok text := by
  constructor
  · intro said
    cases said <;> rfl
  · intro read
    cases value with
    | null =>
        cases read
        exact .null
    | text held =>
        cases read
        exact .text held
    | _ => cases read

theorem scalarOf_none_iff (text : Option String) : ScalarOf none text ↔ text = none := by
  constructor
  · intro said
    cases said
    rfl
  · rintro rfl
    exact .absent

theorem scalarOf_some_iff (value : Value) (text : Option String) :
    ScalarOf (some value) text ↔ readScalar value = .ok text := by
  constructor
  · intro said
    cases said <;> rfl
  · intro read
    cases value with
    | null =>
        cases read
        exact .null
    | bool held =>
        cases read
        exact .bool held
    | number held =>
        cases read
        exact .number held
    | text held =>
        cases read
        exact .text held
    | _ => cases read

theorem readText_eq_error {value : Value} {problem : CriteriaProblem}
    (refused : readText value = .error problem) : problem = .unreadable := by
  cases value <;> cases refused <;> rfl

/-- What is refused as a scalar is told in the problem. -/
theorem readScalar_eq_error {value : Value} {problem : CriteriaProblem}
    (refused : readScalar value = .error problem) : problem = .nestedValue value := by
  cases value <;> cases refused <;> rfl

def fieldSlot : Slot (Option String) :=
  { names := fieldNames, read := readText }

def comparisonSlot : Slot (Option String) :=
  { names := comparisonNames, read := readText }

def valueSlot : Slot (Option String) :=
  { names := valueNames, read := readScalar }

theorem ruleNames_apart :
    fieldNames.Disjoint comparisonNames ∧ fieldNames.Disjoint valueNames ∧
      comparisonNames.Disjoint valueNames := by
  simp [List.Disjoint, fieldNames, comparisonNames, valueNames]

theorem RuleParts.add_eq (parts : RuleParts) (member : String × Value) :
    parts.add member =
      if member.1 ∈ fieldNames then
        (fieldSlot.add parts.field member).map fun held => { parts with field := held }
      else if member.1 ∈ comparisonNames then
        (comparisonSlot.add parts.comparison member).map fun held =>
          { parts with comparison := held }
      else if member.1 ∈ valueNames then
        (valueSlot.add parts.value member).map fun held => { parts with value := held }
      else .ok parts := by
  obtain ⟨name, value⟩ := member
  dsimp only [RuleParts.add]
  split
  case h_7 => grind [fieldNames, comparisonNames, valueNames]
  all_goals
    simp only [Slot.add, fieldSlot, comparisonSlot, valueSlot, fieldNames, comparisonNames,
      valueNames, List.mem_cons, List.not_mem_nil, String.reduceEq, or_false, or_true, if_true,
      if_false]
    split
    · rfl
    · first
      | cases readText value <;> rfl
      | cases readScalar value <;> rfl

theorem RuleParts.add_eq_ok_iff {parts after : RuleParts} {member : String × Value} :
    parts.add member = .ok after ↔
      fieldSlot.add parts.field member = .ok after.field ∧
      comparisonSlot.add parts.comparison member = .ok after.comparison ∧
      valueSlot.add parts.value member = .ok after.value := by
  obtain ⟨field, comparison, value⟩ := parts
  obtain ⟨apartComparison, apartValue, apart⟩ := ruleNames_apart
  rw [add_eq]
  -- In each case the slots without the name keep what they hold.
  split
  · rename_i named
    rw [comparisonSlot.add_of_not_mem (apartComparison named),
      valueSlot.add_of_not_mem (apartValue named), map_eq_ok_iff]
    grind [RuleParts]
  · rename_i noField
    rw [fieldSlot.add_of_not_mem noField]
    split
    · rename_i named
      rw [valueSlot.add_of_not_mem (apart named), map_eq_ok_iff]
      grind [RuleParts]
    · rename_i noComparison
      rw [comparisonSlot.add_of_not_mem noComparison]
      split
      · rw [map_eq_ok_iff]
        grind [RuleParts]
      · rename_i noValue
        rw [valueSlot.add_of_not_mem noValue]
        grind [RuleParts]

theorem RuleParts.foldlM_add_eq_ok_iff {members : List (String × Value)} {parts after : RuleParts} :
    members.foldlM RuleParts.add parts = .ok after ↔
      members.foldlM fieldSlot.add parts.field = .ok after.field ∧
      members.foldlM comparisonSlot.add parts.comparison = .ok after.comparison ∧
      members.foldlM valueSlot.add parts.value = .ok after.value := by
  induction members generalizing parts with
  | nil =>
      cases parts
      cases after
      simp [pure, Except.pure]
  | cons member members induction =>
      simp only [List.foldlM_cons, bind_eq_ok_iff, induction, add_eq_ok_iff]
      constructor
      · rintro ⟨middle, ⟨field, comparison, value⟩, restField, restComparison, restValue⟩
        exact ⟨⟨_, field, restField⟩, ⟨_, comparison, restComparison⟩, ⟨_, value, restValue⟩⟩
      · rintro ⟨⟨field, takenField, restField⟩, ⟨comparison, takenComparison, restComparison⟩,
          ⟨value, takenValue, restValue⟩⟩
        exact ⟨{ field, comparison, value }, ⟨takenField, takenComparison, takenValue⟩, restField,
          restComparison, restValue⟩

theorem join_eq_getD {α : Type} (held : Option (Option α)) : held.join = held.getD none := by
  cases held <;> rfl

theorem readMembers_eq_ok_iff {members : List (String × Value)} {rule : Rule} :
    (members.foldlM RuleParts.add {}).map RuleParts.rule = .ok rule ↔
      (∃ field, Given fieldNames members field ∧ TextOf field rule.field) ∧
      (∃ comparison, Given comparisonNames members comparison ∧
        TextOf comparison rule.comparison) ∧
      ∃ value, Given valueNames members value ∧ ScalarOf value rule.value := by
  have field := fieldSlot.foldlM_add_none_iff textOf_none_iff textOf_some_iff members rule.field
  have comparison :=
    comparisonSlot.foldlM_add_none_iff textOf_none_iff textOf_some_iff members rule.comparison
  have value :=
    valueSlot.foldlM_add_none_iff scalarOf_none_iff scalarOf_some_iff members rule.value
  refine Iff.trans ?_ (and_congr field (and_congr comparison value))
  simp only [map_eq_ok_iff, RuleParts.foldlM_add_eq_ok_iff, RuleParts.rule, join_eq_getD]
  constructor
  · rintro ⟨parts, ⟨heldField, heldComparison, heldValue⟩, rfl⟩
    exact ⟨⟨_, heldField, rfl⟩, ⟨_, heldComparison, rfl⟩, ⟨_, heldValue, rfl⟩⟩
  · rintro ⟨⟨_, heldField, saidField⟩, ⟨_, heldComparison, saidComparison⟩,
      ⟨_, heldValue, saidValue⟩⟩
    refine ⟨⟨_, _, _⟩, ⟨heldField, heldComparison, heldValue⟩, ?_⟩
    rw [saidField, saidComparison, saidValue]

theorem given_zip_iff (items : List Value) (found : Option Value) :
    (Given fieldNames (ruleNames.zip items) found ↔ found = items[0]?) ∧
      (Given comparisonNames (ruleNames.zip items) found ↔ found = items[1]?) ∧
      (Given valueNames (ruleNames.zip items) found ↔ found = items[2]?) := by
  match items with
  | [] => cases found <;> simp [Given, ruleNames]
  | [_] =>
      cases found <;>
        simp [Given, ruleNames, fieldNames, comparisonNames, valueNames, eq_comm]
  | [_, _] =>
      cases found <;>
        simp [Given, ruleNames, fieldNames, comparisonNames, valueNames, eq_comm]
  | _ :: _ :: _ :: _ =>
      cases found <;>
        simp [Given, ruleNames, fieldNames, comparisonNames, valueNames, eq_comm]

theorem readItems_eq_ok_iff {items : List Value} {rule : Rule} :
    ((ruleNames.zip items).foldlM RuleParts.add {}).map RuleParts.rule = .ok rule ↔
      TextOf items[0]? rule.field ∧ TextOf items[1]? rule.comparison ∧
        ScalarOf items[2]? rule.value := by
  have places := given_zip_iff items
  simp only [readMembers_eq_ok_iff, (places _).1, (places _).2.1, (places _).2.2,
    exists_eq_left]

theorem readRule_eq_ok_iff {value : Value} {rule : Rule} :
    readRule value = .ok rule ↔ RuleOf value rule := by
  constructor
  · intro read
    cases value with
    | object members =>
        obtain ⟨⟨field, givenField, saidField⟩, ⟨comparison, givenComparison, saidComparison⟩,
          ⟨value, givenValue, saidValue⟩⟩ := readMembers_eq_ok_iff.mp read
        exact .object givenField givenComparison givenValue saidField saidComparison saidValue
    | array items =>
        -- The items are read before their number is checked.
        obtain ⟨parts, gone, rest⟩ := bind_eq_ok_iff.mp read
        split at rest
        · rename_i short
          cases rest
          obtain ⟨saidField, saidComparison, saidValue⟩ :=
            readItems_eq_ok_iff.mp (map_eq_ok_iff.mpr ⟨parts, gone, rfl⟩)
          exact .array short saidField saidComparison saidValue
        · cases rest
    | _ => cases read
  · intro described
    cases described with
    | object givenField givenComparison givenValue saidField saidComparison saidValue =>
        exact readMembers_eq_ok_iff.mpr ⟨⟨_, givenField, saidField⟩,
          ⟨_, givenComparison, saidComparison⟩, ⟨_, givenValue, saidValue⟩⟩
    | array short saidField saidComparison saidValue =>
        obtain ⟨parts, gone, rfl⟩ :=
          map_eq_ok_iff.mp (readItems_eq_ok_iff.mpr ⟨saidField, saidComparison, saidValue⟩)
        exact bind_eq_ok_iff.mpr ⟨parts, gone, if_pos short⟩

theorem rulesOf_none_iff (rules : List Rule) : RulesOf none rules ↔ rules = [] := by
  constructor
  · intro described
    cases described
    rfl
  · rintro rfl
    exact .absent

theorem rulesOf_some_iff (value : Value) (rules : List Rule) :
    RulesOf (some value) rules ↔ readRules value = .ok rules := by
  have each (items : List Value) : items.mapM readRule = .ok rules ↔
    items.Forall₂ RuleOf rules := by
    simp only [mapM_eq_ok_iff, readRule_eq_ok_iff]
  constructor
  · intro described
    cases described with
    | null => rfl
    | array listed => exact (each _).mpr listed
  · intro read
    cases value with
    | null =>
        cases read
        exact .null
    | array items => exact .array ((each items).mp read)
    | _ => cases read

def rulesSlot : Slot (List Rule) :=
  { names := rulesNames, read := readRules }

def connectiveSlot : Slot (Option String) :=
  { names := connectiveNames, read := readText }

theorem rulesNames_disjoint : rulesNames.Disjoint connectiveNames := by
  simp [List.Disjoint, rulesNames, connectiveNames]

theorem Parts.add_eq (parts : Parts) (member : String × Value) :
    parts.add member =
      if member.1 ∈ rulesNames then
        (rulesSlot.add parts.rules member).map fun held => { parts with rules := held }
      else if member.1 ∈ connectiveNames then
        (connectiveSlot.add parts.connectiveName member).map fun held =>
          { parts with connectiveName := held }
      else .ok parts := by
  obtain ⟨name, value⟩ := member
  dsimp only [Parts.add]
  split
  case h_6 => grind [rulesNames, connectiveNames]
  all_goals
    simp only [Slot.add, rulesSlot, connectiveSlot, rulesNames, connectiveNames, List.mem_cons,
      List.not_mem_nil, String.reduceEq, or_false, or_true, if_true, if_false]
    split
    · rfl
    · first
      | cases readRules value <;> rfl
      | cases readText value <;> rfl

theorem Parts.add_eq_ok_iff {parts after : Parts} {member : String × Value} :
    parts.add member = .ok after ↔
      rulesSlot.add parts.rules member = .ok after.rules ∧
      connectiveSlot.add parts.connectiveName member = .ok after.connectiveName := by
  obtain ⟨rules, connective⟩ := parts
  rw [add_eq]
  split
  · rename_i named
    rw [connectiveSlot.add_of_not_mem (rulesNames_disjoint named), map_eq_ok_iff]
    grind [Parts]
  · rename_i noRules
    rw [rulesSlot.add_of_not_mem noRules]
    split
    · rw [map_eq_ok_iff]
      grind [Parts]
    · rename_i noConnective
      rw [connectiveSlot.add_of_not_mem noConnective]
      grind [Parts]

theorem Parts.foldlM_add_eq_ok_iff {members : List (String × Value)} {parts after : Parts} :
    members.foldlM Parts.add parts = .ok after ↔
      members.foldlM rulesSlot.add parts.rules = .ok after.rules ∧
      members.foldlM connectiveSlot.add parts.connectiveName = .ok after.connectiveName := by
  induction members generalizing parts with
  | nil =>
      cases parts
      cases after
      simp [pure, Except.pure]
  | cons member members induction =>
      simp only [List.foldlM_cons, bind_eq_ok_iff, induction, add_eq_ok_iff]
      constructor
      · rintro ⟨middle, ⟨rules, connective⟩, restRules, restConnective⟩
        exact ⟨⟨_, rules, restRules⟩, ⟨_, connective, restConnective⟩⟩
      · rintro ⟨⟨rules, takenRules, restRules⟩, ⟨connective, takenConnective, restConnective⟩⟩
        exact ⟨⟨rules, connective⟩, ⟨takenRules, takenConnective⟩, restRules, restConnective⟩

theorem ofMembers_eq_ok_iff {members : List (String × Value)} {criteria : Criteria} :
    ofMembers members = .ok criteria ↔
      (∃ rules, Given rulesNames members rules ∧ RulesOf rules criteria.rules) ∧
      ∃ connective, Given connectiveNames members connective ∧
        TextOf connective criteria.connectiveName := by
  have rules :=
    rulesSlot.foldlM_add_none_iff rulesOf_none_iff rulesOf_some_iff members criteria.rules
  have connective :=
    connectiveSlot.foldlM_add_none_iff textOf_none_iff textOf_some_iff members
      criteria.connectiveName
  refine Iff.trans ?_ (and_congr rules connective)
  simp only [ofMembers, map_eq_ok_iff, Parts.foldlM_add_eq_ok_iff, Parts.criteria, join_eq_getD]
  constructor
  · rintro ⟨parts, ⟨heldRules, heldConnective⟩, rfl⟩
    exact ⟨⟨_, heldRules, rfl⟩, ⟨_, heldConnective, rfl⟩⟩
  · rintro ⟨⟨_, heldRules, describedRules⟩, ⟨_, heldConnective, saidConnective⟩⟩
    refine ⟨⟨_, _⟩, ⟨heldRules, heldConnective⟩, ?_⟩
    rw [describedRules, saidConnective]

theorem ofValue_eq_ok_iff {value : Value} {criteria : Criteria} :
    ofValue value = .ok criteria ↔ Describes value criteria := by
  constructor
  · intro read
    cases value with
    | object members =>
        obtain ⟨⟨rules, givenRules, describedRules⟩,
          ⟨connective, givenConnective, saidConnective⟩⟩ := ofMembers_eq_ok_iff.mp read
        exact .object givenRules givenConnective describedRules saidConnective
    | _ => cases read
  · intro described
    cases described with
    | object givenRules givenConnective describedRules saidConnective =>
        exact ofMembers_eq_ok_iff.mpr
          ⟨⟨_, givenRules, describedRules⟩, ⟨_, givenConnective, saidConnective⟩⟩

end Criteria

end Cohort
