import Cohort.Proofs.Criteria.Grammar
import Cohort.Proofs.Json.Blank
import Cohort.Proofs.Json.Members
import Mathlib

/-!
# Which documents are criteria

A document is criteria exactly when it is JSON and its value describes them; every other
document is refused for a fault that it has.
-/

namespace Cohort

open Json

namespace Criteria

/-- Why a value is no rule. -/
inductive RuleFault : Value → CriteriaProblem → Prop where
  | unreadable (rule : Value) : RuleFault rule .unreadable
  | named {members : List (String × Value)} {name : String} {value : Value} :
      (name, value) ∈ members → name ∈ valueNames → (∀ text, ¬ ScalarOf (some value) text) →
      RuleFault (.object members) (.nestedValue value)
  | placed {items : List Value} {value : Value} :
      items[2]? = some value → (∀ text, ¬ ScalarOf (some value) text) →
      RuleFault (.array items) (.nestedValue value)

/-- Why a document is no criteria.  It is given by its value, or by none if it is not
JSON. -/
inductive Fault : Option Value → CriteriaProblem → Prop where
  | blank : Fault none .empty
  | illFormed : Fault none .unreadable
  | null : Fault (some .null) .null
  | notObject {value : Value} : (∀ members, value ≠ .object members) → Fault (some value) .notObject
  | unreadable (members : List (String × Value)) : Fault (some (.object members)) .unreadable
  | rule {members : List (String × Value)} {name : String} {rules : List Value} {rule : Value}
      {problem : CriteriaProblem} :
      (name, .array rules) ∈ members → name ∈ rulesNames → rule ∈ rules → RuleFault rule problem →
      Fault (some (.object members)) problem

theorem not_scalarOf_of_error {value : Value} {problem : CriteriaProblem}
    (refused : readScalar value = .error problem) (text : Option String) :
    ¬ ScalarOf (some value) text := by
  intro said
  rw [scalarOf_some_iff, refused] at said
  cases said

/-- A member of a rule is refused as a whole or for the value that it gives. -/
theorem RuleParts.add_eq_error {parts : RuleParts} {member : String × Value}
    {problem : CriteriaProblem} (refused : parts.add member = .error problem) :
    problem = .unreadable ∨ member.1 ∈ valueNames ∧ problem = .nestedValue member.2 ∧
      ∀ text, ¬ ScalarOf (some member.2) text := by
  rw [add_eq] at refused
  split at refused
  · rcases fieldSlot.add_eq_error (map_eq_error_iff.mp refused) with twice | unread
    · exact .inl twice
    · exact .inl (readText_eq_error unread)
  split at refused
  · rcases comparisonSlot.add_eq_error (map_eq_error_iff.mp refused) with twice | unread
    · exact .inl twice
    · exact .inl (readText_eq_error unread)
  split at refused
  · rename_i named
    rcases valueSlot.add_eq_error (map_eq_error_iff.mp refused) with twice | unread
    · exact .inl twice
    · exact .inr ⟨named, readScalar_eq_error unread, not_scalarOf_of_error unread⟩
  · cases refused

theorem getElem?_two_of_mem_zip {items : List Value} {member : String × Value}
    (placed : member ∈ ruleNames.zip items) (named : member.1 ∈ valueNames) :
    items[2]? = some member.2 := by
  have given : Given valueNames (ruleNames.zip items) items[2]? :=
    (given_zip_iff items _).2.2.mpr rfl
  have listed : member.2 ∈ items[2]?.toList := by
    rw [← given]
    exact List.mem_map_of_mem (List.mem_filter.mpr ⟨placed, decide_eq_true named⟩)
  exact Option.mem_toList.mp listed

theorem readRule_eq_error {value : Value} {problem : CriteriaProblem}
    (refused : readRule value = .error problem) : RuleFault value problem := by
  cases value with
  | object members =>
      obtain ⟨member, held, parts, stopped⟩ :=
        exists_of_foldlM_eq_error (map_eq_error_iff.mp refused)
      rcases RuleParts.add_eq_error stopped with rfl | ⟨named, rfl, unsaid⟩
      · exact .unreadable _
      · exact .named held named unsaid
  | array items =>
      cases gone : (ruleNames.zip items).foldlM RuleParts.add {} with
      | error other =>
          have same : other = problem := by
            simpa [readRule, gone, bind, Except.bind] using refused
          subst same
          obtain ⟨member, placed, parts, stopped⟩ := exists_of_foldlM_eq_error gone
          rcases RuleParts.add_eq_error stopped with rfl | ⟨named, rfl, unsaid⟩
          · exact .unreadable _
          · exact .placed (getElem?_two_of_mem_zip placed named) unsaid
      | ok parts =>
          simp only [readRule, gone, bind, Except.bind] at refused
          split at refused
          · cases refused
          · cases refused
            exact .unreadable _
  | _ =>
      cases refused
      exact .unreadable _

theorem readRules_eq_error {value : Value} {problem : CriteriaProblem}
    (refused : readRules value = .error problem) :
    problem = .unreadable ∨ ∃ rules rule, value = .array rules ∧ rule ∈ rules ∧
      RuleFault rule problem := by
  cases value with
  | null => cases refused
  | array rules =>
      obtain ⟨rule, listed, stopped⟩ := exists_of_mapM_eq_error refused
      exact .inr ⟨rules, rule, rfl, listed, readRule_eq_error stopped⟩
  | _ =>
      cases refused
      exact .inl rfl

theorem ofMembers_eq_error {members : List (String × Value)} {problem : CriteriaProblem}
    (refused : ofMembers members = .error problem) : Fault (some (.object members)) problem := by
  obtain ⟨member, held, parts, stopped⟩ :=
    exists_of_foldlM_eq_error (map_eq_error_iff.mp refused)
  obtain ⟨name, value⟩ := member
  rw [Parts.add_eq] at stopped
  split at stopped
  · rename_i named
    rcases rulesSlot.add_eq_error (map_eq_error_iff.mp stopped) with rfl | unread
    · exact .unreadable _
    · rcases readRules_eq_error unread with rfl | ⟨rules, rule, rfl, listed, fault⟩
      · exact .unreadable _
      · exact .rule held named listed fault
  split at stopped
  · rcases connectiveSlot.add_eq_error (map_eq_error_iff.mp stopped) with rfl | unread
    · exact .unreadable _
    · rw [readText_eq_error unread]
      exact .unreadable _
  · cases stopped

theorem ofValue_eq_error {value : Value} {problem : CriteriaProblem}
    (refused : ofValue value = .error problem) : Fault (some value) problem := by
  cases value with
  | null =>
      cases refused
      exact .null
  | object members => exact ofMembers_eq_error refused
  | _ =>
      cases refused
      exact .notObject fun members equality => nomatch equality

/-- A rule without the members that no rule has. -/
def essentialRule : Value → Value
  | .object members =>
      .object (members.filter fun member =>
        member.1 ∈ fieldNames ++ comparisonNames ++ valueNames)
  | value => value

def essentialRules : Value → Value
  | .array rules => .array (rules.map essentialRule)
  | value => value

/-- A member whose rules, if it has any, are without unknown members. -/
def essentialMember (member : String × Value) : String × Value :=
  if member.1 ∈ rulesNames then (member.1, essentialRules member.2) else member

/-- A criteria value without the members that neither criteria nor rules have. -/
def essential : Value → Value
  | .object members =>
      .object ((members.filter fun member =>
        member.1 ∈ rulesNames ++ connectiveNames).map essentialMember)
  | value => value

theorem readRule_essentialRule (value : Value) :
    readRule (essentialRule value) = readRule value := by
  cases value with
  | object members =>
      refine congrArg (Except.map RuleParts.rule) (foldlM_filter_of_idle ?_ members _)
      intro parts member unknown
      have unnamed : member.1 ∉ fieldNames ++ comparisonNames ++ valueNames := by
        simpa using unknown
      simp only [List.mem_append, not_or] at unnamed
      rw [RuleParts.add_eq, if_neg unnamed.1.1, if_neg unnamed.1.2, if_neg unnamed.2]
  | _ => rfl

theorem readRules_essentialRules (value : Value) :
    readRules (essentialRules value) = readRules value := by
  cases value with
  | array rules =>
      have same : readRule ∘ essentialRule = readRule := funext readRule_essentialRule
      simp only [readRules, essentialRules, List.mapM_map, same]
  | _ => rfl

theorem Parts.add_essentialMember (parts : Parts) (member : String × Value) :
    parts.add (essentialMember member) = parts.add member := by
  unfold essentialMember
  split
  · rename_i named
    simp only [add_eq, Slot.add, rulesSlot, readRules_essentialRules, named, if_true]
  · rfl

theorem ofValue_essential (value : Value) : ofValue (essential value) = ofValue value := by
  cases value with
  | object members =>
      refine congrArg (Except.map Parts.criteria) ?_
      simp only [List.foldlM_map, Parts.add_essentialMember]
      refine foldlM_filter_of_idle ?_ members _
      intro parts member unknown
      have unnamed : member.1 ∉ rulesNames ++ connectiveNames := by
        simpa using unknown
      simp only [List.mem_append, not_or] at unnamed
      rw [Parts.add_eq, if_neg unnamed.1, if_neg unnamed.2]
  | _ => rfl

theorem parse_eq_ofValue {document : String} {value : Value}
    (means : Value.parse? document = some value) : parse document = ofValue value := by
  obtain ⟨tree, said, _⟩ := Option.bind_eq_some_iff.mp means
  simp only [parse, Tree.allBlank_eq_false said, Bool.false_eq_true, if_false, means]

theorem parse_eq_error {document : String} {problem : CriteriaProblem}
    (refused : parse document = .error problem) : Fault (Value.parse? document) problem := by
  cases means : Value.parse? document with
  | some value =>
      rw [parse_eq_ofValue means] at refused
      exact ofValue_eq_error refused
  | none =>
      rw [parse, means] at refused
      split at refused
      · cases refused
        exact .blank
      · cases refused
        exact .illFormed

theorem parse_eq_ok_iff {document : String} {criteria : Criteria} :
    parse document = .ok criteria ↔
      ∃ value, Value.parse? document = some value ∧ Describes value criteria := by
  constructor
  · intro read
    cases means : Value.parse? document with
    | some value =>
        rw [parse_eq_ofValue means] at read
        exact ⟨value, rfl, ofValue_eq_ok_iff.mp read⟩
    | none =>
        rw [parse, means] at read
        split at read <;> cases read
  · rintro ⟨value, means, described⟩
    rw [parse_eq_ofValue means]
    exact ofValue_eq_ok_iff.mpr described

/-- The grammar of criteria documents.  A document is read as the criteria that its
value describes, and refused for a fault that it has if its value describes none.
Documents are read alike if their values agree up to unknown members, and if one is the
other with its members rearranged. -/
theorem parse_grammar (document : String) :
    (∀ criteria, parse document = .ok criteria ↔
      ∃ value, Value.parse? document = some value ∧ Describes value criteria) ∧
    ((∃ value criteria, Value.parse? document = some value ∧ Describes value criteria) ∨
      ∃ problem, parse document = .error problem ∧ Fault (Value.parse? document) problem) ∧
    (∀ other value otherValue, Value.parse? document = some value →
      Value.parse? other = some otherValue → essential value = essential otherValue →
      parse document = parse other) ∧
    (∀ other tree otherTree, Tree.parse? document = some tree →
      Tree.parse? other = some otherTree → tree.Rearranged otherTree →
      parse document = parse other) := by
  refine ⟨fun criteria => parse_eq_ok_iff, ?_, ?_, ?_⟩
  · cases read : parse document with
    | ok criteria =>
        obtain ⟨value, means, described⟩ := parse_eq_ok_iff.mp read
        exact .inl ⟨value, criteria, means, described⟩
    | error problem => exact .inr ⟨problem, rfl, parse_eq_error read⟩
  · intro other value otherValue means meansOther same
    rw [parse_eq_ofValue means, parse_eq_ofValue meansOther, ← ofValue_essential, same,
      ofValue_essential]
  · intro other tree otherTree said saidOther rearranged
    simp only [parse, Tree.allBlank_eq_false said, Tree.allBlank_eq_false saidOther,
      Value.parse?_eq_of_rearranged said saidOther rearranged]

/-- A document with a member that no rule has. -/
def notedDocument : String :=
  "\x7b\"rules\":[\x7b\"note\":true,\"field\":\"tag\",\"value\":7\x7d]," ++
    "\"LogicalOperator\":\"OR\"\x7d"

/-- The same document with the members of the criteria in the other order. -/
def turnedDocument : String :=
  "\x7b\"LogicalOperator\":\"OR\"," ++
    "\"rules\":[\x7b\"note\":true,\"field\":\"tag\",\"value\":7\x7d]\x7d"

/-- The same document without the unknown member. -/
def plainDocument : String :=
  "\x7b\"rules\":[\x7b\"field\":\"tag\",\"value\":7\x7d],\"LogicalOperator\":\"OR\"\x7d"

theorem notedDocument_read :
    parse notedDocument =
        .ok { rules := [{ field := some "tag", value := some "7" }], connectiveName := some "OR" } ∧
      parse notedDocument = parse plainDocument ∧ parse notedDocument = parse turnedDocument := by
  obtain ⟨read, _, unknown, rearranged⟩ := parse_grammar notedDocument
  let rule : List (String × Value) := [("field", .text "tag"), ("value", .int 7)]
  let notedRule : List (String × Value) :=
    [("field", .text "tag"), ("note", .bool true), ("value", .int 7)]
  let members (rule : List (String × Value)) : List (String × Value) :=
    [("LogicalOperator", .text "OR"), ("rules", .array [.object rule])]
  have means : Value.parse? notedDocument = some (.object (members notedRule)) := by cbv
  have meansPlain : Value.parse? plainDocument = some (.object (members rule)) := by cbv
  refine ⟨(read _).mpr ⟨_, means, ?_⟩, unknown _ _ _ means meansPlain (by cbv), ?_⟩
  · have field : Given fieldNames notedRule (some (.text "tag")) := rfl
    have comparison : Given comparisonNames notedRule none := rfl
    have value : Given valueNames notedRule (some (.int 7)) := rfl
    have rules : Given rulesNames (members notedRule) (some (.array [.object notedRule])) := rfl
    have connective : Given connectiveNames (members notedRule) (some (.text "OR")) := rfl
    have described : RuleOf (.object notedRule) { field := some "tag", value := some "7" } :=
      .object field comparison value (.text "tag") .absent (.number (.int 7))
    exact .object rules connective (.array (.cons described .nil)) (.text "OR")
  · let ruleTree : List (Option String × Tree) :=
      [(some "note", .bool true), (some "field", .text (some "tag")),
        (some "value", .number (some (.int 7)))]
    have said : Tree.parse? notedDocument =
        some (.object [(some "rules", .array [.object ruleTree]),
          (some "LogicalOperator", .text (some "OR"))]) := by
      cbv
    have saidTurned : Tree.parse? turnedDocument =
        some (.object [(some "LogicalOperator", .text (some "OR")),
          (some "rules", .array [.object ruleTree])]) := by
      cbv
    exact rearranged _ _ _ said saidTurned (.swap [] [] (by decide))

end Criteria

end Cohort
