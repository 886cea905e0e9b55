import Cohort.Proofs.AttributeKeys
import Cohort.Proofs.Criteria.Documents
import Cohort.Proofs.Json.Enclosed

/-!
# Bare scalars

A text, a number or a truth value may be written bare in an attribute document and as
the value of a rule.  Both sides take the same text of it, however it is spelled.
-/

namespace Cohort

open Json Text

open Criteria (Given TextOf ScalarOf RuleOf fieldNames comparisonNames valueNames rulesNames
  connectiveNames)

/-- The JSON text is a scalar with this text. -/
def Spells (literal text : String) : Prop :=
  ∃ value, Value.parse? literal = some value ∧ value.Says text

/-- The document is an object with nothing but the key, and the value of the literal
under it. -/
def MapsTo (document key literal : String) : Prop :=
  ∃ value, Value.parse? literal = some value ∧
    Value.parse? document = some (.object [(key, value)])

/-- The value is a rule, by the names of its parts or by their places, that an attribute
equals the wanted value. -/
inductive AsksIf (key : String) (wanted : Value) : Value → Prop where
  | object {members : List (String × Value)} :
      Given fieldNames members (some (.text ("customattribute." ++ key))) →
      Given comparisonNames members (some (.text "equals")) →
      Given valueNames members (some wanted) → AsksIf key wanted (.object members)
  | array : AsksIf key wanted (.array [.text ("customattribute." ++ key), .text "equals", wanted])

/-- The document is criteria with a single rule, that the attribute under the key equals
the value of the literal. -/
def AsksFor (document key literal : String) : Prop :=
  ∃ wanted rule members connective name, Value.parse? literal = some wanted ∧
    Value.parse? document = some (.object members) ∧
    Given rulesNames members (some (.array [rule])) ∧ AsksIf key wanted rule ∧
    Given connectiveNames members connective ∧ TextOf connective name

theorem spells_iff {literal text : String} :
    Spells literal text ↔ (Value.parse? literal).bind Value.scalarText? = some text := by
  simp only [Spells, Option.bind_eq_some_iff, Value.says_iff]

theorem Spells.unique {literal text other : String} (spelled : Spells literal text)
    (spelledOther : Spells literal other) : text = other := by
  rw [spells_iff] at spelled spelledOther
  exact Option.some.inj (spelled.symm.trans spelledOther)

theorem spells_compact_text (text : String) : Spells (Value.text text).compact text := by
  have said : Tree.parse? (Value.text text).compact = some (.text (some text)) :=
    Value.parse?_compact trivial
  refine ⟨.text text, ?_, .text text⟩
  rw [Value.parse?, said]
  rfl

theorem scalarOf_of_says {value : Value} {text : String} (said : value.Says text) :
    ScalarOf (some value) (some text) := by
  cases said with
  | text => exact .text text
  | number held => exact .number held
  | yes => exact .bool true
  | no => exact .bool false

theorem depth_of_says {tree : Tree} {value : Value} {text : String}
    (meant : Value.ofTree? tree = some value) (said : value.Says text) : tree.depth = 0 := by
  cases tree with
  | array items =>
      obtain ⟨_, _, rfl⟩ := Option.map_eq_some_iff.mp meant
      cases said
  | object members =>
      obtain ⟨_, _, rfl⟩ := Option.map_eq_some_iff.mp meant
      cases said
  | _ => rfl

def memberText (name literal : String) : String :=
  (Value.text name).compact ++ ":" ++ literal

def plainAttributes (key literal : String) : String :=
  "\x7b" ++ memberText key literal ++ "\x7d"

def plainCriteria (key literal : String) : String :=
  "\x7b" ++
    memberText "rules"
      ("[\x7b" ++ memberText "field" (Value.text ("customattribute." ++ key)).compact ++ "," ++
        memberText "operator" (Value.text "equals").compact ++ "," ++
        memberText "value" literal ++ "\x7d]") ++
    "\x7d"

theorem Spells.tree {literal text : String} (spelled : Spells literal text) :
    ∃ tree value, Written literal.toList tree ∧ tree.depth = 0 ∧ Value.ofTree? tree = some value ∧
      Value.parse? literal = some value := by
  obtain ⟨value, means, said⟩ := spelled
  obtain ⟨tree, saysTree, meant⟩ := Option.bind_eq_some_iff.mp means
  obtain ⟨_, meant⟩ := Option.ite_none_right_eq_some.mp meant
  exact ⟨tree, value, written_iff.mpr saysTree, depth_of_says meant said, meant, means⟩

theorem parse?_plainAttributes (key : String) {literal : String} {value : Value} {tree : Tree}
    (written : Written literal.toList tree) (leaf : tree.depth = 0)
    (meant : Value.ofTree? tree = some value) :
    Value.parse? (plainAttributes key literal) = some (.object [(key, value)]) := by
  have letters : (plainAttributes key literal).toList =
      '{' :: (Value.quoted key ++ ':' :: literal.toList) ++ ['}'] := by
    simp [plainAttributes, memberText, Value.compact, Value.letters]
  have said :
      Tree.parse? (plainAttributes key literal) = some (.object [(some key, tree)]) := by
    rw [← written_iff, letters]
    exact (WrittenMembers.one key written).object
  refine Value.parse?_eq_object_iff.mpr ⟨[(key, value)], ⟨_, said, ?_, ?_⟩, rfl⟩
  · simp [Tree.depth, Tree.depthOfMembers, leaf, Value.maxDepth]
  · simp [Value.ofMembers?, meant]

def plainRule (key : String) (value : Value) : List (String × Value) :=
  [("field", .text ("customattribute." ++ key)), ("operator", .text "equals"), ("value", value)]

theorem ofTree?_plainRule (key : String) {value : Value} {tree : Tree}
    (meant : Value.ofTree? tree = some value) :
    Value.ofTree?
      (.object
        [(some "field", .text (some ("customattribute." ++ key))),
          (some "operator", .text (some "equals")), (some "value", tree)]) =
      some (.object (plainRule key value)) := by
  have names : ["field", "operator", "value"].Pairwise (· < ·) := by decide
  have settled : Value.settle (plainRule key value) = plainRule key value :=
    Value.settle_of_ascending names
  rw [← settled]
  simp [Value.ofTree?, Value.ofMembers?, meant, plainRule]

theorem parse?_plainCriteria (key : String) {literal : String} {value : Value} {tree : Tree}
    (written : Written literal.toList tree) (leaf : tree.depth = 0)
    (meant : Value.ofTree? tree = some value) :
    Value.parse? (plainCriteria key literal) =
      some (.object [("rules", .array [.object (plainRule key value)])]) := by
  let field := "customattribute." ++ key
  have letters : (plainCriteria key literal).toList =
      '{' :: (Value.quoted "rules" ++ ':' :: ('[' :: ('{' ::
        ((Value.quoted "field" ++ ':' :: Value.quoted field) ++ ',' ::
          ((Value.quoted "operator" ++ ':' :: Value.quoted "equals") ++ ',' ::
            (Value.quoted "value" ++ ':' :: literal.toList))) ++ ['}']) ++ [']'])) ++ ['}'] := by
    simp [plainCriteria, memberText, Value.compact, Value.letters, field]
  -- From the inside out: the parts of the rule, the list around it and the member
  -- around that.
  have rule := ((WrittenMembers.one "value" written).cons "operator"
    (written_quoted "equals")).cons "field" (written_quoted field)
  have said := (WrittenMembers.one "rules" rule.object.singleton).object
  rw [← letters, written_iff] at said
  let members : List (String × Value) := [("rules", .array [.object (plainRule key value)])]
  refine Value.parse?_eq_object_iff.mpr ⟨members, ⟨_, said, ?_, ?_⟩, rfl⟩
  · simp [Tree.depth, Tree.depthOfMembers, Tree.depthOfItems, leaf, Value.maxDepth]
  · rw [Value.ofMembers?, Value.ofTree?, Value.ofItems?, ofTree?_plainRule key meant]
    rfl

theorem mapsTo_plainAttributes (key : String) {literal text : String}
    (spelled : Spells literal text) : MapsTo (plainAttributes key literal) key literal := by
  obtain ⟨tree, value, written, leaf, meant, means⟩ := spelled.tree
  exact ⟨value, means, parse?_plainAttributes key written leaf meant⟩

theorem asksFor_plainCriteria (key : String) {literal text : String}
    (spelled : Spells literal text) : AsksFor (plainCriteria key literal) key literal := by
  obtain ⟨tree, value, written, leaf, meant, means⟩ := spelled.tree
  have asks : AsksIf key value (.object (plainRule key value)) := .object rfl rfl rfl
  exact ⟨value, _, _, none, none, means, parse?_plainCriteria key written leaf meant, rfl, asks,
    rfl, .absent⟩

theorem AsksIf.ruleOf {key text : String} {wanted rule : Value} (asks : AsksIf key wanted rule)
    (said : wanted.Says text) : RuleOf rule (.onAttribute key text) := by
  have value := scalarOf_of_says said
  cases asks with
  | object field comparison wanted =>
      exact .object field comparison wanted (.text _) (.text _) value
  | array => exact .array (Nat.le_refl 3) (.text _) (.text _) value

/-- Criteria that ask for a scalar under a key, and a contact with a scalar under this
key.  The criteria can be read, and they accept the contact exactly if the texts of the
scalars are equal up to case. -/
theorem AsksFor.accepts_iff {key text wantedText literal wanted document asking : String}
    (own : Field.ofName ("customattribute." ++ key) = .customAttribute key)
    (spelled : Spells literal text) (spelledWanted : Spells wanted wantedText)
    (maps : MapsTo document key literal) (asks : AsksFor asking key wanted) {subject : Subject}
    (stored : subject.contact.customAttributes = some document) :
    ∃ criteria rule, Criteria.parse asking = .ok criteria ∧ criteria.rules = [rule] ∧
      (rule.isMatch subject = true ↔ lower text = lower wantedText) ∧
      criteria.isMatch subject = rule.isMatch subject := by
  obtain ⟨value, means, said⟩ := spelled
  obtain ⟨wantedValue, meansWanted, saidWanted⟩ := spelledWanted
  obtain ⟨_, meansHeld, object⟩ := maps
  cases means.symm.trans meansHeld
  obtain ⟨_, _, members, _, name, meansAsked, described, rules, asksIf, given, named⟩ := asks
  cases meansWanted.symm.trans meansAsked
  let rule := Rule.onAttribute key wantedText
  let criteria : Criteria := { rules := [rule], connectiveName := name }
  have read : Criteria.parse asking = .ok criteria :=
    Criteria.parse_eq_ok_iff.mpr ⟨_, described,
      .object rules given (.array (.cons (asksIf.ruleOf saidWanted) .nil)) named⟩
  have ownKey : attributeKey key = key := by
    rw [Field.ofName_attribute] at own
    exact Field.customAttribute.inj own
  have finds := Contact.finds_iff_of_single (Contact.attributes_of_single stored object said)
  refine ⟨criteria, rule, read, rfl, ?_, ?_⟩
  · rw [Rule.isMatch_eq_answer, Rule.answer_onAttribute, ownKey, finds]
    exact and_iff_right rfl
  · rw [Criteria.isMatch_single, Rule.isMatch_eq_answer]

/-- Bare scalars mean the same in attribute documents and in criteria documents, and
either may be written as the JSON string of its text. -/
theorem bare_scalars_agree {key literal text wanted wantedText : String}
    (own : Field.ofName ("customattribute." ++ key) = .customAttribute key)
    (spelled : Spells literal text) (spelledWanted : Spells wanted wantedText) :
    let held := [literal, (Value.text text).compact]
    let asked := [wanted, (Value.text wantedText).compact]
    (∀ literal ∈ held, MapsTo (plainAttributes key literal) key literal) ∧
    (∀ wanted ∈ asked, AsksFor (plainCriteria key wanted) key wanted) ∧
    (∀ literal ∈ held, ∀ wanted ∈ asked, ∀ document asking, MapsTo document key literal →
      AsksFor asking key wanted →
      ∀ subject : Subject, subject.contact.customAttributes = some document →
        ∃ criteria rule, Criteria.parse asking = .ok criteria ∧ criteria.rules = [rule] ∧
          (rule.isMatch subject = true ↔ lower text = lower wantedText) ∧
          criteria.isMatch subject = rule.isMatch subject) ∧
    (literal = wanted → text = wantedText) := by
  intro held asked
  have spells : ∀ literal ∈ held, Spells literal text :=
    List.forall_mem_cons.mpr ⟨spelled, List.forall_mem_singleton.mpr (spells_compact_text text)⟩
  have spellsAsked : ∀ wanted ∈ asked, Spells wanted wantedText :=
    List.forall_mem_cons.mpr
      ⟨spelledWanted, List.forall_mem_singleton.mpr (spells_compact_text wantedText)⟩
  refine ⟨?_, ?_, ?_, ?_⟩
  · exact fun literal listed => mapsTo_plainAttributes key (spells literal listed)
  · exact fun wanted listed => asksFor_plainCriteria key (spellsAsked wanted listed)
  · intro literal listed wanted listedAsked document asking maps asks subject stored
    exact asks.accepts_iff own (spells literal listed) (spellsAsked wanted listedAsked) maps stored
  · rintro rfl
    exact spelled.unique spelledWanted

theorem bare_scalars_agree_hundred :
    let subject : Subject :=
      { contact :=
          { id := 1, owner := "ana", customAttributes := some (plainAttributes "plan" "1e2") }
        tags := none }
    Spells "1e2" "100.0" ∧ Spells "\"100.0\"" "100.0" ∧
      ∀ wanted ∈ ["100.00", "\"100.0\""], ∃ criteria,
        Criteria.parse (plainCriteria "plan" wanted) = .ok criteria ∧
          criteria.isMatch subject = true := by
  intro subject
  have own : Field.ofName ("customattribute." ++ "plan") = .customAttribute "plan" := by
    decide +kernel
  have spelled : Spells "1e2" "100.0" := spells_iff.mpr (by decide +kernel)
  have spelledPlain : Spells "100.00" "100.0" := spells_iff.mpr (by decide +kernel)
  have quoted : (Value.text "100.0").compact = "\"100.0\"" := by decide
  obtain ⟨maps, asks, accepts, _⟩ := bare_scalars_agree own spelled spelledPlain
  rw [quoted] at maps asks accepts
  refine ⟨spelled, quoted ▸ spells_compact_text "100.0", fun wanted listed => ?_⟩
  obtain ⟨criteria, rule, read, _, found, same⟩ := accepts _ List.mem_cons_self wanted listed _ _
    (maps _ List.mem_cons_self) (asks wanted listed) subject rfl
  exact ⟨criteria, read, same.trans (found.mpr rfl)⟩

end Cohort
