import Cohort.Contact.Attributes
import Cohort.Proofs.Criteria.Slots
import Cohort.Proofs.Json.Blank
import Cohort.Proofs.Json.Members
import Cohort.Proofs.Matching
import Mathlib

/-!
# Attribute documents

What a contact has under a key is told by the last member that the document gives under
it.  If that is an array or an object for any key, no attribute of the contact can be
had; otherwise a contact has every key whose last value is not null.
-/

namespace Cohort

open Json

namespace Json

/-- The value is a scalar with this text. -/
inductive Value.Says : Value → String → Prop where
  | text (held : String) : Says (.text held) held
  | number (held : Number) : Says (.number held) (String.ofList held.letters)
  | yes : Says (.bool true) "true"
  | no : Says (.bool false) "false"

/-- The value is an array or an object. -/
inductive Value.Nested : Value → Prop where
  | array (items : List Value) : Nested (.array items)
  | object (members : List (String × Value)) : Nested (.object members)

namespace Value

theorem says_iff {value : Value} {text : String} :
    value.Says text ↔ value.scalarText? = some text := by
  constructor
  · intro said
    cases said <;> rfl
  · intro written
    cases value with
    | text held =>
        cases written
        exact .text _
    | number held =>
        cases written
        exact .number held
    | bool held =>
        cases held with
        | true =>
            cases written
            exact .yes
        | false =>
            cases written
            exact .no
    | _ => cases written

theorem says_or (value : Value) : value = .null ∨ value.Nested ∨ ∃ text, value.Says text := by
  cases value with
  | null => exact .inl rfl
  | array items => exact .inr (.inl (.array items))
  | object members => exact .inr (.inl (.object members))
  | text held => exact .inr (.inr ⟨_, .text held⟩)
  | number held => exact .inr (.inr ⟨_, .number held⟩)
  | bool held =>
      cases held with
      | true => exact .inr (.inr ⟨_, .yes⟩)
      | false => exact .inr (.inr ⟨_, .no⟩)

theorem Says.ne_null {value : Value} {text : String} (said : value.Says text) : value ≠ .null := by
  rintro rfl
  cases said

end Value

/-- The document is an object with these members, in the order of the text and equal
names included.  All leaves of the document can be read, also those of members that
count for nothing. -/
def SaysObject (document : String) (members : List (String × Value)) : Prop :=
  ∃ tree, Tree.parse? document = some (.object tree) ∧ (Tree.object tree).depth ≤ Value.maxDepth ∧
    Value.ofMembers? tree = some members

theorem Value.parse?_eq_object_iff {document : String} {settled : List (String × Value)} :
    parse? document = some (.object settled) ↔
      ∃ members, SaysObject document members ∧ settle members = settled := by
  constructor
  · intro means
    obtain ⟨tree, said, meant⟩ := Option.bind_eq_some_iff.mp means
    obtain ⟨shallow, meant⟩ := Option.ite_none_right_eq_some.mp meant
    cases tree with
    | object given =>
        obtain ⟨members, read, same⟩ := Option.map_eq_some_iff.mp meant
        cases same
        exact ⟨members, ⟨given, said, shallow, read⟩, rfl⟩
    | array items =>
        obtain ⟨_, _, same⟩ := Option.map_eq_some_iff.mp meant
        cases same
    | number reading =>
        obtain ⟨_, _, same⟩ := Option.map_eq_some_iff.mp meant
        cases same
    | text reading =>
        obtain ⟨_, _, same⟩ := Option.map_eq_some_iff.mp meant
        cases same
    | _ => cases meant
  · rintro ⟨members, ⟨given, said, shallow, read⟩, rfl⟩
    rw [parse?, said, Option.bind_eq_bind, Option.bind_some, if_pos shallow, ofTree?, read,
      Option.map_some]

theorem SaysObject.unique {document : String} {members others : List (String × Value)}
    (said : SaysObject document members) (saidOther : SaysObject document others) :
    members = others := by
  obtain ⟨tree, means, _, read⟩ := said
  obtain ⟨otherTree, meansOther, _, readOther⟩ := saidOther
  cases means.symm.trans meansOther
  exact Option.some.inj (read.symm.trans readOther)

end Json

/-- The scalars among members, as texts under their names. -/
def scalarTexts (members : List (String × Value)) : List (String × String) :=
  members.filterMap fun member => member.2.scalarText?.map fun text => (member.1, text)

theorem mem_scalarTexts {members : List (String × Value)} {key text : String} :
    (key, text) ∈ scalarTexts members ↔ ∃ value, (key, value) ∈ members ∧ value.Says text := by
  simp only [scalarTexts, List.mem_filterMap, Option.map_eq_some_iff, Prod.mk.injEq, Value.says_iff]
  constructor
  · rintro ⟨⟨name, value⟩, listed, _, written, rfl, rfl⟩
    exact ⟨value, listed, written⟩
  · rintro ⟨value, listed, written⟩
    exact ⟨_, listed, text, written, rfl, rfl⟩

theorem scalarTexts_keys_sublist (members : List (String × Value)) :
    ((scalarTexts members).map Prod.fst).Sublist (members.map Prod.fst) := by
  induction members with
  | nil => exact .slnil
  | cons member members induction =>
      unfold scalarTexts
      cases written : member.2.scalarText? with
      | none =>
          rw [List.filterMap_cons_none (by rw [written]; rfl)]
          exact induction.cons _
      | some text =>
          rw [List.filterMap_cons_some (b := (member.1, text)) (by rw [written]; rfl)]
          exact induction.cons_cons _

theorem attributesOfMembers_null (key : String) (members : List (String × Value)) :
    attributesOfMembers ((key, .null) :: members) = attributesOfMembers members :=
  rfl

theorem attributesOfMembers_nested {value : Value} (nested : value.Nested) (key : String)
    (members : List (String × Value)) :
    attributesOfMembers ((key, value) :: members) = .error (.nested key value) := by
  cases nested <;> rfl

theorem attributesOfMembers_scalar {value : Value} {text : String} (said : value.Says text)
    (key : String) (members : List (String × Value)) :
    attributesOfMembers ((key, value) :: members) =
      (attributesOfMembers members).map ((key, text) :: ·) := by
  cases said <;> rfl

theorem attributesOfMembers_eq_ok_iff {members : List (String × Value)}
    {attributes : List (String × String)} :
    attributesOfMembers members = .ok attributes ↔
      (∀ member ∈ members, ¬member.2.Nested) ∧ attributes = scalarTexts members := by
  induction members generalizing attributes with
  | nil => simp [attributesOfMembers, scalarTexts, eq_comm]
  | cons member members induction =>
      obtain ⟨key, value⟩ := member
      rw [List.forall_mem_cons]
      rcases value.says_or with rfl | nested | ⟨text, said⟩
      · have notNested : ¬Value.null.Nested := fun nested => nomatch nested
        rw [attributesOfMembers_null, induction]
        simp [notNested, scalarTexts, Value.scalarText?]
      · rw [attributesOfMembers_nested nested]
        simp [nested]
      · have notNested : ¬value.Nested := by cases said <;> exact fun nested => nomatch nested
        have written := Value.says_iff.mp said
        rw [attributesOfMembers_scalar said, Criteria.map_eq_ok_iff]
        simp only [induction]
        simp [notNested, scalarTexts, written, eq_comm]

theorem attributesOfDocument_eq_ok_iff {document : String} {attributes : List (String × String)} :
    attributesOfDocument document = .ok attributes ↔
      ∃ members, SaysObject document members ∧
        (∀ key value, Value.LastUnder key members value → ¬value.Nested) ∧
        attributes = scalarTexts (Value.settle members) := by
  have nested (members : List (String × Value)) :
      (∀ member ∈ Value.settle members, ¬member.2.Nested) ↔
        ∀ key value, Value.LastUnder key members value → ¬value.Nested := by
    simp only [Prod.forall, Value.mem_settle_iff]
  constructor
  · intro read
    unfold attributesOfDocument at read
    split at read
    · rename_i settled means
      obtain ⟨members, said, rfl⟩ := Value.parse?_eq_object_iff.mp means
      obtain ⟨flat, same⟩ := attributesOfMembers_eq_ok_iff.mp read
      exact ⟨members, said, (nested members).mp flat, same⟩
    · cases read
  · rintro ⟨members, said, flat, same⟩
    have means := Value.parse?_eq_object_iff.mpr ⟨members, said, rfl⟩
    rw [attributesOfDocument, means]
    exact attributesOfMembers_eq_ok_iff.mpr ⟨(nested members).mpr flat, same⟩

namespace Contact

variable {contact : Contact} {document : String}

theorem attributes_of_document (stored : contact.customAttributes = some document)
    (notBlank : Text.allBlank document = false) :
    contact.attributes = attributesOfDocument document := by
  rw [attributes, stored]
  exact if_neg (by rw [notBlank]; exact Bool.false_ne_true)

theorem attributes_of_blank
    (blank : ∀ document, contact.customAttributes = some document → Text.allBlank document = true) :
    contact.attributes = .ok [] := by
  unfold attributes
  cases stored : contact.customAttributes with
  | none => rfl
  | some document => exact if_pos (blank document stored)

theorem attributes_of_single {key text : String} {value : Value}
    (stored : contact.customAttributes = some document)
    (means : Value.parse? document = some (.object [(key, value)])) (said : value.Says text) :
    contact.attributes = .ok [(key, text)] := by
  obtain ⟨_, tree, _⟩ := Option.bind_eq_some_iff.mp means
  rw [attributes_of_document stored (Tree.allBlank_eq_false tree), attributesOfDocument, means]
  exact attributesOfMembers_scalar said key []

theorem attributes_distinct {members : List (String × Value)} {attributes : List (String × String)}
    (stored : contact.customAttributes = some document) (notBlank : Text.allBlank document = false)
    (said : SaysObject document members) (read : contact.attributes = .ok attributes) :
    (attributes.map Prod.fst).Nodup ∧
      ∀ key text, (key, text) ∈ attributes ↔
        ∃ value, Value.LastUnder key members value ∧ value.Says text := by
  rw [attributes_of_document stored notBlank, attributesOfDocument_eq_ok_iff] at read
  obtain ⟨others, saidOthers, _, rfl⟩ := read
  obtain rfl := said.unique saidOthers
  constructor
  · exact (scalarTexts_keys_sublist _).nodup (Value.settle_nodup members)
  · intro key text
    simp only [mem_scalarTexts, Value.mem_settle_iff]

theorem attributes_isOk_iff (stored : contact.customAttributes = some document)
    (notBlank : Text.allBlank document = false) :
    (∃ attributes, contact.attributes = .ok attributes) ↔
      ∃ members, SaysObject document members ∧
        ∀ key value, Value.LastUnder key members value → ¬value.Nested := by
  simp only [attributes_of_document stored notBlank, attributesOfDocument_eq_ok_iff]
  constructor
  · rintro ⟨_, members, said, flat, _⟩
    exact ⟨members, said, flat⟩
  · rintro ⟨members, said, flat⟩
    exact ⟨_, members, said, flat, rfl⟩

/-- A key is there exactly if its last value is not null: where there are attributes, no
last value is nested. -/
theorem key_mem_attributes_iff {members : List (String × Value)}
    {attributes : List (String × String)} (stored : contact.customAttributes = some document)
    (notBlank : Text.allBlank document = false) (said : SaysObject document members)
    (read : contact.attributes = .ok attributes) {key : String} :
    key ∈ attributes.map Prod.fst ↔
      ∃ value, Value.LastUnder key members value ∧ value ≠ .null := by
  obtain ⟨_, held⟩ := attributes_distinct stored notBlank said read
  obtain ⟨others, saidOthers, flat⟩ := (attributes_isOk_iff stored notBlank).mp ⟨attributes, read⟩
  obtain rfl := said.unique saidOthers
  simp only [List.mem_map, Prod.exists, held]
  constructor
  · rintro ⟨_, _, ⟨value, last, worded⟩, rfl⟩
    exact ⟨value, last, worded.ne_null⟩
  · rintro ⟨value, last, present⟩
    rcases value.says_or with null | nested | ⟨text, worded⟩
    · exact (present null).elim
    · exact (flat key value last nested).elim
    · exact ⟨key, text, ⟨value, last, worded⟩, rfl⟩

theorem attributes_of_rearranged {other : Contact} {otherDocument : String}
    {tree otherTree : Tree} (stored : contact.customAttributes = some document)
    (storedOther : other.customAttributes = some otherDocument)
    (said : Tree.parse? document = some tree)
    (saidOther : Tree.parse? otherDocument = some otherTree)
    (rearranged : tree.Rearranged otherTree) : contact.attributes = other.attributes := by
  rw [attributes_of_document stored (Tree.allBlank_eq_false said),
    attributes_of_document storedOther (Tree.allBlank_eq_false saidOther), attributesOfDocument,
    attributesOfDocument, Value.parse?_eq_of_rearranged said saidOther rearranged]

/-- Rules on attributes do not match a contact whose attributes cannot be had, whatever
has been looked at before. -/
theorem judge_of_attributes_eq_error {problem : AttributesProblem}
    (unavailable : contact.attributes = .error problem) {rule : Rule} {key : String}
    (asked : Field.ofName (rule.field.getD "") = .customAttribute key) {view : View}
    (seen : view.subject.contact = contact) :
    ((PreparedRule.ofRule rule).judge view).1 = false := by
  have field : (PreparedRule.ofRule rule).field = .customAttribute key := by
    simp only [PreparedRule.ofRule, asked]
  have missing : view.subject.resolve (.customAttribute key) = .missing := by
    rw [Subject.resolve, seen, attribute?, unavailable]
    rfl
  rw [PreparedRule.judge_fst, field, missing]
  rfl

/-- The attributes of a contact.  A contact without a document, or with a blank one,
has none.  Any other document gives attributes exactly if it is an object in which no
last member of a name is nested: then each name is there once, if its last value is not
null, with the text of that value.  Members with different names may change places, and
while the attributes cannot be had no rule on an attribute matches, whichever it asks
for and whatever else has been looked at.  Which of several nested members is reported
is left open. -/
theorem attributes_of_last_members (contact : Contact) :
    ((∀ document, contact.customAttributes = some document → Text.allBlank document = true) →
      contact.attributes = .ok []) ∧
    (∀ document, contact.customAttributes = some document → Text.allBlank document = false →
      ((∃ attributes, contact.attributes = .ok attributes) ↔
        ∃ members, SaysObject document members ∧
          ∀ key value, Value.LastUnder key members value → ¬value.Nested) ∧
      ∀ members attributes, SaysObject document members → contact.attributes = .ok attributes →
        (attributes.map Prod.fst).Nodup ∧
        (∀ key, key ∈ attributes.map Prod.fst ↔
          ∃ value, Value.LastUnder key members value ∧ value ≠ .null) ∧
        ∀ key text, (key, text) ∈ attributes ↔
          ∃ value, Value.LastUnder key members value ∧ value.Says text) ∧
    (∀ (other : Contact) document otherDocument tree otherTree,
      contact.customAttributes = some document → other.customAttributes = some otherDocument →
      Tree.parse? document = some tree → Tree.parse? otherDocument = some otherTree →
      tree.Rearranged otherTree → contact.attributes.toOption = other.attributes.toOption) ∧
    (∀ problem, contact.attributes = .error problem →
      ∀ (rule : Rule) (key : String), Field.ofName (rule.field.getD "") = .customAttribute key →
        ∀ view : View, view.subject.contact = contact →
          ((PreparedRule.ofRule rule).judge view).1 = false ∧
            rule.isMatch view.subject = false) := by
  refine ⟨attributes_of_blank, ?_, ?_, ?_⟩
  · intro document stored notBlank
    refine ⟨attributes_isOk_iff stored notBlank, fun members attributes said read => ?_⟩
    obtain ⟨distinct, held⟩ := attributes_distinct stored notBlank said read
    exact ⟨distinct, fun key => key_mem_attributes_iff stored notBlank said read, held⟩
  · intro other document otherDocument tree otherTree stored storedOther said saidOther rearranged
    rw [attributes_of_rearranged stored storedOther said saidOther rearranged]
  · intro problem unavailable rule key asked view seen
    have judged (view : View) (seen : view.subject.contact = contact) :=
      judge_of_attributes_eq_error unavailable asked seen
    exact ⟨judged view seen, judged (View.ofSubject view.subject) seen⟩

/-- A document whose first plan is nested; a later plan hides it. -/
def layeredDocument : String :=
  "\x7b\"plan\":[1],\"seats\":null,\"plan\":\"Gold\",\"open\":true\x7d"

/-- The same document with the seats behind the plans. -/
def shiftedDocument : String :=
  "\x7b\"plan\":[1],\"plan\":\"Gold\",\"seats\":null,\"open\":true\x7d"

/-- A document whose last plan is nested. -/
def nestedDocument : String :=
  "\x7b\"open\":true,\"plan\":\"Gold\",\"plan\":[1]\x7d"

theorem layeredDocument_attributes :
    let person (document : String) : Contact :=
      { id := 1, owner := "ana", customAttributes := some document }
    (person " ").attributes = .ok [] ∧
      (∃ attributes, (person layeredDocument).attributes = .ok attributes ∧
        ("plan", "Gold") ∈ attributes ∧ ("open", "true") ∈ attributes ∧
        "seats" ∉ attributes.map Prod.fst) ∧
      (person layeredDocument).attributes.toOption = (person shiftedDocument).attributes.toOption ∧
      Rule.isMatch { field := some "customAttribute.open", comparison := some "notequals" }
        { contact := person nestedDocument, tags := none } = false := by
  intro person
  obtain ⟨ofBlank, _, _, _⟩ := attributes_of_last_members (person " ")
  obtain ⟨_, ofDocument, rearranged, _⟩ := attributes_of_last_members (person layeredDocument)
  obtain ⟨_, _, _, unavailable⟩ := attributes_of_last_members (person nestedDocument)
  have said : Tree.parse? layeredDocument =
      some (.object [(some "plan", .array [.number (some (.int 1))]), (some "seats", .null),
        (some "plan", .text (some "Gold")), (some "open", .bool true)]) := by
    cbv
  have saidShifted : Tree.parse? shiftedDocument =
      some (.object [(some "plan", .array [.number (some (.int 1))]),
        (some "plan", .text (some "Gold")), (some "seats", .null), (some "open", .bool true)]) := by
    cbv
  refine ⟨?_, ?_, ?_, ?_⟩
  · refine ofBlank ?_
    rintro _ ⟨⟩
    decide
  · let members : List (String × Value) :=
      [("plan", .array [.int 1]), ("seats", .null), ("plan", .text "Gold"), ("open", .bool true)]
    have object : SaysObject layeredDocument members := ⟨_, said, by decide, rfl⟩
    have settled : Value.settle members =
        [("open", .bool true), ("plan", .text "Gold"), ("seats", .null)] := by
      cbv
    obtain ⟨had, held⟩ := ofDocument _ rfl (Tree.allBlank_eq_false said)
    have flat (key : String) (value : Value) (last : Value.LastUnder key members value) :
        ¬value.Nested := by
      intro nested
      rw [← Value.mem_settle_iff, settled] at last
      cases nested <;> simp at last
    obtain ⟨attributes, read⟩ := had.mpr ⟨members, object, flat⟩
    obtain ⟨_, keys, texts⟩ := held members attributes object read
    refine ⟨attributes, read, (texts _ _).mpr ?_, (texts _ _).mpr ?_, ?_⟩
    · exact ⟨_, .there (.there (.here (by decide))), .text "Gold"⟩
    · exact ⟨_, .there (.there (.there (.here (by decide)))), .yes⟩
    · rw [keys]
      rintro ⟨value, last, present⟩
      rw [← Value.mem_settle_iff, settled] at last
      exact present (by simpa using last)
  · let plan : Option String × Tree := (some "plan", .array [.number (some (.int 1))])
    exact rearranged (person shiftedDocument) _ _ _ _ rfl rfl said saidShifted
      (.swap [plan] [(some "open", .bool true)] (by decide))
  · have means : Value.parse? nestedDocument =
        some (.object [("open", .bool true), ("plan", .array [.int 1])]) := by
      cbv
    have failed :
        (person nestedDocument).attributes = .error (.nested "plan" (.array [.int 1])) := by
      rw [attributes_of_document rfl (by decide), attributesOfDocument, means]
      rfl
    exact (unavailable _ failed _ "open" (by decide +kernel) (.ofSubject _) rfl).2

end Contact

end Cohort
