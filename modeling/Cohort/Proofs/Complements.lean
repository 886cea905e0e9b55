import Cohort.Proofs.Matching
import Mathlib.Data.List.Forall2

/-!
# Rules and their opposites

A rule is opposed by a rule on the same field with the same value and the other
comparison of a pair of which one holds exactly if the other does not.  As long as every
field is a text, a list of rules under one connective matches exactly if the opposed
list under the other does not.
-/

namespace Cohort

open Text

def Comparison.oppositeNames : List (String × String) :=
  [("equals", "notequals"), ("contains", "notcontains"), ("in", "notin")]

/-- One name stands for the opposite of what the other stands for, each in any case. -/
def Comparison.OppositeNames (name other : String) : Prop :=
  (lower name, lower other) ∈ oppositeNames ∨ (lower other, lower name) ∈ oppositeNames

namespace Comparison

variable {name other : String}

theorem holds_of_mem_oppositeNames (opposite : (lower name, lower other) ∈ oppositeNames)
    (text wanted : String) :
    (ofName other).holds text wanted = !(ofName name).holds text wanted := by
  simp only [oppositeNames, List.mem_cons, List.not_mem_nil, or_false, Prod.mk.injEq] at opposite
  rcases opposite with ⟨spelled, spelledOther⟩ | ⟨spelled, spelledOther⟩ | ⟨spelled, spelledOther⟩
  all_goals
    rw [ofName, ofName, spelled, spelledOther]
    rfl

theorem OppositeNames.holds_eq (opposite : OppositeNames name other) (text wanted : String) :
    (ofName other).holds text wanted = !(ofName name).holds text wanted := by
  rcases opposite with forwards | backwards
  · exact holds_of_mem_oppositeNames forwards text wanted
  · rw [holds_of_mem_oppositeNames backwards, Bool.not_not]

theorem OppositeNames.not_appliesToTags (opposite : OppositeNames name other)
    (applies : (ofName name).appliesToTags = true) : (ofName other).appliesToTags = false := by
  rw [ofName, appliesToTags_ofLower] at applies ⊢
  simp only [OppositeNames, oppositeNames, List.mem_cons, List.not_mem_nil, or_false,
    Prod.mk.injEq] at opposite
  grind

end Comparison

/-- The rules look at the same field for the same value, with opposed comparisons. -/
structure Rule.Opposed (rule other : Rule) : Prop where
  field : other.field = rule.field
  value : other.value = rule.value
  comparison :
    Comparison.OppositeNames (rule.comparison.getD "equals") (other.comparison.getD "equals")

/-- What a rule looks at on a contact. -/
def Rule.found (rule : Rule) (subject : Subject) : Resolved :=
  subject.resolve (.ofName (rule.field.getD ""))

namespace Rule

variable {rule other : Rule} {subject : Subject}

theorem namedLower_eq_found (rule : Rule) (subject : Subject) :
    subject.namedLower (lower (rule.field.getD "")) = rule.found subject :=
  (subject.resolve_ofLower _).symm

theorem answer_of_found_scalar {text : String} (found : rule.found subject = .scalar text) :
    rule.answer subject =
      (Comparison.ofName (rule.comparison.getD "equals")).holds text (rule.value.getD "") := by
  rw [answer, namedLower_eq_found, found]

theorem answer_of_found_missing (found : rule.found subject = .missing) :
    rule.answer subject = false := by
  rw [answer, namedLower_eq_found, found]

theorem answer_of_found_tags {tags : Option IdSet} (found : rule.found subject = .tags tags)
    (applies : (Comparison.ofName (rule.comparison.getD "equals")).appliesToTags = false) :
    rule.answer subject = false := by
  rw [Comparison.ofName, Comparison.appliesToTags_ofLower] at applies
  rw [answer, namedLower_eq_found, found]
  cases tags with
  | none => rfl
  | some tags => simp only [applies, Bool.false_and]

namespace Opposed

theorem found_eq (opposed : rule.Opposed other) : other.found subject = rule.found subject := by
  rw [found, found, opposed.field]

theorem answer_eq (opposed : rule.Opposed other) {text : String}
    (found : rule.found subject = .scalar text) : other.answer subject = !rule.answer subject := by
  rw [answer_of_found_scalar found, answer_of_found_scalar (opposed.found_eq.trans found),
    opposed.value, opposed.comparison.holds_eq]

theorem not_isMatch_of_missing (opposed : rule.Opposed other)
    (found : rule.found subject = .missing) :
    rule.isMatch subject = false ∧ other.isMatch subject = false := by
  rw [isMatch_eq_answer, isMatch_eq_answer]
  exact ⟨answer_of_found_missing found, answer_of_found_missing (opposed.found_eq.trans found)⟩

theorem not_isMatch_of_tags (opposed : rule.Opposed other)
    (applies : (Comparison.ofName (rule.comparison.getD "equals")).appliesToTags = true)
    (isTag : Field.ofName (rule.field.getD "") = .tag) : other.isMatch subject = false := by
  have found : rule.found subject = .tags subject.tags := by
    rw [Rule.found, isTag]
    rfl
  rw [isMatch_eq_answer]
  exact answer_of_found_tags (opposed.found_eq.trans found)
    (opposed.comparison.not_appliesToTags applies)

theorem map_answer_eq {rules others : List Rule} (opposed : List.Forall₂ Opposed rules others)
    (texts : ∀ rule ∈ rules, ∃ text, rule.found subject = .scalar text) :
    others.map (fun rule => rule.answer subject) =
      rules.map fun rule => !rule.answer subject := by
  induction opposed with
  | nil => rfl
  | cons first _ induction =>
      obtain ⟨⟨text, found⟩, texts⟩ := List.forall_mem_cons.mp texts
      rw [List.map_cons, List.map_cons, first.answer_eq found, induction texts]

end Opposed

end Rule

namespace Criteria

variable {subject : Subject}

theorem isMatch_opposed {rules others : List Rule} {every some : Option String}
    (opposed : List.Forall₂ Rule.Opposed rules others) (nonempty : rules ≠ [])
    (texts : ∀ rule ∈ rules, ∃ text, rule.found subject = .scalar text)
    (joinsEvery : Connective.ofName every = .every) (joinsSome : Connective.ofName some = .some) :
    ({ rules, connectiveName := every } : Criteria).isMatch subject =
        !({ rules := others, connectiveName := some } : Criteria).isMatch subject ∧
      ({ rules, connectiveName := some } : Criteria).isMatch subject =
        !({ rules := others, connectiveName := every } : Criteria).isMatch subject := by
  have nonemptyOther : others ≠ [] := by
    rintro rfl
    exact nonempty (List.forall₂_nil_right_iff.mp opposed)
  have allOthers := congrArg (List.all · id) (Rule.Opposed.map_answer_eq opposed texts)
  have anyOther := congrArg (List.any · id) (Rule.Opposed.map_answer_eq opposed texts)
  simp only [List.all_map, List.any_map, Function.comp_def, id] at allOthers anyOther
  rw [isMatch_of_every joinsEvery, isMatch_of_every joinsEvery, isMatch_of_some joinsSome nonempty,
    isMatch_of_some joinsSome nonemptyOther, allOthers, anyOther]
  simp only [List.not_any_eq_all_not, List.not_all_eq_any_not, Bool.not_not, and_self]

/-- Where every field is a text, a list of rules under one connective matches exactly if
the opposed list under the other does not; without rules every contact matches under
both.  A rule whose field is missing matches no more than its opposite, and the
opposite of asking for tags never matches. -/
theorem complement_law :
    (∀ {rules others : List Rule} {every some : Option String} {subject : Subject},
      List.Forall₂ Rule.Opposed rules others → rules ≠ [] →
      (∀ rule ∈ rules, ∃ text, rule.found subject = .scalar text) →
      Connective.ofName every = .every → Connective.ofName some = .some →
        ({ rules, connectiveName := every } : Criteria).isMatch subject =
            !({ rules := others, connectiveName := some } : Criteria).isMatch subject ∧
          ({ rules, connectiveName := some } : Criteria).isMatch subject =
            !({ rules := others, connectiveName := every } : Criteria).isMatch subject) ∧
    (∀ (connectiveName : Option String) (subject : Subject),
      ({ connectiveName } : Criteria).isMatch subject = true) ∧
    (∀ {rule other : Rule} {subject : Subject}, rule.Opposed other →
      rule.found subject = .missing →
        rule.isMatch subject = false ∧ other.isMatch subject = false) ∧
    ∀ {rule other : Rule} (subject : Subject), rule.Opposed other →
      Field.ofName (rule.field.getD "") = .tag →
      lower (rule.comparison.getD "equals") ∈ ["in", "contains"] →
        other.isMatch subject = false := by
  refine ⟨isMatch_opposed, fun _ _ => rfl, Rule.Opposed.not_isMatch_of_missing, ?_⟩
  intro rule other subject opposed isTag asked
  refine opposed.not_isMatch_of_tags ?_ isTag
  rw [Comparison.ofName, Comparison.appliesToTags_ofLower]
  simpa using asked

/-- The first comparison is absent, the field of the last rule is none that contacts
have. -/
theorem complement_law_lyon :
    let person : Subject :=
      { contact := { id := 1, owner := "ana", city := some "Lyon" }, tags := some (.ofList [5]) }
    let rules : List Rule :=
      [{ field := some "City", value := some "LYON" },
        { field := some "city", comparison := some "NotIn", value := some "Paris, Nice" },
        { field := some "nickname", comparison := some "contains", value := some "x" }]
    let others : List Rule :=
      [{ field := some "City", comparison := some "NOTequals", value := some "LYON" },
        { field := some "city", comparison := some "IN", value := some "Paris, Nice" },
        { field := some "nickname", comparison := some "NotContains", value := some "x" }]
    let tagged : Rule := { field := some "Tag", comparison := some "In", value := some "7" }
    let untagged : Rule := { field := some "Tag", comparison := some "notin", value := some "7" }
    let phoned : Rule := { field := some "phonenumber", value := some "1" }
    let unphoned : Rule :=
      { field := some "phonenumber", comparison := some "notequals", value := some "1" }
    List.Forall₂ Rule.Opposed rules others ∧
      (∀ rule ∈ rules, ∃ text, rule.found person = .scalar text) ∧
      ({ rules, connectiveName := some "AND" } : Criteria).isMatch person =
        !({ rules := others, connectiveName := some "Or" } : Criteria).isMatch person ∧
      ({ rules, connectiveName := some "Or" } : Criteria).isMatch person = true ∧
      ({ rules := others, connectiveName := some "AND" } : Criteria).isMatch person = false ∧
      phoned.Opposed unphoned ∧ phoned.isMatch person = false ∧ unphoned.isMatch person = false ∧
      tagged.Opposed untagged ∧ untagged.isMatch person = false := by
  intro person rules others tagged untagged phoned unphoned
  have opposite (name other : String)
      (listed : (lower name, lower other) ∈ Comparison.oppositeNames ∨
        (lower other, lower name) ∈ Comparison.oppositeNames) :
      Comparison.OppositeNames name other := listed
  have opposed : List.Forall₂ Rule.Opposed rules others :=
    .cons ⟨rfl, rfl, opposite _ _ (by decide +kernel)⟩
      (.cons ⟨rfl, rfl, opposite _ _ (by decide +kernel)⟩
        (.cons ⟨rfl, rfl, opposite _ _ (by decide +kernel)⟩ .nil))
  have texts : ∀ rule ∈ rules, ∃ text, rule.found person = .scalar text := by
    simp only [rules, List.forall_mem_cons]
    refine ⟨⟨"Lyon", by decide +kernel⟩, ⟨"Lyon", by decide +kernel⟩, ⟨"", by decide +kernel⟩, ?_⟩
    exact List.forall_mem_nil _
  obtain ⟨lists, _, missing, tags⟩ := complement_law
  have joined := @lists rules others (some "AND") (some "Or") person opposed (List.cons_ne_nil _ _)
    texts (by decide) (by decide)
  have phones : phoned.Opposed unphoned := ⟨rfl, rfl, opposite _ _ (by decide +kernel)⟩
  have noPhone : phoned.found person = .missing := by decide +kernel
  have asksForTags : tagged.Opposed untagged := ⟨rfl, rfl, opposite _ _ (by decide +kernel)⟩
  have found : ({ rules, connectiveName := some "Or" } : Criteria).isMatch person = true := by
    decide +kernel
  refine ⟨opposed, texts, joined.1, found, ?_, phones, (missing phones noPhone).1,
    (missing phones noPhone).2, asksForTags, ?_⟩
  · simpa [found] using joined.2
  · exact tags person asksForTags (by decide +kernel) (by decide +kernel)

end Criteria

end Cohort
