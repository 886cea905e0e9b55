import Cohort.Criteria.Matching

/-!
# Matching without preparation

`Criteria.answer` judges a contact in the plainest way: every rule looks up its field by
name, reads its own tags and compares the texts as they are given, and the answers of
all rules are combined at the end.
-/

namespace Cohort

open Text

/-- What the field of a name in lower case is on a contact. -/
def Subject.namedLower (subject : Subject) (name : String) : Resolved :=
  if customAttributeStart.isPrefixOf name.toList then
    .ofOptional
      (subject.contact.attribute? (String.ofList (name.toList.drop customAttributeStart.length)))
  else
    match name with
    | "tag" => .tags subject.tags
    | "email" => .scalar (subject.contact.email.getD "")
    | "phonenumber" => .ofOptional subject.contact.phoneNumber
    | "firstname" => .scalar (subject.contact.firstName.getD "")
    | "lastname" => .scalar (subject.contact.lastName.getD "")
    | "country" => .scalar (subject.contact.country.getD "")
    | "city" => .scalar (subject.contact.city.getD "")
    | "postalcode" => .scalar (subject.contact.postalCode.getD "")
    | _ => .scalar ""

/-- Does some item between the commas of a text, without the blanks around it, spell a
positive number that is among the tags? -/
def IdSet.meetsItems (tags : IdSet) (text : String) : Bool :=
  (splitAt ',' text.toList).any fun item =>
    match signedNumeral? (trim item) with
    | some id => decide (0 < id) && tags.contains id
    | none => false

/-- Does a contact answer to a rule? -/
def Rule.answer (rule : Rule) (subject : Subject) : Bool :=
  let comparison := rule.comparison.getD "equals"
  let value := rule.value.getD ""
  match subject.namedLower (lower (rule.field.getD "")) with
  | .tags none => false
  | .tags (some tags) =>
      (lower comparison == "in" || lower comparison == "contains") && tags.meetsItems value
  | .missing => false
  | .scalar text => (Comparison.ofName comparison).holds text value

/-- Is the connective the word `or`, in whatever case? -/
def Criteria.saysOr (criteria : Criteria) : Bool :=
  match criteria.connectiveName with
  | some name => ["or", "oR", "Or", "OR"].contains name
  | none => false

/-- The answers of all rules, combined. -/
def Criteria.answer (criteria : Criteria) (subject : Subject) : Bool :=
  match criteria.rules.map fun rule => rule.answer subject with
  | [] => true
  | first :: others =>
      if criteria.saysOr then others.foldl (fun found answer => found || answer) first
      else others.foldl (fun kept answer => kept && answer) first

theorem Subject.resolve_ofLower (subject : Subject) (name : String) :
    subject.resolve (.ofLower name) = subject.namedLower name := by
  unfold Field.ofLower namedLower
  split
  · rfl
  · split
    case h_9 => grind [resolve]
    all_goals rfl

theorem Comparison.appliesToTags_ofLower (name : String) :
    (ofLower name).appliesToTags = (name == "in" || name == "contains") := by
  unfold ofLower
  split <;> simp_all [appliesToTags]

theorem IdSet.meets_tagsOfText (tags : IdSet) (text : String) :
    tags.meets (tagsOfText text) = tags.meetsItems text := by
  apply Bool.eq_iff_iff.mpr
  simp only [meets_iff, tagsOfText, meetsItems, mem_ofList, List.mem_filter, List.mem_filterMap,
    List.any_eq_true, decide_eq_true_eq]
  constructor
  · rintro ⟨id, held, ⟨item, listed, spelled⟩, positive⟩
    exact ⟨item, listed, by simp [spelled, positive, held]⟩
  · rintro ⟨item, listed, found⟩
    cases spelled : signedNumeral? (trim item) with
    | none => simp [spelled] at found
    | some id =>
        simp only [spelled, Bool.and_eq_true, decide_eq_true_eq, contains_iff] at found
        exact ⟨id, found.2, ⟨item, listed, spelled⟩, found.1⟩

theorem Subject.resolve_eq_tags {subject : Subject} {field : Field} {tags : Option IdSet}
    (resolved : subject.resolve field = .tags tags) : field = .tag := by
  cases field with
  | tag => rfl
  | customAttribute key =>
      cases found : subject.contact.attribute? key <;>
        simp [resolve, Resolved.ofOptional, found] at resolved
  | phoneNumber =>
      cases found : subject.contact.phoneNumber <;>
        simp [resolve, Resolved.ofOptional, found] at resolved
  | _ => simp [resolve] at resolved

theorem PreparedRule.accepts_ofRule (rule : Rule) (subject : Subject) :
    (ofRule rule).accepts (subject.resolve (ofRule rule).field) = rule.answer subject := by
  have field : (ofRule rule).field = .ofName (rule.field.getD "") := by
    simp only [ofRule]
  have comparison : (ofRule rule).comparison = .ofName (rule.comparison.getD "equals") := by
    simp only [ofRule]
  have operand : (ofRule rule).operand = .ofText (rule.value.getD "") := by
    simp only [ofRule]
  unfold Rule.answer
  rw [field, Field.ofName, ← Subject.resolve_ofLower]
  cases resolved : subject.resolve (.ofLower (lower (rule.field.getD ""))) with
  | missing => rfl
  | scalar text => simp only [accepts, comparison, operand, Comparison.holds]
  | tags tags =>
      cases tags with
      | none => rfl
      | some tags =>
          have isTag := Subject.resolve_eq_tags resolved
          have wanted : (ofRule rule).tags = tagsOfText (rule.value.getD "") := by
            simp only [ofRule, Field.ofName, isTag, if_true]
          simp only [accepts, comparison, wanted, Comparison.ofName,
            Comparison.appliesToTags_ofLower, IdSet.meets_tagsOfText]

@[simp] theorem PreparedRule.judge_fst (rule : PreparedRule) (view : View) :
    (rule.judge view).1 = rule.accepts (view.subject.resolve rule.field) := by
  simp [judge]

@[simp] theorem PreparedRule.judge_subject (rule : PreparedRule) (view : View) :
    (rule.judge view).2.subject = view.subject := by
  simp [judge]

namespace PreparedCriteria

theorem judgeUntil_subject (decisive : Bool) (rules : List PreparedRule) (view : View) :
    (judgeUntil decisive rules view).2.subject = view.subject := by
  induction rules generalizing view with
  | nil => rfl
  | cons rule rules induction =>
      simp only [judgeUntil]
      split
      · exact rule.judge_subject view
      · rw [induction, rule.judge_subject]

/-- Rules that are not asked would not change the answer. -/
theorem judgeUntil_fst (decisive : Bool) (rules : List PreparedRule) (view : View) :
    (judgeUntil decisive rules view).1 =
      if decisive ∈ rules.map fun rule => rule.accepts (view.subject.resolve rule.field) then
        decisive
      else !decisive := by
  induction rules generalizing view with
  | nil => rfl
  | cons rule rules induction =>
      simp only [judgeUntil, PreparedRule.judge_fst, List.map_cons, List.mem_cons]
      split
      · rename_i decides
        simp [decides]
      · rename_i open_
        rw [induction, rule.judge_subject]
        simp [Ne.symm open_]

theorem judge_subject (criteria : PreparedCriteria) (view : View) :
    (criteria.judge view).2.subject = view.subject := by
  unfold judge
  split
  · rfl
  · split <;> exact judgeUntil_subject _ _ view

end PreparedCriteria

theorem Text.toNat_toLower (c : Char) :
    c.toLower.toNat = if 65 ≤ c.toNat ∧ c.toNat ≤ 90 then c.toNat + 32 else c.toNat := by
  have capital : (c.val ≥ 'A'.val ∧ c.val ≤ 'Z'.val) ↔ (65 ≤ c.toNat ∧ c.toNat ≤ 90) := by
    rw [ge_iff_le, UInt32.le_iff_toNat_le, UInt32.le_iff_toNat_le]
    exact Iff.rfl
  unfold Char.toLower
  by_cases isCapital : c.val ≥ 'A'.val ∧ c.val ≤ 'Z'.val
  · obtain ⟨_, most⟩ := capital.mp isCapital
    have sum : (c.val + ('a'.val - 'A'.val)).toNat = (c.toNat + 32) % 2 ^ 32 := UInt32.toNat_add _ _
    rw [dif_pos isCapital, if_pos (capital.mp isCapital)]
    refine Eq.trans sum ?_
    omega
  · rw [dif_neg isCapital, if_neg (mt capital.mpr isCapital)]

theorem Text.toLower_eq_iff {c small : Char} (letter : 97 ≤ small.toNat ∧ small.toNat ≤ 122) :
    c.toLower = small ↔ c = small ∨ c.toNat + 32 = small.toNat := by
  have code (left right : Char) : left = right ↔ left.toNat = right.toNat := Char.toNat_inj.symm
  rw [code, code, toNat_toLower]
  split <;> omega

theorem Text.equalIgnoringAsciiCase_or (name : String) :
    Text.equalIgnoringAsciiCase name "or" = true ↔ name ∈ ["or", "oR", "Or", "OR"] := by
  have o (c : Char) : c.toLower = 'o' ↔ c = 'o' ∨ c = 'O' := by
    refine (toLower_eq_iff (by decide)).trans (or_congr_right ?_)
    rw [← Char.toNat_inj, show 'o'.toNat = 'O'.toNat + 32 from rfl]
    omega
  have r (c : Char) : c.toLower = 'r' ↔ c = 'r' ∨ c = 'R' := by
    refine (toLower_eq_iff (by decide)).trans (or_congr_right ?_)
    rw [← Char.toNat_inj, show 'r'.toNat = 'R'.toNat + 32 from rfl]
    omega
  have spelled (word : String) : name = word ↔ name.toList = word.toList := String.toList_inj.symm
  have wanted : "or".toList.map Char.toLower = ['o', 'r'] := rfl
  unfold equalIgnoringAsciiCase
  rw [wanted, beq_iff_eq]
  simp only [List.mem_cons, List.not_mem_nil, or_false, spelled]
  rcases name.toList with _ | ⟨first, _ | ⟨second, _ | ⟨third, rest⟩⟩⟩
  · simp
  · simp
  · simp only [List.map_cons, List.map_nil, List.cons.injEq, and_true, o, r]
    change _ ↔ [first, second] = ['o', 'r'] ∨ [first, second] = ['o', 'R'] ∨
      [first, second] = ['O', 'r'] ∨ [first, second] = ['O', 'R']
    grind
  · simp

theorem Criteria.connective_eq (criteria : Criteria) :
    criteria.connective = if criteria.saysOr then .some else .every := by
  unfold connective saysOr
  cases criteria.connectiveName with
  | none => rfl
  | some name =>
      have same : equalIgnoringAsciiCase name "or" = ["or", "oR", "Or", "OR"].contains name :=
        Bool.eq_iff_iff.mpr ((equalIgnoringAsciiCase_or name).trans List.contains_iff_mem.symm)
      simp only [Connective.ofName, same]

theorem foldl_or_eq (first : Bool) (others : List Bool) :
    others.foldl (fun found answer => found || answer) first = decide (true ∈ first :: others) := by
  induction others generalizing first with
  | nil => simp
  | cons answer others induction => cases first <;> simp [induction]

theorem foldl_and_eq (first : Bool) (others : List Bool) :
    others.foldl (fun kept answer => kept && answer) first = decide (false ∉ first :: others) := by
  induction others generalizing first with
  | nil => simp
  | cons answer others induction => cases first <;> simp [induction]

theorem PreparedCriteria.judge_ofCriteria_fst (criteria : Criteria) (view : View) :
    ((ofCriteria criteria).judge view).1 = criteria.answer view.subject := by
  have prepared : ((ofCriteria criteria).rules.map fun rule =>
      rule.accepts (view.subject.resolve rule.field)) =
        criteria.rules.map fun rule => rule.answer view.subject := by
    simp only [ofCriteria, List.map_map, Function.comp_def, PreparedRule.accepts_ofRule]
  have connective : (ofCriteria criteria).connective =
      if criteria.saysOr then .some else .every := criteria.connective_eq
  unfold judge Criteria.answer
  rw [connective]
  cases given : criteria.rules.map fun rule => rule.answer view.subject with
  | nil =>
      have none : (ofCriteria criteria).rules = [] :=
        List.map_eq_nil_iff.mp (prepared.trans given)
      simp [none]
  | cons first others =>
      have some : (ofCriteria criteria).rules.isEmpty = false := by
        refine Bool.eq_false_iff.mpr fun empty => ?_
        rw [given, List.isEmpty_iff.mp empty] at prepared
        cases prepared
      rw [given] at prepared
      simp only [some, Bool.false_eq_true, if_false]
      cases criteria.saysOr with
      | true => simp [judgeUntil_fst, prepared, foldl_or_eq]
      | false => simp [judgeUntil_fst, prepared, foldl_and_eq]

theorem Rule.isMatch_eq_answer (rule : Rule) (subject : Subject) :
    rule.isMatch subject = rule.answer subject := by
  rw [Rule.isMatch, PreparedRule.isMatch, PreparedRule.judge_fst]
  exact PreparedRule.accepts_ofRule rule subject

theorem Criteria.isMatch_eq_answer (criteria : Criteria) (subject : Subject) :
    criteria.isMatch subject = criteria.answer subject :=
  PreparedCriteria.judge_ofCriteria_fst criteria (.ofSubject subject)

theorem Criteria.isMatch_of_every {connectiveName : Option String}
    (every : Connective.ofName connectiveName = .every) (rules : List Rule) (subject : Subject) :
    ({ rules, connectiveName } : Criteria).isMatch subject =
      rules.all fun rule => rule.answer subject := by
  let criteria : Criteria := { rules, connectiveName }
  have noOr : criteria.saysOr = false := by
    refine Bool.eq_false_iff.mpr fun said => ?_
    have joined := criteria.connective_eq
    rw [said, if_pos rfl] at joined
    cases every.symm.trans joined
  rw [isMatch_eq_answer, answer, noOr]
  cases rules with
  | nil => rfl
  | cons rule rules =>
      simp only [List.map_cons, Bool.false_eq_true, if_false, foldl_and_eq]
      rw [Bool.eq_iff_iff]
      simp

theorem Criteria.isMatch_of_some {connectiveName : Option String}
    (some : Connective.ofName connectiveName = .some) {rules : List Rule} (nonempty : rules ≠ [])
    (subject : Subject) :
    ({ rules, connectiveName } : Criteria).isMatch subject =
      rules.any fun rule => rule.answer subject := by
  let criteria : Criteria := { rules, connectiveName }
  have saysOr : criteria.saysOr = true := by
    refine Bool.of_not_eq_false fun noOr => ?_
    have joined := criteria.connective_eq
    rw [noOr, if_neg Bool.false_ne_true] at joined
    cases some.symm.trans joined
  rw [isMatch_eq_answer, answer, saysOr]
  cases rules with
  | nil => exact (nonempty rfl).elim
  | cons rule rules =>
      simp only [List.map_cons, if_true, foldl_or_eq]
      rw [Bool.eq_iff_iff]
      simp [eq_comm (a := true)]

/-- Prepared criteria answer as the plain judgement does, whatever has been looked at
through the view before, and they leave the view on the same contact. -/
theorem PreparedCriteria.judge_eq_answer (criteria : Criteria) (view : View) :
    ((ofCriteria criteria).judge view).1 = criteria.answer view.subject ∧
      ((ofCriteria criteria).judge view).2.subject = view.subject ∧
      criteria.isMatch view.subject = criteria.answer view.subject :=
  ⟨judge_ofCriteria_fst criteria view, (ofCriteria criteria).judge_subject view,
    criteria.isMatch_eq_answer view.subject⟩

end Cohort
