import Cohort.Proofs.Matching
import Cohort.Proofs.Text.Items
import Cohort.Proofs.Text.Numerals

/-!
# Case does not count

Comparisons look at the lower case of their texts only.  The tags that a rule lists are
read from the value as it was given, but numerals have no letters, so a rule too is the
same in any case.
-/

namespace Cohort

open Text

namespace Text

/-- A letter from A to Z and its small form are alike to a sigma, and have the same
lower case. -/
theorem toLower_alike (c : Char) :
    isCased c.toLower = isCased c ∧ isCaseIgnorable c.toLower = isCaseIgnorable c ∧
      ∀ before after, lowerAt before c.toLower after = lowerAt before c after := by
  by_cases capital : 65 ≤ c.toNat ∧ c.toNat ≤ 90
  · obtain ⟨place, below, rfl⟩ : ∃ place < 26, c = Char.ofNat (65 + place) := by
      refine ⟨c.toNat - 65, by omega, ?_⟩
      rw [Nat.add_sub_cancel' capital.1, Char.ofNat_toNat]
    have letters : ∀ place < 26,
        let letter := Char.ofNat (65 + place)
        isCased letter.toLower = isCased letter ∧
          isCaseIgnorable letter.toLower = isCaseIgnorable letter ∧
          letter ≠ 'Σ' ∧ letter ≠ 'İ' ∧ isSettled letter.toLower = true ∧
          lowerChar letter = letter.toLower := by
      decide +kernel
    obtain ⟨cased, ignorable, noSigma, undotted, settled, form⟩ := letters place below
    refine ⟨cased, ignorable, fun before after => ?_⟩
    rw [lowerAt_of_isSettled settled, lowerAt, if_neg noSigma, if_neg undotted, form]
  · have same : c.toLower = c := by
      rw [← Char.toNat_inj, toNat_toLower, if_neg capital]
    rw [same]
    exact ⟨rfl, rfl, fun _ _ => rfl⟩

theorem startsCased_map_toLower (letters : List Char) :
    startsCased (letters.map Char.toLower) = startsCased letters := by
  induction letters with
  | nil => rfl
  | cons c rest induction =>
      obtain ⟨cased, ignorable, _⟩ := toLower_alike c
      by_cases skipped : isCaseIgnorable c = true
      · simpa [startsCased, ignorable, skipped] using induction
      · simp [startsCased, ignorable, skipped, cased]

theorem lowerAt_congr (before : Bool) (c : Char) {after other : List Char}
    (same : startsCased after = startsCased other) :
    lowerAt before c after = lowerAt before c other := by
  rw [lowerAt_eq_iff, same]
  exact fun _ => rfl

theorem lowerFrom_map_toLower (before : Bool) (letters : List Char) :
    lowerFrom before (letters.map Char.toLower) = lowerFrom before letters := by
  induction letters generalizing before with
  | nil => rfl
  | cons c rest induction =>
      obtain ⟨cased, ignorable, form⟩ := toLower_alike c
      have state : endsCased before c.toLower = endsCased before c := by
        simp only [endsCased, cased, ignorable]
      rw [List.map_cons, lowerFrom, lowerFrom, form, state, induction,
        lowerAt_congr before c (startsCased_map_toLower rest)]

theorem lower_eq_of_equalIgnoringAsciiCase {left right : String}
    (same : equalIgnoringAsciiCase left right = true) : lower left = lower right := by
  have letters : left.toList.map Char.toLower = right.toList.map Char.toLower := beq_iff_eq.mp same
  rw [lower, lower, lowerLetters, lowerLetters, ← lowerFrom_map_toLower false left.toList, letters,
    lowerFrom_map_toLower]

@[simp] theorem lower_lower (text : String) : lower (lower text) = lower text := by
  rw [lower, lower, String.toList_ofList, lowerLetters_lowerLetters]

theorem isBreak_of_isDigit {c : Char} (digit : isDigit c = true) : isBreak c = true := by
  have listed : c.toNat ∈ List.range' 48 10 := by
    have bounds := bounds_of_isDigit digit
    rw [List.mem_range'_1]
    omega
  have points : ∀ point ∈ List.range' 48 10,
      (!inRanges point casedRanges && !inRanges point caseIgnorableRanges) = true := by
    decide +kernel
  exact points c.toNat listed

theorem isBreak_of_digits? {letters : List Char} {value : Nat}
    (read : digits? letters = some value) :
    ∀ c ∈ letters, isBreak c = true := by
  unfold digits? at read
  split at read
  · rename_i numeral
    intro c member
    exact isBreak_of_isDigit (List.all_eq_true.mp numeral.2 c member)
  · cases read

theorem isBreak_of_integer? {letters : List Char} {value : Int}
    (read : integer? letters = some value) : ∀ c ∈ letters, isBreak c = true := by
  unfold integer? at read
  split at read
  all_goals
    obtain ⟨_, given, _⟩ := Option.map_eq_some_iff.mp read
    obtain ⟨magnitude, digits, _⟩ := Option.bind_eq_some_iff.mp given
  · exact List.forall_mem_cons.mpr ⟨by decide +kernel, isBreak_of_digits? digits⟩
  · exact List.forall_mem_cons.mpr ⟨by decide +kernel, isBreak_of_digits? digits⟩
  · exact isBreak_of_digits? digits

theorem isBreak_of_lowerFrom {before : Bool} {letters : List Char}
    (breaks : ∀ c ∈ lowerFrom before letters, isBreak c = true) :
    ∀ c ∈ letters, isBreak c = true := by
  induction letters generalizing before with
  | nil => exact List.forall_mem_nil _
  | cons c rest induction =>
      rw [lowerFrom, List.forall_mem_append] at breaks
      obtain ⟨low, more, form⟩ := List.exists_cons_of_ne_nil (lowerAt_ne_nil before c rest)
      have member : low ∈ lowerAt before c rest := form ▸ List.mem_cons_self
      have here := breaks.1 low member
      rw [(mem_lowerAt_iff here).mp member] at here
      exact List.forall_mem_cons.mpr ⟨here, induction breaks.2⟩

/-- Lower-casing makes no numeral and spoils none. -/
theorem integer?_lowerLetters (letters : List Char) :
    integer? (lowerLetters letters) = integer? letters := by
  by_cases breaks : ∀ c ∈ letters, isBreak c = true
  · rw [lowerLetters, lowerFrom_of_isSettled fun c member => isSettled_of_isBreak (breaks c member)]
  · have noNumeral : integer? letters = none :=
      Option.eq_none_iff_forall_ne_some.mpr fun _ read => breaks (isBreak_of_integer? read)
    have noneLower : integer? (lowerLetters letters) = none :=
      Option.eq_none_iff_forall_ne_some.mpr fun _ read =>
        breaks (isBreak_of_lowerFrom (isBreak_of_integer? read))
    rw [noNumeral, noneLower]

end Text

theorem tagsOfText_lower (value : String) : tagsOfText (lower value) = tagsOfText value := by
  have read (item : List Char) :
      signedNumeral? (trim (lowerLetters item)) = signedNumeral? (trim item) := by
    rw [trim_lowerLetters, signedNumeral?, integer?_lowerLetters, signedNumeral?]
  simp only [tagsOfText, lower, String.toList_ofList, splitAt_lowerLetters isBreak_comma,
    List.filterMap_map, Function.comp_def, read]

theorem tagsOfText_eq_of_lower_eq {value other : String} (same : lower value = lower other) :
    tagsOfText value = tagsOfText other := by
  rw [← tagsOfText_lower value, same, tagsOfText_lower]

/-- A text has become another by being lower-cased and by changing the case of letters
from A to Z. -/
inductive Recased (text : String) : String → Prop where
  | same : Recased text text
  | lowered {other : String} : Recased text other → Recased text (lower other)
  | ascii {other another : String} :
      Recased text other → equalIgnoringAsciiCase other another = true → Recased text another

theorem Recased.lower_eq {text other : String} (recased : Recased text other) :
    lower other = lower text := by
  induction recased with
  | same => rfl
  | lowered _ induction => rw [lower_lower, induction]
  | ascii _ alike induction => rw [← lower_eq_of_equalIgnoringAsciiCase alike, induction]

/-- Every part of a rule has been given in another case or stayed absent. -/
structure Rule.Recased (rule other : Rule) : Prop where
  field : Option.Rel Cohort.Recased rule.field other.field
  comparison : Option.Rel Cohort.Recased rule.comparison other.comparison
  value : Option.Rel Cohort.Recased rule.value other.value

theorem Recased.lower_getD_eq {part other : Option String} (recased : Option.Rel Recased part other)
    (absent : String) : lower (other.getD absent) = lower (part.getD absent) := by
  cases recased with
  | some recased => exact recased.lower_eq
  | none => rfl

theorem Operand.ofText_eq_of_lower_eq {text other : String} (same : lower text = lower other) :
    ofText text = ofText other := by
  have letters : lowerLetters text.toList = lowerLetters other.toList := String.ofList_inj.mp same
  simp only [ofText, letters]

theorem PreparedRule.ofRule_eq_of_recased {rule other : Rule} (recased : rule.Recased other) :
    ofRule other = ofRule rule := by
  have field : Field.ofName (other.field.getD "") = .ofName (rule.field.getD "") :=
    congrArg Field.ofLower (Recased.lower_getD_eq recased.field "")
  have comparison : Comparison.ofName (other.comparison.getD "equals") =
      .ofName (rule.comparison.getD "equals") :=
    congrArg Comparison.ofLower (Recased.lower_getD_eq recased.comparison "equals")
  have value := Recased.lower_getD_eq recased.value ""
  simp only [ofRule, field, comparison, Operand.ofText_eq_of_lower_eq value,
    tagsOfText_eq_of_lower_eq value]

/-- Comparisons answer alike whatever the case of both texts and of the name, and rules
judge alike whatever the case of their parts. -/
theorem Recased.same_answers :
    (∀ {text text' name name' wanted wanted' : String},
      Recased text text' → Recased name name' → Recased wanted wanted' →
        (Comparison.ofName name').holds text' wanted' =
          (Comparison.ofName name).holds text wanted) ∧
    ∀ {rule rule' : Rule}, rule.Recased rule' →
      (∀ view, (PreparedRule.ofRule rule').judge view = (PreparedRule.ofRule rule).judge view) ∧
        ∀ subject, rule'.isMatch subject = rule.isMatch subject := by
  constructor
  · intro text text' name name' wanted wanted' recasedText recasedName recasedWanted
    have letters : lowerLetters text'.toList = lowerLetters text.toList :=
      String.ofList_inj.mp recasedText.lower_eq
    rw [Comparison.ofName, recasedName.lower_eq, Comparison.holds, letters,
      Operand.ofText_eq_of_lower_eq recasedWanted.lower_eq]
    rfl
  · intro rule rule' recased
    have prepared := PreparedRule.ofRule_eq_of_recased recased
    simp only [Rule.isMatch, prepared, implies_true, and_self]

/-- The last letter of the street is a final sigma only after it has been
lower-cased. -/
theorem Recased.street_same_answers :
    let rule : Rule := { field := some "City", value := some "ΟΔΟΣ 5k" }
    let other : Rule := { field := some "cItY", value := some "οδος 5K" }
    let person : Subject :=
      { contact := { id := 1, owner := "ana", city := some "οδος 5k" }, tags := none }
    Recased "ΟΔΟΣ 5k" "οδος 5K" ∧
      (Comparison.ofName "EndsWith").holds "οδος 5K" "σ 5k" =
        (Comparison.ofName "endswith").holds "ΟΔΟΣ 5k" "σ 5k" ∧
      rule.Recased other ∧ other.isMatch person = rule.isMatch person ∧
      rule.isMatch person = true := by
  intro rule other person
  have street : Recased "ΟΔΟΣ 5k" "οδος 5K" := by
    have low : Recased "ΟΔΟΣ 5k" (lower "ΟΔΟΣ 5k") := .lowered .same
    exact .ascii low (by decide +kernel)
  have name : Recased "endswith" "EndsWith" := .ascii .same (by decide)
  have rules : rule.Recased other :=
    { field := .some (.ascii .same (by decide)), comparison := .none, value := .some street }
  exact ⟨street, Recased.same_answers.1 street name .same, rules,
    (Recased.same_answers.2 rules).2 person, by decide +kernel⟩

end Cohort
